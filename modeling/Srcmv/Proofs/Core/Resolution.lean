import Srcmv.Model.Core.Reference
import Srcmv.ToMathlib.Except

/-! # Accepted resolutions read the snapshot

The planner's lookups agree with the snapshot, and a resolved operation is the reference reading of
its request: the same source, the same nonempty range within it, and the same offset.
-/

namespace Srcmv.Core

def SnapshotState.file? : SnapshotState → Option FileSnapshot
  | .existing file => some file
  | .absent _ => none

/-- The two lookups of `indexSnapshot` answer as the snapshot does. -/
structure LooksUp (snapshot : WorkspaceSnapshot) (states : StatesByPath) (filesById : FilesById) : Prop where
  byPath : ∀ (path : WorkspaceRelativePath) state, states[path.value]? = some state →
    state.file? = snapshot.fileAt? path
  byId : ∀ id, filesById[id]? = snapshot.fileById? id
  unique : ∀ file ∈ snapshot.files, filesById[file.id]? = some file

/-- The lookups after the files of a prefix were indexed. -/
private structure FilesIndexed (files : List FileSnapshot) (indexed : StatesByPath × FilesById) : Prop where
  byPath : ∀ path : WorkspaceRelativePath, indexed.1[path.value]? =
    (files.find? fun file => file.path = path).map SnapshotState.existing
  byId : ∀ id, indexed.2[id]? = files.find? fun file => file.id = id
  unique : ∀ file ∈ files, indexed.2[file.id]? = some file

private theorem filesIndexed_step (files : List FileSnapshot) (file : FileSnapshot)
    (current next : StatesByPath × FilesById) (indexed : FilesIndexed files current)
    (stepped : (if current.1[file.path.value]?.isSome then
        Except.error (CoreError.invalidDomainValue "duplicate_snapshot_path")
      else if current.2[file.id]?.isSome then .error (.invalidDomainValue "duplicate_snapshot_file_id")
      else .ok (current.1.insert file.path.value (.existing file), current.2.insert file.id file)) = .ok next) :
    FilesIndexed (files ++ [file]) next := by
  split_ifs at stepped with pathUsed idUsed
  obtain rfl := Except.ok.inj stepped
  rw [Bool.not_eq_true, Option.isSome_eq_false_iff, Option.isNone_iff_eq_none] at pathUsed idUsed
  constructor
  · intro path
    rw [Std.TreeMap.getElem?_insert, List.find?_append, List.find?_singleton]
    by_cases same : file.path = path
    · subst same
      have missing := pathUsed
      rw [indexed.byPath, Option.map_eq_none_iff] at missing
      simp [missing]
    · simp [WorkspaceRelativePath.value_inj, same, indexed.byPath]
  · intro id
    rw [Std.TreeMap.getElem?_insert, List.find?_append, List.find?_singleton]
    by_cases same : file.id = id
    · subst same
      have missing := idUsed
      rw [indexed.byId] at missing
      simp [missing]
    · simp [same, indexed.byId]
  · intro other member
    rw [Std.TreeMap.getElem?_insert]
    rcases List.mem_append.mp member with member | member
    · have found := indexed.unique other member
      have different : file.id ≠ other.id := fun same => by rw [← same, idUsed] at found; cases found
      simp [different, found]
    · obtain rfl := List.mem_singleton.mp member
      simp

/-- Absent paths extend the states only where no file is indexed. -/
private def FilesKept (snapshot : WorkspaceSnapshot) (_absent : List AbsentPathSnapshot)
    (states : StatesByPath) : Prop :=
  ∀ path : WorkspaceRelativePath, (states[path.value]?).bind SnapshotState.file? = snapshot.fileAt? path ∧
    ∀ state, states[path.value]? = some state → state.file? = snapshot.fileAt? path

private theorem filesKept_step {snapshot : WorkspaceSnapshot} (done : List AbsentPathSnapshot)
    (missing : AbsentPathSnapshot) (current next : StatesByPath) (kept : FilesKept snapshot done current)
    (stepped : (if current[missing.path.value]?.isSome then
        Except.error (CoreError.editConflict "path_used_as_absent_and_existing" none)
      else .ok (current.insert missing.path.value (.absent missing))) = .ok next) :
    FilesKept snapshot (done ++ [missing]) next := by
  intro path
  split_ifs at stepped with used
  obtain rfl := Except.ok.inj stepped
  rw [Bool.not_eq_true, Option.isSome_eq_false_iff, Option.isNone_iff_eq_none] at used
  rw [Std.TreeMap.getElem?_insert]
  by_cases same : missing.path = path
  · subst same
    have unindexed := (kept missing.path).1
    rw [used] at unindexed
    simp [← unindexed, SnapshotState.file?]
  · simpa [WorkspaceRelativePath.value_inj, same] using kept path

/-- An accepted index answers every lookup as the snapshot does. -/
theorem indexSnapshot_ok {snapshot : WorkspaceSnapshot} {states : StatesByPath} {filesById : FilesById}
    (accepted : indexSnapshot snapshot = .ok (states, filesById)) :
    LooksUp snapshot states filesById := by
  rw [indexSnapshot, Except.bind_eq_ok] at accepted
  obtain ⟨⟨existing, byId⟩, folded, accepted⟩ := accepted
  rw [Except.bind_eq_ok] at accepted
  obtain ⟨all, absents, accepted⟩ := accepted
  obtain ⟨rfl, rfl⟩ := Prod.mk.inj (Except.pure_eq_ok.mp accepted)
  have indexed : FilesIndexed ([] ++ snapshot.files) (existing, byId) :=
    List.foldlM_ok_induction filesIndexed_step _ ⟨by simp, by simp, by simp⟩ folded
  rw [List.nil_append] at indexed
  have initial : FilesKept snapshot [] existing := by
    intro path
    have found := indexed.byPath path
    simp only at found
    rw [found, WorkspaceSnapshot.fileAt?]
    cases snapshot.files.find? fun file => file.path = path with
    | none => simp
    | some file => simp [SnapshotState.file?]
  have kept := List.foldlM_ok_induction filesKept_step _ initial absents
  exact ⟨fun path => (kept path).2, indexed.byId, indexed.unique⟩

theorem existingSource_ok {states : StatesByPath} {specification : OperationSpecification}
    {operationIndex : ℕ} {source : FileSnapshot}
    (accepted : existingSource states specification operationIndex = .ok source) :
    states[specification.source.path.value]? = some (.existing source) := by
  unfold existingSource at accepted
  split at accepted
  · contradiction
  · split at accepted
    · next file found =>
      split_ifs at accepted
      rw [found, Except.ok.inj accepted]
    · contradiction

theorem destinationState_ok {states : StatesByPath} {specification : OperationSpecification}
    {operationIndex : ℕ} {state : SnapshotState}
    (accepted : destinationState states specification operationIndex = .ok state) :
    states[specification.destination.path.value]? = some state := by
  unfold destinationState at accepted
  split at accepted
  · contradiction
  · next found =>
    split at accepted
    · split_ifs at accepted
      rw [found, Except.ok.inj accepted]
    · rw [found, Except.ok.inj accepted]
    · contradiction
    · contradiction

/-- A resolved selector is the reference range, nonempty and within the source. -/
theorem resolveSelector_ok {source : FileSnapshot} {selector : Selector} {operationIndex : ℕ}
    {range : ByteRange} (bounds : source.lineIndex.Bounds source.bytes.length)
    (accepted : resolveSelector source selector operationIndex = .ok range) :
    selectedRange? source selector = some range ∧ range.start < range.stop ∧
      range.stop ≤ source.bytes.length := by
  unfold resolveSelector at accepted
  cases selector with
  | lines first last =>
    simp only at accepted
    split_ifs at accepted with invalid
    split at accepted
    · next start stop foundStart foundStop =>
      obtain rfl := Except.ok.inj accepted
      refine ⟨?_, bounds.lineStart_lt_lineEnd (by omega) foundStart foundStop, bounds.lineEnd_le foundStop⟩
      simp [selectedRange?, foundStart, foundStop]
    · contradiction
  | bytes start stop =>
    simp only at accepted
    split_ifs at accepted with valid
    obtain rfl := Except.ok.inj accepted
    exact ⟨rfl, valid⟩

/-- A resolved anchor is the reference offset. -/
theorem resolveAnchor_ok {destination : SnapshotState} {anchor : Anchor} {operationIndex offset : ℕ}
    (accepted : resolveAnchor destination anchor operationIndex = .ok offset) :
    anchorOffset? destination.file? anchor = some offset := by
  cases destination with
  | existing file =>
    cases anchor with
    | fileStart => exact congrArg some (Except.ok.inj accepted)
    | fileEnd => exact congrArg some (Except.ok.inj accepted)
    | beforeLine line =>
      simp only [resolveAnchor] at accepted
      split at accepted
      · next found => simpa [anchorOffset?, SnapshotState.file?, found] using Except.ok.inj accepted
      · contradiction
    | afterLine line =>
      simp only [resolveAnchor] at accepted
      split at accepted
      · next found => simpa [anchorOffset?, SnapshotState.file?, found] using Except.ok.inj accepted
      · contradiction
    | byteOffset requested =>
      simp only [resolveAnchor] at accepted
      split_ifs at accepted
      exact congrArg some (Except.ok.inj accepted)
  | absent missing =>
    simp only [resolveAnchor] at accepted
    split at accepted
    · exact congrArg some (Except.ok.inj accepted)
    · exact congrArg some (Except.ok.inj accepted)
    · exact congrArg some (Except.ok.inj accepted)
    · contradiction

namespace Resolution

/-- The resolution as the reference reads its request. -/
def reference (resolution : Resolution) : ReferenceEdit where
  removes := resolution.operation.kind = .move
  source := resolution.operation.sourcePath
  range := resolution.operation.sourceRange
  destination := resolution.operation.destinationPath
  offset := resolution.operation.destinationOffset
  payload := (resolution.source.bytes.drop resolution.operation.sourceRange.start).take
    (resolution.operation.sourceRange.stop - resolution.operation.sourceRange.start)

/-- What an accepted resolution knows about its request, the lookups and the snapshot. -/
structure Reads (snapshot : WorkspaceSnapshot) (states : StatesByPath) (entry : Operation × ℕ)
    (resolution : Resolution) : Prop where
  index : resolution.operation.operationIndex = entry.2
  source : states[resolution.operation.sourcePath.value]? = some (.existing resolution.source)
  destination : states[resolution.operation.destinationPath.value]? = some resolution.destination
  nonempty : resolution.operation.sourceRange.start < resolution.operation.sourceRange.stop
  bounded : resolution.operation.sourceRange.stop ≤ resolution.source.bytes.length
  effect : resolution.operation.effect = .changed ↔ resolution.reference.effectful = true
  reference : referenceEdit snapshot entry.1 = some resolution.reference

end Resolution

theorem fileAt?_mem {snapshot : WorkspaceSnapshot} {path : WorkspaceRelativePath} {file : FileSnapshot}
    (found : snapshot.fileAt? path = some file) : file ∈ snapshot.files :=
  List.mem_of_find?_eq_some found

/-- An accepted resolution is the reference reading of its request. -/
theorem resolveOperation_ok {sha256 : Bytes → Sha256Digest} {snapshot : WorkspaceSnapshot}
    {states : StatesByPath} {filesById : FilesById} {operation : Operation} {operationIndex : ℕ}
    {resolution : Resolution} (indexed : snapshot.Indexed) (looksUp : LooksUp snapshot states filesById)
    (accepted : resolveOperation sha256 states operation operationIndex = .ok resolution) :
    resolution.Reads snapshot states (operation, operationIndex) := by
  rw [resolveOperation, Except.bind_eq_ok] at accepted
  obtain ⟨source, sourced, accepted⟩ := accepted
  rw [Except.bind_eq_ok] at accepted
  obtain ⟨range, selected, accepted⟩ := accepted
  rw [Except.bind_eq_ok] at accepted
  obtain ⟨slice, -, accepted⟩ := accepted
  rw [Except.bind_eq_ok] at accepted
  obtain ⟨destination, destined, accepted⟩ := accepted
  rw [Except.bind_eq_ok] at accepted
  obtain ⟨offset, anchored, accepted⟩ := accepted
  obtain rfl := Except.pure_eq_ok.mp accepted
  have foundSource := existingSource_ok sourced
  have foundDestination := destinationState_ok destined
  have sourceAt := looksUp.byPath _ _ foundSource
  have destinationAt := looksUp.byPath _ _ foundDestination
  obtain ⟨_, _, built⟩ := indexed source (fileAt?_mem sourceAt.symm)
  obtain ⟨selects, nonempty, bounded⟩ :=
    resolveSelector_ok (LineIndex.bounds_of_fromBytes built) selected
  have anchors := resolveAnchor_ok anchored
  rw [destinationAt] at anchors
  exact {
    index := rfl
    source := foundSource
    destination := foundDestination
    nonempty
    bounded
    effect := by
      simp only [Resolution.reference, ReferenceEdit.effectful, operationEffect, decide_eq_true_eq]
      split_ifs with noOp
      · simp [noOp]
      · simpa using noOp
    reference := by
      simp [referenceEdit, ← sourceAt, SnapshotState.file?, selects, anchors, Resolution.reference] }

end Srcmv.Core
