import Srcmv.Proofs.Core.PlannedOutputs

/-! # When the planner's steps succeed

A request whose preconditions hold in the snapshot and whose coordinates are in range resolves. The
edits of a path are accepted exactly when its deletions are disjoint and contain no insertion, and
an accepted recipe is built, read and encoded without reaching any of the internal errors.
-/

namespace Srcmv.Core

variable {snapshot : WorkspaceSnapshot} {states : StatesByPath} {filesById : FilesById}
  {sha256 : Bytes → Sha256Digest}

/-! ## Requests in range -/

/-- The selector names existing lines or a nonempty byte range of the file. -/
def Selector.InRange (file : FileSnapshot) : Selector → Prop
  | .lines first last => 1 ≤ first ∧ first ≤ last ∧ last ≤ file.lineIndex.lineCount
  | .bytes start stop => start < stop ∧ stop ≤ file.bytes.length

/-- The anchor names an existing line or offset; an absent file has only its start. -/
def Anchor.InRange : Option FileSnapshot → Anchor → Prop
  | _, .fileStart => True
  | _, .fileEnd => True
  | some file, .beforeLine line => 1 ≤ line ∧ line ≤ file.lineIndex.lineCount
  | some file, .afterLine line => 1 ≤ line ∧ line ≤ file.lineIndex.lineCount
  | some file, .byteOffset offset => offset ≤ file.bytes.length
  | none, .byteOffset offset => offset = 0
  | none, _ => False

instance (file : FileSnapshot) : (selector : Selector) → Decidable (selector.InRange file)
  | .lines first last => inferInstanceAs (Decidable (1 ≤ first ∧ first ≤ last ∧ last ≤ file.lineIndex.lineCount))
  | .bytes start stop => inferInstanceAs (Decidable (start < stop ∧ stop ≤ file.bytes.length))

/-- The source exists with the required digest and contains the selection. -/
def SourceSelection.WellPosed (snapshot : WorkspaceSnapshot) (source : SourceSelection) : Prop :=
  ∃ file ∈ snapshot.files, file.path = source.path ∧ source.precondition = .sha256 file.digest ∧
    source.selector.InRange file

/-- The destination is in the required state and contains the anchor. -/
def Destination.WellPosed (snapshot : WorkspaceSnapshot) (destination : Destination) : Prop :=
  (∃ file ∈ snapshot.files, file.path = destination.path ∧ destination.precondition = .sha256 file.digest ∧
    destination.anchor.InRange (some file)) ∨
  ∃ missing ∈ snapshot.absentPaths, missing.path = destination.path ∧ destination.precondition = .mustNotExist ∧
    destination.anchor.InRange none

/-- The preconditions of the batch hold in the snapshot and its coordinates are in range. -/
def BatchSpecification.WellPosed (snapshot : WorkspaceSnapshot) (batch : BatchSpecification) : Prop :=
  ∀ operation ∈ batch.operations, (operationParts operation).2.source.WellPosed snapshot ∧
    (operationParts operation).2.destination.WellPosed snapshot

theorem LineIndex.lineStart_of_le {index : LineIndex} {line : ℕ} (positive : 1 ≤ line) (bounded : line ≤ index.lineCount) :
    ∃ start, index.lineStart line = some start := by
  rw [lineStart, if_neg (by omega)]
  split_ifs with first
  · exact ⟨0, rfl⟩
  · exact ⟨_, List.getElem?_eq_getElem (show line - 2 < index.boundaries.length by rw [lineCount] at bounded; omega)⟩

theorem LineIndex.lineEnd_of_le {index : LineIndex} {line : ℕ} (positive : 1 ≤ line) (bounded : line ≤ index.lineCount) :
    ∃ stop, index.lineEnd line = some stop := by
  rw [lineEnd, if_neg (by omega)]
  exact ⟨_, List.getElem?_eq_getElem (show line - 1 < index.boundaries.length by rw [lineCount] at bounded; omega)⟩

theorem resolveSelector_succeeds {file : FileSnapshot} {selector : Selector} (inRange : selector.InRange file) (index : ℕ) :
    ∃ range, resolveSelector file selector index = .ok range := by
  cases selector with
  | lines first last =>
    obtain ⟨positive, ordered, bounded⟩ := inRange
    obtain ⟨start, foundStart⟩ := LineIndex.lineStart_of_le positive (ordered.trans bounded)
    obtain ⟨stop, foundStop⟩ := LineIndex.lineEnd_of_le (positive.trans ordered) bounded
    rw [resolveSelector, if_neg (by omega), foundStart, foundStop]
    exact ⟨_, rfl⟩
  | bytes start stop =>
    exact ⟨_, if_pos inRange⟩

theorem resolveAnchor_succeeds {state : SnapshotState} {anchor : Anchor} (inRange : anchor.InRange state.file?) (index : ℕ) :
    ∃ offset, resolveAnchor state anchor index = .ok offset := by
  cases state with
  | existing file =>
    cases anchor with
    | fileStart => exact ⟨0, rfl⟩
    | fileEnd => exact ⟨_, rfl⟩
    | beforeLine line =>
      obtain ⟨offset, found⟩ := LineIndex.lineStart_of_le inRange.1 inRange.2
      exact ⟨offset, by simp only [resolveAnchor, found]⟩
    | afterLine line =>
      obtain ⟨offset, found⟩ := LineIndex.lineEnd_of_le inRange.1 inRange.2
      exact ⟨offset, by simp only [resolveAnchor, found]⟩
    | byteOffset offset => exact ⟨offset, if_pos inRange⟩
  | absent missing =>
    cases anchor with
    | fileStart => exact ⟨0, rfl⟩
    | fileEnd => exact ⟨0, rfl⟩
    | beforeLine line => cases inRange
    | afterLine line => cases inRange
    | byteOffset offset =>
      obtain rfl : offset = 0 := inRange
      exact ⟨0, rfl⟩

/-- A resolved anchor lies within its destination. -/
theorem resolveAnchor_le {state : SnapshotState} {anchor : Anchor} {index offset : ℕ}
    (bounds : ∀ file, state.file? = some file → file.lineIndex.Bounds file.bytes.length)
    (accepted : resolveAnchor state anchor index = .ok offset) : offset ≤ state.length := by
  cases state with
  | existing file =>
    have fileBounds := bounds file rfl
    cases anchor with
    | fileStart => exact (Except.ok.inj accepted) ▸ Nat.zero_le _
    | fileEnd => exact (Except.ok.inj accepted).symm.le
    | beforeLine line =>
      simp only [resolveAnchor] at accepted
      split at accepted
      · next found => exact (Except.ok.inj accepted) ▸ fileBounds.lineStart_le found
      · cases accepted
    | afterLine line =>
      simp only [resolveAnchor] at accepted
      split at accepted
      · next found => exact (Except.ok.inj accepted) ▸ fileBounds.lineEnd_le found
      · cases accepted
    | byteOffset requested =>
      simp only [resolveAnchor] at accepted
      split_ifs at accepted with inside
      exact (Except.ok.inj accepted) ▸ inside
  | absent missing =>
    simp only [resolveAnchor] at accepted
    split at accepted
    · exact (Except.ok.inj accepted).symm.le
    · exact (Except.ok.inj accepted).symm.le
    · exact (Except.ok.inj accepted).symm.le
    · cases accepted

/-! ## The planning loop -/

/-- What a request must state about a path in this state. -/
def SnapshotState.precondition : SnapshotState → Precondition
  | .existing file => .sha256 file.digest
  | .absent _ => .mustNotExist

/-- What a well posed batch finds at the two paths of a request. -/
structure Finds (states : StatesByPath) (specification : OperationSpecification) (file : FileSnapshot)
    (state : SnapshotState) : Prop where
  source : states[specification.source.path.value]? = some (.existing file)
  required : specification.source.precondition = .sha256 file.digest
  selected : specification.source.selector.InRange file
  destination : states[specification.destination.path.value]? = some state
  awaited : specification.destination.precondition = state.precondition
  anchored : specification.destination.anchor.InRange state.file?

theorem BatchSpecification.WellPosed.finds {batch : BatchSpecification} (posed : batch.WellPosed snapshot)
    (accepted : indexSnapshot snapshot = .ok (states, filesById)) {operation : Operation}
    (member : operation ∈ batch.operations) :
    ∃ file state, Finds states (operationParts operation).2 file state := by
  obtain ⟨byPath, -⟩ := indexSnapshot_lookups accepted
  obtain ⟨⟨file, inside, path, required, selected⟩, destination⟩ := posed operation member
  have source := (byPath (operationParts operation).2.source.path.value (.existing file)).mpr
    (.inl ⟨file, inside, congrArg _ path, rfl⟩)
  rcases destination with ⟨other, present, at_path, awaited, anchored⟩ | ⟨missing, absent, at_path, awaited, anchored⟩
  · have found := (byPath (operationParts operation).2.destination.path.value (.existing other)).mpr
      (.inl ⟨other, present, congrArg _ at_path, rfl⟩)
    exact ⟨file, .existing other, source, required, selected, found, awaited, anchored⟩
  · have found := (byPath (operationParts operation).2.destination.path.value (.absent missing)).mpr
      (.inr ⟨missing, absent, congrArg _ at_path, rfl⟩)
    exact ⟨file, .absent missing, source, required, selected, found, awaited, anchored⟩

/-- The preconditions recorded so far hold of the states of their paths. -/
private def PreconditionsHold (states : StatesByPath) (byPath : Std.TreeMap String Precondition) : Prop :=
  ∀ (path : String) (precondition : Precondition), byPath[path]? = some precondition →
    ∃ state, states[path]? = some state ∧ precondition = state.precondition

private theorem insertPrecondition_succeeds {index : ℕ} {byPath : Std.TreeMap String Precondition}
    {path : WorkspaceRelativePath} {precondition : Precondition} {state : SnapshotState}
    (hold : PreconditionsHold states byPath) (known : states[path.value]? = some state)
    (required : precondition = state.precondition) :
    ∃ next, insertPrecondition index byPath (path, precondition) = .ok next ∧ PreconditionsHold states next := by
  have extended : PreconditionsHold states (byPath.insert path.value precondition) := by
    intro other recorded found
    rw [Std.TreeMap.getElem?_insert] at found
    by_cases same : path.value = other
    · rw [if_pos (compare_eq_iff_eq.mpr same)] at found
      exact ⟨state, same ▸ known, (Option.some.inj found) ▸ required⟩
    · rw [if_neg (fun equal => same (compare_eq_iff_eq.mp equal))] at found
      exact hold other recorded found
  refine ⟨_, ?_, extended⟩
  rw [insertPrecondition]
  split
  · next previous found =>
    obtain ⟨other, again, previously⟩ := hold _ _ found
    obtain rfl := Option.some.inj (known.symm.trans again)
    rw [if_neg (not_not.mpr (previously.trans required.symm))]
  · rfl

/-- Preconditions that hold in one snapshot are consistent with one another. -/
theorem validatePreconditionConsistency_succeeds {batch : BatchSpecification} (posed : batch.WellPosed snapshot)
    (accepted : indexSnapshot snapshot = .ok (states, filesById)) : validatePreconditionConsistency batch = .ok () := by
  rw [validatePreconditionConsistency]
  have initial : PreconditionsHold states ∅ := fun path precondition found => by simp at found
  obtain ⟨result, folded, -⟩ : ∃ result, batch.operations.zipIdx.foldlM (fun byPath (entry : Operation × ℕ) =>
      [((operationParts entry.1).2.source.path, (operationParts entry.1).2.source.precondition),
        ((operationParts entry.1).2.destination.path, (operationParts entry.1).2.destination.precondition)].foldlM
        (insertPrecondition entry.2) byPath) ∅ = .ok result ∧ PreconditionsHold states result :=
    List.foldlM_succeeds (fun entry member byPath hold => by
      have listed : entry.1 ∈ batch.operations := by
        rw [← List.zipIdx_map_fst 0 batch.operations]
        exact List.mem_map_of_mem member
      obtain ⟨file, state, finds⟩ := posed.finds accepted listed
      obtain ⟨middle, first, between⟩ := insertPrecondition_succeeds hold finds.source finds.required
      obtain ⟨last, second, after⟩ := insertPrecondition_succeeds between finds.destination finds.awaited
      refine ⟨last, ?_, after⟩
      rw [List.foldlM_cons, first, Except.ok_bind, List.foldlM_cons, second, Except.ok_bind]
      rfl) initial
  rw [folded]
  rfl

private theorem existingSource_succeeds {specification : OperationSpecification} {file : FileSnapshot} {state : SnapshotState}
    (finds : Finds states specification file state) (index : ℕ) : existingSource states specification index = .ok file := by
  simp [existingSource, finds.required, finds.source]

private theorem destinationState_succeeds {specification : OperationSpecification} {file : FileSnapshot}
    {state : SnapshotState} (finds : Finds states specification file state) (index : ℕ) :
    destinationState states specification index = .ok state := by
  cases state with
  | existing other => simp [destinationState, finds.destination, finds.awaited, SnapshotState.precondition]
  | absent missing => simp [destinationState, finds.destination, finds.awaited, SnapshotState.precondition]

/-- A request that finds what it states resolves. -/
theorem resolveOperation_succeeds {operation : Operation} {file : FileSnapshot} {state : SnapshotState}
    (bounds : file.lineIndex.Bounds file.bytes.length) (finds : Finds states (operationParts operation).2 file state)
    (index : ℕ) : ∃ resolution, resolveOperation sha256 states operation index = .ok resolution := by
  obtain ⟨range, selected⟩ := resolveSelector_succeeds finds.selected index
  obtain ⟨-, nonempty, bounded⟩ := resolveSelector_ok bounds selected
  obtain ⟨offset, anchored⟩ := resolveAnchor_succeeds finds.anchored index
  have sliced : ∃ bytes, sliceRange file.bytes range = .ok bytes := by
    rw [sliceRange, slice?_of_le nonempty.le bounded]
    exact ⟨_, rfl⟩
  obtain ⟨bytes, sliced⟩ := sliced
  rw [resolveOperation]
  generalize operationParts operation = parts at finds selected anchored ⊢
  obtain ⟨kind, specification⟩ := parts
  dsimp only at finds selected anchored ⊢
  rw [existingSource_succeeds finds, Except.ok_bind, selected, Except.ok_bind, sliced, Except.ok_bind,
    destinationState_succeeds finds, Except.ok_bind, anchored, Except.ok_bind]
  exact ⟨_, rfl⟩

/-- An output is recorded once for one state of its path. -/
theorem outputEdits_succeeds {edits : Edits} {path : WorkspaceRelativePath} {state : SnapshotState}
    (recorded : Recorded states edits) (known : states[path.value]? = some state) (update : OutputEdits → OutputEdits) :
    ∃ result, outputEdits edits path state update = .ok result := by
  have same : ((edits[path]?).getD (state.noEdits path)).existingFileId = state.fileId := by
    cases present : edits[path]? with
    | none => rfl
    | some output =>
      obtain ⟨other, again, -, sameId⟩ := recorded path output present
      obtain rfl := Option.some.inj (known.symm.trans again)
      exact sameId
  exact ⟨_, if_neg (not_not.mpr same)⟩

theorem applyResolution_succeeds {edits : Edits} {resolution : Resolution} (recorded : Recorded states edits)
    (source : states[resolution.operation.sourcePath.value]? = some (.existing resolution.source))
    (destination : states[resolution.operation.destinationPath.value]? = some resolution.destination) :
    ∃ result, applyResolution edits resolution = .ok result := by
  rw [applyResolution]
  dsimp only
  split_ifs with ineffective moved
  · exact ⟨edits, rfl⟩
  · obtain ⟨middle, deleted⟩ := outputEdits_succeeds recorded source fun output =>
      { output with deletions := output.deletions ++ [(resolution.operation.operationIndex, resolution.operation.sourceRange)] }
    rw [deleted, Except.ok_bind]
    exact outputEdits_succeeds (outputEdits_recorded recorded source deleted fun _ => ⟨rfl, rfl⟩) destination _
  · rw [Except.ok_bind]
    exact outputEdits_succeeds recorded destination _

/-- The planning loop resolves every request of a well posed batch. -/
theorem planOperations_succeeds {batch : BatchSpecification} (indexed : snapshot.Indexed) (posed : batch.WellPosed snapshot)
    (accepted : indexSnapshot snapshot = .ok (states, filesById)) :
    ∃ result, batch.operations.zipIdx.foldlM (planOperation sha256 states) ([], ∅) = .ok result := by
  have looksUp := indexSnapshot_ok accepted
  have initial : Recorded states (([], ∅) : List ResolvedOperation × Edits).2 := fun path output found => by simp at found
  obtain ⟨result, looped, -⟩ : ∃ result, batch.operations.zipIdx.foldlM (planOperation sha256 states) ([], ∅) = .ok result ∧
      (fun progress : List ResolvedOperation × Edits => Recorded states progress.2) result :=
    List.foldlM_succeeds (fun entry member progress recorded => by
      have listed : entry.1 ∈ batch.operations := by
        rw [← List.zipIdx_map_fst 0 batch.operations]
        exact List.mem_map_of_mem member
      obtain ⟨file, state, finds⟩ := posed.finds accepted listed
      obtain ⟨_, _, built⟩ := indexed file (fileAt?_mem (looksUp.byPath _ _ finds.source).symm)
      obtain ⟨resolution, resolved⟩ : ∃ resolution, resolveOperation sha256 states entry.1 entry.2 = .ok resolution :=
        resolveOperation_succeeds (LineIndex.bounds_of_fromBytes built) finds entry.2
      obtain ⟨source, destination⟩ := resolveOperation_known resolved
      obtain ⟨edits, applied⟩ := applyResolution_succeeds recorded source destination
      have planned : planOperation sha256 states progress entry = .ok (progress.1 ++ [resolution.operation], edits) := by
        rw [planOperation, resolved, Except.ok_bind, applied, Except.ok_bind]
        rfl
      exact ⟨_, planned, planOperation_recorded recorded planned⟩) initial
  exact ⟨result, looped⟩

end Srcmv.Core
