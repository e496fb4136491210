import Srcmv.Proofs.Core.Index
import Srcmv.Soundness.Composition

/-! # What an accepted plan promises of its outputs

Every output belongs to a path of the snapshot. Its segments are nonempty slices within retained
files, and its recorded length and digest are those of their concatenation. Outputs come in
increasing path order.
-/

namespace Srcmv.Core

variable {snapshot : WorkspaceSnapshot} {states : StatesByPath} {filesById : FilesById}
  {sha256 : Bytes → Sha256Digest}

/-- A nonempty slice within a retained file. -/
structure ValidSegment (snapshot : WorkspaceSnapshot) (segment : OutputSegment) : Prop where
  nonempty : segment.range.start < segment.range.stop
  within : ∃ file, snapshot.fileById? segment.fileId = some file ∧ segment.range.stop ≤ file.bytes.length

/-- An output of an accepted plan. -/
structure ValidOutput (sha256 : Bytes → Sha256Digest) (snapshot : WorkspaceSnapshot) (output : PlannedOutput) : Prop where
  known : (∃ file ∈ snapshot.files, file.path = output.path) ∨
    ∃ missing ∈ snapshot.absentPaths, missing.path = output.path
  segments : ∀ segment ∈ output.segments, ValidSegment snapshot segment
  bytes : ∃ bytes, output.bytes? snapshot = some bytes ∧ output.resultingLength = bytes.length ∧
    output.resultingDigest = sha256 bytes
  bounded : output.resultingLength ≤ u64Max

theorem checkedAdd_eq_ok {left right sum : ℕ} {resource : String} :
    checkedAdd left right resource = .ok sum ↔ left + right ≤ u64Max ∧ sum = left + right := by
  rw [checkedAdd]
  split_ifs with fits
  · exact ⟨fun same => ⟨fits, (Except.ok.inj same).symm⟩, fun ⟨_, same⟩ => by rw [same]⟩
  · exact ⟨nofun, fun ⟨fits', _⟩ => absurd fits' fits⟩

/-! ## Streaming -/

/-- The stream has hashed the slices of the segments so far. -/
private structure Streamed (snapshot : WorkspaceSnapshot) (done : List OutputSegment) (stream : Stream) : Prop where
  read : ∀ segment ∈ done, segmentBytes? snapshot segment = some (segmentBytes snapshot segment)
  hashed : stream.hashed = done.flatMap (segmentBytes snapshot)
  length : stream.resultingLength = stream.hashed.length
  bounded : stream.resultingLength ≤ u64Max

/-- One push hashes and compares the bytes its segment names in the snapshot. -/
theorem push_reads {original : Option Bytes} {stream next : Stream} {segment : OutputSegment}
    (looksUp : LooksUp snapshot states filesById) (pushed : Stream.push filesById original stream segment = .ok next) :
    next.hashed = stream.hashed ++ segmentBytes snapshot segment ∧
      next.resultingLength = stream.resultingLength + (segmentBytes snapshot segment).length ∧
      next.resultingLength ≤ u64Max ∧
      ∀ bytes, original = some bytes →
        next.comparisonOffset = stream.comparisonOffset + (segmentBytes snapshot segment).length ∧
        (next.equalsOriginal = true ↔ stream.equalsOriginal = true ∧
          slice? bytes ⟨stream.comparisonOffset, next.comparisonOffset⟩ = some (segmentBytes snapshot segment)) := by
  have valid := push_ok looksUp pushed
  rw [Stream.push] at pushed
  obtain ⟨file, found, pushed⟩ := Except.bind_eq_ok.mp pushed
  obtain ⟨bytes, sliced, pushed⟩ := Except.bind_eq_ok.mp pushed
  obtain ⟨total, added, pushed⟩ := Except.bind_eq_ok.mp pushed
  obtain ⟨bounded, rfl⟩ := checkedAdd_eq_ok.mp added
  have byId : snapshot.fileById? segment.fileId = some file := by
    rw [← looksUp.byId]
    rw [fileOf] at found
    split at found
    · next present => rw [present, Except.ok.inj found]
    · cases found
  have read : segmentBytes snapshot segment = bytes := by
    rw [segmentBytes?, byId] at valid
    have slice : slice? file.bytes segment.range = some (segmentBytes snapshot segment) := valid
    rw [sliceRange_ok sliced] at slice
    exact (Option.some.inj slice).symm
  rw [read]
  cases original with
  | none =>
    obtain rfl := Except.pure_eq_ok.mp pushed
    exact ⟨rfl, rfl, bounded, fun _ same => by cases same⟩
  | some original =>
    obtain rfl := Except.pure_eq_ok.mp pushed
    refine ⟨rfl, rfl, bounded, fun _ same => ?_⟩
    obtain rfl := Option.some.inj same
    refine ⟨rfl, ?_⟩
    dsimp only
    -- Past the end of the original there is no slice to compare with.
    have outside : stream.comparisonOffset + bytes.length > original.length →
        slice? original ⟨stream.comparisonOffset, stream.comparisonOffset + bytes.length⟩ ≠ some bytes := by
      intro past found
      rw [slice?, if_neg fun valid => absurd valid.2 (by dsimp only; omega)] at found
      cases found
    by_cases same : slice? original ⟨stream.comparisonOffset, stream.comparisonOffset + bytes.length⟩ = some bytes
    · have inside : ¬stream.comparisonOffset + bytes.length > original.length := fun past => outside past same
      simp [same, inside]
    · simp [same]

private theorem streamed_step {original : Option Bytes} (looksUp : LooksUp snapshot states filesById)
    (done : List OutputSegment) (segment : OutputSegment) (current next : Stream)
    (streamed : Streamed snapshot done current)
    (pushed : Stream.push filesById original current segment = .ok next) :
    Streamed snapshot (done ++ [segment]) next := by
  obtain ⟨hashed, length, bounded, -⟩ := push_reads looksUp pushed
  refine ⟨?_, ?_, ?_, bounded⟩
  · intro other member
    rcases List.mem_append.mp member with earlier | last
    · exact streamed.read other earlier
    · rw [List.mem_singleton.mp last]
      exact push_ok looksUp pushed
  · rw [hashed, streamed.hashed, List.flatMap_append, List.flatMap_singleton]
  · rw [hashed, length, List.length_append, streamed.length]

/-- The streamed length and digest are those of the concatenated slices. -/
theorem streamOutput_facts {segments : List OutputSegment} {originalFileId : Option SnapshotFileId}
    {result : ℕ × Sha256Digest × Bool} (looksUp : LooksUp snapshot states filesById)
    (accepted : streamOutput sha256 segments filesById originalFileId = .ok result) :
    (∀ segment ∈ segments, segmentBytes? snapshot segment = some (segmentBytes snapshot segment)) ∧
      result.1 = (segments.flatMap (segmentBytes snapshot)).length ∧ result.1 ≤ u64Max ∧
      result.2.1 = sha256 (segments.flatMap (segmentBytes snapshot)) := by
  rw [streamOutput] at accepted
  obtain ⟨original, -, accepted⟩ := Except.bind_eq_ok.mp accepted
  obtain ⟨stream, folded, accepted⟩ := Except.bind_eq_ok.mp accepted
  obtain rfl := Except.pure_eq_ok.mp accepted
  have initial : Streamed snapshot [] { equalsOriginal := original.isSome } :=
    ⟨by simp, rfl, rfl, Nat.zero_le _⟩
  have whole := List.foldlM_ok_induction (streamed_step looksUp) segments initial folded
  rw [List.nil_append] at whole
  exact ⟨whole.read, by rw [← whole.hashed]; exact whole.length, whole.bounded, by rw [← whole.hashed]⟩

/-! ## Nonempty segments -/

private theorem survive_nonempty {sweep : Sweep} {edits : OutputEdits} {offset : ℕ} {segments : List OutputSegment}
    (nonempty : ∀ segment ∈ sweep.segments, segment.range.start < segment.range.stop)
    (survived : sweep.survive edits offset = .ok segments) :
    ∀ segment ∈ segments, segment.range.start < segment.range.stop := by
  rw [Sweep.survive] at survived
  split_ifs at survived with alive
  · split at survived
    · next fileId _ =>
      rw [← Except.ok.inj survived]
      intro segment member
      rcases List.mem_append.mp member with earlier | last
      · exact nonempty segment earlier
      · obtain rfl := List.mem_singleton.mp last
        exact alive.1
    · cases survived
  · rw [← Except.ok.inj survived]
    exact nonempty

/-- Every segment of a recipe is nonempty when every insertion is. -/
theorem buildSegments_nonempty {edits : OutputEdits} {segments : List OutputSegment}
    (ordered : edits.insertions.Pairwise fun left right => left.2.operationIndex ≤ right.2.operationIndex)
    (nonempty : ∀ entry ∈ edits.insertions, entry.2.range.start < entry.2.range.stop)
    (built : buildSegments edits = .ok segments) :
    ∀ segment ∈ segments, segment.range.start < segment.range.stop := by
  obtain ⟨sweep, folded, survived⟩ := Except.bind_eq_ok.mp built
  have atPoints : ∀ point ∈ (eventPoints edits).toList, ∀ insertion ∈ point.2.insertions,
      insertion.range.start < insertion.range.stop := by
    intro point member insertion inside
    rw [(eventPoints_faithful ordered).1 point member] at inside
    obtain ⟨entry, chosen, rfl⟩ := List.mem_map.mp inside
    exact nonempty entry (List.mem_filter.mp chosen).1
  generalize (eventPoints edits).toList = points at folded atPoints
  have swept : ∀ (points : List (ℕ × PointEvents)) (current final : Sweep),
      (∀ point ∈ points, ∀ insertion ∈ point.2.insertions, insertion.range.start < insertion.range.stop) →
      (∀ segment ∈ current.segments, segment.range.start < segment.range.stop) →
      points.foldlM (Sweep.visit edits) current = .ok final →
      ∀ segment ∈ final.segments, segment.range.start < segment.range.stop := by
    intro points
    induction points with
    | nil =>
      intro current final _ kept visited
      rw [List.foldlM_nil, Except.pure_eq_ok] at visited
      exact visited ▸ kept
    | cons point rest ih =>
      intro current final inserted kept visited
      rw [List.foldlM_cons] at visited
      obtain ⟨next, visits, visited⟩ := Except.bind_eq_ok.mp visited
      obtain ⟨-, segments, survived, rfl⟩ := visit_ok visits
      apply ih _ final (fun other member => inserted other (List.mem_cons_of_mem _ member)) _ visited
      intro segment member
      rcases List.mem_append.mp member with earlier | payload
      · exact survive_nonempty kept survived segment earlier
      · obtain ⟨insertion, inside, rfl⟩ := List.mem_map.mp payload
        exact inserted point List.mem_cons_self insertion inside
  exact survive_nonempty (swept points {} sweep atPoints (fun _ member => by cases member) folded) survived

/-! ## Accepted plans -/

private theorem segment_within {segment : OutputSegment} {bytes : Bytes}
    (read : segmentBytes? snapshot segment = some bytes) :
    ∃ file, snapshot.fileById? segment.fileId = some file ∧ segment.range.stop ≤ file.bytes.length := by
  rw [segmentBytes?] at read
  obtain ⟨file, found, sliced⟩ := Option.bind_eq_some_iff.mp read
  refine ⟨file, found, ?_⟩
  rw [slice?] at sliced
  split_ifs at sliced with valid
  exact valid.2

/-- Every segment of a planned output can be read. -/
theorem planOutput_reads {edits : OutputEdits} {output : PlannedOutput} (looksUp : LooksUp snapshot states filesById)
    (accepted : planOutput sha256 filesById edits = .ok output) :
    ∀ segment ∈ output.segments, (segmentBytes? snapshot segment).isSome := by
  rw [planOutput] at accepted
  obtain ⟨_, -, accepted⟩ := Except.bind_eq_ok.mp accepted
  obtain ⟨segments, -, accepted⟩ := Except.bind_eq_ok.mp accepted
  obtain ⟨result, streamed, accepted⟩ := Except.bind_eq_ok.mp accepted
  obtain ⟨_, -, accepted⟩ := Except.bind_eq_ok.mp accepted
  obtain rfl := Except.pure_eq_ok.mp accepted
  intro segment member
  rw [(streamOutput_facts looksUp streamed).1 segment member]
  rfl

theorem planOutput_valid {edits : OutputEdits} {output : PlannedOutput}
    (looksUp : LooksUp snapshot states filesById)
    (known : (∃ file ∈ snapshot.files, file.path = edits.path) ∨
      ∃ missing ∈ snapshot.absentPaths, missing.path = edits.path)
    (ordered : edits.insertions.Pairwise fun left right => left.2.operationIndex ≤ right.2.operationIndex)
    (nonempty : ∀ entry ∈ edits.insertions, entry.2.range.start < entry.2.range.stop)
    (accepted : planOutput sha256 filesById edits = .ok output) : ValidOutput sha256 snapshot output := by
  obtain ⟨path, -, built, bytes⟩ := planOutput_ok looksUp accepted
  rw [planOutput] at accepted
  obtain ⟨_, -, accepted⟩ := Except.bind_eq_ok.mp accepted
  obtain ⟨segments, again, accepted⟩ := Except.bind_eq_ok.mp accepted
  obtain ⟨⟨resultingLength, resultingDigest, equalsOriginal⟩, streamed, accepted⟩ := Except.bind_eq_ok.mp accepted
  obtain ⟨_, -, accepted⟩ := Except.bind_eq_ok.mp accepted
  obtain rfl := Except.pure_eq_ok.mp accepted
  obtain ⟨read, length, bounded, digest⟩ := streamOutput_facts looksUp streamed
  refine ⟨known, ?_, ⟨_, bytes, length, digest⟩, bounded⟩
  intro segment member
  exact ⟨buildSegments_nonempty ordered nonempty built segment member, segment_within (read segment member)⟩

/-- Every output of an accepted plan is valid, and the outputs are in path order. -/
theorem plan_valid {sizes : TypeSizes} {batch : BatchSpecification} {budget : ResourceBudget} {editPlan : EditPlan}
    (indexed : snapshot.Indexed) (planned : plan sha256 sizes snapshot batch budget = .ok editPlan) :
    (∀ output ∈ editPlan.outputs, ValidOutput sha256 snapshot output) ∧
      editPlan.outputs.Pairwise fun left right => left.path.value < right.path.value := by
  obtain ⟨⟨states, filesById⟩, indexedStates, planned⟩ := Except.bind_eq_ok.mp planned
  have looksUp := indexSnapshot_ok indexedStates
  obtain ⟨byPath, -⟩ := indexSnapshot_lookups indexedStates
  obtain ⟨_, -, planned⟩ := Except.bind_eq_ok.mp planned
  obtain ⟨⟨resolved, edits⟩, looped, planned⟩ := Except.bind_eq_ok.mp planned
  obtain ⟨resolutions, read, composes⟩ := planOperations_ok indexed looksUp looped
  obtain ⟨outputs, traversed, planned⟩ := Except.bind_eq_ok.mp planned
  obtain ⟨_, -, planned⟩ := Except.bind_eq_ok.mp planned
  obtain ⟨_, -, planned⟩ := Except.bind_eq_ok.mp planned
  obtain ⟨_, -, planned⟩ := Except.bind_eq_ok.mp planned
  obtain rfl := Except.pure_eq_ok.mp planned
  have recorded (path : WorkspaceRelativePath) (output : OutputEdits) (stored : (path, output) ∈ edits.toList) :=
    composes.recorded path output (Std.TreeMap.mem_toList_iff_getElem?_eq_some.mp stored)
  constructor
  · intro output member
    obtain ⟨edit, listed, produced⟩ := List.mapM_ok_mem traversed member
    obtain ⟨⟨path, _⟩, stored, rfl⟩ := List.mem_map.mp listed
    obtain ⟨state, known, shape⟩ := recorded _ _ stored
    dsimp only at shape produced
    subst shape
    refine planOutput_valid looksUp ?_ ?_ ?_ produced
    · rcases (byPath _ _).mp known with ⟨file, inside, same, -⟩ | ⟨missing, inside, same, -⟩
      · exact .inl ⟨file, inside, WorkspaceRelativePath.value_inj.mp same⟩
      · exact .inr ⟨missing, inside, WorkspaceRelativePath.value_inj.mp same⟩
    · exact insertions_ordered read path
    · intro entry inserted
      obtain ⟨resolution, inside, inserts⟩ := List.mem_filterMap.mp inserted
      obtain ⟨_, reads⟩ := reads_of_mem read inside
      rw [Resolution.inserts] at inserts
      split_ifs at inserts
      rw [← Option.some.inj inserts]
      exact reads.nonempty
  · have paths : outputs.map PlannedOutput.path = edits.toList.map Prod.fst := by
      have each := List.forall₂_map_left_iff.mp (List.forall₂_of_mapM_ok traversed)
      apply List.ext_getElem
      · rw [List.length_map, List.length_map, each.length_eq]
      · intro index inOutputs inEdits
        rw [List.length_map] at inOutputs inEdits
        rw [List.getElem_map, List.getElem_map]
        have produced := each.get inEdits inOutputs
        obtain ⟨state, -, shape⟩ := recorded _ _ (List.getElem_mem inEdits)
        exact (planOutput_ok looksUp produced).1.trans (congrArg OutputEdits.path shape)
    have increasing : (edits.toList.map Prod.fst).Pairwise fun left right => left.value < right.value := by
      rw [List.pairwise_map]
      have ordered := @Std.TreeMap.ordered_keys_toList _ _ _ edits _
      apply ordered.imp
      intro left right less
      exact compare_lt_iff_lt.mp (show compare left.1.value right.1.value = .lt from less)
    rw [← paths, List.pairwise_map] at increasing
    exact increasing

end Srcmv.Core
