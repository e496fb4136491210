import Srcmv.Proofs.Core.Edits
import Srcmv.Proofs.Core.Sweep

/-! # Plans compose as documented

For any snapshot whose line indexes were built from its bytes, and any accepted batch, the recipe of
every output names bytes that are exactly the reference output of its path. The statement covers
all operations over all files at once: moves with adjacent deletions, insertions at deletion
boundaries, several insertions at one offset, insertions at the end, and absent destinations.
-/

namespace Srcmv.Core

variable {snapshot : WorkspaceSnapshot} {states : StatesByPath} {filesById : FilesById}

/-- The bytes of a segment whose slice is known to be valid. -/
def segmentBytes (snapshot : WorkspaceSnapshot) (segment : OutputSegment) : Bytes :=
  (segmentBytes? snapshot segment).getD []

theorem push_ok {original : Option Bytes} {stream next : Stream} {segment : OutputSegment}
    (looksUp : LooksUp snapshot states filesById)
    (pushed : Stream.push filesById original stream segment = .ok next) :
    segmentBytes? snapshot segment = some (segmentBytes snapshot segment) := by
  rw [Stream.push, Except.bind_eq_ok] at pushed
  obtain ⟨file, found, pushed⟩ := pushed
  rw [Except.bind_eq_ok] at pushed
  obtain ⟨bytes, sliced, -⟩ := pushed
  have byId : filesById[segment.fileId]? = some file := by
    unfold fileOf at found
    split at found
    · next present => rw [present, Except.ok.inj found]
    · contradiction
  rw [looksUp.byId] at byId
  have valid : segmentBytes? snapshot segment = some bytes := by
    simp [segmentBytes?, byId, sliceRange_ok sliced]
  rw [segmentBytes, valid, Option.getD_some]

/-- An accepted stream read a valid slice for every segment. -/
theorem streamOutput_ok {sha256 : Bytes → Sha256Digest} {segments : List OutputSegment}
    {originalFileId : Option SnapshotFileId} {result : ℕ × Sha256Digest × Bool}
    (looksUp : LooksUp snapshot states filesById)
    (streamed : streamOutput sha256 segments filesById originalFileId = .ok result) :
    segments.mapM (segmentBytes? snapshot) = some (segments.map (segmentBytes snapshot)) := by
  simp only [streamOutput] at streamed
  rw [Except.bind_eq_ok] at streamed
  obtain ⟨original, -, streamed⟩ := streamed
  rw [Except.bind_eq_ok] at streamed
  obtain ⟨stream, folded, -⟩ := streamed
  generalize ({ equalsOriginal := original.isSome } : Stream) = initial at folded
  induction segments generalizing initial with
  | nil => rfl
  | cons segment rest ih =>
    rw [List.foldlM_cons, Except.bind_eq_ok] at folded
    obtain ⟨next, pushed, folded⟩ := folded
    simp [List.mapM_cons, push_ok looksUp pushed, ih next folded]

/-- What an accepted output was built from. -/
theorem planOutput_ok {sha256 : Bytes → Sha256Digest} {edits : OutputEdits} {output : PlannedOutput}
    (looksUp : LooksUp snapshot states filesById)
    (accepted : planOutput sha256 filesById edits = .ok output) :
    output.path = edits.path ∧ validateEditConflicts edits = .ok () ∧
      buildSegments edits = .ok output.segments ∧
      output.bytes? snapshot = some (output.segments.flatMap (segmentBytes snapshot)) := by
  rw [planOutput, Except.bind_eq_ok] at accepted
  obtain ⟨_, valid, accepted⟩ := accepted
  rw [Except.bind_eq_ok] at accepted
  obtain ⟨segments, built, accepted⟩ := accepted
  rw [Except.bind_eq_ok] at accepted
  obtain ⟨⟨resultingLength, resultingDigest, equalsOriginal⟩, hashed, accepted⟩ := accepted
  obtain ⟨_, -, accepted⟩ := Except.bind_eq_ok.mp accepted
  obtain rfl := Except.pure_eq_ok.mp accepted
  refine ⟨rfl, valid, built, ?_⟩
  rw [PlannedOutput.bytes?, streamOutput_ok looksUp hashed]
  simp [List.flatMap]

/-- The slice of a payload segment is the payload its request reads. -/
theorem insertion_bytes {entry : Operation × ℕ} {resolution : Resolution}
    (looksUp : LooksUp snapshot states filesById) (reads : resolution.Reads snapshot states entry) :
    segmentBytes snapshot resolution.insertion.segment = resolution.reference.payload := by
  have sourceAt := looksUp.byPath _ _ reads.source
  have byId := looksUp.unique resolution.source (fileAt?_mem sourceAt.symm)
  rw [looksUp.byId] at byId
  have sliced := slice?_of_le reads.nonempty.le reads.bounded
  simp [segmentBytes, segmentBytes?, Insertion.segment, Resolution.insertion, OutputSegment.fileId,
    OutputSegment.range, byId, sliced, Resolution.reference]

section Resolutions

variable {entries : List (Operation × ℕ)} {resolutions : List Resolution}

/-- Every resolution read some request of the batch. -/
theorem reads_of_mem
    (read : List.Forall₂ (fun entry resolution => resolution.Reads snapshot states entry) entries resolutions)
    {resolution : Resolution} (member : resolution ∈ resolutions) :
    ∃ entry, resolution.Reads snapshot states entry := by
  induction read with
  | nil => cases member
  | cons reads _ ih =>
    rcases List.mem_cons.mp member with rfl | member
    · exact ⟨_, reads⟩
    · exact ih member

/-- The effectful requests of the batch are the resolutions that were not dropped as no-ops. -/
theorem reference_edits {batch : BatchSpecification}
    (read : List.Forall₂ (fun entry resolution => resolution.Reads snapshot states entry)
      batch.operations.zipIdx resolutions) :
    referenceEdits snapshot batch = (resolutions.map Resolution.reference).filter ReferenceEdit.effectful := by
  have operations : batch.operations = batch.operations.zipIdx.map Prod.fst := by simp
  rw [referenceEdits, operations]
  generalize batch.operations.zipIdx = entries at read
  congr 1
  induction read with
  | nil => rfl
  | cons reads _ ih => rw [List.map_cons, List.filterMap_cons_some reads.reference, ih, List.map_cons]

/-- The insertions of a path at an offset are the payloads the reference puts there, in request order. -/
theorem insertions_reference (looksUp : LooksUp snapshot states filesById)
    (read : List.Forall₂ (fun entry resolution => resolution.Reads snapshot states entry) entries resolutions)
    (path : WorkspaceRelativePath) (position : ℕ) :
    (((resolutions.filterMap (·.inserts path)).filter fun entry => entry.1 = position).map
      Prod.snd).flatMap (fun insertion => segmentBytes snapshot insertion.segment) =
      (((resolutions.map Resolution.reference).filter ReferenceEdit.effectful).filter fun edit =>
        edit.puts path position).flatMap ReferenceEdit.payload := by
  induction read with
  | nil => rfl
  | @cons entry resolution entries resolutions reads _ ih =>
    by_cases changed : resolution.operation.effect = .changed
    · have effectful := reads.effect.mp changed
      by_cases here : resolution.operation.destinationPath = path
      · have inserts : resolution.inserts path =
            some (resolution.operation.destinationOffset, resolution.insertion) := by
          rw [Resolution.inserts, if_pos ⟨changed, here⟩]
        simp only [List.filterMap_cons, inserts]
        rw [List.map_cons, List.filter_cons_of_pos effectful]
        by_cases at_position : resolution.operation.destinationOffset = position
        · have puts : resolution.reference.puts path position = true := by
            simp [ReferenceEdit.puts, Resolution.reference, here, at_position]
          rw [List.filter_cons_of_pos (by simpa using at_position), List.filter_cons_of_pos (p := (ReferenceEdit.puts · path position)) puts,
            List.map_cons, List.flatMap_cons, List.flatMap_cons, ih, insertion_bytes looksUp reads]
        · have elsewhere : ¬resolution.reference.puts path position = true := by
            simp [ReferenceEdit.puts, Resolution.reference, at_position]
          rw [List.filter_cons_of_neg (by simpa using at_position), List.filter_cons_of_neg (p := (ReferenceEdit.puts · path position)) elsewhere, ih]
      · have inserts : resolution.inserts path = none := by
          rw [Resolution.inserts, if_neg fun both => here both.2]
        have elsewhere : ¬resolution.reference.puts path position = true := by
          simp [ReferenceEdit.puts, Resolution.reference, here]
        simp only [List.filterMap_cons, inserts]
        rw [List.map_cons, List.filter_cons_of_pos effectful, List.filter_cons_of_neg (p := (ReferenceEdit.puts · path position)) elsewhere, ih]
    · have ineffective : ¬resolution.reference.effectful = true := fun effectful =>
        changed (reads.effect.mpr effectful)
      have inserts : resolution.inserts path = none := by
        rw [Resolution.inserts, if_neg fun both => changed both.1]
      simp only [List.filterMap_cons, inserts]
      rw [List.map_cons, List.filter_cons_of_neg ineffective, ih]

/-- A position is deleted exactly when an effectful move of the reference takes it. -/
theorem deletions_reference
    (read : List.Forall₂ (fun entry resolution => resolution.Reads snapshot states entry) entries resolutions)
    (path : WorkspaceRelativePath) (position : ℕ) :
    List.covered (fun deletion : ℕ × ByteRange => deletion.2.start) (fun deletion => deletion.2.stop)
        (resolutions.filterMap (·.deletes path)) position =
      ((resolutions.map Resolution.reference).filter ReferenceEdit.effectful).any fun edit =>
        edit.takes path position := by
  rw [Bool.eq_iff_iff]
  simp only [List.covered, List.any_eq_true, List.mem_filterMap, List.mem_filter, List.mem_map,
    ReferenceEdit.takes, Bool.and_eq_true, decide_eq_true_eq]
  have effect : ∀ resolution ∈ resolutions,
      (resolution.operation.effect = .changed ↔ resolution.reference.effectful = true) := by
    intro resolution member
    obtain ⟨entry, reads⟩ := reads_of_mem read member
    exact reads.effect
  constructor
  · rintro ⟨deletion, ⟨resolution, member, deletes⟩, above, below⟩
    unfold Resolution.deletes at deletes
    split_ifs at deletes with moved
    obtain rfl := Option.some.inj deletes
    exact ⟨_, ⟨⟨resolution, member, rfl⟩, (effect resolution member).mp moved.1⟩,
      by simpa [Resolution.reference] using moved.2.1, moved.2.2, above, below⟩
  · rintro ⟨_, ⟨⟨resolution, member, rfl⟩, effectful⟩, moves, source, above, below⟩
    refine ⟨_, ⟨resolution, member, if_pos ⟨(effect resolution member).mpr effectful, ?_, source⟩⟩, above, below⟩
    simpa [Resolution.reference] using moves

/-- Requests resolve in increasing order of their index. -/
theorem resolutions_ordered {operations : List Operation}
    (read : List.Forall₂ (fun entry resolution => resolution.Reads snapshot states entry)
      operations.zipIdx resolutions) :
    resolutions.Pairwise fun left right => left.operation.operationIndex ≤ right.operation.operationIndex := by
  have indexes : resolutions.map (fun resolution => resolution.operation.operationIndex) =
      operations.zipIdx.map Prod.snd := by
    generalize operations.zipIdx = entries at read
    induction read with
    | nil => rfl
    | cons reads _ ih => rw [List.map_cons, List.map_cons, ih, reads.index]
  rw [← List.pairwise_map (R := fun left right : ℕ => left ≤ right), indexes, List.zipIdx_map_snd]
  exact List.pairwise_le_range'

/-- The insertions of a path are recorded in request order. -/
theorem insertions_ordered {operations : List Operation}
    (read : List.Forall₂ (fun entry resolution => resolution.Reads snapshot states entry)
      operations.zipIdx resolutions) (path : WorkspaceRelativePath) :
    (resolutions.filterMap (·.inserts path)).Pairwise fun left right =>
      left.2.operationIndex ≤ right.2.operationIndex := by
  refine List.Pairwise.filterMap _ ?_ (resolutions_ordered read)
  intro left right ordered leftEntry leftInserts rightEntry rightInserts
  unfold Resolution.inserts at leftInserts rightInserts
  split_ifs at leftInserts rightInserts
  rw [← Option.some.inj leftInserts, ← Option.some.inj rightInserts]
  exact ordered

end Resolutions

/-- Original slices of an output recorded over a known state are slices of the initial file. -/
theorem recorded_slices {path : WorkspaceRelativePath} {state : SnapshotState}
    (looksUp : LooksUp snapshot states filesById) (known : states[path.value]? = some state)
    (deletions : List (ℕ × ByteRange)) (insertions : List (ℕ × Insertion)) :
    SlicesOriginal { state.noEdits path with deletions, insertions } (snapshot.originalBytes path)
      (segmentBytes snapshot) := by
  have originalAt := looksUp.byPath path state known
  cases state with
  | absent missing =>
    have original : snapshot.originalBytes path = [] := by
      rw [WorkspaceSnapshot.originalBytes, ← originalAt]
      rfl
    rw [original]
    exact ⟨rfl, fun fileId start stop existing => by cases existing⟩
  | existing file =>
    have original : snapshot.originalBytes path = file.bytes := by
      rw [WorkspaceSnapshot.originalBytes, ← originalAt]
      rfl
    rw [original]
    refine ⟨rfl, fun fileId start stop existing ordered bounded => ?_⟩
    obtain rfl := Option.some.inj existing
    have byId := looksUp.unique file (fileAt?_mem originalAt.symm)
    rw [looksUp.byId] at byId
    have slice : slice? file.bytes ⟨start, stop⟩ = _ := slice?_of_le ordered bounded
    simp [segmentBytes, segmentBytes?, OutputSegment.fileId, OutputSegment.range, byId, slice]

/-- The recipe of an accepted path names the reference output of the path. -/
theorem recipe_reference {batch : BatchSpecification} {resolutions : List Resolution} {path : WorkspaceRelativePath}
    {state : SnapshotState} {edits : OutputEdits} {segments : List OutputSegment}
    (looksUp : LooksUp snapshot states filesById)
    (read : List.Forall₂ (fun entry resolution => resolution.Reads snapshot states entry)
      batch.operations.zipIdx resolutions) (known : states[path.value]? = some state)
    (shape : edits = { state.noEdits path with
      deletions := resolutions.filterMap (·.deletes path), insertions := resolutions.filterMap (·.inserts path) })
    (valid : validateEditConflicts edits = .ok ()) (built : buildSegments edits = .ok segments) :
    segments.flatMap (segmentBytes snapshot) = referenceOutput snapshot batch path := by
  subst shape
  have slices := recorded_slices looksUp known
    (resolutions.filterMap (·.deletes path)) (resolutions.filterMap (·.inserts path))
  have emitted := buildSegments_emission slices valid ?_ ?_ built
  · rw [emitted, referenceOutput, reference_edits read]
    simp only [List.emission, insertedBytes, OutputEdits.insertionsAt, OutputEdits.deleted,
      insertions_reference looksUp read, deletions_reference read, List.range_eq_range', Nat.sub_zero]
  · intro deletion member
    obtain ⟨resolution, member, deletes⟩ := List.mem_filterMap.mp member
    obtain ⟨entry, reads⟩ := reads_of_mem read member
    unfold Resolution.deletes at deletes
    split_ifs at deletes
    rw [← Option.some.inj deletes]
    exact reads.nonempty
  · exact insertions_ordered read path

/-- Concatenating the slices of any planned output yields the reference output of its path. -/
theorem plan_composes (sha256 : Bytes → Sha256Digest) (sizes : TypeSizes) (snapshot : WorkspaceSnapshot)
    (batch : BatchSpecification) (budget : ResourceBudget) (editPlan : EditPlan)
    (indexed : snapshot.Indexed) (planned : plan sha256 sizes snapshot batch budget = .ok editPlan) :
    ∀ output ∈ editPlan.outputs, output.bytes? snapshot = some (referenceOutput snapshot batch output.path) := by
  rw [plan, Except.bind_eq_ok] at planned
  obtain ⟨⟨states, filesById⟩, indexedStates, planned⟩ := planned
  have looksUp := indexSnapshot_ok indexedStates
  obtain ⟨_, -, planned⟩ := Except.bind_eq_ok.mp planned
  obtain ⟨⟨resolved, edits⟩, looped, planned⟩ := Except.bind_eq_ok.mp planned
  obtain ⟨resolutions, read, composes⟩ := planOperations_ok indexed looksUp looped
  obtain ⟨outputs, traversed, planned⟩ := Except.bind_eq_ok.mp planned
  have outputsKept : editPlan.outputs = outputs := by
    obtain ⟨_, -, planned⟩ := Except.bind_eq_ok.mp planned
    obtain ⟨_, -, planned⟩ := Except.bind_eq_ok.mp planned
    obtain ⟨_, -, planned⟩ := Except.bind_eq_ok.mp planned
    rw [← Except.pure_eq_ok.mp planned]
  intro output member
  rw [outputsKept] at member
  obtain ⟨edit, recorded, produced⟩ := List.mapM_ok_mem traversed member
  obtain ⟨⟨path, _⟩, stored, rfl⟩ := List.mem_map.mp recorded
  obtain ⟨state, known, shape⟩ :=
    composes.recorded path _ (Std.TreeMap.mem_toList_iff_getElem?_eq_some.mp stored)
  dsimp only at shape produced
  obtain ⟨outputPath, valid, built, bytes⟩ := planOutput_ok looksUp produced
  rw [bytes, recipe_reference looksUp read known shape valid built, outputPath, shape]
  rfl

section Example

/-- One file of the example workspace, indexed from its bytes. -/
def exampleFile (id : SnapshotFileId) (path : String) (bytes : Bytes) : FileSnapshot where
  id := id
  path := ⟨path⟩
  parentIdentity := ⟨1, 1⟩
  parentIdentities := [⟨1, 1⟩]
  identity := ⟨1, 10 + UInt64.ofNat id⟩
  linkCount := 1
  bytes := bytes
  digest := sha256Digest bytes
  lineIndex := ⟨terminatorEnds bytes 0⟩

/-- Two files of three lines each, and an absent path beside them. -/
def exampleSnapshot : WorkspaceSnapshot where
  workspaceIdentity := ⟨1, 1⟩
  files := [exampleFile 0 "a" (utf8Bytes "1\n2\r\n3\n"), exampleFile 1 "b" (utf8Bytes "x\ny\nz\n")]
  absentPaths := [⟨⟨"c"⟩, ⟨1, 1⟩, [⟨1, 1⟩], "c"⟩]

def exampleOperation (source : FileSnapshot) (selector : Selector) (destination : String) (anchor : Anchor)
    (precondition : Precondition) : OperationSpecification where
  source := ⟨source.path, selector, .sha256 source.digest⟩
  destination := ⟨⟨destination⟩, anchor, precondition⟩

/-- Adjacent deletions in `a`, two insertions at the end of `b` that is itself a source, and a new file. -/
def exampleBatch : BatchSpecification :=
  let a := exampleFile 0 "a" (utf8Bytes "1\n2\r\n3\n")
  let b := exampleFile 1 "b" (utf8Bytes "x\ny\nz\n")
  ⟨[.move (exampleOperation a (.lines 1 1) "b" .fileEnd (.sha256 b.digest)),
    .move (exampleOperation a (.bytes 2 5) "b" (.afterLine 3) (.sha256 b.digest)),
    .copy (exampleOperation b (.lines 2 3) "c" .fileStart .mustNotExist),
    .move (exampleOperation b (.lines 1 1) "a" (.byteOffset 2) (.sha256 a.digest))]⟩

theorem plan_composes_example : ∃ editPlan,
    plan sha256Digest ⟨224, 120, 72⟩ exampleSnapshot exampleBatch {} = .ok editPlan ∧
      editPlan.outputs.length = 3 ∧ ∀ output ∈ editPlan.outputs,
        output.bytes? exampleSnapshot = some (referenceOutput exampleSnapshot exampleBatch output.path) := by
  have indexed : exampleSnapshot.Indexed := by
    intro file member
    simp only [exampleSnapshot, List.mem_cons, List.not_mem_nil, or_false] at member
    rcases member with rfl | rfl
    · exact ⟨10, 100, by decide⟩
    · exact ⟨10, 100, by decide⟩
  cases planned : plan sha256Digest ⟨224, 120, 72⟩ exampleSnapshot exampleBatch {} with
  | error failure =>
    have accepted : (plan sha256Digest ⟨224, 120, 72⟩ exampleSnapshot exampleBatch {}).isOk = true := by
      decide +kernel
    rw [planned] at accepted
    cases accepted
  | ok editPlan =>
    have count : ((plan sha256Digest ⟨224, 120, 72⟩ exampleSnapshot exampleBatch {}).map
        fun editPlan => editPlan.outputs.length) = .ok 3 := by decide +kernel
    rw [planned] at count
    exact ⟨editPlan, rfl, Except.ok.inj count, plan_composes _ _ _ _ _ editPlan indexed planned⟩

end Example

end Srcmv.Core
