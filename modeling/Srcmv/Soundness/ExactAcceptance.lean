import Srcmv.Proofs.Core.Recipes

/-! # Exact acceptance of a batch

Once the preconditions hold and the coordinates are in range, the planner has only two reasons to
refuse: two effectful moves take overlapping ranges of one path, or an effectful insertion lies
strictly inside a range that an effectful move takes. It then names the offending request, and none
of its internal errors is reachable.
-/

namespace Srcmv.Core

variable {snapshot : WorkspaceSnapshot} {states : StatesByPath} {filesById : FilesById} {batch : BatchSpecification}
  {sha256 : Bytes → Sha256Digest}

/-- The effectful edit that the request at `index` makes. -/
def EditAt (snapshot : WorkspaceSnapshot) (batch : BatchSpecification) (index : ℕ) (edit : ReferenceEdit) : Prop :=
  ∃ operation, batch.operations[index]? = some operation ∧ referenceEdit snapshot operation = some edit ∧
    edit.effectful = true

/-- The request is an effectful move whose range overlaps that of another one from the same path. -/
def OverlapsAt (snapshot : WorkspaceSnapshot) (batch : BatchSpecification) (index : ℕ) : Prop :=
  ∃ edit other earlier, EditAt snapshot batch index edit ∧ EditAt snapshot batch other earlier ∧ other ≠ index ∧
    edit.removes = true ∧ earlier.removes = true ∧ earlier.source = edit.source ∧
    edit.range.start < earlier.range.stop ∧ earlier.range.start < edit.range.stop

/-- The request effectfully inserts strictly inside the range of an effectful move from that path. -/
def InsertsInsideAt (snapshot : WorkspaceSnapshot) (batch : BatchSpecification) (index : ℕ) : Prop :=
  ∃ edit other move, EditAt snapshot batch index edit ∧ EditAt snapshot batch other move ∧ move.removes = true ∧
    move.source = edit.destination ∧ move.range.start < edit.offset ∧ edit.offset < move.range.stop

/-- Every sum that planning the batch checks is a `u64`. -/
structure SumsFit (sha256 : Bytes → Sha256Digest) (sizes : TypeSizes) (snapshot : WorkspaceSnapshot)
    (batch : BatchSpecification) : Prop where
  lengths : ∀ path, (referenceOutput snapshot batch path).length ≤ u64Max
  totals : ∀ states filesById resolved edits outputs, indexSnapshot snapshot = .ok (states, filesById) →
    batch.operations.zipIdx.foldlM (planOperation sha256 states) ([], ∅) = .ok (resolved, edits) →
    (edits.toList.map Prod.snd).mapM (planOutput sha256 filesById) = .ok outputs → TotalsFit sizes resolved outputs

/-! ## Requests and resolutions -/

section Resolutions

variable {resolutions : List Resolution}

private theorem reads_at (read : List.Forall₂ (fun entry resolution => resolution.Reads snapshot states entry)
      batch.operations.zipIdx resolutions) {index : ℕ} {resolution : Resolution}
    (found : resolutions[index]? = some resolution) :
    ∃ operation, batch.operations[index]? = some operation ∧ resolution.Reads snapshot states (operation, index) := by
  obtain ⟨bound, rfl⟩ := List.getElem?_eq_some_iff.mp found
  have inside : index < batch.operations.zipIdx.length := read.length_eq ▸ bound
  have reads := read.get inside bound
  rw [List.length_zipIdx] at inside
  refine ⟨batch.operations[index], List.getElem?_eq_getElem inside, ?_⟩
  simpa using reads

/-- An effectful resolution is the edit of its request. -/
theorem editAt_of_mem (read : List.Forall₂ (fun entry resolution => resolution.Reads snapshot states entry)
      batch.operations.zipIdx resolutions) {resolution : Resolution} (member : resolution ∈ resolutions)
    (changed : resolution.operation.effect = .changed) :
    EditAt snapshot batch resolution.operation.operationIndex resolution.reference := by
  obtain ⟨index, found⟩ := List.mem_iff_getElem?.mp member
  obtain ⟨operation, listed, reads⟩ := reads_at read found
  exact ⟨operation, reads.index ▸ listed, reads.reference, reads.effect.mp changed⟩

/-- The edit of a request is an effectful resolution. -/
theorem EditAt.resolution (read : List.Forall₂ (fun entry resolution => resolution.Reads snapshot states entry)
      batch.operations.zipIdx resolutions) {index : ℕ} {edit : ReferenceEdit} (at_index : EditAt snapshot batch index edit) :
    ∃ resolution ∈ resolutions, resolution.operation.operationIndex = index ∧ resolution.reference = edit ∧
      resolution.operation.effect = .changed := by
  obtain ⟨operation, listed, reference, effectful⟩ := at_index
  obtain ⟨bound, rfl⟩ := List.getElem?_eq_some_iff.mp listed
  have inside : index < resolutions.length := by
    rw [← read.length_eq, List.length_zipIdx]
    exact bound
  obtain ⟨operation, again, reads⟩ := reads_at read (List.getElem?_eq_getElem inside)
  obtain rfl := Option.some.inj (listed.symm.trans again)
  obtain rfl := Option.some.inj (reference.symm.trans reads.reference)
  exact ⟨_, List.getElem_mem inside, reads.index, rfl, reads.effect.mpr effectful⟩

/-- No two deletions of a path belong to one request. -/
theorem deletions_distinct (read : List.Forall₂ (fun entry resolution => resolution.Reads snapshot states entry)
      batch.operations.zipIdx resolutions) (path : WorkspaceRelativePath) :
    ((resolutions.filterMap (·.deletes path)).map Prod.fst).Nodup := by
  have indexes : (resolutions.map fun resolution => resolution.operation.operationIndex).Nodup := by
    rw [List.nodup_iff_getElem?_ne_getElem?]
    intro left right ordered bound same
    rw [List.length_map] at bound
    rw [List.getElem?_map, List.getElem?_map, List.getElem?_eq_getElem (by omega), List.getElem?_eq_getElem bound,
      Option.map_some, Option.map_some, Option.some.injEq] at same
    obtain ⟨_, -, leftReads⟩ := reads_at read (List.getElem?_eq_getElem (show left < resolutions.length by omega))
    obtain ⟨_, -, rightReads⟩ := reads_at read (List.getElem?_eq_getElem bound)
    rw [leftReads.index, rightReads.index] at same
    exact absurd same (by dsimp only; omega)
  refine indexes.sublist ?_
  clear read indexes
  induction resolutions with
  | nil => exact .slnil
  | cons resolution rest ih =>
    rw [List.filterMap_cons]
    cases deletes : resolution.deletes path with
    | none => exact ih.cons _
    | some deletion =>
      rw [Resolution.deletes] at deletes
      split_ifs at deletes
      obtain rfl := Option.some.inj deletes
      exact ih.cons_cons _

/-! ## Recorded edits are readable -/

/-- An anchor in range lies within its destination. -/
private theorem anchorOffset?_le {state : SnapshotState} {anchor : Anchor} {offset : ℕ}
    (bounds : ∀ file, state.file? = some file → file.lineIndex.Bounds file.bytes.length)
    (inRange : anchor.InRange state.file?) (found : anchorOffset? state.file? anchor = some offset) :
    offset ≤ state.length := by
  obtain ⟨resolved, accepted⟩ := resolveAnchor_succeeds inRange 0
  have same := (resolveAnchor_ok accepted).symm.trans found
  exact (Option.some.inj same) ▸ resolveAnchor_le bounds accepted

private theorem insertion_inside {resolution : Resolution} {operation : Operation} {index : ℕ}
    (indexed : snapshot.Indexed) (posed : batch.WellPosed snapshot) (accepted : indexSnapshot snapshot = .ok (states, filesById))
    (listed : operation ∈ batch.operations) (reads : resolution.Reads snapshot states (operation, index)) :
    resolution.operation.destinationOffset ≤ resolution.destination.length := by
  have looksUp := indexSnapshot_ok accepted
  obtain ⟨file, state, finds⟩ := posed.finds accepted listed
  have reference := reads.reference
  simp only [referenceEdit, Option.bind_eq_bind, Option.bind_eq_some_iff] at reference
  obtain ⟨source, -, range, -, offset, anchored, shape⟩ := reference
  have path : resolution.operation.destinationPath = (operationParts operation).2.destination.path :=
    (congrArg ReferenceEdit.destination (Option.some.inj shape)).symm
  have sameOffset : offset = resolution.operation.destinationOffset := congrArg ReferenceEdit.offset (Option.some.inj shape)
  have known := reads.destination
  rw [path] at known
  obtain rfl := Option.some.inj (finds.destination.symm.trans known)
  rw [← looksUp.byPath _ _ known, sameOffset] at anchored
  refine anchorOffset?_le (fun found present => ?_) finds.anchored anchored
  have inside := looksUp.byPath _ _ known
  obtain ⟨_, _, built⟩ := indexed found (fileAt?_mem (inside ▸ present))
  exact LineIndex.bounds_of_fromBytes built

/-- The edits recorded for a path stay within it and name readable payloads. -/
theorem recorded_readable {path : WorkspaceRelativePath} {state : SnapshotState} (indexed : snapshot.Indexed)
    (posed : batch.WellPosed snapshot) (accepted : indexSnapshot snapshot = .ok (states, filesById))
    (read : List.Forall₂ (fun entry resolution => resolution.Reads snapshot states entry)
      batch.operations.zipIdx resolutions) (known : states[path.value]? = some state) :
    Readable snapshot { state.noEdits path with
      deletions := resolutions.filterMap (·.deletes path), insertions := resolutions.filterMap (·.inserts path) } := by
  have looksUp := indexSnapshot_ok accepted
  refine ⟨?_, ?_, ?_, ?_⟩
  · intro deletion member
    obtain ⟨resolution, inside, deletes⟩ := List.mem_filterMap.mp member
    rw [Resolution.deletes] at deletes
    split_ifs at deletes with moved
    obtain rfl := Option.some.inj deletes
    obtain ⟨entry, reads⟩ := reads_of_mem read inside
    have source := reads.source
    rw [moved.2.2] at source
    obtain rfl := Option.some.inj (known.symm.trans source)
    exact ⟨(reads.nonempty.trans_le reads.bounded).le, reads.bounded⟩
  · intro entry member
    obtain ⟨resolution, inside, inserts⟩ := List.mem_filterMap.mp member
    rw [Resolution.inserts] at inserts
    split_ifs at inserts with here
    obtain rfl := Option.some.inj inserts
    obtain ⟨index, found⟩ := List.mem_iff_getElem?.mp inside
    obtain ⟨operation, listed, reads⟩ := reads_at read found
    have destination := reads.destination
    rw [here.2] at destination
    obtain rfl := Option.some.inj (known.symm.trans destination)
    refine ⟨insertion_inside indexed posed accepted (List.mem_of_getElem? listed) reads, ?_⟩
    have byId := looksUp.unique resolution.source (fileAt?_mem (looksUp.byPath _ _ reads.source).symm)
    rw [looksUp.byId] at byId
    simp [segmentBytes?, Insertion.segment, Resolution.insertion, OutputSegment.fileId, OutputSegment.range, byId,
      slice?_of_le reads.nonempty.le reads.bounded]
  · intro existing
    cases state with
    | existing file => cases existing
    | absent missing => rfl
  · intro fileId existing start stop ordered bounded
    cases state with
    | absent missing => cases existing
    | existing file =>
      obtain rfl := Option.some.inj existing
      have byId := looksUp.unique file (fileAt?_mem (looksUp.byPath path _ known).symm)
      rw [looksUp.byId] at byId
      have slice : slice? file.bytes ⟨start, stop⟩ = _ := slice?_of_le ordered bounded
      simp [segmentBytes?, OutputSegment.fileId, OutputSegment.range, byId, slice]

/-! ## Acceptance -/

/-- A rejected path names an offending request. -/
private theorem conflict_of_rejected {path : WorkspaceRelativePath} {state : SnapshotState} {failure : CoreError}
    (read : List.Forall₂ (fun entry resolution => resolution.Reads snapshot states entry)
      batch.operations.zipIdx resolutions)
    (failed : validateEditConflicts { state.noEdits path with
      deletions := resolutions.filterMap (·.deletes path), insertions := resolutions.filterMap (·.inserts path) } =
        .error failure) :
    (∃ index, OverlapsAt snapshot batch index ∧ failure = conflict "overlapping_move_deletions" index) ∨
      ∃ index, InsertsInsideAt snapshot batch index ∧ failure = conflict "insertion_inside_move_deletion" index := by
  have deletion_of {deletion : ℕ × ByteRange} (member : deletion ∈ resolutions.filterMap (·.deletes path)) :
      ∃ edit, EditAt snapshot batch deletion.1 edit ∧ edit.removes = true ∧ edit.source = path ∧
        edit.range = deletion.2 ∧ edit.range.start < edit.range.stop := by
    obtain ⟨resolution, inside, deletes⟩ := List.mem_filterMap.mp member
    rw [Resolution.deletes] at deletes
    split_ifs at deletes with moved
    obtain rfl := Option.some.inj deletes
    obtain ⟨_, reads⟩ := reads_of_mem read inside
    exact ⟨_, editAt_of_mem read inside moved.1, by simp [Resolution.reference, moved.2.1], moved.2.2, rfl, reads.nonempty⟩
  rcases validateEditConflicts_error (deletions_distinct read path) failed with
    ⟨left, listedLeft, right, listedRight, apart, ordered, overlap, shape⟩ |
    ⟨deletion, listed, entry, member, above, below, shape⟩
  · obtain ⟨earlier, earlierAt, earlierMoves, earlierSource, earlierRange, -⟩ := deletion_of listedLeft
    obtain ⟨edit, editAt, moves, source, range, nonempty⟩ := deletion_of listedRight
    refine .inl ⟨right.1, ⟨edit, left.1, earlier, editAt, earlierAt, apart, moves, earlierMoves,
      earlierSource.trans source.symm, ?_, ?_⟩, shape⟩
    · rw [range, earlierRange]
      exact overlap
    · rw [earlierRange]
      exact (ordered.trans_eq (congrArg ByteRange.start range).symm).trans_lt nonempty
  · obtain ⟨move, moveAt, moves, source, range, -⟩ := deletion_of listed
    obtain ⟨resolution, inside, inserts⟩ := List.mem_filterMap.mp member
    rw [Resolution.inserts] at inserts
    split_ifs at inserts with here
    obtain rfl := Option.some.inj inserts
    refine .inr ⟨_, ⟨resolution.reference, deletion.1, move, editAt_of_mem read inside here.1, moveAt, moves,
      source.trans here.2.symm, ?_, ?_⟩, shape⟩
    · rw [range]
      exact above
    · rw [range]
      exact below

/-- Accepted paths leave no request in conflict. -/
private theorem no_conflict_of_accepted {edits : Edits}
    (read : List.Forall₂ (fun entry resolution => resolution.Reads snapshot states entry)
      batch.operations.zipIdx resolutions) (composes : Composes states resolutions edits)
    (valid : ∀ (path : WorkspaceRelativePath) (output : OutputEdits), edits[path]? = some output →
      validateEditConflicts output = .ok ()) (index : ℕ) :
    ¬(OverlapsAt snapshot batch index ∨ InsertsInsideAt snapshot batch index) := by
  -- Whatever is directed at a path was recorded and validated there.
  have checked (path : WorkspaceRelativePath) (touched : ¬(resolutions.filterMap (·.deletes path) = [] ∧
      resolutions.filterMap (·.inserts path) = [])) : ∃ output, validateEditConflicts output = .ok () ∧
        output.deletions = resolutions.filterMap (·.deletes path) ∧
        output.insertions = resolutions.filterMap (·.inserts path) := by
    cases present : edits[path]? with
    | none => exact absurd (composes.silent path present) touched
    | some output =>
      obtain ⟨state, -, shape⟩ := composes.recorded path output present
      exact ⟨output, valid path output present, by rw [shape], by rw [shape]⟩
  have deletion_of {index : ℕ} {edit : ReferenceEdit} (at_index : EditAt snapshot batch index edit)
      (moves : edit.removes = true) :
      (index, edit.range) ∈ resolutions.filterMap (·.deletes edit.source) := by
    obtain ⟨resolution, member, rfl, rfl, changed⟩ := at_index.resolution read
    exact List.mem_filterMap.mpr ⟨resolution, member,
      if_pos ⟨changed, by simpa [Resolution.reference] using moves, rfl⟩⟩
  rintro (⟨edit, other, earlier, editAt, earlierAt, apart, moves, earlierMoves, source, below, above⟩ |
    ⟨edit, other, move, editAt, moveAt, moves, source, above, below⟩)
  · have mine := deletion_of editAt moves
    have other_deletion := deletion_of earlierAt earlierMoves
    rw [source] at other_deletion
    obtain ⟨output, accepted, deletions, -⟩ := checked edit.source fun none => by rw [none.1] at mine; cases mine
    have disjoint := deletions_disjoint accepted (fun deletion member => by
      rw [deletions] at member
      obtain ⟨resolution, inside, deletes⟩ := List.mem_filterMap.mp member
      obtain ⟨_, reads⟩ := reads_of_mem read inside
      rw [Resolution.deletes] at deletes
      split_ifs at deletes
      rw [← Option.some.inj deletes]
      exact reads.nonempty) (index, edit.range) (deletions ▸ mine) (other, earlier.range) (deletions ▸ other_deletion)
      (fun same => apart (congrArg Prod.fst same).symm)
    dsimp only at disjoint
    omega
  · obtain ⟨resolution, member, -, rfl, changed⟩ := editAt.resolution read
    have inserted : (resolution.operation.destinationOffset, resolution.insertion) ∈
        resolutions.filterMap (·.inserts move.source) :=
      List.mem_filterMap.mpr ⟨resolution, member, if_pos ⟨changed, source.symm⟩⟩
    have deleted := deletion_of moveAt moves
    obtain ⟨output, accepted, deletions, insertions⟩ := checked move.source fun none => by rw [none.1] at deleted; cases deleted
    exact insertions_outside accepted _ (deletions ▸ deleted) _ (insertions ▸ inserted) ⟨above, below⟩

end Resolutions

/-- Recorded edits without a conflict become an output. -/
private theorem planOutput_of_recorded {resolutions : List Resolution} {path : WorkspaceRelativePath} {state : SnapshotState}
    {output : OutputEdits} (single : ∀ file ∈ snapshot.files, file.linkCount = 1) (indexed : snapshot.Indexed)
    (posed : batch.WellPosed snapshot) (accepted : indexSnapshot snapshot = .ok (states, filesById))
    (lengths : ∀ path, (referenceOutput snapshot batch path).length ≤ u64Max)
    (read : List.Forall₂ (fun entry resolution => resolution.Reads snapshot states entry)
      batch.operations.zipIdx resolutions) (known : states[path.value]? = some state)
    (shape : output = { state.noEdits path with
      deletions := resolutions.filterMap (·.deletes path), insertions := resolutions.filterMap (·.inserts path) })
    (valid : validateEditConflicts output = .ok ()) : ∃ planned, planOutput sha256 filesById output = .ok planned := by
  have looksUp := indexSnapshot_ok accepted
  have readable := recorded_readable indexed posed accepted read known
  rw [← shape] at readable
  refine planOutput_succeeds looksUp ?_ readable ?_ valid ?_
  · intro fileId existing
    rw [shape] at existing
    cases state with
    | absent missing => cases existing
    | existing file =>
      obtain rfl := Option.some.inj existing
      have inside := fileAt?_mem (looksUp.byPath path _ known).symm
      exact ⟨file, looksUp.unique file inside, single file inside⟩
  · rw [shape]
    exact insertions_ordered read path
  · intro segments built
    rw [recipe_reference looksUp read known shape valid built]
    exact lengths path

/-- A well posed batch is refused exactly for a conflict, and the error names a request in conflict. -/
theorem plan_fails_iff_conflict (sizes : TypeSizes) (budget : ResourceBudget) (distinct : Indexable snapshot)
    (single : ∀ file ∈ snapshot.files, file.linkCount = 1) (indexed : snapshot.Indexed)
    (posed : batch.WellPosed snapshot) (unlimited : budget.Unlimited) (fit : SumsFit sha256 sizes snapshot batch) :
    ((∃ failure, plan sha256 sizes snapshot batch budget = .error failure) ↔
      ∃ index, OverlapsAt snapshot batch index ∨ InsertsInsideAt snapshot batch index) ∧
    ∀ failure, plan sha256 sizes snapshot batch budget = .error failure →
      (∃ index, OverlapsAt snapshot batch index ∧ failure = conflict "overlapping_move_deletions" index) ∨
        ∃ index, InsertsInsideAt snapshot batch index ∧ failure = conflict "insertion_inside_move_deletion" index := by
  obtain ⟨⟨states, filesById⟩, accepted⟩ := (indexSnapshot_succeeds_iff snapshot).mpr distinct
  have looksUp := indexSnapshot_ok accepted
  obtain ⟨⟨resolved, edits⟩, looped⟩ :
      ∃ result, batch.operations.zipIdx.foldlM (planOperation sha256 states) ([], ∅) = .ok result :=
    planOperations_succeeds indexed posed accepted
  obtain ⟨resolutions, read, composes⟩ := planOperations_ok indexed looksUp looped
  have planned : plan sha256 sizes snapshot batch budget =
      (edits.toList.map Prod.snd).mapM (planOutput sha256 filesById) >>= fun outputs =>
        calculateUsage sizes resolved outputs >>= fun usage => enforceUsage usage budget >>= fun _ =>
          planDigest sha256 snapshot { operations := resolved, outputs, usage, digest := zeroDigest } >>= fun digest =>
            pure { operations := resolved, outputs, usage, digest } := by
    rw [plan, accepted, Except.ok_bind, validatePreconditionConsistency_succeeds posed accepted]
    dsimp only
    rw [Except.ok_bind, looped, Except.ok_bind]
  have conflicting : ∀ failure, plan sha256 sizes snapshot batch budget = .error failure →
      (∃ index, OverlapsAt snapshot batch index ∧ failure = conflict "overlapping_move_deletions" index) ∨
        ∃ index, InsertsInsideAt snapshot batch index ∧ failure = conflict "insertion_inside_move_deletion" index := by
    intro failure failed
    rw [planned] at failed
    cases traversed : (edits.toList.map Prod.snd).mapM (planOutput sha256 filesById) with
    | error stopped =>
      rw [traversed, Except.error_bind] at failed
      obtain rfl := Except.error.inj failed
      obtain ⟨output, listed, rejected⟩ := List.mapM_error traversed
      obtain ⟨⟨path, _⟩, stored, rfl⟩ := List.mem_map.mp listed
      obtain ⟨state, known, shape⟩ := composes.recorded path _ (Std.TreeMap.mem_toList_iff_getElem?_eq_some.mp stored)
      dsimp only at shape rejected
      cases valid : validateEditConflicts _ with
      | ok _ =>
        obtain ⟨planned, succeeded⟩ : ∃ planned, planOutput sha256 filesById _ = .ok planned :=
          planOutput_of_recorded single indexed posed accepted fit.lengths read known shape valid
        rw [succeeded] at rejected
        cases rejected
      | error stopped =>
        rw [planOutput, valid, Except.error_bind] at rejected
        obtain rfl := Except.error.inj rejected
        rw [shape] at valid
        exact conflict_of_rejected read valid
    | ok outputs =>
      obtain ⟨usage, charged, allowed⟩ := calculateUsage_succeeds
        (fit.totals states filesById resolved edits outputs accepted looped traversed) unlimited
      have named : ∀ output ∈ outputs, ∀ segment ∈ output.segments, (segmentBytes? snapshot segment).isSome := by
        intro output member segment inside
        obtain ⟨edit, -, produced⟩ := List.mapM_ok_mem traversed member
        exact planOutput_reads looksUp produced segment inside
      obtain ⟨digest, digested⟩ : ∃ digest, planDigest sha256 snapshot
          { operations := resolved, outputs, usage, digest := zeroDigest } = .ok digest :=
        planDigest_succeeds distinct.ids named
      rw [traversed, Except.ok_bind, charged, Except.ok_bind, allowed, Except.ok_bind, digested, Except.ok_bind] at failed
      cases failed
  refine ⟨⟨?_, ?_⟩, conflicting⟩
  · rintro ⟨failure, failed⟩
    rcases conflicting failure failed with ⟨index, overlaps, -⟩ | ⟨index, inside, -⟩
    · exact ⟨index, .inl overlaps⟩
    · exact ⟨index, .inr inside⟩
  · rintro ⟨index, conflicts⟩
    cases result : plan sha256 sizes snapshot batch budget with
    | error failure => exact ⟨failure, rfl⟩
    | ok editPlan =>
      rw [planned] at result
      obtain ⟨outputs, traversed, -⟩ := Except.bind_eq_ok.mp result
      refine absurd conflicts (no_conflict_of_accepted read composes (fun path output present => ?_) index)
      have listed : output ∈ edits.toList.map Prod.snd :=
        List.mem_map.mpr ⟨(path, output), Std.TreeMap.mem_toList_iff_getElem?_eq_some.mpr present, rfl⟩
      obtain ⟨produced, -, succeeded⟩ := List.mapM_ok_of_mem traversed listed
      exact (planOutput_ok looksUp succeeded).2.1

section Example

/-- Two moves to the end of `b` that both take the third byte of `a`. -/
def overlappingBatch : BatchSpecification :=
  let a := exampleFile 0 "a" (utf8Bytes "1\n2\r\n3\n")
  let b := exampleFile 1 "b" (utf8Bytes "x\ny\nz\n")
  ⟨[.move (exampleOperation a (.bytes 0 3) "b" .fileEnd (.sha256 b.digest)),
    .move (exampleOperation a (.bytes 2 5) "b" .fileEnd (.sha256 b.digest))]⟩

/-- The largest budget. -/
def unlimitedBudget : ResourceBudget where
  resultingBytesPerOutput := u64Max
  plannedOutputBytes := u64Max
  segmentsPerOutput := u64Max
  segments := u64Max
  changedTargets := u64Max
  projectedResponseBytes := u64Max
  planningMemoryBytes := u64Max

private theorem overlappingBatch_lengths (path : WorkspaceRelativePath) :
    (referenceOutput exampleSnapshot overlappingBatch path).length ≤ u64Max := by
  by_cases source : path = ⟨"a"⟩
  · subst source
    decide
  by_cases destination : path = ⟨"b"⟩
  · subst destination
    decide
  have edits : referenceEdits exampleSnapshot overlappingBatch =
      [⟨true, ⟨"a"⟩, ⟨0, 3⟩, ⟨"b"⟩, 6, utf8Bytes "1\n2"⟩, ⟨true, ⟨"a"⟩, ⟨2, 5⟩, ⟨"b"⟩, 6, utf8Bytes "2\r\n"⟩] := by
    decide
  have original : exampleSnapshot.originalBytes path = [] := by
    simp [WorkspaceSnapshot.originalBytes, WorkspaceSnapshot.fileAt?, exampleSnapshot, exampleFile, Ne.symm source,
      Ne.symm destination]
  simp [referenceOutput, original, edits, ReferenceEdit.puts, Ne.symm destination]

/-- No path of the batch is planned, so no total is ever summed. -/
private theorem overlappingBatch_refused {states : StatesByPath} {filesById : FilesById} {resolved : List ResolvedOperation}
    {edits : Edits} {outputs : List PlannedOutput} (accepted : indexSnapshot exampleSnapshot = .ok (states, filesById))
    (looped : overlappingBatch.operations.zipIdx.foldlM (planOperation sha256Digest states) ([], ∅) = .ok (resolved, edits)) :
    (edits.toList.map Prod.snd).mapM (planOutput sha256Digest filesById) ≠ .ok outputs := by
  intro traversed
  have refused : (indexSnapshot exampleSnapshot >>= fun indexed =>
      overlappingBatch.operations.zipIdx.foldlM (planOperation sha256Digest indexed.1) ([], ∅) >>= fun progress =>
        (progress.2.toList.map Prod.snd).mapM (planOutput sha256Digest indexed.2)).isOk = false := by decide +kernel
  rw [accepted, Except.ok_bind, looped, Except.ok_bind, traversed] at refused
  cases refused

/-- The batch is rejected for its second operation, which overlaps the first. -/
theorem plan_fails_iff_conflict_overlapping :
    plan sha256Digest ⟨224, 120, 72⟩ exampleSnapshot overlappingBatch unlimitedBudget = .error (conflict "overlapping_move_deletions" 1) ∧
    OverlapsAt exampleSnapshot overlappingBatch 1 ∧
    ∃ index, OverlapsAt exampleSnapshot overlappingBatch index ∨ InsertsInsideAt exampleSnapshot overlappingBatch index := by
  have failed : plan sha256Digest ⟨224, 120, 72⟩ exampleSnapshot overlappingBatch unlimitedBudget =
      .error (conflict "overlapping_move_deletions" 1) := by
    decide +kernel
  have indexed : exampleSnapshot.Indexed := by
    intro file member
    simp only [exampleSnapshot, List.mem_cons, List.not_mem_nil, or_false] at member
    rcases member with rfl | rfl
    · exact ⟨10, 100, by decide⟩
    · exact ⟨10, 100, by decide⟩
  have posed : overlappingBatch.WellPosed exampleSnapshot := by
    intro operation member
    simp only [overlappingBatch, List.mem_cons, List.not_mem_nil, or_false] at member
    rcases member with rfl | rfl
    · exact ⟨⟨_, List.mem_cons_self, rfl, rfl, by decide⟩,
        .inl ⟨_, List.mem_cons_of_mem _ List.mem_cons_self, rfl, rfl, trivial⟩⟩
    · exact ⟨⟨_, List.mem_cons_self, rfl, rfl, by decide⟩,
        .inl ⟨_, List.mem_cons_of_mem _ List.mem_cons_self, rfl, rfl, trivial⟩⟩
  obtain ⟨fails, conflicting⟩ := plan_fails_iff_conflict ⟨224, 120, 72⟩ unlimitedBudget ⟨by decide, by decide⟩
    (by decide) indexed posed ⟨le_rfl, le_rfl, le_rfl, le_rfl, le_rfl, le_rfl, le_rfl⟩
    ⟨overlappingBatch_lengths, fun _ _ _ _ _ accepted looped traversed =>
      absurd traversed (overlappingBatch_refused accepted looped)⟩
  refine ⟨failed, ?_, fails.mp ⟨_, failed⟩⟩
  rcases conflicting _ failed with ⟨index, overlaps, same⟩ | ⟨index, -, same⟩
  · cases same
    exact overlaps
  · exact absurd (CoreError.editConflict.inj same).1 (by decide)

end Example

end Srcmv.Core
