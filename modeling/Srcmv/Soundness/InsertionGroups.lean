import Srcmv.Model.Cli.Preview
import Srcmv.Proofs.Core.Metrics
import Srcmv.Proofs.Core.Payloads
import Srcmv.Soundness.LineCounting

/-! # Insertion groups

The review walks over the segments of an output and opens a new group whenever the destination offset
changes. The recipe lists the payloads of each offset together and the offsets in order, so there is one
group for every offset at which something is inserted, and it holds exactly the operations that insert
there.
-/

namespace Srcmv.Cli

open Srcmv.Core Srcmv.Fs

variable {snapshot : WorkspaceSnapshot} {plan : EditPlan} {output : PlannedOutput} {edits : OutputEdits}

section Review

private theorem reviewSegment_ok (indexed : snapshot.Indexed) (ids : (snapshot.files.map FileSnapshot.id).Nodup)
    {segment : OutputSegment} {done : Bytes} {groups groups' : List InsertionGroup}
    (read : segmentBytes? snapshot segment = some (segmentBytes snapshot segment))
    (fits : (done ++ segmentBytes snapshot segment).length ≤ u64Max)
    (grouped : groupSegment plan output groups segment = .ok groups') :
    reviewSegment (filesById snapshot) plan output (metricsOf done, groups) segment =
      .ok (metricsOf (done ++ segmentBytes snapshot segment), groups') := by
  rw [segmentBytes?] at read
  obtain ⟨file, found, sliced⟩ := Option.bind_eq_some_iff.mp read
  obtain ⟨_, _, built⟩ := indexed file (List.mem_of_find?_eq_some found)
  have bounded : (segmentBytes snapshot segment).length ≤ u64Max := by
    rw [List.length_append] at fits
    omega
  have metrics : ofCore (file.lineIndex.metricsForRange file.bytes segment.range) =
      .ok (metricsOf (segmentBytes snapshot segment)) := ofCore_eq_ok.mpr (LineIndex.metricsForRange_eq built sliced bounded)
  have appended : ofCore ((metricsOf done).tryAppend (metricsOf (segmentBytes snapshot segment))) =
      .ok (metricsOf (done ++ segmentBytes snapshot segment)) := ofCore_eq_ok.mpr (LineMetrics.tryAppend_eq fits)
  rw [reviewSegment, filesById_eq ids, found]
  dsimp only
  rw [metrics, Except.ok_bind, appended, Except.ok_bind, grouped]
  rfl

/-- The review counts and groups in step. -/
private theorem reviewSegments_ok (indexed : snapshot.Indexed) (ids : (snapshot.files.map FileSnapshot.id).Nodup)
    {segments : List OutputSegment} {done : Bytes} {groups groups' : List InsertionGroup}
    (read : ∀ segment ∈ segments, segmentBytes? snapshot segment = some (segmentBytes snapshot segment))
    (fits : (done ++ segments.flatMap (segmentBytes snapshot)).length ≤ u64Max)
    (grouped : segments.foldlM (groupSegment plan output) groups = .ok groups') :
    segments.foldlM (reviewSegment (filesById snapshot) plan output) (metricsOf done, groups) =
      .ok (metricsOf (done ++ segments.flatMap (segmentBytes snapshot)), groups') := by
  induction segments generalizing done groups with
  | nil =>
    rw [List.foldlM_nil, Except.pure_eq_ok] at grouped
    rw [List.foldlM_nil, List.flatMap_nil, List.append_nil, grouped]
    rfl
  | cons segment rest ih =>
    rw [List.foldlM_cons] at grouped
    obtain ⟨next, stepped, grouped⟩ := Except.bind_eq_ok.mp grouped
    obtain ⟨first, later⟩ := List.forall_mem_cons.mp read
    rw [List.flatMap_cons, ← List.append_assoc] at fits ⊢
    have fitsFirst : (done ++ segmentBytes snapshot segment).length ≤ u64Max := by
      rw [List.length_append] at fits
      omega
    rw [List.foldlM_cons, reviewSegment_ok indexed ids first fitsFirst stepped, Except.ok_bind]
    exact ih later fits grouped

end Review

section Grouping

/-- Insertions at one offset, in order. -/
private def pushInsertions (groups : List InsertionGroup) (offset : ℕ) (operationIndices : List ℕ) : List InsertionGroup :=
  operationIndices.foldl (fun groups operationIndex => pushInsertion groups offset operationIndex) groups

private theorem pushInsertion_last (groups : List InsertionGroup) (offset : ℕ) (before : List ℕ) (operationIndex : ℕ) :
    pushInsertion (groups ++ [⟨offset, before⟩]) offset operationIndex = groups ++ [⟨offset, before ++ [operationIndex]⟩] := by
  rw [pushInsertion, List.getLast?_concat]
  dsimp only
  rw [if_pos rfl, List.dropLast_concat]

private theorem pushInsertions_last (groups : List InsertionGroup) (offset : ℕ) (before operationIndices : List ℕ) :
    pushInsertions (groups ++ [⟨offset, before⟩]) offset operationIndices =
      groups ++ [⟨offset, before ++ operationIndices⟩] := by
  rw [pushInsertions]
  induction operationIndices generalizing before with
  | nil => rw [List.foldl_nil, List.append_nil]
  | cons operationIndex rest ih => rw [List.foldl_cons, pushInsertion_last, ih, List.append_assoc, List.singleton_append]

/-- A new offset opens a group. -/
private theorem pushInsertion_new {groups : List InsertionGroup} {offset : ℕ}
    (other : ∀ group ∈ groups, group.destinationOffset ≠ offset) (operationIndex : ℕ) :
    pushInsertion groups offset operationIndex = groups ++ [⟨offset, [operationIndex]⟩] := by
  rw [pushInsertion]
  cases last : groups.getLast? with
  | none =>
    rw [List.getLast?_eq_none_iff.mp last]
    rfl
  | some group =>
    dsimp only
    rw [if_neg (other group (List.mem_of_getLast? last))]

/-- The group of an event point, if anything is inserted there. -/
private def pointGroup (point : ℕ × PointEvents) : Option InsertionGroup :=
  if point.2.insertions = [] then none else some ⟨point.1, point.2.insertions.map Insertion.operationIndex⟩

private theorem pushInsertions_point {groups : List InsertionGroup} {point : ℕ × PointEvents}
    (other : ∀ group ∈ groups, group.destinationOffset ≠ point.1) :
    pushInsertions groups point.1 (point.2.insertions.map Insertion.operationIndex) =
      groups ++ (pointGroup point).toList := by
  rw [pointGroup]
  cases point.2.insertions with
  | nil => rw [if_pos rfl, Option.toList_none, List.append_nil]; rfl
  | cons insertion rest =>
    have first := pushInsertion_new other insertion.operationIndex
    rw [if_neg (List.cons_ne_nil _ _), List.map_cons, pushInsertions, List.foldl_cons, first]
    exact pushInsertions_last groups point.1 [insertion.operationIndex] _

private theorem pointGroup_offset {point : ℕ × PointEvents} {group : InsertionGroup} (grouped : pointGroup point = some group) :
    group.destinationOffset = point.1 := by
  rw [pointGroup] at grouped
  split_ifs at grouped
  rw [← Option.some.inj grouped]

/-- Points in order make one group each. -/
private theorem pushPoints {points : List (ℕ × PointEvents)} (increasing : points.Pairwise fun left right => left.1 < right.1)
    {groups : List InsertionGroup} (beyond : ∀ group ∈ groups, ∀ point ∈ points, group.destinationOffset < point.1) :
    points.foldl (fun groups point => pushInsertions groups point.1 (point.2.insertions.map Insertion.operationIndex)) groups =
      groups ++ points.filterMap pointGroup := by
  induction points generalizing groups with
  | nil => rw [List.foldl_nil, List.filterMap_nil, List.append_nil]
  | cons point rest ih =>
    obtain ⟨before, increasing⟩ := List.pairwise_cons.mp increasing
    have other : ∀ group ∈ groups, group.destinationOffset ≠ point.1 := fun group member =>
      (beyond group member point List.mem_cons_self).ne
    have later : ∀ group ∈ groups ++ (pointGroup point).toList, ∀ following ∈ rest, group.destinationOffset < following.1 := by
      intro group member following inside
      rcases List.mem_append.mp member with earlier | this
      · exact beyond group earlier following (List.mem_cons_of_mem _ inside)
      · rw [pointGroup_offset (Option.mem_toList.mp this)]
        exact before following inside
    rw [List.foldl_cons, pushInsertions_point other, ih increasing later, List.append_assoc, List.filterMap_cons]
    cases pointGroup point <;> rfl

/-- An insertion that the plan knows, at this offset. -/
private def Known (plan : EditPlan) (output : PlannedOutput) (offset : ℕ) (insertion : Insertion) : Prop :=
  ∃ operation, plan.operations[insertion.operationIndex]? = some operation ∧
    operation.operationIndex = insertion.operationIndex ∧ output.receives operation = true ∧
    operation.destinationOffset = offset

private theorem groupSegment_known {groups : List InsertionGroup} {offset : ℕ} {insertion : Insertion}
    (known : Known plan output offset insertion) :
    groupSegment plan output groups insertion.segment = .ok (pushInsertion groups offset insertion.operationIndex) := by
  obtain ⟨operation, found, index, receives, rfl⟩ := known
  rw [PlannedOutput.receives, decide_eq_true_eq] at receives
  rw [Insertion.segment, groupSegment, found]
  dsimp only
  rw [if_neg (by rw [index, receives.1, receives.2]; simp)]

private theorem groupInsertions_known {groups : List InsertionGroup} {offset : ℕ} {insertions : List Insertion}
    (known : ∀ insertion ∈ insertions, Known plan output offset insertion) :
    (insertions.map Insertion.segment).foldlM (groupSegment plan output) groups =
      .ok (pushInsertions groups offset (insertions.map Insertion.operationIndex)) := by
  induction insertions generalizing groups with
  | nil => rfl
  | cons insertion rest ih =>
    obtain ⟨first, later⟩ := List.forall_mem_cons.mp known
    rw [List.map_cons, List.foldlM_cons, groupSegment_known first, Except.ok_bind, ih later]
    rfl

private theorem groupPoints_known {groups : List InsertionGroup} {points : List (ℕ × PointEvents)}
    (known : ∀ point ∈ points, ∀ insertion ∈ point.2.insertions, Known plan output point.1 insertion) :
    (insertionSegments points).foldlM (groupSegment plan output) groups =
      .ok (points.foldl (fun groups point =>
        pushInsertions groups point.1 (point.2.insertions.map Insertion.operationIndex)) groups) := by
  induction points generalizing groups with
  | nil => rfl
  | cons point rest ih =>
    obtain ⟨first, later⟩ := List.forall_mem_cons.mp known
    rw [insertionSegments, List.flatMap_cons, List.foldlM_append, groupInsertions_known first, Except.ok_bind]
    exact ih later

/-- Slices of the original belong to no group. -/
private theorem groupSegments_filter (segments : List OutputSegment) (groups : List InsertionGroup) :
    segments.foldlM (groupSegment plan output) groups =
      (segments.filter OutputSegment.isPayload).foldlM (groupSegment plan output) groups := by
  induction segments generalizing groups with
  | nil => rfl
  | cons segment rest ih =>
    cases segment with
    | originalSlice fileId range =>
      rw [List.foldlM_cons, List.filter_cons_of_neg (by simp [OutputSegment.isPayload])]
      exact ih groups
    | payloadSlice operationIndex fileId range digest =>
      rw [List.foldlM_cons, List.filter_cons_of_pos rfl, List.foldlM_cons]
      exact bind_congr fun next => ih next

end Grouping

section Partition

/-- An operation's index is its place among the operations. -/
private theorem operation_at {operation : ResolvedOperation}
    (indexes : plan.operations.map ResolvedOperation.operationIndex = List.range plan.operations.length)
    (member : operation ∈ plan.operations) : plan.operations[operation.operationIndex]? = some operation := by
  obtain ⟨position, inside, rfl⟩ := List.mem_iff_getElem.mp member
  have same : (plan.operations.map ResolvedOperation.operationIndex)[position]? = some position := by
    rw [indexes, List.getElem?_range inside]
  rw [List.getElem?_map, List.getElem?_eq_getElem inside, Option.map_some, Option.some.injEq] at same
  rw [same, List.getElem?_eq_getElem inside]

/-- The insertions recorded for an output are those of the operations it receives. -/
private theorem inserted_iff (composed : Composed plan output edits) (offset operationIndex : ℕ) :
    (∃ entry ∈ edits.insertions, entry.1 = offset ∧ entry.2.operationIndex = operationIndex) ↔
      ∃ operation ∈ plan.operations, output.receives operation = true ∧ operation.destinationOffset = offset ∧
        operation.operationIndex = operationIndex := by
  have listed : (offset, operationIndex) ∈ edits.insertions.map (fun entry => (entry.1, entry.2.operationIndex)) ↔
      (offset, operationIndex) ∈ (plan.operations.filter output.receives).map fun operation =>
        (operation.destinationOffset, operation.operationIndex) := by rw [composed.insertions]
  simpa [List.mem_map, and_assoc] using listed

private theorem point_insertions (composed : Composed plan output edits) {point : ℕ × PointEvents}
    (member : point ∈ (eventPoints edits).toList) : point.2.insertions = edits.insertionsAt point.1 :=
  congrArg PointEvents.insertions ((eventPoints_faithful composed.ordered).1 point member)

private theorem mem_insertionsAt {offset : ℕ} {insertion : Insertion} :
    insertion ∈ edits.insertionsAt offset ↔ (offset, insertion) ∈ edits.insertions := by
  rw [OutputEdits.insertionsAt, List.mem_map]
  constructor
  · rintro ⟨⟨_, _⟩, member, rfl⟩
    obtain ⟨member, same⟩ := List.mem_filter.mp member
    rw [decide_eq_true_eq] at same
    exact same ▸ member
  · exact fun member => ⟨(offset, insertion), List.mem_filter.mpr ⟨member, decide_eq_true rfl⟩, rfl⟩

private theorem points_known (composed : Composed plan output edits)
    (indexes : plan.operations.map ResolvedOperation.operationIndex = List.range plan.operations.length) :
    ∀ point ∈ (eventPoints edits).toList, ∀ insertion ∈ point.2.insertions, Known plan output point.1 insertion := by
  intro point member insertion inside
  rw [point_insertions composed member, mem_insertionsAt] at inside
  obtain ⟨operation, listed, receives, offset, index⟩ := (inserted_iff composed point.1 insertion.operationIndex).mp
    ⟨_, inside, rfl, rfl⟩
  exact ⟨operation, index ▸ operation_at indexes listed, index, receives, offset⟩

/-- The groups of an output. -/
private def groupsOf (edits : OutputEdits) : List InsertionGroup := (eventPoints edits).toList.filterMap pointGroup

private theorem points_increasing (edits : OutputEdits) :
    (eventPoints edits).toList.Pairwise fun left right => left.1 < right.1 :=
  Std.TreeMap.ordered_keys_toList.imp fun less => compare_lt_iff_lt.mp less

private theorem groupsOf_increasing (edits : OutputEdits) :
    (groupsOf edits).Pairwise fun left right => left.destinationOffset < right.destinationOffset := by
  refine List.Pairwise.filterMap _ ?_ (points_increasing edits)
  intro left right less group grouped group' grouped'
  rw [pointGroup_offset grouped, pointGroup_offset grouped']
  exact less

/-- A group lists the insertions at its offset. -/
private theorem mem_groupsOf (composed : Composed plan output edits) {group : InsertionGroup} (member : group ∈ groupsOf edits) :
    group.operationIndices = (edits.insertionsAt group.destinationOffset).map Insertion.operationIndex ∧
      group.operationIndices ≠ [] := by
  obtain ⟨point, listed, grouped⟩ := List.mem_filterMap.mp member
  have same := point_insertions composed listed
  rw [pointGroup] at grouped
  split_ifs at grouped with none_
  rw [← Option.some.inj grouped]
  exact ⟨congrArg _ same, by simpa using none_⟩

private theorem groupsOf_iff (composed : Composed plan output edits) (offset operationIndex : ℕ) :
    (∃ group ∈ groupsOf edits, group.destinationOffset = offset ∧ operationIndex ∈ group.operationIndices) ↔
      ∃ entry ∈ edits.insertions, entry.1 = offset ∧ entry.2.operationIndex = operationIndex := by
  constructor
  · rintro ⟨group, member, rfl, inside⟩
    rw [(mem_groupsOf composed member).1, List.mem_map] at inside
    obtain ⟨insertion, inserted, rfl⟩ := inside
    exact ⟨_, mem_insertionsAt.mp inserted, rfl, rfl⟩
  · rintro ⟨⟨offset, insertion⟩, inserted, rfl, rfl⟩
    have present := mem_insertionsAt.mpr inserted
    obtain ⟨point, listed, same⟩ : ∃ point ∈ (eventPoints edits).toList, point.1 = offset := by
      by_contra absent
      have silent := (eventPoints_faithful composed.ordered).2 _ fun point member same => absent ⟨point, member, same⟩
      rw [show edits.insertionsAt offset = [] from congrArg PointEvents.insertions silent] at present
      cases present
    rw [← same, ← point_insertions composed listed] at present
    have grouped : pointGroup point = some ⟨point.1, point.2.insertions.map Insertion.operationIndex⟩ :=
      if_neg (List.ne_nil_of_mem present)
    exact ⟨_, List.mem_filterMap.mpr ⟨point, listed, grouped⟩, same, List.mem_map_of_mem present⟩

/-- Operations are listed by their index, so those at one offset come in increasing order. -/
private theorem insertionsAt_increasing (composed : Composed plan output edits)
    (indexes : plan.operations.map ResolvedOperation.operationIndex = List.range plan.operations.length) (offset : ℕ) :
    ((edits.insertionsAt offset).map Insertion.operationIndex).Pairwise (· < ·) := by
  have all : (edits.insertions.map fun entry => entry.2.operationIndex).Pairwise (· < ·) := by
    have same : (edits.insertions.map fun entry => entry.2.operationIndex) =
        (plan.operations.filter output.receives).map ResolvedOperation.operationIndex := by
      have second := congrArg (List.map Prod.snd) composed.insertions
      rwa [List.map_map, List.map_map] at second
    rw [same]
    refine List.Pairwise.sublist ((List.filter_sublist).map _) ?_
    rw [indexes]
    exact List.pairwise_lt_range
  rw [OutputEdits.insertionsAt, List.map_map]
  exact List.Pairwise.sublist ((List.filter_sublist).map _) all

private theorem groupsOf_nodup (composed : Composed plan output edits)
    (indexes : plan.operations.map ResolvedOperation.operationIndex = List.range plan.operations.length) :
    ((groupsOf edits).flatMap InsertionGroup.operationIndices).Nodup := by
  rw [List.nodup_flatMap]
  constructor
  · intro group member
    rw [(mem_groupsOf composed member).1]
    exact (insertionsAt_increasing composed indexes _).imp ne_of_lt
  · refine (List.pairwise_iff_forall_sublist.mpr ?_)
    intro left right listed
    have less := (List.pairwise_iff_forall_sublist.mp (groupsOf_increasing edits)) listed
    have both : ∀ group ∈ [left, right], group ∈ groupsOf edits := fun group member => listed.subset member
    intro operationIndex inLeft inRight
    -- The operation with this index has one destination offset.
    obtain ⟨operation, member, -, offset, index⟩ := (inserted_iff composed _ operationIndex).mp
      ((groupsOf_iff composed _ _).mp ⟨left, both left (by simp), rfl, inLeft⟩)
    obtain ⟨operation', member', -, offset', index'⟩ := (inserted_iff composed _ operationIndex).mp
      ((groupsOf_iff composed _ _).mp ⟨right, both right (by simp), rfl, inRight⟩)
    have found := operation_at indexes member
    have found' := operation_at indexes member'
    rw [index] at found
    rw [index', found] at found'
    rw [Option.some.inj found', offset'] at offset
    omega

end Partition

section Reviewed

variable {sha256 : Bytes → Sha256Digest} {sizes : TypeSizes} {batch : BatchSpecification} {budget : ResourceBudget}

/-- An output that names bytes names those of each segment. -/
private theorem segments_read {segments : List OutputSegment} {slices : List Bytes}
    (named : segments.mapM (segmentBytes? snapshot) = some slices) :
    (∀ segment ∈ segments, segmentBytes? snapshot segment = some (segmentBytes snapshot segment)) ∧
      segments.map (segmentBytes snapshot) = slices := by
  induction segments generalizing slices with
  | nil =>
    rw [List.mapM_nil] at named
    exact ⟨fun _ absent => absurd absent List.not_mem_nil, Option.some.inj named⟩
  | cons segment rest ih =>
    rw [List.mapM_cons] at named
    obtain ⟨slice, read, named⟩ := Option.bind_eq_some_iff.mp named
    obtain ⟨others, later, same⟩ := Option.bind_eq_some_iff.mp named
    have first : segmentBytes snapshot segment = slice := by rw [segmentBytes, read, Option.getD_some]
    obtain ⟨reads, rest'⟩ := ih later
    rw [List.map_cons, first, rest']
    exact ⟨List.forall_mem_cons.mpr ⟨by rw [read, first], reads⟩, Option.some.inj same⟩

/-- The groups of the review are those of the event points. -/
private theorem buildReviewOutput_groups (indexed : snapshot.Indexed)
    (planned : Core.plan sha256 sizes snapshot batch budget = .ok plan) (member : output ∈ plan.outputs)
    (composed : Composed plan output edits) (outputIndex : ℕ) :
    ∃ review, buildReviewOutput outputIndex output snapshot plan (filesById snapshot) = .ok review ∧
      review.insertionGroupsInOutputOrder = groupsOf edits := by
  obtain ⟨-, indexes⟩ := plan_composed indexed planned
  obtain ⟨found, indexes?, -⟩ := Except.bind_eq_ok.mp planned
  have ids := ((indexSnapshot_succeeds_iff snapshot).mp ⟨found, indexes?⟩).ids
  obtain ⟨bytes, named, length, -⟩ := ((plan_valid indexed planned).1 output member).bytes
  have bounded := ((plan_valid indexed planned).1 output member).bounded
  obtain ⟨slices, read, flat⟩ := Option.map_eq_some_iff.mp named
  obtain ⟨reads, sliced⟩ := segments_read read
  have whole : output.segments.flatMap (segmentBytes snapshot) = bytes := by rw [← flat, ← sliced, List.flatMap]
  have grouped : output.segments.foldlM (groupSegment plan output) [] = .ok (groupsOf edits) := by
    have pushed := @pushPoints _ (points_increasing edits) [] fun _ absent => absurd absent List.not_mem_nil
    rw [groupSegments_filter, buildSegments_payloads composed.built, groupPoints_known (points_known composed indexes),
      pushed]
    rfl
  have fits : ([] ++ output.segments.flatMap (segmentBytes snapshot)).length ≤ u64Max := by
    rw [List.nil_append, whole, ← length]
    exact bounded
  have folded := reviewSegments_ok indexed ids reads fits grouped
  rw [List.nil_append, whole] at folded
  have matching : ¬(metricsOf bytes).byteCount ≠ output.resultingLength := not_not.mpr length.symm
  have empty : metricsOf [] = {} := rfl
  rw [empty] at folded
  rw [buildReviewOutput, folded, Except.ok_bind]
  dsimp only
  rw [if_neg matching]
  exact ⟨_, rfl, rfl⟩

/-- The review of an output of an accepted plan succeeds; its groups are in the order of their offsets,
each lists operations in increasing order, and an operation is in the group of its offset exactly when it
is effectful and directed at the output. -/
theorem insertion_groups_partition (indexed : snapshot.Indexed)
    (planned : Core.plan sha256 sizes snapshot batch budget = .ok plan) {outputIndex : ℕ} (member : output ∈ plan.outputs) :
    ∃ review, buildReviewOutput outputIndex output snapshot plan (filesById snapshot) = .ok review ∧
      (review.insertionGroupsInOutputOrder.Pairwise fun left right => left.destinationOffset < right.destinationOffset) ∧
      (∀ group ∈ review.insertionGroupsInOutputOrder,
        group.operationIndices ≠ [] ∧ group.operationIndices.Pairwise (· < ·)) ∧
      (review.insertionGroupsInOutputOrder.flatMap InsertionGroup.operationIndices).Nodup ∧
      ∀ offset operationIndex, (∃ group ∈ review.insertionGroupsInOutputOrder,
          group.destinationOffset = offset ∧ operationIndex ∈ group.operationIndices) ↔
        ∃ operation, plan.operations[operationIndex]? = some operation ∧ operation.effect = .changed ∧
          operation.destinationPath = output.path ∧ operation.destinationOffset = offset := by
  obtain ⟨composes, indexes⟩ := plan_composed indexed planned
  obtain ⟨edits, composed⟩ := composes output member
  obtain ⟨review, reviewed, groups⟩ := buildReviewOutput_groups indexed planned member composed outputIndex
  refine ⟨review, reviewed, ?_⟩
  rw [groups]
  refine ⟨groupsOf_increasing edits, ?_, groupsOf_nodup composed indexes, ?_⟩
  · intro group inside
    obtain ⟨listed, nonempty⟩ := mem_groupsOf composed inside
    exact ⟨nonempty, listed ▸ insertionsAt_increasing composed indexes _⟩
  · intro offset operationIndex
    rw [groupsOf_iff composed, inserted_iff composed]
    constructor
    · rintro ⟨operation, listed, receives, rfl, rfl⟩
      rw [PlannedOutput.receives, decide_eq_true_eq] at receives
      exact ⟨operation, operation_at indexes listed, receives.1, receives.2, rfl⟩
    · rintro ⟨operation, found, changed, directed, rfl⟩
      have listed := List.mem_of_getElem? found
      have same : operation.operationIndex = operationIndex := by
        have index := congrArg (·[operationIndex]?) indexes
        rw [List.getElem?_map, found, List.getElem?_range (List.getElem?_eq_some_iff.mp found).1] at index
        exact Option.some.inj index
      exact ⟨operation, listed, decide_eq_true ⟨changed, directed⟩, rfl, same⟩

end Reviewed

/-- The file `a` of the example is edited by its own deletions and by one insertion. -/
theorem insertion_groups_partition_example : ∃ editPlan,
    Core.plan sha256Digest ⟨224, 120, 72⟩ exampleSnapshot exampleBatch {} = .ok editPlan ∧ editPlan.outputs ≠ [] ∧
      ∀ output ∈ editPlan.outputs, ∃ review,
        buildReviewOutput 0 output exampleSnapshot editPlan (filesById exampleSnapshot) = .ok review ∧
        (review.insertionGroupsInOutputOrder.flatMap InsertionGroup.operationIndices).Nodup := by
  have indexed : exampleSnapshot.Indexed := by
    intro file member
    simp only [exampleSnapshot, List.mem_cons, List.not_mem_nil, or_false] at member
    rcases member with rfl | rfl
    · exact ⟨10, 100, by decide⟩
    · exact ⟨10, 100, by decide⟩
  cases planned : Core.plan sha256Digest ⟨224, 120, 72⟩ exampleSnapshot exampleBatch {} with
  | error failure =>
    have accepted : (Core.plan sha256Digest ⟨224, 120, 72⟩ exampleSnapshot exampleBatch {}).isOk = true := by
      decide +kernel
    rw [planned] at accepted
    cases accepted
  | ok editPlan =>
    have count : ((Core.plan sha256Digest ⟨224, 120, 72⟩ exampleSnapshot exampleBatch {}).map
        fun editPlan => editPlan.outputs.length) = .ok 3 := by decide +kernel
    rw [planned] at count
    have three : editPlan.outputs.length = 3 := Except.ok.inj count
    refine ⟨editPlan, rfl, List.ne_nil_of_length_pos (by omega), ?_⟩
    intro output member
    obtain ⟨review, reviewed, -, -, once, -⟩ := @insertion_groups_partition _ _ _ _ _ _ _ indexed planned 0 member
    exact ⟨review, reviewed, once⟩

end Srcmv.Cli
