import Srcmv.Proofs.Core.Index
import Srcmv.Proofs.Core.Presentation
import Srcmv.Soundness.Composition

/-! # Planning does not depend on the presentation of the snapshot

The files and the absent paths of a snapshot may come in any order and the files may carry any
distinct identifiers. Planning then fails together, or gives the same operations, the same output
bytes and the same digest.
-/

namespace Srcmv.Core

/-- The same snapshot listed in another order, with its file identifiers renamed. -/
structure Presents (rename : SnapshotFileId → SnapshotFileId) (snapshot other : WorkspaceSnapshot) : Prop where
  workspace : other.workspaceIdentity = snapshot.workspaceIdentity
  files : other.files.Perm (snapshot.files.map (FileSnapshot.renamed rename))
  absentPaths : other.absentPaths.Perm snapshot.absentPaths

/-- Outputs that agree on everything but the names of the files. -/
structure SameOutput (snapshot other : WorkspaceSnapshot) (output output' : PlannedOutput) : Prop where
  path : output'.path = output.path
  originalDigest : output'.originalDigest = output.originalDigest
  change : output'.change = output.change
  resultingLength : output'.resultingLength = output.resultingLength
  resultingDigest : output'.resultingDigest = output.resultingDigest
  bytes : ∃ bytes, output.bytes? snapshot = some bytes ∧ output'.bytes? other = some bytes

structure SameOutcome (snapshot other : WorkspaceSnapshot) (plan plan' : EditPlan) : Prop where
  operations : plan'.operations = plan.operations
  outputs : List.Forall₂ (SameOutput snapshot other) plan.outputs plan'.outputs
  usage : plan'.usage = plan.usage
  digest : plan'.digest = plan.digest

variable {rename : SnapshotFileId → SnapshotFileId} {snapshot other : WorkspaceSnapshot}

/-! ## Another presentation -/

theorem Indexable.presented (injective : Function.Injective rename) (presents : Presents rename snapshot other) :
    Indexable other ↔ Indexable snapshot := by
  have paths : (other.files.map fun file => file.path.value).Perm (snapshot.files.map fun file => file.path.value) := by
    have moved := presents.files.map fun file => file.path.value
    rwa [List.map_map] at moved
  have ids : (other.files.map FileSnapshot.id).Perm ((snapshot.files.map FileSnapshot.id).map rename) := by
    have moved := presents.files.map FileSnapshot.id
    rwa [List.map_map] at moved ⊢
  have absents := presents.absentPaths.map fun missing => missing.path.value
  constructor
  · rintro ⟨distinct, unique⟩
    exact ⟨((paths.append absents).nodup_iff).mp distinct, (ids.nodup_iff.mp unique).of_map⟩
  · rintro ⟨distinct, unique⟩
    exact ⟨((paths.append absents).nodup_iff).mpr distinct, ids.nodup_iff.mpr (unique.map injective)⟩

theorem indexSnapshot_presented (injective : Function.Injective rename) (presents : Presents rename snapshot other) :
    Except.Agree (fun indexed indexed' => LookupsRenamed rename indexed.1 indexed'.1 indexed.2 indexed'.2)
      (indexSnapshot snapshot) (indexSnapshot other) := by
  apply Except.Agree.of_ok_iff (indexSnapshot_succeeds_iff snapshot)
  · rw [indexSnapshot_succeeds_iff, Indexable.presented injective presents]
  · rintro ⟨states, byId⟩ ⟨states', byId'⟩ accepted accepted'
    obtain ⟨byPath, files⟩ := indexSnapshot_lookups accepted
    obtain ⟨byPath', files'⟩ := indexSnapshot_lookups accepted'
    constructor
    · intro path
      apply Option.ext
      intro state
      rw [byPath', Option.map_eq_some_iff]
      simp only [byPath, presents.files.mem_iff, presents.absentPaths.mem_iff, List.mem_map]
      constructor
      · rintro (⟨_, ⟨file, member, rfl⟩, same, rfl⟩ | ⟨missing, member, same, rfl⟩)
        · exact ⟨_, .inl ⟨file, member, same, rfl⟩, rfl⟩
        · exact ⟨_, .inr ⟨missing, member, same, rfl⟩, rfl⟩
      · rintro ⟨_, ⟨file, member, same, rfl⟩ | ⟨missing, member, same, rfl⟩, rfl⟩
        · exact .inl ⟨_, ⟨file, member, rfl⟩, same, rfl⟩
        · exact .inr ⟨missing, member, same, rfl⟩
    · intro id
      apply Option.ext
      intro found
      rw [files', Option.map_eq_some_iff]
      simp only [files, presents.files.mem_iff, List.mem_map]
      constructor
      · rintro ⟨_, ⟨file, member, rfl⟩, same, rfl⟩
        exact ⟨file, ⟨file, member, injective same, rfl⟩, rfl⟩
      · rintro ⟨_, ⟨file, member, rfl, rfl⟩, rfl⟩
        exact ⟨_, ⟨file, member, rfl⟩, rfl, rfl⟩

/-- The inputs in path order are the same, whatever order they are listed in. -/
theorem sortedInputs_presented (presents : Presents rename snapshot other) (indexable : Indexable snapshot) :
    sortedInputs other = (sortedInputs snapshot).map (InputRecord.renamed rename) := by
  have listed : (other.files.map InputRecord.existing ++ other.absentPaths.map InputRecord.absent).Perm
      ((snapshot.files.map InputRecord.existing ++ snapshot.absentPaths.map InputRecord.absent).map
        (InputRecord.renamed rename)) := by
    rw [List.map_append, List.map_map, List.map_map]
    apply List.Perm.append
    · have moved := presents.files.map InputRecord.existing
      rwa [List.map_map] at moved
    · exact presents.absentPaths.map InputRecord.absent
  have distinct : ((sortedInputs snapshot).map InputRecord.path).Nodup := by
    have perm := (List.perm_insertionSort (fun left right : InputRecord => left.path ≤ right.path)
      (snapshot.files.map InputRecord.existing ++ snapshot.absentPaths.map InputRecord.absent)).map InputRecord.path
    apply perm.nodup_iff.mpr
    rw [List.map_append, List.map_map, List.map_map]
    exact indexable.paths
  have commutes : (sortedInputs snapshot).map (InputRecord.renamed rename) =
      ((snapshot.files.map InputRecord.existing ++ snapshot.absentPaths.map InputRecord.absent).map
        (InputRecord.renamed rename)).insertionSort fun left right => left.path ≤ right.path :=
    List.map_insertionSort _ _ (InputRecord.renamed rename) _ fun left _ right _ => by
      rw [InputRecord.renamed_path, InputRecord.renamed_path]
  have total : Std.Total fun left right : InputRecord => left.path ≤ right.path := ⟨fun left right => le_total _ _⟩
  have transitive : IsTrans InputRecord fun left right => left.path ≤ right.path := ⟨fun _ _ _ => le_trans⟩
  have perm : (sortedInputs other).Perm ((sortedInputs snapshot).map (InputRecord.renamed rename)) := by
    rw [commutes]
    exact ((List.perm_insertionSort _ _).trans listed).trans (List.perm_insertionSort _ _).symm
  have distinct' : (((sortedInputs snapshot).map (InputRecord.renamed rename)).map InputRecord.path).Nodup := by
    rw [List.map_map]
    simpa only [Function.comp_def, InputRecord.renamed_path] using distinct
  refine List.Perm.eq_of_pairwise ?_ (List.pairwise_insertionSort _ _) ?_ perm
  · intro left right inLeft inRight below above
    exact List.inj_on_of_nodup_map distinct' (perm.mem_iff.mp inLeft) inRight (le_antisymm below above)
  · rw [commutes]
    exact List.pairwise_insertionSort _ _

/-- The plan record names a file by its position, so a renamed plan has the same record. -/
theorem encodePlanRecord_presented (injective : Function.Injective rename) (presents : Presents rename snapshot other)
    (indexable : Indexable snapshot) (plan : EditPlan) :
    Except.Agree Eq (encodePlanRecord snapshot plan) (encodePlanRecord other (plan.renamed rename)) := by
  rw [encodePlanRecord, encodePlanRecord, sortedInputs_presented presents indexable]
  apply Except.Agree.bind (inputIndexes_renamed injective (sortedInputs snapshot))
  intro indexes indexes' positions
  dsimp only [EditPlan.renamed]
  rw [encodeOutputs_renamed positions, encodeInputs_renamed, encodeWorkspaceIdentity, encodeWorkspaceIdentity,
    presents.workspace]
  exact Except.Agree.refl _

/-- Under an injective renaming the plan of the other presentation is the renamed plan. -/
theorem plan_renamed (sha256 : Bytes → Sha256Digest) (sizes : TypeSizes) (injective : Function.Injective rename)
    (presents : Presents rename snapshot other) (batch : BatchSpecification) (budget : ResourceBudget) :
    Except.Agree (fun plan plan' => plan' = plan.renamed rename) (plan sha256 sizes snapshot batch budget)
      (plan sha256 sizes other batch budget) := by
  cases indexed : indexSnapshot snapshot with
  | error failure =>
    have agree := indexSnapshot_presented injective presents
    rw [plan, plan, indexed]
    rw [indexed] at agree
    generalize indexSnapshot other = result at agree ⊢
    cases agree with
    | error _ failure' => exact .error failure failure'
  | ok found =>
    have indexable := (indexSnapshot_succeeds_iff snapshot).mp ⟨found, indexed⟩
    rw [plan, plan]
    apply Except.Agree.bind (indexSnapshot_presented injective presents)
    rintro ⟨states, files⟩ ⟨states', files'⟩ lookups
    apply Except.Agree.bind (Except.Agree.refl (validatePreconditionConsistency batch))
    rintro _ _ -
    have operations : Except.Agree (ProgressRenamed rename)
        (batch.operations.zipIdx.foldlM (planOperation sha256 states) ([], ∅))
        ((batch.operations.zipIdx.map id).foldlM (planOperation sha256 states') ([], ∅)) :=
      List.foldlM_agree (fun entry _ progress progress' renamed => planOperation_renamed sha256 injective lookups renamed entry)
        ⟨rfl, fun _ => by simp⟩
    rw [List.map_id] at operations
    apply Except.Agree.bind operations
    rintro ⟨resolved, edits⟩ ⟨resolved', edits'⟩ ⟨same, renamed⟩
    dsimp only at same renamed ⊢
    subst same
    have outputs : (edits'.toList.map Prod.snd).mapM (planOutput sha256 files') =
        ((edits.toList.map Prod.snd).mapM (planOutput sha256 files)).map (List.map (PlannedOutput.renamed rename)) := by
      rw [← List.mapM_map_commutes fun edits _ => planOutput_renamed sha256 lookups edits,
        OrderedMap.tree_toList_map renamed, List.map_map, List.map_map]
      rfl
    rw [outputs, Except.bind_map]
    apply Except.Agree.bind (Except.Agree.refl _)
    rintro planned _ rfl
    rw [calculateUsage_renamed]
    apply Except.Agree.bind (Except.Agree.refl _)
    rintro usage _ rfl
    apply Except.Agree.bind (Except.Agree.refl _)
    rintro _ _ -
    have record := encodePlanRecord_presented injective presents indexable
      { operations := resolved', outputs := planned, usage, digest := zeroDigest }
    have digested : Except.Agree Eq
        (planDigest sha256 snapshot { operations := resolved', outputs := planned, usage, digest := zeroDigest })
        (planDigest sha256 other (EditPlan.renamed rename
          { operations := resolved', outputs := planned, usage, digest := zeroDigest })) :=
      record.bind fun bytes bytes' same => .ok (congrArg (fun bytes => sha256 (domainPrefix ++ bytes)) same)
    apply Except.Agree.bind digested
    rintro digest _ rfl
    exact .ok rfl

/-- A renaming that keeps the identifiers of a list apart agrees there with one that keeps all apart. -/
private theorem exists_injective {ids : List ℕ} {rename : ℕ → ℕ} (distinct : Set.InjOn rename {id | id ∈ ids}) :
    ∃ extended : ℕ → ℕ, Function.Injective extended ∧ ∀ id ∈ ids, extended id = rename id := by
  have bounded : ∀ id ∈ ids, rename id ≤ (ids.map rename).sum := fun id member =>
    List.single_le_sum (fun _ _ => Nat.zero_le _) _ (List.mem_map_of_mem member)
  refine ⟨fun id => if id ∈ ids then rename id else (ids.map rename).sum + 1 + id, ?_, fun id member => if_pos member⟩
  intro left right same
  dsimp only at same
  split_ifs at same with inLeft inRight inRight
  · exact distinct inLeft inRight same
  · have := bounded left inLeft
    omega
  · have := bounded right inRight
    omega
  · omega

theorem segmentBytes?_presented (injective : Function.Injective rename) (presents : Presents rename snapshot other)
    (indexable : Indexable snapshot) (segment : OutputSegment) :
    segmentBytes? other (segment.renamed rename) = segmentBytes? snapshot segment := by
  have byId (id : SnapshotFileId) : other.fileById? (rename id) = (snapshot.fileById? id).map (FileSnapshot.renamed rename) := by
    obtain ⟨⟨states, files⟩, indexed⟩ := (indexSnapshot_succeeds_iff snapshot).mpr indexable
    have agree := indexSnapshot_presented injective presents
    rw [indexed] at agree
    obtain ⟨⟨states', files'⟩, indexed'⟩ :=
      (indexSnapshot_succeeds_iff other).mpr ((Indexable.presented injective presents).mpr indexable)
    rw [indexed'] at agree
    cases agree with
    | ok lookups =>
      rw [← (indexSnapshot_ok indexed).byId, ← (indexSnapshot_ok indexed').byId]
      exact lookups.byId id
  rw [segmentBytes?, segmentBytes?, OutputSegment.renamed_fileId, OutputSegment.renamed_range, byId]
  cases snapshot.fileById? segment.fileId <;> rfl

/-- Every output of an accepted plan names valid slices. -/
theorem plan_bytes {sha256 : Bytes → Sha256Digest} {sizes : TypeSizes} {batch : BatchSpecification}
    {budget : ResourceBudget} {editPlan : EditPlan} (planned : plan sha256 sizes snapshot batch budget = .ok editPlan) :
    Indexable snapshot ∧ ∀ output ∈ editPlan.outputs, ∃ bytes, output.bytes? snapshot = some bytes := by
  obtain ⟨⟨states, files⟩, indexed, planned⟩ := Except.bind_eq_ok.mp planned
  obtain ⟨_, -, planned⟩ := Except.bind_eq_ok.mp planned
  obtain ⟨⟨resolved, edits⟩, -, planned⟩ := Except.bind_eq_ok.mp planned
  obtain ⟨outputs, mapped, planned⟩ := Except.bind_eq_ok.mp planned
  obtain ⟨usage, -, planned⟩ := Except.bind_eq_ok.mp planned
  obtain ⟨_, -, planned⟩ := Except.bind_eq_ok.mp planned
  obtain ⟨digest, -, planned⟩ := Except.bind_eq_ok.mp planned
  obtain rfl := Except.pure_eq_ok.mp planned
  refine ⟨(indexSnapshot_succeeds_iff snapshot).mp ⟨_, indexed⟩, ?_⟩
  intro output member
  obtain ⟨_, -, accepted⟩ := List.mapM_ok_mem mapped member
  exact ⟨_, (planOutput_ok (indexSnapshot_ok indexed) accepted).2.2.2⟩

/-- However the snapshot is presented, planning fails alike or gives the same operations, the same
output paths, classifications, lengths and bytes, and the same digest. -/
theorem plan_presentation_independent (sha256 : Bytes → Sha256Digest) (sizes : TypeSizes)
    (presents : Presents rename snapshot other)
    (distinct : Set.InjOn rename {id | ∃ file ∈ snapshot.files, file.id = id})
    (batch : BatchSpecification) (budget : ResourceBudget) :
    Except.Agree (SameOutcome snapshot other) (plan sha256 sizes snapshot batch budget)
      (plan sha256 sizes other batch budget) := by
  have apart : Set.InjOn rename {id | id ∈ snapshot.files.map FileSnapshot.id} := by
    simpa only [List.mem_map] using distinct
  obtain ⟨extended, injective, extends_⟩ := exists_injective apart
  have presents' : Presents extended snapshot other := by
    refine ⟨presents.workspace, ?_, presents.absentPaths⟩
    have same : snapshot.files.map (FileSnapshot.renamed extended) = snapshot.files.map (FileSnapshot.renamed rename) :=
      List.map_congr_left fun file member => by
        rw [FileSnapshot.renamed, FileSnapshot.renamed, extends_ _ (List.mem_map_of_mem member)]
    exact same ▸ presents.files
  have agree := plan_renamed sha256 sizes injective presents' batch budget
  cases planned : plan sha256 sizes snapshot batch budget with
  | error failure =>
    rw [planned] at agree
    generalize plan sha256 sizes other batch budget = result at agree ⊢
    cases agree with
    | error _ failure' => exact .error failure failure'
  | ok editPlan =>
    obtain ⟨indexable, valid⟩ := plan_bytes planned
    rw [planned] at agree
    generalize plan sha256 sizes other batch budget = result at agree ⊢
    cases agree with
    | ok same =>
      subst same
      refine .ok ⟨rfl, ?_, rfl, rfl⟩
      apply List.forall₂_map_right_iff.mpr
      apply List.forall₂_same.mpr
      intro output member
      obtain ⟨bytes, whole⟩ := valid output member
      refine ⟨rfl, rfl, rfl, rfl, rfl, bytes, whole, ?_⟩
      rw [← whole, PlannedOutput.bytes?, PlannedOutput.bytes?, PlannedOutput.renamed, List.mapM_map]
      exact congrArg (fun read => (output.segments.mapM read).map List.flatten)
        (funext (segmentBytes?_presented injective presents' indexable))

section Example

/-- The example workspace listed backwards under other identifiers. -/
def backwardSnapshot : WorkspaceSnapshot where
  workspaceIdentity := exampleSnapshot.workspaceIdentity
  files := (exampleSnapshot.files.map (FileSnapshot.renamed (7 - ·))).reverse
  absentPaths := exampleSnapshot.absentPaths

theorem plan_presented_backwards : ∃ editPlan editPlan',
    plan sha256Digest ⟨224, 120, 72⟩ exampleSnapshot exampleBatch {} = .ok editPlan ∧
      plan sha256Digest ⟨224, 120, 72⟩ backwardSnapshot exampleBatch {} = .ok editPlan' ∧
        SameOutcome exampleSnapshot backwardSnapshot editPlan editPlan' := by
  have presents : Presents (7 - ·) exampleSnapshot backwardSnapshot :=
    ⟨rfl, List.reverse_perm _, List.Perm.refl _⟩
  have distinct : Set.InjOn (7 - ·) {id : ℕ | ∃ file ∈ exampleSnapshot.files, file.id = id} := by
    have small : ∀ id ∈ {id : ℕ | ∃ file ∈ exampleSnapshot.files, file.id = id}, id ≤ 1 := by
      rintro id ⟨file, member, rfl⟩
      simp only [exampleSnapshot, List.mem_cons, List.not_mem_nil, or_false] at member
      rcases member with rfl | rfl <;> decide
    intro left inLeft right inRight same
    have := small left inLeft
    have := small right inRight
    dsimp only at same
    omega
  have agree := plan_presentation_independent sha256Digest ⟨224, 120, 72⟩ presents distinct exampleBatch {}
  have accepted : (plan sha256Digest ⟨224, 120, 72⟩ exampleSnapshot exampleBatch {}).isOk = true := by
    decide +kernel
  cases planned : plan sha256Digest ⟨224, 120, 72⟩ exampleSnapshot exampleBatch {} with
  | error failure =>
    rw [planned] at accepted
    cases accepted
  | ok editPlan =>
    rw [planned] at agree
    generalize plan sha256Digest ⟨224, 120, 72⟩ backwardSnapshot exampleBatch {} = result at agree ⊢
    cases agree with
    | ok same => exact ⟨editPlan, _, rfl, rfl, same⟩

end Example

end Srcmv.Core
