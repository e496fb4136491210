import Srcmv.Model.Fs.Lookup
import Srcmv.Proofs.Core.Creations
import Srcmv.Proofs.Fs.Acquisition
import Srcmv.Soundness.ExactAcceptance

/-! # Targets that meet at one directory entry

Acquisition tells existing files apart by their identities, but absent paths have none. The targets of
an accepted plan name different directory entries, and are completed one after the other, exactly when
the lookup tells the new files of the batch apart.
-/

namespace Srcmv.Fs

open Srcmv.Core

variable {Entry : Type} {lookup : Lookup Entry} {sha256 : Bytes → Sha256Digest} {limits : SnapshotLimits}
  {requirements : List SnapshotRequirement} {snapshot : WorkspaceSnapshot} {sizes : TypeSizes} {batch : BatchSpecification}
  {budget : ResourceBudget} {editPlan : EditPlan}

/-- The outputs name different directory entries. -/
def Lookup.Separates (lookup : Lookup Entry) (outputs : List PlannedOutput) : Prop :=
  outputs.Pairwise fun left right => lookup.resolve left.path.value ≠ lookup.resolve right.path.value

/-- Different new files of the batch have different directory entries. -/
def Lookup.TellsApart (lookup : Lookup Entry) (batch : BatchSpecification) : Prop :=
  ∀ first ∈ batch.operations, ∀ second ∈ batch.operations, ∀ left right : WorkspaceRelativePath,
    first.Creates left → second.Creates right → lookup.resolve left.value = lookup.resolve right.value → left = right

section Completing

variable [DecidableEq Entry]

/-- The entry of a path holds the recorded original, or nothing where none is recorded. -/
private def Lookup.Stands (lookup : Lookup Entry) (path : String) (original : Option FileIdentity) : Prop :=
  (original = none ∧ lookup.item (lookup.resolve path) = none) ∨
    ∃ node, original = some node.identity ∧ lookup.item (lookup.resolve path) = some (.file node)

/-- A target is completed at an entry that is as recorded, and no other entry changes. -/
private theorem completeTarget_stands {path : String} {original : Option FileIdentity} (stands : lookup.Stands path original)
    (candidate : Node) :
    lookup.completeTarget path original candidate = .ok (lookup.place (lookup.resolve path) (some (.file candidate))) := by
  rcases stands with ⟨rfl, vacant⟩ | ⟨node, rfl, occupied⟩
  · simp only [Lookup.completeTarget, Lookup.backUpOriginal, Except.ok_bind, Lookup.installCandidate, vacant]
  · simp only [Lookup.completeTarget, Lookup.backUpOriginal, occupied, if_true, Except.ok_bind, Lookup.installCandidate,
      Lookup.place, Function.update_self, Function.update_idem]

private theorem Lookup.Stands.place {path other : String} {original : Option FileIdentity} (stands : lookup.Stands other original)
    (apart : lookup.resolve path ≠ lookup.resolve other) (item : Option Item) :
    (lookup.place (lookup.resolve path) item).Stands other original := by
  rw [Lookup.Stands, show (lookup.place (lookup.resolve path) item).item ((lookup.place (lookup.resolve path) item).resolve other) =
    lookup.item (lookup.resolve other) from Function.update_of_ne apart.symm _ _]
  exact stands

/-- Targets at different entries, each as recorded, are completed one after the other. -/
private theorem completeTargets_succeeds {candidate : PlannedOutput → Node} {outputs : List PlannedOutput} :
    ∀ {lookup : Lookup Entry}, lookup.Separates outputs →
      (∀ output ∈ outputs, lookup.Stands output.path.value (Lookup.recordedOriginal snapshot output)) →
        ∃ later, lookup.completeTargets snapshot candidate outputs = .ok later := by
  induction outputs with
  | nil => exact fun _ _ => ⟨_, rfl⟩
  | cons output rest ih =>
    intro lookup apart stands
    obtain ⟨first, others⟩ := List.pairwise_cons.mp apart
    rw [Lookup.completeTargets, List.foldlM_cons, completeTarget_stands (stands output List.mem_cons_self), Except.ok_bind]
    refine @ih (lookup.place (lookup.resolve output.path.value) (some (.file (candidate output)))) others ?_
    intro other member
    exact (stands other (List.mem_cons_of_mem _ member)).place (first other member) _

end Completing

section Plans

/-- An output is changed exactly when it is listed among the changed ones. -/
private theorem mem_changedOutputs {output : PlannedOutput} :
    output ∈ changedOutputs editPlan ↔ output ∈ editPlan.outputs ∧ output.change ≠ .unchanged := by
  simp [changedOutputs, List.mem_mergeSort]

/-- The changed outputs of a plan already stand in path order. -/
private theorem changedOutputs_sorted (indexed : snapshot.Indexed)
    (planned : plan sha256 sizes snapshot batch budget = .ok editPlan) :
    changedOutputs editPlan = editPlan.outputs.filter (fun output => output.change ≠ .unchanged) ∧
      (changedOutputs editPlan).Pairwise fun left right => left.path.value < right.path.value := by
  have sorted := (plan_valid indexed planned).2.sublist (List.filter_sublist (p := fun output => decide (output.change ≠ .unchanged)))
  have same : changedOutputs editPlan = editPlan.outputs.filter (fun output => output.change ≠ .unchanged) :=
    List.mergeSort_of_pairwise (sorted.imp fun less => decide_eq_true less.le)
  exact ⟨same, same ▸ sorted⟩

/-- Every output stands at its entry as the snapshot recorded it. -/
private theorem output_stands (acquired : lookup.view.acquireSnapshot sha256 requirements limits = .ok snapshot)
    (planned : plan sha256 sizes snapshot batch budget = .ok editPlan) {output : PlannedOutput}
    (member : output ∈ editPlan.outputs) : lookup.Stands output.path.value (Lookup.recordedOriginal snapshot output) := by
  have shown := acquireSnapshot_shown acquired
  have distinct := List.nodup_append.mp (acquireSnapshot_distinct acquired)
  cases found : snapshot.files.find? fun file => file.path = output.path with
  | some file =>
    have inside := List.mem_of_find?_eq_some found
    have path : file.path = output.path := of_decide_eq_true (List.find?_some found :)
    obtain ⟨node, here, identity⟩ := shown.files file inside
    refine .inr ⟨node, ?_, path ▸ here⟩
    rw [Lookup.recordedOriginal, found, Option.map_some, identity]
  | none =>
    refine .inl ⟨by rw [Lookup.recordedOriginal, found, Option.map_none], ?_⟩
    rcases ((plan_valid (acquireSnapshot_ok acquired).indexed planned).1 output member).known with
      ⟨file, inside, path⟩ | ⟨missing, inside, path⟩
    · have different := List.find?_eq_none.mp found file inside
      simp [path] at different
    · exact path ▸ shown.absentPaths missing inside

/-- Two changed outputs at one entry are both new files. -/
private theorem created_of_same_entry (acquired : lookup.view.acquireSnapshot sha256 requirements limits = .ok snapshot)
    (planned : plan sha256 sizes snapshot batch budget = .ok editPlan) {left right : PlannedOutput}
    (leftMember : left ∈ changedOutputs editPlan) (rightMember : right ∈ changedOutputs editPlan)
    (different : left.path ≠ right.path) (same : lookup.resolve left.path.value = lookup.resolve right.path.value) :
    ∃ first ∈ batch.operations, first.Creates left.path := by
  have shown := acquireSnapshot_shown acquired
  have indexed := (acquireSnapshot_ok acquired).indexed
  obtain ⟨leftListed, leftChanged⟩ := mem_changedOutputs.mp leftMember
  obtain ⟨rightListed, -⟩ := mem_changedOutputs.mp rightMember
  have item : lookup.view.item left.path.value = lookup.view.item right.path.value := congrArg lookup.item same
  rcases ((plan_valid indexed planned).1 left leftListed).known with ⟨file, inside, path⟩ | ⟨missing, inside, path⟩
  · exfalso
    obtain ⟨node, here, identity⟩ := shown.files file inside
    rw [path, item] at here
    rcases ((plan_valid indexed planned).1 right rightListed).known with ⟨other, otherInside, otherPath⟩ | ⟨gone, goneInside, gonePath⟩
    · obtain ⟨otherNode, there, otherIdentity⟩ := shown.files other otherInside
      rw [otherPath, here] at there
      obtain rfl := Item.file.inj (Option.some.inj there)
      have one := shown.unaliased file inside other otherInside (identity.symm.trans otherIdentity)
      exact different (path.symm.trans (one.trans otherPath))
    · have vacant := shown.absentPaths gone goneInside
      rw [gonePath, here] at vacant
      cases vacant
  · exact path ▸ (plan_creates_iff indexed planned inside).mp ⟨left, leftListed, path.symm, leftChanged⟩

/-- The changed outputs of an accepted plan over an acquired snapshot name different directory entries, and
completing them one after the other never meets an earlier one, exactly when the lookup tells the new files apart. -/
theorem targets_never_collide_iff [DecidableEq Entry] (candidate : PlannedOutput → Node)
    (acquired : lookup.view.acquireSnapshot sha256 requirements limits = .ok snapshot)
    (planned : plan sha256 sizes snapshot batch budget = .ok editPlan) :
    (lookup.Separates (changedOutputs editPlan) ∧
      ∃ later, lookup.completeTargets snapshot candidate (changedOutputs editPlan) = .ok later) ↔ lookup.TellsApart batch := by
  have indexed := (acquireSnapshot_ok acquired).indexed
  constructor
  · rintro ⟨separates, -⟩ first firstMember second secondMember left right createsLeft createsRight same
    by_contra different
    have listed {operation : Operation} {path : WorkspaceRelativePath} (member : operation ∈ batch.operations)
        (creates : operation.Creates path) : ∃ output ∈ changedOutputs editPlan, output.path = path := by
      obtain ⟨missing, inside, rfl⟩ := plan_creates_absent planned member creates
      obtain ⟨output, written, path, changed⟩ := (plan_creates_iff indexed planned inside).mpr ⟨operation, member, creates⟩
      exact ⟨output, mem_changedOutputs.mpr ⟨written, changed⟩, path⟩
    obtain ⟨one, oneMember, rfl⟩ := listed firstMember createsLeft
    obtain ⟨other, otherMember, rfl⟩ := listed secondMember createsRight
    have symmetric : Std.Symm fun left right : PlannedOutput =>
        lookup.resolve left.path.value ≠ lookup.resolve right.path.value := ⟨fun _ _ => Ne.symm⟩
    exact separates.forall oneMember otherMember (fun equal => different (congrArg PlannedOutput.path equal)) same
  · intro apart
    have separates : lookup.Separates (changedOutputs editPlan) := by
      apply (changedOutputs_sorted indexed planned).2.imp_of_mem
      intro left right leftMember rightMember less same
      have different : left.path ≠ right.path := fun equal => less.ne (congrArg WorkspaceRelativePath.value equal)
      obtain ⟨first, firstMember, createsLeft⟩ :=
        created_of_same_entry acquired planned leftMember rightMember different same
      obtain ⟨second, secondMember, createsRight⟩ :=
        created_of_same_entry acquired planned rightMember leftMember (Ne.symm different) same.symm
      exact different (apart first firstMember second secondMember _ _ createsLeft createsRight same)
    exact ⟨separates, completeTargets_succeeds separates fun output member =>
      output_stands acquired planned (mem_changedOutputs.mp member).1⟩

end Plans

section Example

/-- A case-insensitive workspace with one file, `a`. -/
def foldingLookup : Lookup (List Char) where
  identity := ⟨1, 1⟩
  parents _ := .ok (⟨1, 1⟩, [⟨1, 1⟩])
  resolve path := path.toList.map Char.toLower
  item entry := if entry = ['a'] then some (.file ⟨⟨1, 10⟩, 1, 0o644, utf8Bytes "1\n"⟩) else none

/-- Copy the line of `a` to two new files. -/
def copiesTo (first second : String) : BatchSpecification :=
  let a := exampleFile 0 "a" (utf8Bytes "1\n")
  ⟨[.copy (exampleOperation a (.lines 1 1) first .fileStart .mustNotExist),
    .copy (exampleOperation a (.lines 1 1) second .fileStart .mustNotExist)]⟩

def copiesRequirements (first second : String) : List SnapshotRequirement :=
  [⟨⟨"a"⟩, .existing (sha256Digest (utf8Bytes "1\n"))⟩, ⟨⟨first⟩, .absent⟩, ⟨⟨second⟩, .absent⟩]

/-- The candidate that is installed for an output. -/
def copiedNode (output : PlannedOutput) : Node := ⟨⟨1, 20⟩, 1, 0o644, List.replicate output.resultingLength 49⟩

instance [DecidableEq Entry] (lookup : Lookup Entry) (outputs : List PlannedOutput) : Decidable (lookup.Separates outputs) :=
  inferInstanceAs (Decidable (List.Pairwise _ outputs))

/-- Acquire, plan and complete the copies: whether their entries differ, and whether they were all completed. -/
private def copiesOutcome (first second : String) : Option (Bool × Bool) :=
  (foldingLookup.view.acquireSnapshot sha256Digest (copiesRequirements first second) {}).toOption.bind fun snapshot =>
    (plan sha256Digest ⟨224, 120, 72⟩ snapshot (copiesTo first second) unlimitedBudget).toOption.map fun editPlan =>
      let outputs := editPlan.outputs.filter fun output => output.change ≠ .unchanged
      (decide (foldingLookup.Separates outputs), (foldingLookup.completeTargets snapshot copiedNode outputs).isOk)

private theorem toOption_eq_some {ε α : Type} {result : Except ε α} {value : α} (found : result.toOption = some value) :
    result = .ok value := by
  cases result with
  | error _ => cases found
  | ok other => exact congrArg Except.ok (Option.some.inj found)

private theorem copies_of_outcome {first second : String} {apart completed : Bool}
    (outcome : copiesOutcome first second = some (apart, completed)) :
    ∃ snapshot editPlan,
      foldingLookup.view.acquireSnapshot sha256Digest (copiesRequirements first second) {} = .ok snapshot ∧
      plan sha256Digest ⟨224, 120, 72⟩ snapshot (copiesTo first second) unlimitedBudget = .ok editPlan ∧
      decide (foldingLookup.Separates (changedOutputs editPlan)) = apart ∧
      (foldingLookup.completeTargets snapshot copiedNode (changedOutputs editPlan)).isOk = completed := by
  obtain ⟨snapshot, acquired, outcome⟩ := Option.bind_eq_some_iff.mp outcome
  obtain ⟨editPlan, planned, outcome⟩ := Option.map_eq_some_iff.mp outcome
  obtain ⟨rfl, rfl⟩ := Prod.mk.inj outcome
  have acquires := toOption_eq_some acquired
  have plans := toOption_eq_some planned
  have same := (changedOutputs_sorted (acquireSnapshot_ok acquires).indexed plans).1
  exact ⟨snapshot, editPlan, acquires, plans, by rw [same], by rw [same]⟩

/-- `B` and `b` are planned as two new files at one entry; the second install finds the first. -/
theorem targets_collide_by_case : ∃ snapshot editPlan,
    foldingLookup.view.acquireSnapshot sha256Digest (copiesRequirements "B" "b") {} = .ok snapshot ∧
    plan sha256Digest ⟨224, 120, 72⟩ snapshot (copiesTo "B" "b") unlimitedBudget = .ok editPlan ∧
    ¬foldingLookup.Separates (changedOutputs editPlan) ∧
    ∀ later, foldingLookup.completeTargets snapshot copiedNode (changedOutputs editPlan) ≠ .ok later := by
  have outcome : copiesOutcome "B" "b" = some (false, false) := by decide +kernel
  obtain ⟨snapshot, editPlan, acquired, planned, meets, stuck⟩ := copies_of_outcome outcome
  refine ⟨snapshot, editPlan, acquired, planned, of_decide_eq_false meets, fun later completed => ?_⟩
  rw [completed] at stuck
  cases stuck

private theorem letters_apart : foldingLookup.TellsApart (copiesTo "B" "c") := by
  intro first firstMember second secondMember left right createsLeft createsRight
  have named {operation : Operation} (member : operation ∈ (copiesTo "B" "c").operations) :
      (operationParts operation).2.destination.path = ⟨"B"⟩ ∨ (operationParts operation).2.destination.path = ⟨"c"⟩ := by
    rcases List.mem_cons.mp member with rfl | member
    · exact .inl rfl
    · rw [List.mem_singleton.mp member]
      exact .inr rfl
  rw [← createsLeft.1, ← createsRight.1]
  rcases named firstMember with one | one
  · rcases named secondMember with other | other
    · exact fun _ => one.trans other.symm
    · rw [one, other]
      decide
  · rcases named secondMember with other | other
    · rw [one, other]
      decide
    · exact fun _ => one.trans other.symm

/-- `B` and `c` are planned as two new files, and both are installed. -/
theorem targets_never_collide_letters : ∃ snapshot editPlan,
    plan sha256Digest ⟨224, 120, 72⟩ snapshot (copiesTo "B" "c") unlimitedBudget = .ok editPlan ∧
    foldingLookup.Separates (changedOutputs editPlan) ∧
    ∃ later, foldingLookup.completeTargets snapshot copiedNode (changedOutputs editPlan) = .ok later := by
  have outcome : copiesOutcome "B" "c" = some (true, true) := by decide +kernel
  obtain ⟨snapshot, editPlan, acquired, planned, -, -⟩ := copies_of_outcome outcome
  exact ⟨snapshot, editPlan, planned, (targets_never_collide_iff copiedNode acquired planned).mpr letters_apart⟩

end Example

end Srcmv.Fs
