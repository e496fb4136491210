import Srcmv.Model.Core.Planner
import Srcmv.Proofs.Core.PlanRecord

/-! # The plan record determines the plan

Two plans with one record agree on everything the record is about. The record is one CBOR item that a
reader consumes to its last byte, with every argument in its shortest form.
-/

namespace Srcmv.Core

/-- The workspace, the inputs in path order, the operations, and the outputs in path order with
segments that name inputs by position. -/
structure SamePlan (snapshot : WorkspaceSnapshot) (plan : EditPlan) (other : WorkspaceSnapshot) (plan' : EditPlan) : Prop where
  workspace : snapshot.workspaceIdentity = other.workspaceIdentity
  inputs : (sortedInputs snapshot).map InputRecord.facts = (sortedInputs other).map InputRecord.facts
  operations : plan.operations = plan'.operations
  outputs : ∃ outputs, positionedOutputs snapshot plan = some outputs ∧ positionedOutputs other plan' = some outputs

/-- Equal records are records of the same plan, and a record is read to its end in shortest form. -/
theorem plan_record_injective {snapshot : WorkspaceSnapshot} {plan : EditPlan} {record : Bytes}
    (sized : MachineSized snapshot plan) (encoded : encodePlanRecord snapshot plan = .ok record) :
    (∃ item, DeterministicCbor.read record = some (item, true, [])) ∧
      ∀ (other : WorkspaceSnapshot) (plan' : EditPlan), MachineSized other plan' →
        encodePlanRecord other plan' = .ok record → SamePlan snapshot plan other plan' := by
  obtain ⟨outputs, placed, rfl⟩ := encodePlanRecord_ok encoded
  have fits := planItem_fits sized placed
  refine ⟨⟨_, DeterministicCbor.read_write fits⟩, ?_⟩
  intro other plan' sized' encoded'
  obtain ⟨outputs', placed', written⟩ := encodePlanRecord_ok encoded'
  have same := DeterministicCbor.write_injective fits (planItem_fits sized' placed') written
  obtain ⟨workspace, inputs, operations, rfl⟩ := planItem_injective same
  exact ⟨workspace, inputs, operations, outputs, placed, placed'⟩

section Example

/-- One file whose only byte becomes the new file `b`. -/
def recordedSnapshot : WorkspaceSnapshot where
  workspaceIdentity := ⟨1, 1⟩
  files := [⟨7, ⟨"a"⟩, ⟨1, 1⟩, [⟨1, 1⟩], ⟨1, 2⟩, 1, [97], zeroDigest, ⟨[1]⟩⟩]
  absentPaths := [⟨⟨"b"⟩, ⟨1, 1⟩, [⟨1, 1⟩], "b"⟩]

def recordedPlan : EditPlan where
  operations := [⟨0, .copy, ⟨"a"⟩, .bytes 0 1, .sha256 zeroDigest, ⟨0, 1⟩, zeroDigest, ⟨"b"⟩, .fileStart, .mustNotExist, 0,
    .changed⟩]
  outputs := [⟨⟨"b"⟩, none, .createdNew, 1, zeroDigest, [.payloadSlice 0 7 ⟨0, 1⟩ zeroDigest]⟩]
  usage := {}
  digest := zeroDigest

/-- The same with another identifier of the file. -/
def renamedSnapshot : WorkspaceSnapshot :=
  { recordedSnapshot with files := [⟨9, ⟨"a"⟩, ⟨1, 1⟩, [⟨1, 1⟩], ⟨1, 2⟩, 1, [97], zeroDigest, ⟨[1]⟩⟩] }

def renamedPlan : EditPlan :=
  { recordedPlan with outputs := [⟨⟨"b"⟩, none, .createdNew, 1, zeroDigest, [.payloadSlice 0 9 ⟨0, 1⟩ zeroDigest]⟩] }

/-- A renamed plan has the same record. -/
theorem plan_record_renamed : ∃ record, encodePlanRecord recordedSnapshot recordedPlan = .ok record ∧
    encodePlanRecord renamedSnapshot renamedPlan = .ok record ∧
    (∃ item, DeterministicCbor.read record = some (item, true, [])) ∧
    SamePlan recordedSnapshot recordedPlan renamedSnapshot renamedPlan := by
  have inputs : sortedInputs recordedSnapshot = recordedSnapshot.files.map InputRecord.existing ++
    recordedSnapshot.absentPaths.map InputRecord.absent := by decide
  have renamed : sortedInputs renamedSnapshot = renamedSnapshot.files.map InputRecord.existing ++
    renamedSnapshot.absentPaths.map InputRecord.absent := by decide
  have short : ∀ name ∈ ["a", "b"], (utf8Bytes name).length ≤ u64Max := by decide
  have a := short "a" List.mem_cons_self
  have b := short "b" (List.mem_cons_of_mem _ List.mem_cons_self)
  have one : 1 ≤ u64Max := by norm_num [u64Max]
  have zero := Nat.zero_le u64Max
  have sized : MachineSized recordedSnapshot recordedPlan := by
    refine ⟨by rw [inputs]; norm_num [recordedSnapshot, u64Max], ?_, one, ?_, one, ?_⟩
    · rw [inputs]
      exact List.forall_mem_cons.mpr ⟨⟨a, one⟩, List.forall_mem_singleton.mpr b⟩
    · exact List.forall_mem_singleton.mpr ⟨zero, a, ⟨zero, one⟩, ⟨zero, one⟩, b, trivial, zero⟩
    · exact List.forall_mem_singleton.mpr ⟨b, one, one, List.forall_mem_singleton.mpr ⟨zero, zero, one⟩⟩
  have sized' : MachineSized renamedSnapshot renamedPlan := by
    refine ⟨by rw [renamed]; norm_num [renamedSnapshot, recordedSnapshot, u64Max], ?_, one, sized.operations, one, ?_⟩
    · rw [renamed]
      exact List.forall_mem_cons.mpr ⟨⟨a, one⟩, List.forall_mem_singleton.mpr b⟩
    · exact List.forall_mem_singleton.mpr ⟨b, one, one, List.forall_mem_singleton.mpr ⟨zero, zero, one⟩⟩
  have same : encodePlanRecord renamedSnapshot renamedPlan = encodePlanRecord recordedSnapshot recordedPlan := by
    decide +kernel
  obtain ⟨record, encoded⟩ : ∃ record, encodePlanRecord recordedSnapshot recordedPlan = .ok record :=
    ⟨_, Except.eq_ok_get (by decide +kernel)⟩
  obtain ⟨read, injective⟩ := plan_record_injective sized encoded
  exact ⟨record, encoded, same.trans encoded, read, injective _ _ sized' (same.trans encoded)⟩

end Example

end Srcmv.Core
