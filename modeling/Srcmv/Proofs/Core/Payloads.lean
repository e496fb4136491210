import Srcmv.Proofs.Core.PlannedOutputs

/-! # The payloads of a recipe

Apart from slices of the original, a recipe holds the insertions of the event points, point by point.
They belong to the effectful operations that are directed at the output, in the order of their offsets
and at one offset in request order.
-/

namespace Srcmv.Core

variable {snapshot : WorkspaceSnapshot} {sha256 : Bytes → Sha256Digest}

def OutputSegment.isPayload : OutputSegment → Bool
  | originalSlice _ _ => false
  | payloadSlice _ _ _ _ => true

section Sweep

variable {edits : OutputEdits} {segments : List OutputSegment}

private theorem survive_payloads {sweep : Sweep} {offset : ℕ} (survived : sweep.survive edits offset = .ok segments) :
    segments.filter OutputSegment.isPayload = sweep.segments.filter OutputSegment.isPayload := by
  rw [Sweep.survive] at survived
  split_ifs at survived
  · split at survived
    · rw [← Except.ok.inj survived, List.filter_append]
      exact List.append_nil _
    · cases survived
  · rw [← Except.ok.inj survived]

/-- The segments of the insertions at the points, one after the other. -/
def insertionSegments (points : List (ℕ × PointEvents)) : List OutputSegment :=
  points.flatMap fun point => point.2.insertions.map Insertion.segment

private theorem filter_insertionSegments (insertions : List Insertion) :
    (insertions.map Insertion.segment).filter OutputSegment.isPayload = insertions.map Insertion.segment := by
  apply List.filter_eq_self.mpr
  intro segment member
  obtain ⟨insertion, -, rfl⟩ := List.mem_map.mp member
  rfl

private theorem visits_payloads (points : List (ℕ × PointEvents)) {sweep result : Sweep}
    (visited : points.foldlM (Sweep.visit edits) sweep = .ok result) :
    result.segments.filter OutputSegment.isPayload =
      sweep.segments.filter OutputSegment.isPayload ++ insertionSegments points := by
  induction points generalizing sweep with
  | nil =>
    rw [List.foldlM_nil, Except.pure_eq_ok] at visited
    rw [visited, insertionSegments, List.flatMap_nil, List.append_nil]
  | cons point rest ih =>
    rw [List.foldlM_cons] at visited
    obtain ⟨next, visits, visited⟩ := Except.bind_eq_ok.mp visited
    obtain ⟨-, segments, survived, rfl⟩ := visit_ok visits
    rw [ih visited, List.filter_append, survive_payloads survived, filter_insertionSegments, List.append_assoc]
    rfl

/-- The payloads of a recipe are the insertions at its event points. -/
theorem buildSegments_payloads (built : buildSegments edits = .ok segments) :
    segments.filter OutputSegment.isPayload = insertionSegments (eventPoints edits).toList := by
  obtain ⟨sweep, folded, survived⟩ := Except.bind_eq_ok.mp built
  rw [survive_payloads survived, visits_payloads _ folded]
  rfl

end Sweep

section Plans

variable {sizes : TypeSizes} {batch : BatchSpecification} {budget : ResourceBudget} {editPlan : EditPlan}

/-- The insertions an operation may contribute to an output. -/
def PlannedOutput.receives (output : PlannedOutput) (operation : ResolvedOperation) : Bool :=
  operation.effect = .changed ∧ operation.destinationPath = output.path

/-- The edits behind an output of an accepted plan: each insertion belongs to an operation of the plan. -/
structure Composed (editPlan : EditPlan) (output : PlannedOutput) (edits : OutputEdits) : Prop where
  built : buildSegments edits = .ok output.segments
  ordered : edits.insertions.Pairwise fun left right => left.2.operationIndex ≤ right.2.operationIndex
  insertions : edits.insertions.map (fun entry => (entry.1, entry.2.operationIndex)) =
    (editPlan.operations.filter output.receives).map fun operation => (operation.destinationOffset, operation.operationIndex)

private theorem inserts_operations (resolutions : List Resolution) {path : WorkspaceRelativePath} {output : PlannedOutput}
    (named : output.path = path) :
    (resolutions.filterMap (·.inserts path)).map (fun entry => (entry.1, entry.2.operationIndex)) =
      ((resolutions.map Resolution.operation).filter output.receives).map fun operation =>
        (operation.destinationOffset, operation.operationIndex) := by
  subst named
  induction resolutions with
  | nil => rfl
  | cons resolution rest ih =>
    rw [List.map_cons, List.filterMap_cons, List.filter_cons]
    by_cases directed : resolution.operation.effect = .changed ∧ resolution.operation.destinationPath = output.path
    · have inserted : resolution.inserts output.path =
          some (resolution.operation.destinationOffset, resolution.insertion) := if_pos directed
      have receives : output.receives resolution.operation = true := decide_eq_true directed
      rw [inserted, if_pos receives]
      dsimp only
      rw [List.map_cons, List.map_cons, ih]
      rfl
    · have inserted : resolution.inserts output.path = none := if_neg directed
      rw [inserted, if_neg (by rw [PlannedOutput.receives, decide_eq_true_eq]; exact directed)]
      exact ih

private theorem map_operationIndex {states : StatesByPath} {entries : List (Operation × ℕ)} {resolutions : List Resolution}
    (read : List.Forall₂ (fun entry resolution => resolution.Reads snapshot states entry) entries resolutions) :
    resolutions.map (ResolvedOperation.operationIndex ∘ Resolution.operation) = entries.map Prod.snd := by
  induction read with
  | nil => rfl
  | cons reads _ ih =>
    rw [List.map_cons, List.map_cons, ih]
    exact congrArg (· :: _) reads.index

/-- Behind every output of an accepted plan are edits, and operations are listed by their index. -/
theorem plan_composed (indexed : snapshot.Indexed) (planned : plan sha256 sizes snapshot batch budget = .ok editPlan) :
    (∀ output ∈ editPlan.outputs, ∃ edits, Composed editPlan output edits) ∧
      (editPlan.operations.map ResolvedOperation.operationIndex) = List.range editPlan.operations.length := by
  obtain ⟨⟨states, filesById⟩, indexedStates, planned⟩ := Except.bind_eq_ok.mp planned
  have looksUp := indexSnapshot_ok indexedStates
  obtain ⟨_, -, planned⟩ := Except.bind_eq_ok.mp planned
  obtain ⟨⟨resolved, edits⟩, looped, planned⟩ := Except.bind_eq_ok.mp planned
  obtain ⟨resolutions, retained, read, composes⟩ := planOperations_resolved indexed looksUp looped
  obtain ⟨outputs, traversed, planned⟩ := Except.bind_eq_ok.mp planned
  obtain ⟨_, -, planned⟩ := Except.bind_eq_ok.mp planned
  obtain ⟨_, -, planned⟩ := Except.bind_eq_ok.mp planned
  obtain ⟨_, -, planned⟩ := Except.bind_eq_ok.mp planned
  obtain rfl := Except.pure_eq_ok.mp planned
  constructor
  · intro output member
    obtain ⟨edit, listed, produced⟩ := List.mapM_ok_mem traversed member
    obtain ⟨⟨path, _⟩, stored, rfl⟩ := List.mem_map.mp listed
    obtain ⟨state, -, shape⟩ := composes.recorded _ _ (Std.TreeMap.mem_toList_iff_getElem?_eq_some.mp stored)
    obtain ⟨named, -, built, -⟩ := planOutput_ok looksUp produced
    dsimp only at shape named built
    subst shape
    refine ⟨_, built, insertions_ordered read path, ?_⟩
    dsimp only
    rw [retained]
    exact inserts_operations resolutions named
  · dsimp only
    rw [retained, List.map_map, List.length_map]
    have length := read.length_eq
    rw [List.length_zipIdx] at length
    rw [map_operationIndex read, List.zipIdx_map_snd, ← length, List.range_eq_range']

end Plans

end Srcmv.Core
