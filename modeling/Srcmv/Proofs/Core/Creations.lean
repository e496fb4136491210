import Srcmv.Proofs.Core.PlannedOutputs

/-! # Which files a plan creates

An accepted plan creates a file at an absent path of the snapshot exactly when the path is the
destination of an operation that requires it not to exist.
-/

namespace Srcmv.Core

variable {snapshot : WorkspaceSnapshot} {states : StatesByPath} {sha256 : Bytes → Sha256Digest} {edits result : Edits}

/-- The operation creates a file at a path. -/
def Operation.Creates (operation : Operation) (path : WorkspaceRelativePath) : Prop :=
  (operationParts operation).2.destination.path = path ∧
    (operationParts operation).2.destination.precondition = .mustNotExist

private theorem mem_outputEdits {path other : WorkspaceRelativePath} {state : SnapshotState}
    {update : OutputEdits → OutputEdits} (accepted : outputEdits edits path state update = .ok result) :
    other ∈ result ↔ other = path ∨ other ∈ edits := by
  unfold outputEdits at accepted
  simp only at accepted
  split_ifs at accepted
  obtain rfl := Except.ok.inj accepted
  rw [Std.TreeMap.mem_insert, Std.LawfulEqCmp.compare_eq_iff_eq, eq_comm]

/-- A resolution with effect touches its destination, and the source of a move. -/
private theorem mem_applyResolution {resolution : Resolution} {other : WorkspaceRelativePath}
    (accepted : applyResolution edits resolution = .ok result)
    (elsewhere : other ≠ resolution.operation.sourcePath) (changed : resolution.operation.effect = .changed) :
    other ∈ result ↔ other = resolution.operation.destinationPath ∨ other ∈ edits := by
  have effective : ¬resolution.operation.effect = .noOp := by
    rw [changed]
    nofun
  simp only [applyResolution, if_neg effective] at accepted
  split_ifs at accepted with moves
  · obtain ⟨middle, deleted, inserted⟩ := Except.bind_eq_ok.mp accepted
    rw [mem_outputEdits inserted, mem_outputEdits deleted]
    simp [elsewhere]
  · rw [Except.ok_bind] at accepted
    exact mem_outputEdits accepted

/-- Where nothing exists, a resolved operation has an effect exactly if it creates a file. -/
private theorem resolves_at_absent {operation : Operation} {index : ℕ} {resolution : Resolution}
    {path : WorkspaceRelativePath} {missing : AbsentPathSnapshot} (absent : states[path.value]? = some (.absent missing))
    (resolved : resolveOperation sha256 states operation index = .ok resolution) :
    path ≠ resolution.operation.sourcePath ∧
      (path = resolution.operation.destinationPath ↔ operation.Creates path) ∧
      (operation.Creates path → resolution.operation.effect = .changed) := by
  obtain ⟨source, sourceRead, resolved⟩ := Except.bind_eq_ok.mp resolved
  obtain ⟨range, -, resolved⟩ := Except.bind_eq_ok.mp resolved
  obtain ⟨selected, -, resolved⟩ := Except.bind_eq_ok.mp resolved
  obtain ⟨destination, destinationRead, resolved⟩ := Except.bind_eq_ok.mp resolved
  obtain ⟨offset, -, resolved⟩ := Except.bind_eq_ok.mp resolved
  obtain rfl := Except.pure_eq_ok.mp resolved
  replace sourceRead : existingSource states (operationParts operation).2 index = .ok source := sourceRead
  replace destinationRead : destinationState states (operationParts operation).2 index = .ok destination := destinationRead
  have elsewhere : path ≠ (operationParts operation).2.source.path := by
    rintro rfl
    rw [existingSource_ok sourceRead] at absent
    cases absent
  refine ⟨elsewhere, ⟨?_, fun creates => creates.1.symm⟩, ?_⟩
  · intro same
    change path = (operationParts operation).2.destination.path at same
    refine ⟨same.symm, ?_⟩
    rw [destinationState, ← same, absent] at destinationRead
    dsimp only at destinationRead
    cases required : (operationParts operation).2.destination.precondition with
    | mustNotExist => rfl
    | sha256 expected =>
      rw [required] at destinationRead
      cases destinationRead
  · rintro ⟨same, -⟩
    apply if_neg
    rintro ⟨-, loops, -⟩
    exact elsewhere (same.symm.trans loops.symm)

/-- What the planning loop has touched where nothing exists. -/
private def TouchesCreated (states : StatesByPath) (done : List (Operation × ℕ)) (progress : List ResolvedOperation × Edits) :
    Prop :=
  ∀ (path : WorkspaceRelativePath) (missing : AbsentPathSnapshot), states[path.value]? = some (.absent missing) →
    (path ∈ progress.2 ↔ ∃ entry ∈ done, entry.1.Creates path)

private theorem touchesCreated_step (done : List (Operation × ℕ)) (entry : Operation × ℕ)
    (current next : List ResolvedOperation × Edits) (touches : TouchesCreated states done current)
    (accepted : planOperation sha256 states current entry = .ok next) : TouchesCreated states (done ++ [entry]) next := by
  obtain ⟨resolution, resolved, accepted⟩ := Except.bind_eq_ok.mp accepted
  obtain ⟨edits, applied, accepted⟩ := Except.bind_eq_ok.mp accepted
  obtain rfl := Except.pure_eq_ok.mp accepted
  intro path missing absent
  obtain ⟨elsewhere, destination, effect⟩ := resolves_at_absent absent resolved
  have grown : path ∈ edits ↔ entry.1.Creates path ∨ path ∈ current.2 := by
    cases changed : resolution.operation.effect with
    | changed => rw [mem_applyResolution applied elsewhere changed, destination]
    | noOp =>
      have none : ¬entry.1.Creates path := fun creates => by
        rw [effect creates] at changed
        cases changed
      rw [applyResolution] at applied
      dsimp only at applied
      rw [if_pos changed] at applied
      rw [← Except.pure_eq_ok.mp applied]
      simp [none]
  rw [grown, touches path missing absent]
  constructor
  · rintro (creates | ⟨earlier, member, creates⟩)
    · exact ⟨entry, List.mem_append_right _ List.mem_cons_self, creates⟩
    · exact ⟨earlier, List.mem_append_left _ member, creates⟩
  · rintro ⟨other, member, creates⟩
    rcases List.mem_append.mp member with earlier | last
    · exact .inr ⟨other, earlier, creates⟩
    · exact .inl (List.mem_singleton.mp last ▸ creates)

/-- An output without an original is new. -/
private theorem planOutput_creates {filesById : FilesById} {output : OutputEdits} {planned : PlannedOutput}
    (new : output.existingFileId = none) (accepted : planOutput sha256 filesById output = .ok planned) :
    planned.change = .createdNew := by
  obtain ⟨_, -, accepted⟩ := Except.bind_eq_ok.mp accepted
  obtain ⟨_, -, accepted⟩ := Except.bind_eq_ok.mp accepted
  obtain ⟨_, -, accepted⟩ := Except.bind_eq_ok.mp accepted
  obtain ⟨_, -, accepted⟩ := Except.bind_eq_ok.mp accepted
  obtain rfl := Except.pure_eq_ok.mp accepted
  change classifyOutput output.existingFileId.isSome _ _ = _
  rw [new]
  rfl

/-- A plan writes to an absent path exactly if an operation creates a file there. -/
theorem plan_creates_iff {sizes : TypeSizes} {batch : BatchSpecification} {budget : ResourceBudget} {editPlan : EditPlan}
    (indexed : snapshot.Indexed) (planned : plan sha256 sizes snapshot batch budget = .ok editPlan)
    {missing : AbsentPathSnapshot} (member : missing ∈ snapshot.absentPaths) :
    (∃ output ∈ editPlan.outputs, output.path = missing.path ∧ output.change ≠ .unchanged) ↔
      ∃ operation ∈ batch.operations, operation.Creates missing.path := by
  obtain ⟨⟨states, filesById⟩, indexedStates, planned⟩ := Except.bind_eq_ok.mp planned
  have looksUp := indexSnapshot_ok indexedStates
  have absent : states[missing.path.value]? = some (.absent missing) :=
    ((indexSnapshot_lookups indexedStates).1 _ _).mpr (.inr ⟨missing, member, rfl, rfl⟩)
  obtain ⟨_, -, planned⟩ := Except.bind_eq_ok.mp planned
  obtain ⟨⟨resolved, edits⟩, looped, planned⟩ := Except.bind_eq_ok.mp planned
  obtain ⟨resolutions, read, composes⟩ := planOperations_ok indexed looksUp looped
  obtain ⟨outputs, traversed, planned⟩ := Except.bind_eq_ok.mp planned
  obtain ⟨_, -, planned⟩ := Except.bind_eq_ok.mp planned
  obtain ⟨_, -, planned⟩ := Except.bind_eq_ok.mp planned
  obtain ⟨_, -, planned⟩ := Except.bind_eq_ok.mp planned
  obtain rfl := Except.pure_eq_ok.mp planned
  have nothing : TouchesCreated states [] ([], ∅) := by
    intro path missing _
    simp
  have touches : TouchesCreated states ([] ++ batch.operations.zipIdx) (resolved, edits) :=
    List.foldlM_ok_induction touchesCreated_step _ nothing looped
  have touched : missing.path ∈ edits ↔ ∃ operation ∈ batch.operations, operation.Creates missing.path := by
    rw [touches missing.path missing absent, List.nil_append]
    constructor
    · rintro ⟨entry, inside, creates⟩
      exact ⟨entry.1, List.fst_mem_of_mem_zipIdx inside, creates⟩
    · rintro ⟨operation, inside, creates⟩
      obtain ⟨index, bound, rfl⟩ := List.mem_iff_getElem.mp inside
      exact ⟨(batch.operations[index], index), List.mk_mem_zipIdx_iff_getElem?.mpr (List.getElem?_eq_getElem bound), creates⟩
  rw [← touched]
  constructor
  · rintro ⟨output, listed, path, -⟩
    obtain ⟨edit, inside, produced⟩ := List.mapM_ok_mem traversed listed
    obtain ⟨⟨key, _⟩, stored, rfl⟩ := List.mem_map.mp inside
    have present := Std.TreeMap.mem_toList_iff_getElem?_eq_some.mp stored
    obtain ⟨state, -, shape⟩ := composes.recorded _ _ present
    have same : missing.path = key := path.symm.trans ((planOutput_ok looksUp produced).1.trans (congrArg OutputEdits.path shape))
    rw [same, Std.TreeMap.mem_iff_isSome_getElem?, present]
    rfl
  · intro present
    obtain ⟨edit, found⟩ := Option.isSome_iff_exists.mp (Std.TreeMap.mem_iff_isSome_getElem?.mp present)
    obtain ⟨state, known, shape⟩ := composes.recorded _ _ found
    have listed : edit ∈ edits.toList.map Prod.snd :=
      List.mem_map.mpr ⟨(missing.path, edit), Std.TreeMap.mem_toList_iff_getElem?_eq_some.mpr found, rfl⟩
    obtain ⟨output, inside, produced⟩ := List.mapM_ok_of_mem traversed listed
    obtain rfl := Option.some.inj (absent.symm.trans known)
    refine ⟨output, inside, (planOutput_ok looksUp produced).1.trans (congrArg OutputEdits.path shape), ?_⟩
    rw [planOutput_creates (congrArg OutputEdits.existingFileId shape) produced]
    nofun

/-- A path that an accepted operation creates is absent in the snapshot. -/
theorem plan_creates_absent {sizes : TypeSizes} {batch : BatchSpecification} {budget : ResourceBudget} {editPlan : EditPlan}
    (planned : plan sha256 sizes snapshot batch budget = .ok editPlan) {operation : Operation}
    (member : operation ∈ batch.operations) {path : WorkspaceRelativePath} (creates : operation.Creates path) :
    ∃ missing ∈ snapshot.absentPaths, missing.path = path := by
  obtain ⟨⟨states, filesById⟩, indexedStates, planned⟩ := Except.bind_eq_ok.mp planned
  obtain ⟨_, -, planned⟩ := Except.bind_eq_ok.mp planned
  obtain ⟨⟨resolved, edits⟩, looped, -⟩ := Except.bind_eq_ok.mp planned
  obtain ⟨index, bound, rfl⟩ := List.mem_iff_getElem.mp member
  obtain ⟨before, after, accepted⟩ := List.foldlM_ok_mem looped (batch.operations[index], index)
    (List.mk_mem_zipIdx_iff_getElem?.mpr (List.getElem?_eq_getElem bound))
  obtain ⟨resolution, resolved, -⟩ := Except.bind_eq_ok.mp accepted
  obtain ⟨_, -, resolved⟩ := Except.bind_eq_ok.mp resolved
  obtain ⟨_, -, resolved⟩ := Except.bind_eq_ok.mp resolved
  obtain ⟨_, -, resolved⟩ := Except.bind_eq_ok.mp resolved
  obtain ⟨state, read, -⟩ := Except.bind_eq_ok.mp resolved
  obtain ⟨rfl, required⟩ := creates
  replace read : destinationState states (operationParts batch.operations[index]).2 index = .ok state := read
  have known := destinationState_ok read
  rw [destinationState, known] at read
  dsimp only at read
  rw [required] at read
  cases state with
  | existing file => cases read
  | absent missing =>
    rcases ((indexSnapshot_lookups indexedStates).1 _ _).mp known with ⟨_, -, -, impossible⟩ | ⟨other, inside, same, -⟩
    · cases impossible
    · exact ⟨other, inside, WorkspaceRelativePath.value_inj.mp same⟩

end Srcmv.Core
