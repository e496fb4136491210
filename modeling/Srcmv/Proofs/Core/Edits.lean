import Srcmv.Proofs.Core.Resolution

/-! # The edits a batch records

After the planning loop, the edits of every touched path are exactly the deletions and insertions
that the effectful resolutions direct at it, in request order, over the path's state in the
snapshot.
-/

namespace Srcmv.Core

namespace Resolution

/-- The deletion a resolution records for a path. -/
def deletes (resolution : Resolution) (path : WorkspaceRelativePath) : Option (ℕ × ByteRange) :=
  if resolution.operation.effect = .changed ∧ resolution.operation.kind = .move ∧
      resolution.operation.sourcePath = path then
    some (resolution.operation.operationIndex, resolution.operation.sourceRange)
  else none

/-- The insertion a resolution records for a path. -/
def inserts (resolution : Resolution) (path : WorkspaceRelativePath) : Option (ℕ × Insertion) :=
  if resolution.operation.effect = .changed ∧ resolution.operation.destinationPath = path then
    some (resolution.operation.destinationOffset, resolution.insertion)
  else none

end Resolution

/-- The edits hold these deletions and insertions over the states of the snapshot, and nothing else. -/
structure Holds (states : StatesByPath) (deletions : WorkspaceRelativePath → List (ℕ × ByteRange))
    (insertions : WorkspaceRelativePath → List (ℕ × Insertion)) (edits : Edits) : Prop where
  recorded : ∀ (path : WorkspaceRelativePath) (output : OutputEdits), edits[path]? = some output →
    ∃ state : SnapshotState, states[path.value]? = some state ∧
      output = { state.noEdits path with deletions := deletions path, insertions := insertions path }
  silent : ∀ path : WorkspaceRelativePath, edits[path]? = none → deletions path = [] ∧ insertions path = []

variable {states : StatesByPath} {deletions : WorkspaceRelativePath → List (ℕ × ByteRange)}
  {insertions : WorkspaceRelativePath → List (ℕ × Insertion)} {edits result : Edits}

/-- Appending to the edits of one known path appends there and nowhere else. -/
theorem outputEdits_holds {path : WorkspaceRelativePath} {state : SnapshotState}
    {update : OutputEdits → OutputEdits} (deleted : List (ℕ × ByteRange)) (inserted : List (ℕ × Insertion))
    (appends : ∀ output, update output =
      { output with deletions := output.deletions ++ deleted, insertions := output.insertions ++ inserted })
    (holds : Holds states deletions insertions edits) (known : states[path.value]? = some state)
    (accepted : outputEdits edits path state update = .ok result) :
    Holds states (fun other => deletions other ++ if other = path then deleted else [])
      (fun other => insertions other ++ if other = path then inserted else []) result := by
  unfold outputEdits at accepted
  simp only at accepted
  split_ifs at accepted
  obtain rfl := Except.ok.inj accepted
  constructor
  · intro other output found
    rw [Std.TreeMap.getElem?_insert] at found
    by_cases same : path = other
    · subst same
      simp only [Std.ReflCmp.compare_self, if_true, Option.some.injEq] at found
      refine ⟨state, known, ?_⟩
      rw [← found, appends, if_pos rfl, if_pos rfl]
      cases present : edits[path]? with
      | none =>
        obtain ⟨noDeletions, noInsertions⟩ := holds.silent path present
        simp [noDeletions, noInsertions, SnapshotState.noEdits]
      | some previous =>
        obtain ⟨_, again, shape⟩ := holds.recorded path previous present
        obtain rfl := Option.some.inj (known.symm.trans again)
        simp [shape]
    · simp only [Std.LawfulEqCmp.compare_eq_iff_eq, same, if_false] at found
      obtain ⟨state, known, shape⟩ := holds.recorded other output found
      refine ⟨state, known, ?_⟩
      simpa [Ne.symm same] using shape
  · intro other missing
    rw [Std.TreeMap.getElem?_insert] at missing
    by_cases same : path = other
    · simp [same] at missing
    · simp only [Std.LawfulEqCmp.compare_eq_iff_eq, same, if_false] at missing
      simpa [Ne.symm same] using holds.silent other missing

/-- One resolution adds its own deletion and insertion. -/
theorem applyResolution_holds {snapshot : WorkspaceSnapshot} {entry : Operation × ℕ}
    {resolution : Resolution} (reads : resolution.Reads snapshot states entry)
    (holds : Holds states deletions insertions edits)
    (accepted : applyResolution edits resolution = .ok result) :
    Holds states (fun path => deletions path ++ (resolution.deletes path).toList)
      (fun path => insertions path ++ (resolution.inserts path).toList) result := by
  simp only [applyResolution] at accepted
  split_ifs at accepted with noOp moves
  · obtain rfl := Except.pure_eq_ok.mp accepted
    simpa [Resolution.deletes, Resolution.inserts, noOp] using holds
  · have changed : resolution.operation.effect = .changed := by
      cases effect : resolution.operation.effect with
      | changed => rfl
      | noOp => exact absurd effect noOp
    rw [Except.bind_eq_ok] at accepted
    obtain ⟨middle, deleted, inserted⟩ := accepted
    have afterDeletion := outputEdits_holds [(resolution.operation.operationIndex,
      resolution.operation.sourceRange)] [] (by simp) holds reads.source deleted
    have afterInsertion := outputEdits_holds [] [(resolution.operation.destinationOffset,
      resolution.insertion)] (by simp) afterDeletion reads.destination inserted
    convert afterInsertion using 2 with path path
    · by_cases here : path = resolution.operation.sourcePath
      · simp [Resolution.deletes, changed, moves, here]
      · simp [Resolution.deletes, here, Ne.symm here]
    · by_cases here : path = resolution.operation.destinationPath
      · simp [Resolution.inserts, changed, here]
      · simp [Resolution.inserts, here, Ne.symm here]
  · have changed : resolution.operation.effect = .changed := by
      cases effect : resolution.operation.effect with
      | changed => rfl
      | noOp => exact absurd effect noOp
    obtain ⟨middle, untouched, inserted⟩ := Except.bind_eq_ok.mp accepted
    obtain rfl := Except.ok.inj untouched
    have afterInsertion := outputEdits_holds [] [(resolution.operation.destinationOffset,
      resolution.insertion)] (by simp) holds reads.destination inserted
    convert afterInsertion using 2 with path path
    · simp [Resolution.deletes, moves]
    · by_cases here : path = resolution.operation.destinationPath
      · simp [Resolution.inserts, changed, here]
      · simp [Resolution.inserts, here, Ne.symm here]

/-- The edits of a path hold what the resolutions direct at it. -/
def Composes (states : StatesByPath) (resolutions : List Resolution) (edits : Edits) : Prop :=
  Holds states (fun path => resolutions.filterMap (·.deletes path))
    (fun path => resolutions.filterMap (·.inserts path)) edits

private theorem filterMap_concat {α β : Type*} (transform : α → Option β) (items : List α) (item : α) :
    (items ++ [item]).filterMap transform = items.filterMap transform ++ (transform item).toList := by
  cases found : transform item <;> simp [found]

/-- What the planning loop leaves after a prefix of the batch. -/
private def Planned (snapshot : WorkspaceSnapshot) (states : StatesByPath) (done : List (Operation × ℕ))
    (progress : List ResolvedOperation × Edits) : Prop :=
  ∃ resolutions, progress.1 = resolutions.map Resolution.operation ∧
    List.Forall₂ (fun entry resolution => resolution.Reads snapshot states entry) done resolutions ∧
    Composes states resolutions progress.2

private theorem planned_step {sha256 : Bytes → Sha256Digest} {snapshot : WorkspaceSnapshot}
    {filesById : FilesById} (indexed : snapshot.Indexed) (looksUp : LooksUp snapshot states filesById)
    (done : List (Operation × ℕ)) (entry : Operation × ℕ) (current next : List ResolvedOperation × Edits)
    (planned : Planned snapshot states done current)
    (accepted : planOperation sha256 states current entry = .ok next) :
    Planned snapshot states (done ++ [entry]) next := by
  obtain ⟨resolutions, operations, read, composes⟩ := planned
  rw [planOperation, Except.bind_eq_ok] at accepted
  obtain ⟨resolution, resolved, accepted⟩ := accepted
  rw [Except.bind_eq_ok] at accepted
  obtain ⟨edits, applied, accepted⟩ := accepted
  obtain rfl := Except.pure_eq_ok.mp accepted
  have reads := resolveOperation_ok indexed looksUp resolved
  refine ⟨resolutions ++ [resolution], by simp [operations], ?_, ?_⟩
  · exact List.rel_append read (.cons reads .nil)
  · have extended := applyResolution_holds reads composes applied
    simpa only [Composes, filterMap_concat] using extended

/-- The retained operations are those of the resolutions. -/
theorem planOperations_resolved {sha256 : Bytes → Sha256Digest} {snapshot : WorkspaceSnapshot}
    {filesById : FilesById} {operations : List Operation} {resolved : List ResolvedOperation}
    (indexed : snapshot.Indexed) (looksUp : LooksUp snapshot states filesById)
    (accepted : operations.zipIdx.foldlM (planOperation sha256 states) ([], ∅) = .ok (resolved, edits)) :
    ∃ resolutions, resolved = resolutions.map Resolution.operation ∧
      List.Forall₂ (fun entry resolution => resolution.Reads snapshot states entry) operations.zipIdx resolutions ∧
      Composes states resolutions edits := by
  have initial : Planned snapshot states [] ([], ∅) :=
    ⟨[], rfl, .nil, ⟨by simp, by simp⟩⟩
  obtain ⟨resolutions, retained, read, composes⟩ :=
    List.foldlM_ok_induction (planned_step indexed looksUp) _ initial accepted
  exact ⟨resolutions, retained, by simpa using read, composes⟩

/-- An accepted planning loop resolved every request and composed its edits. -/
theorem planOperations_ok {sha256 : Bytes → Sha256Digest} {snapshot : WorkspaceSnapshot}
    {filesById : FilesById} {operations : List Operation} {resolved : List ResolvedOperation}
    (indexed : snapshot.Indexed) (looksUp : LooksUp snapshot states filesById)
    (accepted : operations.zipIdx.foldlM (planOperation sha256 states) ([], ∅) = .ok (resolved, edits)) :
    ∃ resolutions, List.Forall₂ (fun entry resolution => resolution.Reads snapshot states entry)
      operations.zipIdx resolutions ∧ Composes states resolutions edits := by
  obtain ⟨resolutions, -, read, composes⟩ := planOperations_resolved indexed looksUp accepted
  exact ⟨resolutions, read, composes⟩

/-! ## Recorded outputs -/

variable {sha256 : Bytes → Sha256Digest}

/-- The edits of every touched path stand over its state in the snapshot. -/
def Recorded (states : StatesByPath) (edits : Edits) : Prop :=
  ∀ (path : WorkspaceRelativePath) (output : OutputEdits), edits[path]? = some output →
    ∃ state, states[path.value]? = some state ∧ output.path = path ∧ output.existingFileId = state.fileId

/-- Updating the edits of one known path keeps them recorded. -/
theorem outputEdits_recorded {path : WorkspaceRelativePath} {state : SnapshotState}
    {update : OutputEdits → OutputEdits} (recorded : Recorded states edits) (known : states[path.value]? = some state)
    (accepted : outputEdits edits path state update = .ok result)
    (keeps : ∀ output, (update output).path = output.path ∧ (update output).existingFileId = output.existingFileId) :
    Recorded states result := by
  unfold outputEdits at accepted
  simp only at accepted
  split_ifs at accepted with other
  obtain rfl := Except.ok.inj accepted
  intro changed output found
  rw [Std.TreeMap.getElem?_insert] at found
  by_cases same : path = changed
  · subst same
    simp only [Std.ReflCmp.compare_self, if_true, Option.some.injEq] at found
    obtain ⟨samePath, sameId⟩ := keeps ((edits[path]?).getD (state.noEdits path))
    refine ⟨state, known, ?_, ?_⟩
    · rw [← found, samePath]
      cases present : edits[path]? with
      | none => rfl
      | some earlier => exact (recorded path earlier present).choose_spec.2.1
    · rw [← found, sameId]
      exact not_not.mp other
  · rw [if_neg fun equal => same (Std.LawfulEqCmp.eq_of_compare equal)] at found
    exact recorded changed output found

/-- A resolved operation stands over the states of its two paths. -/
theorem resolveOperation_known {operation : Operation} {index : ℕ} {resolution : Resolution}
    (accepted : resolveOperation sha256 states operation index = .ok resolution) :
    states[resolution.operation.sourcePath.value]? = some (.existing resolution.source) ∧
      states[resolution.operation.destinationPath.value]? = some resolution.destination := by
  obtain ⟨source, sourceRead, accepted⟩ := Except.bind_eq_ok.mp accepted
  obtain ⟨range, -, accepted⟩ := Except.bind_eq_ok.mp accepted
  obtain ⟨selected, -, accepted⟩ := Except.bind_eq_ok.mp accepted
  obtain ⟨destination, destinationRead, accepted⟩ := Except.bind_eq_ok.mp accepted
  obtain ⟨offset, -, accepted⟩ := Except.bind_eq_ok.mp accepted
  obtain rfl := Except.pure_eq_ok.mp accepted
  exact ⟨existingSource_ok sourceRead, destinationState_ok destinationRead⟩

theorem planOperation_recorded {progress next : List ResolvedOperation × Edits} {entry : Operation × ℕ}
    (recorded : Recorded states progress.2)
    (accepted : planOperation sha256 states progress entry = .ok next) : Recorded states next.2 := by
  obtain ⟨resolution, resolved, accepted⟩ := Except.bind_eq_ok.mp accepted
  obtain ⟨edits, applied, accepted⟩ := Except.bind_eq_ok.mp accepted
  obtain rfl := Except.pure_eq_ok.mp accepted
  obtain ⟨source, destination⟩ := resolveOperation_known resolved
  rw [applyResolution] at applied
  dsimp only at applied
  split_ifs at applied with ineffective moved
  · exact Except.pure_eq_ok.mp applied ▸ recorded
  · obtain ⟨middle, deleted, inserted⟩ := Except.bind_eq_ok.mp applied
    have between := outputEdits_recorded recorded source deleted fun _ => ⟨rfl, rfl⟩
    exact outputEdits_recorded between destination inserted fun _ => ⟨rfl, rfl⟩
  · rw [Except.ok_bind] at applied
    exact outputEdits_recorded recorded destination applied fun _ => ⟨rfl, rfl⟩

end Srcmv.Core
