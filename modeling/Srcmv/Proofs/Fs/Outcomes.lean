import Srcmv.Proofs.Fs.ManifestBuilding

/-! # What a commit reports

A commit that returns names its transaction and preserves modes of changed targets only, whatever its world
and its environment were.
-/

namespace Srcmv.Fs

open Srcmv.Core Machine

variable {setting : Setting} {oracle : Oracle Site} {moment later : Moment World Site} {outcome : CommitOutcome}

/-- What an outcome may say of a plan. -/
structure Reports (plan : EditPlan) (outcome : CommitOutcome) : Prop where
  identifier : validateTransactionId outcome.transactionId = .ok ()
  modes : (outcome.preservedPermissionModes.map Prod.fst).Sublist ((changedOutputs plan).map fun output => output.path.value)

private theorem rollBackFailed_stops {transactionId : String} {original : FsError} :
    (rollBackFailed setting transactionId original).run oracle moment ≠ (.done outcome, later) := by
  intro ran
  obtain ⟨remains, _, -, ran⟩ := Process.run_bind_eq_done.mp ran
  extract_lets report at ran
  have stops : ∀ failed moment, (report failed).run oracle moment ≠ (.done outcome, later) := by
    intro failed moment reported
    cases failed <;> cases reported
  cases remains with
  | true =>
    obtain ⟨failed, _, -, ran⟩ := Process.run_bind_eq_done.mp ran
    exact stops failed _ ran
  | false =>
    obtain ⟨failed, _, -, ran⟩ := Process.run_bind_eq_done.mp ran
    exact stops failed _ ran

private theorem finishTransaction_identifier {transactionId : String} {committed : Bool} {result : Unit}
    (ran : (finishTransaction setting transactionId committed).run oracle moment = (.done result, later)) :
    validateTransactionId transactionId = .ok () := by
  obtain ⟨_, _, checked, -⟩ := Process.run_bind_eq_done.mp ran
  cases valid : validateTransactionId transactionId with
  | error failure =>
    rw [valid] at checked
    cases checked
  | ok _ => rfl

private theorem executeNewTransaction_done {manifest : Manifest} {directory : String} {snapshot : WorkspaceSnapshot}
    (ran : (executeNewTransaction setting manifest directory snapshot).run oracle moment = (.done outcome, later)) :
    validateTransactionId outcome.transactionId = .ok () ∧
      ∃ state, outcome.preservedPermissionModes = preservedModes manifest state := by
  obtain ⟨_, _, -, ran⟩ := Process.run_bind_eq_done.mp ran
  obtain ⟨_, _, -, ran⟩ := Process.run_bind_eq_done.mp ran
  obtain ⟨_, _, -, ran⟩ := Process.run_bind_eq_done.mp ran
  obtain ⟨_, _, -, ran⟩ := Process.run_bind_eq_done.mp ran
  obtain ⟨_, _, -, ran⟩ := Process.run_bind_eq_done.mp ran
  obtain ⟨_, _, -, ran⟩ := Process.run_bind_eq_done.mp ran
  obtain ⟨session, _, -, ran⟩ := Process.run_bind_eq_done.mp ran
  obtain ⟨_, _, finished, ran⟩ := Process.run_bind_eq_done.mp ran
  cases ran
  exact ⟨finishTransaction_identifier finished, session.progress.state, rfl⟩

private theorem commitManifest_done {manifest : Manifest} {snapshot : WorkspaceSnapshot}
    (ran : (commitManifest setting manifest snapshot).run oracle moment = (.done outcome, later)) :
    validateTransactionId outcome.transactionId = .ok () ∧
      ∃ state, outcome.preservedPermissionModes = preservedModes manifest state := by
  obtain ⟨result, middle, attempted, ran⟩ := Process.run_bind_eq_done.mp ran
  cases result with
  | error original => exact absurd ran rollBackFailed_stops
  | ok reported =>
    cases ran
    have executed : (executeNewTransaction setting manifest manifest.transactionId snapshot).run oracle moment =
        (.done outcome, later) := by
      cases stopped : (executeNewTransaction setting manifest manifest.transactionId snapshot).run oracle moment with
      | mk ended world =>
        rw [Process.attempt] at attempted
        simp only [stopped] at attempted
        cases ended <;> cases attempted
        rfl
    exact executeNewTransaction_done executed

private theorem preservedModes_sublist (manifest : Manifest) (state : StateSnapshot) :
    ((preservedModes manifest state).map Prod.fst).Sublist (manifest.targets.map ManifestTarget.path) := by
  rw [preservedModes]
  generalize state.targets = states
  induction manifest.targets generalizing states with
  | nil => exact List.Sublist.slnil
  | cons target rest ih =>
    cases states with
    | nil => exact List.nil_sublist _
    | cons state later =>
      rw [List.zip_cons_cons, List.filterMap_cons, List.map_cons]
      cases state.commit.preservedMode with
      | none => exact (ih later).cons _
      | some mode => exact (ih later).cons_cons _

theorem buildManifest_paths {snapshot : WorkspaceSnapshot} {plan : EditPlan} {outputs : List PlannedOutput}
    {transactionId : String} {newFileMode : UInt32} {manifest : Manifest}
    (built : buildManifest snapshot plan outputs transactionId newFileMode = .ok manifest) :
    manifest.targets.map ManifestTarget.path = outputs.map fun output => output.path.value := by
  have each := (buildManifest_ok built).1.targets.imp fun entry target made =>
    @manifestTargetOf_path snapshot entry.1 newFileMode entry.2 target made
  have paths : ∀ {entries : List (PlannedOutput × ℕ)} {targets : List ManifestTarget},
      List.Forall₂ (fun entry target => target.path = entry.1.path.value) entries targets →
        targets.map ManifestTarget.path = (entries.map Prod.fst).map fun output => output.path.value := by
    intro entries targets each
    induction each with
    | nil => rfl
    | cons same _ ih => rw [List.map_cons, List.map_cons, List.map_cons, ih, same]
  rw [paths each, List.zipIdx_map_fst]

/-- Whatever a commit returns reports its plan. -/
theorem commit_reports {snapshot : WorkspaceSnapshot} {plan : EditPlan} {newFileMode : UInt32} {identifiers : List String}
    (ran : (commit setting snapshot plan newFileMode identifiers).run oracle moment = (.done outcome, later)) :
    Reports plan outcome := by
  obtain ⟨_, _, -, ran⟩ := Process.run_bind_eq_done.mp ran
  obtain ⟨_, _, -, ran⟩ := Process.run_bind_eq_done.mp ran
  obtain ⟨_, _, -, ran⟩ := Process.run_bind_eq_done.mp ran
  obtain ⟨transactionId, _, -, ran⟩ := Process.run_bind_eq_done.mp ran
  cases built : buildManifest snapshot plan (changedOutputs plan) transactionId newFileMode with
  | error failure =>
    rw [built] at ran
    obtain ⟨_, _, -, ran⟩ := Process.run_bind_eq_done.mp ran
    cases ran
  | ok manifest =>
    rw [built] at ran
    obtain ⟨identifier, state, modes⟩ := commitManifest_done ran
    refine ⟨identifier, ?_⟩
    rw [modes, ← buildManifest_paths built]
    exact preservedModes_sublist manifest state

end Srcmv.Fs
