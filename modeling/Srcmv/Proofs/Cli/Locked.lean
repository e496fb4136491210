import Srcmv.Machine.Interruption
import Srcmv.Proofs.Cli.Tracking
import Srcmv.Proofs.Fs.Reporting

/-! # What a commit comes to

In an idle control tree the first identifier is free, so a commit opens its directory there. Unless the
environment gets in its way, whether it is admitted depends on its plan alone, and an admitted commit
either is done or reports an error after the directory was moved, because its files do not fit the
recovery limit.
-/

namespace Srcmv.Cli

open Srcmv.Core Srcmv.Fs Machine Process

variable {allowed : Site → Went → Prop} {setting : Setting} {world : World} {id : String}

section Opening

variable (sees : ∀ subject, ¬allowed (.existence subject) .failed) (idle : Idle world.control)

/-- The gate passes in an idle tree. -/
theorem idle_gate_triple (idle : Idle world.control) : Triple allowed (· = world) (gateNewTransaction setting)
    (Ends FsError.IsIo (Exactly () world) (Held allowed world)) := by
  have scanned : scanControl setting.crates world.control {} = .ok ∅ := idle.scanControl_eq
  have scans : Triple allowed (· = world) (ioRead "read_control_directory" none fun world =>
      scanControl setting.crates world.control {}) (Ends FsError.IsIo (Exactly ∅ world) (Held allowed world)) :=
    Triple.watches scanned ⟨_, _, rfl⟩
  rw [gateNewTransaction]
  apply scans.exactlyThen fun _ held => held
  have empty : (∅ : NameMap RecoveryEntry).toList = [] := Std.ExtTreeMap.toList_eq_nil_iff.mpr rfl
  simp only [empty, List.filter_nil, ne_eq, not_true_eq_false, if_false, List.foldlM_nil]
  exact Triple.returns ⟨rfl, rfl⟩

include sees idle in
/-- In an idle tree the directory is created under the first identifier. -/
theorem createTransactionDirectory_idle (rest : List String) :
    Triple allowed (· = world) (createTransactionDirectory setting (id :: rest))
      (Ends FsError.IsIo (Exactly id (world.opening setting id)) fun later => Disturbed allowed ∧ later.files = world.files) := by
  have free (name : String) : (world.control.completed[name]?).isSome = false := by
    rw [idle.completed, Std.ExtTreeMap.getElem?_empty]
    rfl
  have unused : world.control.transactions[id]? = none := by
    rw [idle.active, Std.ExtTreeMap.getElem?_empty]
  have looks (name : String) : Triple allowed (· = world)
      (Process.probe (.existence "completed") fun world => (world.control.completed[name]?).isSome : Engine Bool)
      (Ends FsError.IsIo (Exactly false world) fun later => Disturbed allowed ∧ later.files = world.files) := by
    have probes := @Triple.probes World Site FsError allowed FsError.IsIo world (.existence "completed")
      (fun world => (world.control.completed[name]?).isSome) (sees _)
    rw [free name] at probes
    exact probes.weaken (fun _ _ finished => finished) fun later stopped => ⟨⟨_, stopped.1⟩, by rw [stopped.2]⟩
  rw [createTransactionDirectory]
  apply Triple.actsThen rfl ⟨_, _, rfl⟩ fun disturbed => ⟨⟨_, disturbed⟩, rfl⟩
  apply (looks _).exactlyThen fun _ stopped => stopped
  simp only [Bool.false_eq_true, if_false]
  apply (looks _).exactlyThen fun _ stopped => stopped
  simp only [Bool.or_self, Bool.false_eq_true, if_false]
  refine Triple.actsThen (?_ : _ = Except.ok (true, world.opening setting id)) ⟨_, _, rfl⟩
    (fun disturbed => ⟨⟨_, disturbed⟩, rfl⟩) ?_
  · rw [unused]
    rfl
  simp only [if_true]
  rw [syncDirectory]
  apply Triple.actsThen rfl ⟨_, _, rfl⟩ fun disturbed => ⟨⟨_, disturbed⟩, rfl⟩
  exact Triple.returns ⟨rfl, rfl⟩

end Opening

section Admission

variable {arguments : CommitArguments} {snapshot : WorkspaceSnapshot} {editPlan : EditPlan} {manifest : Manifest}

/-- A commit has a plan that changes something, and the manifest of its first identifier can be recorded. -/
structure Admits (setting : Setting) (arguments : CommitArguments) (world : World) (snapshot : WorkspaceSnapshot)
    (editPlan : EditPlan) (manifest : Manifest) : Prop where
  acquired : (setting.view world).acquireSnapshot setting.crates.sha256 (snapshotRequirements arguments.batch) {} = .ok snapshot
  planned : expectedPlan setting arguments snapshot = .ok editPlan
  qualified : setting.qualified = .ok ()
  device : ensureSameDevice setting.lock.control.device setting.identity.device = .ok ()
  changed : Fs.changedOutputs editPlan ≠ []
  built : ∃ id rest, arguments.identifiers = id :: rest ∧
    buildManifest snapshot editPlan (Fs.changedOutputs editPlan) id arguments.newFileMode = .ok manifest
  encodes : manifest.Encodes setting.crates

theorem Admits.from_ (admits : Admits setting arguments world snapshot editPlan manifest) :
    PlannedFrom setting world snapshot editPlan manifest arguments.newFileMode := by
  obtain ⟨_, _, -, built⟩ := admits.built
  exact ⟨⟨_, admits.acquired⟩, ⟨_, _, (expectedPlan_eq_ok.mp admits.planned).1⟩, ⟨_, built⟩⟩

/-- What is admitted is determined by the arguments and the world. -/
theorem Admits.unique {snapshot' : WorkspaceSnapshot} {editPlan' : EditPlan} {manifest' : Manifest}
    (admits : Admits setting arguments world snapshot editPlan manifest)
    (others : Admits setting arguments world snapshot' editPlan' manifest') :
    snapshot' = snapshot ∧ editPlan' = editPlan ∧ manifest' = manifest := by
  obtain rfl := Except.ok.inj (admits.acquired.symm.trans others.acquired)
  obtain rfl := Except.ok.inj (admits.planned.symm.trans others.planned)
  obtain ⟨id, rest, identifiers, built⟩ := admits.built
  obtain ⟨_, _, identifiers', built'⟩ := others.built
  rw [identifiers] at identifiers'
  cases identifiers'
  exact ⟨rfl, rfl, Except.ok.inj (built'.symm.trans built)⟩

/-- Only the files of the world decide what is admitted and what the transaction is. -/
theorem Admits.congr {other : World} (files : other.files = world.files)
    (admits : Admits setting arguments other snapshot editPlan manifest) : Admits setting arguments world snapshot editPlan manifest where
  acquired := by
    have acquired := admits.acquired
    rwa [Setting.view, files] at acquired
  planned := admits.planned
  qualified := admits.qualified
  device := admits.device
  changed := admits.changed
  built := admits.built
  encodes := admits.encodes

theorem plannedJob_congr {other : World} (files : other.files = world.files) :
    plannedJob setting other snapshot editPlan manifest = plannedJob setting world snapshot editPlan manifest := by
  rw [plannedJob, plannedJob, files]

/-- How a commit ends. -/
def Commits (allowed : Site → Went → Prop) (setting : Setting) (arguments : CommitArguments) (world : World)
    (snapshot : WorkspaceSnapshot) (editPlan : EditPlan) : Ending World FsError CommitOutcome where
  done outcome later := ∃ manifest, Admits setting arguments world snapshot editPlan manifest ∧
    ((plannedJob setting world snapshot editPlan manifest).Executing allowed).done outcome later
  failed error later :=
    ((Disturbed allowed ∨ ¬∃ manifest, Admits setting arguments world snapshot editPlan manifest) ∧ later.files = world.files) ∨
      ∃ manifest, Admits setting arguments world snapshot editPlan manifest ∧
        (plannedJob setting world snapshot editPlan manifest).Reports allowed error later
  crashed _ := True

theorem exists_identifier (arguments : CommitArguments) : ∃ id rest, arguments.identifiers = id :: rest := by
  have many : 0 < arguments.identifiers.length := by
    rw [CommitArguments.identifiers, List.length_map, arguments.attempts]
    decide
  exact List.exists_cons_of_length_pos many

variable (sees : ∀ subject, ¬allowed (.existence subject) .failed) (ready : CommitReady setting world)

include sees ready in
/-- A commit that is not admitted changes no file. -/
private theorem commit_refused
    (acquired : (setting.view world).acquireSnapshot setting.crates.sha256 (snapshotRequirements arguments.batch) {} = .ok snapshot)
    (planned : expectedPlan setting arguments snapshot = .ok editPlan)
    (refused : ¬∃ manifest, Admits setting arguments world snapshot editPlan manifest) : Triple allowed (· = world)
      (Fs.commit setting snapshot editPlan arguments.newFileMode arguments.identifiers)
      ⟨fun _ _ => False, fun _ later => later.files = world.files, fun _ => True⟩ := by
  have stays (error : FsError) (later : World) (same : later = world) : later.files = world.files := by rw [same]
  obtain ⟨id, rest, identifiers⟩ := exists_identifier arguments
  have identifier : validateTransactionId id = .ok () :=
    CommitArguments.identifier_valid (by rw [identifiers]; exact List.mem_cons_self)
  have opened : (plannedJob setting world snapshot editPlan (blankManifest id)).Unrecorded allowed (world.opening setting id) :=
    ready.opened identifier
  have rolledBack (later : World)
      (partly : (plannedJob setting world snapshot editPlan (blankManifest id)).PartlyRolledBack allowed later) :
      later.files = world.files := by
    rcases partly with unrecorded | ended
    · exact unrecorded.files
    · exact ended.files
  rw [Fs.commit]
  refine Triple.computes stays fun _ qualified => Triple.computes stays fun _ device => Triple.computes stays fun _ changed => ?_
  rw [identifiers]
  refine Triple.bind (Exactly id (world.opening setting id)) ((createTransactionDirectory_idle sees ready.idle rest).mono
    (fun _ same => same) (fun _ _ opened => opened) (fun _ _ stopped => stopped.2.2) fun _ _ => trivial) fun created => ?_
  refine Triple.fact ?_
  rintro rfl
  cases built : buildManifest snapshot editPlan (Fs.changedOutputs editPlan) created arguments.newFileMode with
  | error error =>
    refine Triple.bind (fun _ later => later.files = world.files) ?_ fun _ => Triple.refuse fun _ same => same
    exact opened.rollback_triple.mono (fun _ same => same) (fun _ _ finished => finished.1.files)
      (fun _ later stopped => rolledBack later stopped.2.2) fun _ _ => trivial
  | ok manifest =>
    obtain ⟨-, -, named, -⟩ := buildManifest_ok built
    have unencodable : ¬manifest.Encodes setting.crates := fun encodes =>
      refused ⟨manifest, acquired, planned, qualified, device, Except.rejectIf_eq_ok.mp changed, ⟨_, rest, identifiers, built⟩, encodes⟩
    dsimp only
    rw [commitManifest]
    have executes : Triple allowed (· = world.opening setting created)
        (executeNewTransaction setting manifest manifest.transactionId snapshot)
        ⟨fun _ _ => False, fun _ => (· = world.opening setting created), (· = world.opening setting created)⟩ :=
      executeNewTransaction_unencodable unencodable
    have attempted : Triple allowed (· = world.opening setting created)
        (executeNewTransaction setting manifest manifest.transactionId snapshot).attempt
        ⟨fun result later => (∃ error, result = .error error) ∧ later = world.opening setting created,
          fun _ later => later.files = world.files, fun _ => True⟩ := by
      refine Triple.attempt (executes.mono (fun _ same => same) (fun _ _ impossible => impossible.elim) (fun error _ same => ?_)
        fun _ _ => trivial)
      exact ⟨⟨error, rfl⟩, same⟩
    refine Triple.bind _ attempted fun result => Triple.fact ?_
    rintro ⟨original, rfl⟩
    rw [named]
    have rollback : Triple allowed (· = world.opening setting created) (recoverLocked setting created .rollback)
        (Keeps fun later => later.files = world.files) :=
      (opened.recover_triple .rollback).mono (fun _ same => same) (fun _ _ finished => finished.2.2.1.files)
        (fun _ later stopped => rolledBack later stopped.2.2) fun later stopped => rolledBack later stopped.2
    have untouched : (world.opening setting created).files = world.files := rfl
    exact (rollBackFailed_keeps untouched rollback original).mono (fun _ same => same) (fun _ _ impossible => impossible)
      (fun _ _ kept => kept) fun _ _ => trivial

include sees ready in
/-- What a commit comes to, whether it is admitted or not. -/
theorem commit_triple
    (acquired : (setting.view world).acquireSnapshot setting.crates.sha256 (snapshotRequirements arguments.batch) {} = .ok snapshot)
    (planned : expectedPlan setting arguments snapshot = .ok editPlan) : Triple allowed (· = world)
      (Fs.commit setting snapshot editPlan arguments.newFileMode arguments.identifiers)
      (Commits allowed setting arguments world snapshot editPlan) := by
  by_cases admitted : ∃ manifest, Admits setting arguments world snapshot editPlan manifest
  · obtain ⟨manifest, admits⟩ := admitted
    obtain ⟨id, rest, identifiers, built⟩ := admits.built
    obtain ⟨-, -, named, -⟩ := buildManifest_ok built
    subst named
    have identifier : validateTransactionId manifest.transactionId = .ok () :=
      CommitArguments.identifier_valid (by rw [identifiers]; exact List.mem_cons_self)
    have fresh : (plannedJob setting world snapshot editPlan manifest).Fresh (world.opening setting manifest.transactionId) :=
      plannedJob_fresh ready.idle ready.captured ready.published ready.refusals identifier
    have sound := admits.from_.sound admits.encodes ready.fresh
    rw [Fs.commit, admits.qualified, ofExcept_ok_bind, admits.device, ofExcept_ok_bind, Except.rejectIf_of_not admits.changed,
      ofExcept_ok_bind, identifiers]
    refine Triple.bind (Exactly manifest.transactionId (world.opening setting manifest.transactionId))
      ((createTransactionDirectory_idle sees ready.idle rest).mono (fun _ same => same) (fun _ _ opened => opened)
        (fun _ _ stopped => .inl ⟨.inl stopped.2.1, stopped.2.2⟩) fun _ _ => trivial) fun created => ?_
    refine Triple.fact ?_
    rintro rfl
    rw [built]
    exact (fresh.commit_reports sound sees).mono (fun _ same => same) (fun _ _ finished => ⟨manifest, admits, finished⟩)
      (fun _ _ reports => .inr ⟨manifest, admits, reports⟩) fun _ _ => trivial
  · exact (commit_refused sees ready acquired planned admitted).mono (fun _ same => same) (fun _ _ impossible => impossible.elim)
      (fun _ _ kept => .inl ⟨.inr admitted, kept⟩) fun _ _ => trivial

end Admission

/-! ## Runs that nothing disturbs -/

section Calm

variable {α : Type} {request : CommitRequest} {snapshot : WorkspaceSnapshot} {editPlan : EditPlan}
  {next : WorkspaceSnapshot → EditPlan → CommandProcess α} (idle : Idle world.control)
  (acquired : (setting.view world).acquireSnapshot setting.crates.sha256 (snapshotRequirements request.batch) {} = .ok snapshot)
  (planned : lockedPlan setting request snapshot = .ok editPlan)

include idle in
private theorem gate_calm : Triple Calmly (· = world) ((gateNewTransaction setting).mapError .filesystem : CommandProcess Unit)
    (Ends (fun _ => True) (Exactly () world) fun _ => False) :=
  Triple.mapError ((idle_gate_triple idle).mono (fun _ same => same) (fun _ _ passed => passed)
    (fun _ _ stopped => absurd stopped.2.1 Calmly.undisturbed) fun _ stopped => absurd stopped.1 Calmly.undisturbed)

private theorem begin_calm : Triple Calmly (· = world) (Process.note beginHistory : CommandProcess Unit)
    (Ends (fun _ => True) (Exactly () (beginHistory world)) fun _ => False) := by
  apply Triple.note
  rintro _ rfl
  exact ⟨rfl, rfl⟩

include acquired in
private theorem acquire_calm : Triple Calmly (· = beginHistory world)
    ((acquireLockedSnapshot setting request).mapError .filesystem : CommandProcess WorkspaceSnapshot)
    (Ends (fun _ => True) (Exactly snapshot (beginHistory world)) fun _ => False) := by
  have reads : Triple Calmly (· = beginHistory world) (acquireLockedSnapshot setting request)
      (Ends FsError.IsIo (Exactly snapshot (beginHistory world)) (Held (Calmly : Site → Went → Prop) (beginHistory world))) := by
    rw [acquireLockedSnapshot, ioRead]
    apply Triple.watches
    · exact acquired
    · exact ⟨_, _, rfl⟩
  exact Triple.mapError (reads.mono (fun _ same => same) (fun _ _ passed => passed)
    (fun _ _ stopped => absurd stopped.2.1 Calmly.undisturbed) fun _ stopped => absurd stopped.1 Calmly.undisturbed)

include idle acquired planned in
/-- In an idle tree a command under the lock goes on with its snapshot and its plan. -/
theorem underLock_calm {ending : Ending World CommitFailure α}
    (goes : Triple Calmly (· = beginHistory world) (next snapshot editPlan) ending) :
    Triple Calmly (· = world) (underLock setting request next) ending := by
  have exactly {β : Type} {first : CommandProcess β} {value : β} {before middle : World} {rest : β → CommandProcess α}
      (reaches : Triple Calmly (· = before) first (Ends (fun _ => True) (Exactly value middle) fun _ => False))
      (second : Triple Calmly (· = middle) (rest value) ending) : Triple Calmly (· = before) (first >>= rest) ending := by
    refine Triple.bind _ (reaches.mono (fun _ same => same) (fun _ _ finished => finished) (fun _ _ stopped => stopped.2.elim)
      fun _ stopped => stopped.elim) fun result => Triple.fact ?_
    rintro rfl
    exact second
  rw [underLock]
  apply exactly (gate_calm idle)
  apply exactly begin_calm
  apply exactly (acquire_calm acquired)
  rw [planned, ofExcept_ok_bind]
  exact goes

include idle acquired planned in
/-- What is left to do under the lock when the plan is made. -/
theorem underLock_advances : ∃ taken,
    Advances (underLock setting request next) ⟨world, []⟩ (next snapshot editPlan) ⟨beginHistory world, taken⟩ := by
  have gates : Triple Calmly (· = world) ((gateNewTransaction setting).mapError .filesystem : CommandProcess Unit)
      (Ends (fun _ => True) (Exactly () world) fun _ => False) := gate_calm idle
  obtain ⟨_, first, gated, calm, -, same⟩ := gates.calm_reaches within_start rfl
  obtain ⟨_, second, begun, calm₂, -, same₂⟩ := begin_calm.calm_reaches calm same
  obtain ⟨snapshot, ⟨third, taken⟩, read, calm₃, rfl, same₃⟩ := (acquire_calm acquired).calm_reaches calm₂ same₂
  dsimp only at same₃
  subst same₃
  refine ⟨taken, ?_⟩
  have plans : Advances (Process.ofExcept (lockedPlan setting request snapshot) >>= fun plan => next snapshot plan)
      ⟨beginHistory world, taken⟩ (next snapshot editPlan) ⟨beginHistory world, taken⟩ := by
    rw [planned, ofExcept_ok_bind]
    exact .refl calm₃
  rw [underLock]
  apply (Advances.after gated calm).trans
  apply (Advances.after begun calm₂).trans
  exact (Advances.after read calm₃).trans plans

/-- What is left of an admitted commit when its directory is created. -/
theorem Admits.commit_advances {arguments : CommitArguments} {manifest : Manifest}
    (admits : Admits setting arguments world snapshot editPlan manifest) (idle : Idle world.control) {taken : List (Site × Went)}
    (calm : Moment.Within Calmly (⟨world, taken⟩ : Moment World Site)) : ∃ taken',
    Advances (Fs.commit setting snapshot editPlan arguments.newFileMode arguments.identifiers) ⟨world, taken⟩
      (commitManifest setting manifest snapshot) ⟨world.opening setting manifest.transactionId, taken'⟩ := by
  obtain ⟨id, rest, identifiers, built⟩ := admits.built
  obtain ⟨-, -, named, -⟩ := buildManifest_ok built
  subst named
  have opens : Triple Calmly (· = world) (createTransactionDirectory setting (manifest.transactionId :: rest))
      (Ends FsError.IsIo (Exactly manifest.transactionId (world.opening setting manifest.transactionId)) fun _ => False) :=
    (createTransactionDirectory_idle Calmly.sees idle rest).weaken (fun _ _ opened => opened)
      fun _ stopped => Calmly.undisturbed stopped.1
  obtain ⟨_, ⟨opened, taken'⟩, created, calm', rfl, same⟩ := opens.calm_reaches calm rfl
  dsimp only at same
  subst same
  refine ⟨taken', ?_⟩
  rw [Fs.commit, admits.qualified, ofExcept_ok_bind, admits.device, ofExcept_ok_bind, Except.rejectIf_of_not admits.changed,
    ofExcept_ok_bind, identifiers]
  apply (Advances.after created calm').trans
  rw [built]
  exact .refl calm'

/-- An admitted commit that nothing disturbs installs every candidate; it is done, or its files do not fit the
recovery limit. -/
theorem Admits.commit_calm {arguments : CommitArguments} {manifest : Manifest}
    (admits : Admits setting arguments world snapshot editPlan manifest) (ready : CommitReady setting world) : Triple Calmly (· = world)
      (Fs.commit setting snapshot editPlan arguments.newFileMode arguments.identifiers)
      ⟨fun _ later => (plannedJob setting world snapshot editPlan manifest).Completes ∧
          (plannedJob setting world snapshot editPlan manifest).Concluded true later,
        fun error later => ¬(plannedJob setting world snapshot editPlan manifest).Completes ∧ error.IsRecoveryLimit ∧
          (plannedJob setting world snapshot editPlan manifest).Ended true later,
        fun _ => True⟩ := by
  refine (commit_triple Calmly.sees ready admits.acquired admits.planned).mono (fun _ same => same) (fun outcome later finished => ?_)
    (fun error later stopped => ?_) fun _ _ => trivial
  · obtain ⟨other, others, finished⟩ := finished
    obtain ⟨-, -, rfl⟩ := admits.unique others
    exact ⟨finished.1, finished.2.1⟩
  · rcases stopped with ⟨disturbed | refused, -⟩ | ⟨other, others, reports⟩
    · exact absurd disturbed Calmly.undisturbed
    · exact absurd ⟨manifest, admits⟩ refused
    · obtain ⟨-, -, rfl⟩ := admits.unique others
      have unhindered : ¬(plannedJob setting world snapshot editPlan other).Hindered Calmly := by
        rintro (disturbed | changed)
        · exact Calmly.undisturbed disturbed
        · exact changed admits.from_.inputsHold
      cases reports with
      | recoveryRequired hindered _ => exact absurd hindered unhindered
      | rolledBack hindered _ => exact absurd hindered unhindered
      | committed ended late =>
        rcases late with ⟨-, _, failed⟩ | ⟨large, limit⟩
        · rcases failed with impossible | impossible <;> cases impossible
        · exact ⟨large, limit, ended⟩

end Calm

end Srcmv.Cli
