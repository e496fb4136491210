import Srcmv.Soundness.Completion
import Srcmv.Soundness.LongLines

/-! # The recovery limit

The limits that admit a transaction allow more than its finished directory may hold: the originals that
were backed up are charged like records when the directory is read once more. A transaction with larger
files commits, but neither its completion nor what comes after it gets past its directory.
-/

namespace Srcmv.Fs

open Srcmv.Core Machine OrderedMap Process

variable {job : Job} {world : World}

/-- A line of the largest size that a snapshot accepts. -/
def longest : LongLine where
  bytes := List.replicate (256 * 1024 * 1024) 97
  nonempty := List.ne_nil_of_length_pos (by rw [List.length_replicate]; norm_num)
  silent byte member := by
    rw [List.eq_of_mem_replicate member]
    rfl
  bounded := List.length_replicate.le

section Completing

/-- From every world in which the transaction was stopped after its preparation, an uninterrupted completion
is done and leaves every candidate installed. -/
def Job.CompletionWorks (job : Job) : Prop :=
  ∀ world, job.Reaches CrashingBetweenRecords world → job.manifest.transactionId ∈ world.control.transactions →
    world.Completable → ∃ later, (recoverLocked job.setting job.manifest.transactionId .complete).run Oracle.calm ⟨world, []⟩ =
      (.done ⟨job.manifest.transactionId, "committed"⟩, later) ∧ job.CompletedIn later.world

/-- A completion that does not fit the recovery limit is not done. -/
private theorem not_done (sound : job.Sound) (inputs : job.InputsHold) (large : ¬job.Completes)
    (reaches : job.Reaches CrashingBetweenRecords world) (active : job.manifest.transactionId ∈ world.control.transactions)
    (completable : world.Completable) (outcome : RecoveryOutcome) (later : Moment World Site) :
    (recoverLocked job.setting job.manifest.transactionId .complete).run Oracle.calm ⟨world, []⟩ ≠ (.done outcome, later) := by
  intro ran
  have result := (reaches.completes sound inputs active completable).run_calm (fun _ => ⟨.inl rfl, .inr rfl⟩) rfl
  rw [ran] at result
  obtain ⟨-, completes, -⟩ := result
  exact large completes

/-- Completion always works exactly if the finished directory fits the recovery limit. -/
theorem completion_works_iff {start : World} (sound : job.Sound) (inputs : job.InputsHold) (fresh : job.Fresh start) :
    job.CompletionWorks ↔ job.Completes := by
  constructor
  · intro works
    by_contra large
    obtain ⟨stopped, config, reaches, -, running⟩ := fresh.reaches_prepared sound
    have prepared : stopped.LastIn .prepared := by
      have last := running.lastIn
      rwa [Job.preparedTo, if_pos rfl] at last
    obtain ⟨later, ran, -⟩ := works stopped reaches running.isActive (.inl prepared)
    exact not_done sound inputs large reaches running.isActive (.inl prepared) _ later ran
  · intro completes stopped reaches active completable
    obtain ⟨outcome, later, ran, rfl, -, concluded⟩ := (reaches.completes sound inputs active completable).calm_done
      (fun _ _ failed => failed.2.2 completes) (fun _ crashed => crashed.2 completes) rfl
    exact ⟨later, ran, concluded.ended.completedIn sound⟩

/-- The small transaction can always be completed. -/
theorem completion_works_small : Sample.job.CompletionWorks :=
  (completion_works_iff Sample.job_sound Sample.job_inputsHold Sample.job_fresh).mpr
    (Sample.job_sound.completes (Nat.le_of_ble_eq_true rfl))

private theorem prepared_never_completed (line : LongLine) (full : line.bytes.length = 256 * 1024 * 1024) :
    ∃ digest, plan Sample.setting.crates.sha256 Sample.sizes line.snapshot line.batch {} = .ok (line.editPlan digest) ∧
      ∃ world, (line.job digest).Reaches CrashingBetweenRecords world ∧ Sample.transactionId ∈ world.control.transactions ∧
        world.LastIn .prepared ∧ ∀ outcome later,
          (recoverLocked Sample.setting Sample.transactionId .complete).run Oracle.calm ⟨world, []⟩ ≠ (.done outcome, later) := by
  obtain ⟨digest, planned, sound, inputs, fresh⟩ := line.committable
  have large : ¬(line.job digest).Completes := line.not_completes _ digest full
  obtain ⟨world, config, reaches, -, running⟩ := fresh.reaches_prepared sound
  have prepared : world.LastIn .prepared := by
    have last := running.lastIn
    rwa [Job.preparedTo, if_pos rfl] at last
  have never := not_done sound inputs large reaches running.isActive (.inl prepared)
  exact ⟨digest, planned, world, reaches, running.isActive, prepared, never⟩

/-- A file of one line of 256 MiB is admitted, its transaction is prepared, and no completion of it is done. -/
theorem longest_never_completed : ∃ digest, plan Sample.setting.crates.sha256 Sample.sizes longest.snapshot longest.batch {} =
      .ok (longest.editPlan digest) ∧
    ∃ world, (longest.job digest).Reaches CrashingBetweenRecords world ∧ Sample.transactionId ∈ world.control.transactions ∧
      world.LastIn .prepared ∧ ∀ outcome later,
        (recoverLocked Sample.setting Sample.transactionId .complete).run Oracle.calm ⟨world, []⟩ ≠ (.done outcome, later) :=
  prepared_never_completed longest List.length_replicate

end Completing

section Reading

/-- The limits let through whatever reads the directory of a committed transaction among the completed ones: its
contents are accepted, so that a cleanup removes it, and neither a scan nor the gate exceeds a limit. -/
structure Job.PassesLimits (job : Job) (world : World) : Prop where
  accepted : Validates job.crates (world.childrenOf (.completed (completedName job.manifest.transactionId true)))
    job.manifest.transactionId
  cleaned : ∃ later, (cleanupCompletedDirectory job.setting Site.io (completedName job.manifest.transactionId true)
    job.manifest.transactionId).run Oracle.calm ⟨world, []⟩ = (.done (), later) ∧ Idle later.world.control
  scanned : ∀ resource actual limit, scanControl job.crates world.control {} ≠ .error (.resourceLimitExceeded resource actual limit)
  gated : ∀ resource actual limit later,
    ¬Fails (fun _ _ => True) (gateNewTransaction job.setting) world (.resourceLimitExceeded resource actual limit) later

variable {object : ControlObject} {children : NameMap Item}

/-- Valid contents are removed, unless something goes against it. -/
private theorem cleanup_removes (ended : job.Ended true world)
    (only : OnlyCompleted world.control (completedName job.manifest.transactionId true) object children)
    (backups : ∀ index item, children[(Entry.backup index).name]? = some item → job.originalItem index = some item)
    (validates : Validates job.crates children job.manifest.transactionId) :
    Triple Calmly (· = world) (cleanupCompletedDirectory job.setting Site.io (completedName job.manifest.transactionId true)
      job.manifest.transactionId) ⟨fun _ later => Idle later.control, fun _ _ => False, fun _ => False⟩ := by
  obtain ⟨total, valid⟩ := validates
  apply (ended.cleanup_triple only backups Site.io).mono (fun _ same => same)
  · exact fun _ _ removed => removed.2.2.1
  · rintro error later ⟨⟨-, operation, impossible | impossible⟩ | refused, -⟩
    · cases impossible
    · cases impossible
    · cases refused.symm.trans valid
  · rintro later ⟨⟨operation, impossible | impossible⟩, -⟩
    · cases impossible
    · cases impossible

/-- With valid contents only a step of the gate can fail. -/
private theorem gate_passes (sound : job.Sound) (ended : job.Ended true world)
    (only : OnlyCompleted world.control (completedName job.manifest.transactionId true) object children)
    (backups : ∀ index item, children[(Entry.backup index).name]? = some item → job.originalItem index = some item)
    (validates : Validates job.crates children job.manifest.transactionId) :
    Triple (fun _ _ => True) (· = world) (gateNewTransaction job.setting)
      ⟨fun _ _ => True, fun error _ => error.IsIo, fun _ => True⟩ := by
  have parsed := parseCompletedName_completedName sound.valid.identifier true
  obtain ⟨total, valid⟩ := validates
  have found : scanControl job.crates world.control {} = .ok ((∅ : NameMap RecoveryEntry).insert job.manifest.transactionId
      (completedEntry job.manifest.transactionId (completedName job.manifest.transactionId true) "committed")) := by
    rw [only.scanControl_eq parsed, valid]
    rfl
  rw [gateNewTransaction, ioRead]
  apply Triple.bind fun entries later => entries = (∅ : NameMap RecoveryEntry).insert job.manifest.transactionId
    (completedEntry job.manifest.transactionId (completedName job.manifest.transactionId true) "committed") ∧ later = world
  · apply Triple.observe
    · exact fun _ _ _ => trivial
    · exact fun _ _ _ => ⟨_, _, rfl⟩
    · rintro later rfl entries read
      exact ⟨Except.ok.inj (read.symm.trans found), rfl⟩
    · rintro - later rfl error refused
      cases refused.symm.trans found
  · intro entries
    apply Triple.fact
    rintro rfl
    dsimp only
    rw [(Only.of_insert_empty _ _).toList, List.filter_cons_of_neg (by rw [completedEntry]; exact Bool.false_ne_true),
      List.filter_nil, if_neg (not_not.mpr rfl), List.foldlM_cons, cleanupIfCompleted, completedEntry]
    dsimp only
    apply Triple.bind fun _ _ => True
    · apply (ended.cleanup_triple only backups Site.io).mono (fun _ same => same)
      · exact fun _ _ _ => trivial
      · rintro error later ⟨⟨io, -⟩ | refused, -⟩
        · exact io
        · cases refused.symm.trans valid
      · exact fun _ _ => trivial
    · exact fun _ => Triple.pure fun _ _ => trivial

/-- The directory of a committed transaction is moved; its contents are then accepted, unless they exceed the limit. -/
private theorem committed_moves (sound : job.Sound) (reaches : job.Reaches Answering world)
    (active : job.manifest.transactionId ∈ world.control.transactions) (committed : world.LastIn .committed) :
    ∃ (later : World) (object : ControlObject) (children : NameMap Item),
      world.renameTerminal job.manifest.transactionId (completedName job.manifest.transactionId true) = .ok ((), later) ∧
      OnlyCompleted later.control (completedName job.manifest.transactionId true) object children ∧ job.Ended true later ∧
      (∀ index item, children[(Entry.backup index).name]? = some item → job.originalItem index = some item) ∧
      (∀ error, validateCompletedContents job.crates children job.manifest.transactionId 0 {} = .error error →
        error.IsRecoveryLimit) ∧
      (Validates job.crates children job.manifest.transactionId ↔ job.Completes) := by
  obtain ⟨config, phase, running, terminal⟩ := reaches.runs sound Answering.sees active committed
  have last : phase = job.committedPhase := Phase.eq_committed (running.path.good sound.course_of.positive) terminal
  -- no record follows the one of the commit
  have unbegun : config.temporary = none := by
    cases begun : config.temporary with
    | none => rfl
    | some bytes =>
      obtain ⟨-, count, after, next, -⟩ := running.temporary bytes begun
      rw [last, Job.committedPhase] at next
      cases next with
      | beginRollback unfinished => simp at unfinished
  obtain ⟨later, object, children, renamed, only, ended, -, backups, limited, validates⟩ :=
    @Job.Running.moved _ _ _ _ _ true sound running unbegun terminal
  have path : Path job.course config.phases job.committedPhase := last ▸ running.path
  refine ⟨later, object, children, renamed, only, ended, backups, limited, ?_⟩
  simp only [Validates, validates, exists_eq_left, Job.completes_iff path]

/-- No scan gets past a directory that does not fit. -/
private theorem scan_exceeds (sound : job.Sound) (large : ¬job.Completes) (reaches : job.Reaches Answering world)
    (active : job.manifest.transactionId ∈ world.control.transactions) (committed : world.LastIn .committed) :
    ∃ later, world.renameTerminal job.manifest.transactionId (completedName job.manifest.transactionId true) = .ok ((), later) ∧
      ∃ actual limit, scanControl job.crates later.control {} = .error (.resourceLimitExceeded "recovery_bytes" actual limit) := by
  obtain ⟨later, object, children, renamed, only, -, -, limited, completes⟩ := committed_moves sound reaches active committed
  refine ⟨later, renamed, ?_⟩
  rw [only.scanControl_eq (parseCompletedName_completedName sound.valid.identifier true)]
  cases validated : validateCompletedContents job.crates children job.manifest.transactionId 0 {} with
  | ok total => exact absurd (completes.mp ⟨total, validated⟩) large
  | error failure =>
    obtain ⟨actual, limit, rfl⟩ := limited failure validated
    exact ⟨actual, limit, rfl⟩

/-- Once the directory of a committed transaction is moved among the completed ones, the limits let through whatever
reads it exactly if its records and originals together fit the recovery limit. -/
theorem passes_limits_iff (sound : job.Sound) (reaches : job.Reaches Answering world)
    (active : job.manifest.transactionId ∈ world.control.transactions) (committed : world.LastIn .committed) :
    ∃ later, world.renameTerminal job.manifest.transactionId (completedName job.manifest.transactionId true) = .ok ((), later) ∧
      (job.PassesLimits later ↔ job.Completes) := by
  obtain ⟨later, object, children, renamed, only, ended, backups, -, completes⟩ := committed_moves sound reaches active committed
  refine ⟨later, renamed, fun passes => ?_, fun fits => ?_⟩
  · rw [← completes, ← only.childrenOf_eq]
    exact passes.accepted
  · have valid := completes.mpr fits
    constructor
    · rw [only.childrenOf_eq]
      exact valid
    · obtain ⟨_, cleaned, ran, idle⟩ := (cleanup_removes ended only backups valid).calm_done (fun _ _ => id) (fun _ => id) rfl
      exact ⟨cleaned, ran, idle⟩
    · intro resource actual limit refused
      obtain ⟨total, accepted⟩ := valid
      rw [only.scanControl_eq (parseCompletedName_completedName sound.valid.identifier true), accepted] at refused
      cases refused
    · intro resource actual limit other fails
      obtain ⟨_, _, impossible⟩ := (gate_passes sound ended only backups valid).fails rfl fails
      cases impossible

/-- The finished directory of the small transaction passes every limit. -/
theorem passes_limits_small : ∃ world later, Sample.job.Reaches Answering world ∧ world.LastIn .committed ∧
    world.renameTerminal Sample.transactionId (completedName Sample.transactionId true) = .ok ((), later) ∧
    Sample.job.PassesLimits later := by
  obtain ⟨world, config, reaches, -, running⟩ := Sample.job_fresh.reaches_committed Sample.job_sound Sample.job_inputsHold
  have answering : Sample.job.Reaches Answering world := reaches.mono fun _ _ permitted _ _ => permitted.1
  obtain ⟨later, renamed, passes⟩ := passes_limits_iff Sample.job_sound answering running.isActive running.lastIn
  exact ⟨world, later, answering, running.lastIn, renamed, passes.mpr (Sample.job_sound.completes (Nat.le_of_ble_eq_true rfl))⟩

private theorem committed_never_scanned (line : LongLine) (full : line.bytes.length = 256 * 1024 * 1024) :
    ∃ digest, plan Sample.setting.crates.sha256 Sample.sizes line.snapshot line.batch {} = .ok (line.editPlan digest) ∧
      ∃ world later, (line.job digest).Reaches Answering world ∧ Sample.transactionId ∈ world.control.transactions ∧
        world.LastIn .committed ∧
        world.renameTerminal Sample.transactionId (completedName Sample.transactionId true) = .ok ((), later) ∧
        ∃ actual limit, scanControl Sample.setting.crates later.control {} =
          .error (.resourceLimitExceeded "recovery_bytes" actual limit) := by
  obtain ⟨digest, planned, sound, inputs, fresh⟩ := line.committable
  have large : ¬(line.job digest).Completes := line.not_completes _ digest full
  obtain ⟨world, config, reaches, -, running⟩ := fresh.reaches_committed sound inputs
  have answering : (line.job digest).Reaches Answering world := reaches.mono fun _ _ permitted _ _ => permitted.1
  have committed : world.LastIn .committed := running.lastIn
  obtain ⟨later, renamed, exceeds⟩ := scan_exceeds sound large answering running.isActive committed
  exact ⟨digest, planned, world, later, answering, running.isActive, committed, renamed, exceeds⟩

/-- The directory of a commit to a file of one line of 256 MiB is moved among the completed ones, and every scan of the
control tree exceeds the recovery limit. -/
theorem longest_never_scanned : ∃ digest, plan Sample.setting.crates.sha256 Sample.sizes longest.snapshot longest.batch {} =
      .ok (longest.editPlan digest) ∧
    ∃ world later, (longest.job digest).Reaches Answering world ∧ Sample.transactionId ∈ world.control.transactions ∧
      world.LastIn .committed ∧ world.renameTerminal Sample.transactionId (completedName Sample.transactionId true) = .ok ((), later) ∧
      ∃ actual limit, scanControl Sample.setting.crates later.control {} =
        .error (.resourceLimitExceeded "recovery_bytes" actual limit) :=
  committed_never_scanned longest List.length_replicate

end Reading

end Srcmv.Fs
