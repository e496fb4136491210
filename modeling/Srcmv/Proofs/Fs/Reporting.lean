import Srcmv.Proofs.Fs.Resting

/-! # What a commit reports

The phases that lead to the end of a commit are determined by their last one, so it is known before a
commit begins how large its directory will be. A commit that is done has installed every candidate. One
that fails while its directory is active is rolled back, or says that a recovery is required; one that
fails later has installed every candidate all the same.
-/

namespace Srcmv.Fs

open Srcmv.Core Machine Process

section Forward

variable {course : Course} {before other after : Phase}

/-- The phase before a phase of a commit. -/
def Phase.previous (course : Course) (phase : Phase) : Phase :=
  match phase.globalState with
  | .committed => { phase with globalState := .committing }
  | .committing =>
      if phase.backedUp then { phase with backedUp := false }
      else if phase.installed = 0 then { phase with globalState := .prepared }
      else { phase with installed := phase.installed - 1, backedUp := course.existed (phase.installed - 1) }
  | _ => { phase with globalState := .preparing, ready := phase.ready - 1 }

theorem Next.eq_previous (next : Next course before after) (forward : after.globalState.isRollback = false) :
    before = after.previous course := by
  cases next with
  | @prepare ready more =>
    rw [Phase.previous]
    by_cases last : ready + 1 = course.count
    · simp only [if_pos last, Nat.add_sub_cancel]
    · simp only [if_neg last, Nat.add_sub_cancel]
  | beginCommit => rfl
  | backUp more existed => rfl
  | @install installed more => simp [Phase.previous]
  | commit => rfl
  | beginRollback unfinished => cases forward
  | restore more => cases forward
  | rollBack => cases forward

theorem Next.forward (next : Next course before after) (forward : after.globalState.isRollback = false) :
    before.globalState.isRollback = false := by
  cases next with
  | beginRollback unfinished => cases forward
  | restore more => cases forward
  | rollBack => cases forward
  | _ => rfl

/-- Only one path leads to a phase that is not rolled back. -/
theorem Path.unique {phases others : List Phase} {phase : Phase} (path : Path course phases phase)
    (second : Path course others phase) (forward : phase.globalState.isRollback = false) : phases = others := by
  induction path generalizing others with
  | start =>
    cases second with
    | start => rfl
    | next _ next => exact absurd next.rank_lt (Nat.not_lt_zero _)
  | @next phases before after path next ih =>
    cases second with
    | start => exact absurd next.rank_lt (Nat.not_lt_zero _)
    | @next others before' after' second next' =>
      have same : before' = before := (next'.eq_previous forward).trans (next.eq_previous forward).symm
      subst same
      rw [ih second (next.forward forward)]

/-- A path prepares every target. -/
private theorem exists_path_prepared (positive : 0 < course.count) (ready : ℕ) (within : ready ≤ course.count) :
    ∃ phases, Path course phases ⟨if ready = course.count then .prepared else .preparing, ready, 0, false, 0⟩ := by
  induction ready with
  | zero =>
    rw [if_neg positive.ne]
    exact ⟨_, .start⟩
  | succ ready ih =>
    obtain ⟨phases, path⟩ := ih (by omega)
    rw [if_neg (by omega)] at path
    exact ⟨_, path.next (.prepare within)⟩

/-- A path installs every target. -/
private theorem exists_path_installed (positive : 0 < course.count) (installed : ℕ) (within : installed ≤ course.count) :
    ∃ phases, Path course phases ⟨.committing, course.count, installed, false, 0⟩ := by
  induction installed with
  | zero =>
    obtain ⟨phases, path⟩ := exists_path_prepared positive course.count le_rfl
    rw [if_pos rfl] at path
    exact ⟨_, path.next .beginCommit⟩
  | succ installed ih =>
    obtain ⟨phases, path⟩ := ih (by omega)
    cases existed : course.existed installed with
    | false =>
      rw [← existed] at path
      exact ⟨_, path.next (.install within)⟩
    | true =>
      have backedUp := path.next (.backUp within existed)
      rw [← existed] at backedUp
      exact ⟨_, backedUp.next (.install within)⟩

/-- A path leads to the end of a commit. -/
theorem exists_path_committed (positive : 0 < course.count) :
    ∃ phases, Path course phases ⟨.committed, course.count, course.count, false, 0⟩ := by
  obtain ⟨phases, path⟩ := exists_path_installed positive course.count le_rfl
  exact ⟨_, path.next .commit⟩

/-- Whether a transaction completes can be read off any path to its end. -/
theorem Job.completes_iff {job : Job} {phases : List Phase} (path : Path job.course phases job.committedPhase) :
    job.Completes ↔ job.Fits true phases := by
  constructor
  · rintro ⟨others, second, fits⟩
    rwa [second.unique path rfl] at fits
  · exact fun fits => ⟨phases, path, fits⟩

end Forward

/-- Candidates are new files, hence an installed transaction has changed the workspace. -/
theorem Job.Sound.plannedFiles_ne {job : Job} (sound : job.Sound) : job.plannedFiles ≠ job.base := by
  intro same
  have first : 0 < job.manifest.targets.length := Nat.pos_of_ne_zero sound.valid.nonempty
  have here : job.manifest.targets[0]? = some job.manifest.targets[0] := List.getElem?_eq_getElem first
  have installed : job.plannedFiles job.manifest.targets[0].path =
      some (job.candidateItem 0 (job.finalMode 0) (job.content 0)) := by
    rw [Job.plannedFiles, Job.filesOf_target sound here]
    rfl
  rw [same, sound.base 0 _ here, Job.originalItem] at installed
  obtain ⟨node, original, isFile⟩ := Option.map_eq_some_iff.mp installed
  have candidate := Item.file.inj isFile
  exact sound.distinct 0 node original (congrArg Node.identity candidate).symm

variable {allowed : Site → Went → Prop} {job : Job} {world : World}

/-- The directory of the transaction is still active. -/
def Job.Underway (job : Job) (allowed : Site → Went → Prop) (world : World) : Prop :=
  job.Unrecorded allowed world ∨ ∃ config phase, job.Running allowed config phase world

theorem Job.Underway.rests (underway : job.Underway allowed world) : job.Rests allowed world := by
  rcases underway with unrecorded | ⟨config, phase, running⟩
  · exact .unrecorded unrecorded
  · exact .running running

theorem Job.Underway.present (underway : job.Underway allowed world) :
    (world.control.transactions[job.manifest.transactionId]?).isSome = true := by
  rcases underway with unrecorded | ⟨config, phase, running⟩
  · obtain ⟨object, children, only, -⟩ := unrecorded.directory
    rw [only.active.here]
    rfl
  · obtain ⟨object, children, only, -⟩ := running.shows_.active
    rw [only.active.here]
    rfl

theorem Job.Ended.gone {committed : Bool} (ended : job.Ended committed world) :
    (world.control.transactions[job.manifest.transactionId]?).isSome = false := by
  rw [ended.left.inactive, Std.ExtTreeMap.getElem?_empty]
  rfl

/-- What can keep a transaction from its end: the environment, or recorded inputs that do not hold any more. -/
def Job.Hindered (job : Job) (allowed : Site → Went → Prop) : Prop := Disturbed allowed ∨ ¬job.InputsHold

/-- Why a commit reports an error although every candidate is installed: a step after the move of the directory
failed, or the files of the directory do not fit the recovery limit. -/
def Job.LateError (job : Job) (allowed : Site → Went → Prop) (error : FsError) : Prop :=
  (error.IsIo ∧ ∃ operation, allowed (.terminal true operation) .failed) ∨ ¬job.Completes ∧ error.IsRecoveryLimit

section Execution

/-- How the execution of a new transaction ends. -/
def Job.Executing (job : Job) (allowed : Site → Went → Prop) : Ending World FsError CommitOutcome where
  done outcome later := job.Completes ∧ job.Concluded true later ∧
    outcome.changedPaths = job.manifest.targets.map ManifestTarget.path
  failed error later := (job.Hindered allowed ∧ job.Underway allowed later) ∨ job.Ended true later ∧ job.LateError allowed error
  crashed := job.Rests allowed

theorem executeNewTransaction_reports (sound : job.Sound) (fresh : job.Fresh world) :
    Triple allowed (· = world)
      (executeNewTransaction job.setting job.manifest job.manifest.transactionId job.snapshot) (job.Executing allowed) := by
  have leaves : job.Leaves allowed fun later => job.Hindered allowed ∧ job.Underway allowed later :=
    fun disturbed config phase later running => ⟨.inl disturbed, .inr ⟨config, phase, running⟩⟩
  apply executeNewTransaction_ends sound leaves _ _ _ fresh
  · exact fun disturbed later unrecorded => ⟨.inl disturbed, .inl unrecorded⟩
  · exact fun changed config phase later running => ⟨.inr changed, .inr ⟨config, phase, running⟩⟩
  · exact ⟨fun _ _ stopped => .inl stopped, fun _ stopped => stopped.2.rests⟩
  · intro session config later active
    have path := active.follows.path
    have finishes := @finishTransaction_ends allowed job config later job.committedPhase session true sound active rfl
    apply Triple.bind (fun _ after => job.Completes ∧ job.Concluded true after)
    · apply finishes.mono
      · exact fun _ same => same
      · rintro _ after ⟨fits, concluded⟩
        exact ⟨(Job.completes_iff path).mpr fits, concluded⟩
      · rintro error after (⟨disturbed, rfl⟩ | ⟨ended, failed | ⟨large, limit⟩⟩)
        · exact .inl ⟨.inl disturbed, .inr ⟨config, _, active.running⟩⟩
        · exact .inr ⟨ended, .inl failed⟩
        · exact .inr ⟨ended, .inr ⟨fun completes => large ((Job.completes_iff path).mp completes), limit⟩⟩
      · rintro after ⟨-, rfl | ended⟩
        · exact .running active.running
        · exact .ended ended
    · exact fun _ => Triple.pure fun _ finished => ⟨finished.1, finished.2, rfl⟩

end Execution

section Reports

/-- What holds when a commit reports an error. -/
inductive Job.Reports (job : Job) (allowed : Site → Went → Prop) : FsError → World → Prop where
  | recoveryRequired {later : World} (hindered : job.Hindered allowed) (rests : job.Rests allowed later) :
      Reports job allowed (.transactionRecoveryRequired [job.manifest.transactionId]) later
  | rolledBack {error : FsError} {later : World} (hindered : job.Hindered allowed) (ended : job.Ended false later) :
      Reports job allowed error later
  | committed {error : FsError} {later : World} (ended : job.Ended true later) (late : job.LateError allowed error) :
      Reports job allowed error later

variable (sound : job.Sound) (sees : ∀ subject, ¬allowed (.existence subject) .failed)

include sound sees in
/-- A failed execution is rolled back while its directory is active. -/
private theorem rollBackFailed_reports (original : FsError) (hindered : job.Hindered allowed) (underway : job.Underway allowed world) :
    Triple allowed (· = world) (rollBackFailed job.setting job.manifest.transactionId original)
      ⟨fun _ _ => False, job.Reports allowed, job.Rests allowed⟩ := by
  rw [rollBackFailed]
  have answers : Triple allowed (· = world) (Process.probe (.existence "active") fun world =>
      (world.control.transactions[job.manifest.transactionId]?).isSome : Engine Bool)
      ⟨fun remains later => remains = true ∧ later = world, job.Reports allowed, job.Rests allowed⟩ := by
    apply Triple.probe
    · rintro - _ rfl
      exact underway.rests
    · exact fun permitted => absurd permitted (sees _)
    · rintro _ rfl
      exact ⟨underway.present, rfl⟩
  refine Triple.bind _ answers fun remains => Triple.fact ?_
  rintro rfl
  rw [if_pos rfl]
  refine Triple.bind (fun failed later => if failed = true then job.Rests allowed later else job.Ended false later) ?_ fun failed => ?_
  · rw [automaticRollback]
    have recovers : Triple allowed (· = world) (recoverLocked job.setting job.manifest.transactionId .rollback)
        (Ends (fun _ => True) (fun _ => job.Ended false) (job.Rests allowed)) :=
      (Job.Rests.recover_triple sound sees .rollback).mono (fun _ same => same ▸ underway.rests) (fun _ _ ended => ended)
        (fun _ _ stopped => stopped) fun _ stopped => stopped
    refine Triple.bind _ recovers.handsOver fun result => ?_
    cases result with
    | ok outcome => exact Triple.pure fun _ ended => ended
    | error failure => exact Triple.pure fun _ stopped => stopped.2
  · cases failed with
    | true => exact Triple.refuse fun _ rests => .recoveryRequired hindered rests
    | false => exact Triple.refuse fun _ ended => .rolledBack hindered ended

include sound sees in
/-- What a commit has done, whether it is done or reports an error. -/
theorem Job.Fresh.commit_reports (fresh : job.Fresh world) : Triple allowed (· = world)
    (commitManifest job.setting job.manifest job.snapshot)
    ⟨(job.Executing allowed).done, job.Reports allowed, job.Rests allowed⟩ := by
  rw [commitManifest]
  refine Triple.bind _ (executeNewTransaction_reports sound fresh).handsOver fun result => ?_
  cases result with
  | ok outcome => exact Triple.pure fun _ finished => finished
  | error original =>
    dsimp only
    refine Triple.pointwise fun later stopped => ?_
    rcases stopped with ⟨hindered, underway⟩ | ⟨ended, late⟩
    · exact (rollBackFailed_reports sound sees original hindered underway).mono (fun _ same => same)
        (fun _ _ impossible => impossible.elim) (fun _ _ reports => reports) fun _ rests => rests
    · rw [rollBackFailed]
      have answers : Triple allowed (· = later) (Process.probe (.existence "active") fun world =>
          (world.control.transactions[job.manifest.transactionId]?).isSome : Engine Bool)
          ⟨fun remains after => remains = false ∧ after = later, job.Reports allowed, job.Rests allowed⟩ := by
        apply Triple.probe
        · rintro - _ rfl
          exact .ended ended
        · rintro - _ rfl
          exact ⟨rfl, rfl⟩
        · rintro _ rfl
          exact ⟨ended.gone, rfl⟩
      refine Triple.bind _ answers fun remains => Triple.fact ?_
      rintro rfl
      refine Triple.bind (fun failed after => failed = false ∧ after = later) (Triple.pure fun _ same => ⟨rfl, same⟩) fun failed =>
        Triple.fact ?_
      rintro rfl
      exact Triple.refuse fun _ same => same ▸ .committed ended late

end Reports

end Srcmv.Fs
