import Srcmv.Proofs.Fs.Stopping
import Srcmv.Soundness.JournalLimits

/-! # Rolling a stopped transaction back

From every world a prepared transaction can be stopped in, an uninterrupted rollback restores the
originals. Before every candidate is recorded it does so too, unless an earlier rollback stopped after
recording its beginning and before removing the candidate that was not recorded yet.
-/

namespace Srcmv.Fs

open Srcmv.Core Machine Process

variable {job : Job} {world : World}

/-- Every rollback after the preparation succeeds. -/
theorem rollback_after_prepared (sound : job.Sound) (reaches : job.Reaches CrashingBetweenRecords world)
    (prepared : ∃ state ∈ world.published, state.globalState = .prepared)
    (last : world.LastIn .prepared ∨ world.LastIn .committing ∨ world.LastIn .rollingBack) :
    ∃ later, (recoverLocked job.setting job.manifest.transactionId .rollback).run Oracle.calm ⟨world, []⟩ =
        (.done ⟨job.manifest.transactionId, "rolled_back"⟩, later) ∧
      job.HoldsOriginal later.world ∧ Idle later.world.control ∧ later.world.LastIn .rolledBack := by
  rcases reaches.rests sound CrashingBetweenRecords.sees with unrecorded | @⟨config, phase, running⟩ | @⟨committed, ended⟩
  · obtain ⟨state, member, -⟩ := prepared
    rw [unrecorded.published] at member
    cases member
  · have unbegun := running.unbegun CrashingBetweenRecords.untorn
    obtain ⟨final, published, global, -⟩ := running.last
    have all : phase.ready = job.course.count := (running.prepared_iff sound).mp prepared
    have recoverable : job.Recoverable config phase := by
      intro index target here
      have inside : index < job.course.count := (List.getElem?_eq_some_iff.mp here).1
      obtain ⟨stage, allows, lies⟩ := running.placed index inside
      refine ⟨stage, allows, lies, ?_⟩
      rintro begun rfl
      rw [Phase.Allows, begun] at allows
      rcases allows with impossible | ⟨-, ⟨-, impossible⟩ | ⟨same, -⟩⟩
      · cases impossible
      · simp at impossible
      · omega
    have uncommitted : phase.globalState ≠ .committed := by
      intro committed
      rcases last with ⟨other, found, state⟩ | ⟨other, found, state⟩ | ⟨other, found, state⟩
      · rw [← Option.some.inj (published.symm.trans found), global, committed] at state
        cases state
      · rw [← Option.some.inj (published.symm.trans found), global, committed] at state
        cases state
      · rw [← Option.some.inj (published.symm.trans found), global, committed] at state
        cases state
    obtain ⟨later, ran, concluded⟩ := running.rollsBack sound unbegun recoverable uncommitted
    exact ⟨later, ran, concluded.ended.holds sound, concluded.idle, concluded.lastIn⟩
  · exfalso
    rcases ended.published with ⟨-, empty⟩ | recorded
    · obtain ⟨state, member, -⟩ := prepared
      rw [empty] at member
      cases member
    · obtain ⟨final, published, global⟩ := recorded.lastIn
      rcases last with ⟨other, found, state⟩ | ⟨other, found, state⟩ | ⟨other, found, state⟩
      · rw [← Option.some.inj (published.symm.trans found), global] at state
        cases committed <;> cases state
      · rw [← Option.some.inj (published.symm.trans found), global] at state
        cases committed <;> cases state
      · rw [← Option.some.inj (published.symm.trans found), global] at state
        cases committed <;> cases state

/-- The small transaction, stopped when its candidates are recorded. -/
theorem rollback_after_prepared_small : ∃ world, Sample.job.Reaches CrashingBetweenRecords world ∧ world.LastIn .prepared ∧
    ∃ later, (recoverLocked Sample.job.setting Sample.job.manifest.transactionId .rollback).run Oracle.calm ⟨world, []⟩ =
        (.done ⟨Sample.job.manifest.transactionId, "rolled_back"⟩, later) ∧
      Sample.job.HoldsOriginal later.world ∧ Idle later.world.control ∧ later.world.LastIn .rolledBack := by
  obtain ⟨world, config, reaches, -, running⟩ := Sample.job_fresh.reaches_prepared Sample.job_sound
  have prepared := (running.prepared_iff Sample.job_sound).mpr rfl
  exact ⟨world, reaches, running.lastIn,
    rollback_after_prepared Sample.job_sound reaches prepared (.inl running.lastIn)⟩

/-- Before every candidate is recorded, a rollback succeeds exactly when no candidate is in its way. -/
theorem preparation_rolls_back_iff (sound : job.Sound) (reaches : job.Reaches CrashingBetweenRecords world)
    (active : job.manifest.transactionId ∈ world.control.transactions)
    (unprepared : ∀ state ∈ world.published, state.globalState ≠ .prepared) :
    job.RollsBack world ↔ ¬job.CandidateInTheWay world := by
  rcases (reaches.rests sound CrashingBetweenRecords.sees).active active with unrecorded | ⟨config, phase, running⟩
  · refine iff_of_true (unrecorded.rollsBack sound CrashingBetweenRecords.untorn) ?_
    rintro ⟨last, -, -, -, found, -⟩
    rw [unrecorded.published] at found
    cases found
  · have unbegun := running.unbegun CrashingBetweenRecords.untorn
    rw [← running.recoverable_iff sound]
    constructor
    · intro rolls
      by_contra blocked
      exact running.stuck sound unbegun blocked rolls
    · intro recoverable
      have uncommitted : phase.globalState ≠ .committed := by
        intro committed
        have ready := ((running.path.good sound.course_of.positive).committed committed).1
        obtain ⟨state, member, prepared⟩ := (running.prepared_iff sound).mpr ready
        exact unprepared state member prepared
      obtain ⟨later, ran, concluded⟩ := running.rollsBack sound unbegun recoverable uncommitted
      exact ⟨later, ran, concluded.ended.holds sound, concluded.idle, .inr concluded.lastIn⟩

/-- The commit stops when its first candidate is written and not yet recorded: this candidate is no obstacle
to a rollback. -/
theorem preparation_rolls_back_staged : ∃ world, Sample.job.Reaches CrashingBetweenRecords world ∧
    world.LastIn .preparing ∧
    (∃ target, Sample.job.manifest.targets[0]? = some target ∧
      world.item? (Sample.job.locationOf target .candidate) ≠ none) ∧ Sample.job.RollsBack world := by
  have sound := Sample.job_sound
  obtain ⟨last, site, config, target, crashes, stops, here, running, unbegun, layout⟩ := Sample.job_fresh.stops_staged sound
  have reaches : Sample.job.Reaches CrashingBetweenRecords last.world :=
    .commit Sample.job_fresh (stops.leads CrashingBetweenRecords.of_calmly crashes)
  have preparing : last.world.LastIn .preparing := running.lastIn
  refine ⟨last.world, reaches, preparing, ⟨target, here, ?_⟩, ?_⟩
  · rw [running.shows_.item? sound here, layout]
    simp [Job.staged]
  · apply (preparation_rolls_back_iff sound reaches running.isActive fun state member prepared => ?_).mpr
    · rintro ⟨state, -, -, -, published, rolling, -⟩
      obtain ⟨other, found, global⟩ := preparing
      rw [Option.some.inj (published.symm.trans found), global] at rolling
      cases rolling
    · exact absurd ((running.prepared_iff sound).mp ⟨state, member, prepared⟩) sound.course_of.positive.ne

/-- The commit stops when its first candidate is written and not yet recorded, the rollback stops when its
beginning is recorded, and no further rollback is done. -/
theorem preparation_rollback_stuck : ∃ crashed stopped,
    Leads CrashingBetweenRecords (commitManifest Sample.setting Sample.manifest Sample.snapshot) Sample.world crashed ∧
    Leads CrashingBetweenRecords (recoverLocked Sample.setting Sample.transactionId .rollback) crashed stopped ∧
    (∀ state ∈ stopped.published, state.globalState ≠ .prepared) ∧ stopped.LastIn .rollingBack ∧
    ¬Sample.job.RollsBack stopped := by
  have sound := Sample.job_sound
  obtain ⟨last, site, config, target, crashes, stops, here, running, unbegun, layout⟩ := Sample.job_fresh.stops_staged sound
  have more : 0 < Sample.job.course.count := sound.course_of.positive
  have starting : Sample.job.preparedTo 0 = ⟨.preparing, 0, 0, false, 0⟩ := by rw [Job.preparedTo, if_neg more.ne]
  rw [starting] at running
  obtain ⟨final, site', crashes', stops', begun⟩ := running.stops_begun sound unbegun (.inl rfl)
  refine ⟨last.world, final.world, stops.leads CrashingBetweenRecords.of_calmly crashes,
    stops'.leads CrashingBetweenRecords.of_calmly crashes', ?_, begun.lastIn, begun.stuck sound rfl ?_⟩
  · intro state member prepared
    have ready := (begun.prepared_iff sound).mp ⟨state, member, prepared⟩
    exact more.ne ready
  · intro recoverable
    obtain ⟨stage, allows, lies, whole⟩ := recoverable 0 target here
    have full : config.layout 0 .candidate ≠ none := by
      rw [layout]
      simp [Job.staged]
    have notPartly := whole rfl
    rcases allows with rfl | ⟨-, ⟨ready, -⟩ | ⟨-, rfl⟩⟩
    · exact full (by rw [show config.layout 0 = Sample.job.untouched 0 from lies]; rfl)
    · exact absurd ready (Nat.not_lt_zero _)
    · exact notPartly rfl

end Srcmv.Fs
