import Srcmv.Soundness.JournalLimits

/-! # Reported visibility

A scan reports from the last record, or from the name of a completed directory, whether the targets
are all original or all planned. In every world a transaction can be in, that is what they are.
-/

namespace Srcmv.Fs

open Srcmv.Core Machine

variable {allowed : Site → Went → Prop} {job : Job} {world : World} {entries : NameMap RecoveryEntry} {id : String}
  {entry : RecoveryEntry}

/-- What the reported visibility promises. -/
def Job.Visible (job : Job) (world : World) (entry : RecoveryEntry) : Prop :=
  (entry.visibility = "all_original" → job.HoldsOriginal world) ∧ (entry.visibility = "all_planned" → job.HoldsPlanned world)

private theorem scanned_onlyActive {object : ControlObject} {children : NameMap Item}
    (only : OnlyActive world.control job.manifest.transactionId object children)
    (scanned : scanControl job.crates world.control {} = .ok entries) (found : entries[id]? = some entry) :
    id = job.manifest.transactionId ∧
      recoveryEntry job.crates world.control job.manifest.transactionId = .ok entry := by
  rcases scan_entry scanned found with ⟨directory, there, total, inspected⟩ | ⟨name, directory, there, -⟩
  · obtain rfl := only.active.single id (Std.ExtTreeMap.mem_iff_isSome_getElem?.mpr (by rw [there]; rfl))
    obtain rfl := Option.some.inj (there.symm.trans only.active.here)
    exact ⟨rfl, (recoveryEntry_eq_ok only).mpr ⟨total, inspected⟩⟩
  · rw [only.completed, Std.ExtTreeMap.getElem?_empty] at there
    cases there

/-- A running transaction is reported by its last record. -/
private theorem visible_running (sound : job.Sound) {config : Config} {phase : Phase}
    (running : job.Running allowed config phase world)
    (scanned : recoveryEntry job.crates world.control job.manifest.transactionId = .ok entry) : job.Visible world entry := by
  obtain ⟨last, global, rfl⟩ := running.scanned sound scanned
  have reported : (chainEntry job.manifest.transactionId last).visibility = visibilityForState phase.globalState := by
    rw [chainEntry, activeEntry, global]
  cases recorded : phase.globalState with
  | preparing | prepared | rolledBack =>
    rw [recorded] at reported
    exact ⟨fun _ => running.holdsOriginal sound (by simp [recorded]), fun other => absurd (reported.symm.trans other) (by decide)⟩
  | committing | rollingBack =>
    rw [recorded] at reported
    exact ⟨fun other => absurd (reported.symm.trans other) (by decide),
      fun other => absurd (reported.symm.trans other) (by decide)⟩
  | committed =>
    rw [recorded] at reported
    exact ⟨fun other => absurd (reported.symm.trans other) (by decide), fun _ => running.holdsPlanned sound recorded⟩

/-- A transaction that has ended is reported by the name of its directory. -/
private theorem visible_ended (sound : job.Sound) {committed : Bool} (ended : job.Ended committed world)
    (scanned : scanControl job.crates world.control {} = .ok entries) (found : entries[id]? = some entry) :
    entry.transactionId = job.manifest.transactionId ∧ job.Visible world entry := by
  have holds := ended.holds sound
  cases ended.left with
  | @directory object children only backups =>
    rw [only.scanControl_eq (parseCompletedName_completedName sound.valid.identifier committed)] at scanned
    obtain ⟨total, -, same⟩ := Except.bind_eq_ok.mp scanned
    obtain rfl := Except.ok.inj same
    rw [OrderedMap.getElem?_insert, Std.ExtTreeMap.getElem?_empty] at found
    split at found
    · obtain rfl := Option.some.inj found
      refine ⟨rfl, ?_⟩
      cases committed with
      | true =>
        have reported : (completedEntry job.manifest.transactionId
            (completedName job.manifest.transactionId true) "committed").visibility = "all_planned" := rfl
        exact ⟨fun other => absurd (reported.symm.trans other) (by decide), fun _ => holds⟩
      | false =>
        have reported : (completedEntry job.manifest.transactionId
            (completedName job.manifest.transactionId false) "rolledback").visibility = "all_original" := rfl
        exact ⟨fun _ => holds, fun other => absurd (reported.symm.trans other) (by decide)⟩
    · cases found
  | gone idle =>
    rw [idle.scanControl_eq] at scanned
    obtain rfl := Except.ok.inj scanned
    rw [Std.ExtTreeMap.getElem?_empty] at found
    cases found

/-- Whatever a scan reports of a transaction, in every world it can be in, holds of its targets. -/
theorem reported_visibility_sound (sound : job.Sound) (reaches : job.Reaches Crashing world)
    (scanned : scanControl job.crates world.control {} = .ok entries) (found : entries[id]? = some entry) :
    entry.transactionId = job.manifest.transactionId ∧
      (entry.visibility = "all_original" → job.HoldsOriginal world) ∧
      (entry.visibility = "all_planned" → job.HoldsPlanned world) := by
  rcases reaches.rests sound Crashing.sees with unrecorded | running | ended
  · obtain ⟨object, children, only, -⟩ := unrecorded.directory
    obtain ⟨rfl, scanned⟩ := scanned_onlyActive only scanned found
    have original := Job.holdsOriginal_of_files sound unrecorded.files
    rcases unrecorded.scanned scanned with rfl | rfl
    · have reported : (orphanEntry job.manifest.transactionId).visibility = "all_original" := rfl
      exact ⟨rfl, fun _ => original, fun other => absurd (reported.symm.trans other) (by decide)⟩
    · have reported : (manifestOnlyEntry job.manifest.transactionId).visibility = "all_original" := rfl
      exact ⟨rfl, fun _ => original, fun other => absurd (reported.symm.trans other) (by decide)⟩
  · obtain ⟨object, children, only, -⟩ := running.shows_.active
    obtain ⟨rfl, scanned⟩ := scanned_onlyActive only scanned found
    obtain ⟨last, -, rfl⟩ := running.scanned sound scanned
    exact ⟨rfl, visible_running sound running scanned⟩
  · exact visible_ended sound ended scanned found

/-- A stopped transaction is reported by its last record. -/
private theorem reported_running (sound : job.Sound) {config : Config} {phase : Phase} (running : job.Running allowed config phase world)
    (unbegun : config.temporary = none) : ∃ entries entry, scanControl job.crates world.control {} = .ok entries ∧
      entries[job.manifest.transactionId]? = some entry ∧ entry.visibility = visibilityForState phase.globalState := by
  obtain ⟨last, global, accepted⟩ := running.accepted sound unbegun
  obtain ⟨-, entries, scanned, found⟩ := recoveryEntry_scanned.mp accepted
  exact ⟨entries, _, scanned, found, congrArg visibilityForState global⟩

/-- The small transaction, reported when its candidates are recorded and when its commit is. -/
theorem reported_visibility_sound_small :
    (∃ world entries entry, Sample.job.Reaches Crashing world ∧ scanControl Sample.job.crates world.control {} = .ok entries ∧
      entries[Sample.transactionId]? = some entry ∧ entry.visibility = "all_original" ∧ Sample.job.HoldsOriginal world) ∧
    ∃ world entries entry, Sample.job.Reaches Crashing world ∧ scanControl Sample.job.crates world.control {} = .ok entries ∧
      entries[Sample.transactionId]? = some entry ∧ entry.visibility = "all_planned" ∧ Sample.job.HoldsPlanned world := by
  have sound := Sample.job_sound
  constructor
  · obtain ⟨world, config, reaches, unbegun, running⟩ := Sample.job_fresh.reaches_prepared sound
    have crashing := reaches.mono fun _ _ => CrashingBetweenRecords.crashing
    obtain ⟨entries, entry, scanned, found, visible⟩ := reported_running sound running unbegun
    exact ⟨world, entries, entry, crashing, scanned, found, visible,
      (reported_visibility_sound sound crashing scanned found).2.1 visible⟩
  · obtain ⟨world, config, reaches, unbegun, running⟩ := Sample.job_fresh.reaches_committed sound Sample.job_inputsHold
    have crashing := reaches.mono fun _ _ => CrashingBetweenRecords.crashing
    obtain ⟨entries, entry, scanned, found, visible⟩ := reported_running sound running unbegun
    exact ⟨world, entries, entry, crashing, scanned, found, visible,
      (reported_visibility_sound sound crashing scanned found).2.2 visible⟩

end Srcmv.Fs
