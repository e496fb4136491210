import Srcmv.Proofs.Fs.PlannedJob
import Srcmv.Proofs.Fs.Stopping

/-! # The journal never runs out

Along every history of a transaction at most `4n + 4` state records are published for its `n` targets,
and none is refused before its publication.
-/

namespace Srcmv.Fs

open Srcmv.Core Machine

section Journal

variable {allowed : Site → Went → Prop} {job : Job} {world : World}

private theorem chain_short (sound : job.Sound) {phases : List Phase} {phase : Phase} (path : Path job.course phases phase) :
    (job.chain phases).length ≤ 4 * job.manifest.targets.length + 4 := by
  rw [Job.chain, length_chainOf]
  exact path.length_le sound.course_of.positive

/-- Few records are published, and none was refused. -/
theorem Job.Rests.journal (sound : job.Sound) (rests : job.Rests allowed world) :
    world.published.length ≤ 4 * job.manifest.targets.length + 4 ∧ world.refusals = [] := by
  have none : world.published = [] → world.published.length ≤ 4 * job.manifest.targets.length + 4 := by
    intro empty
    rw [empty]
    exact Nat.zero_le _
  rcases rests with unrecorded | running | ended
  · exact ⟨none unrecorded.published, unrecorded.refusals⟩
  · rw [running.shows_.published]
    exact ⟨chain_short sound running.path, running.shows_.refusals⟩
  · refine ⟨?_, ended.refusals⟩
    rcases ended.published with ⟨-, empty⟩ | ⟨phases, phase, path, -, published⟩
    · exact none empty
    · rw [published]
      exact chain_short sound path

/-- Whatever commit, complete, rollback and cleanup do to a transaction, and wherever they crash. -/
theorem journal_never_strands (sound : job.Sound) (reaches : job.Reaches Crashing world) :
    world.published.length ≤ 4 * job.manifest.targets.length + 4 ∧ world.refusals = [] :=
  (reaches.rests sound Crashing.sees).journal sound

end Journal

/-! ## The small transaction as a job

What the caller and the filesystem promise of it, from the world in which its directory was just created.
-/

namespace Sample

def job : Job := plannedJob setting world snapshot editPlan manifest

theorem job_planned : PlannedFrom setting world snapshot editPlan manifest 0o644 :=
  ⟨⟨requirements, acquired⟩, ⟨sizes, batch, planned⟩, ⟨transactionId, built⟩⟩

theorem files_source {path : String} {node : Node} (stands : files path = some (.file node)) : node = sourceNode := by
  unfold files at stands
  split_ifs at stands
  cases stands
  rfl

theorem job_sound : job.Sound := by
  apply job_planned.sound manifest_encodes
  intro path node name stands
  rw [files_source stands]
  show (⟨1, 99⟩ : FileIdentity) ≠ ⟨1, 3⟩
  decide

theorem job_fresh : job.Fresh world := ⟨rfl, ⟨directory, onlyActive⟩, rfl, rfl, rfl⟩

theorem job_inputsHold : job.InputsHold := by
  unfold Job.InputsHold
  decide +kernel

/-- The state that opens the journal. -/
def firstState : StateSnapshot := stateAfter setting.crates manifest job.course [] Phase.start

theorem firstState_sound : SoundChain setting.crates manifest [firstState] :=
  SoundChain.nil.extend (start_extends job_sound.course_of)

end Sample

/-- The journal of the small transaction when its commit is recorded. -/
theorem journal_never_strands_committed : ∃ world, Sample.job.Reaches Crashing world ∧ world.LastIn .committed ∧
    world.published.length ≤ 12 ∧ world.refusals = [] := by
  obtain ⟨world, config, reaches, -, running⟩ := Sample.job_fresh.reaches_committed Sample.job_sound Sample.job_inputsHold
  have crashing := reaches.mono fun _ _ => CrashingBetweenRecords.crashing
  exact ⟨world, crashing, running.lastIn, journal_never_strands Sample.job_sound crashing⟩

end Srcmv.Fs
