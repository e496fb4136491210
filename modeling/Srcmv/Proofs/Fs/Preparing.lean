import Srcmv.Proofs.Fs.Recording

/-! # Preparing the candidates

Candidates are created and recorded in target order. Whatever stops the preparation, the targets are
as the last recorded phase allows.
-/

namespace Srcmv.Fs

open Srcmv.Core Machine Process

variable {allowed : Site → Went → Prop} {rest : World → Prop} {job : Job} {config : Config} {world : World}
  {target : ManifestTarget} {ready : ℕ}

/-- The phase once this many candidates are recorded. -/
def Job.preparedTo (job : Job) (ready : ℕ) : Phase :=
  ⟨if ready = job.course.count then .prepared else .preparing, ready, 0, false, 0⟩

/-- This many candidates are staged and the other targets untouched. -/
structure Job.StagedTo (job : Job) (ready : ℕ) (config : Config) : Prop where
  staged : ∀ index < ready, ∃ mode, config.layout index = job.staged index mode
  untouched : ∀ index, ready ≤ index → config.layout index = job.untouched index

/-- The candidates recorded so far are on disk, and nothing else has changed. -/
structure Job.Preparing (job : Job) (ready : ℕ) (session : Session) (world : World) (config : Config) : Prop where
  shows_ : job.Shows config world
  unbegun : config.temporary = none
  follows : job.Follows session config.phases (job.preparedTo ready)
  staged : job.StagedTo ready config

private theorem preparedTo_begun (job : Job) (ready : ℕ) :
    (job.preparedTo ready).globalState = .preparing ∨ (job.preparedTo ready).globalState = .prepared := by
  rw [Job.preparedTo]
  split_ifs
  · exact .inr rfl
  · exact .inl rfl

private theorem allows_preparedTo {index : ℕ} {stage : Stage} : (job.preparedTo ready).Allows job.course index stage ↔
    (index < ready ∧ stage = .staged) ∨ (ready ≤ index ∧ (stage = .untouched ∨ index = ready ∧ stage = .partly)) := by
  unfold Phase.Allows
  rcases preparedTo_begun job ready with same | same <;> rw [same] <;> rfl

theorem Job.StagedTo.placed (staged : job.StagedTo ready config) : job.Placed config (job.preparedTo ready) := by
  intro index _
  rcases Nat.lt_or_ge index ready with before | after
  · exact ⟨.staged, allows_preparedTo.mpr (.inl ⟨before, rfl⟩), staged.staged index before⟩
  · exact ⟨.untouched, allows_preparedTo.mpr (.inr ⟨after, .inl rfl⟩), staged.untouched index after⟩

/-- A session with the candidates recorded so far is that of a running transaction. -/
theorem Job.Preparing.active {session : Session} (preparing : job.Preparing ready session world config) :
    job.Active (job.preparedTo ready) session config world :=
  ⟨preparing.shows_, preparing.unbegun, preparing.follows, preparing.staged.placed⟩

/-- While the next candidate is written. -/
theorem placed_writing (staged : job.StagedTo ready config) (count : ℕ) :
    job.Placed (config.lay ready (job.partly ready ((job.content ready).take count))) (job.preparedTo ready) := by
  intro index inside
  by_cases same : index = ready
  · subst same
    exact ⟨.partly, allows_preparedTo.mpr (.inr ⟨le_rfl, .inr ⟨rfl, rfl⟩⟩), count, Config.lay_layout_self _ _ _⟩
  · have kept := staged.placed index inside
    rwa [← Config.lay_layout_of_ne same] at kept

/-- Once it is written but not yet recorded, it is a candidate whose prefix is the whole. -/
theorem staged_eq_partly (index : ℕ) :
    job.staged index 0o600 = job.partly index ((job.content index).take (job.content index).length) := by
  rw [List.take_length]
  rfl

private theorem stagedTo_succ (staged : job.StagedTo ready config) :
    job.StagedTo (ready + 1) (config.lay ready (job.staged ready 0o600)) where
  staged index before := by
    by_cases same : index = ready
    · subst same
      exact ⟨0o600, Config.lay_layout_self _ _ _⟩
    · rw [Config.lay_layout_of_ne same]
      exact staged.staged index (by omega)
  untouched index after := by
    rw [Config.lay_layout_of_ne (by omega)]
    exact staged.untouched index (by omega)

theorem update_ready (more : ready < job.course.count) :
    updateTarget ready (fun target => { target with candidate := ⟨.ready, some (job.course.candidate ready)⟩ })
      ((job.preparedTo ready).targets job.course) = .ok ((job.preparedTo (ready + 1)).targets job.course) := by
  apply updateTarget_targets more
  · simp [Phase.target, Phase.candidate, Phase.commit, Phase.rollback, Phase.Restored, Job.preparedTo]
  · intro other inside different
    have position : other < ready + 1 ↔ other < ready := by omega
    have candidate : (job.preparedTo ready).candidate job.course other = (job.preparedTo (ready + 1)).candidate job.course other :=
      ite_congr (propext position.symm) (fun _ => rfl) fun _ => rfl
    rw [Phase.target, Phase.target, candidate]
    rfl

/-- The phase in which one more candidate is recorded. -/
theorem next_preparedTo (more : ready < job.course.count) : Next job.course (job.preparedTo ready) (job.preparedTo (ready + 1)) := by
  rw [Job.preparedTo, if_neg more.ne]
  exact .prepare more

/-- Nothing stands where the next candidate is created. -/
theorem Job.Preparing.free (sound : job.Sound) {session : Session} (here : job.manifest.targets[ready]? = some target)
    (preparing : job.Preparing ready session world config) :
    world.item? (.artifact job.manifest.transactionId target.candidateName) = none := by
  change world.item? (job.locationOf target .candidate) = none
  rw [preparing.shows_.item? sound here, preparing.staged.untouched ready le_rfl]
  rfl

/-- The next candidate with some bytes. -/
theorem Job.Preparing.placing (sound : job.Sound) {session : Session} (here : job.manifest.targets[ready]? = some target)
    (preparing : job.Preparing ready session world config) (bytes : Bytes) :
    job.Shows (config.lay ready (job.partly ready bytes))
      (world.place (.artifact job.manifest.transactionId target.candidateName)
        (some (writtenItem (job.setting.newIdentity target.candidateName) bytes))) := by
  have named := sound.valid.target ready target here
  have put := preparing.shows_.place sound here .candidate (some (writtenItem (job.setting.newIdentity target.candidateName) bytes))
  rw [Config.put_eq_lay, preparing.staged.untouched ready le_rfl, Job.untouched, update_layoutOf.2.1] at put
  rw [Job.partly, Job.candidateItem, ← named.candidateName]
  exact put

/-- Preparing one target. -/
theorem prepareTarget_triple (sound : job.Sound) {session : Session}
    (here : job.manifest.targets[ready]? = some target) (preparing : job.Preparing ready session world config)
    (leaves : job.Leaves allowed rest) :
    Triple allowed (· = world) (prepareTarget job.setting job.manifest job.snapshot session (target, ready))
      (Ends FsError.IsSystem (fun session' later => ∃ config', job.Preparing (ready + 1) session' later config') rest) := by
  have free := preparing.free sound here
  have placing := preparing.placing sound here
  obtain ⟨shows_, unbegun, follows, staged⟩ := preparing
  have more : ready < job.course.count := (List.getElem?_eq_some_iff.mp here).1
  have named := sound.valid.target ready target here
  have next := next_preparedTo more
  rw [prepareTarget]
  apply Triple.proceeds
  · apply (createCandidate_triple (sound.planned ready target here) (shows_.reaches target .candidate) free).weaken
    · exact fun _ _ finished => finished
    · rintro later ⟨disturbed, rfl | ⟨count, rfl⟩⟩
      · exact leaves disturbed config _ later (.of shows_ unbegun follows.path staged.placed)
      · exact leaves disturbed _ _ _ (.of (placing _) unbegun follows.path (placed_writing staged count))
  rintro identity later ⟨rfl, rfl⟩
  have written : job.Shows (config.lay ready (job.staged ready 0o600)) _ := placing (job.content ready)
  rw [named.candidateName, publishTargetTransition]
  have placed : job.Placed (config.lay ready (job.staged ready 0o600)) (job.preparedTo ready) := by
    rw [staged_eq_partly]
    exact placed_writing staged _
  have recorded := stagedTo_succ staged
  rw [named.candidateName] at written
  apply (publishNext_triple sound written unbegun follows next (update_ready more) placed recorded.placed
    leaves).weaken
  · rintro session' later ⟨follows', published⟩
    exact ⟨_, published, rfl, follows', recorded.staged, recorded.untouched⟩
  · exact fun _ stopped => stopped

/-- Preparing every target. -/
theorem prepareTargets_triple (sound : job.Sound) {session : Session}
    (preparing : job.Preparing 0 session world config) (leaves : job.Leaves allowed rest) :
    Triple allowed (· = world)
      (job.manifest.targets.zipIdx.foldlM (prepareTarget job.setting job.manifest job.snapshot) session)
      (Ends FsError.IsSystem (fun session' later => ∃ config', job.Preparing job.course.count session' later config') rest) := by
  apply overTargets_triple job.manifest (fun count session' later => ∃ config', job.Preparing count session' later config') _
    ⟨config, preparing⟩
  rintro index target here session' later ⟨config', preparing'⟩
  exact prepareTarget_triple sound here preparing' leaves

end Srcmv.Fs
