import Srcmv.Proofs.Fs.Recording

/-! # Installing the candidates

A target that is not installed yet has its original backed up, its candidate given the final mode and
moved to the target's path. The targets before the next one are installed, the ones after it staged;
whatever stops the commit, the next target is where its recorded progress allows it to be.
-/

namespace Srcmv.Fs

open Srcmv.Core Machine Process

variable {allowed : Site → Went → Prop} {rest : World → Prop} {job : Job} {config : Config} {world : World}
  {target : ManifestTarget} {session : Session} {installed : ℕ} {backedUp : Bool}

/-- The phase with this many targets installed. -/
def Job.committingAt (job : Job) (installed : ℕ) (backedUp : Bool) : Phase :=
  ⟨.committing, job.course.count, installed, backedUp, 0⟩

private theorem commit_next_backedUp : (job.committingAt installed true).commit job.course installed =
    ⟨.backedUp, some (job.course.original installed), some (job.course.mode installed)⟩ := Phase.commit_backedUp rfl rfl

private theorem commit_next_untouched :
    (job.committingAt installed false).commit job.course installed = ⟨.untouched, none, none⟩ :=
  Phase.commit_untouched le_rfl fun _ => rfl

/-- A transaction that is committing, whatever became of the next target. -/
structure Job.Committing (job : Job) (installed : ℕ) (backedUp : Bool) (session : Session) (config : Config)
    (world : World) : Prop where
  shows_ : job.Shows config world
  unbegun : config.temporary = none
  follows : job.Follows session config.phases (job.committingAt installed backedUp)
  before : ∀ index < installed, config.layout index = job.installed index
  after : ∀ index < job.course.count, installed < index → ∃ mode, config.layout index = job.staged index mode

/-- At least this many targets are recorded as installed. -/
structure Job.InstalledTo (job : Job) (count : ℕ) (session : Session) (world : World) : Prop where
  committing : ∃ config installed backedUp, job.Committing installed backedUp session config world ∧
    job.Placed config (job.committingAt installed backedUp) ∧ count ≤ installed

private theorem allows_next {stage : Stage} :
    (job.committingAt installed backedUp).Allows job.course installed stage ↔
      if job.course.existed installed then
        if backedUp then stage = .backedUp ∨ stage = .installed else stage = .staged ∨ stage = .backedUp
      else stage = .staged ∨ stage = .installed := by
  cases existed : job.course.existed installed <;> cases backedUp <;> simp [Phase.Allows, Job.committingAt, existed]

namespace Job.Committing

/-- The next target has moved. -/
theorem lay (committing : job.Committing installed backedUp session config world) {layout : Layout} {later : World}
    (moved : job.Shows (config.lay installed layout) later) :
    job.Committing installed backedUp session (config.lay installed layout) later where
  shows_ := moved
  unbegun := committing.unbegun
  follows := committing.follows
  before index earlier := by
    rw [Config.lay_layout_of_ne earlier.ne]
    exact committing.before index earlier
  after index inside beyond := by
    rw [Config.lay_layout_of_ne beyond.ne']
    exact committing.after index inside beyond

theorem placed (committing : job.Committing installed backedUp session config world)
    (next : installed < job.course.count → job.Admits (job.committingAt installed backedUp) installed (config.layout installed)) :
    job.Placed config (job.committingAt installed backedUp) := by
  intro index inside
  rcases Nat.lt_trichotomy index installed with earlier | rfl | beyond
  · exact ⟨.installed, .inl ⟨earlier, rfl⟩, committing.before index earlier⟩
  · exact next inside
  · exact ⟨.staged, .inr (.inl ⟨beyond, rfl⟩), committing.after index inside beyond⟩

/-- What the recorded progress says of every target. -/
theorem of_placed (shows_ : job.Shows config world) (unbegun : config.temporary = none)
    (follows : job.Follows session config.phases (job.committingAt installed backedUp))
    (bounded : installed ≤ job.course.count) (placed : job.Placed config (job.committingAt installed backedUp)) :
    job.Committing installed backedUp session config world where
  shows_ := shows_
  unbegun := unbegun
  follows := follows
  before index earlier := by
    obtain ⟨stage, allows, lies⟩ := placed index (earlier.trans_le bounded)
    rcases allows with ⟨-, rfl⟩ | ⟨beyond, -⟩ | ⟨same, -⟩
    · exact lies
    · exact absurd beyond (not_lt.mpr earlier.le)
    · exact absurd same earlier.ne
  after index inside beyond := by
    obtain ⟨stage, allows, lies⟩ := placed index inside
    rcases allows with ⟨earlier, -⟩ | ⟨-, rfl⟩ | ⟨same, -⟩
    · exact absurd beyond (not_lt.mpr earlier.le)
    · exact lies
    · exact absurd same beyond.ne'

theorem running (committing : job.Committing installed backedUp session config world) {stage : Stage}
    (allows : (job.committingAt installed backedUp).Allows job.course installed stage)
    (lies : job.Lies installed (config.layout installed) stage) :
    job.Running allowed config (job.committingAt installed backedUp) world :=
  .of committing.shows_ committing.unbegun committing.follows.path (committing.placed fun _ => ⟨stage, allows, lies⟩)

end Job.Committing

/-! ## Recording progress -/

private theorem update_installed (more : installed < job.course.count) :
    updateTarget installed (fun target => { target with commit :=
        { target.commit with kind := .installed, identity := some (job.course.candidate installed) } })
      ((job.committingAt installed (job.course.existed installed)).targets job.course) =
        .ok ((job.committingAt (installed + 1) false).targets job.course) := by
  apply updateTarget_targets more
  · have before : ((job.committingAt installed (job.course.existed installed)).commit job.course installed).preservedMode =
        if job.course.existed installed then some (job.course.mode installed) else none := by
      cases existed : job.course.existed installed with
      | true => rw [commit_next_backedUp]; rfl
      | false => rw [commit_next_untouched]; rfl
    have after : (job.committingAt (installed + 1) false).commit job.course installed =
        ⟨.installed, some (job.course.candidate installed),
          if job.course.existed installed then some (job.course.mode installed) else none⟩ :=
      Phase.commit_of_lt (Nat.lt_succ_self installed)
    rw [Phase.target, Phase.target, after, ← before]
    rfl
  · intro other _ different
    have commit : (job.committingAt installed (job.course.existed installed)).commit job.course other =
        (job.committingAt (installed + 1) false).commit job.course other := by
      rcases Nat.lt_or_gt_of_ne different with earlier | beyond
      · rw [Phase.commit_of_lt earlier, Phase.commit_of_lt (Nat.lt_succ_of_lt earlier)]
      · rw [Phase.commit_untouched beyond.le fun same => absurd same different,
          Phase.commit_untouched (Nat.succ_le_of_lt beyond) fun _ => rfl]
    rw [Phase.target, Phase.target, commit]
    rfl

private theorem update_backedUp (more : installed < job.course.count) :
    updateTarget installed (fun state => { state with commit :=
        ⟨.backedUp, some (job.course.original installed), some (job.course.mode installed)⟩ })
      ((job.committingAt installed false).targets job.course) = .ok ((job.committingAt installed true).targets job.course) := by
  apply updateTarget_targets more
  · rw [Phase.target, Phase.target, commit_next_backedUp]
    rfl
  · intro other _ different
    have commit : (job.committingAt installed false).commit job.course other =
        (job.committingAt installed true).commit job.course other := by
      rcases Nat.lt_or_gt_of_ne different with earlier | beyond
      · rw [Phase.commit_of_lt earlier, Phase.commit_of_lt earlier]
      · rw [Phase.commit_untouched beyond.le fun same => absurd same different,
          Phase.commit_untouched beyond.le fun same => absurd same different]
    rw [Phase.target, Phase.target, commit]
    rfl

section Steps

variable (sound : job.Sound) (here : job.manifest.targets[installed]? = some target) (leaves : job.Leaves allowed rest)

include sound here leaves in
/-- Recording the installed candidate. -/
theorem publishInstalled_triple
    (committing : job.Committing installed (job.course.existed installed) session config world)
    (isInstalled : config.layout installed = job.installed installed) :
    Triple allowed (· = world) (publishInstalled job.setting session installed (job.course.candidate installed))
      (Ends FsError.IsSystem (fun session' later => job.InstalledTo (installed + 1) session' later) rest) := by
  have more : installed < job.course.count := (List.getElem?_eq_some_iff.mp here).1
  have allows : (job.committingAt installed (job.course.existed installed)).Allows job.course installed .installed := by
    rw [allows_next]
    cases job.course.existed installed with
    | true => exact .inr rfl
    | false => exact .inr rfl
  have placed := committing.placed fun _ => ⟨.installed, allows, isInstalled⟩
  have before : ∀ index < installed + 1, config.layout index = job.installed index := by
    intro index earlier
    rcases Nat.lt_succ_iff_lt_or_eq.mp earlier with earlier | rfl
    · exact committing.before index earlier
    · exact isInstalled
  have placedAfter : job.Placed config (job.committingAt (installed + 1) false) := by
    intro index inside
    rcases Nat.lt_trichotomy index (installed + 1) with earlier | rfl | beyond
    · exact ⟨.installed, .inl ⟨earlier, rfl⟩, before index earlier⟩
    · refine ⟨.staged, ?_, committing.after _ inside (Nat.lt_succ_self installed)⟩
      rw [allows_next]
      cases job.course.existed (installed + 1) with
      | true => exact .inl rfl
      | false => exact .inl rfl
    · exact ⟨.staged, .inr (.inl ⟨beyond, rfl⟩), committing.after index inside (by omega)⟩
  have unrecorded : ((job.committingAt installed (job.course.existed installed)).target job.course installed).commit.kind ≠
      .installed := by
    rw [Phase.target]
    cases existed : job.course.existed installed with
    | true => rw [commit_next_backedUp]; simp
    | false => rw [commit_next_untouched]; simp
  rw [publishInstalled, committing.follows.records.recorded here, ofExcept_ok_bind, if_pos unrecorded, publishTargetTransition]
  apply (publishNext_triple sound committing.shows_ committing.unbegun committing.follows (.install more)
    (update_installed more) placed placedAfter leaves).weaken
  · rintro session' later ⟨follows, published⟩
    exact ⟨_, _, _, .of_placed published rfl follows more placedAfter, placedAfter, le_rfl⟩
  · exact fun _ stopped => stopped

/-- An absent original leaves nothing to move. -/
private theorem staged_eq_backedUp (absent : job.original installed = none) (mode : UInt32) :
    job.staged installed mode = job.backedUp installed mode := by
  rw [Job.staged, Job.backedUp, Job.originalItem, absent]
  rfl

/-- The candidate has its mode and the original is out of the way. -/
private theorem allows_ready (job : Job) (installed : ℕ) : ∃ stage,
    (job.committingAt installed (job.course.existed installed)).Allows job.course installed stage ∧
      job.Lies installed (job.backedUp installed (job.finalMode installed)) stage := by
  cases original : job.original installed with
  | none =>
    have existed : job.course.existed installed = false := by simp [Job.course, original]
    refine ⟨.staged, ?_, job.finalMode installed, (staged_eq_backedUp original _).symm⟩
    rw [allows_next, existed]
    exact .inl rfl
  | some node =>
    have existed : job.course.existed installed = true := by simp [Job.course, original]
    refine ⟨.backedUp, ?_, by rw [original]; rfl, job.finalMode installed, rfl⟩
    rw [allows_next, existed]
    exact .inl rfl

include sound here leaves in
/-- Moving a candidate that has its mode to the target's path. -/
theorem installCandidate_triple
    (committing : job.Committing installed (job.course.existed installed) session config world)
    (prepared : config.layout installed = job.backedUp installed (job.finalMode installed)) :
    Triple allowed (· = world) (installCandidate job.setting target (locationsOf job.manifest.transactionId target) session installed)
      (Ends FsError.IsSystem (fun session' later => job.InstalledTo (installed + 1) session' later) rest) := by
  obtain ⟨stage, allows, lies⟩ := allows_ready job installed
  have safe : Disturbed allowed → rest world := fun disturbed =>
    leaves disturbed _ _ _ (committing.running allows (by rw [prepared]; exact lies))
  have full : config.layout installed .candidate =
      some (job.candidateItem installed (job.finalMode installed) (job.content installed)) := by rw [prepared]; rfl
  have free : config.layout installed .target = none := by rw [prepared]; rfl
  rw [installCandidate]
  apply (rename_triple sound committing.shows_ here full free _ safe).calls
  intro moved shown
  have layout : Function.update (Function.update (config.layout installed) .candidate none) .target
      (some (job.candidateItem installed (job.finalMode installed) (job.content installed))) = job.installed installed := by
    rw [prepared, Job.backedUp, update_layoutOf.2.1, update_layoutOf.1]
    rfl
  rw [layout] at shown
  have standing := committing.lay shown
  have isInstalled : (config.lay installed (job.installed installed)).layout installed = job.installed installed :=
    Config.lay_layout_self _ _ _
  have allowsInstalled : (job.committingAt installed (job.course.existed installed)).Allows job.course installed .installed := by
    rw [allows_next]
    cases job.course.existed installed <;> exact .inr rfl
  have safe' : Disturbed allowed → rest moved := fun disturbed =>
    leaves disturbed _ _ _ (standing.running allowsInstalled isInstalled)
  apply (settle_safely safe').exactlyThen fun _ stopped => stopped
  apply (settle_safely safe').exactlyThen fun _ stopped => stopped
  rw [committing.follows.records.recorded here, ofExcept_ok_bind]
  have lies : job.Lies installed ((config.lay installed (job.installed installed)).layout installed) .installed := isInstalled
  have there : (config.lay installed (job.installed installed)).layout installed .target =
      some (job.candidateItem installed (job.finalMode installed) (job.content installed)) := by rw [isInstalled]; rfl
  apply (verifyCandidate_triple sound standing.shows_ here safe' (List.getElem?_eq_some_iff.mp here).1 there
    (lies.plain sound here)).exactlyThen fun _ stopped => stopped
  exact publishInstalled_triple sound here leaves standing isInstalled

/-! ## Giving the candidate its mode -/

private theorem masked_twice (mode : UInt32) : mode &&& 0o7777 &&& 0o7777 = mode &&& 0o7777 := by
  rw [UInt32.and_assoc, UInt32.and_self]

/-- What a candidate is moved from: it has its mode, and the original is out of the way. -/
def Job.Prepared (job : Job) (installed : ℕ) (session : Session) (world : World) : Prop :=
  ∃ config, job.Committing installed (job.course.existed installed) session config world ∧
    config.layout installed = job.backedUp installed (job.finalMode installed)

private theorem allows_backedUp (existed : job.course.existed installed = true) (backedUp : Bool) :
    (job.committingAt installed backedUp).Allows job.course installed .backedUp := by
  rw [allows_next, existed]
  cases backedUp
  · exact .inr rfl
  · exact .inl rfl

include sound here leaves in
/-- A candidate for a target that did not exist. -/
theorem readyAbsent_triple (absent : job.original installed = none)
    (committing : job.Committing installed backedUp session config world)
    (flag : backedUp = job.course.existed installed) {mode : UInt32}
    (staged : config.layout installed = job.staged installed mode) (observed : SyntheticTargetObservation) :
    Triple allowed (· = world)
      (readyCandidate job.setting target (locationsOf job.manifest.transactionId target) observed session installed)
      (Ends FsError.IsSystem (fun session' later => job.Prepared installed session' later) rest) := by
  subst flag
  have existed : target.originalExisted = false := by rw [sound.existed installed target here, absent]; rfl
  have notExisted : job.course.existed installed = false := by simp [Job.course, absent]
  have metadata := (sound.valid.target installed target here).metadata
  have allows : (job.committingAt installed (job.course.existed installed)).Allows job.course installed .staged := by
    rw [allows_next, notExisted]
    exact .inl rfl
  have newMode : ∃ newFileMode, target.newFileMode = some newFileMode := by
    rw [metadataValid, existed] at metadata
    cases found : target.newFileMode with
    | none => rw [found] at metadata; cases policy : target.metadataPolicy <;> rw [policy] at metadata <;> cases metadata
    | some newFileMode => exact ⟨newFileMode, rfl⟩
  obtain ⟨newFileMode, isNew⟩ := newMode
  have final : job.finalMode installed = newFileMode &&& 0o7777 := by
    rw [Job.finalMode, absent, here, Option.bind_some, isNew]
    rfl
  have full : config.layout installed .candidate = some (job.candidateItem installed mode (job.content installed)) := by
    rw [staged]
    rfl
  have changed : Function.update (config.layout installed) .candidate
      (some (job.candidateItem installed (newFileMode &&& 0o7777) (job.content installed))) =
        job.backedUp installed (job.finalMode installed) := by
    rw [staged, Job.staged, update_layoutOf.2.1, ← staged_eq_backedUp absent, final]
    rfl
  obtain ⟨stage, allowsReady, lies⟩ := allows_ready job installed
  have moved (later : World) (shown : job.Shows (config.lay installed (Function.update (config.layout installed) .candidate
      (some (job.candidateItem installed (newFileMode &&& 0o7777) (job.content installed))))) later) :
      job.Committing installed (job.course.existed installed) session
        (config.lay installed (job.backedUp installed (job.finalMode installed))) later := by
    rw [changed] at shown
    exact committing.lay shown
  rw [readyCandidate, existed, if_neg Bool.false_ne_true, isNew]
  apply (setMode_triple sound committing.shows_ here full newFileMode target.path _ _).calls
  · intro later shown
    exact Triple.returns ⟨_, moved later shown, Config.lay_layout_self _ _ _⟩
  · exact fun disturbed => leaves disturbed _ _ _ (committing.running allows ⟨mode, staged⟩)
  · intro disturbed later shown
    refine leaves disturbed _ _ _ ((moved later shown).running allowsReady ?_)
    rw [Config.lay_layout_self]
    exact lies

section Existing

variable {node : Node} (original : job.original installed = some node)

include sound here leaves original in
/-- The original is moved out of the way unless it is there already. -/
theorem backUpOriginal_triple (committing : job.Committing installed backedUp session config world)
    {observed : SyntheticTargetObservation} {mode : UInt32}
    (situation : (observed.backup = .original ∧ config.layout installed = job.backedUp installed mode) ∨
      (observed.backup ≠ .original ∧ backedUp = false ∧ config.layout installed = job.staged installed mode)) :
    Triple allowed (· = world) (backUpOriginal job.setting target (locationsOf job.manifest.transactionId target) observed)
      (Ends FsError.IsSystem (Returns (node.mode &&& 0o7777) fun later => ∃ config', config'.layout installed = job.backedUp installed mode ∧
        job.Committing installed backedUp session config' later) rest) := by
  have existed : job.course.existed installed = true := by simp [Job.course, original]
  have isOriginal : job.originalItem installed = some (.file node) := by rw [Job.originalItem, original]; rfl
  have lies {layout : Layout} (same : layout = job.backedUp installed mode) : job.Lies installed layout .backedUp :=
    ⟨by rw [original]; rfl, mode, same⟩
  rw [backUpOriginal]
  rcases situation with ⟨seen, there⟩ | ⟨unseen, rfl, staged⟩
  · have safe : Disturbed allowed → rest world := fun disturbed =>
      leaves disturbed _ _ _ (committing.running (allows_backedUp existed backedUp) (lies there))
    have atBackup : config.layout installed .backup = some (.file node) := by rw [there]; exact isOriginal
    rw [if_pos seen]
    apply (modeOf_triple sound committing.shows_ here safe atBackup target.path).weaken
    · rintro value later ⟨rfl, rfl⟩
      exact ⟨rfl, config, there, committing⟩
    · exact fun _ stopped => stopped
  · have allows : (job.committingAt installed false).Allows job.course installed .staged := by
      rw [allows_next, existed]
      exact .inl rfl
    have full : config.layout installed .target = some (.file node) := by rw [staged]; exact isOriginal
    have free : config.layout installed .backup = none := by rw [staged]; rfl
    rw [if_neg unseen]
    apply (rename_triple sound committing.shows_ here full free _ fun disturbed =>
      leaves disturbed _ _ _ (committing.running allows ⟨mode, staged⟩)).calls
    intro moved shown
    have layout : Function.update (Function.update (config.layout installed) .target none) .backup (some (.file node)) =
        job.backedUp installed mode := by
      rw [staged, Job.staged, update_layoutOf.1, update_layoutOf.2.2, ← isOriginal]
      rfl
    rw [layout] at shown
    have standing := committing.lay shown
    have there : (config.lay installed (job.backedUp installed mode)).layout installed = job.backedUp installed mode :=
      Config.lay_layout_self _ _ _
    have atBackup : (config.lay installed (job.backedUp installed mode)).layout installed .backup = some (.file node) := by
      rw [there]
      exact isOriginal
    have safe : Disturbed allowed → rest moved := fun disturbed =>
      leaves disturbed _ _ _ (standing.running (allows_backedUp existed false) (lies there))
    apply (settle_safely safe).exactlyThen fun _ stopped => stopped
    apply (settle_safely safe).exactlyThen fun _ stopped => stopped
    apply (verifyOriginal_triple sound standing.shows_ here safe original (atBackup.trans isOriginal.symm)
      ((lies there).plain sound here)).exactlyThen fun _ stopped => stopped
    apply (modeOf_triple sound standing.shows_ here safe atBackup target.path).weaken
    · rintro value later ⟨rfl, rfl⟩
      exact ⟨rfl, _, there, standing⟩
    · exact fun _ stopped => stopped

include sound here leaves original in
/-- The backup is recorded unless it is already. -/
theorem recordBackup_triple (committing : job.Committing installed backedUp session config world)
    (there : config.layout installed = job.backedUp installed (job.finalMode installed)) :
    Triple allowed (· = world) (recordBackup job.setting target (locationsOf job.manifest.transactionId target) session installed
        (node.mode &&& 0o7777))
      (Ends FsError.IsSystem (fun session' later => job.Prepared installed session' later) rest) := by
  have existed : job.course.existed installed = true := by simp [Job.course, original]
  have more : installed < job.course.count := (List.getElem?_eq_some_iff.mp here).1
  have lies : job.Lies installed (config.layout installed) .backedUp := ⟨by rw [original]; rfl, _, there⟩
  rw [recordBackup, committing.follows.records.recorded here, ofExcept_ok_bind]
  cases backedUp with
  | true =>
    have recorded : ((job.committingAt installed true).target job.course installed).commit.kind ≠ .untouched := by
      rw [Phase.target, commit_next_backedUp]
      simp
    rw [if_neg recorded]
    apply Triple.returns
    refine ⟨config, ?_, there⟩
    rw [existed]
    exact committing
  | false =>
    have unrecorded : ((job.committingAt installed false).target job.course installed).commit.kind = .untouched := by
      rw [Phase.target, commit_next_untouched]
    have safe : Disturbed allowed → rest world := fun disturbed =>
      leaves disturbed _ _ _ (committing.running (allows_backedUp existed false) lies)
    have placed : job.Placed config (job.committingAt installed false) :=
      committing.placed fun _ => ⟨.backedUp, allows_backedUp existed false, lies⟩
    have placedAfter : job.Placed config (job.committingAt installed true) := by
      intro index inside
      rcases Nat.lt_trichotomy index installed with earlier | rfl | beyond
      · exact ⟨.installed, .inl ⟨earlier, rfl⟩, committing.before index earlier⟩
      · exact ⟨.backedUp, allows_backedUp existed true, lies⟩
      · exact ⟨.staged, .inr (.inl ⟨beyond, rfl⟩), committing.after index inside beyond⟩
    have recorded : (⟨.backedUp, some (.ofIdentity node.identity), some (node.mode &&& 0o7777)⟩ : CommitState) =
        ⟨.backedUp, some (job.course.original installed), some (job.course.mode installed)⟩ := by
      simp [Job.course, original]
    have atBackup : config.layout installed .backup = job.originalItem installed := by rw [there]; rfl
    rw [if_pos unrecorded]
    apply (verifyOriginal_triple sound committing.shows_ here safe original atBackup
      (lies.plain sound here)).exactlyThen fun _ stopped => stopped
    rw [recorded, publishTargetTransition]
    apply (publishNext_triple sound committing.shows_ committing.unbegun committing.follows (.backUp more existed)
      (update_backedUp more) placed placedAfter leaves).weaken
    · rintro session' later ⟨follows, published⟩
      refine ⟨config.record (job.committingAt installed true), ?_, there⟩
      rw [existed]
      exact .of_placed published rfl follows more.le placedAfter
    · exact fun _ stopped => stopped

include sound here leaves original in
/-- A candidate for an existing target. -/
theorem readyExisting_triple (committing : job.Committing installed backedUp session config world)
    {observed : SyntheticTargetObservation} {mode : UInt32}
    (situation : (observed.backup = .original ∧ config.layout installed = job.backedUp installed mode) ∨
      (observed.backup ≠ .original ∧ backedUp = false ∧ config.layout installed = job.staged installed mode)) :
    Triple allowed (· = world)
      (readyCandidate job.setting target (locationsOf job.manifest.transactionId target) observed session installed)
      (Ends FsError.IsSystem (fun session' later => job.Prepared installed session' later) rest) := by
  have wasThere : target.originalExisted = true := by rw [sound.existed installed target here, original]; rfl
  have existed : job.course.existed installed = true := by simp [Job.course, original]
  have final : job.finalMode installed = node.mode &&& 0o7777 := by rw [Job.finalMode, original]
  rw [readyCandidate, if_pos wasThere]
  apply (backUpOriginal_triple sound here leaves original committing situation).calls
  rintro later ⟨config', there, standing⟩
  have full : config'.layout installed .candidate = some (job.candidateItem installed mode (job.content installed)) := by
    rw [there]
    rfl
  have changed : Function.update (config'.layout installed) .candidate
      (some (job.candidateItem installed (node.mode &&& 0o7777 &&& 0o7777) (job.content installed))) =
        job.backedUp installed (job.finalMode installed) := by
    rw [there, Job.backedUp, update_layoutOf.2.1, final, masked_twice]
    rfl
  have moved (after : World) (shown : job.Shows (config'.lay installed (Function.update (config'.layout installed) .candidate
      (some (job.candidateItem installed (node.mode &&& 0o7777 &&& 0o7777) (job.content installed))))) after) :
      job.Committing installed backedUp session
        (config'.lay installed (job.backedUp installed (job.finalMode installed))) after := by
    rw [changed] at shown
    exact standing.lay shown
  have lies {layout : Layout} {mode : UInt32} (same : layout = job.backedUp installed mode) :
      job.Lies installed layout .backedUp := ⟨by rw [original]; rfl, mode, same⟩
  apply (setMode_triple sound standing.shows_ here full (node.mode &&& 0o7777) target.path _ _).calls
  · intro after shown
    exact recordBackup_triple sound here leaves original (moved after shown) (Config.lay_layout_self _ _ _)
  · exact fun disturbed => leaves disturbed _ _ _ (standing.running (allows_backedUp existed backedUp) (lies there))
  · intro disturbed after shown
    exact leaves disturbed _ _ _ ((moved after shown).running (allows_backedUp existed backedUp)
      (lies (Config.lay_layout_self _ _ _)))

end Existing

/-! ## Completing the targets -/

include sound here leaves in
/-- A target that is not installed yet. -/
theorem completeNext_triple (committing : job.Committing installed backedUp session config world) {stage : Stage}
    (allows : (job.committingAt installed backedUp).Allows job.course installed stage)
    (lies : job.Lies installed (config.layout installed) stage) :
    Triple allowed (· = world) (completeTarget job.setting job.manifest session (target, installed))
      (Ends FsError.IsSystem (fun session' later => job.InstalledTo (installed + 1) session' later) rest) := by
  have inside : installed < job.course.count := (List.getElem?_eq_some_iff.mp here).1
  have safe : Disturbed allowed → rest world := fun disturbed => leaves disturbed _ _ _ (committing.running allows lies)
  have plain := lies.plain sound here
  have existed := sound.existed installed target here
  have flag : backedUp = true → job.course.existed installed = true := fun backed =>
    ((committing.follows.path.good sound.course_of.positive).backedUp backed).2
  have ready : installed < (job.committingAt installed backedUp).ready := inside
  have installing (session' : Session) (later : World) (prepared : job.Prepared installed session' later) :
      Triple allowed (· = later)
        (installCandidate job.setting target (locationsOf job.manifest.transactionId target) session' installed)
        (Ends FsError.IsSystem (fun session' later => job.InstalledTo (installed + 1) session' later) rest) := by
    obtain ⟨config', standing, there⟩ := prepared
    exact installCandidate_triple sound here leaves standing there
  rw [completeTarget]
  apply (targetPaths_triple sound committing.shows_ here plain safe).exactlyThen fun _ stopped => stopped
  rw [committing.follows.records.recorded here, ofExcept_ok_bind, committing.follows.records.global]
  apply (observeTarget_triple sound committing.shows_ here safe plain _ _).exactlyThen fun _ stopped => stopped
  rw [allows_next] at allows
  cases stage with
  | installed =>
    have current : backedUp = job.course.existed installed := by
      cases there : job.course.existed installed with
      | true =>
        rw [there, if_pos rfl] at allows
        cases backedUp with
        | true => rfl
        | false => rcases allows with impossible | impossible <;> cases impossible
      | false =>
        cases backedUp with
        | true => rw [flag rfl] at there; cases there
        | false => rfl
    have isInstalled : config.layout installed = job.installed installed := lies
    have there : config.layout installed .target =
        some (job.candidateItem installed (job.finalMode installed) (job.content installed)) := by rw [isInstalled]; rfl
    subst current
    rw [isInstalled, observation_installed sound here _ ready, if_pos rfl]
    apply (verifyCandidate_triple sound committing.shows_ here safe ready there plain).exactlyThen fun _ stopped => stopped
    exact publishInstalled_triple sound here leaves committing isInstalled
  | staged =>
    obtain ⟨mode, staged⟩ := lies
    rw [staged, observation_staged sound here _ ready, if_neg (by cases target.originalExisted <;> decide)]
    have unflagged : backedUp = false := by
      cases backedUp with
      | false => rfl
      | true =>
        rw [flag rfl, if_pos rfl, if_pos rfl] at allows
        rcases allows with impossible | impossible <;> cases impossible
    cases original : job.original installed with
    | none =>
      have current : backedUp = job.course.existed installed := by rw [unflagged]; simp [Job.course, original]
      exact (readyAbsent_triple sound here leaves original committing current staged _).proceeds installing
    | some node =>
      exact (readyExisting_triple sound here leaves original committing
        (.inr ⟨by simp, unflagged, staged⟩)).proceeds installing
  | backedUp =>
    obtain ⟨wasThere, mode, there⟩ := lies
    obtain ⟨node, original⟩ := Option.isSome_iff_exists.mp wasThere
    rw [there, observation_backedUp sound here _ ready, if_neg (show LocationObservation.absent ≠ .candidate by decide)]
    have atBackup : initialTarget target.originalExisted = .original := by rw [existed, wasThere]; rfl
    exact (readyExisting_triple sound here leaves original committing (.inl ⟨atBackup, there⟩)).proceeds installing
  | _ => split_ifs at allows <;> rcases allows with impossible | impossible <;> cases impossible

end Steps

section Loop

variable {count : ℕ} (sound : job.Sound) (here : job.manifest.targets[count]? = some target) (leaves : job.Leaves allowed rest)

include sound here leaves in
/-- Completing one target: those before it are installed. -/
theorem completeTarget_triple (installedTo : job.InstalledTo count session world) :
    Triple allowed (· = world) (completeTarget job.setting job.manifest session (target, count))
      (Ends FsError.IsSystem (fun session' later => job.InstalledTo (count + 1) session' later) rest) := by
  obtain ⟨config, installed, backedUp, committing, placed, passed⟩ := installedTo
  rcases passed.lt_or_eq with earlier | rfl
  · have isInstalled := committing.before count earlier
    have lies : job.Lies count (config.layout count) .installed := isInstalled
    have plain := lies.plain sound here
    have ready : count < (job.committingAt installed backedUp).ready := (List.getElem?_eq_some_iff.mp here).1
    have there : config.layout count .target =
        some (job.candidateItem count (job.finalMode count) (job.content count)) := by rw [isInstalled]; rfl
    have safe : Disturbed allowed → rest world := fun disturbed =>
      leaves disturbed _ _ _ (.of committing.shows_ committing.unbegun committing.follows.path placed)
    have recorded : ¬((job.committingAt installed backedUp).target job.course count).commit.kind ≠ .installed := by
      rw [Phase.target, Phase.commit_of_lt earlier]
      exact not_not.mpr rfl
    rw [completeTarget]
    apply (targetPaths_triple sound committing.shows_ here plain safe).exactlyThen fun _ stopped => stopped
    rw [committing.follows.records.recorded here, ofExcept_ok_bind, committing.follows.records.global]
    apply (observeTarget_triple sound committing.shows_ here safe plain _ _).exactlyThen fun _ stopped => stopped
    rw [isInstalled, observation_installed sound here _ ready, if_pos rfl]
    apply (verifyCandidate_triple sound committing.shows_ here safe ready there plain).exactlyThen fun _ stopped => stopped
    rw [publishInstalled, committing.follows.records.recorded here, ofExcept_ok_bind, if_neg recorded]
    exact Triple.returns ⟨config, installed, backedUp, committing, placed, earlier⟩
  · obtain ⟨stage, allows, lies⟩ := placed count (List.getElem?_eq_some_iff.mp here).1
    exact completeNext_triple sound here leaves committing allows lies

end Loop

variable (sound : job.Sound) (leaves : job.Leaves allowed rest)

include sound leaves in
theorem completeTargets_triple (installedTo : job.InstalledTo 0 session world) :
    Triple allowed (· = world) (job.manifest.targets.zipIdx.foldlM (completeTarget job.setting job.manifest) session)
      (Ends FsError.IsSystem (fun session' later => job.InstalledTo job.course.count session' later) rest) := by
  apply overTargets_triple job.manifest (fun count session' later => job.InstalledTo count session' later) _ installedTo
  exact fun index target here session' later installedTo => completeTarget_triple sound here leaves installedTo

/-- Every target is installed, and the transaction is about to be recorded as committed. -/
def Job.committedPhase (job : Job) : Phase := ⟨.committed, job.course.count, job.course.count, false, 0⟩

include sound leaves in
/-- The last look at the installed candidates. -/
private theorem verifyFinal_triple
    (committing : job.Committing job.course.count backedUp session config world)
    (placed : job.Placed config (job.committingAt job.course.count backedUp)) :
    Triple allowed (· = world)
      (job.manifest.targets.zipIdx.foldlM (fun _ entry => verifyFinal job.setting job.manifest session entry) ())
      (Ends FsError.IsSystem (Exactly () world) rest) := by
  apply (overTargets_triple job.manifest (fun _ _ later => later = world) _ rfl).weaken (fun _ _ same => ⟨rfl, same⟩)
    fun _ stopped => stopped
  rintro index target here _ later rfl
  have inside := (List.getElem?_eq_some_iff.mp here).1
  have isInstalled := committing.before index inside
  have lies : job.Lies index (config.layout index) .installed := isInstalled
  have there : config.layout index .target =
      some (job.candidateItem index (job.finalMode index) (job.content index)) := by rw [isInstalled]; rfl
  have safe : Disturbed allowed → rest later := fun disturbed =>
    leaves disturbed _ _ _ (.of committing.shows_ committing.unbegun committing.follows.path placed)
  rw [verifyFinal]
  apply (targetPaths_triple sound committing.shows_ here (lies.plain sound here) safe).exactlyThen fun _ stopped => stopped
  rw [committing.follows.records.recorded here, ofExcept_ok_bind]
  apply (verifyCandidate_triple sound committing.shows_ here safe inside there
    (lies.plain sound here)).exactlyThen fun _ stopped => stopped
  exact Triple.returns rfl

include sound leaves in
/-- A committing transaction is brought to its end. -/
theorem completeCommitSteps_triple (active : job.Active (job.committingAt installed backedUp) session config world) :
    Triple allowed (· = world) (completeCommitSteps job.setting job.manifest session)
      (Ends FsError.IsSystem (fun session' later => ∃ config', job.Active job.committedPhase session' config' later) rest) := by
  obtain ⟨shows_, unbegun, follows, placed⟩ := active
  have safe : Disturbed allowed → rest world := fun disturbed =>
    leaves disturbed _ _ _ (.of shows_ unbegun follows.path placed)
  have good := follows.path.good sound.course_of.positive
  rw [completeCommitSteps]
  have starts : RecoveryMode.Starts .complete .committing := .inr (.inl rfl)
  apply (classifyAllTargets_triple sound shows_ good follows.records (placed.recoverable nofun) starts
    safe).exactlyThen fun _ stopped => stopped
  apply (revalidateControlIdentities_triple shows_ safe).exactlyThen fun _ stopped => stopped
  apply (completeTargets_triple sound leaves ⟨config, installed, backedUp,
    .of_placed shows_ unbegun follows good.installed_le placed, placed, Nat.zero_le _⟩).proceeds
  rintro session' later ⟨config', installed', backedUp', committing, placed', all⟩
  have good' := committing.follows.path.good sound.course_of.positive
  obtain rfl : installed' = job.course.count := Nat.le_antisymm good'.installed_le all
  obtain rfl : backedUp' = false := by
    cases backedUp' with
    | false => rfl
    | true => exact absurd (good'.backedUp rfl).1 (Nat.lt_irrefl _)
  have placedAfter : job.Placed config' job.committedPhase := fun index inside =>
    ⟨.installed, rfl, committing.before index inside⟩
  apply (verifyFinal_triple sound leaves committing placed').exactlyThen fun _ stopped => stopped
  rw [publishGlobalTransition]
  apply (publishNext_triple sound committing.shows_ committing.unbegun committing.follows .commit rfl placed' placedAfter
    leaves).weaken
  · rintro session'' after ⟨follows', published⟩
    exact ⟨_, published, rfl, follows', placedAfter⟩
  · exact fun _ stopped => stopped

end Srcmv.Fs
