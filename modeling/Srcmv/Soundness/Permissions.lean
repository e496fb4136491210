import Srcmv.Soundness.JournalLimits

/-! # Permissions and originals

A candidate gets its mode before it is moved to its target, and no operation changes an original: it
stays at its target or at its backup, the same file with the same mode, until the commit is recorded.
-/

namespace Srcmv.Fs

open Srcmv.Core Machine

/-- The locations of a target's files: its path, the transaction directory, and the directory once it is completed. -/
def Job.StandsSomewhere (job : Job) (world : World) (target : ManifestTarget) (node : Node) : Prop :=
  world.files target.path = some (.file node) ∨
    world.item? (.artifact job.manifest.transactionId target.candidateName) = some (.file node) ∨
    world.item? (.artifact job.manifest.transactionId target.backupName) = some (.file node) ∨
    ∃ committed, (world.childrenOf (.completed (completedName job.manifest.transactionId committed)))[target.backupName]? =
      some (.file node)

/-- What holds of the permissions of one target. -/
structure Job.KeepsPermissions (job : Job) (world : World) (index : ℕ) (target : ManifestTarget) : Prop where
  preserved : ∀ node original, world.files target.path = some (.file node) →
    node.identity = job.setting.newIdentity (generatedName "candidate" index) → job.original index = some original →
      node.mode &&& 0o7777 = original.mode &&& 0o7777
  given : ∀ node, world.files target.path = some (.file node) →
    node.identity = job.setting.newIdentity (generatedName "candidate" index) → job.original index = none →
      target.newFileMode = some (node.mode &&& 0o7777)
  unchanged : ∀ node original, job.original index = some original → job.StandsSomewhere world target node →
    node.identity = original.identity → node = original
  kept : ∀ original, job.original index = some original →
    world.files target.path = some (.file original) ∨
      world.item? (.artifact job.manifest.transactionId target.backupName) = some (.file original) ∨
      ∃ state ∈ world.published, state.globalState = .committed

variable {allowed : Site → Went → Prop} {job : Job} {world : World} {index : ℕ} {target : ManifestTarget}

section Slots

/-- What the slots of a target can hold in any stage. -/
private structure SlotsHold (job : Job) (index : ℕ) (standing staged backup : Option Item) : Prop where
  standing : standing = job.originalItem index ∨ standing = none ∨
    standing = some (job.candidateItem index (job.finalMode index) (job.content index))
  staged : staged = none ∨ ∃ mode bytes, staged = some (job.candidateItem index mode bytes)
  backup : backup = none ∨ backup = job.originalItem index

private theorem lies_slots {layout : Layout} {stage : Stage} (lies : job.Lies index layout stage) :
    SlotsHold job index (layout .target) (layout .candidate) (layout .backup) ∧
      (layout .target = job.originalItem index ∨ layout .backup = job.originalItem index) := by
  cases stage with
  | untouched =>
    rw [show layout = job.untouched index from lies]
    exact ⟨⟨.inl rfl, .inl rfl, .inl rfl⟩, .inl rfl⟩
  | partly =>
    obtain ⟨count, rfl⟩ := lies
    exact ⟨⟨.inl rfl, .inr ⟨_, _, rfl⟩, .inl rfl⟩, .inl rfl⟩
  | staged =>
    obtain ⟨mode, rfl⟩ := lies
    exact ⟨⟨.inl rfl, .inr ⟨_, _, rfl⟩, .inl rfl⟩, .inl rfl⟩
  | backedUp =>
    obtain ⟨-, mode, rfl⟩ := lies
    exact ⟨⟨.inr (.inl rfl), .inr ⟨_, _, rfl⟩, .inr rfl⟩, .inr rfl⟩
  | installed =>
    rw [show layout = job.installed index from lies]
    exact ⟨⟨.inr (.inr rfl), .inl rfl, .inr rfl⟩, .inr rfl⟩
  | cleared =>
    rw [lies.2]
    exact ⟨⟨.inr (.inl rfl), .inl rfl, .inr rfl⟩, .inr rfl⟩

end Slots

section Modes

/-- The mode of an installed candidate, for a target that existed. -/
private theorem finalMode_existing {original : Node} (existed : job.original index = some original) :
    job.finalMode index &&& 0o7777 = original.mode &&& 0o7777 := by
  rw [Job.finalMode, existed]
  change original.mode &&& 0o7777 &&& 0o7777 = _
  rw [UInt32.and_assoc, UInt32.and_self]

/-- A mode for new files has permission bits only. -/
private theorem masked_of_le {mode : UInt32} (bounded : mode.toNat ≤ 0o666) : mode &&& 0o7777 = mode := by
  apply UInt32.toNat.inj
  rw [UInt32.toNat_and]
  change mode.toNat &&& (2 ^ 12 - 1) = mode.toNat
  rw [Nat.and_two_pow_sub_one_eq_mod]
  exact Nat.mod_eq_of_lt (by omega)

/-- The mode of an installed candidate, for a target that did not exist. -/
private theorem finalMode_new (sound : job.Sound) (here : job.manifest.targets[index]? = some target)
    (absent : job.original index = none) : target.newFileMode = some (job.finalMode index &&& 0o7777) := by
  have existed : target.originalExisted = false := by rw [sound.existed index target here, absent]; rfl
  have metadata := (sound.valid.target index target here).metadata
  rw [metadataValid, existed] at metadata
  cases found : target.newFileMode with
  | none => rw [found] at metadata; cases policy : target.metadataPolicy <;> rw [policy] at metadata <;> cases metadata
  | some mode =>
    rw [found] at metadata
    have bounded : mode.toNat ≤ 0o666 := by
      cases policy : target.metadataPolicy with
      | preserveExistingMode => rw [policy] at metadata; cases metadata
      | newFileMode =>
        simp only [policy, Option.any_some, Bool.not_false, Bool.true_and, Bool.and_eq_true] at metadata
        exact of_decide_eq_true metadata.1
    rw [Job.finalMode, absent, here, Option.bind_some, found]
    change some mode = some (mode &&& 0o7777 &&& 0o7777)
    rw [masked_of_le bounded, masked_of_le bounded]

/-- The original is told from the candidate by its identity. -/
private theorem slots_original (sound : job.Sound) {standing staged backup : Option Item} {node original : Node}
    (slots : SlotsHold job index standing staged backup) (existed : job.original index = some original)
    (stands : standing = some (.file node) ∨ staged = some (.file node) ∨ backup = some (.file node))
    (same : node.identity = original.identity) : node = original := by
  have item : job.originalItem index = some (.file original) := by rw [Job.originalItem, existed]; rfl
  have candidate {mode : UInt32} {bytes : Bytes} : some (job.candidateItem index mode bytes) ≠ some (.file node) := by
    intro equal
    rw [← Item.file.inj (Option.some.inj equal)] at same
    exact sound.distinct index original existed same
  have isOriginal (equal : job.originalItem index = some (.file node)) : node = original :=
    (Item.file.inj (Option.some.inj (item.symm.trans equal))).symm
  rcases stands with there | there | there
  · rcases slots.standing with held | held | held
    · exact isOriginal (held.symm.trans there)
    · rw [held] at there
      cases there
    · exact absurd (held.symm.trans there) candidate
  · rcases slots.staged with held | ⟨mode, bytes, held⟩
    · rw [held] at there
      cases there
    · exact absurd (held.symm.trans there) candidate
  · rcases slots.backup with held | held
    · rw [held] at there
      cases there
    · exact isOriginal (held.symm.trans there)

/-- What the slots hold decides the permissions. -/
private theorem slots_keep (sound : job.Sound) (here : job.manifest.targets[index]? = some target)
    (slots : SlotsHold job index (world.files target.path)
      (world.item? (.artifact job.manifest.transactionId target.candidateName))
      (world.item? (.artifact job.manifest.transactionId target.backupName)))
    (completed : ∀ committed node, (world.childrenOf (.completed (completedName job.manifest.transactionId committed)))[
      target.backupName]? = some (.file node) → job.originalItem index = some (.file node))
    (kept : world.files target.path = job.originalItem index ∨
      world.item? (.artifact job.manifest.transactionId target.backupName) = job.originalItem index ∨
      ∃ state ∈ world.published, state.globalState = .committed) : job.KeepsPermissions world index target := by
  have installed (node : Node) (found : world.files target.path = some (.file node))
      (identity : node.identity = job.setting.newIdentity (generatedName "candidate" index)) :
      node.mode = job.finalMode index := by
    rcases slots.standing with held | held | held
    · obtain ⟨original, existed, same⟩ := Option.map_eq_some_iff.mp (held.symm.trans found)
      obtain rfl := Item.file.inj same
      exact absurd identity.symm (sound.distinct index original existed)
    · rw [held] at found
      cases found
    · rw [← Item.file.inj (Option.some.inj (held.symm.trans found))]
  constructor
  · intro node original found identity existed
    rw [installed node found identity]
    exact finalMode_existing existed
  · intro node found identity absent
    rw [installed node found identity]
    exact finalMode_new sound here absent
  · rintro node original existed (there | there | there | ⟨committed, there⟩) same
    · exact slots_original sound slots existed (.inl there) same
    · exact slots_original sound slots existed (.inr (.inl there)) same
    · exact slots_original sound slots existed (.inr (.inr there)) same
    · have item : job.originalItem index = some (.file original) := by rw [Job.originalItem, existed]; rfl
      exact (Item.file.inj (Option.some.inj (item.symm.trans (completed committed node there)))).symm
  · intro original existed
    rw [show some (Item.file original) = job.originalItem index by rw [Job.originalItem, existed]; rfl]
    exact kept

end Modes

section Worlds

private theorem childrenOf_completed_of_empty (empty : world.control.completed = ∅) (name : String) :
    world.childrenOf (.completed name) = ∅ := by
  rw [World.childrenOf, empty, Std.ExtTreeMap.getElem?_empty]
  rfl

private theorem children_of_inactive (empty : world.control.transactions = ∅) (id name : String) :
    world.item? (.artifact id name) = none := by
  rw [World.item?, ControlTree.children, empty, Std.ExtTreeMap.getElem?_empty]
  exact Std.ExtTreeMap.getElem?_empty

/-- A transaction without state records has no artifacts. -/
private theorem unrecorded_keeps (sound : job.Sound) (unrecorded : job.Unrecorded allowed world)
    (here : job.manifest.targets[index]? = some target) : job.KeepsPermissions world index target := by
  obtain ⟨object, children, only, stateless, -⟩ := unrecorded.directory
  have named := sound.valid.target index target here
  have standing : world.files target.path = job.originalItem index := by
    rw [unrecorded.files]
    exact sound.base index target here
  have staged : world.item? (.artifact job.manifest.transactionId target.candidateName) = none := by
    rw [World.item?_artifact only, show target.candidateName = (Entry.candidate index).name from named.candidateName]
    exact stateless.free (by simp) (by simp) (by simp)
  have backup : world.item? (.artifact job.manifest.transactionId target.backupName) = none := by
    rw [World.item?_artifact only, show target.backupName = (Entry.backup index).name from named.backupName]
    exact stateless.free (by simp) (by simp) (by simp)
  apply slots_keep sound here ⟨.inl standing, .inl staged, .inl backup⟩
  · intro committed node found
    rw [childrenOf_completed_of_empty only.completed, Std.ExtTreeMap.getElem?_empty] at found
    cases found
  · exact .inl standing

/-- A running transaction has its originals at their targets or at their backups. -/
private theorem running_keeps (sound : job.Sound) {config : Config} {phase : Phase} (running : job.Running allowed config phase world)
    (here : job.manifest.targets[index]? = some target) : job.KeepsPermissions world index target := by
  obtain ⟨object, children, only, -⟩ := running.shows_.active
  obtain ⟨stage, -, lies⟩ := running.placed index (List.getElem?_eq_some_iff.mp here).1
  obtain ⟨slots, kept⟩ := lies_slots lies
  rw [← running.shows_.item? sound here .target, ← running.shows_.item? sound here .candidate,
    ← running.shows_.item? sound here .backup] at slots
  rw [← running.shows_.item? sound here .target, ← running.shows_.item? sound here .backup] at kept
  apply slots_keep sound here slots
  · intro committed node found
    rw [childrenOf_completed_of_empty only.completed, Std.ExtTreeMap.getElem?_empty] at found
    cases found
  · exact kept.imp_right .inl

/-- The backups of a completed directory are originals. -/
private theorem left_backups {committed : Bool} (sound : job.Sound) (left : job.Left committed world.control)
    (here : job.manifest.targets[index]? = some target) {name : String} {node : Node}
    (found : (world.childrenOf (.completed name))[target.backupName]? = some (.file node)) :
    job.originalItem index = some (.file node) := by
  have named := sound.valid.target index target here
  cases left with
  | @directory object children only backups =>
    rw [World.childrenOf] at found
    cases there : world.control.completed[name]? with
    | none =>
      rw [there] at found
      exact absurd (Std.ExtTreeMap.getElem?_empty.symm.trans found) (by simp)
    | some directory =>
      obtain rfl := only.completed.single name (Std.ExtTreeMap.mem_iff_isSome_getElem?.mpr (by rw [there]; rfl))
      rw [only.completed.here] at found
      rw [show target.backupName = (Entry.backup index).name from named.backupName] at found
      exact backups index _ found
  | gone idle =>
    rw [childrenOf_completed_of_empty idle.completed, Std.ExtTreeMap.getElem?_empty] at found
    cases found

/-- A transaction that has ended. -/
private theorem ended_keeps (sound : job.Sound) {committed : Bool} (ended : job.Ended committed world)
    (here : job.manifest.targets[index]? = some target) : job.KeepsPermissions world index target := by
  have holds := ended.holds sound
  have inactive := ended.left.inactive
  have staged := children_of_inactive inactive job.manifest.transactionId target.candidateName
  have backup := children_of_inactive inactive job.manifest.transactionId target.backupName
  have completed := fun committed node => @left_backups _ _ _ _ _ sound ended.left here
    (completedName job.manifest.transactionId committed) node
  cases committed with
  | true =>
    have planned : job.HoldsPlanned world := holds
    apply slots_keep sound here ⟨.inr (.inr (planned index target here)), .inl staged, .inl backup⟩ completed
    rcases ended.published with ⟨impossible, -⟩ | ⟨phases, phase, path, terminal, published⟩
    · cases impossible
    · obtain ⟨earlier, -, chained⟩ := @Path.last_recorded job.crates job.manifest _ _ _ path
      refine .inr (.inr ⟨stateAfter job.crates job.manifest job.course (job.chain earlier) phase, ?_, terminal⟩)
      rw [published, Job.chain, chained]
      exact List.mem_append_right _ (List.mem_singleton_self _)
  | false =>
    have original : job.HoldsOriginal world := holds
    exact slots_keep sound here ⟨.inl (original index target here), .inl staged, .inl backup⟩ completed
      (.inl (original index target here))

end Worlds

/-- Permissions and originals in every world a transaction can be in, and after every rollback that is done there. -/
theorem permissions_preserved (sound : job.Sound) (reaches : job.Reaches Crashing world) :
    (∀ index target, job.manifest.targets[index]? = some target → job.KeepsPermissions world index target) ∧
      ∀ outcome later, Process.Yields Crashing (recoverLocked job.setting job.manifest.transactionId .rollback) world outcome later →
        job.HoldsOriginal later := by
  have rests := reaches.rests sound Crashing.sees
  constructor
  · intro index target here
    rcases rests with unrecorded | running | ended
    · exact unrecorded_keeps sound unrecorded here
    · exact running_keeps sound running here
    · exact ended_keeps sound ended here
  · intro outcome later yields
    have ended : job.Ended false later := (Job.Rests.recover_triple sound Crashing.sees .rollback).yields rests yields
    exact ended.holds sound

/-- The small transaction when its commit is recorded: the file that was there keeps its mode. -/
theorem permissions_preserved_committed : ∃ world, Sample.job.Reaches Crashing world ∧ Sample.job.HoldsPlanned world ∧
    ((∀ index target, Sample.job.manifest.targets[index]? = some target → Sample.job.KeepsPermissions world index target) ∧
      ∀ outcome later, Process.Yields Crashing
        (recoverLocked Sample.job.setting Sample.job.manifest.transactionId .rollback) world outcome later →
          Sample.job.HoldsOriginal later) := by
  obtain ⟨world, config, reaches, -, running⟩ := Sample.job_fresh.reaches_committed Sample.job_sound Sample.job_inputsHold
  have crashing := reaches.mono fun _ _ => CrashingBetweenRecords.crashing
  exact ⟨world, crashing, running.holdsPlanned Sample.job_sound rfl, permissions_preserved Sample.job_sound crashing⟩

end Srcmv.Fs
