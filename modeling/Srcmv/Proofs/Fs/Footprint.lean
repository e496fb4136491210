import Srcmv.Model.Fs.Commit
import Srcmv.Proofs.Fs.Frames
import Srcmv.Proofs.Fs.Outcomes

/-! # What a commit may touch

A commit creates one directory, publishes its manifest there, and everything after that spares the
published record. So the rollback of a failed commit finds the manifest of that commit or none, and
both stay within one scope.
-/

namespace Srcmv.Fs

open Srcmv.Core Machine Process Relation

variable {allowed : Site → Went → Prop} {setting : Setting} {manifest : Manifest} {world later : World} {id : String}
  {snapshot : WorkspaceSnapshot}

section Executing

/-- The directory of the transaction is there and empty. -/
structure World.Opened (world : World) (id : String) : Prop where
  exists_ : id ∈ world.control.transactions
  empty : world.control.children id = ∅

private theorem World.Opened.free (opened : world.Opened id) (name : String) : world.item? (.artifact id name) = none := by
  change (world.control.children id)[name]? = none
  rw [opened.empty, Std.ExtTreeMap.getElem?_empty]

private theorem recordedAlone_of_free {crates : Crates}
    (free : world.item? (.artifact manifest.transactionId "manifest.rec") = none) : manifest.RecordedAlone crates world := by
  intro found recorded
  rw [World.recordedManifest?, free] at recorded
  cases recorded

private theorem recordedAlone_of_written {identity : FileIdentity} {crates : Crates} (encodes : manifest.Encodes crates)
    (written : world.item? (.artifact manifest.transactionId "manifest.rec") =
      some (writtenItem identity (manifestRecord crates manifest))) : manifest.RecordedAlone crates world := by
  intro found recorded
  rw [World.recordedManifest?, written, writtenItem] at recorded
  dsimp only at recorded
  rw [decodeManifestRecord_manifestRecord crates encodes] at recorded
  exact (Option.some.inj recorded).symm

/-- In an empty directory the journal of a manifest records that manifest or nothing. -/
theorem createJournal_recordedAlone (opened : world.Opened manifest.transactionId) : Triple allowed (· = world)
    (createJournal setting manifest.transactionId manifest)
    ⟨fun journal later => (manifest.In (Scope.ofManifest manifest).sparing ∧
        (Scope.ofManifest manifest).sparing.Records journal.directory) ∧ manifest.RecordedAlone setting.crates later,
      fun _ => manifest.RecordedAlone setting.crates, manifest.RecordedAlone setting.crates⟩ := by
  have fresh : manifest.RecordedAlone setting.crates world := recordedAlone_of_free (opened.free _)
  have reaches (name : String) : world.Reaches (.artifact manifest.transactionId name) := opened.exists_
  have refused (error : FsError) (later : World) (same : later = world) : manifest.RecordedAlone setting.crates later :=
    same ▸ fresh
  rw [createJournal]
  refine Triple.computes refused fun _ _ => Triple.computes refused fun _ validated => ?_
  refine Triple.computes refused fun encoded encoding => Triple.computes refused fun projected _ => ?_
  refine Triple.computes refused fun _ _ => Triple.computes refused fun checksum _ => ?_
  obtain ⟨encodes, rfl⟩ := (encodeManifestRecord_eq_ok setting.crates).mp encoding
  have inside : manifest.In (Scope.ofManifest manifest).sparing := (validateManifest_valid validated).in_sparing
  have apart : Location.artifact manifest.transactionId "manifest.rec" ≠ .artifact manifest.transactionId "manifest.tmp" := by
    simp
  have written : manifest.RecordedAlone setting.crates (world.afterPublication
      (.artifact manifest.transactionId "manifest.tmp") (.artifact manifest.transactionId "manifest.rec")
      (writtenItem (setting.newIdentity "manifest.tmp") (manifestRecord setting.crates manifest)) none) :=
    recordedAlone_of_written encodes (World.item?_place_self ((reaches _).place _ _) _)
  refine Triple.bind (fun _ later => manifest.RecordedAlone setting.crates later) ?_ fun _ =>
    Triple.pure fun later alone => ⟨⟨inside, inside.records⟩, alone⟩
  refine (publishRecord_triple reaches (by decide) (opened.free _) (opened.free _) (fun _ => fresh) (fun _ count => ?_)
    fun _ => written).mono (fun _ same => same) (fun _ later done => done.2 ▸ written) (fun _ _ failed => failed.2)
    fun _ crashed => crashed
  exact recordedAlone_of_free ((World.item?_place_ne apart _).trans (opened.free _))

theorem executeNewTransaction_recordedAlone (opened : world.Opened manifest.transactionId) : Triple allowed (· = world)
    (executeNewTransaction setting manifest manifest.transactionId snapshot)
    (Keeps (manifest.RecordedAlone setting.crates)) :=
  executeNewTransaction_keeps (createJournal_recordedAlone opened) fun _ _ acted =>
    acted.recordedAlone fun named => named.2 rfl

/-- The recorded targets are those of the manifest. -/
private theorem recordedPaths_subset {crates : Crates} (alone : manifest.RecordedAlone crates world) {path : String}
    (recorded : path ∈ world.recordedPaths crates manifest.transactionId) : path ∈ manifest.targetPaths := by
  rw [World.recordedPaths] at recorded
  cases found : world.recordedManifest? crates manifest.transactionId with
  | none => rw [found] at recorded; cases recorded
  | some other =>
    rw [found, alone other found] at recorded
    exact recorded

theorem Scope.Spares.mono {scope wider : Scope} (spares : scope.Spares world later) (paths : ∀ path, scope.paths path → wider.paths path)
    (active : ∀ id, scope.active id → wider.active id) (completed : ∀ name, scope.completed name → wider.completed name) :
    wider.Spares world later where
  files path outside := spares.files path fun inside => outside (paths path inside)
  transactions id outside := spares.transactions id fun inside => outside (active id inside)
  completed name outside := spares.completed name fun inside => outside (completed name inside)
  objects := spares.objects
  old := spares.old

/-- Within the scope of the manifest so far, and nothing else recorded. -/
private def Within (setting : Setting) (manifest : Manifest) (world later : World) : Prop :=
  (Scope.ofManifest manifest).Spares world later ∧ manifest.RecordedAlone setting.crates later

private theorem executeNewTransaction_within (opened : world.Opened manifest.transactionId) : Triple allowed (· = world)
    (executeNewTransaction setting manifest manifest.transactionId snapshot) (Keeps (Within setting manifest world)) :=
  Triple.keepsBoth (spares_of_acts (executeNewTransaction_acts manifest.in_ofManifest trivial trivial).anywhere)
    (executeNewTransaction_recordedAlone opened)

private theorem recoverLocked_within : Triple allowed (Within setting manifest world)
    (recoverLocked setting manifest.transactionId .rollback) (Keeps ((Scope.ofManifest manifest).Spares world)) := by
  refine Triple.pointwise fun before holds => ?_
  have spared (later : World) (spares : (Scope.ofRecorded setting.crates before manifest.transactionId).Spares before later) :
      (Scope.ofManifest manifest).Spares world later :=
    holds.1.trans (spares.mono (fun _ => recordedPaths_subset holds.2) (fun _ own => own) fun _ own => own)
  exact (spares_of_acts (recoverLocked_acts .rollback)).mono (fun _ same => same) (fun _ => spared) (fun _ => spared) spared

private theorem rollBackFailed_within (original : FsError) : Triple allowed (Within setting manifest world)
    (rollBackFailed setting manifest.transactionId original) (Keeps ((Scope.ofManifest manifest).Spares world)) := by
  have rolls : Triple allowed (Within setting manifest world) (automaticRollback setting manifest.transactionId)
      (Keeps ((Scope.ofManifest manifest).Spares world)) := by
    rw [automaticRollback]
    refine Triple.keepsThen (Triple.attemptKeeps recoverLocked_within) fun result => ?_
    split <;> exact Triple.pureKeeps
  have ends (failed : Bool) : Triple allowed ((Scope.ofManifest manifest).Spares world)
      (if failed = true then Process.refuse (.transactionRecoveryRequired [manifest.transactionId])
        else Process.refuse original : Engine CommitOutcome) (Keeps ((Scope.ofManifest manifest).Spares world)) := by
    split <;> exact Triple.refuseKeeps
  rw [rollBackFailed]
  refine Triple.bind (fun _ => Within setting manifest world) ?_ fun remains => ?_
  · exact Triple.probe (fun _ _ holds => holds.1) (fun _ _ holds => holds) fun _ holds => holds
  dsimp only
  split
  · exact Triple.keepsThen rolls ends
  · exact Triple.keepsUntil Triple.pureKeeps (fun _ holds => holds.1) fun failed =>
      (ends failed).mono (fun _ holds => holds.1) (fun _ _ kept => kept) (fun _ _ kept => kept) fun _ kept => kept

/-- Whatever happens, committing a manifest in its empty directory stays within the scope of the manifest. -/
theorem commitManifest_spares (opened : world.Opened manifest.transactionId) : Triple allowed (· = world)
    (commitManifest setting manifest snapshot) (Keeps ((Scope.ofManifest manifest).Spares world)) := by
  rw [commitManifest]
  refine Triple.keepsUntil (Triple.attemptKeeps (executeNewTransaction_within opened)) (fun _ holds => holds.1) fun result => ?_
  split
  · exact Triple.pure fun _ holds => holds.1
  · next original => exact rollBackFailed_within original

end Executing

section Creating

variable {identifiers : List String}

/-- A new and empty directory for the transaction, and nothing else. -/
def World.opening (setting : Setting) (world : World) (id : String) : World :=
  { world with control := { world.control with
    transactions := world.control.transactions.insert id ⟨⟨setting.newIdentity id, .directory, true, 0o700⟩, ∅⟩ } }

theorem World.opened_opening (setting : Setting) (world : World) (id : String) : (world.opening setting id).Opened id where
  exists_ := Std.ExtTreeMap.mem_insert_self
  empty := by
    rw [opening, ControlTree.children]
    dsimp only
    rw [Std.ExtTreeMap.getElem?_insert_self]
    rfl

/-- The world, or the world with a new directory under one of the identifiers. -/
inductive World.MayOpen (setting : Setting) (identifiers : List String) (world : World) : World → Prop where
  | unchanged : MayOpen setting identifiers world world
  | opened {id : String} (tried : id ∈ identifiers) (fresh : id ∉ world.control.transactions) :
      MayOpen setting identifiers world (world.opening setting id)

private theorem World.MayOpen.tail {first : String} (opens : World.MayOpen setting identifiers world later) :
    World.MayOpen setting (first :: identifiers) world later := by
  cases opens with
  | unchanged => exact .unchanged
  | opened tried fresh => exact .opened (List.mem_cons_of_mem _ tried) fresh

/-- How creating the transaction directory can end. -/
def Opens (setting : Setting) (identifiers : List String) (world : World) : Ending World FsError String where
  done id later := id ∈ identifiers ∧ id ∉ world.control.transactions ∧ later = world.opening setting id
  failed _ := World.MayOpen setting identifiers world
  crashed := World.MayOpen setting identifiers world

/-- A step without effect. -/
private theorem steady {site : Site} {denied : FsError} {rest : World → Prop} (safe : ∀ later, later = world → rest later) :
    Triple allowed (· = world) (Process.act site denied fun world => .ok ((), world) : Engine Unit)
      ⟨fun _ => (· = world), fun _ => rest, rest⟩ := by
  refine Triple.act (fun _ => safe) (fun _ => safe) (fun before same _ later performed => ?_) fun _ _ _ _ impossible => ?_
  · cases performed
    exact same
  · cases impossible

section One

variable {rest : List String} (others : Triple allowed (· = world) (createTransactionDirectory setting rest)
  (Opens setting (id :: rest) world))

private theorem stays (later : World) (same : later = world) : World.MayOpen setting identifiers world later :=
  same ▸ .unchanged

include others in
/-- The directory is created unless there is one. -/
private theorem creates : Triple allowed (· = world) (do
    let created ← io "create_transaction_directory" none fun world =>
      match world.control.transactions[id]? with
      | some _ => .ok (false, world)
      | none => .ok (true, world.opening setting id)
    if created then do
      syncDirectory
      return id
    else createTransactionDirectory setting rest) (Opens setting (id :: rest) world) := by
  refine Triple.bind (fun created later => (created = true ∧ id ∉ world.control.transactions ∧
    later = world.opening setting id) ∨ created = false ∧ later = world) ?_ fun created => ?_
  · refine Triple.act (fun _ => stays) (fun _ => stays) (fun before same value later performed => ?_)
      fun _ before same error impossible => ?_
    · subst same
      split at performed
      · cases performed
        exact .inr ⟨rfl, rfl⟩
      · next free =>
        cases performed
        refine .inl ⟨rfl, fun member => ?_, rfl⟩
        rw [Std.ExtTreeMap.mem_iff_isSome_getElem?, free] at member
        cases member
    · split at impossible <;> cases impossible
  · refine Triple.pointwise fun before holds => ?_
    rcases holds with ⟨rfl, fresh, rfl⟩ | ⟨rfl, rfl⟩
    · have new (later : World) (same : later = world.opening setting id) :
          World.MayOpen setting (id :: rest) world later := same ▸ .opened List.mem_cons_self fresh
      exact Triple.bind (fun _ => (· = world.opening setting id)) (steady new) fun _ =>
        Triple.pure fun later same => ⟨List.mem_cons_self, fresh, same⟩
    · exact others

include others in
/-- Only where no completed directory has the name. -/
private theorem decides (taken : Bool) : Triple allowed (· = world) (if taken = true then createTransactionDirectory setting rest
    else do
      let created ← io "create_transaction_directory" none fun world =>
        match world.control.transactions[id]? with
        | some _ => .ok (false, world)
        | none => .ok (true, world.opening setting id)
      if created then do
        syncDirectory
        return id
      else createTransactionDirectory setting rest) (Opens setting (id :: rest) world) := by
  split
  · exact others
  · exact creates others

private theorem looks (name : String) : Triple allowed (· = world)
    (Process.probe (.existence "completed") fun world => (world.control.completed[name]?).isSome : Engine Bool)
    ⟨fun _ => (· = world), fun _ => World.MayOpen setting identifiers world, World.MayOpen setting identifiers world⟩ :=
  Triple.probe (fun _ => stays) (fun _ _ same => same) fun _ same => same

end One

/-- A directory is created only where there was none. -/
theorem createTransactionDirectory_opens : Triple allowed (· = world)
    (createTransactionDirectory setting identifiers) (Opens setting identifiers world) := by
  induction identifiers with
  | nil =>
    rw [createTransactionDirectory]
    exact Triple.refuse stays
  | cons id rest ih =>
    have others : Triple allowed (· = world) (createTransactionDirectory setting rest) (Opens setting (id :: rest) world) :=
      ih.mono (fun _ same => same) (fun _ _ done => ⟨List.mem_cons_of_mem _ done.1, done.2⟩) (fun _ _ opens => opens.tail)
        fun _ opens => opens.tail
    rw [createTransactionDirectory]
    refine Triple.bind (fun _ => (· = world)) (steady stays) fun _ => ?_
    refine Triple.bind (fun _ => (· = world)) (looks _) fun committed => ?_
    dsimp only
    split
    · exact Triple.bind (fun _ => (· = world)) (Triple.pure fun _ same => same) fun rolledBack => decides others _
    · exact Triple.bind (fun _ => (· = world)) (looks _) fun rolledBack => decides others _

end Creating

section Committing

variable {plan : EditPlan} {newFileMode : UInt32} {identifiers : List String}

/-- The paths a plan changes. -/
def changedPaths (plan : EditPlan) : List String := (changedOutputs plan).map fun output => output.path.value

/-- What a commit leaves as it was. -/
structure SparedByCommit (plan : EditPlan) (identifiers : List String) (world later : World) : Prop where
  files : ∀ path ∉ changedPaths plan, later.files path = world.files path
  transactions : ∀ id, id ∈ world.control.transactions ∨ id ∉ identifiers →
    later.control.transactions[id]? = world.control.transactions[id]?
  single : ∃ own, ∀ id ∈ later.control.transactions, id ∈ world.control.transactions ∨ id = own
  completed : ∀ name, (∀ id ∈ identifiers, ∀ committed, name ≠ completedName id committed) →
    later.control.completed[name]? = world.control.completed[name]?
  objects : later.control.objects = world.control.objects

namespace SparedByCommit

theorem refl (world : World) : SparedByCommit plan identifiers world world :=
  ⟨fun _ _ => rfl, fun _ _ => rfl, ⟨"", fun _ member => .inl member⟩, fun _ _ => rfl, rfl⟩

/-- What happens in a new directory within these paths. -/
theorem of_spares {paths : String → Prop} (tried : id ∈ identifiers) (fresh : id ∉ world.control.transactions)
    (named : ∀ path, paths path → path ∈ changedPaths plan)
    (spares : (Scope.ofTransaction id paths).Spares (world.opening setting id) later) :
    SparedByCommit plan identifiers world later where
  files path outside := spares.files path fun inside => outside (named path inside)
  transactions other outside := by
    have different : ¬(Scope.ofTransaction id paths).active other := by
      rintro rfl
      rcases outside with old | untried
      · exact fresh old
      · exact untried tried
    rw [spares.transactions other different, World.opening]
    dsimp only
    rw [OrderedMap.getElem?_insert, if_neg]
    exact fun same => different same.symm
  single := by
    refine ⟨id, fun other member => ?_⟩
    rcases Std.ExtTreeMap.mem_insert.mp (spares.old other member) with same | old
    · exact .inr (OrderedMap.compare_eq_iff.mp same).symm
    · exact .inl old
  completed name outside := spares.completed name fun ⟨committed, same⟩ => outside id tried committed same
  objects := spares.objects

private theorem opening (tried : id ∈ identifiers) (fresh : id ∉ world.control.transactions) :
    SparedByCommit plan identifiers world (world.opening setting id) :=
  have nothing : (Scope.ofTransaction id fun _ => False).Spares (world.opening setting id) (world.opening setting id) := .refl _
  of_spares tried fresh (fun _ impossible => impossible.elim) nothing

end SparedByCommit

private theorem spared_of_mayOpen (opens : World.MayOpen setting identifiers world later) :
    SparedByCommit plan identifiers world later := by
  cases opens with
  | unchanged => exact .refl world
  | opened tried fresh => exact .opening tried fresh

section Opened

variable (tried : id ∈ identifiers) (fresh : id ∉ world.control.transactions)

include tried fresh in
/-- Once its directory is created, a commit stays in it. -/
private theorem commitBuilt_spares {manifest : Manifest}
    (built : buildManifest snapshot plan (changedOutputs plan) id newFileMode = .ok manifest) :
    Triple allowed (· = world.opening setting id) (commitManifest setting manifest snapshot)
      (Keeps (SparedByCommit plan identifiers world)) := by
  obtain ⟨-, -, rfl, -⟩ := buildManifest_ok built
  have within (later : World) (spares : (Scope.ofManifest manifest).Spares (world.opening setting manifest.transactionId) later) :
      SparedByCommit plan identifiers world later := by
    refine .of_spares tried fresh (fun path named => ?_) spares
    rwa [Manifest.targetPaths, buildManifest_paths built] at named
  exact (commitManifest_spares (World.opened_opening setting world manifest.transactionId)).mono (fun _ same => same)
    (fun _ => within) (fun _ => within) within

include tried fresh in
private theorem rollbackOpened_spares : Triple allowed (· = world.opening setting id) (rollbackControlOnly setting id)
    (Keeps (SparedByCommit plan identifiers world)) := by
  have within (later : World) (spares : (Scope.ofTransaction id fun _ => False).Spares (world.opening setting id) later) :
      SparedByCommit plan identifiers world later := .of_spares tried fresh (fun _ impossible => impossible.elim) spares
  exact (spares_of_acts (rollbackControlOnly_acts rfl)).mono (fun _ same => same) (fun _ => within) (fun _ => within) within

end Opened

/-- A commit with its automatic rollback, from any world. -/
theorem commit_spares : Triple allowed (· = world) (commit setting snapshot plan newFileMode identifiers)
    (Keeps (SparedByCommit plan identifiers world)) := by
  have refused (error : FsError) (later : World) (same : later = world) : SparedByCommit plan identifiers world later := by
    subst same
    exact .refl later
  rw [commit]
  refine Triple.computes refused fun _ _ => Triple.computes refused fun _ _ => Triple.computes refused fun _ _ => ?_
  refine Triple.bind _ (createTransactionDirectory_opens.mono (fun _ same => same) (fun _ _ opened => opened)
    (fun _ _ opens => spared_of_mayOpen opens) fun _ opens => spared_of_mayOpen opens) fun id => ?_
  refine Triple.fact fun tried => Triple.fact fun fresh => ?_
  cases built : buildManifest snapshot plan (changedOutputs plan) id newFileMode with
  | ok manifest => exact commitBuilt_spares tried fresh built
  | error error => exact Triple.keepsThen (rollbackOpened_spares tried fresh) fun _ => Triple.refuseKeeps

end Committing

end Srcmv.Fs
