import Srcmv.Proofs.Fs.Actions
import Srcmv.Proofs.Fs.Recording
import Srcmv.Proofs.Fs.Scanning

/-! # What the engine leaves alone

A sequence of actions within a scope changes no other file, no other directory of the control tree
and no control object, and it creates no transaction. A recovery acts within the scope of the manifest
recorded in its directory; a commit within that of its own manifest, since nothing but its journal
writes the recorded one.
-/

namespace Srcmv.Fs

open Srcmv.Core Machine Process Relation

/-- The control objects of a tree without the directories of transactions. -/
def ControlTree.objects (tree : ControlTree) :
    FileIdentity × Option ControlObject × Option ControlObject × Option ControlObject × Option ControlObject :=
  (tree.root, tree.control, tree.transactionsRoot, tree.completedRoot, tree.lock)

/-- What is outside the scope is as before, and no transaction directory is new. -/
structure Scope.Spares (scope : Scope) (world later : World) : Prop where
  files : ∀ path, ¬scope.paths path → later.files path = world.files path
  transactions : ∀ id, ¬scope.active id → later.control.transactions[id]? = world.control.transactions[id]?
  completed : ∀ name, ¬scope.completed name → later.control.completed[name]? = world.control.completed[name]?
  objects : later.control.objects = world.control.objects
  old : ∀ id ∈ later.control.transactions, id ∈ world.control.transactions

variable {scope : Scope} {setting : Setting} {manifest : Manifest} {world later : World} {id : String}

namespace Scope.Spares

theorem refl (world : World) : scope.Spares world world :=
  ⟨fun _ _ => rfl, fun _ _ => rfl, fun _ _ => rfl, rfl, fun _ member => member⟩

theorem trans {last : World} (first : scope.Spares world later) (second : scope.Spares later last) : scope.Spares world last where
  files path outside := (second.files path outside).trans (first.files path outside)
  transactions id outside := (second.transactions id outside).trans (first.transactions id outside)
  completed name outside := (second.completed name outside).trans (first.completed name outside)
  objects := second.objects.trans first.objects
  old id member := first.old id (second.old id member)

private theorem place {location : Location} (covers : scope.Covers location) (item : Option Item) :
    scope.Spares world (world.place location item) := by
  cases covers with
  | target named =>
    refine ⟨fun path outside => ?_, fun _ _ => rfl, fun _ _ => rfl, rfl, fun _ member => member⟩
    refine Function.update_of_ne ?_ _ _
    rintro rfl
    exact outside named
  | artifact own named =>
    refine ⟨fun _ _ => rfl, fun id outside => ?_, fun _ _ => rfl, rfl, fun id member => ?_⟩
    · simp only [World.place, ControlTree.alterChildren]
      rw [OrderedMap.getElem?_alter, if_neg]
      rintro rfl
      exact outside own
    · simp only [World.place, ControlTree.alterChildren] at member
      rw [Std.ExtTreeMap.mem_iff_isSome_getElem?, OrderedMap.getElem?_alter] at member
      rw [Std.ExtTreeMap.mem_iff_isSome_getElem?]
      split at member
      · next same => rwa [Option.isSome_map, same] at member
      · exact member

private theorem removeChild {path : DirectoryPath} (owns : scope.Owns path) (name : String) :
    scope.Spares world (world.removeChild path name) := by
  cases path with
  | active own =>
    refine ⟨fun _ _ => rfl, fun id outside => ?_, fun _ _ => rfl, rfl, fun id member => ?_⟩
    · simp only [World.removeChild, ControlTree.alterChildren]
      rw [OrderedMap.getElem?_alter, if_neg]
      rintro rfl
      exact outside owns
    · simp only [World.removeChild, ControlTree.alterChildren] at member
      rw [Std.ExtTreeMap.mem_iff_isSome_getElem?, OrderedMap.getElem?_alter] at member
      rw [Std.ExtTreeMap.mem_iff_isSome_getElem?]
      split at member
      · next same => rwa [Option.isSome_map, same] at member
      · exact member
  | completed directory =>
    refine ⟨fun _ _ => rfl, fun _ _ => rfl, fun other outside => ?_, rfl, fun _ member => member⟩
    simp only [World.removeChild, ControlTree.alterCompleted]
    rw [OrderedMap.getElem?_alter, if_neg]
    rintro rfl
    exact outside owns

private theorem removeDirectory {path : DirectoryPath} {error : FsError} (owns : scope.Owns path)
    (removed : world.removeDirectory path error = .ok ((), later)) : scope.Spares world later := by
  unfold World.removeDirectory at removed
  split at removed
  · cases removed
    cases path with
    | active own =>
      refine ⟨fun _ _ => rfl, fun id outside => ?_, fun _ _ => rfl, rfl, fun id member => Std.ExtTreeMap.mem_of_mem_erase member⟩
      rw [OrderedMap.getElem?_erase, if_neg]
      rintro rfl
      exact outside owns
    | completed directory =>
      refine ⟨fun _ _ => rfl, fun _ _ => rfl, fun other outside => ?_, rfl, fun _ member => member⟩
      rw [OrderedMap.getElem?_erase, if_neg]
      rintro rfl
      exact outside owns
  · cases removed

private theorem renameTerminal {name : String} (active : scope.active id) (completed : scope.completed name)
    (renamed : world.renameTerminal id name = .ok ((), later)) : scope.Spares world later := by
  rw [World.renameTerminal] at renamed
  split at renamed
  · cases renamed
  · cases renamed
  · cases renamed
    refine ⟨fun _ _ => rfl, fun other outside => ?_, fun other outside => ?_, rfl, fun _ member => Std.ExtTreeMap.mem_of_mem_erase member⟩
    · rw [OrderedMap.getElem?_erase, if_neg]
      rintro rfl
      exact outside active
    · rw [OrderedMap.getElem?_insert, if_neg]
      rintro rfl
      exact outside completed

end Scope.Spares

theorem Action.spares (acted : Action scope world later) : scope.Spares world later := by
  cases acted with
  | place covers item => exact .place covers item
  | history published refusals => exact ⟨fun _ _ => rfl, fun _ _ => rfl, fun _ _ => rfl, rfl, fun _ member => member⟩
  | removeChild owns name => exact .removeChild owns name
  | removeDirectory owns removed => exact .removeDirectory owns removed
  | renameTerminal active completed renamed => exact .renameTerminal active completed renamed

/-- A process that acts within a scope spares what is outside. -/
theorem spares_of_acts {α : Type} {post : α → Prop} {process : Engine α} {allowed : Site → Went → Prop}
    (acts : ActsFrom (Action scope) post process world) : Triple allowed (· = world) process (Keeps (scope.Spares world)) :=
  acts.keeps (fun _ _ acted spared => spared.trans acted.spares) (.refl world)

section Recovery

/-- The manifest a transaction directory records, if it can be read. -/
def World.recordedManifest? (crates : Crates) (world : World) (id : String) : Option Manifest :=
  match world.item? (.artifact id "manifest.rec") with
  | some (.file node) => (decodeManifestRecord crates node.bytes none {}).toOption.map DecodedRecord.payload
  | _ => none

/-- The paths of the targets it records. -/
def World.recordedPaths (crates : Crates) (world : World) (id : String) : List String :=
  ((world.recordedManifest? crates id).map Manifest.targetPaths).getD []

/-- What a recovery of this transaction may touch. -/
abbrev Scope.ofRecorded (crates : Crates) (world : World) (id : String) : Scope :=
  .ofTransaction id (· ∈ world.recordedPaths crates id)

theorem LoadedTransaction.in_ofTransaction {paths : String → Prop} {session : Session} (own : manifest.transactionId = id)
    (directory : session.journal.directory = id) (named : ∀ target ∈ manifest.targets, paths target.path) :
    LoadedTransaction.In (.ofTransaction id paths) ⟨manifest, session⟩ where
  manifest := ⟨⟨own, fun _ => trivial, fun _ => trivial⟩, fun target member => ⟨named target member, trivial, trivial⟩,
    fun committed => ⟨committed, by rw [own]⟩⟩
  session := ⟨directory, fun _ => trivial, fun _ => trivial⟩

private theorem readArtifact_eq {name operation : String} {bytes : Bytes}
    (read : (match world.item? (.artifact id name) with
      | some (.file node) => .ok node.bytes
      | _ => .error (.io operation none) : Except FsError Bytes) = .ok bytes) :
    ∃ node, world.item? (.artifact id name) = some (.file node) ∧ node.bytes = bytes := by
  split at read
  · next node found => exact ⟨node, found, Except.ok.inj read⟩
  · cases read

/-- What is loaded comes from the recorded manifest. -/
theorem loadActiveTransaction_acts : ActsFrom (Action (.ofRecorded setting.crates world id))
    (LoadedTransaction.In (.ofRecorded setting.crates world id)) (loadActiveTransaction setting id) world := by
  rw [loadActiveTransaction, readArtifact, ioRead]
  refine ActsFrom.observes fun bytes read => ActsFrom.computes fun decoded decodes => ActsFrom.computes fun _ same => ?_
  obtain ⟨node, found, rfl⟩ := readArtifact_eq read
  rw [Except.rejectIf_eq_ok, not_not] at same
  have recorded : world.recordedManifest? setting.crates id = some decoded.payload := by
    rw [World.recordedManifest?, found]
    dsimp only
    rw [decodes]
    rfl
  apply ActsTo.anywhere
  refine ioRead_acts.andThen fun names => ?_
  refine Acts.andThen (Acts.foldlM {} fun states name _ => loadEntry_acts rfl fun _ => trivial) fun loaded => ?_
  refine syncDirectory_acts.andThen fun _ => Acts.ofExcept.andThen fun last => ?_
  refine Acts.andThen ioRead_acts fun again => ?_
  refine (ActsTo.ofExcept fun (journal : TransactionJournal) resumed => (resumeJournal_directory resumed : journal.directory = id)).bind
    fun journal directory => ActsTo.returns ?_
  refine LoadedTransaction.in_ofTransaction same directory fun target member => ?_
  rw [World.recordedPaths, recorded]
  exact List.mem_map_of_mem member

private theorem parseCompletedName_eq {name terminal : String} (parsed : parseCompletedName name = some (id, terminal)) :
    ∃ committed, name = completedName id committed := by
  have named (ending : String) (rest : List Char) (stripped : stripSuffix ending.toList name.toList = some rest) :
      name = String.ofList rest ++ ending := by
    rw [← String.toList_inj, String.toList_append, String.toList_ofList]
    exact eq_append_of_stripSuffix stripped
  rw [parseCompletedName] at parsed
  obtain ⟨⟨ending, state⟩, member, parsed⟩ := List.exists_of_findSome?_eq_some parsed
  obtain ⟨rest, stripped, valid⟩ := Option.bind_eq_some_iff.mp parsed
  split at valid
  · cases valid
    have name_eq := named ending rest stripped
    rcases List.mem_cons.mp member with same | last
    · cases same
      exact ⟨true, name_eq⟩
    · cases List.mem_singleton.mp last
      exact ⟨false, name_eq⟩
  · cases valid

/-- An entry of a transaction names that transaction's directories. -/
private theorem recoveryEntry_names {tree : ControlTree} {crates : Crates} {entry : RecoveryEntry}
    (found : recoveryEntry crates tree id = .ok entry) : entry.transactionId = id ∧
      (∀ name, entry.activePath = some name → name = id) ∧
      ∀ name, entry.completedPath = some name → ∃ committed, name = completedName id committed := by
  rw [recoveryEntry] at found
  obtain ⟨_, -, found⟩ := Except.bind_eq_ok.mp found
  obtain ⟨entries, scanned, found⟩ := Except.bind_eq_ok.mp found
  split at found
  · next other present =>
    cases found
    rcases scan_entry scanned present with ⟨directory, -, total, inspected⟩ | ⟨name, directory, -, completes, same⟩
    · obtain ⟨same, active, completed⟩ := inspect_entry inspected
      rw [active, completed]
      exact ⟨same, fun _ named => (Option.some.inj named).symm, fun _ named => by cases named⟩
    · obtain ⟨own, terminal, parsed, rfl, -⟩ := completes
      refine ⟨same, fun _ impossible => (by cases impossible), fun _ named => ?_⟩
      cases named
      obtain rfl : own = id := same
      exact parseCompletedName_eq parsed
  · cases found

theorem rollbackControlOnly_acts {scope : Scope} (own : scope.active id) :
    ActsFrom (Action scope) (fun _ => True) (rollbackControlOnly setting id) world := by
  rw [rollbackControlOnly, scanRecoveryEntry, ioRead]
  refine ActsFrom.observes fun entry found => ActsTo.anywhere ?_
  obtain ⟨-, active, -⟩ := recoveryEntry_names found
  split
  · split
    · exact ActsTo.refuse
    · next name named =>
      obtain rfl := active name named
      have owns : scope.Owns (.active name) := own
      refine (removeValidatedChildren_acts owns).andThen fun _ => Acts.andThen (Acts.act fun _ value _ removed => ?_)
        fun _ => syncDirectory_acts
      cases value
      exact .single (.removeDirectory owns removed)
  · exact ActsTo.refuse

/-- A recovery stays within the scope of the recorded manifest. -/
theorem recoverLocked_acts (mode : RecoveryMode) : ActsFrom (Action (.ofRecorded setting.crates world id)) (fun _ => True)
    (recoverLocked setting id mode) world := by
  rw [recoverLocked, scanRecoveryEntry, ioRead]
  refine ActsFrom.observes fun entry found => ?_
  obtain ⟨-, -, completed⟩ := recoveryEntry_names found
  split
  · rw [recoverCleanup]
    split
    · exact ActsTo.refuse.anywhere
    · next name named =>
      refine ActsTo.anywhere (Acts.ofExcept.andThen fun _ => Acts.andThen ?_ fun _ => Acts.pure)
      rw [cleanupCompleted, named]
      exact cleanupCompletedDirectory_acts (completed name named)
  · unfold recoverUnpublished
    split
    · exact ActsTo.refuse.anywhere
    · exact (rollbackControlOnly_acts rfl).bind fun _ _ => Acts.pure
  · unfold recoverUnpublished
    split
    · exact ActsTo.refuse.anywhere
    · exact (rollbackControlOnly_acts rfl).bind fun _ _ => Acts.pure
  · rw [recoverActive]
    refine loadActiveTransaction_acts.bind fun loaded inside => ?_
    dsimp only
    split
    · exact (recoverCompleteActive_acts inside).andThen fun _ => Acts.pure
    · exact (recoverRollbackActive_acts inside).andThen fun _ => Acts.pure

end Recovery

section Recorded

/-- The directory of the transaction records this manifest or none. -/
def Manifest.RecordedAlone (crates : Crates) (manifest : Manifest) (world : World) : Prop :=
  ∀ found, world.recordedManifest? crates manifest.transactionId = some found → found = manifest

private theorem item?_erased {other : String} {control : ControlTree}
    (erased : control.transactions = world.control.transactions.erase other) (name : String) :
    ({ world with control } : World).item? (.artifact id name) = world.item? (.artifact id name) ∨
      ({ world with control } : World).item? (.artifact id name) = none := by
  simp only [World.item?, ControlTree.children, erased]
  rw [OrderedMap.getElem?_erase]
  split
  · exact .inr Std.ExtTreeMap.getElem?_empty
  · exact .inl rfl

/-- Within a scope that spares it the recorded manifest can only disappear. -/
theorem Action.publishedManifest (acted : Action scope world later) (spared : ¬scope.names "manifest.rec") :
    later.item? (.artifact id "manifest.rec") = world.item? (.artifact id "manifest.rec") ∨
      later.item? (.artifact id "manifest.rec") = none := by
  cases acted with
  | place covers item =>
    refine .inl (World.item?_place_ne ?_ item)
    rintro rfl
    cases covers with
    | artifact own named => exact spared named
  | history published refusals => exact .inl rfl
  | removeChild owns name =>
    rename_i path
    cases path with
    | completed directory => exact .inl rfl
    | active own =>
      simp only [World.removeChild, World.item?, ControlTree.children, ControlTree.alterChildren]
      rw [OrderedMap.getElem?_alter]
      split
      · next same =>
        subst same
        cases world.control.transactions[own]? with
        | none => exact .inl rfl
        | some directory =>
          simp only [Option.map_some, Option.getD_some]
          rw [OrderedMap.getElem?_erase]
          split
          · exact .inr rfl
          · exact .inl rfl
      · exact .inl rfl
  | removeDirectory owns removed =>
    rename_i path error
    unfold World.removeDirectory at removed
    split at removed
    · cases removed
      cases path with
      | active own => exact item?_erased rfl _
      | completed directory => exact .inl rfl
    · cases removed
  | renameTerminal active completed renamed =>
    rw [World.renameTerminal] at renamed
    split at renamed
    · cases renamed
    · cases renamed
    · cases renamed
      exact item?_erased rfl _

theorem Action.recordedAlone {crates : Crates} (acted : Action scope world later) (spared : ¬scope.names "manifest.rec")
    (alone : manifest.RecordedAlone crates world) : manifest.RecordedAlone crates later := by
  intro found recorded
  apply alone found
  have published : later.item? (.artifact manifest.transactionId "manifest.rec") =
      world.item? (.artifact manifest.transactionId "manifest.rec") ∨
      later.item? (.artifact manifest.transactionId "manifest.rec") = none := acted.publishedManifest spared
  rcases published with same | gone
  · rwa [World.recordedManifest?, same] at recorded
  · rw [World.recordedManifest?, gone] at recorded
    cases recorded

private theorem differ (entry : Entry) (other : entry ≠ .manifest) : entry.name ≠ "manifest.rec" :=
  fun same => other (Entry.name_injective same)

theorem Manifest.Valid.in_sparing (valid : manifest.Valid) : manifest.In (Scope.ofManifest manifest).sparing where
  records := ⟨rfl, fun sequence => ⟨trivial, differ (.temporary sequence) (by simp)⟩,
    fun sequence => ⟨trivial, differ (.record sequence) (by simp)⟩⟩
  targets target member := by
    obtain ⟨index, found⟩ := List.mem_iff_getElem?.mp member
    have named := valid.target index target found
    refine ⟨List.mem_map_of_mem member, ⟨trivial, ?_⟩, trivial, ?_⟩
    · rw [named.candidateName]
      exact differ (.candidate index) (by simp)
    · rw [named.backupName]
      exact differ (.backup index) (by simp)
  completed committed := ⟨committed, rfl⟩

end Recorded

end Srcmv.Fs
