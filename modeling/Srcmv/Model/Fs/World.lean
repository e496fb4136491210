import Srcmv.Machine.Process
import Srcmv.Model.Fs.Workspace

/-! # The filesystem the engine acts on

A world is the workspace's files by path and the control tree. Every system call the engine makes
that can change the world, fail, or be the last one before a crash is one step at a site; a whole
scan or read is one observation, and a record or candidate is written byte by byte. A path names
exactly one entry. The engine's own history is recorded beside the world and read by no function.
-/

namespace Srcmv.Fs

open Srcmv.Core Machine

/-- Where a step is taken: an ordinary system call, one inside record publication once the temporary
exists, an `exists()` check, or one after the terminal directory rename. -/
inductive Site where
  | io (operation : String)
  | publication (operation : String)
  | existence (subject : String)
  | terminal (committed : Bool) (operation : String)
deriving DecidableEq

structure World where
  files : String → Option Item
  control : ControlTree
  /-- The state records published so far, oldest first. -/
  published : List StateSnapshot := []
  /-- What the checks before publishing a state record refused. -/
  refusals : List FsError := []

/-- Processes of the engine. -/
abbrev Engine := Process World Site FsError

/-- Identities captured when the mutation lock was taken. -/
structure ControlIdentities where
  root : FileIdentity
  control : FileIdentity
  transactions : FileIdentity
  completed : FileIdentity
  lock : FileIdentity
deriving DecidableEq

/-- What stays the same during a run: the crates, the workspace around its files, the held lock, and
the identity the system gives to each file created in a transaction directory. -/
structure Setting where
  crates : Crates
  identity : FileIdentity
  parents : String → Except FsError (FileIdentity × List FileIdentity)
  qualified : Except FsError Unit
  lock : ControlIdentities
  newIdentity : String → FileIdentity

/-- The workspace as the setting and the current files show it. -/
def Setting.view (setting : Setting) (world : World) : WorkspaceView :=
  ⟨setting.identity, setting.parents, world.files⟩

/-- A file the engine touches: a target, or an artifact of an active transaction. -/
inductive Location where
  | target (path : String)
  | artifact (transactionId name : String)
deriving DecidableEq

section Tree

def ControlTree.children (tree : ControlTree) (transactionId : String) : NameMap Item :=
  ((tree.transactions[transactionId]?).map TransactionDirectory.children).getD ∅

def ControlTree.alterChildren (tree : ControlTree) (transactionId : String)
    (update : NameMap Item → NameMap Item) : ControlTree :=
  { tree with transactions := tree.transactions.alter transactionId fun directory =>
      directory.map fun directory => { directory with children := update directory.children } }

def ControlTree.alterCompleted (tree : ControlTree) (name : String)
    (update : NameMap Item → NameMap Item) : ControlTree :=
  { tree with completed := tree.completed.alter name fun directory =>
      directory.map fun directory => { directory with children := update directory.children } }

end Tree

namespace World

def item? (world : World) : Location → Option Item
  | .target path => world.files path
  | .artifact transactionId name => (world.control.children transactionId)[name]?

/-- Put an item at a location, or remove what is there. -/
def place (world : World) (location : Location) (item : Option Item) : World :=
  match location with
  | .target path => { world with files := Function.update world.files path item }
  | .artifact transactionId name =>
      { world with control := world.control.alterChildren transactionId fun children =>
          children.alter name fun _ => item }

end World

section Primitives

/-- A system call reported as `operation`. -/
def io {α : Type} (operation : String) (path : Option String) (effect : World → Except FsError (α × World)) : Engine α :=
  Process.act (.io operation) (.io operation path) effect

/-- A read reported as `operation`. -/
def ioRead {α : Type} (operation : String) (path : Option String) (view : World → Except FsError α) : Engine α :=
  Process.observe (.io operation) (.io operation path) view

/-- Flush or synchronize: a step without visible effect. -/
def settle (site : Site) (error : FsError) : Engine Unit := Process.act site error fun world => .ok ((), world)

def syncDirectory : Engine Unit := settle (.io "sync_directory") (.io "sync_directory" none)

/-- `create_new`: an empty private file, unless the location is taken. -/
def World.createNew (world : World) (location : Location) (identity : FileIdentity) (error : FsError) :
    Except FsError (Unit × World) :=
  match world.item? location with
  | some _ => .error error
  | none => .ok ((), world.place location (some (.file ⟨identity, 1, 0o600, []⟩)))

/-- Append one byte to an open file. -/
def World.appendByte (world : World) (location : Location) (byte : UInt8) (error : FsError) :
    Except FsError (Unit × World) :=
  match world.item? location with
  | some (.file node) =>
      .ok ((), world.place location (some (.file { node with bytes := node.bytes ++ [byte] })))
  | _ => .error error

/-- `write_all`, one byte at a time. -/
def writeAll (site : Site) (error : FsError) (location : Location) (bytes : Bytes) : Engine Unit :=
  bytes.foldlM (fun _ byte => Process.act site error fun world => world.appendByte location byte error) ()

def World.removeFile (world : World) (location : Location) (error : FsError) : Except FsError (Unit × World) :=
  match world.item? location with
  | some _ => .ok ((), world.place location none)
  | none => .error error

/-- A rename that never replaces its destination. -/
def World.renameNoReplace (world : World) (source destination : Location) (missing collision : FsError) :
    Except FsError (Unit × World) :=
  match world.item? source, world.item? destination with
  | none, _ => .error missing
  | some _, some _ => .error collision
  | some item, none => .ok ((), (world.place source none).place destination (some item))

/-- `Errno::XDEV`, `INVAL`, `NOSYS` and `NOTSUP`, as Linux numbers them. -/
def crossDeviceErrno : ℕ := 18
def noReplaceErrnos : List ℕ := [22, 38, 95]

/-- What a rename without replacement reports when the system turns it down; that its destination is taken
it sees for itself. -/
def renameDenied (operation : String) (errno : ℕ) : FsError :=
  if errno = crossDeviceErrno then .crossDeviceTransaction
  else if errno ∈ noReplaceErrnos then .noReplaceUnavailable
  else .io operation none

def World.changeMode (world : World) (location : Location) (mode : UInt32) (error : FsError) :
    Except FsError (Unit × World) :=
  match world.item? location with
  | some (.file node) => .ok ((), world.place location (some (.file { node with mode := mode &&& 0o7777 })))
  | _ => .error error

end Primitives

section Control

def objectIdentity (object : Option ControlObject) : Except FsError FileIdentity :=
  match object with
  | some object => .ok object.identity
  | none => .error (.io "capture_control_identity" none)

def captureControlIdentities (tree : ControlTree) : Except FsError ControlIdentities := do
  return ⟨tree.root, ← objectIdentity tree.control, ← objectIdentity tree.transactionsRoot,
    ← objectIdentity tree.completedRoot, ← objectIdentity tree.lock⟩

variable (setting : Setting)

def revalidateControlIdentities : Engine Unit :=
  ioRead "capture_control_identity" none fun world => do
    let captured ← captureControlIdentities world.control
    Except.rejectIf (captured ≠ setting.lock) (.controlDirectoryInvalid "control_identity_changed")

def scanRecoveryEntry (transactionId : String) : Engine RecoveryEntry :=
  ioRead "read_control_directory" none fun world =>
    recoveryEntry setting.crates world.control transactionId

/-- What is removed when a transaction directory is cleaned up. -/
inductive DirectoryPath where
  | active (transactionId : String)
  | completed (name : String)
deriving DecidableEq

def World.childrenOf (world : World) : DirectoryPath → NameMap Item
  | .active transactionId => world.control.children transactionId
  | .completed name => ((world.control.completed[name]?).map TransactionDirectory.children).getD ∅

def World.removeChild (world : World) (path : DirectoryPath) (name : String) : World :=
  { world with control :=
      match path with
      | .active transactionId => world.control.alterChildren transactionId fun children => children.erase name
      | .completed directory => world.control.alterCompleted directory fun children => children.erase name }

def World.removeDirectory (world : World) (path : DirectoryPath) (error : FsError) :
    Except FsError (Unit × World) :=
  if world.childrenOf path = ∅ then
    .ok ((), { world with control :=
      match path with
      | .active transactionId =>
          { world.control with transactions := world.control.transactions.erase transactionId }
      | .completed name => { world.control with completed := world.control.completed.erase name } })
  else .error error

/-- Sites of a cleanup, after a terminal rename or on its own. -/
abbrev SiteOf := String → Site

/-- Remove one child after checking that it is a regular file. -/
def removeValidatedChild (site : SiteOf) (path : DirectoryPath) (name : String) : Engine Unit := do
  Process.observe (site "inspect_cleanup_entry") (.io "inspect_cleanup_entry" none) fun world =>
    match (world.childrenOf path)[name]? with
    | none => .error (.io "inspect_cleanup_entry" none)
    | some item => Except.rejectIf (¬item.isFile) (corrupt none "cleanup_entry_not_regular")
  Process.act (site "remove_cleanup_entry") (.io "remove_cleanup_entry" none) fun world =>
    .ok ((), world.removeChild path name)

/-- Remove every child in name order. -/
def removeValidatedChildren (site : SiteOf) (path : DirectoryPath) : Engine Unit := do
  let names ← Process.observe (site "read_control_directory") (.io "read_control_directory" none) fun world =>
    .ok (world.childrenOf path).keys
  names.foldlM (fun _ name => removeValidatedChild site path name) ()
  settle (site "sync_directory") (.io "sync_directory" none)

def cleanupCompletedDirectory (site : SiteOf) (name transactionId : String) : Engine Unit := do
  Process.observe (site "inspect_completed_entry") (.io "inspect_completed_entry" none) fun world => do
    let _ ← validateCompletedContents setting.crates (world.childrenOf (.completed name)) transactionId 0 {}
  removeValidatedChildren site (.completed name)
  Process.act (site "remove_completed_directory") (.io "remove_completed_directory" none) fun world =>
    world.removeDirectory (.completed name) (.io "remove_completed_directory" none)
  settle (site "sync_directory") (.io "sync_directory" none)

/-- Remove an orphan or manifest-only transaction without touching any target. -/
def rollbackControlOnly (transactionId : String) : Engine Unit := do
  let entry ← scanRecoveryEntry setting transactionId
  if entry.kind = .orphanRecord ∨ entry.kind = .manifestOnly then
    match entry.activePath with
    | none => Process.refuse (.internalInvariant "control_only_recovery_has_active_path")
    | some name =>
        removeValidatedChildren Site.io (.active name)
        io "remove_transaction_directory" none fun world =>
          world.removeDirectory (.active name) (.io "remove_transaction_directory" none)
        syncDirectory
  else
    Process.refuse (.recoveryActionNotAllowed transactionId "phase_5_allows_only_control_only_rollback")

/-- Move the active directory under `completed` unless its name is taken there. -/
def World.renameTerminal (world : World) (transactionId name : String) : Except FsError (Unit × World) :=
  match world.control.transactions[transactionId]?, world.control.completed[name]? with
  | none, _ => .error (.io "terminal_directory_rename" none)
  | some _, some _ => .error (.recoveryConflict "completed_directory_collision")
  | some directory, none =>
      .ok ((), { world with control := { world.control with
        transactions := world.control.transactions.erase transactionId
        completed := world.control.completed.insert name directory } })

def finishTransaction (transactionId : String) (committed : Bool) : Engine Unit := do
  Process.ofExcept (validateTransactionId transactionId)
  let name := completedName transactionId committed
  Process.call (.io "terminal_directory_rename") (renameDenied "terminal_directory_rename") fun world =>
    world.renameTerminal transactionId name
  settle (.terminal committed "sync_directory") (.io "sync_directory" none)
  settle (.terminal committed "sync_directory") (.io "sync_directory" none)
  cleanupCompletedDirectory setting (.terminal committed) name transactionId

def cleanupCompleted (entry : RecoveryEntry) : Engine Unit :=
  match entry.completedPath with
  | none => Process.refuse (.internalInvariant "cleanup_entry_has_completed_path")
  | some name => cleanupCompletedDirectory setting Site.io name entry.transactionId

/-- Remove the directory of an entry, if it is a completed one. -/
def cleanupIfCompleted (entry : RecoveryEntry) : Engine Unit :=
  match entry.completedPath with
  | none => pure ()
  | some name => cleanupCompletedDirectory setting Site.io name entry.transactionId

/-- Refuse a new transaction while one is active; otherwise remove every completed directory. -/
def gateNewTransaction : Engine Unit := do
  let entries ← ioRead "read_control_directory" none fun world => scanControl setting.crates world.control {}
  let active := entries.toList.filter fun entry => entry.2.activePath.isSome
  if active ≠ [] then
    Process.refuse (.transactionRecoveryRequired (active.map fun entry => entry.2.transactionId))
  else entries.toList.foldlM (fun _ entry => cleanupIfCompleted setting entry.2) ()

/-- Create a private active directory under the first identifier that is free. -/
def createTransactionDirectory : List String → Engine String
  | [] => Process.refuse (.resourceLimitExceeded "transaction_id_collision_attempts" 8 8)
  | transactionId :: rest => do
      io "generate_transaction_id" none fun world => .ok ((), world)
      let committed ← Process.probe (.existence "completed") fun world =>
        (world.control.completed[completedName transactionId true]?).isSome
      let rolledBack ← if committed then pure true else
        Process.probe (.existence "completed") fun world =>
          (world.control.completed[completedName transactionId false]?).isSome
      if committed || rolledBack then createTransactionDirectory rest
      else
        let created ← io "create_transaction_directory" none fun world =>
          match world.control.transactions[transactionId]? with
          | some _ => .ok (false, world)
          | none => .ok (true, { world with control := { world.control with
              transactions := world.control.transactions.insert transactionId
                ⟨⟨setting.newIdentity transactionId, .directory, true, 0o700⟩, ∅⟩ } })
        if created then do
          syncDirectory
          return transactionId
        else createTransactionDirectory rest

end Control

end Srcmv.Fs
