import Srcmv.Model.Fs.World

/-! # Record publication

A record is written to a private temporary, synchronized, renamed to its published name and the
directory synchronized. A state record is checked against the journal first. The journal and the
progress that the source updates in place are passed along as a session.
-/

namespace Srcmv.Fs

open Srcmv.Core Machine

/-- An opened transaction journal. -/
structure TransactionJournal where
  directory : String
  manifestChecksum : String
  originalExistence : List Bool
  limits : TransactionLimits
  projectedDiskBytes : ℕ
  stateRecordBytes : ℕ
  lastState : Option StateSnapshot
  lastChecksum : Option String
deriving DecidableEq

structure Progress where
  state : StateSnapshot
  checksum : String
deriving DecidableEq

/-- The journal and the progress of a running transaction. -/
structure Session where
  journal : TransactionJournal
  progress : Progress
deriving DecidableEq

/-- A state record that passed every check, and the journal once it is published. -/
structure AcceptedState where
  encoded : Bytes
  checksum : String
  journal : TransactionJournal

section Publication

/-- The rename that publishes a record; a state record is remembered beside the world. -/
def World.publish (world : World) (directory temporary published : String) (record : Option StateSnapshot) :
    Except FsError (Unit × World) := do
  let ((), renamed) ← world.renameNoReplace (.artifact directory temporary) (.artifact directory published)
    (.io "publish_record" none) (.io "publish_record" none)
  return ((), { renamed with published := renamed.published ++ record.toList })

variable (setting : Setting)

def publishRecord (directory temporary published : String) (bytes : Bytes) (record : Option StateSnapshot) :
    Engine Unit := do
  io "create_record_temporary" none fun world =>
    world.createNew (.artifact directory temporary) (setting.newIdentity temporary)
      (.io "create_record_temporary" none)
  writeAll (.publication "write_record") (.io "write_record" none) (.artifact directory temporary) bytes
  settle (.publication "flush_record") (.io "flush_record" none)
  settle (.publication "sync_record") (.io "sync_record" none)
  Process.act (.publication "publish_record") (.io "publish_record" none) fun world =>
    world.publish directory temporary published record
  syncDirectory

/-- `TransactionJournal::create`. -/
def createJournal (directory : String) (manifest : Manifest) : Engine TransactionJournal := do
  Process.ofExcept (Except.rejectIf (manifest.transactionId ≠ directory)
    (corrupt (some directory) "manifest_id_mismatch"))
  Process.ofExcept (validateManifest manifest {})
  let encoded ← Process.ofExcept (encodeManifestRecord setting.crates manifest {})
  let projected ← Process.ofExcept (projectedArtifactBytes manifest {})
  Process.ofExcept (Except.rejectIf (projected + encoded.length > u64Max)
    (projectedOverflow maxTransactionDiskBytes))
  let checksum ← Process.ofExcept (recordChecksum encoded)
  publishRecord setting directory "manifest.tmp" "manifest.rec" encoded none
  return {
    directory
    manifestChecksum := checksumText checksum
    originalExistence := manifest.originalExistence
    limits := {}
    projectedDiskBytes := projected + encoded.length
    stateRecordBytes := 0
    lastState := none
    lastChecksum := none }

/-- `TransactionJournal::resume`, given the bytes of the manifest record it reads again. -/
def resumeJournal (directory : String) (manifest : Manifest) (manifestBytes : Bytes) (state : StateSnapshot)
    (checksum : String) (stateRecordBytes : ℕ) : Except FsError TransactionJournal := do
  validateManifest manifest {}
  validateStateAgainstManifest state manifest
  let manifestChecksum ← recordChecksum manifestBytes
  Except.rejectIf (checksumText manifestChecksum ≠ state.manifestChecksum)
    (corrupt (some directory) "recovery_manifest_checksum_mismatch")
  let projected ← projectedArtifactBytes manifest {}
  Except.rejectIf (projected + manifestBytes.length + stateRecordBytes > u64Max)
    (projectedOverflow maxTransactionDiskBytes)
  return {
    directory
    manifestChecksum := checksumText manifestChecksum
    originalExistence := manifest.originalExistence
    limits := {}
    projectedDiskBytes := projected + manifestBytes.length + stateRecordBytes
    stateRecordBytes
    lastState := some state
    lastChecksum := some checksum }

/-- The state follows the last published one, or opens the chain. -/
def TransactionJournal.validateNext (journal : TransactionJournal) (state : StateSnapshot) :
    Except FsError Unit :=
  match journal.lastState with
  | some previous => validateStateTransition previous state journal.limits
  | none => do
      Except.rejectIf (state.sequence ≠ 0 ∨ state.globalState ≠ .preparing)
        (corrupt none "state_zero_must_be_preparing")
      validateStateShape state journal.limits

/-- Every check `publish_state` makes before it touches the directory. -/
def TransactionJournal.acceptState (crates : Crates) (journal : TransactionJournal) (state : StateSnapshot) :
    Except FsError AcceptedState := do
  Except.rejectIf (state.manifestChecksum ≠ journal.manifestChecksum)
    (corrupt none "state_manifest_checksum_mismatch")
  validateStateAgainstOriginals state journal.originalExistence
  Except.rejectIf (state.priorStateChecksum ≠ journal.lastChecksum)
    (corrupt none "state_prior_checksum_mismatch")
  journal.validateNext state
  let encoded ← encodeStateRecord crates state journal.limits
  Except.rejectIf (journal.stateRecordBytes + encoded.length > u64Max)
    (.resourceLimitExceeded "state_record_bytes" u64Max journal.limits.stateBytes)
  Except.rejectIf (journal.stateRecordBytes + encoded.length > journal.limits.stateBytes)
    (.resourceLimitExceeded "state_record_bytes" (journal.stateRecordBytes + encoded.length)
      journal.limits.stateBytes)
  Except.rejectIf (journal.projectedDiskBytes + encoded.length > u64Max)
    (projectedOverflow journal.limits.projectedDiskBytes)
  Except.rejectIf (journal.projectedDiskBytes + encoded.length > journal.limits.projectedDiskBytes)
    (.resourceLimitExceeded "projected_transaction_disk_bytes"
      (journal.projectedDiskBytes + encoded.length) journal.limits.projectedDiskBytes)
  let checksum ← recordChecksum encoded
  return {
    encoded
    checksum := checksumText checksum
    journal := { journal with
      lastState := some state
      lastChecksum := some (checksumText checksum)
      projectedDiskBytes := journal.projectedDiskBytes + encoded.length
      stateRecordBytes := journal.stateRecordBytes + encoded.length } }

/-- A refused state record is remembered beside the world. -/
def acceptedOrRefused (accepted : Except FsError AcceptedState) : Engine AcceptedState :=
  match accepted with
  | .ok accepted => pure accepted
  | .error error => do
      Process.note fun world => { world with refusals := world.refusals ++ [error] }
      Process.refuse error

def publishState (journal : TransactionJournal) (state : StateSnapshot) :
    Engine (TransactionJournal × String) := do
  let accepted ← acceptedOrRefused (journal.acceptState setting.crates state)
  publishRecord setting journal.directory (stateName state.sequence.toNat "tmp")
    (stateName state.sequence.toNat "rec") accepted.encoded (some state)
  return (accepted.journal, accepted.checksum)

/-- The successor of the recorded state with a global state and changed targets. -/
def nextState (progress : Progress) (global : GlobalState)
    (update : List TargetState → Except FsError (List TargetState)) : Except FsError StateSnapshot := do
  Except.rejectIf (progress.state.sequence.toNat + 1 > u64Max) (.internalInvariant "state_sequence_checked")
  let targets ← update progress.state.targets
  return { progress.state with
    sequence := progress.state.sequence + 1
    priorStateChecksum := some progress.checksum
    globalState := global
    targets }

def publishTransition (session : Session) (global : GlobalState)
    (update : List TargetState → Except FsError (List TargetState)) : Engine Session := do
  let next ← Process.ofExcept (nextState session.progress global update)
  let (journal, checksum) ← publishState setting session.journal next
  return ⟨journal, ⟨next, checksum⟩⟩

def publishGlobalTransition (session : Session) (global : GlobalState) : Engine Session :=
  publishTransition setting session global .ok

/-- Change one target of a list. -/
def updateTarget (index : ℕ) (update : TargetState → TargetState) (targets : List TargetState) :
    Except FsError (List TargetState) :=
  match targets[index]? with
  | none => .error (.internalInvariant "state_target_index_exists")
  | some target => .ok (targets.set index (update target))

def publishTargetTransition (session : Session) (global : GlobalState) (index : ℕ)
    (update : TargetState → TargetState) : Engine Session :=
  publishTransition setting session global (updateTarget index update)

end Publication

end Srcmv.Fs
