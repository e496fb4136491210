import Srcmv.Model.Fs.Journal

/-! # Control-tree scans

The control tree holds active transaction directories and completed ones. A scan validates every
directory entry by entry and classifies it; it reads and never writes. Directories map names to
items in name order, and one scan charges all the bytes it reads to one counter. File names that
are not UTF-8 are not represented.
-/

namespace Srcmv.Fs

open Srcmv.Core

/-- A regular file. -/
structure Node where
  identity : FileIdentity
  linkCount : UInt64
  mode : UInt32
  bytes : Bytes
deriving DecidableEq

/-- What a directory entry can be. -/
inductive Item where
  | file (node : Node)
  | symlink
  | other
deriving DecidableEq

/-- A directory's entries in name order. -/
abbrev NameMap (α : Type) := Std.ExtTreeMap String α

inductive ObjectKind where
  | directory
  | file
  | symlink
  | other
deriving DecidableEq

/-- What is checked of a control object. -/
structure ControlObject where
  identity : FileIdentity
  kind : ObjectKind
  ownedByUser : Bool
  mode : UInt32
deriving DecidableEq

structure TransactionDirectory where
  object : ControlObject
  children : NameMap Item

structure ControlTree where
  root : FileIdentity
  control : Option ControlObject
  transactionsRoot : Option ControlObject
  completedRoot : Option ControlObject
  lock : Option ControlObject
  transactions : NameMap TransactionDirectory
  completed : NameMap TransactionDirectory

/-- Recovery-directory classification. -/
inductive RecoveryEntryKind where
  | orphanRecord
  | manifestOnly
  | active
  | cleanupOnly
deriving DecidableEq

/-- One validated recovery entry; the paths are names beneath `transactions` and `completed`. -/
structure RecoveryEntry where
  transactionId : String
  kind : RecoveryEntryKind
  actions : List String
  visibility : String
  activePath : Option String
  completedPath : Option String
deriving DecidableEq

section Names

def stripPrefix (start chars : List Char) : Option (List Char) :=
  if start.isPrefixOf chars then some (chars.drop start.length) else none

def stripSuffix (ending chars : List Char) : Option (List Char) :=
  if ending.isSuffixOf chars then some (chars.take (chars.length - ending.length)) else none

/-- Exactly eight ASCII digits below a bound. -/
def eightDigitsBelow (bound : ℕ) (digits : List Char) : Option ℕ :=
  if digits.length = 8 ∧ digits.all Char.isDigit ∧ Nat.ofDigitChars 10 digits 0 < bound then
    some (Nat.ofDigitChars 10 digits 0)
  else none

def parseStateName (name extension : String) : Option ℕ := do
  let rest ← stripPrefix "state-".toList name.toList
  let digits ← stripSuffix ('.' :: extension.toList) rest
  eightDigitsBelow maxStateRecords digits

def isArtifactName (name kind : String) : Bool :=
  ((stripPrefix (kind.toList ++ ['-']) name.toList).bind (eightDigitsBelow maxTransactionTargets)).isSome

/-- `state-NNNNNNNN` with an extension. -/
def stateName (sequence : ℕ) (extension : String) : String :=
  String.ofList ("state-".toList ++ eightDigits sequence ++ '.' :: extension.toList)

def completedName (transactionId : String) (committed : Bool) : String :=
  transactionId ++ if committed then "-committed" else "-rolledback"

/-- The identifier and terminal state of a completed directory name. -/
def parseCompletedName (name : String) : Option (String × String) :=
  [("-committed", "committed"), ("-rolledback", "rolledback")].findSome? fun entry =>
    (stripSuffix entry.1.toList name.toList).bind fun id =>
      if validateTransactionId (String.ofList id) = .ok () then some (String.ofList id, entry.2) else none

end Names

section Objects

def validateOwnedObject (object : Option ControlObject) (directory : Bool) : Except FsError Unit :=
  match object with
  | none => .error (.controlDirectoryInvalid "control_object_missing")
  | some object =>
      if object.kind ≠ (if directory then ObjectKind.directory else ObjectKind.file) then
        .error (.controlDirectoryInvalid "control_object_type_invalid")
      else if object.ownedByUser = false then
        .error (.controlDirectoryInvalid "control_object_not_owned_by_user")
      else if object.mode &&& 0o022 ≠ 0 then
        .error (.controlDirectoryInvalid "control_object_group_or_other_writable")
      else .ok ()

def validateControlTree (tree : ControlTree) : Except FsError Unit := do
  validateOwnedObject tree.control true
  validateOwnedObject tree.transactionsRoot true
  validateOwnedObject tree.completedRoot true
  validateOwnedObject tree.lock false

def validateTransactionDirectory (object : ControlObject) : Except FsError Unit := do
  validateOwnedObject (some object) true
  Except.rejectIf (object.mode &&& 0o077 ≠ 0) (.controlDirectoryInvalid "transaction_directory_not_private")

end Objects

def Item.length : Item → ℕ
  | .file node => node.bytes.length
  | _ => 0

def Item.isFile : Item → Bool
  | .file _ => true
  | _ => false

/-- Charge bytes to the recovery counter. -/
def chargeRecovery (cumulative length : ℕ) (limits : TransactionLimits) : Except FsError ℕ :=
  if cumulative + length > u64Max then
    .error (.resourceLimitExceeded "recovery_bytes" u64Max limits.recoveryBytes)
  else if cumulative + length > limits.recoveryBytes then
    .error (.resourceLimitExceeded "recovery_bytes" (cumulative + length) limits.recoveryBytes)
  else .ok (cumulative + length)

def readRecordBounded (item : Option Item) (cumulative : ℕ) (limits : TransactionLimits) :
    Except FsError (Bytes × ℕ) :=
  match item with
  | none => .error (.io "inspect_record" none)
  | some (.file node) => do
      Except.rejectIf (node.bytes.length > limits.recordBytes) (corrupt none "record_oversized")
      return (node.bytes, ← chargeRecovery cumulative node.bytes.length limits)
  | some _ => .error (corrupt none "record_not_regular_file")

section Scan

variable (crates : Crates)

/-- What the fold over the state chain carries. -/
structure ChainFold where
  prior : Option (StateSnapshot × String) := none
  stateBytes : ℕ := 0
  cumulative : ℕ

/-- The checks of one chain element against its predecessor. -/
def validateChainElement (id : String) (prior : Option (StateSnapshot × String)) (state : StateSnapshot) :
    Except FsError Unit :=
  match prior with
  | some (previous, priorChecksum) => do
      Except.rejectIf (state.priorStateChecksum ≠ some priorChecksum) (corrupt (some id) "state_chain_fork")
      validateStateTransition previous state {}
  | none =>
      Except.rejectIf (state.sequence ≠ 0 ∨ state.globalState ≠ .preparing ∨ state.priorStateChecksum.isSome)
        (corrupt (some id) "state_zero_invalid")

/-- One iteration of the fold: the state record with the expected sequence. -/
def foldStateRecord (children : NameMap Item) (id : String) (manifest : Manifest)
    (manifestChecksum : Sha256Digest) (stateNames : List (ℕ × String)) (limits : TransactionLimits)
    (fold : ChainFold) (expected : ℕ) : Except FsError ChainFold :=
  match stateNames.lookup expected with
  | none => .error (corrupt (some id) "state_chain_gap")
  | some name => do
      let (bytes, cumulative) ← readRecordBounded children[name]? fold.cumulative limits
      let stateBytes := fold.stateBytes + (cumulative - fold.cumulative)
      Except.rejectIf (stateBytes > u64Max) (corrupt (some id) "state_bytes_overflow")
      Except.rejectIf (stateBytes > limits.stateBytes)
        (.resourceLimitExceeded "state_record_bytes" stateBytes limits.stateBytes)
      let decoded ← decodeStateRecord crates bytes (some id) limits
      let state := decoded.payload
      Except.rejectIf (state.sequence.toNat ≠ expected ∨ state.manifestChecksum ≠ checksumText manifestChecksum ∨
          state.targets.length ≠ manifest.targets.length)
        (corrupt (some id) "state_chain_manifest_or_sequence_mismatch")
      validateStateAgainstManifest state manifest
      validateChainElement id fold.prior state
      return { prior := some (state, checksumText decoded.checksum), stateBytes, cumulative }

def foldStateChain (children : NameMap Item) (id : String) (manifest : Manifest)
    (manifestChecksum : Sha256Digest) (stateNames : List (ℕ × String)) (cumulative : ℕ)
    (limits : TransactionLimits) : Except FsError (StateSnapshot × String × ℕ) := do
  Except.rejectIf (stateNames.length > limits.stateRecords)
    (.resourceLimitExceeded "state_records" stateNames.length limits.stateRecords)
  let fold ← (List.range stateNames.length).foldlM
    (foldStateRecord crates children id manifest manifestChecksum stateNames limits) { cumulative }
  match fold.prior with
  | none => .error (corrupt (some id) "state_chain_empty")
  | some (state, checksum) => .ok (state, checksum, fold.cumulative)

/-- One entry beside a manifest without states: only the first state's temporary is known. -/
def validateManifestOnlyEntry (children : NameMap Item) (id : String) (manifest : Manifest)
    (manifestChecksum : Sha256Digest) (limits : TransactionLimits) (cumulative : ℕ) (name : String) :
    Except FsError ℕ :=
  if name = "manifest.rec" then .ok cumulative
  else if name = "state-00000000.tmp" then do
    let (bytes, cumulative) ← readRecordBounded children[name]? cumulative limits
    let decoded ← decodeStateRecord crates bytes (some id) limits
    let state := decoded.payload
    Except.rejectIf (state.sequence ≠ 0 ∨ state.globalState ≠ .preparing ∨
        state.manifestChecksum ≠ checksumText manifestChecksum)
      (corrupt (some id) "manifest_only_temporary_invalid")
    validateStateAgainstManifest state manifest
    return cumulative
  else .error (corrupt (some id) "manifest_only_unknown_entry")

def Manifest.authorizedNames (manifest : Manifest) : List String :=
  manifest.targets.flatMap fun target => [target.candidateName, target.backupName]

def validateActiveName (children : NameMap Item) (manifest : Manifest) (id name : String) :
    Except FsError Unit := do
  Except.rejectIf (¬(name = "manifest.rec" ∨ name = "manifest.tmp" ∨ (parseStateName name "rec").isSome ∨
      (parseStateName name "tmp").isSome ∨ name ∈ manifest.authorizedNames))
    (corrupt (some id) "active_transaction_unknown_entry")
  Except.rejectIf (name ∈ manifest.authorizedNames ∧ ¬(children[name]?.any Item.isFile))
    (corrupt (some id) "transaction_artifact_not_regular")

/-- What temporaries of an active chain are checked against. -/
structure TemporaryContext where
  manifest : Manifest
  manifestChecksum : Sha256Digest
  lastState : StateSnapshot
  lastChecksum : String

/-- One name: a state temporary must be the complete next record. Carries the count and the counter. -/
def validateTemporary (children : NameMap Item) (id : String) (context : TemporaryContext)
    (limits : TransactionLimits) (carried : ℕ × ℕ) (name : String) : Except FsError (ℕ × ℕ) :=
  match parseStateName name "tmp" with
  | none => .ok carried
  | some sequence => do
      let (bytes, cumulative) ← readRecordBounded children[name]? carried.2 limits
      let decoded ← decodeStateRecord crates bytes (some id) limits
      let state := decoded.payload
      Except.rejectIf (state.sequence.toNat ≠ sequence ∨
          state.sequence.toNat ≠ context.lastState.sequence.toNat + 1 ∨
          state.manifestChecksum ≠ checksumText context.manifestChecksum ∨
          state.priorStateChecksum ≠ some context.lastChecksum)
        (corrupt (some id) "state_temporary_sequence_mismatch")
      validateStateAgainstManifest state context.manifest
      validateStateTransition context.lastState state {}
      return (carried.1 + 1, cumulative)

def validateTemporaries (children : NameMap Item) (id : String) (context : TemporaryContext)
    (cumulative : ℕ) (limits : TransactionLimits) : Except FsError ℕ := do
  Except.rejectIf ("manifest.tmp" ∈ children) (corrupt (some id) "published_manifest_has_temporary")
  Except.rejectIf (context.lastState.sequence.toNat + 1 > u64Max) (corrupt (some id) "state_sequence_overflow")
  let (count, cumulative) ← children.keys.foldlM (validateTemporary crates children id context limits)
    (0, cumulative)
  Except.rejectIf (count > 1) (corrupt (some id) "multiple_state_temporaries")
  return cumulative

def actionsForState : GlobalState → List String
  | .preparing => ["status", "rollback"]
  | .prepared | .committing => ["status", "complete", "rollback"]
  | .committed | .rolledBack => ["status", "cleanup"]
  | .rollingBack => ["status", "rollback"]

def visibilityForState : GlobalState → String
  | .preparing | .prepared | .rolledBack => "all_original"
  | .committing | .rollingBack => "mixed_old_new_possible"
  | .committed => "all_planned"

def activeEntry (id : String) (kind : RecoveryEntryKind) (actions : List String) (visibility : String) :
    RecoveryEntry :=
  ⟨id, kind, actions, visibility, some id, none⟩

/-- A directory without a manifest may hold a complete manifest temporary and nothing else. -/
def inspectOrphan (children : NameMap Item) (id : String) (cumulative : ℕ) (limits : TransactionLimits) :
    Except FsError (RecoveryEntry × ℕ) := do
  Except.rejectIf (children.keys.any fun name => name ≠ "manifest.tmp")
    (corrupt (some id) "orphan_record_unknown_entry")
  let entry := activeEntry id .orphanRecord ["status", "rollback"] "all_original"
  if "manifest.tmp" ∈ children then
    let (bytes, cumulative) ← readRecordBounded children["manifest.tmp"]? cumulative limits
    let decoded ← decodeManifestRecord crates bytes (some id) limits
    Except.rejectIf (decoded.payload.transactionId ≠ id) (corrupt (some id) "manifest_id_mismatch")
    return (entry, cumulative)
  else return (entry, cumulative)

/-- A directory whose manifest has been read: manifest-only, or an active chain. -/
def inspectPublished (children : NameMap Item) (id : String) (manifest : Manifest)
    (manifestChecksum : Sha256Digest) (cumulative : ℕ) (limits : TransactionLimits) :
    Except FsError (RecoveryEntry × ℕ) := do
  let stateNames := children.keys.filterMap fun name => (parseStateName name "rec").map (·, name)
  if stateNames = [] then
    let cumulative ← children.keys.foldlM
      (validateManifestOnlyEntry crates children id manifest manifestChecksum limits) cumulative
    return (activeEntry id .manifestOnly ["status", "rollback"] "all_original", cumulative)
  else
    children.keys.forM (validateActiveName children manifest id)
    let (lastState, lastChecksum, cumulative) ←
      foldStateChain crates children id manifest manifestChecksum stateNames cumulative limits
    let cumulative ← validateTemporaries crates children id
      ⟨manifest, manifestChecksum, lastState, lastChecksum⟩ cumulative limits
    return (activeEntry id .active (actionsForState lastState.globalState)
      (visibilityForState lastState.globalState), cumulative)

def inspectActiveTransaction (children : NameMap Item) (id : String) (cumulative : ℕ)
    (limits : TransactionLimits) : Except FsError (RecoveryEntry × ℕ) :=
  if "manifest.rec" ∈ children then do
    let (bytes, cumulative) ← readRecordBounded children["manifest.rec"]? cumulative limits
    let decoded ← decodeManifestRecord crates bytes (some id) limits
    Except.rejectIf (decoded.payload.transactionId ≠ id) (corrupt (some id) "manifest_id_mismatch")
    inspectPublished crates children id decoded.payload decoded.checksum cumulative limits
  else inspectOrphan crates children id cumulative limits

/-- The sequence a completed state record or temporary is named by. -/
def completedSequence (name : String) : Option ℕ :=
  (parseStateName name "rec").or (parseStateName name "tmp")

/-- One entry of a completed directory; artifacts are charged to the same counter as records. -/
def validateCompletedEntry (id : String) (limits : TransactionLimits) (cumulative : ℕ)
    (entry : String × Item) : Except FsError ℕ := do
  Except.rejectIf (¬(entry.1 = "manifest.rec" ∨ (completedSequence entry.1).isSome ∨
      isArtifactName entry.1 "candidate" ∨ isArtifactName entry.1 "backup"))
    (corrupt (some id) "completed_transaction_unknown_entry")
  Except.rejectIf (¬entry.2.isFile) (corrupt (some id) "completed_entry_not_regular")
  if entry.1 = "manifest.rec" then
    let (bytes, cumulative) ← readRecordBounded (some entry.2) cumulative limits
    let _ ← decodeManifestRecord crates bytes (some id) limits
    return cumulative
  else
    match completedSequence entry.1 with
    | some sequence =>
        let (bytes, cumulative) ← readRecordBounded (some entry.2) cumulative limits
        let decoded ← decodeStateRecord crates bytes (some id) limits
        Except.rejectIf (decoded.payload.sequence.toNat ≠ sequence)
          (corrupt (some id) "completed_state_sequence_mismatch")
        return cumulative
    | none => chargeRecovery cumulative entry.2.length limits

def validateCompletedContents (children : NameMap Item) (id : String) (cumulative : ℕ)
    (limits : TransactionLimits) : Except FsError ℕ :=
  children.toList.foldlM (validateCompletedEntry crates id limits) cumulative

def chargeDirectory (current : ℕ) (limits : TransactionLimits) : Except FsError ℕ :=
  if current + 1 > limits.transactionDirectories then
    .error (.resourceLimitExceeded "transaction_directories" (current + 1) limits.transactionDirectories)
  else .ok (current + 1)

/-- What a scan carries from directory to directory. -/
structure Scan where
  scanned : ℕ := 0
  cumulative : ℕ := 0
  entries : NameMap RecoveryEntry := ∅

def Scan.insert (scan : Scan) (entry : RecoveryEntry) : Except FsError Scan :=
  if entry.transactionId ∈ scan.entries then
    .error (corrupt (some entry.transactionId) "duplicate_transaction_id")
  else .ok { scan with entries := scan.entries.insert entry.transactionId entry }

def scanActive (limits : TransactionLimits) (scan : Scan) (entry : String × TransactionDirectory) :
    Except FsError Scan := do
  let scanned ← chargeDirectory scan.scanned limits
  validateTransactionId entry.1
  validateTransactionDirectory entry.2.object
  let (recovered, cumulative) ←
    inspectActiveTransaction crates entry.2.children entry.1 scan.cumulative limits
  { scan with scanned, cumulative : Scan }.insert recovered

def scanCompleted (limits : TransactionLimits) (scan : Scan) (entry : String × TransactionDirectory) :
    Except FsError Scan := do
  let scanned ← chargeDirectory scan.scanned limits
  match parseCompletedName entry.1 with
  | none => .error (corrupt none "completed_name_invalid")
  | some (id, terminalState) =>
      validateTransactionDirectory entry.2.object
      let cumulative ← validateCompletedContents crates entry.2.children id scan.cumulative limits
      { scan with scanned, cumulative : Scan }.insert ⟨id, .cleanupOnly, ["status", "cleanup"],
        if terminalState = "committed" then "all_planned" else "all_original", none, some entry.1⟩

/-- Validated entries in identifier order. -/
def scanControl (tree : ControlTree) (limits : TransactionLimits) : Except FsError (NameMap RecoveryEntry) := do
  validateControlTree tree
  let active ← tree.transactions.toList.foldlM (scanActive crates limits) {}
  let scan ← tree.completed.toList.foldlM (scanCompleted crates limits) active
  return scan.entries

/-- The validated entry of one transaction. -/
def recoveryEntry (tree : ControlTree) (transactionId : String) : Except FsError RecoveryEntry := do
  validateTransactionId transactionId
  let entries ← scanControl crates tree {}
  match entries[transactionId]? with
  | some entry => .ok entry
  | none => .error (.transactionNotFound transactionId)

end Scan

end Srcmv.Fs
