import Srcmv.Model.Fs.Control

/-! # Snapshot acquisition

Paths are looked up in a view of the workspace: the outcome of the walk over the parents of each
path, and the item its final component names. The view stays as it is while a snapshot is acquired,
so the stability checks of a read pass at its first attempt and the retry loop is not modelled.
Two spellings may be given the same item by the view; aliases are rejected by the identity of the
files found.
-/

namespace Srcmv.Fs

open Srcmv.Core

/-- What the workspace shows when it is looked at. -/
structure WorkspaceView where
  identity : FileIdentity
  /-- Identity of the parent and of every directory on the way, or why the walk stops. -/
  parents : String → Except FsError (FileIdentity × List FileIdentity)
  item : String → Option Item

structure SnapshotLimits where
  pathBytes : ℕ := 4096
  identities : ℕ := 1000
  fileBytes : ℕ := 256 * 1024 * 1024
  totalBytes : ℕ := 1024 * 1024 * 1024
  totalLines : ℕ := 5000000
  lineIndexMemory : ℕ := 256 * 1024 * 1024
deriving DecidableEq

/-- The required initial state of a snapshot path. -/
inductive RequiredPathState where
  | existing (digest : Sha256Digest)
  | absent
deriving DecidableEq

structure SnapshotRequirement where
  path : WorkspaceRelativePath
  state : RequiredPathState
deriving DecidableEq

inductive ValidatedKind where
  | existing (identity : FileIdentity)
  | absent
deriving DecidableEq

structure ValidatedPath where
  parentIdentity : FileIdentity
  parentIdentities : List FileIdentity
  basename : String
  kind : ValidatedKind
deriving DecidableEq

structure SnapshotAccounting where
  identities : ℕ := 0
  bytes : ℕ := 0
  lines : ℕ := 0
  indexMemory : ℕ := 0
deriving DecidableEq

inductive AcquiredPath where
  | existing (file : FileSnapshot)
  | absent (missing : AbsentPathSnapshot)
deriving DecidableEq

def enforceFsLimit (resource : String) (actual limit : ℕ) : Except FsError Unit :=
  Except.rejectIf (actual > limit) (.resourceLimitExceeded resource actual limit)

def checkedFsAdd (left right : ℕ) (resource : String) : Except FsError ℕ :=
  if left + right ≤ u64Max then .ok (left + right)
  else .error (.resourceLimitExceeded resource u64Max (u64Max - 1))

namespace SnapshotAccounting

def chargeIdentity (accounting : SnapshotAccounting) (limits : SnapshotLimits) :
    Except FsError SnapshotAccounting := do
  let identities ← checkedFsAdd accounting.identities 1 "snapshot_identities"
  enforceFsLimit "snapshot_identities" identities limits.identities
  return { accounting with identities }

def chargeFile (accounting : SnapshotAccounting) (file : FileSnapshot) (limits : SnapshotLimits) :
    Except FsError SnapshotAccounting := do
  let bytes ← checkedFsAdd accounting.bytes file.bytes.length "snapshot_bytes"
  enforceFsLimit "snapshot_bytes" bytes limits.totalBytes
  let lines ← checkedFsAdd accounting.lines file.lineIndex.lineCount "line_count"
  enforceFsLimit "line_count" lines limits.totalLines
  let indexMemory ← checkedFsAdd accounting.indexMemory file.lineIndex.memoryBytes "line_index_memory"
  enforceFsLimit "line_index_memory" indexMemory limits.lineIndexMemory
  return { accounting with bytes, lines, indexMemory }

end SnapshotAccounting

def parseRelativePath (value : String) (limit : ℕ) : Except FsError WorkspaceRelativePath := do
  enforceFsLimit "path_bytes" (utf8Bytes value).length limit
  Except.rejectIf (value.toList = []) (.invalidPath value "path_empty")
  Except.rejectIf (value.toList.contains '\x00') (.invalidPath value "path_contains_nul")
  Except.rejectIf (value.toList.head? = some '/') (.invalidPath value "path_absolute")
  Except.rejectIf ((pathComponents value).any fun component => component = [])
    (.invalidPath value "path_empty_component")
  Except.rejectIf (['.'] ∈ pathComponents value) (.invalidPath value "path_current_component")
  Except.rejectIf (['.', '.'] ∈ pathComponents value) (.invalidPath value "path_parent_component")
  Except.rejectIf (firstComponentReserved value) (.invalidPath value "reserved_path")
  return ⟨value⟩

/-- The physical files seen so far, each with the path it was first seen at. -/
abbrev Aliases := List (FileIdentity × String)

def rejectAlias (aliases : Aliases) (identity : FileIdentity) (path : WorkspaceRelativePath) :
    Except FsError Aliases :=
  match aliases.lookup identity with
  | some firstPath =>
      if firstPath ≠ path.value then .error (.fileAlias firstPath path.value) else .ok aliases
  | none => .ok ((identity, path.value) :: aliases)

def mapIndexError (error : CoreError) (accounting : SnapshotAccounting) : FsError :=
  match error with
  | .resourceLimitExceeded resource actual limit =>
      let prior :=
        if resource = "line_count" then accounting.lines
        else if resource = "line_index_memory" then accounting.indexMemory
        else 0
      .resourceLimitExceeded resource (min (prior + actual) u64Max) (min (prior + limit) u64Max)
  | other => .core other

/-- An index error seen from the accounting it was charged against. -/
def buildLineIndex (bytes : Bytes) (limits : SnapshotLimits) (accounting : SnapshotAccounting) :
    Except FsError LineIndex :=
  match LineIndex.fromBytesWithLimits bytes (limits.totalLines - accounting.lines)
      (limits.lineIndexMemory - accounting.indexMemory) with
  | .ok index => .ok index
  | .error error => .error (mapIndexError error accounting)

namespace WorkspaceView

variable (view : WorkspaceView)

def validatePath (path : WorkspaceRelativePath) : Except FsError ValidatedPath := do
  let (parentIdentity, parentIdentities) ← view.parents path.value
  let kind ← match view.item path.value with
    | none => .ok ValidatedKind.absent
    | some (.file node) => .ok (.existing node.identity)
    | some .symlink => .error (.symlinkNotAllowed path.value)
    | some .other => .error (.unsupportedFileType path.value)
  return ⟨parentIdentity, parentIdentities,
    String.ofList ((pathComponents path.value).getLast?.getD []), kind⟩

variable (sha256 : Bytes → Sha256Digest)

/-- Read a regular file that was validated under `path`. -/
def acquireExisting (path : WorkspaceRelativePath) (validated : ValidatedPath) (node : Node)
    (limits : SnapshotLimits) (accounting : SnapshotAccounting) : Except FsError FileSnapshot := do
  enforceFsLimit "snapshot_file_bytes" node.bytes.length limits.fileBytes
  let total ← checkedFsAdd accounting.bytes node.bytes.length "snapshot_bytes"
  enforceFsLimit "snapshot_bytes" total limits.totalBytes
  let lineIndex ← buildLineIndex node.bytes limits accounting
  return {
    id := 0
    path
    parentIdentity := validated.parentIdentity
    parentIdentities := validated.parentIdentities
    identity := node.identity
    linkCount := node.linkCount.toNat
    bytes := node.bytes
    digest := sha256 node.bytes
    lineIndex }

/-- Acquire one required path. -/
def acquirePath (path : WorkspaceRelativePath) (required : RequiredPathState) (limits : SnapshotLimits)
    (accounting : SnapshotAccounting) : Except FsError AcquiredPath := do
  let validated ← view.validatePath path
  match view.item path.value, required with
  | some (.file node), .existing expected => do
      let file ← acquireExisting sha256 path validated node limits accounting
      Except.rejectIf (expected ≠ file.digest)
        (.preconditionFailed path.value (some expected) (some file.digest))
      return .existing file
  | some _, .existing _ => .error (.unsupportedFileType path.value)
  | some _, .absent => .error (.preconditionFailed path.value none none)
  | none, .existing expected => .error (.preconditionFailed path.value (some expected) none)
  | none, .absent =>
      return .absent ⟨path, validated.parentIdentity, validated.parentIdentities, validated.basename⟩

/-- One requirement joins the distinct ones, unless it disagrees with an earlier one. -/
def requireUnique (limits : SnapshotLimits) (unique : NameMap RequiredPathState)
    (requirement : SnapshotRequirement) : Except FsError (NameMap RequiredPathState) := do
  let normalized ← parseRelativePath requirement.path.value limits.pathBytes
  match unique[normalized.value]? with
  | some previous =>
      if previous ≠ requirement.state then .error (.incompatiblePrecondition normalized.value)
      else .ok unique
  | none => .ok (unique.insert normalized.value requirement.state)

/-- What acquisition carries from path to path. -/
structure Acquisition where
  files : List FileSnapshot := []
  absentPaths : List AbsentPathSnapshot := []
  aliases : Aliases := []
  accounting : SnapshotAccounting := {}

/-- One iteration over the distinct requirements, in path order. -/
def acquireNext (limits : SnapshotLimits) (acquisition : Acquisition) (entry : String × RequiredPathState) :
    Except FsError Acquisition := do
  let accounting ← acquisition.accounting.chargeIdentity limits
  let path : WorkspaceRelativePath := ⟨entry.1⟩
  match ← view.acquirePath sha256 path entry.2 limits accounting with
  | .existing file => do
      let aliases ← rejectAlias acquisition.aliases file.identity path
      let accounting ← accounting.chargeFile file limits
      return { acquisition with
        files := acquisition.files ++ [{ file with id := acquisition.files.length }]
        aliases
        accounting }
  | .absent missing =>
      return { acquisition with absentPaths := acquisition.absentPaths ++ [missing], accounting }

def acquireSnapshot (requirements : List SnapshotRequirement) (limits : SnapshotLimits) :
    Except FsError WorkspaceSnapshot := do
  let unique ← requirements.foldlM (requireUnique limits) ∅
  enforceFsLimit "snapshot_identities" unique.size limits.identities
  let acquisition ← unique.toList.foldlM (view.acquireNext sha256 limits) {}
  return ⟨view.identity, acquisition.files, acquisition.absentPaths⟩

/-- The existing file of a path, without a required digest; an absent one is `PathNotFound`. -/
def acquireExistingFile (path : WorkspaceRelativePath) (limits : SnapshotLimits) : Except FsError (Option FileSnapshot) := do
  let normalized ← parseRelativePath path.value limits.pathBytes
  let accounting ← SnapshotAccounting.chargeIdentity {} limits
  let validated ← view.validatePath normalized
  match view.item normalized.value with
  | some (.file node) => do
      let file ← acquireExisting sha256 normalized validated node limits accounting
      let _ ← rejectAlias [] file.identity normalized
      let _ ← accounting.chargeFile file limits
      return some file
  | some _ => .error (.unsupportedFileType normalized.value)
  | none => return none

end WorkspaceView

end Srcmv.Fs
