import Mathlib.Data.String.Basic
import Mathlib.Tactic

/-! # Filesystem-independent vocabulary

Snapshots, batches, resolved operations and segment recipes as the planner sees them. Offsets and
lengths are naturals: a `usize` always fits the `u64` it is converted to, and every sum the code
guards goes through `checkedAdd` or `checkedMul`. Bytes are lists. SHA-256 itself stays a
parameter of whatever uses it; only the digest and its protocol spelling live here.
-/

namespace Srcmv.Core

abbrev Bytes := List UInt8

/-- Largest `u64`. -/
def u64Max : ℕ := 2 ^ 64 - 1

/-- The low `width` bytes of a value, most significant first. -/
def bigEndian : ℕ → ℕ → Bytes
  | 0, _ => []
  | width + 1, value => bigEndian width (value / 256) ++ [UInt8.ofNat (value % 256)]

/-- The value of big-endian bytes. -/
def ofBigEndian (bytes : Bytes) : ℕ := bytes.foldl (fun value byte => value * 256 + byte.toNat) 0

@[simp] theorem length_bigEndian (width value : ℕ) : (bigEndian width value).length = width := by
  induction width generalizing value with
  | zero => rfl
  | succ width ih => simp [bigEndian, ih]

theorem ofBigEndian_bigEndian (width value : ℕ) (bound : value < 256 ^ width) :
    ofBigEndian (bigEndian width value) = value := by
  induction width generalizing value with
  | zero =>
    rw [pow_zero] at bound
    obtain rfl : value = 0 := by omega
    rfl
  | succ width ih =>
    rw [pow_succ] at bound
    have high := ih (value / 256) (Nat.div_lt_of_lt_mul (by omega))
    rw [ofBigEndian] at high
    rw [ofBigEndian, bigEndian, List.foldl_append, high]
    simp only [List.foldl_cons, List.foldl_nil, UInt8.toNat_ofNat']
    omega

/-- SHA-256 digest bytes. -/
structure Sha256Digest where
  bytes : Bytes
  size : bytes.length = 32
deriving DecidableEq

/-- One lowercase hexadecimal digit of a nibble. -/
def hexDigit (nibble : ℕ) : Char :=
  if nibble < 10 then Char.ofNat (48 + nibble) else Char.ofNat (87 + nibble)

/-- The exact lowercase protocol spelling of a digest. -/
def Sha256Digest.toPrefixedHex (digest : Sha256Digest) : String :=
  String.ofList ("sha256:".toList ++
    digest.bytes.flatMap fun byte => [hexDigit (byte.toNat / 16), hexDigit (byte.toNat % 16)])

/-- A normalized UTF-8 path relative to the workspace root. -/
structure WorkspaceRelativePath where
  value : String
deriving DecidableEq

theorem WorkspaceRelativePath.value_inj {left right : WorkspaceRelativePath} :
    left.value = right.value ↔ left = right := by
  cases left
  cases right
  simp

/-- POSIX physical identity of a file or directory. -/
structure FileIdentity where
  device : UInt64
  inode : UInt64
deriving DecidableEq

/-- Stable index of one file in a snapshot. -/
abbrev SnapshotFileId := ℕ

/-- A half-open byte range; `stop` is the source's `end`. -/
structure ByteRange where
  start : ℕ
  stop : ℕ
deriving DecidableEq

/-- Typed failures of the pure domain layer. -/
inductive CoreError where
  | invalidDomainValue (field : String)
  | editConflict (reason : String) (operationIndex : Option ℕ)
  | hardLinkNotSupported (path : WorkspaceRelativePath) (linkCount : ℕ)
  | resourceLimitExceeded (resource : String) (actual limit : ℕ)
deriving DecidableEq

def limitOverflow (resource : String) : CoreError :=
  .resourceLimitExceeded resource u64Max (u64Max - 1)

/-- `u64::checked_add` with the planner's overflow error. -/
def checkedAdd (left right : ℕ) (resource : String) : Except CoreError ℕ :=
  if left + right ≤ u64Max then .ok (left + right) else .error (limitOverflow resource)

/-- `u64::checked_mul` with the planner's overflow error. -/
def checkedMul (left right : ℕ) (resource : String) : Except CoreError ℕ :=
  if left * right ≤ u64Max then .ok (left * right) else .error (limitOverflow resource)

def enforceLimit (resource : String) (actual limit : ℕ) : Except CoreError Unit :=
  if actual > limit then .error (.resourceLimitExceeded resource actual limit) else .ok ()

/-- Required initial state of a referenced path. -/
inductive Precondition where
  | sha256 (digest : Sha256Digest)
  | mustNotExist
deriving DecidableEq

/-- Coordinates selecting a nonempty source range; lines are one-based and inclusive. -/
inductive Selector where
  | lines (start stop : ℕ)
  | bytes (start stop : ℕ)
deriving DecidableEq

/-- Coordinates of an insertion point. -/
inductive Anchor where
  | fileStart
  | fileEnd
  | beforeLine (line : ℕ)
  | afterLine (line : ℕ)
  | byteOffset (offset : ℕ)
deriving DecidableEq

structure SourceSelection where
  path : WorkspaceRelativePath
  selector : Selector
  precondition : Precondition
deriving DecidableEq

structure Destination where
  path : WorkspaceRelativePath
  anchor : Anchor
  precondition : Precondition
deriving DecidableEq

structure OperationSpecification where
  source : SourceSelection
  destination : Destination
deriving DecidableEq

/-- A byte-preserving request. -/
inductive Operation where
  | move (specification : OperationSpecification)
  | copy (specification : OperationSpecification)
deriving DecidableEq

structure BatchSpecification where
  operations : List Operation
deriving DecidableEq

inductive OperationKind where
  | move
  | copy
deriving DecidableEq

/-- Whether a resolved operation contributes edit events. -/
inductive OperationEffect where
  | changed
  | noOp
deriving DecidableEq

/-- An operation resolved against the initial snapshot. -/
structure ResolvedOperation where
  operationIndex : ℕ
  kind : OperationKind
  sourcePath : WorkspaceRelativePath
  selector : Selector
  sourcePrecondition : Precondition
  sourceRange : ByteRange
  selectedDigest : Sha256Digest
  destinationPath : WorkspaceRelativePath
  anchor : Anchor
  destinationPrecondition : Precondition
  destinationOffset : ℕ
  effect : OperationEffect
deriving DecidableEq

/-- Byte-level classification of an output. -/
inductive OutputChange where
  | unchanged
  | modifiedExisting
  | createdNew
  | emptiedExisting
deriving DecidableEq

/-- One slice of an output recipe. -/
inductive OutputSegment where
  | originalSlice (snapshotFileId : SnapshotFileId) (range : ByteRange)
  | payloadSlice (operationIndex : ℕ) (snapshotFileId : SnapshotFileId) (range : ByteRange)
      (payloadDigest : Sha256Digest)
deriving DecidableEq

namespace OutputSegment

def fileId : OutputSegment → SnapshotFileId
  | originalSlice fileId _ => fileId
  | payloadSlice _ fileId _ _ => fileId

def range : OutputSegment → ByteRange
  | originalSlice _ range => range
  | payloadSlice _ _ range _ => range

end OutputSegment

/-- Segment recipe and classification of one output path. -/
structure PlannedOutput where
  path : WorkspaceRelativePath
  originalDigest : Option Sha256Digest
  change : OutputChange
  resultingLength : ℕ
  resultingDigest : Sha256Digest
  segments : List OutputSegment
deriving DecidableEq

structure PlanningUsage where
  maximumOutputBytes : ℕ := 0
  totalOutputBytes : ℕ := 0
  maximumOutputSegments : ℕ := 0
  totalSegments : ℕ := 0
  changedTargets : ℕ := 0
  projectedResponseBytes : ℕ := 0
  planningMemoryBytes : ℕ := 0
deriving DecidableEq

structure EditPlan where
  operations : List ResolvedOperation
  outputs : List PlannedOutput
  usage : PlanningUsage
  digest : Sha256Digest
deriving DecidableEq

/-- Upper bounds charged by the planner and its callers. -/
structure ResourceBudget where
  operations : ℕ := 1000
  operationPaths : ℕ := 1000
  snapshotBytes : ℕ := 1024 * 1024 * 1024
  resultingBytesPerOutput : ℕ := 512 * 1024 * 1024
  plannedOutputBytes : ℕ := 1024 * 1024 * 1024
  segmentsPerOutput : ℕ := 100000
  segments : ℕ := 250000
  changedTargets : ℕ := 100
  projectedResponseBytes : ℕ := 16 * 1024 * 1024
  planningMemoryBytes : ℕ := 2 * 1024 * 1024 * 1024
deriving DecidableEq

/-- Paths order by their UTF-8 spelling. -/
instance : Ord WorkspaceRelativePath := ⟨compareOn WorkspaceRelativePath.value⟩

instance : Std.TransOrd WorkspaceRelativePath :=
  inferInstanceAs (Std.TransCmp (compareOn WorkspaceRelativePath.value))

instance : Std.LawfulEqOrd WorkspaceRelativePath where
  eq_of_compare {left right} equal := by
    exact WorkspaceRelativePath.value_inj.mp
      (compare_eq_iff_eq.mp (show compare left.value right.value = .eq from equal))

end Srcmv.Core
