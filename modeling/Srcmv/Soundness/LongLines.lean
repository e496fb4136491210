import Srcmv.Proofs.Cli.CommitLine
import Srcmv.Proofs.Core.Recipes
import Srcmv.Proofs.Core.Terminators
import Srcmv.Proofs.Fs.PlannedJob
import Srcmv.Proofs.Protocol.Digests
import Srcmv.Soundness.Nesting
import Srcmv.ToMathlib.JsonContent

/-! # Repeating the first byte of a long line

A file of one line, of any length a snapshot accepts, and a batch that copies its first byte to its start.
The batch is planned and its manifest can be recorded, however long the line is.
-/

namespace Srcmv.Fs

open Srcmv.Core Sample

/-- A line without terminators that a snapshot accepts. -/
structure LongLine where
  bytes : Bytes
  nonempty : bytes ≠ []
  silent : ∀ byte ∈ bytes, isTerminatorByte byte = false
  bounded : bytes.length ≤ 256 * 1024 * 1024

namespace LongLine

variable (line : LongLine)

def digest : Sha256Digest := setting.crates.sha256 line.bytes

def node : Node := ⟨⟨1, 3⟩, 1, 0o640, line.bytes⟩

/-- The line is all there is in the workspace. -/
def files (path : String) : Option Item := if path = "a" then some (.file line.node) else none

def world : World where
  files := line.files
  control := { controlWith ∅ with transactions := ∅ }

def file : FileSnapshot where
  id := 0
  path := ⟨"a"⟩
  parentIdentity := rootIdentity
  parentIdentities := [rootIdentity]
  identity := ⟨1, 3⟩
  linkCount := 1
  bytes := line.bytes
  digest := line.digest
  lineIndex := ⟨[line.bytes.length]⟩

def snapshot : WorkspaceSnapshot := ⟨rootIdentity, [line.file], []⟩

def requirement : SnapshotRequirement := ⟨⟨"a"⟩, .existing line.digest⟩

/-- Copy the first byte to the start. -/
def operation : Operation :=
  .copy ⟨⟨⟨"a"⟩, .bytes 0 1, .sha256 line.digest⟩, ⟨⟨"a"⟩, .fileStart, .sha256 line.digest⟩⟩

def batch : BatchSpecification := ⟨[line.operation]⟩

/-- The line is no file of a transaction. -/
theorem identities_new (path : String) (node : Node) (name : String) (stands : line.world.files path = some (.file node)) :
    setting.newIdentity name ≠ node.identity := by
  simp only [world, files] at stands
  split_ifs at stands
  cases stands
  show (⟨1, 99⟩ : FileIdentity) ≠ ⟨1, 3⟩
  decide

theorem positive : 0 < line.bytes.length := List.length_pos_of_ne_nil line.nonempty

section Acquiring

private theorem indexed : buildLineIndex line.bytes {} ⟨1, 0, 0, 0⟩ = .ok ⟨[line.bytes.length]⟩ := by
  rw [buildLineIndex, LineIndex.fromBytes_of_silent line.nonempty line.silent (by decide) (by decide)]

private theorem acquiredExisting : WorkspaceView.acquireExisting setting.crates.sha256 ⟨"a"⟩
    ⟨rootIdentity, [rootIdentity], "a", .existing ⟨1, 3⟩⟩ line.node {} ⟨1, 0, 0, 0⟩ = .ok line.file := by
  have bounded := line.bounded
  have single : enforceFsLimit "snapshot_file_bytes" line.bytes.length (256 * 1024 * 1024) = .ok () :=
    Except.rejectIf_of_not (not_lt.mpr bounded)
  have added : checkedFsAdd 0 line.bytes.length "snapshot_bytes" = .ok line.bytes.length := by
    rw [checkedFsAdd, Nat.zero_add, if_pos (by norm_num [u64Max]; omega)]
  have total : enforceFsLimit "snapshot_bytes" line.bytes.length (1024 * 1024 * 1024) = .ok () :=
    Except.rejectIf_of_not (by omega)
  rw [WorkspaceView.acquireExisting, node]
  dsimp only
  rw [single, Except.ok_bind, added, Except.ok_bind, total, Except.ok_bind, line.indexed]
  rfl

private theorem acquiredPath : (setting.view line.world).acquirePath setting.crates.sha256 ⟨"a"⟩ (.existing line.digest) {}
    ⟨1, 0, 0, 0⟩ = .ok (.existing line.file) := by
  have basename : String.ofList ((pathComponents "a").getLast?.getD []) = "a" := by decide
  have validated : (setting.view line.world).validatePath ⟨"a"⟩ = .ok ⟨rootIdentity, [rootIdentity], "a", .existing ⟨1, 3⟩⟩ := by
    have path : (⟨rootIdentity, [rootIdentity], String.ofList ((pathComponents "a").getLast?.getD []), .existing ⟨1, 3⟩⟩ : ValidatedPath) =
        ⟨rootIdentity, [rootIdentity], "a", .existing ⟨1, 3⟩⟩ := by rw [basename]
    exact congrArg Except.ok path
  have item : (setting.view line.world).item "a" = some (.file line.node) := rfl
  have same : line.file.digest = line.digest := rfl
  rw [WorkspaceView.acquirePath, validated, Except.ok_bind, item]
  dsimp only
  rw [line.acquiredExisting, Except.ok_bind, same, Except.rejectIf_of_not (not_not.mpr rfl)]
  rfl

private theorem charged : SnapshotAccounting.chargeFile ⟨1, 0, 0, 0⟩ line.file {} = .ok ⟨1, line.bytes.length, 1, 8⟩ := by
  have bounded := line.bounded
  have added : checkedFsAdd 0 line.bytes.length "snapshot_bytes" = .ok line.bytes.length := by
    rw [checkedFsAdd, Nat.zero_add, if_pos (by norm_num [u64Max]; omega)]
  have total : enforceFsLimit "snapshot_bytes" line.bytes.length (1024 * 1024 * 1024) = .ok () :=
    Except.rejectIf_of_not (by omega)
  rw [SnapshotAccounting.chargeFile]
  change (checkedFsAdd 0 line.bytes.length "snapshot_bytes" >>= _) = _
  rw [added, Except.ok_bind, total, Except.ok_bind]
  rfl

/-- A snapshot shows the line, whatever names it. -/
theorem acquired : (setting.view line.world).acquireSnapshot setting.crates.sha256 [line.requirement, line.requirement] {} =
    .ok line.snapshot := by
  have parsed : parseRelativePath "a" 4096 = .ok ⟨"a"⟩ := by decide
  have first : WorkspaceView.requireUnique {} ∅ line.requirement =
      .ok ((∅ : NameMap RequiredPathState).insert "a" (.existing line.digest)) := by
    rw [WorkspaceView.requireUnique, requirement]
    dsimp only
    rw [parsed, Except.ok_bind, Std.ExtTreeMap.getElem?_empty]
  have second : WorkspaceView.requireUnique {} ((∅ : NameMap RequiredPathState).insert "a" (.existing line.digest)) line.requirement =
      .ok ((∅ : NameMap RequiredPathState).insert "a" (.existing line.digest)) := by
    rw [WorkspaceView.requireUnique, requirement]
    dsimp only
    rw [parsed, Except.ok_bind, Std.ExtTreeMap.getElem?_insert_self]
    exact if_neg (not_not.mpr rfl)
  have listed : ((∅ : NameMap RequiredPathState).insert "a" (.existing line.digest)).toList = [("a", .existing line.digest)] :=
    (OrderedMap.Only.of_insert_empty _ _).toList
  have counted : ((∅ : NameMap RequiredPathState).insert "a" (.existing line.digest)).size = 1 := by
    rw [← Std.ExtTreeMap.length_toList, listed]
    rfl
  rw [WorkspaceView.acquireSnapshot, List.foldlM_cons, first, Except.ok_bind, List.foldlM_cons, second, Except.ok_bind,
    List.foldlM_nil, pure_bind, counted, enforceFsLimit, Except.rejectIf_of_not (by decide), Except.ok_bind, listed,
    List.foldlM_cons, WorkspaceView.acquireNext]
  change ((WorkspaceView.acquirePath _ _ ⟨"a"⟩ (.existing line.digest) {} ⟨1, 0, 0, 0⟩ >>= _) >>= _) >>= _ = _
  rw [line.acquiredPath, Except.ok_bind]
  change ((SnapshotAccounting.chargeFile ⟨1, 0, 0, 0⟩ line.file {} >>= _) >>= _) >>= _ = _
  rw [line.charged]
  rfl

end Acquiring

section Planning

private def states : StatesByPath := (∅ : StatesByPath).insert "a" (.existing line.file)

private def filesById : FilesById := (∅ : FilesById).insert 0 line.file

def resolved : ResolvedOperation where
  operationIndex := 0
  kind := .copy
  sourcePath := ⟨"a"⟩
  selector := .bytes 0 1
  sourcePrecondition := .sha256 line.digest
  sourceRange := ⟨0, 1⟩
  selectedDigest := setting.crates.sha256 (line.bytes.take 1)
  destinationPath := ⟨"a"⟩
  anchor := .fileStart
  destinationPrecondition := .sha256 line.digest
  destinationOffset := 0
  effect := .changed

def edits : OutputEdits where
  path := ⟨"a"⟩
  existingFileId := some 0
  originalLength := line.bytes.length
  originalDigest := some line.digest
  deletions := []
  insertions := [(0, ⟨0, 0, ⟨0, 1⟩, setting.crates.sha256 (line.bytes.take 1)⟩)]

def segments : List OutputSegment :=
  [.payloadSlice 0 0 ⟨0, 1⟩ (setting.crates.sha256 (line.bytes.take 1)), .originalSlice 0 ⟨0, line.bytes.length⟩]

def output : PlannedOutput where
  path := ⟨"a"⟩
  originalDigest := some line.digest
  change := .modifiedExisting
  resultingLength := 1 + line.bytes.length
  resultingDigest := setting.crates.sha256 (line.bytes.take 1 ++ line.bytes)
  segments := line.segments

private theorem firstByte : slice? line.bytes ⟨0, 1⟩ = some (line.bytes.take 1) := by
  have positive := line.positive
  rw [slice?, if_pos ⟨Nat.zero_le _, positive⟩]
  rfl

private theorem states_existing : line.states["a"]? = some (.existing line.file) := rfl

private theorem indexes : indexSnapshot line.snapshot = .ok (line.states, line.filesById) := rfl

private theorem consistent : validatePreconditionConsistency line.batch = .ok () := by
  have agrees : insertPrecondition 0 ((∅ : Std.TreeMap String Precondition).insert "a" (.sha256 line.digest))
      (⟨"a"⟩, .sha256 line.digest) = .ok (((∅ : Std.TreeMap String Precondition).insert "a" (.sha256 line.digest)).insert "a"
        (.sha256 line.digest)) := by
    rw [insertPrecondition, Std.TreeMap.getElem?_insert_self]
    exact if_neg (not_not.mpr rfl)
  rw [validatePreconditionConsistency]
  change ((insertPrecondition 0 ((∅ : Std.TreeMap String Precondition).insert "a" (.sha256 line.digest))
    (⟨"a"⟩, .sha256 line.digest) >>= _) >>= _) >>= _ = _
  rw [agrees]
  rfl

private theorem resolves : resolveOperation setting.crates.sha256 line.states line.operation 0 = .ok ⟨line.resolved, line.file, .existing line.file⟩ := by
  have source : existingSource line.states ⟨⟨⟨"a"⟩, .bytes 0 1, .sha256 line.digest⟩, ⟨⟨"a"⟩, .fileStart, .sha256 line.digest⟩⟩ 0 =
      .ok line.file := by
    have same : line.file.digest = line.digest := rfl
    rw [existingSource]
    dsimp only
    rw [line.states_existing]
    dsimp only
    rw [same, if_neg (not_not.mpr rfl)]
  have selected : resolveSelector line.file (.bytes 0 1) 0 = .ok ⟨0, 1⟩ := if_pos ⟨Nat.one_pos, line.positive⟩
  have sliced : sliceRange line.file.bytes ⟨0, 1⟩ = .ok (line.bytes.take 1) := by
    rw [sliceRange, show slice? line.file.bytes ⟨0, 1⟩ = _ from line.firstByte]
  have destination : destinationState line.states
      ⟨⟨⟨"a"⟩, .bytes 0 1, .sha256 line.digest⟩, ⟨⟨"a"⟩, .fileStart, .sha256 line.digest⟩⟩ 0 = .ok (.existing line.file) := by
    have same : line.file.digest = line.digest := rfl
    rw [destinationState]
    dsimp only
    rw [line.states_existing]
    dsimp only
    rw [same, if_pos rfl]
  rw [resolveOperation]
  change (existingSource _ _ _ >>= _) = _
  rw [source, Except.ok_bind]
  change (resolveSelector _ (.bytes 0 1) _ >>= _) = _
  rw [selected, Except.ok_bind, sliced, Except.ok_bind, destination]
  rfl

private theorem applies : applyResolution ∅ ⟨line.resolved, line.file, .existing line.file⟩ =
    .ok ((∅ : Edits).insert ⟨"a"⟩ line.edits) := rfl

private theorem listed : (((∅ : Edits).insert ⟨"a"⟩ line.edits).toList.map Prod.snd) = [line.edits] := rfl

private theorem builtSegments : buildSegments line.edits = .ok line.segments := by
  have events : (eventPoints line.edits).toList =
      [(0, ⟨false, [⟨0, 0, ⟨0, 1⟩, setting.crates.sha256 (line.bytes.take 1)⟩], false⟩)] := rfl
  have visited : Sweep.visit line.edits {} (0, ⟨false, [⟨0, 0, ⟨0, 1⟩, setting.crates.sha256 (line.bytes.take 1)⟩], false⟩) =
      .ok ⟨[.payloadSlice 0 0 ⟨0, 1⟩ (setting.crates.sha256 (line.bytes.take 1))], 0, false⟩ := by
    rw [Sweep.visit, if_neg (Nat.not_lt_zero _)]
    rfl
  rw [buildSegments, events, List.foldlM_cons, visited, Except.ok_bind, List.foldlM_nil, pure_bind]
  exact if_pos ⟨line.positive, rfl⟩

private theorem streamed : streamOutput setting.crates.sha256 line.segments line.filesById (some 0) =
    .ok (1 + line.bytes.length, setting.crates.sha256 (line.bytes.take 1 ++ line.bytes), false) := by
  have positive := line.positive
  have bounded := line.bounded
  have one : (line.bytes.take 1).length = 1 := by rw [List.length_take]; omega
  have whole : slice? line.bytes ⟨0, line.bytes.length⟩ = some line.bytes := by
    rw [slice?, if_pos ⟨Nat.zero_le _, le_rfl⟩]
    exact congrArg some (List.take_length)
  have first : Stream.push line.filesById (some line.bytes) { equalsOriginal := true }
      (.payloadSlice 0 0 ⟨0, 1⟩ (setting.crates.sha256 (line.bytes.take 1))) = .ok ⟨line.bytes.take 1, 1, 1, true⟩ := by
    have read : fileOf line.filesById 0 "segment_snapshot_file_id" = .ok line.file := rfl
    have sliced : sliceRange line.file.bytes ⟨0, 1⟩ = .ok (line.bytes.take 1) := by
      rw [sliceRange, show slice? line.file.bytes ⟨0, 1⟩ = _ from line.firstByte]
    have added : checkedAdd 0 1 "planned_output_bytes" = .ok 1 := rfl
    rw [Stream.push]
    change (fileOf line.filesById 0 "segment_snapshot_file_id" >>= fun file => sliceRange file.bytes ⟨0, 1⟩ >>= _) = _
    rw [read, Except.ok_bind, sliced, Except.ok_bind, one, added, Except.ok_bind]
    dsimp only
    rw [Nat.zero_add, line.firstByte, if_neg]
    · rfl
    · rintro (longer | differs)
      · omega
      · exact differs rfl
  have second : Stream.push line.filesById (some line.bytes) ⟨line.bytes.take 1, 1, 1, true⟩ (.originalSlice 0 ⟨0, line.bytes.length⟩) =
      .ok ⟨line.bytes.take 1 ++ line.bytes, 1 + line.bytes.length, 1 + line.bytes.length, false⟩ := by
    have read : fileOf line.filesById 0 "segment_snapshot_file_id" = .ok line.file := rfl
    have sliced : sliceRange line.file.bytes ⟨0, line.bytes.length⟩ = .ok line.bytes := by
      rw [sliceRange, show slice? line.file.bytes ⟨0, line.bytes.length⟩ = _ from whole]
    have added : checkedAdd 1 line.bytes.length "planned_output_bytes" = .ok (1 + line.bytes.length) :=
      if_pos (by norm_num [u64Max]; omega)
    rw [Stream.push]
    change (fileOf line.filesById 0 "segment_snapshot_file_id" >>= fun file => sliceRange file.bytes ⟨0, line.bytes.length⟩ >>= _) = _
    rw [read, Except.ok_bind, sliced, Except.ok_bind, added, Except.ok_bind]
    dsimp only
    rw [if_pos (.inl (by omega))]
    rfl
  have compared : comparedBytes line.filesById (some 0) = .ok (some line.bytes) := rfl
  rw [streamOutput, compared, Except.ok_bind, segments, List.foldlM_cons]
  change (Stream.push line.filesById (some line.bytes) { equalsOriginal := true } _ >>= _) >>= _ = _
  rw [first, Except.ok_bind, List.foldlM_cons, second, Except.ok_bind, List.foldlM_nil, pure_bind]
  rfl

theorem planOutput_eq : planOutput setting.crates.sha256 line.filesById line.edits = .ok line.output := by
  have accepted : validateEditConflicts line.edits = .ok () := rfl
  rw [planOutput, accepted, Except.ok_bind, line.builtSegments, Except.ok_bind]
  change (streamOutput _ line.segments line.filesById (some 0) >>= _) = _
  rw [line.streamed, Except.ok_bind]
  have modified : classifyOutput true (1 + line.bytes.length) false = .modifiedExisting := by
    rw [classifyOutput, if_neg (by decide), if_neg (by decide), if_neg (by omega)]
  change (requireSingleLink line.filesById line.edits (classifyOutput true (1 + line.bytes.length) false) >>= fun _ =>
    pure (⟨⟨"a"⟩, some line.digest, classifyOutput true (1 + line.bytes.length) false, _, _, _⟩ : PlannedOutput)) = _
  rw [modified]
  rfl

def usage : PlanningUsage where
  maximumOutputBytes := 1 + line.bytes.length
  totalOutputBytes := 1 + line.bytes.length
  maximumOutputSegments := 2
  totalSegments := 2
  changedTargets := 1
  projectedResponseBytes := 3587
  planningMemoryBytes := 491

private theorem charged_usage : calculateUsage sizes [line.resolved] [line.output] = .ok line.usage := by
  have short : pathLength ⟨"a"⟩ = 1 := by decide
  have operation : chargeOperation { planningMemoryBytes := 224, projectedResponseBytes := 1024 } line.resolved =
      .ok { planningMemoryBytes := 226, projectedResponseBytes := 2050 } := by
    rw [chargeOperation, show pathLength line.resolved.sourcePath = 1 from short,
      show pathLength line.resolved.destinationPath = 1 from short]
    rfl
  have output : chargeOutput sizes { planningMemoryBytes := 346, projectedResponseBytes := 2050 } line.output = .ok line.usage := by
    have bounded := line.bounded
    have added : checkedAdd 0 (1 + line.bytes.length) "planned_output_bytes" = .ok (1 + line.bytes.length) := by
      rw [checkedAdd, Nat.zero_add, if_pos (by norm_num [u64Max]; omega)]
    have largest : max 0 (1 + line.bytes.length) = 1 + line.bytes.length := Nat.zero_max _
    rw [chargeOutput]
    dsimp only [output, segments]
    rw [short, added]
    simp [checkedAdd, checkedMul, u64Max, sizes, usage, Except.ok_bind]
  simp [calculateUsage, checkedAdd, checkedMul, u64Max, Except.ok_bind, show sizes.resolvedOperation = 224 from rfl,
    show sizes.plannedOutput = 120 from rfl, operation, output]

private theorem withinBudget : enforceUsage line.usage {} = .ok () := by
  have bounded := line.bounded
  have within {resource : String} {limit : ℕ} (fits : 1 + line.bytes.length ≤ limit) :
      enforceLimit resource (1 + line.bytes.length) limit = .ok () := if_neg (not_lt.mpr fits)
  rw [enforceUsage, usage]
  dsimp only
  rw [within (by omega), Except.ok_bind, within (by omega)]
  rfl

/-- The plan, up to its digest. -/
def editPlan (digest : Sha256Digest) : EditPlan := ⟨[line.resolved], [line.output], line.usage, digest⟩

/-- The line has a plan, however long it is. -/
theorem planned : ∃ digest, plan setting.crates.sha256 sizes line.snapshot line.batch {} = .ok (line.editPlan digest) := by
  have distinct : (line.snapshot.files.map FileSnapshot.id).Nodup := List.nodup_singleton _
  have named : ∀ output ∈ (line.editPlan zeroDigest).outputs, ∀ segment ∈ output.segments,
      (segmentBytes? line.snapshot segment).isSome := by
    intro output member segment inside
    rw [List.mem_singleton.mp member] at inside
    rcases List.mem_cons.mp inside with rfl | inside
    · change (slice? line.bytes ⟨0, 1⟩).isSome
      rw [line.firstByte]
      rfl
    · rw [List.mem_singleton.mp inside]
      exact Option.isSome_of_eq_some (if_pos ⟨Nat.zero_le _, le_rfl⟩)
  obtain ⟨digest, digested⟩ : ∃ digest, planDigest setting.crates.sha256 line.snapshot (line.editPlan zeroDigest) = .ok digest :=
    planDigest_succeeds distinct named
  refine ⟨digest, ?_⟩
  have operation : planOperation setting.crates.sha256 line.states ([], ∅) (line.operation, 0) =
      .ok ([line.resolved], (∅ : Edits).insert ⟨"a"⟩ line.edits) := by
    rw [planOperation]
    dsimp only
    rw [line.resolves, Except.ok_bind, line.applies]
    rfl
  rw [plan, line.indexes, Except.ok_bind]
  dsimp only
  rw [line.consistent, Except.ok_bind]
  change (planOperation _ line.states ([], ∅) (line.operation, 0) >>= _) >>= _ = _
  rw [operation, Except.ok_bind, List.zipIdx_nil, List.foldlM_nil, pure_bind]
  dsimp only
  rw [line.listed, List.mapM_cons, line.planOutput_eq, Except.ok_bind, List.mapM_nil, pure_bind, pure_bind, line.charged_usage,
    Except.ok_bind, line.withinBudget, Except.ok_bind]
  change (planDigest _ _ (line.editPlan zeroDigest) >>= _) = _
  rw [digested]
  rfl

end Planning

section Recording

variable (id : String) (digest : Sha256Digest)

def target : ManifestTarget where
  targetIndex := 0
  path := "a"
  parentIdentity := .ofIdentity rootIdentity
  originalExisted := true
  originalIdentity := some ⟨1, 3⟩
  originalSha256 := some line.digest.toPrefixedHex
  originalLength := some (lengthU64 line.bytes.length)
  candidateName := "candidate-00000000"
  backupName := "backup-00000000"
  candidateSha256 := line.output.resultingDigest.toPrefixedHex
  candidateLength := lengthU64 (1 + line.bytes.length)
  metadataPolicy := .preserveExistingMode
  newFileMode := none
  segments := [⟨0, 0, 1, some 0⟩, ⟨0, 0, lengthU64 line.bytes.length, none⟩]

def manifest : Manifest where
  transactionVersion := 1
  transactionId := id
  workspaceIdentity := .ofIdentity rootIdentity
  planSha256 := digest.toPrefixedHex
  inputs := [manifestInputOf line.file]
  targets := [line.target]
  metadataLimitations := metadataLimitations

theorem changedOutputs_line : changedOutputs (line.editPlan digest) = [line.output] := by
  rw [changedOutputs_eq (List.pairwise_singleton _ _)]
  rfl

private theorem target_built (newFileMode : UInt32) : manifestTargetOf line.snapshot newFileMode (line.output, 0) = .ok line.target := by
  have candidate : generatedName "candidate" 0 = "candidate-00000000" := by decide
  have backup : generatedName "backup" 0 = "backup-00000000" := by decide
  have found : line.snapshot.files.find? (fun file => file.path = line.output.path) = some line.file := rfl
  have device : ensureSameDevice rootIdentity.device line.snapshot.workspaceIdentity.device = .ok () := if_pos rfl
  rw [manifestTargetOf]
  dsimp only
  rw [found, outputParent, Except.ok_bind]
  change (ensureSameDevice rootIdentity.device _ >>= _) = _
  rw [device, Except.ok_bind, candidate, backup]
  rfl

theorem built (newFileMode : UInt32) : buildManifest line.snapshot (line.editPlan digest) (changedOutputs (line.editPlan digest)) id
    newFileMode = .ok (line.manifest id digest) := by
  rw [buildManifest, line.changedOutputs_line, List.zipIdx_singleton, List.mapM_cons, line.target_built, Except.ok_bind, List.mapM_nil,
    pure_bind, pure_bind]
  rfl

private theorem artifacts : (line.manifest id digest).artifactBytes = 1 + line.bytes.length + line.bytes.length := by
  have bounded := line.bounded
  have limit : 1 + 256 * 1024 * 1024 ≤ u64Max := by norm_num [u64Max]
  have candidate := lengthU64_toNat (show 1 + line.bytes.length ≤ u64Max by omega)
  have original := lengthU64_toNat (show line.bytes.length ≤ u64Max by omega)
  rw [Manifest.artifactBytes]
  change (lengthU64 (1 + line.bytes.length)).toNat + (lengthU64 line.bytes.length).toNat + 0 = _
  rw [candidate, original, Nat.add_zero]

private theorem small (identifier : validateTransactionId id = .ok ()) : (line.manifest id digest).Small where
  transactionId := by
    rw [validateTransactionId] at identifier
    split_ifs at identifier with shape
    exact shape.1.trans_le (by decide)
  planSha256 := (length_toPrefixedHex digest).trans_le (by decide)
  inputs := (by decide : 1 ≤ 10)
  input := by
    refine List.forall_mem_singleton.mpr ⟨(by decide : "a".toList.length ≤ 100), ?_⟩
    rintro _ ⟨⟩
    exact (length_toPrefixedHex _).trans_le (by decide)
  targets := (by decide : 1 ≤ 10)
  target := by
    refine List.forall_mem_singleton.mpr ⟨(by decide : "a".toList.length ≤ 100), ?_, (by decide : "candidate-00000000".toList.length ≤ 100),
      (by decide : "backup-00000000".toList.length ≤ 100), (length_toPrefixedHex _).trans_le (by decide), (by decide : 2 ≤ 10)⟩
    rintro _ ⟨⟩
    exact (length_toPrefixedHex _).trans_le (by decide)
  limitations := (by decide : metadataLimitations.length ≤ 10)
  limitation := by
    intro limitation member
    have texts : ∀ text ∈ metadataLimitations, text.toList.length ≤ 100 := by decide
    exact texts limitation member

/-- The manifest can be recorded. -/
theorem encodes (identifier : validateTransactionId id = .ok ()) : (line.manifest id digest).Encodes setting.crates where
  valid := by
    have bounded := line.bounded
    have artifacts := line.artifacts id digest
    have acquired : Acquired setting.crates.sha256 {} line.snapshot := acquireSnapshot_ok line.acquired
    obtain ⟨planDigest, planned⟩ := line.planned
    have valid : ValidOutput setting.crates.sha256 line.snapshot line.output :=
      (plan_valid acquired.indexed planned).1 _ List.mem_cons_self
    have passes : PassesChecks (line.manifest id digest) line.target 0 :=
      manifestTargetOf_passes acquired le_rfl (List.append_nil _).symm valid (line.target_built 0)
    have charged : chargeArtifacts {} 0 line.target = .ok (line.manifest id digest).artifactBytes := by
      have same : line.target.candidateLength.toNat + line.target.originalBytes + 0 = (line.manifest id digest).artifactBytes := rfl
      rw [chargeArtifacts, Nat.zero_add, ← Nat.add_zero (line.target.candidateLength.toNat + line.target.originalBytes), same, artifacts,
        if_pos (by norm_num [u64Max]; omega)]
    have version : ¬(line.manifest id digest).transactionVersion ≠ 1 := not_not.mpr rfl
    have identified : validateTransactionId (line.manifest id digest).transactionId = .ok () := identifier
    have planned : validateDigest (line.manifest id digest).planSha256 (some (line.manifest id digest).transactionId) = .ok () :=
      validateDigest_toPrefixedHex _ _
    have nonempty : ¬(line.manifest id digest).targets.length = 0 := Nat.one_ne_zero
    have few : ¬(line.manifest id digest).targets.length > ({} : TransactionLimits).targets := (by decide : ¬1 > 100)
    have targets : (line.manifest id digest).targets.zipIdx = [(line.target, 0)] := rfl
    have target : validateTarget (line.manifest id digest) {} (none, 0) (line.target, 0) =
        .ok (some line.target.path, (line.manifest id digest).artifactBytes) := by
      have first : ∀ prior, (none : Option String) = some prior → prior < line.target.path := by rintro _ ⟨⟩
      rw [validateTarget_passes passes first]
      dsimp only
      rw [charged]
      rfl
    have room : ¬(line.manifest id digest).artifactBytes > ({} : TransactionLimits).projectedDiskBytes := by
      change ¬(line.manifest id digest).artifactBytes > 3 * 1024 * 1024 * 1024
      omega
    rw [validateManifest, Except.rejectIf_of_not version, Except.ok_bind, identified, Except.ok_bind, planned, Except.ok_bind,
      Except.rejectIf_of_not nonempty, Except.ok_bind, Except.rejectIf_of_not few, Except.ok_bind, targets, List.foldlM_cons, target,
      Except.ok_bind, List.foldlM_nil, pure_bind]
    dsimp only
    rw [Except.rejectIf_of_not room, Except.ok_bind]
    exact validateInputs_built acquired le_rfl (List.append_nil _).symm
  size := (length_manifestRecord_le _ (line.small id digest identifier)).trans (by norm_num [maxRecordBytes])
  disk := by
    have bounded := line.bounded
    have artifacts := line.artifacts id digest
    have length := length_manifestRecord_le setting.crates (line.small id digest identifier)
    have limit : 1 + 2 * (256 * 1024 * 1024) + 320000 ≤ maxTransactionDiskBytes := by norm_num [maxTransactionDiskBytes]
    omega

/-- The transaction that commits the batch. -/
def job (digest : Sha256Digest) : Job :=
  plannedJob setting line.world line.snapshot (line.editPlan digest) (line.manifest transactionId digest)

/-- The batch is planned, and its transaction can begin. -/
theorem committable : ∃ digest, plan setting.crates.sha256 sizes line.snapshot line.batch {} = .ok (line.editPlan digest) ∧
    (line.job digest).Sound ∧ (line.job digest).InputsHold ∧ (line.job digest).Fresh (line.world.opening setting transactionId) := by
  have identifier : validateTransactionId transactionId = .ok () := by decide
  obtain ⟨digest, planned⟩ := line.planned
  have from_ : PlannedFrom setting line.world line.snapshot (line.editPlan digest) (line.manifest transactionId digest) 0o644 :=
    ⟨⟨_, line.acquired⟩, ⟨_, _, planned⟩, ⟨_, line.built transactionId digest 0o644⟩⟩
  exact ⟨digest, planned, from_.sound (line.encodes transactionId digest identifier) line.identities_new, from_.inputsHold,
    plannedJob_fresh ⟨rfl, rfl, rfl⟩ rfl rfl rfl identifier⟩

/-- With a line of the largest size, records and original are more than a recovery reads. -/
theorem not_completes (full : line.bytes.length = 256 * 1024 * 1024) :
    ¬(plannedJob setting line.world line.snapshot (line.editPlan digest) (line.manifest id digest)).Completes := by
  rintro ⟨phases, -, fits⟩
  have original : (plannedJob setting line.world line.snapshot (line.editPlan digest) (line.manifest id digest)).originalBytes =
      line.bytes.length := rfl
  have record : 0 < (manifestRecord setting.crates (line.manifest id digest)).length := by
    rw [manifestRecord, length_recordBytes]
    omega
  rw [Job.Fits, if_pos rfl, original, full, Job.recordBytes, maxRecoveryBytes] at fits
  change (manifestRecord setting.crates (line.manifest id digest)).length + _ + _ ≤ _ at fits
  omega

end Recording

section Requesting

open Protocol CompactJson

private def preconditionContent : Content := .map [("kind", .string "sha256"), ("value", .string line.digest.toPrefixedHex)]

/-- The batch as a request. -/
def requestContent : Content :=
  .map [("protocol_version", .natural 1), ("operations", .seq [.map [("kind", .string "copy"),
    ("source", .map [("path", .string "a"), ("selector", .map [("kind", .string "bytes"), ("start", .natural 0), ("end", .natural 1)]),
      ("precondition", line.preconditionContent)]),
    ("destination", .map [("path", .string "a"), ("anchor", .map [("kind", .string "file_start")]),
      ("precondition", line.preconditionContent)])]])]

/-- A reader that knows the request. -/
def read (text : Bytes) : Option Content := if text = line.requestContent.compact then some line.requestContent else none

private def precondition : PreconditionDto := .sha256 line.digest.toPrefixedHex

private def copy : OperationDto := .copy ⟨"a", .bytes 0 1, line.precondition⟩ ⟨"a", .fileStart, line.precondition⟩

private theorem deserialized : RequestDto.deserialize line.requestContent = some ⟨1, [line.copy]⟩ := rfl

private theorem converted : convertRequest ⟨1, [line.copy]⟩ {} = .ok line.batch := by
  have digest (field : String) : parseSha256 line.digest.toPrefixedHex field = .ok line.digest := parseSha256_eq_ok.mpr rfl
  have path : enforcePath "a" 4096 = .ok () := by decide
  have paths : enforcePaths {} line.copy = .ok () := by
    rw [enforcePaths]
    change (enforcePath "a" 4096 >>= fun _ => enforcePath "a" 4096) = _
    rw [path]
    rfl
  have source : convertSource ⟨"a", .bytes 0 1, line.precondition⟩ 0 = .ok ⟨⟨"a"⟩, .bytes 0 1, .sha256 line.digest⟩ := by
    rw [convertSource, precondition]
    dsimp only
    rw [digest]
    rfl
  have destination : convertDestination ⟨"a", .fileStart, line.precondition⟩ 0 =
      .ok ⟨⟨"a"⟩, .fileStart, .sha256 line.digest⟩ := by
    rw [convertDestination, precondition, destinationPrecondition]
    dsimp only
    rw [digest]
    rfl
  have operation : convertOperation line.copy 0 = .ok line.operation := by
    rw [convertOperation]
    change (convertSource ⟨"a", .bytes 0 1, line.precondition⟩ 0 >>= fun _ => convertDestination ⟨"a", .fileStart, line.precondition⟩ 0 >>= _) = _
    rw [source, Except.ok_bind, destination]
    rfl
  have distinct : (operationPaths [line.copy]).dedup.length = 1 := (by decide : (["a", "a"] : List String).dedup.length = 1)
  rw [convertRequest, if_neg (not_not.mpr rfl), if_neg (List.cons_ne_nil _ _)]
  dsimp only
  rw [distinct]
  change (enforcePaths {} line.copy >>= _) >>= _ = _
  rw [paths]
  change (convertOperation line.copy 0 >>= _) >>= _ = _
  rw [operation]
  rfl

private theorem length_request : line.requestContent.compact.length ≤ 1000 := by
  have serializer := Content.compact_compact
  have digest := Cli.escapedLength_toPrefixedHex line.digest
  have texts : escapedLength "copy" = 4 ∧ escapedLength "a" = 1 ∧ escapedLength "bytes" = 5 ∧ escapedLength "sha256" = 6 ∧
      escapedLength "file_start" = 10 := by decide
  have names : namesLength ["protocol_version", "operations"] = 32 ∧ namesLength ["kind", "source", "destination"] = 30 ∧
      namesLength ["path", "selector", "precondition"] = 33 ∧ namesLength ["kind", "start", "end"] = 21 ∧
      namesLength ["kind", "value"] = 15 ∧ namesLength ["path", "anchor", "precondition"] = 31 ∧ namesLength ["kind"] = 7 := by decide
  have numbers : (Content.compact (.natural 0)).length = 1 ∧ (Content.compact (.natural 1)).length = 1 := by decide
  simp only [requestContent, preconditionContent, serializer.length_map, serializer.length_seq, serializer.length_string, List.map_cons,
    List.map_nil, List.sum_cons, List.sum_nil, List.length_cons, List.length_nil, names, texts, numbers, digest]
  decide

private theorem nested : enforceJsonDepth line.requestContent.compact 64 = .ok () := by
  obtain ⟨value, mirrors, denotes⟩ := Content.exists_denotes line.requestContent
  have blank : JsonText.Blank [] := fun _ member => absurd member List.not_mem_nil
  have document : JsonText.Document value line.requestContent.compact :=
    ⟨[], _, [], blank, denotes, blank, by rw [List.nil_append, List.append_nil]⟩
  have sized : line.requestContent.compact.length ≤ u64Max := line.length_request.trans (by norm_num [u64Max])
  refine enforceJsonDepth_eq_ok.mpr ((document.scan (nestRequest_counts 64) sized).mpr ?_)
  have shallow : line.requestContent.nesting = 5 := by
    simp [requestContent, preconditionContent, Content.nesting, Content.nestingItems, Content.nestingMembers]
  rw [mirrors.nesting_eq, shallow]
  decide

/-- The text of the request is parsed as the batch. -/
theorem parsed : parseRequest line.read line.requestContent.compact = .ok line.batch := by
  have known : line.read line.requestContent.compact = some line.requestContent := if_pos rfl
  have sized : enforceRequestSize line.requestContent.compact (4 * 1024 * 1024) = .ok () := by
    rw [enforceRequestSize, Protocol.enforceLimit, if_pos (line.length_request.trans (by norm_num))]
  have limits : ({} : RequestLimits).requestBytes = 4 * 1024 * 1024 ∧ ({} : RequestLimits).jsonDepth = 64 := ⟨rfl, rfl⟩
  rw [parseRequest, parseRequestWithLimits, limits.1, limits.2, sized, Except.ok_bind, line.nested, Except.ok_bind, known,
    Option.bind_some, line.deserialized]
  exact line.converted

end Requesting

end LongLine

end Srcmv.Fs
