import Srcmv.Model.Fs.Commit
import Srcmv.Proofs.Core.PlannedOutputs
import Srcmv.Proofs.Fs.Acquisition
import Srcmv.Proofs.Fs.Sizes

/-! # The manifest a plan is turned into

Each changed output of a plan over an acquired snapshot becomes a target that passes every check of
the manifest validator but the resource limits: the two path grammars agree, segments name inputs by
position, and targets come in strict path order.
-/

namespace Srcmv.Fs

open Srcmv.Core

theorem lengthU64_toNat {length : ℕ} (bounded : length ≤ u64Max) : (lengthU64 length).toNat = length := by
  rw [lengthU64, Nat.min_eq_left bounded]
  exact UInt64.toNat_ofNat_of_lt' (Nat.lt_succ_of_le bounded)

/-! ## Paths -/

/-- A path the snapshot layer accepts under a limit of at most 4096 bytes is one the journal accepts. -/
theorem validateNormalizedPath_of_parsed {value : String} {limit : ℕ} {path : WorkspaceRelativePath}
    (parsed : parseRelativePath value limit = .ok path) (lower : limit ≤ 4096) (id : String) :
    validateNormalizedPath value id = .ok () := by
  rw [parseRelativePath] at parsed
  obtain ⟨_, short, parsed⟩ := Except.bind_eq_ok.mp parsed
  obtain ⟨_, nonempty, parsed⟩ := Except.bind_eq_ok.mp parsed
  obtain ⟨_, noNul, parsed⟩ := Except.bind_eq_ok.mp parsed
  obtain ⟨_, relative, parsed⟩ := Except.bind_eq_ok.mp parsed
  obtain ⟨_, noEmpty, parsed⟩ := Except.bind_eq_ok.mp parsed
  obtain ⟨_, noCurrent, parsed⟩ := Except.bind_eq_ok.mp parsed
  obtain ⟨_, noParent, parsed⟩ := Except.bind_eq_ok.mp parsed
  obtain ⟨_, unreserved, -⟩ := Except.bind_eq_ok.mp parsed
  rw [enforceFsLimit] at short
  rw [Except.rejectIf_eq_ok] at short nonempty noNul relative noEmpty noCurrent noParent unreserved
  rw [validateNormalizedPath, if_neg]
  rintro (empty | long | absolute | nul | part | reserved)
  · exact nonempty empty
  · omega
  · exact relative absolute
  · exact noNul nul
  · obtain ⟨component, member, shape⟩ := List.any_eq_true.mp part
    simp only [Bool.or_eq_true, decide_eq_true_eq] at shape
    rcases shape with (empty | current) | parent
    · exact noEmpty (List.any_eq_true.mpr ⟨component, member, decide_eq_true empty⟩)
    · exact noCurrent (current ▸ member)
    · exact noParent (parent ▸ member)
  · exact unreserved reserved

/-! ## Validation up to resource limits -/

/-- A check that fails by a resource limit, if at all. -/
def OnlyLimits {α : Type} (result : Except FsError α) : Prop :=
  ∀ error, result = .error error → ∃ resource actual limit, error = .resourceLimitExceeded resource actual limit

theorem OnlyLimits.ok {α : Type} (value : α) : OnlyLimits (.ok value : Except FsError α) := nofun

theorem OnlyLimits.bind {α β : Type} {result : Except FsError α} {next : α → Except FsError β}
    (first : OnlyLimits result) (second : ∀ value, result = .ok value → OnlyLimits (next value)) :
    OnlyLimits (result >>= next) := by
  intro error failed
  cases stopped : result with
  | error other =>
    rw [stopped, Except.error_bind] at failed
    have same : other = error := Except.error.inj failed
    exact first error (same ▸ stopped)
  | ok value =>
    rw [stopped] at failed
    exact second value stopped error failed

theorem OnlyLimits.rejectIf {condition : Prop} [Decidable condition] (resource : String) (actual limit : ℕ) :
    OnlyLimits (Except.rejectIf condition (FsError.resourceLimitExceeded resource actual limit)) := by
  intro error failed
  rw [Except.rejectIf] at failed
  split_ifs at failed
  exact ⟨resource, actual, limit, (Except.error.inj failed).symm⟩

/-- A target that passes every check of the validator but those of earlier targets and of limits. -/
structure PassesChecks (manifest : Manifest) (target : ManifestTarget) (index : ℕ) : Prop where
  path : validateNormalizedPath target.path manifest.transactionId = .ok ()
  targetIndex : target.targetIndex = lengthU64 index
  candidateName : target.candidateName = generatedName "candidate" index
  backupName : target.backupName = generatedName "backup" index
  digest : validateDigest target.candidateSha256 (some manifest.transactionId) = .ok ()
  original : validateOptionalOriginal target manifest.transactionId = .ok ()
  metadata : metadataValid target = true
  segments : ∀ segment ∈ target.segments, validateSegment manifest segment = .ok ()

theorem validateTarget_passes {manifest : Manifest} {limits : TransactionLimits} {carried : Option String × ℕ}
    {target : ManifestTarget} {index : ℕ} (passes : PassesChecks manifest target index)
    (increasing : ∀ prior, carried.1 = some prior → prior < target.path) :
    validateTarget manifest limits carried (target, index) =
      chargeArtifacts limits carried.2 target >>= fun projected => .ok (some target.path, projected) := by
  have sorted : ¬(carried.1.any fun prior => target.path ≤ prior) = true := by
    cases before : carried.1 with
    | none => exact Bool.false_ne_true
    | some prior => simpa using increasing prior before
  have candidateName : validateGeneratedName target.candidateName "candidate" index = .ok () := if_pos passes.candidateName
  have backupName : validateGeneratedName target.backupName "backup" index = .ok () := if_pos passes.backupName
  rw [validateTarget]
  dsimp only
  rw [passes.path, Except.ok_bind, Except.rejectIf_of_not (not_not.mpr passes.targetIndex), Except.ok_bind,
    Except.rejectIf_of_not sorted, Except.ok_bind, candidateName, Except.ok_bind, backupName, Except.ok_bind,
    passes.digest, Except.ok_bind, passes.original, Except.ok_bind]
  apply Except.bind_congr_right
  intro projected
  have metadata : ¬metadataValid target = false := by rw [passes.metadata]; exact Bool.noConfusion
  have segments : target.segments.forM (validateSegment manifest) = .ok () := List.forM_eq_ok.mpr passes.segments
  rw [Except.rejectIf_of_not metadata, Except.ok_bind, segments, Except.ok_bind]
  rfl

theorem chargeArtifacts_onlyLimits (limits : TransactionLimits) (total : ℕ) (target : ManifestTarget) :
    OnlyLimits (chargeArtifacts limits total target) := by
  intro error failed
  rw [chargeArtifacts] at failed
  split_ifs at failed
  exact ⟨_, _, _, (Except.error.inj failed).symm⟩

/-- Sound targets in strict path order are validated up to resource limits. -/
theorem validateTargets_onlyLimits {manifest : Manifest} (limits : TransactionLimits) (targets : List ManifestTarget) :
    ∀ (offset : ℕ) (carried : Option String × ℕ),
      (∀ index target, targets[index]? = some target → PassesChecks manifest target (offset + index)) →
      (targets.Pairwise fun left right => left.path < right.path) →
      (∀ prior, carried.1 = some prior → ∀ target ∈ targets, prior < target.path) →
      OnlyLimits ((targets.zipIdx offset).foldlM (validateTarget manifest limits) carried) := by
  induction targets with
  | nil => exact fun _ _ _ _ _ => OnlyLimits.ok _
  | cons target rest ih =>
    intro offset carried passes increasing after
    obtain ⟨below, increasing⟩ := List.pairwise_cons.mp increasing
    have first : PassesChecks manifest target offset := passes 0 target rfl
    rw [List.zipIdx_cons, List.foldlM_cons,
      validateTarget_passes first fun prior before => after prior before target List.mem_cons_self]
    apply OnlyLimits.bind
    · exact (chargeArtifacts_onlyLimits limits carried.2 target).bind fun _ _ => OnlyLimits.ok _
    · intro next charged
      obtain ⟨projected, -, charged⟩ := Except.bind_eq_ok.mp charged
      obtain rfl := Except.ok.inj charged
      apply ih (offset + 1) _ _ increasing
      · rintro prior same other member
        rw [← Option.some.inj same]
        exact below other member
      · intro index other here
        have shifted := passes (index + 1) other (by rwa [List.getElem?_cons_succ])
        rwa [show offset + 1 + index = offset + (index + 1) by omega]


/-! ## Building -/

/-- The parents of all inputs lie on the workspace's device. -/
structure OneDevice (snapshot : WorkspaceSnapshot) : Prop where
  files : ∀ file ∈ snapshot.files, file.parentIdentity.device = snapshot.workspaceIdentity.device
  absentPaths : ∀ missing ∈ snapshot.absentPaths,
    missing.parentIdentity.device = snapshot.workspaceIdentity.device

variable {sha256 : Bytes → Sha256Digest} {limits : SnapshotLimits} {snapshot : WorkspaceSnapshot}

/-- In an acquired snapshot an identifier is a position. -/
theorem Acquired.position (acquired : Acquired sha256 limits snapshot) {id : SnapshotFileId} {file : FileSnapshot}
    (found : snapshot.fileById? id = some file) : snapshot.files[id]? = some file := by
  have member := List.mem_of_find?_eq_some found
  have named : file.id = id := by simpa using List.find?_some found
  obtain ⟨index, here⟩ := List.mem_iff_getElem?.mp member
  rwa [← named, acquired.positions index file here]

theorem manifestTargetOf_succeeds (oneDevice : OneDevice snapshot) {output : PlannedOutput}
    (valid : ValidOutput sha256 snapshot output) (newFileMode : UInt32) (index : ℕ) :
    ∃ target, manifestTargetOf snapshot newFileMode (output, index) = .ok target := by
  have parent : ∃ identity, outputParent (snapshot.files.find? fun file => file.path = output.path)
      (snapshot.absentPaths.find? fun missing => missing.path = output.path) = .ok identity ∧
        identity.device = snapshot.workspaceIdentity.device := by
    cases original : snapshot.files.find? fun file => file.path = output.path with
    | some file => exact ⟨_, rfl, oneDevice.files file (List.mem_of_find?_eq_some original)⟩
    | none =>
      cases missing : snapshot.absentPaths.find? fun missing => missing.path = output.path with
      | some missing' => exact ⟨_, rfl, oneDevice.absentPaths missing' (List.mem_of_find?_eq_some missing)⟩
      | none =>
        rcases valid.known with ⟨file, member, same⟩ | ⟨absent, member, same⟩
        · exact absurd (decide_eq_true same) (List.find?_eq_none.mp original file member)
        · exact absurd (decide_eq_true same) (List.find?_eq_none.mp missing absent member)
  obtain ⟨identity, found, device⟩ := parent
  have same : ensureSameDevice identity.device snapshot.workspaceIdentity.device = .ok () := if_pos device
  rw [manifestTargetOf]
  dsimp only
  rw [found, Except.ok_bind, same, Except.ok_bind]
  exact ⟨_, rfl⟩

private theorem newFileMode_valid (mode : UInt32) :
    ((mode &&& 0o666).toNat ≤ 0o666 && (mode &&& 0o666).toNat &&& 0o111 = 0) = true := by
  rw [UInt32.toNat_and, Bool.and_eq_true, decide_eq_true_eq, decide_eq_true_eq]
  constructor
  · exact Nat.and_le_right
  · rw [Nat.and_assoc]
    exact Nat.and_zero _

/-- A segment within a retained file names it by position, with nothing truncated. -/
theorem Acquired.segment (acquired : Acquired sha256 limits snapshot) {segment : OutputSegment} {file : FileSnapshot}
    (found : snapshot.fileById? segment.fileId = some file) (nonempty : segment.range.start < segment.range.stop)
    (within : segment.range.stop ≤ file.bytes.length) :
    (manifestSegmentOf segment).inputIndex.toNat = segment.fileId ∧ snapshot.files[segment.fileId]? = some file ∧
      (manifestSegmentOf segment).start.toNat = segment.range.start ∧
      (manifestSegmentOf segment).stop.toNat = segment.range.stop := by
  have here := acquired.position found
  have inside : segment.fileId < snapshot.files.length := (List.getElem?_eq_some_iff.mp here).1
  have sized := acquired.sized file (List.mem_of_getElem? here)
  have id := lengthU64_toNat (inside.le.trans acquired.counted)
  have stop := lengthU64_toNat (within.trans sized)
  have start := lengthU64_toNat (nonempty.le.trans (within.trans sized))
  cases segment <;> exact ⟨id, here, start, stop⟩

theorem validateSegment_built {manifest : Manifest} (acquired : Acquired sha256 limits snapshot)
    (inputs : manifest.inputs = snapshot.files.map manifestInputOf ++ snapshot.absentPaths.map manifestInputOfAbsent)
    {segment : OutputSegment} (valid : ValidSegment snapshot segment) :
    validateSegment manifest (manifestSegmentOf segment) = .ok () := by
  obtain ⟨file, found, within⟩ := valid.within
  obtain ⟨id, here, start, stop⟩ := acquired.segment found valid.nonempty within
  have sized := acquired.sized file (List.mem_of_getElem? here)
  have input : manifest.inputs[segment.fileId]? = some (manifestInputOf file) := by
    have inside : segment.fileId < snapshot.files.length := (List.getElem?_eq_some_iff.mp here).1
    rw [inputs, List.getElem?_append_left (by rwa [List.length_map]), List.getElem?_map, here]
    rfl
  rw [validateSegment, id, start, stop, input]
  dsimp only
  rw [if_neg (not_le.mpr valid.nonempty), if_pos]
  simp only [manifestInputOf, Option.any_some, lengthU64_toNat sized, within, decide_true]

theorem manifestTargetOf_passes {manifest : Manifest} (acquired : Acquired sha256 limits snapshot)
    (lower : limits.pathBytes ≤ 4096)
    (inputs : manifest.inputs = snapshot.files.map manifestInputOf ++ snapshot.absentPaths.map manifestInputOfAbsent)
    {output : PlannedOutput} (valid : ValidOutput sha256 snapshot output) {newFileMode : UInt32} {index : ℕ}
    {target : ManifestTarget} (built : manifestTargetOf snapshot newFileMode (output, index) = .ok target) :
    PassesChecks manifest target index := by
  rw [manifestTargetOf] at built
  obtain ⟨identity, -, built⟩ := Except.bind_eq_ok.mp built
  obtain ⟨_, -, built⟩ := Except.bind_eq_ok.mp built
  obtain rfl := Except.pure_eq_ok.mp built
  refine ⟨?_, rfl, rfl, rfl, validateDigest_toPrefixedHex _ _, ?_, ?_, ?_⟩
  · rcases valid.known with ⟨file, member, same⟩ | ⟨missing, member, same⟩
    · exact same ▸ validateNormalizedPath_of_parsed (acquired.filePaths file member) lower _
    · exact same ▸ validateNormalizedPath_of_parsed (acquired.absentPaths missing member) lower _
  · rw [validateOptionalOriginal]
    cases snapshot.files.find? fun file => file.path = output.path with
    | none => rfl
    | some file => exact validateDigest_toPrefixedHex _ _
  · rw [metadataValid]
    cases snapshot.files.find? fun file => file.path = output.path with
    | none => exact newFileMode_valid newFileMode
    | some file => rfl
  · intro segment member
    obtain ⟨origin, inside, rfl⟩ := List.mem_map.mp member
    exact validateSegment_built acquired inputs (valid.segments origin inside)

theorem validateInputs_built {manifest : Manifest} (acquired : Acquired sha256 limits snapshot)
    (lower : limits.pathBytes ≤ 4096)
    (inputs : manifest.inputs = snapshot.files.map manifestInputOf ++ snapshot.absentPaths.map manifestInputOfAbsent) :
    (manifest.inputs.forM fun input => do
      validateNormalizedPath input.path manifest.transactionId
      validateOptionalInput input manifest.transactionId) = .ok () := by
  rw [List.forM_eq_ok, inputs]
  intro input member
  rcases List.mem_append.mp member with fromFile | fromAbsent
  · obtain ⟨file, inside, rfl⟩ := List.mem_map.mp fromFile
    have path : validateNormalizedPath (manifestInputOf file).path manifest.transactionId = .ok () :=
      validateNormalizedPath_of_parsed (acquired.filePaths file inside) lower _
    rw [path, Except.ok_bind]
    exact validateDigest_toPrefixedHex _ _
  · obtain ⟨missing, inside, rfl⟩ := List.mem_map.mp fromAbsent
    have path : validateNormalizedPath (manifestInputOfAbsent missing).path manifest.transactionId = .ok () :=
      validateNormalizedPath_of_parsed (acquired.absentPaths missing inside) lower _
    rw [path, Except.ok_bind]
    rfl

/-- The changed outputs are already in strict path order. -/
theorem changedOutputs_eq {editPlan : EditPlan}
    (increasing : editPlan.outputs.Pairwise fun left right => left.path.value < right.path.value) :
    changedOutputs editPlan = editPlan.outputs.filter fun output => output.change ≠ .unchanged := by
  rw [changedOutputs]
  apply List.mergeSort_of_pairwise
  apply (increasing.filter _).imp
  intro left right less
  exact decide_eq_true less.le

/-- A built manifest lists the snapshot's inputs and one target for each changed output. -/
structure BuiltManifest (snapshot : WorkspaceSnapshot) (outputs : List PlannedOutput) (newFileMode : UInt32)
    (manifest : Manifest) : Prop where
  inputs : manifest.inputs = snapshot.files.map manifestInputOf ++ snapshot.absentPaths.map manifestInputOfAbsent
  targets : List.Forall₂ (fun entry target => manifestTargetOf snapshot newFileMode entry = .ok target)
    outputs.zipIdx manifest.targets

theorem buildManifest_succeeds (oneDevice : OneDevice snapshot) {editPlan : EditPlan} {outputs : List PlannedOutput}
    (valid : ∀ output ∈ outputs, ValidOutput sha256 snapshot output) (transactionId : String) (newFileMode : UInt32) :
    ∃ manifest, buildManifest snapshot editPlan outputs transactionId newFileMode = .ok manifest := by
  have targets : ∃ targets, outputs.zipIdx.mapM (manifestTargetOf snapshot newFileMode) = .ok targets := by
    apply List.mapM_ok_of_forall
    rintro ⟨output, index⟩ member
    exact manifestTargetOf_succeeds oneDevice (valid output (List.fst_mem_of_mem_zipIdx member)) newFileMode index
  obtain ⟨targets, mapped⟩ := targets
  rw [buildManifest, mapped]
  exact ⟨_, rfl⟩

theorem buildManifest_ok {editPlan : EditPlan} {outputs : List PlannedOutput} {transactionId : String}
    {newFileMode : UInt32} {manifest : Manifest}
    (built : buildManifest snapshot editPlan outputs transactionId newFileMode = .ok manifest) :
    BuiltManifest snapshot outputs newFileMode manifest ∧ manifest.transactionVersion = 1 ∧
      manifest.transactionId = transactionId ∧ manifest.planSha256 = editPlan.digest.toPrefixedHex := by
  rw [buildManifest] at built
  obtain ⟨targets, mapped, built⟩ := Except.bind_eq_ok.mp built
  obtain rfl := Except.pure_eq_ok.mp built
  exact ⟨⟨rfl, List.forall₂_of_mapM_ok mapped⟩, rfl, rfl, rfl⟩

theorem BuiltManifest.target {outputs : List PlannedOutput} {newFileMode : UInt32} {manifest : Manifest}
    (built : BuiltManifest snapshot outputs newFileMode manifest) {index : ℕ} {target : ManifestTarget}
    (here : manifest.targets[index]? = some target) :
    ∃ output, outputs[index]? = some output ∧ manifestTargetOf snapshot newFileMode (output, index) = .ok target := by
  obtain ⟨inside, rfl⟩ := List.getElem?_eq_some_iff.mp here
  have inside' : index < outputs.length := by
    rw [← List.length_zipIdx, built.targets.length_eq]
    exact inside
  have made := built.targets.get (by rwa [List.length_zipIdx]) inside
  rw [List.get_eq_getElem, List.getElem_zipIdx, Nat.zero_add] at made
  exact ⟨outputs[index], List.getElem?_eq_getElem inside', made⟩

theorem manifestTargetOf_path {output : PlannedOutput} {newFileMode : UInt32} {index : ℕ} {target : ManifestTarget}
    (built : manifestTargetOf snapshot newFileMode (output, index) = .ok target) :
    target.path = output.path.value := by
  rw [manifestTargetOf] at built
  obtain ⟨_, -, built⟩ := Except.bind_eq_ok.mp built
  obtain ⟨_, -, built⟩ := Except.bind_eq_ok.mp built
  rw [← Except.pure_eq_ok.mp built]

/-- The manifest built for changed outputs in path order passes every check but the resource limits. -/
theorem validateManifest_built {manifest : Manifest} {outputs : List PlannedOutput} {newFileMode : UInt32}
    (acquired : Acquired sha256 limits snapshot) (lower : limits.pathBytes ≤ 4096)
    (built : BuiltManifest snapshot outputs newFileMode manifest) (version : manifest.transactionVersion = 1)
    (identifier : validateTransactionId manifest.transactionId = .ok ())
    (digest : ∃ planDigest : Sha256Digest, manifest.planSha256 = planDigest.toPrefixedHex)
    (valid : ∀ output ∈ outputs, ValidOutput sha256 snapshot output)
    (increasing : outputs.Pairwise fun left right => left.path.value < right.path.value) (changed : outputs ≠ [])
    (budget : TransactionLimits) : OnlyLimits (validateManifest manifest budget) := by
  have count : manifest.targets.length = outputs.length := by rw [← built.targets.length_eq, List.length_zipIdx]
  have nonempty : ¬manifest.targets.length = 0 := by rwa [count, List.length_eq_zero_iff]
  have planned : validateDigest manifest.planSha256 (some manifest.transactionId) = .ok () := by
    obtain ⟨planDigest, same⟩ := digest
    rw [same]
    exact validateDigest_toPrefixedHex _ _
  have sorted : manifest.targets.Pairwise fun left right => left.path < right.path := by
    rw [List.pairwise_iff_getElem] at increasing ⊢
    intro left right inLeft inRight before
    obtain ⟨first, here, made⟩ := built.target (List.getElem?_eq_getElem inLeft)
    obtain ⟨second, there, made'⟩ := built.target (List.getElem?_eq_getElem inRight)
    obtain ⟨inLeft', rfl⟩ := List.getElem?_eq_some_iff.mp here
    obtain ⟨inRight', rfl⟩ := List.getElem?_eq_some_iff.mp there
    rw [manifestTargetOf_path made, manifestTargetOf_path made']
    exact increasing left right inLeft' inRight' before
  rw [validateManifest, Except.rejectIf_of_not (not_not.mpr version), Except.ok_bind, identifier, Except.ok_bind,
    planned, Except.ok_bind, Except.rejectIf_of_not nonempty, Except.ok_bind]
  apply (OnlyLimits.rejectIf _ _ _).bind
  intro _ _
  apply OnlyLimits.bind
  · apply validateTargets_onlyLimits budget manifest.targets 0 (none, 0) _ sorted nofun
    intro index target here
    obtain ⟨output, listed, made⟩ := built.target here
    rw [Nat.zero_add]
    exact manifestTargetOf_passes acquired lower built.inputs (valid output (List.mem_of_getElem? listed)) made
  · rintro ⟨_, projected⟩ _
    apply (OnlyLimits.rejectIf _ _ _).bind
    intro _ _
    rw [validateInputs_built acquired lower built.inputs]
    exact OnlyLimits.ok _

end Srcmv.Fs
