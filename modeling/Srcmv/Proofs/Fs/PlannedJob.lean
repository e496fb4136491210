import Srcmv.Proofs.Core.PlanMeaning
import Srcmv.Proofs.Fs.Acquisition
import Srcmv.Proofs.Fs.Footprint
import Srcmv.Proofs.Fs.Gate
import Srcmv.Proofs.Fs.Resting
import Srcmv.Proofs.Protocol.Digests
import Srcmv.Soundness.ManifestBuilding

/-! # The job of a planned transaction

A snapshot is acquired, a plan is made of it and turned into a manifest. If the manifest can be
recorded, the transaction is a job that keeps every promise: the originals are the files the snapshot
was read from, the candidates are planned, and everything fits the limits of the two budgets.
-/

/-! ## What an acquired snapshot was read from

Every file of an accepted snapshot is the whole file that stands under its path, every absent path is
free, their parents are those of the workspace, and all the bytes together stay within the limit.
-/

namespace Srcmv.Fs

open Srcmv.Core

variable {view : WorkspaceView} {sha256 : Bytes → Sha256Digest} {limits : SnapshotLimits} {snapshot : WorkspaceSnapshot}

/-- The file stands under its path in the view. -/
structure FileSnapshot.ReadFrom (view : WorkspaceView) (file : FileSnapshot) : Prop where
  here : ∃ node, view.item file.path.value = some (.file node) ∧ node.identity = file.identity ∧ node.bytes = file.bytes
  parents : view.parents file.path.value = .ok (file.parentIdentity, file.parentIdentities)

/-- Nothing stands under the path in the view. -/
structure AbsentPathSnapshot.ReadFrom (view : WorkspaceView) (missing : AbsentPathSnapshot) : Prop where
  free : view.item missing.path.value = none
  parents : view.parents missing.path.value = .ok (missing.parentIdentity, missing.parentIdentities)

/-- The bytes of some files. -/
def filesBytes (files : List FileSnapshot) : ℕ := (files.map fun file => file.bytes.length).sum

/-- The snapshot shows the view. -/
structure SnapshotReadFrom (view : WorkspaceView) (limits : SnapshotLimits) (snapshot : WorkspaceSnapshot) : Prop where
  identity : snapshot.workspaceIdentity = view.identity
  files : ∀ file ∈ snapshot.files, FileSnapshot.ReadFrom view file
  absentPaths : ∀ missing ∈ snapshot.absentPaths, AbsentPathSnapshot.ReadFrom view missing
  bytes : filesBytes snapshot.files ≤ limits.totalBytes

private theorem validatePath_parents {path : WorkspaceRelativePath} {validated : ValidatedPath}
    (accepted : view.validatePath path = .ok validated) :
    view.parents path.value = .ok (validated.parentIdentity, validated.parentIdentities) := by
  rw [WorkspaceView.validatePath] at accepted
  obtain ⟨⟨parent, parents⟩, walked, accepted⟩ := Except.bind_eq_ok.mp accepted
  dsimp only at accepted
  split at accepted
  · cases accepted
    exact walked
  · cases accepted
    exact walked
  · cases accepted
  · cases accepted

/-- Whether it is a file or not, what was acquired at a path was read from there. -/
private theorem acquirePath_readFrom {path : WorkspaceRelativePath} {required : RequiredPathState} {accounting : SnapshotAccounting}
    {acquired : AcquiredPath} (accepted : view.acquirePath sha256 path required limits accounting = .ok acquired) :
    (∀ file, acquired = .existing file → ∀ id, FileSnapshot.ReadFrom view { file with id }) ∧
      ∀ missing, acquired = .absent missing → AbsentPathSnapshot.ReadFrom view missing := by
  rw [WorkspaceView.acquirePath] at accepted
  obtain ⟨validated, walked, accepted⟩ := Except.bind_eq_ok.mp accepted
  have parents := validatePath_parents walked
  split at accepted
  · rename_i node _ here _
    obtain ⟨file, read, accepted⟩ := Except.bind_eq_ok.mp accepted
    obtain ⟨_, -, accepted⟩ := Except.bind_eq_ok.mp accepted
    obtain rfl := Except.pure_eq_ok.mp accepted
    rw [WorkspaceView.acquireExisting] at read
    obtain ⟨_, -, read⟩ := Except.bind_eq_ok.mp read
    obtain ⟨_, -, read⟩ := Except.bind_eq_ok.mp read
    obtain ⟨_, -, read⟩ := Except.bind_eq_ok.mp read
    obtain ⟨_, -, read⟩ := Except.bind_eq_ok.mp read
    obtain rfl := Except.pure_eq_ok.mp read
    refine ⟨fun file same id => ?_, fun missing impossible => by cases impossible⟩
    cases same
    exact ⟨⟨node, here, rfl, rfl⟩, parents⟩
  · cases accepted
  · cases accepted
  · cases accepted
  · rename_i here _
    obtain rfl := Except.pure_eq_ok.mp accepted
    refine ⟨fun file impossible => (by cases impossible), fun missing same => ?_⟩
    cases same
    exact ⟨here, parents⟩

/-- An acquisition so far. -/
private structure Sourced (view : WorkspaceView) (limits : SnapshotLimits) (acquisition : WorkspaceView.Acquisition) : Prop where
  files : ∀ file ∈ acquisition.files, FileSnapshot.ReadFrom view file
  absentPaths : ∀ missing ∈ acquisition.absentPaths, AbsentPathSnapshot.ReadFrom view missing
  counted : filesBytes acquisition.files = acquisition.accounting.bytes
  bytes : acquisition.accounting.bytes ≤ limits.totalBytes

private theorem sourced_step {current next : WorkspaceView.Acquisition} {entry : String × RequiredPathState}
    (sourced : Sourced view limits current) (accepted : view.acquireNext sha256 limits current entry = .ok next) :
    Sourced view limits next := by
  rw [WorkspaceView.acquireNext] at accepted
  obtain ⟨accounting, charged, accepted⟩ := Except.bind_eq_ok.mp accepted
  obtain ⟨acquired, found, accepted⟩ := Except.bind_eq_ok.mp accepted
  have same : accounting.bytes = current.accounting.bytes := by
    rw [SnapshotAccounting.chargeIdentity] at charged
    obtain ⟨_, -, charged⟩ := Except.bind_eq_ok.mp charged
    obtain ⟨_, -, charged⟩ := Except.bind_eq_ok.mp charged
    obtain rfl := Except.pure_eq_ok.mp charged
    rfl
  obtain ⟨existing, absent⟩ := acquirePath_readFrom found
  cases acquired with
  | absent missing =>
    obtain rfl := Except.pure_eq_ok.mp accepted
    refine ⟨sourced.files, fun other member => ?_, sourced.counted.trans same.symm, same.trans_le sourced.bytes⟩
    rcases List.mem_append.mp member with earlier | last
    · exact sourced.absentPaths other earlier
    · rw [List.mem_singleton.mp last]
      exact absent missing rfl
  | existing file =>
    obtain ⟨aliases, -, accepted⟩ := Except.bind_eq_ok.mp accepted
    obtain ⟨total, summed, accepted⟩ := Except.bind_eq_ok.mp accepted
    obtain rfl := Except.pure_eq_ok.mp accepted
    rw [SnapshotAccounting.chargeFile] at summed
    obtain ⟨bytes, added, summed⟩ := Except.bind_eq_ok.mp summed
    obtain ⟨_, within, summed⟩ := Except.bind_eq_ok.mp summed
    obtain ⟨_, -, summed⟩ := Except.bind_eq_ok.mp summed
    obtain ⟨_, -, summed⟩ := Except.bind_eq_ok.mp summed
    obtain ⟨_, -, summed⟩ := Except.bind_eq_ok.mp summed
    obtain ⟨_, -, summed⟩ := Except.bind_eq_ok.mp summed
    obtain rfl := Except.pure_eq_ok.mp summed
    obtain ⟨-, rfl⟩ := checkedFsAdd_eq_ok.mp added
    rw [enforceFsLimit, Except.rejectIf_eq_ok] at within
    refine ⟨fun other member => ?_, sourced.absentPaths, ?_, not_lt.mp within⟩
    · rcases List.mem_append.mp member with earlier | last
      · exact sourced.files other earlier
      · rw [List.mem_singleton.mp last]
        exact existing file rfl _
    · rw [filesBytes, List.map_append, List.sum_append, ← filesBytes, sourced.counted, same]
      rfl

theorem acquireSnapshot_readFrom {requirements : List SnapshotRequirement}
    (accepted : view.acquireSnapshot sha256 requirements limits = .ok snapshot) : SnapshotReadFrom view limits snapshot := by
  rw [WorkspaceView.acquireSnapshot] at accepted
  obtain ⟨unique, -, accepted⟩ := Except.bind_eq_ok.mp accepted
  obtain ⟨_, -, accepted⟩ := Except.bind_eq_ok.mp accepted
  obtain ⟨acquisition, folded, accepted⟩ := Except.bind_eq_ok.mp accepted
  obtain rfl := Except.pure_eq_ok.mp accepted
  have initial : Sourced view limits {} := ⟨by simp, by simp, rfl, Nat.zero_le _⟩
  have sourced : Sourced view limits acquisition :=
    List.foldlM_ok_invariant (fun _ _ _ _ earlier stepped => sourced_step earlier stepped) initial folded
  exact ⟨rfl, sourced.files, sourced.absentPaths, sourced.counted.trans_le sourced.bytes⟩

end Srcmv.Fs

/-! ## The planned job -/

namespace Srcmv.Fs

open Srcmv.Core Machine Process

variable {setting : Setting} {world : World} {view : WorkspaceView} {limits : SnapshotLimits} {snapshot : WorkspaceSnapshot}
  {manifest : Manifest} {editPlan : EditPlan} {newFileMode : UInt32}

/-- The file an item is. -/
def Item.node? : Item → Option Node
  | file node => some node
  | symlink => none
  | other => none

section Targets

/-- What a target records was read from the view. -/
structure ManifestTarget.ReadFrom (sha256 : Bytes → Sha256Digest) (view : WorkspaceView) (newFileMode : UInt32)
    (target : ManifestTarget) (original : Option Node) : Prop where
  here : view.item target.path = original.map Item.file
  existed : target.originalExisted = original.isSome
  recorded : ∀ node, original = some node →
    matchesOriginal ⟨node.identity, UInt64.ofNat node.bytes.length, sha256 node.bytes⟩ target = true
  sized : ∀ node, original = some node → node.bytes.length ≤ u64Max
  parents : ∃ identity identities, view.parents target.path = .ok (identity, identities) ∧
    PersistedIdentity.ofIdentity identity = target.parentIdentity ∧ identity.device = view.identity.device
  mode : original = none → target.newFileMode = some (newFileMode &&& 0o666)

private theorem sameDevice {control workspace : UInt64} (accepted : ensureSameDevice control workspace = .ok ()) :
    control = workspace := by
  rw [ensureSameDevice] at accepted
  split_ifs at accepted with same
  exact same

/-- A target replaces the file that stands under its path, or creates one where none is. -/
theorem manifestTargetOf_readFrom {sha256 : Bytes → Sha256Digest} (acquired : Acquired sha256 limits snapshot)
    (read : SnapshotReadFrom view limits snapshot) {output : PlannedOutput} {index : ℕ} {target : ManifestTarget}
    (built : manifestTargetOf snapshot newFileMode (output, index) = .ok target) :
    target.ReadFrom sha256 view newFileMode ((view.item target.path).bind Item.node?) := by
  have path := manifestTargetOf_path built
  rw [manifestTargetOf] at built
  obtain ⟨identity, parent, built⟩ := Except.bind_eq_ok.mp built
  obtain ⟨⟨⟩, device, built⟩ := Except.bind_eq_ok.mp built
  have device := sameDevice device
  rw [read.identity] at device
  dsimp only at parent built
  cases found : snapshot.files.find? fun file => file.path = output.path with
  | some file =>
    rw [found] at parent built
    obtain rfl := Except.pure_eq_ok.mp built
    obtain rfl := Except.ok.inj parent
    have member := List.mem_of_find?_eq_some found
    have named : file.path = output.path := by simpa using List.find?_some found
    obtain ⟨node, here, sameIdentity, sameBytes⟩ := (read.files file member).here
    have sized := acquired.sized file member
    have digest := acquired.digests file member
    rw [named] at here
    dsimp only
    rw [here, Option.bind_some, Item.node?]
    refine ⟨here, rfl, ?_, ?_, ⟨_, _, named ▸ (read.files file member).parents, rfl, device⟩, fun absent => by cases absent⟩
    · rintro _ ⟨⟩
      have length : lengthU64 file.bytes.length = UInt64.ofNat file.bytes.length := by rw [lengthU64, Nat.min_eq_left sized]
      simp [matchesOriginal, sameIdentity, sameBytes, digest, length]
    · rintro _ ⟨⟩
      rwa [sameBytes]
  | none =>
    rw [found] at parent built
    obtain rfl := Except.pure_eq_ok.mp built
    cases looked : snapshot.absentPaths.find? fun missing => missing.path = output.path with
    | some missing =>
      rw [looked] at parent
      obtain rfl := Except.ok.inj parent
      have member := List.mem_of_find?_eq_some looked
      have named : missing.path = output.path := by simpa using List.find?_some looked
      have free := (read.absentPaths missing member).free
      rw [named] at free
      dsimp only
      rw [free, Option.bind_none]
      refine ⟨free, rfl, fun _ original => ?_, fun _ original => ?_,
        ⟨_, _, named ▸ (read.absentPaths missing member).parents, rfl, device⟩, fun _ => rfl⟩
      · cases original
      · cases original
    | none =>
      rw [looked] at parent
      cases parent

private theorem manifestTargetOf_bytes {sha256 : Bytes → Sha256Digest} (acquired : Acquired sha256 limits snapshot)
    {entry : PlannedOutput × ℕ} {target : ManifestTarget} (bounded : entry.1.resultingLength ≤ u64Max)
    (built : manifestTargetOf snapshot newFileMode entry = .ok target) :
    entry.1.resultingLength + (snapshot.files.find? fun file => file.path = entry.1.path).elim 0 (fun file => file.bytes.length) =
      target.candidateLength.toNat + target.originalBytes := by
  rw [manifestTargetOf] at built
  obtain ⟨_, -, built⟩ := Except.bind_eq_ok.mp built
  obtain ⟨_, -, built⟩ := Except.bind_eq_ok.mp built
  obtain rfl := Except.pure_eq_ok.mp built
  rw [ManifestTarget.originalBytes]
  dsimp only
  rw [lengthU64_toNat bounded]
  cases found : snapshot.files.find? fun file => file.path = entry.1.path with
  | some file =>
    have sized := acquired.sized file (List.mem_of_find?_eq_some found)
    rw [Option.map_some, Option.map_some, Option.getD_some, Option.elim_some, lengthU64_toNat sized]
  | none => rfl

end Targets

section Room

/-- At most one of distinct keys is the wanted one. -/
private theorem sum_wanted_le {κ : Type} [DecidableEq κ] (wanted : κ) (size : ℕ) {keys : List κ} (distinct : keys.Nodup) :
    (keys.map fun key => if wanted = key then size else 0).sum ≤ size := by
  induction keys with
  | nil => exact Nat.zero_le _
  | cons key rest ih =>
    obtain ⟨new, distinct⟩ := List.nodup_cons.mp distinct
    rw [List.map_cons, List.sum_cons]
    split_ifs with same
    · have others : (rest.map fun key => if wanted = key then size else 0).sum = 0 := by
        rw [List.sum_eq_zero_iff_forall_eq_nat]
        intro value member
        obtain ⟨other, inside, rfl⟩ := List.mem_map.mp member
        exact if_neg fun twice => new (same.symm.trans twice ▸ inside)
      rw [others, Nat.add_zero]
    · rw [Nat.zero_add]
      exact ih distinct

/-- What distinct keys find in a list is no more than the list. -/
private theorem sum_found_le {α κ : Type} [DecidableEq κ] (keyOf : α → κ) (size : α → ℕ) (items : List α) {keys : List κ}
    (distinct : keys.Nodup) :
    (keys.map fun key => (items.find? fun item => keyOf item = key).elim 0 size).sum ≤ (items.map size).sum := by
  induction items with
  | nil =>
    rw [List.map_nil, List.sum_nil, Nat.le_zero, List.sum_eq_zero_iff_forall_eq_nat]
    intro value member
    obtain ⟨_, -, rfl⟩ := List.mem_map.mp member
    rfl
  | cons item rest ih =>
    have each (key : κ) : ((item :: rest).find? fun item => keyOf item = key).elim 0 size ≤
        (if keyOf item = key then size item else 0) + (rest.find? fun item => keyOf item = key).elim 0 size := by
      rw [List.find?_cons]
      split_ifs with same
      · rw [decide_eq_true same]
        exact Nat.le_add_right _ _
      · rw [decide_eq_false same, Nat.zero_add]
    calc (keys.map fun key => ((item :: rest).find? fun item => keyOf item = key).elim 0 size).sum
      _ ≤ (keys.map fun key => (if keyOf item = key then size item else 0) +
          (rest.find? fun item => keyOf item = key).elim 0 size).sum := List.sum_le_sum fun key _ => each key
      _ = (keys.map fun key => if keyOf item = key then size item else 0).sum +
          (keys.map fun key => (rest.find? fun item => keyOf item = key).elim 0 size).sum := List.sum_map_add
      _ ≤ size item + (rest.map size).sum := Nat.add_le_add (sum_wanted_le _ _ distinct) ih
      _ = ((item :: rest).map size).sum := by rw [List.map_cons, List.sum_cons]

/-- Candidates and originals are planned outputs and files of the snapshot. -/
theorem artifactBytes_le {sha256 : Bytes → Sha256Digest} (acquired : Acquired sha256 limits snapshot)
    {outputs : List PlannedOutput} (built : BuiltManifest snapshot outputs newFileMode manifest)
    (bounded : ∀ output ∈ outputs, output.resultingLength ≤ u64Max) (distinct : (outputs.map PlannedOutput.path).Nodup) :
    manifest.artifactBytes ≤ outputsBytes outputs + filesBytes snapshot.files := by
  have each : (outputs.zipIdx.map fun entry => entry.1.resultingLength +
      (snapshot.files.find? fun file => file.path = entry.1.path).elim 0 fun file => file.bytes.length) =
      manifest.targets.map fun target => target.candidateLength.toNat + target.originalBytes := by
    rw [← List.forall₂_eq_eq_eq, List.forall₂_map_left_iff, List.forall₂_map_right_iff, List.forall₂_iff_get]
    refine ⟨built.targets.length_eq, fun index inOutputs inTargets => ?_⟩
    exact manifestTargetOf_bytes acquired (bounded _ (List.fst_mem_of_mem_zipIdx (List.get_mem _ _)))
      (built.targets.get inOutputs inTargets)
  have outer (size : PlannedOutput → ℕ) : outputs.zipIdx.map (fun entry => size entry.1) = outputs.map size := by
    conv_rhs => rw [← List.zipIdx_map_fst 0 outputs, List.map_map]
    rfl
  have found := sum_found_le FileSnapshot.path (fun file => file.bytes.length) snapshot.files distinct
  rw [List.map_map] at found
  rw [Manifest.artifactBytes, ← each, List.sum_map_add, outer PlannedOutput.resultingLength,
    outer fun output => (snapshot.files.find? fun file => file.path = output.path).elim 0 fun file => file.bytes.length]
  exact Nat.add_le_add_left found _

theorem outputsBytes_filter_le (outputs : List PlannedOutput) (kept : PlannedOutput → Bool) :
    outputsBytes (outputs.filter kept) ≤ outputsBytes outputs :=
  (List.filter_sublist.map _).sum_le_sum fun _ _ => Nat.zero_le _

end Room

/-- Among items of different keys an item is found by its key. -/
private theorem find?_of_nodup {α κ : Type} [DecidableEq κ] {key : α → κ} {items : List α} {item : α}
    (distinct : (items.map key).Nodup) (member : item ∈ items) : (items.find? fun other => key other = key item) = some item := by
  induction items with
  | nil => cases member
  | cons head rest ih =>
    obtain ⟨new, distinct⟩ := List.nodup_cons.mp distinct
    rcases List.mem_cons.mp member with rfl | later
    · simp
    · have different : key head ≠ key item := fun same => new (same ▸ List.mem_map_of_mem later)
      rw [List.find?_cons_of_neg (by simpa using different), ih distinct later]

section Planned

variable {requirements : List SnapshotRequirement} {sizes : TypeSizes} {batch : BatchSpecification} {id : String}

/-- The job of a manifest that was built from a plan. -/
def plannedJob (setting : Setting) (world : World) (snapshot : WorkspaceSnapshot) (editPlan : EditPlan) (manifest : Manifest) :
    Job where
  setting
  manifest
  snapshot
  base := world.files
  original index := (manifest.targets[index]?).bind fun target => (world.files target.path).bind Item.node?
  content index := (((changedOutputs editPlan)[index]?).bind fun output => output.bytes? snapshot).getD []

theorem plannedJob_original {index : ℕ} {target : ManifestTarget} (here : manifest.targets[index]? = some target) :
    (plannedJob setting world snapshot editPlan manifest).original index = (world.files target.path).bind Item.node? := by
  simp only [plannedJob]
  rw [here, Option.bind_some]

theorem plannedJob_content {index : ℕ} {output : PlannedOutput} {content : Bytes}
    (listed : (changedOutputs editPlan)[index]? = some output) (bytes : output.bytes? snapshot = some content) :
    (plannedJob setting world snapshot editPlan manifest).content index = content := by
  simp only [plannedJob]
  rw [listed, Option.bind_some, bytes, Option.getD_some]

/-- What a transaction does before its manifest is recorded. -/
structure PlannedFrom (setting : Setting) (world : World) (snapshot : WorkspaceSnapshot) (editPlan : EditPlan)
    (manifest : Manifest) (newFileMode : UInt32) : Prop where
  acquired : ∃ requirements, (setting.view world).acquireSnapshot setting.crates.sha256 requirements {} = .ok snapshot
  planned : ∃ sizes batch, plan setting.crates.sha256 sizes snapshot batch {} = .ok editPlan
  built : ∃ id, buildManifest snapshot editPlan (changedOutputs editPlan) id newFileMode = .ok manifest

namespace PlannedFrom

variable (from_ : PlannedFrom setting world snapshot editPlan manifest newFileMode)

include from_

theorem snapshot_acquired : Acquired setting.crates.sha256 {} snapshot := by
  obtain ⟨_, acquired⟩ := from_.acquired
  exact acquireSnapshot_ok acquired

theorem snapshot_read : SnapshotReadFrom (setting.view world) {} snapshot := by
  obtain ⟨_, acquired⟩ := from_.acquired
  exact acquireSnapshot_readFrom acquired

theorem manifest_built : BuiltManifest snapshot (changedOutputs editPlan) newFileMode manifest := by
  obtain ⟨_, built⟩ := from_.built
  exact (buildManifest_ok built).1

theorem outputs_valid : ∀ output ∈ changedOutputs editPlan, ValidOutput setting.crates.sha256 snapshot output := by
  obtain ⟨_, _, planned⟩ := from_.planned
  obtain ⟨valid, increasing⟩ := plan_valid from_.snapshot_acquired.indexed planned
  intro output member
  rw [changedOutputs_eq increasing] at member
  exact valid output (List.mem_of_mem_filter member)

theorem outputs_increasing : (changedOutputs editPlan).Pairwise fun left right => left.path.value < right.path.value := by
  obtain ⟨_, _, planned⟩ := from_.planned
  obtain ⟨-, increasing⟩ := plan_valid from_.snapshot_acquired.indexed planned
  rw [changedOutputs_eq increasing]
  exact increasing.filter _

theorem outputs_distinct : ((changedOutputs editPlan).map PlannedOutput.path).Nodup :=
  List.pairwise_map.mpr (from_.outputs_increasing.imp fun less same => less.ne (congrArg WorkspaceRelativePath.value same))

theorem room : manifest.artifactBytes ≤ 2 * 1024 * 1024 * 1024 := by
  obtain ⟨_, _, planned⟩ := from_.planned
  obtain ⟨-, increasing⟩ := plan_valid from_.snapshot_acquired.indexed planned
  have bytes := artifactBytes_le from_.snapshot_acquired from_.manifest_built (fun output member =>
    (from_.outputs_valid output member).bounded) from_.outputs_distinct
  have changed : outputsBytes (changedOutputs editPlan) ≤ outputsBytes editPlan.outputs := by
    rw [changedOutputs_eq increasing]
    exact outputsBytes_filter_le _ _
  have outputs : outputsBytes editPlan.outputs ≤ 1024 * 1024 * 1024 := plan_outputBytes planned
  have files : filesBytes snapshot.files ≤ 1024 * 1024 * 1024 := from_.snapshot_read.bytes
  omega

/-- The inputs that a manifest records are what the snapshot showed. -/
private theorem inputs_required : manifest.inputs.mapM manifestRequirement =
    .ok ((shownStates snapshot.files snapshot.absentPaths).map fun entry => ⟨⟨entry.1⟩, entry.2⟩) := by
  have files (files : List FileSnapshot) : (files.map manifestInputOf).mapM manifestRequirement =
      .ok (files.map fun file => ⟨⟨file.path.value⟩, .existing file.digest⟩) := by
    induction files with
    | nil => rfl
    | cons file rest ih =>
      have first : manifestRequirement (manifestInputOf file) = .ok ⟨⟨file.path.value⟩, .existing file.digest⟩ := by
        have parsed : parseDigest file.digest.toPrefixedHex = .ok file.digest := parseDigest_eq_ok.mpr rfl
        rw [manifestRequirement, manifestInputOf]
        dsimp only
        rw [if_pos rfl, parsed]
        rfl
      rw [List.map_cons, List.mapM_cons, first, Except.ok_bind, ih]
      rfl
  have absentPaths (missing : List AbsentPathSnapshot) : (missing.map manifestInputOfAbsent).mapM manifestRequirement =
      .ok (missing.map fun missing => ⟨⟨missing.path.value⟩, .absent⟩) := by
    induction missing with
    | nil => rfl
    | cons missing rest ih =>
      rw [List.map_cons, List.mapM_cons, show manifestRequirement (manifestInputOfAbsent missing) = .ok ⟨⟨missing.path.value⟩, .absent⟩
        from rfl, Except.ok_bind, ih]
      rfl
  rw [from_.manifest_built.inputs, List.mapM_append, files, Except.ok_bind, absentPaths, Except.ok_bind, shownStates, List.map_append,
    List.map_map, List.map_map]
  rfl

/-- Before any target has changed, the recorded inputs hold. -/
theorem inputsHold : (plannedJob setting world snapshot editPlan manifest).InputsHold := by
  obtain ⟨requirements, acquired⟩ := from_.acquired
  obtain ⟨id, built⟩ := from_.built
  have distinct := acquireSnapshot_distinct acquired
  have again := acquireSnapshot_again acquired
  have identity : manifest.workspaceIdentity = .ofIdentity snapshot.workspaceIdentity := by
    rw [buildManifest] at built
    obtain ⟨_, -, built⟩ := Except.bind_eq_ok.mp built
    rw [← Except.pure_eq_ok.mp built]
  have fresh : ∀ input ∈ manifest.inputs, validateFreshInput snapshot input = .ok () := by
    intro input member
    rw [from_.manifest_built.inputs] at member
    rcases List.mem_append.mp member with member | member
    · obtain ⟨file, inside, rfl⟩ := List.mem_map.mp member
      have found : (snapshot.files.find? fun other => other.path.value = file.path.value) = some file :=
        find?_of_nodup (List.nodup_append.mp distinct).1 inside
      rw [validateFreshInput, manifestInputOf]
      dsimp only
      rw [if_pos rfl, found]
      exact Except.rejectIf_of_not (not_not.mpr ⟨rfl, rfl, rfl, rfl, rfl⟩)
    · obtain ⟨missing, inside, rfl⟩ := List.mem_map.mp member
      have found : (snapshot.absentPaths.find? fun other => other.path.value = missing.path.value) = some missing :=
        find?_of_nodup (List.nodup_append.mp distinct).2.1 inside
      rw [validateFreshInput, manifestInputOfAbsent]
      dsimp only
      rw [if_neg Bool.false_ne_true, found]
      exact Except.rejectIf_of_not (not_not.mpr rfl)
  rw [Job.InputsHold, validateManifestInputs, Except.rejectIf_of_not, Except.ok_bind]
  · change manifest.inputs.mapM manifestRequirement >>= _ = _
    rw [from_.inputs_required, Except.ok_bind]
    change WorkspaceView.acquireSnapshot (setting.view world) setting.crates.sha256 _ {} >>= _ = _
    rw [again, Except.ok_bind]
    exact List.forM_eq_ok.mpr fresh
  · change ¬PersistedIdentity.ofIdentity setting.identity ≠ manifest.workspaceIdentity
    rw [identity, from_.snapshot_read.identity]
    exact not_not.mpr rfl

/-- What a target of the manifest replaces. -/
theorem target_read {index : ℕ} {target : ManifestTarget} (here : manifest.targets[index]? = some target) :
    target.ReadFrom setting.crates.sha256 (setting.view world) newFileMode
      ((plannedJob setting world snapshot editPlan manifest).original index) := by
  obtain ⟨output, -, made⟩ := from_.manifest_built.target here
  rw [plannedJob_original here]
  exact manifestTargetOf_readFrom from_.snapshot_acquired from_.snapshot_read made

theorem original_target {index : ℕ} {node : Node}
    (original : (plannedJob setting world snapshot editPlan manifest).original index = some node) :
    ∃ target, manifest.targets[index]? = some target ∧ world.files target.path = some (.file node) := by
  obtain ⟨target, here, -⟩ := Option.bind_eq_some_iff.mp original
  refine ⟨target, here, ?_⟩
  have read := (from_.target_read here).here
  rw [original] at read
  exact read

/-- The promises of the job, if its manifest can be recorded and new files get new identities. -/
theorem sound (encodes : manifest.Encodes setting.crates) (fresh : ∀ (path : String) (node : Node) (name : String),
      world.files path = some (.file node) → setting.newIdentity name ≠ node.identity) :
    (plannedJob setting world snapshot editPlan manifest).Sound where
  encodes := encodes
  originalBytes index node original := by
    obtain ⟨target, here, -⟩ := from_.original_target original
    exact (from_.target_read here).sized node original
  base index target here := (from_.target_read here).here
  existed index target here := (from_.target_read here).existed
  recorded index target node here original := (from_.target_read here).recorded node original
  distinct index node original := by
    obtain ⟨target, -, stands⟩ := from_.original_target original
    exact fresh target.path node _ stands
  planned index target here := by
    obtain ⟨output, listed, made⟩ := from_.manifest_built.target here
    obtain ⟨content, bytes, planned⟩ := planned_built from_.snapshot_acquired
      (from_.outputs_valid output (List.mem_of_getElem? listed)) made
    rw [plannedJob_content listed bytes]
    exact planned
  parents index target here := (from_.target_read here).parents
  room := from_.room

end PlannedFrom

/-- A directory created in an idle tree is the only one. -/
theorem onlyActive_opening (idle : Idle world.control) (identifier : validateTransactionId id = .ok ()) :
    OnlyActive (world.opening setting id).control id ⟨setting.newIdentity id, .directory, true, 0o700⟩ ∅ where
  valid := by
    have same : (world.opening setting id).control.objects = world.control.objects := rfl
    rw [validateControlTree_congr same]
    exact idle.valid
  identifier := identifier
  directory := by
    have written : ¬(0o700 : UInt32) &&& 0o022 ≠ 0 := by decide
    have private_ : ¬(0o700 : UInt32) &&& 0o077 ≠ 0 := by decide
    have owned : validateOwnedObject (some ⟨setting.newIdentity id, .directory, true, 0o700⟩) true = .ok () := by
      simp [validateOwnedObject, written]
    rw [validateTransactionDirectory, owned, Except.ok_bind]
    exact Except.rejectIf_of_not private_
  active := by
    rw [World.opening]
    dsimp only
    rw [idle.active]
    exact OrderedMap.Only.of_insert_empty _ _
  completed := idle.completed

/-- In an idle tree the job of a planned transaction starts afresh in its new directory. -/
theorem plannedJob_fresh (idle : Idle world.control) (captured : captureControlIdentities world.control = .ok setting.lock)
    (published : world.published = []) (refusals : world.refusals = [])
    (identifier : validateTransactionId manifest.transactionId = .ok ()) :
    (plannedJob setting world snapshot editPlan manifest).Fresh (world.opening setting manifest.transactionId) where
  files := rfl
  directory := ⟨_, onlyActive_opening idle identifier⟩
  identities := captured
  published := published
  refusals := refusals

end Planned

end Srcmv.Fs
