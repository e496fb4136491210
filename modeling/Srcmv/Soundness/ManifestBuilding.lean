import Srcmv.Model.Fs.Serde
import Srcmv.Proofs.Fs.Candidates
import Srcmv.Proofs.Fs.ManifestBuilding
import Srcmv.Proofs.Fs.Trees

/-! # The manifest of a plan is valid and rebuilds the planned bytes

From acquisition through planning to the candidate on disk: the manifest built from an accepted plan
passes the validator up to resource limits, and creating each candidate writes exactly the bytes the
plan's segments name.
-/

namespace Srcmv.Fs

open Srcmv.Core Machine Process

section Built

variable {setting : Setting} {manifest : Manifest} {snapshot : WorkspaceSnapshot} {limits : SnapshotLimits}

/-- A segment of the manifest names the same slice as the segment of the plan it came from. -/
private theorem candidateSlice_built {sha256 : Bytes → Sha256Digest} (acquired : Acquired sha256 limits snapshot)
    {segment : OutputSegment} (valid : ValidSegment snapshot segment) {piece : Bytes}
    (read : segmentBytes? snapshot segment = some piece) :
    candidateSlice snapshot (manifestSegmentOf segment) = .ok piece := by
  obtain ⟨file, found, within⟩ := valid.within
  obtain ⟨same, here, start, stop⟩ := acquired.segment found valid.nonempty within
  have sliced : slice? file.bytes segment.range = some piece := by
    rw [segmentBytes?, found] at read
    exact read
  rw [candidateSlice, same, here, start, stop]
  dsimp only
  rw [sliced]

private theorem candidateSlices_built {sha256 : Bytes → Sha256Digest} (acquired : Acquired sha256 limits snapshot)
    (segments : List OutputSegment) : ∀ {pieces : List Bytes}, (∀ segment ∈ segments, ValidSegment snapshot segment) →
    segments.mapM (segmentBytes? snapshot) = some pieces →
    List.Forall₂ (fun segment piece => candidateSlice snapshot segment = .ok piece) (segments.map manifestSegmentOf)
      pieces := by
  induction segments with
  | nil =>
    intro pieces _ read
    obtain rfl := Option.some.inj read
    exact .nil
  | cons segment rest ih =>
    intro pieces valid read
    rw [List.mapM_cons] at read
    obtain ⟨piece, first, read⟩ := Option.bind_eq_some_iff.mp read
    obtain ⟨others, later, read⟩ := Option.bind_eq_some_iff.mp read
    obtain rfl := Option.some.inj read
    apply List.Forall₂.cons
    · exact candidateSlice_built acquired (valid segment List.mem_cons_self) first
    · exact ih (fun other member => valid other (List.mem_cons_of_mem _ member)) later

/-- The target built for a valid output is planned to hold that output's bytes. -/
theorem planned_built {sha256 : Bytes → Sha256Digest} (acquired : Acquired sha256 limits snapshot)
    {output : PlannedOutput} (valid : ValidOutput sha256 snapshot output) {newFileMode : UInt32} {index : ℕ}
    {target : ManifestTarget} (built : manifestTargetOf snapshot newFileMode (output, index) = .ok target) :
    ∃ content, output.bytes? snapshot = some content ∧ Planned sha256 snapshot target content := by
  obtain ⟨content, bytes, length, digest⟩ := valid.bytes
  obtain ⟨pieces, read, rfl⟩ := Option.map_eq_some_iff.mp bytes
  have bounded : pieces.flatten.length ≤ u64Max := length ▸ valid.bounded
  rw [manifestTargetOf] at built
  obtain ⟨_, -, built⟩ := Except.bind_eq_ok.mp built
  obtain ⟨_, -, built⟩ := Except.bind_eq_ok.mp built
  obtain rfl := Except.pure_eq_ok.mp built
  refine ⟨pieces.flatten, bytes, ⟨pieces, ?_, rfl⟩, bounded, ?_, ?_⟩
  · exact candidateSlices_built acquired output.segments valid.segments read
  · show lengthU64 output.resultingLength = _
    rw [length, lengthU64, Nat.min_eq_left bounded]
  · show output.resultingDigest.toPrefixedHex = _
    rw [digest]

/-- In every run from every world with the transaction directory, creating the candidate either ends
with a fresh private file of exactly these bytes and nothing else changed, or stops at a failed
system call. -/
def WritesExactly (setting : Setting) (manifest : Manifest) (snapshot : WorkspaceSnapshot) (target : ManifestTarget)
    (content : Bytes) : Prop :=
  ∀ (allowed : Site → Went → Prop) (world : World),
    world.Reaches (.artifact manifest.transactionId target.candidateName) →
    Triple allowed (· = world) (createCandidate setting manifest target snapshot)
      { done := Exactly (.ofIdentity (setting.newIdentity target.candidateName))
          (world.place (.artifact manifest.transactionId target.candidateName)
            (some (writtenItem (setting.newIdentity target.candidateName) content)))
        failed := fun error _ => error.IsIo ∧ (Disturbed allowed ∨
          (world.item? (.artifact manifest.transactionId target.candidateName)).isSome)
        crashed := fun _ => Disturbed allowed }

theorem createCandidate_writes {target : ManifestTarget} {content : Bytes}
    (planned : Planned setting.crates.sha256 snapshot target content) :
    WritesExactly setting manifest snapshot target content := by
  intro allowed world reaches
  cases occupied : world.item? (.artifact manifest.transactionId target.candidateName) with
  | none =>
    have creates : Triple allowed (· = world) (createCandidate setting manifest target snapshot)
        (Ends FsError.IsIo _ _) := createCandidate_triple planned reaches occupied
    apply creates.mono
    · exact fun _ same => same
    · exact fun _ _ finished => finished
    · rintro error later ⟨isIo, disturbed, -⟩
      exact ⟨isIo, .inl disturbed⟩
    · rintro later ⟨disturbed, -⟩
      exact disturbed
  | some item =>
    rw [createCandidate]
    apply Triple.bind fun _ _ => False
    · apply Triple.act
      · intro permitted later same
        exact ⟨_, .inr permitted⟩
      · intro permitted later same
        exact ⟨isIo _ _, .inl ⟨_, .inl permitted⟩⟩
      · rintro later rfl _ reached created
        rw [World.createNew, occupied] at created
        cases created
      · rintro - later rfl error refused
        rw [World.createNew, occupied] at refused
        obtain rfl := Except.error.inj refused
        exact ⟨isIo _ _, .inr rfl⟩
    · intro _ oracle moment impossible
      exact impossible.elim

/-- The manifest of an accepted plan over an acquired snapshot is built, is valid up to resource
limits, and each of its candidates is written with exactly the planned bytes. -/
theorem built_manifest_rebuilds_plan (setting : Setting) (view : WorkspaceView)
    (requirements : List SnapshotRequirement) (limits : SnapshotLimits) (snapshot : WorkspaceSnapshot)
    (sizes : TypeSizes) (batch : BatchSpecification) (budget : ResourceBudget) (editPlan : EditPlan)
    (transactionId : String) (newFileMode : UInt32)
    (acquired : view.acquireSnapshot setting.crates.sha256 requirements limits = .ok snapshot)
    (lowered : limits.pathBytes ≤ ({} : SnapshotLimits).pathBytes)
    (planned : plan setting.crates.sha256 sizes snapshot batch budget = .ok editPlan)
    (device : OneDevice snapshot) (changed : 1 ≤ (changedOutputs editPlan).length)
    (identifier : validateTransactionId transactionId = .ok ()) :
    ∃ manifest, buildManifest snapshot editPlan (changedOutputs editPlan) transactionId newFileMode = .ok manifest ∧
      (∀ budget, OnlyLimits (validateManifest manifest budget)) ∧
      List.Forall₂ (fun output target => target.path = output.path.value ∧
          ∃ content, output.bytes? snapshot = some content ∧ WritesExactly setting manifest snapshot target content)
        (changedOutputs editPlan) manifest.targets := by
  have facts := acquireSnapshot_ok acquired
  obtain ⟨valid, increasing⟩ := plan_valid facts.indexed planned
  have outputs := changedOutputs_eq increasing
  have validChanged : ∀ output ∈ changedOutputs editPlan, ValidOutput setting.crates.sha256 snapshot output := by
    intro output member
    rw [outputs] at member
    exact valid output (List.mem_of_mem_filter member)
  have increasingChanged : (changedOutputs editPlan).Pairwise fun left right => left.path.value < right.path.value := by
    rw [outputs]
    exact increasing.filter _
  obtain ⟨manifest, built⟩ := buildManifest_succeeds device validChanged transactionId newFileMode
  obtain ⟨listed, version, named, digest⟩ := buildManifest_ok built
  refine ⟨manifest, built, ?_, ?_⟩
  · apply validateManifest_built facts lowered listed version (named ▸ identifier) ⟨_, digest⟩ validChanged increasingChanged
    exact List.ne_nil_of_length_pos changed
  · apply List.forall₂_iff_get.mpr
    have count : (changedOutputs editPlan).length = manifest.targets.length := by
      rw [← listed.targets.length_eq, List.length_zipIdx]
    refine ⟨count, ?_⟩
    intro index inOutputs inTargets
    obtain ⟨output, here, made⟩ := listed.target (List.getElem?_eq_getElem inTargets)
    obtain ⟨_, rfl⟩ := List.getElem?_eq_some_iff.mp here
    obtain ⟨content, bytes, plannedContent⟩ := planned_built facts (validChanged _ (List.getElem_mem _)) made
    exact ⟨manifestTargetOf_path made, content, bytes, createCandidate_writes plannedContent⟩

end Built

/-! ## A small transaction

The file `a` has two lines, and the first one is moved to the new file `b`: one target exists and
changes, the other one is created.
-/

namespace Sample

def rootIdentity : FileIdentity := ⟨1, 2⟩

/-- A directory or lock of the control tree, owned and private. -/
def controlObject (inode : UInt64) (kind : ObjectKind) : ControlObject := ⟨⟨1, inode⟩, kind, true, 0o700⟩

def setting : Setting where
  crates := .reference
  identity := rootIdentity
  parents _ := .ok (rootIdentity, [rootIdentity])
  qualified := .ok ()
  lock := ⟨rootIdentity, ⟨1, 10⟩, ⟨1, 11⟩, ⟨1, 12⟩, ⟨1, 13⟩⟩
  newIdentity _ := ⟨1, 99⟩

def movedBytes : Bytes := [112, 10]

def keptBytes : Bytes := [113, 10]

def sourceBytes : Bytes := movedBytes ++ keptBytes

def sourceNode : Node := ⟨⟨1, 3⟩, 1, 0o640, sourceBytes⟩

def files (path : String) : Option Item := if path = "a" then some (.file sourceNode) else none

def transactionId : String := "0123456789abcdef0123456789abcdef"

def directory : ControlObject := controlObject 20 .directory

/-- A control tree whose only transaction directory has these children. -/
def controlWith (children : NameMap Item) : ControlTree where
  root := rootIdentity
  control := some (controlObject 10 .directory)
  transactionsRoot := some (controlObject 11 .directory)
  completedRoot := some (controlObject 12 .directory)
  lock := some (controlObject 13 .file)
  transactions := (∅ : NameMap TransactionDirectory).insert transactionId ⟨directory, children⟩
  completed := ∅

def worldWith (children : NameMap Item) : World where
  files := files
  control := controlWith children

/-- The world right after the transaction directory was created. -/
def world : World := worldWith ∅

theorem onlyActive_with (children : NameMap Item) :
    OnlyActive (worldWith children).control transactionId directory children where
  valid := rfl
  identifier := by decide
  directory := by decide
  active := OrderedMap.Only.of_insert_empty _ _
  completed := rfl

theorem onlyActive : OnlyActive world.control transactionId directory ∅ := onlyActive_with ∅

def sourceDigest : Sha256Digest := sha256Digest sourceBytes

def requirements : List SnapshotRequirement := [⟨⟨"a"⟩, .existing sourceDigest⟩, ⟨⟨"b"⟩, .absent⟩]

/-- What acquiring the requirements shows. -/
def snapshot : WorkspaceSnapshot where
  workspaceIdentity := rootIdentity
  files := [{
    id := 0
    path := ⟨"a"⟩
    parentIdentity := rootIdentity
    parentIdentities := [rootIdentity]
    identity := ⟨1, 3⟩
    linkCount := 1
    bytes := sourceBytes
    digest := sourceDigest
    lineIndex := ⟨[2, 4]⟩ }]
  absentPaths := [⟨⟨"b"⟩, rootIdentity, [rootIdentity], "b"⟩]

theorem acquired : (setting.view world).acquireSnapshot setting.crates.sha256 requirements {} = .ok snapshot := by
  decide +kernel

def batch : BatchSpecification :=
  ⟨[.move {
    source := { path := ⟨"a"⟩, selector := .lines 1 1, precondition := .sha256 sourceDigest }
    destination := { path := ⟨"b"⟩, anchor := .fileStart, precondition := .mustNotExist } }]⟩

def sizes : TypeSizes := ⟨224, 120, 72⟩

private theorem plan_accepted : (plan setting.crates.sha256 sizes snapshot batch {}).toOption.isSome := by decide +kernel

def editPlan : EditPlan := (plan setting.crates.sha256 sizes snapshot batch {}).toOption.get plan_accepted

theorem planned : plan setting.crates.sha256 sizes snapshot batch {} = .ok editPlan := Except.eq_ok_get plan_accepted

theorem changed : changedOutputs editPlan = editPlan.outputs.filter fun output => output.change ≠ .unchanged :=
  changedOutputs_eq (plan_valid (acquireSnapshot_ok acquired).indexed planned).2

def manifest : Manifest where
  transactionVersion := 1
  transactionId := transactionId
  workspaceIdentity := .ofIdentity rootIdentity
  planSha256 := "sha256:c4da8202e69f7593af36d4508e8c8f9c6a31b8bc6f293629d4d87b846a1f4200"
  inputs := [⟨"a", .ofIdentity rootIdentity, true, some ⟨1, 3⟩, some sourceDigest.toPrefixedHex, some 4, some 1⟩,
    ⟨"b", .ofIdentity rootIdentity, false, none, none, none, none⟩]
  targets := [{
    targetIndex := 0
    path := "a"
    parentIdentity := .ofIdentity rootIdentity
    originalExisted := true
    originalIdentity := some ⟨1, 3⟩
    originalSha256 := some sourceDigest.toPrefixedHex
    originalLength := some 4
    candidateName := "candidate-00000000"
    backupName := "backup-00000000"
    candidateSha256 := (sha256Digest keptBytes).toPrefixedHex
    candidateLength := 2
    metadataPolicy := .preserveExistingMode
    newFileMode := none
    segments := [⟨0, 2, 4, none⟩] }, {
    targetIndex := 1
    path := "b"
    parentIdentity := .ofIdentity rootIdentity
    originalExisted := false
    originalIdentity := none
    originalSha256 := none
    originalLength := none
    candidateName := "candidate-00000001"
    backupName := "backup-00000001"
    candidateSha256 := (sha256Digest movedBytes).toPrefixedHex
    candidateLength := 2
    metadataPolicy := .newFileMode
    newFileMode := some 0o644
    segments := [⟨0, 0, 2, some 0⟩] }]
  metadataLimitations := metadataLimitations

theorem built : buildManifest snapshot editPlan (changedOutputs editPlan) transactionId 0o644 = .ok manifest := by
  rw [changed]
  decide +kernel

private theorem manifest_length : (manifestRecord setting.crates manifest).length ≤ 4096 := by decide +kernel

theorem manifest_encodes : manifest.Encodes setting.crates where
  valid := by decide +kernel
  size := manifest_length.trans (by decide)
  disk := by
    have artifacts : manifest.artifactBytes = 8 := rfl
    have length := manifest_length
    have limit : 8 + 4096 ≤ maxTransactionDiskBytes := by decide
    omega

end Sample

theorem sample_manifest_rebuilds_plan :
    plan Sample.setting.crates.sha256 Sample.sizes Sample.snapshot Sample.batch {} = .ok Sample.editPlan ∧
      (changedOutputs Sample.editPlan).map (fun output => output.bytes? Sample.snapshot) =
        [some Sample.keptBytes, some Sample.movedBytes] ∧
      buildManifest Sample.snapshot Sample.editPlan (changedOutputs Sample.editPlan) Sample.transactionId 0o644 =
        .ok Sample.manifest ∧
      (∀ budget, OnlyLimits (validateManifest Sample.manifest budget)) ∧
      List.Forall₂ (fun output target => target.path = output.path.value ∧
          ∃ content, output.bytes? Sample.snapshot = some content ∧
            WritesExactly Sample.setting Sample.manifest Sample.snapshot target content)
        (changedOutputs Sample.editPlan) Sample.manifest.targets := by
  have device : OneDevice Sample.snapshot := ⟨by decide, by decide⟩
  have bytes : (changedOutputs Sample.editPlan).map (fun output => output.bytes? Sample.snapshot) =
      [some Sample.keptBytes, some Sample.movedBytes] := by
    rw [Sample.changed]
    decide +kernel
  have changed : 1 ≤ (changedOutputs Sample.editPlan).length := by
    rw [← List.length_map, bytes]
    decide
  obtain ⟨manifest, built, rebuilds⟩ := built_manifest_rebuilds_plan Sample.setting (Sample.setting.view Sample.world)
    Sample.requirements {} Sample.snapshot Sample.sizes Sample.batch {} Sample.editPlan Sample.transactionId 0o644
    Sample.acquired le_rfl Sample.planned device changed (by decide)
  obtain rfl := Except.ok.inj (Sample.built.symm.trans built)
  exact ⟨Sample.planned, bytes, Sample.built, rebuilds⟩

end Srcmv.Fs
