import Srcmv.Proofs.Fs.Candidates
import Srcmv.Proofs.Fs.Phases
import Srcmv.Proofs.Fs.Trees

/-! # What a running transaction looks like

A job fixes one manifest, the files it found and the bytes it plans. A configuration says which phases
have been recorded and what stands at the three locations of every target. `Shows` is the agreement
of a world with a configuration; putting an item at a location changes both alike.
-/

namespace Srcmv.Fs

open Srcmv.Core Machine

/-- One transaction: its manifest, the files before it, and the planned bytes of each target. -/
structure Job where
  setting : Setting
  manifest : Manifest
  snapshot : WorkspaceSnapshot
  base : String → Option Item
  original : ℕ → Option Node
  content : ℕ → Bytes

/-- The three locations of a target. -/
inductive Slot where
  | target
  | candidate
  | backup
deriving DecidableEq

/-- What stands at the locations of one target. -/
abbrev Layout := Slot → Option Item

def layoutOf (target candidate backup : Option Item) : Layout
  | .target => target
  | .candidate => candidate
  | .backup => backup

@[simp] theorem layoutOf_target {target candidate backup : Option Item} :
    layoutOf target candidate backup .target = target := rfl

@[simp] theorem layoutOf_candidate {target candidate backup : Option Item} :
    layoutOf target candidate backup .candidate = candidate := rfl

@[simp] theorem layoutOf_backup {target candidate backup : Option Item} :
    layoutOf target candidate backup .backup = backup := rfl

@[simp] theorem update_layoutOf {target candidate backup item : Option Item} :
    Function.update (layoutOf target candidate backup) .target item = layoutOf item candidate backup ∧
    Function.update (layoutOf target candidate backup) .candidate item = layoutOf target item backup ∧
    Function.update (layoutOf target candidate backup) .backup item = layoutOf target candidate item := by
  refine ⟨?_, ?_, ?_⟩ <;> funext slot <;> cases slot <;> rfl

/-- The phases recorded so far, the locations of every target, and what was written of the next record. -/
structure Config where
  phases : List Phase
  layout : ℕ → Layout
  temporary : Option Bytes := none

namespace Config

/-- Put an item at a location of one target, or remove what is there. -/
def put (config : Config) (index : ℕ) (slot : Slot) (item : Option Item) : Config :=
  { config with layout := Function.update config.layout index (Function.update (config.layout index) slot item) }

/-- Give one target another layout. -/
def lay (config : Config) (index : ℕ) (layout : Layout) : Config :=
  { config with layout := Function.update config.layout index layout }

/-- Record one more phase. -/
def record (config : Config) (phase : Phase) : Config :=
  { config with phases := config.phases ++ [phase], temporary := none }

@[simp] theorem lay_phases (config : Config) (index : ℕ) (layout : Layout) : (config.lay index layout).phases = config.phases :=
  rfl

@[simp] theorem lay_temporary (config : Config) (index : ℕ) (layout : Layout) :
    (config.lay index layout).temporary = config.temporary := rfl

@[simp] theorem lay_layout_self (config : Config) (index : ℕ) (layout : Layout) :
    (config.lay index layout).layout index = layout := Function.update_self _ _ _

theorem lay_layout_of_ne {index other : ℕ} (different : other ≠ index) (config : Config) (layout : Layout) :
    (config.lay index layout).layout other = config.layout other := Function.update_of_ne different _ _

theorem put_eq_lay (config : Config) (index : ℕ) (slot : Slot) (item : Option Item) :
    config.put index slot item = config.lay index (Function.update (config.layout index) slot item) := rfl

end Config

namespace Job

variable (job : Job)

abbrev crates : Crates := job.setting.crates

/-- What the records say of each target. -/
def course : Course where
  count := job.manifest.targets.length
  existed index := (job.original index).isSome
  candidate index := .ofIdentity (job.setting.newIdentity (generatedName "candidate" index))
  original index := (job.original index).elim ⟨0, 0⟩ fun node => .ofIdentity node.identity
  mode index := (job.original index).elim 0 fun node => node.mode &&& 0o7777

/-- The records of some phases. -/
def chain (phases : List Phase) : List StateSnapshot := chainOf job.crates job.manifest job.course phases

def originalItem (index : ℕ) : Option Item := (job.original index).map Item.file

/-- The candidate of a target while it is written and afterwards. -/
def candidateItem (index : ℕ) (mode : UInt32) (bytes : Bytes) : Item :=
  .file ⟨job.setting.newIdentity (generatedName "candidate" index), 1, mode, bytes⟩

/-- The mode an installed candidate has. -/
def finalMode (index : ℕ) : UInt32 :=
  match job.original index with
  | some node => node.mode &&& 0o7777
  | none => ((job.manifest.targets[index]?).bind ManifestTarget.newFileMode).getD 0 &&& 0o7777

def untouched (index : ℕ) : Layout := layoutOf (job.originalItem index) none none

def partly (index : ℕ) (bytes : Bytes) : Layout :=
  layoutOf (job.originalItem index) (some (job.candidateItem index 0o600 bytes)) none

def staged (index : ℕ) (mode : UInt32) : Layout :=
  layoutOf (job.originalItem index) (some (job.candidateItem index mode (job.content index))) none

def backedUp (index : ℕ) (mode : UInt32) : Layout :=
  layoutOf none (some (job.candidateItem index mode (job.content index))) (job.originalItem index)

def installed (index : ℕ) : Layout :=
  layoutOf (some (job.candidateItem index (job.finalMode index) (job.content index))) none (job.originalItem index)

/-- The installed candidate is gone again, and the original is not back yet. -/
def cleared (index : ℕ) : Layout := layoutOf none none (job.originalItem index)

/-- The workspace's files in a configuration. -/
def filesOf (config : Config) (path : String) : Option Item :=
  match job.manifest.targets.findIdx? fun target => target.path = path with
  | some index => config.layout index .target
  | none => job.base path

/-- A record once it is written under this name. -/
def recordItem (name : String) (bytes : Bytes) : Item := writtenItem (job.setting.newIdentity name) bytes

/-- The transaction directory in a configuration. -/
def contentsOf (config : Config) : Entry → Option Item
  | .manifest => some (job.recordItem "manifest.tmp" (manifestRecord job.crates job.manifest))
  | .manifestTemporary => none
  | .record index =>
      (job.chain config.phases)[index]?.map fun state => job.recordItem (stateName index "tmp") (stateRecord job.crates state)
  | .temporary index =>
      if index = config.phases.length then config.temporary.map (job.recordItem (stateName index "tmp")) else none
  | .candidate index => if index < job.manifest.targets.length then config.layout index .candidate else none
  | .backup index => if index < job.manifest.targets.length then config.layout index .backup else none

/-- What the caller and the filesystem promise of a job. -/
structure Sound : Prop where
  encodes : job.manifest.Encodes job.crates
  originalBytes : ∀ index node, job.original index = some node → node.bytes.length ≤ u64Max
  base : ∀ (index : ℕ) (target : ManifestTarget), job.manifest.targets[index]? = some target →
    job.base target.path = job.originalItem index
  existed : ∀ (index : ℕ) (target : ManifestTarget), job.manifest.targets[index]? = some target →
    target.originalExisted = (job.original index).isSome
  recorded : ∀ (index : ℕ) (target : ManifestTarget) (node : Node), job.manifest.targets[index]? = some target →
    job.original index = some node →
      matchesOriginal ⟨node.identity, UInt64.ofNat node.bytes.length, job.crates.sha256 node.bytes⟩ target = true
  distinct : ∀ index node, job.original index = some node →
    job.setting.newIdentity (generatedName "candidate" index) ≠ node.identity
  planned : ∀ (index : ℕ) (target : ManifestTarget), job.manifest.targets[index]? = some target →
    Planned job.crates.sha256 job.snapshot target (job.content index)
  parents : ∀ (index : ℕ) (target : ManifestTarget), job.manifest.targets[index]? = some target →
    ∃ identity identities, job.setting.parents target.path = .ok (identity, identities) ∧
      PersistedIdentity.ofIdentity identity = target.parentIdentity ∧
      identity.device = job.setting.identity.device
  room : job.manifest.artifactBytes ≤ 2 * 1024 * 1024 * 1024

namespace Sound

variable {job}

theorem valid (sound : job.Sound) : job.manifest.Valid := validateManifest_valid sound.encodes.valid

theorem course_of (sound : job.Sound) : job.course.Of job.manifest where
  count := rfl
  existed := by
    apply List.ext_getElem?
    intro index
    rw [Manifest.originalExistence, List.getElem?_map, List.getElem?_map]
    cases here : job.manifest.targets[index]? with
    | none =>
      have beyond := List.getElem?_eq_none_iff.mp here
      rw [List.getElem?_eq_none (by rw [List.length_range]; exact beyond)]
      rfl
    | some target =>
      have inside := (List.getElem?_eq_some_iff.mp here).1
      rw [List.getElem?_range (show index < job.course.count from inside)]
      exact congrArg some (sound.existed index target here)
  positive := Nat.pos_of_ne_zero sound.valid.nonempty
  bounded := sound.valid.few

end Sound

/-- The world agrees with the configuration. -/
structure Shows (config : Config) (world : World) : Prop where
  files : world.files = job.filesOf config
  active : ∃ object children, OnlyActive world.control job.manifest.transactionId object children ∧
    Holds children (job.contentsOf config)
  identities : captureControlIdentities world.control = .ok job.setting.lock
  published : world.published = job.chain config.phases
  refusals : world.refusals = []

/-- A location of a target. -/
def locationOf (target : ManifestTarget) : Slot → Location
  | .target => (locationsOf job.manifest.transactionId target).target
  | .candidate => (locationsOf job.manifest.transactionId target).candidate
  | .backup => (locationsOf job.manifest.transactionId target).backup

end Job

section Agreement

variable {job : Job} {config : Config} {world : World} {index : ℕ} {target : ManifestTarget}

private theorem findIdx_path (valid : job.manifest.Valid) (here : job.manifest.targets[index]? = some target) :
    job.manifest.targets.findIdx? (fun other => other.path = target.path) = some index := by
  rw [List.findIdx?_eq_some_iff_getElem]
  obtain ⟨inside, rfl⟩ := List.getElem?_eq_some_iff.mp here
  refine ⟨inside, decide_eq_true rfl, ?_⟩
  intro other before
  rw [decide_eq_true_eq]
  intro same
  have equal := valid.path_injective (List.getElem?_eq_getElem (before.trans inside)) here same
  omega

theorem Job.filesOf_target (sound : job.Sound) (here : job.manifest.targets[index]? = some target) :
    job.filesOf config target.path = config.layout index .target := by
  rw [Job.filesOf, findIdx_path sound.valid here]

private theorem filesOf_put (sound : job.Sound) (here : job.manifest.targets[index]? = some target) (item : Option Item) :
    job.filesOf (config.put index .target item) = Function.update (job.filesOf config) target.path item := by
  funext path
  by_cases same : path = target.path
  · subst same
    rw [Function.update_self, Job.filesOf_target sound here, Config.put]
    simp
  · rw [Function.update_of_ne same, Job.filesOf, Job.filesOf]
    cases found : job.manifest.targets.findIdx? fun other => other.path = path with
    | none => rfl
    | some other =>
      obtain ⟨inside, named, -⟩ := List.findIdx?_eq_some_iff_getElem.mp found
      have different : other ≠ index := by
        rintro rfl
        rw [(List.getElem?_eq_some_iff.mp here).2] at named
        exact same (decide_eq_true_eq.mp named).symm
      simp [Config.put, Function.update_of_ne different]

private theorem put_layout_of_ne {slot other : Slot} (different : slot ≠ other) (item : Option Item) (at_ : ℕ) :
    (config.put index slot item).layout at_ other = config.layout at_ other := by
  by_cases same : at_ = index
  · subst same
    simp [Config.put, Function.update_of_ne different.symm]
  · simp [Config.put, Function.update_of_ne same]

/-- Other locations do not show in the workspace. -/
private theorem filesOf_congr {other : Config} (same : ∀ index, other.layout index .target = config.layout index .target) :
    job.filesOf other = job.filesOf config := by
  funext path
  rw [Job.filesOf, Job.filesOf]
  split
  · exact same _
  · rfl

private theorem contentsOf_put_candidate (inside : index < job.manifest.targets.length) (item : Option Item) :
    job.contentsOf (config.put index .candidate item) = Function.update (job.contentsOf config) (.candidate index) item := by
  funext entry
  cases entry with
  | candidate other =>
    by_cases same : other = index
    · subst same
      simp [Job.contentsOf, Config.put, inside]
    · rw [Function.update_of_ne (by simpa using same)]
      simp [Job.contentsOf, Config.put, Function.update_of_ne same]
  | backup other =>
    rw [Function.update_of_ne (by simp), Job.contentsOf, Job.contentsOf, put_layout_of_ne (by decide)]
  | _ => rw [Function.update_of_ne (by simp)]; rfl

private theorem contentsOf_put_backup (inside : index < job.manifest.targets.length) (item : Option Item) :
    job.contentsOf (config.put index .backup item) = Function.update (job.contentsOf config) (.backup index) item := by
  funext entry
  cases entry with
  | backup other =>
    by_cases same : other = index
    · subst same
      simp [Job.contentsOf, Config.put, inside]
    · rw [Function.update_of_ne (by simpa using same)]
      simp [Job.contentsOf, Config.put, Function.update_of_ne same]
  | candidate other =>
    rw [Function.update_of_ne (by simp), Job.contentsOf, Job.contentsOf, put_layout_of_ne (by decide)]
  | _ => rw [Function.update_of_ne (by simp)]; rfl

private theorem contentsOf_put_target (item : Option Item) :
    job.contentsOf (config.put index .target item) = job.contentsOf config := by
  funext entry
  cases entry with
  | candidate other => rw [Job.contentsOf, Job.contentsOf, put_layout_of_ne (by decide)]
  | backup other => rw [Job.contentsOf, Job.contentsOf, put_layout_of_ne (by decide)]
  | _ => rfl

namespace Job.Shows

/-- Putting an item at a location of a target. -/
theorem place (shows_ : job.Shows config world) (sound : job.Sound)
    (here : job.manifest.targets[index]? = some target) (slot : Slot) (item : Option Item) :
    job.Shows (config.put index slot item) (world.place (job.locationOf target slot) item) := by
  have inside := (List.getElem?_eq_some_iff.mp here).1
  have named := sound.valid.target index target here
  obtain ⟨object, children, only, holds⟩ := shows_.active
  cases slot with
  | target =>
    refine ⟨?_, ⟨object, children, only, ?_⟩, shows_.identities, shows_.published, shows_.refusals⟩
    · rw [filesOf_put sound here, ← shows_.files]
      rfl
    · rw [contentsOf_put_target]
      exact holds
  | candidate =>
    refine ⟨?_, ⟨object, _, World.children_place_artifact only, ?_⟩, shows_.identities, shows_.published, shows_.refusals⟩
    · rw [filesOf_congr fun other => put_layout_of_ne (by decide) item other, ← shows_.files]
      rfl
    · rw [contentsOf_put_candidate inside, show target.candidateName = (Entry.candidate index).name from named.candidateName]
      exact holds.alter (.candidate index) item
  | backup =>
    refine ⟨?_, ⟨object, _, World.children_place_artifact only, ?_⟩, shows_.identities, shows_.published, shows_.refusals⟩
    · rw [filesOf_congr fun other => put_layout_of_ne (by decide) item other, ← shows_.files]
      rfl
    · rw [contentsOf_put_backup inside, show target.backupName = (Entry.backup index).name from named.backupName]
      exact holds.alter (.backup index) item

/-- What stands at a location. -/
theorem item? (shows_ : job.Shows config world) (sound : job.Sound)
    (here : job.manifest.targets[index]? = some target) (slot : Slot) :
    world.item? (job.locationOf target slot) = config.layout index slot := by
  have inside := (List.getElem?_eq_some_iff.mp here).1
  have named := sound.valid.target index target here
  obtain ⟨object, children, only, holds⟩ := shows_.active
  cases slot with
  | target =>
    change world.files target.path = _
    rw [shows_.files, filesOf_target sound here]
  | candidate =>
    have found := holds.entry (.candidate index)
    change world.item? (.artifact job.manifest.transactionId target.candidateName) = _
    rw [World.item?_artifact only, named.candidateName]
    exact found.trans (if_pos inside)
  | backup =>
    have found := holds.entry (.backup index)
    change world.item? (.artifact job.manifest.transactionId target.backupName) = _
    rw [World.item?_artifact only, named.backupName]
    exact found.trans (if_pos inside)

/-- The transaction directory is there. -/
theorem reaches (shows_ : job.Shows config world) (target : ManifestTarget) (slot : Slot) :
    world.Reaches (job.locationOf target slot) := by
  obtain ⟨object, children, only, -⟩ := shows_.active
  have there : job.manifest.transactionId ∈ world.control.transactions := only.isActive
  cases slot with
  | target => trivial
  | candidate => exact there
  | backup => exact there

end Job.Shows

end Agreement

end Srcmv.Fs
