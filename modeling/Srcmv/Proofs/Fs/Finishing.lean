import Srcmv.Proofs.Fs.Cleanup
import Srcmv.Proofs.Fs.Committing
import Srcmv.Proofs.Fs.CompletedContents
import Srcmv.Proofs.Fs.Resuming

/-! # Finishing a transaction

The directory of a committed or rolled back transaction is moved among the completed ones and removed
there. The removal starts only if all the files in it fit the recovery limit; wherever it stops, the
workspace is as the transaction left it.
-/

namespace Srcmv.Fs

open Srcmv.Core Machine Process

/-- No transaction is left in the tree. -/
structure Idle (tree : ControlTree) : Prop where
  valid : validateControlTree tree = .ok ()
  active : tree.transactions = ∅
  completed : tree.completed = ∅

section Trees

theorem Idle.scanControl_eq {crates : Crates} {tree : ControlTree} (idle : Idle tree) : scanControl crates tree {} = .ok ∅ := by
  rw [scanControl, idle.valid, Except.ok_bind, idle.active, idle.completed, Std.ExtTreeMap.toList_eq_nil_iff.mpr rfl]
  rfl

variable {tree : ControlTree} {id name : String} {object : ControlObject} {children : NameMap Item} {world : World}

/-- The directory is moved among the completed ones. -/
theorem OnlyActive.renameTerminal (only : OnlyActive world.control id object children) (name : String) : ∃ later : World,
    world.renameTerminal id name = .ok ((), later) ∧ OnlyCompleted later.control name object children ∧
      later.files = world.files ∧ later.published = world.published ∧ later.refusals = world.refusals := by
  have free : world.control.completed[name]? = none := by
    rw [only.completed, Std.ExtTreeMap.getElem?_empty]
  refine ⟨{ world with control := { world.control with
    transactions := world.control.transactions.erase id
    completed := world.control.completed.insert name ⟨object, children⟩ } }, ?_,
    ⟨only.valid, only.directory, ?_, only.active.erase⟩, rfl, rfl, rfl⟩
  · rw [World.renameTerminal, only.active.here, free]
  · dsimp only
    rw [only.completed]
    exact .of_insert_empty _ _

theorem OnlyCompleted.childrenOf_eq (only : OnlyCompleted world.control name object children) :
    world.childrenOf (.completed name) = children := by
  rw [World.childrenOf, only.completed.here]
  rfl

theorem OnlyCompleted.removing (only : OnlyCompleted world.control name object children) (count : ℕ) :
    OnlyCompleted (world.removing (.completed name) count).control name object (removeFirst count children) where
  valid := only.valid
  directory := only.directory
  completed := only.completed.alter fun directory => { directory with children := removeFirst count directory.children }
  active := only.active

theorem OnlyCompleted.withoutDirectory (only : OnlyCompleted world.control name object children) :
    Idle (world.withoutDirectory (.completed name)).control :=
  ⟨only.valid, only.active, only.completed.erase⟩

end Trees

variable {allowed : Site → Went → Prop} {rest : World → Prop} {job : Job} {config : Config} {world : World} {phase : Phase}
  {session : Session} {committed : Bool}

section Files

/-- Only the target locations of the targets show in the workspace. -/
theorem Job.filesOf_congr {other : Config}
    (same : ∀ index < job.manifest.targets.length, other.layout index .target = config.layout index .target) :
    job.filesOf other = job.filesOf config := by
  funext path
  rw [filesOf, filesOf]
  split
  · next index found =>
    obtain ⟨inside, -⟩ := List.findIdx?_eq_some_iff_getElem.mp found
    exact same index inside
  · rfl

/-- The workspace with every candidate installed. -/
def Job.plannedFiles (job : Job) : String → Option Item := job.filesOf ⟨[], job.installed, none⟩

/-- The workspace before the transaction is the one with every target untouched. -/
theorem Job.filesOf_untouched (sound : job.Sound)
    (untouched : ∀ index < job.manifest.targets.length, config.layout index .target = job.originalItem index) :
    job.filesOf config = job.base := by
  funext path
  rw [filesOf]
  split
  · next index found =>
    obtain ⟨inside, named, -⟩ := List.findIdx?_eq_some_iff_getElem.mp found
    rw [untouched index inside, ← sound.base index _ (List.getElem?_eq_getElem inside), decide_eq_true_eq.mp named]
  · rfl

end Files

/-! ## Transactions that have ended -/

/-- The last recorded state of a transaction that has ended. -/
def terminalState (committed : Bool) : GlobalState := if committed then .committed else .rolledBack

/-- What is left of the directory of a transaction that has ended. -/
inductive Job.Left (job : Job) (committed : Bool) (tree : ControlTree) : Prop where
  | directory {object : ControlObject} {children : NameMap Item}
      (only : OnlyCompleted tree (completedName job.manifest.transactionId committed) object children)
      (backups : ∀ index item, children[(Entry.backup index).name]? = some item → job.originalItem index = some item) :
      Left job committed tree
  | gone (idle : Idle tree) : Left job committed tree

/-- A transaction that has ended is not active. -/
theorem Job.Left.inactive {job : Job} {committed : Bool} {tree : ControlTree} (left : job.Left committed tree) :
    tree.transactions = ∅ := by
  cases left with
  | directory only _ => exact only.active
  | gone idle => exact idle.active

/-- The published records lead to the end of the transaction. -/
def Job.Recorded (job : Job) (committed : Bool) (world : World) : Prop :=
  ∃ phases phase, Path job.course phases phase ∧ phase.globalState = terminalState committed ∧
    world.published = job.chain phases

/-- A transaction that has ended: what is left of its directory lies among the completed ones. A transaction
without state records ends without any. -/
structure Job.Ended (job : Job) (committed : Bool) (world : World) : Prop where
  files : world.files = if committed then job.plannedFiles else job.base
  left : job.Left committed world.control
  published : (committed = false ∧ world.published = []) ∨ job.Recorded committed world
  refusals : world.refusals = []

/-- The end of the transaction is recorded, and its directory is gone. -/
structure Job.Concluded (job : Job) (committed : Bool) (world : World) : Prop where
  ended : job.Ended committed world
  recorded : job.Recorded committed world
  idle : Idle world.control

/-- A cleanup leaves a transaction ended. -/
theorem Job.Ended.cleaned {object : ControlObject} {children : NameMap Item} (ended : job.Ended committed world)
    (only : OnlyCompleted world.control (completedName job.manifest.transactionId committed) object children)
    (backups : ∀ index item, children[(Entry.backup index).name]? = some item → job.originalItem index = some item)
    {left : World} (partly : PartlyCleaned world (.completed (completedName job.manifest.transactionId committed)) left) :
    job.Ended committed left := by
  rcases partly with ⟨count, rfl⟩ | rfl
  · refine ⟨ended.files, .directory (only.removing count) ?_, ended.published, ended.refusals⟩
    intro index item found
    rw [getElem?_removeFirst] at found
    split at found
    · cases found
    · exact backups index item found
  · exact ⟨ended.files, .gone only.withoutDirectory, ended.published, ended.refusals⟩

/-- Every target is in its final layout. -/
def Job.Final (job : Job) (committed : Bool) (config : Config) : Prop :=
  ∀ index < job.manifest.targets.length,
    config.layout index = if committed then job.installed index else job.untouched index

theorem Job.Placed.final (placed : job.Placed config phase) (terminal : phase.globalState = terminalState committed) :
    job.Final committed config := by
  intro index inside
  obtain ⟨stage, allows, lies⟩ := placed index inside
  cases committed with
  | true =>
    rw [Phase.Allows, show phase.globalState = .committed from terminal] at allows
    subst allows
    exact lies
  | false =>
    rw [Phase.Allows, show phase.globalState = .rolledBack from terminal] at allows
    subst allows
    exact lies

/-- The bytes of the originals of all targets. -/
def Job.originalBytes (job : Job) : ℕ :=
  ((List.range job.manifest.targets.length).map fun index => (job.originalItem index).elim 0 Item.length).sum

/-- The bytes of the records of some phases, the manifest among them. -/
def Job.recordBytes (job : Job) (phases : List Phase) : ℕ :=
  (manifestRecord job.crates job.manifest).length + chainBytes job.crates (job.chain phases)

section Bytes

private theorem sum_flatMap {α : Type} {items : List α} {each : α → ℕ} (zero : ∀ item ∈ items, each item = 0) :
    (items.map each).sum = 0 := by
  rw [List.sum_eq_zero_iff_forall_eq_nat]
  intro value member
  obtain ⟨item, inside, rfl⟩ := List.mem_map.mp member
  exact zero item inside

private theorem sum_records (chain : List StateSnapshot) (crates : Crates) (item : ℕ → StateSnapshot → Item)
    (length : ∀ index state, (item index state).length = (stateRecord crates state).length) :
    ((List.range chain.length).map fun index => (chain[index]?.map (item index)).elim 0 Item.length).sum =
      chainBytes crates chain := by
  rw [chainBytes]
  congr 1
  apply List.ext_getElem
  · simp
  · intro index inside _
    rw [List.length_map, List.length_range] at inside
    simp [List.getElem?_eq_getElem inside, length]

/-- The bytes of the directory of a transaction in its final layout. -/
theorem directoryBytes_final {children : NameMap Item} (holds : Holds children (job.contentsOf config))
    (unbegun : config.temporary = none) (final : job.Final committed config) :
    directoryBytes children = job.recordBytes config.phases + if committed then job.originalBytes else 0 := by
  have phases : (job.chain config.phases).length = config.phases.length := length_chainOf
  have noCandidate : ∀ index, job.contentsOf config (.candidate index) = none := by
    intro index
    rw [Job.contentsOf]
    split
    · next inside =>
      rw [final index inside]
      split <;> rfl
    · rfl
  have backup : ∀ index < job.manifest.targets.length, job.contentsOf config (.backup index) =
      if committed then job.originalItem index else none := by
    intro index inside
    rw [Job.contentsOf, if_pos inside, final index inside]
    split <;> rfl
  have entries : directoryBytes children = ((Entry.manifest :: ((List.range (job.chain config.phases).length).map Entry.record ++
      (List.range job.manifest.targets.length).map Entry.backup)).map fun entry =>
        (job.contentsOf config entry).elim 0 Item.length).sum := by
    apply directoryBytes_of_holds holds
    · simp only [List.nodup_cons, List.mem_append, List.mem_map, reduceCtorEq, and_false, exists_false, or_self,
        not_false_eq_true, true_and]
      apply List.Nodup.append
      · exact List.nodup_range.map fun _ _ same => Entry.record.inj same
      · exact List.nodup_range.map fun _ _ same => Entry.backup.inj same
      · intro entry record backup
        obtain ⟨_, _, rfl⟩ := List.mem_map.mp record
        obtain ⟨_, _, impossible⟩ := List.mem_map.mp backup
        cases impossible
    · intro entry absent
      cases entry with
      | manifest => simp at absent
      | manifestTemporary => rfl
      | record index =>
        have beyond : ¬index < (job.chain config.phases).length := by simpa using absent
        rw [Job.contentsOf, List.getElem?_eq_none (not_lt.mp beyond)]
        rfl
      | temporary index => rw [Job.contentsOf, unbegun, Option.map_none, ite_self]
      | candidate index => exact noCandidate index
      | backup index =>
        have beyond : ¬index < job.manifest.targets.length := by simpa using absent
        exact if_neg beyond
  have records := sum_records (job.chain config.phases) job.crates
    (fun index state => job.recordItem (stateName index "tmp") (stateRecord job.crates state)) fun _ _ => rfl
  have backups : ((List.range job.manifest.targets.length).map fun index =>
      (job.contentsOf config (.backup index)).elim 0 Item.length).sum = if committed then job.originalBytes else 0 := by
    cases committed with
    | true =>
      rw [if_pos rfl, Job.originalBytes]
      congr 1
      apply List.map_congr_left
      intro index inside
      rw [backup index (List.mem_range.mp inside), if_pos rfl]
    | false =>
      rw [if_neg Bool.false_ne_true]
      apply sum_flatMap
      intro index inside
      rw [backup index (List.mem_range.mp inside), if_neg Bool.false_ne_true]
      rfl
  rw [entries, List.map_cons, List.sum_cons, List.map_append, List.sum_append, List.map_map, List.map_map]
  change (manifestRecord job.crates job.manifest).length + (((List.range (job.chain config.phases).length).map fun index =>
    ((job.chain config.phases)[index]?.map _).elim 0 Item.length).sum + ((List.range job.manifest.targets.length).map fun index =>
      (job.contentsOf config (.backup index)).elim 0 Item.length).sum) = _
  rw [records, backups, Job.recordBytes, Nat.add_assoc]

end Bytes

/-- All the files of the directory fit the recovery limit. -/
def Job.Fits (job : Job) (committed : Bool) (phases : List Phase) : Prop :=
  (job.recordBytes phases + if committed then job.originalBytes else 0) ≤ maxRecoveryBytes

/-- Without the originals every directory fits. -/
theorem Path.fits {phases : List Phase} (sound : job.Sound) (path : Path job.course phases phase) : job.Fits false phases := by
  have chained : SoundChain job.crates job.manifest (job.chain phases) := path.sound sound.course_of
  rw [Job.Fits, Job.recordBytes, if_neg Bool.false_ne_true, Nat.add_zero]
  exact chained.records_within sound.encodes

/-- Moving the directory ends the transaction. -/
theorem Job.Running.moved (sound : job.Sound) (running : job.Running allowed config phase world) (unbegun : config.temporary = none)
    (terminal : phase.globalState = terminalState committed) : ∃ (later : World) (object : ControlObject) (children : NameMap Item),
    world.renameTerminal job.manifest.transactionId (completedName job.manifest.transactionId committed) = .ok ((), later) ∧
      OnlyCompleted later.control (completedName job.manifest.transactionId committed) object children ∧
      job.Ended committed later ∧ job.Recorded committed later ∧
      (∀ index item, children[(Entry.backup index).name]? = some item → job.originalItem index = some item) ∧
      (∀ error, validateCompletedContents job.crates children job.manifest.transactionId 0 {} = .error error →
        error.IsRecoveryLimit) ∧
      ∀ total, validateCompletedContents job.crates children job.manifest.transactionId 0 {} = .ok total ↔
        (total = directoryBytes children ∧ job.Fits committed config.phases) := by
  have final := running.placed.final terminal
  have chained : SoundChain job.crates job.manifest (job.chain config.phases) := running.path.sound sound.course_of
  have phases : (job.chain config.phases).length = config.phases.length := length_chainOf
  obtain ⟨object, children, only, holds⟩ := running.shows_.active
  obtain ⟨later, renamed, completed, files, published, refusals⟩ :=
    only.renameTerminal (completedName job.manifest.transactionId committed)
  have noTemporary : job.contentsOf config (.temporary (job.chain config.phases).length) = none := by
    rw [Job.contentsOf, unbegun, Option.map_none, ite_self]
  have backups : ∀ index item, children[(Entry.backup index).name]? = some item → job.originalItem index = some item := by
    intro index item found
    rw [holds.entry, Job.contentsOf] at found
    split at found
    · next inside =>
      rw [final index inside] at found
      split at found
      · exact found
      · cases found
    · cases found
  have recorded : job.Recorded committed later :=
    ⟨config.phases, phase, running.path, terminal, published.trans running.shows_.published⟩
  refine ⟨later, object, children, renamed, completed, ⟨?_, .directory completed backups, .inr recorded, refusals.trans
    running.shows_.refusals⟩, recorded, backups, fun error refused => ?_, fun total => ?_⟩
  · rw [files, running.shows_.files]
    cases committed with
    | true =>
      rw [if_pos rfl, Job.plannedFiles]
      apply Job.filesOf_congr
      intro index inside
      rw [final index inside, if_pos rfl]
    | false =>
      rw [if_neg Bool.false_ne_true]
      apply Job.filesOf_untouched sound
      intro index inside
      rw [final index inside, if_neg Bool.false_ne_true]
      rfl
  · exact validateCompletedContents_error holds (running.placed.journaled sound) chained sound.encodes noTemporary refused
  · rw [validateCompletedContents_eq_ok holds (running.placed.journaled sound) chained sound.encodes noTemporary, Job.Fits,
      directoryBytes_final holds unbegun final]

section Finish

variable (sound : job.Sound) (active : job.Active phase session config world)
  (terminal : phase.globalState = terminalState committed)

/-- The contents of a completed directory pass validation. -/
def Validates (crates : Crates) (children : NameMap Item) (id : String) : Prop :=
  ∃ total, validateCompletedContents crates children id 0 {} = .ok total

/-- Why a cleanup does not get to its end: a step of it fails, or the contents are not valid. -/
def CleanupError (allowed : Site → Went → Prop) (site : SiteOf) (crates : Crates) (children : NameMap Item) (id : String)
    (error : FsError) : Prop :=
  (error.IsIo ∧ ∃ operation, allowed (site operation) .failed) ∨ validateCompletedContents crates children id 0 {} = .error error

/-- A cleanup removes a valid directory; wherever it stops, the transaction has ended all the same. -/
theorem Job.Ended.cleanup_triple {object : ControlObject} {children : NameMap Item} (ended : job.Ended committed world)
    (only : OnlyCompleted world.control (completedName job.manifest.transactionId committed) object children)
    (backups : ∀ index item, children[(Entry.backup index).name]? = some item → job.originalItem index = some item)
    (site : SiteOf) :
    Triple allowed (· = world) (cleanupCompletedDirectory job.setting site
        (completedName job.manifest.transactionId committed) job.manifest.transactionId)
      ⟨fun _ later => Validates job.crates children job.manifest.transactionId ∧ job.Ended committed later ∧
          Idle later.control ∧ later.published = world.published,
        fun error later => CleanupError allowed site job.crates children job.manifest.transactionId error ∧
          job.Ended committed later,
        fun later => (∃ operation, allowed (site operation) .crashed) ∧ job.Ended committed later⟩ := by
  by_cases validates : Validates job.crates children job.manifest.transactionId
  · obtain ⟨total, validated⟩ := validates
    have valid : validateCompletedContents job.setting.crates
        (world.childrenOf (.completed (completedName job.manifest.transactionId committed))) job.manifest.transactionId 0 {} =
          .ok total := by
      rw [only.childrenOf_eq]
      exact validated
    apply (cleanupCompletedDirectory_triple valid).mono
    · exact fun _ same => same
    · rintro _ later rfl
      exact ⟨⟨total, validated⟩, ended.cleaned only backups (.inr rfl), only.withoutDirectory, rfl⟩
    · rintro _ later ⟨io, failed, partly⟩
      exact ⟨.inl ⟨io, failed⟩, ended.cleaned only backups partly⟩
    · rintro later ⟨crashed, partly⟩
      exact ⟨crashed, ended.cleaned only backups partly⟩
  · rw [cleanupCompletedDirectory]
    apply Triple.bind fun _ _ => False
    · apply Triple.observe
      · rintro permitted later rfl
        exact ⟨⟨_, permitted⟩, ended⟩
      · rintro permitted later rfl
        exact ⟨.inl ⟨isIo _ _, _, permitted⟩, ended⟩
      · rintro later rfl _ accepted
        obtain ⟨total, valid, -⟩ := Except.bind_eq_ok.mp accepted
        rw [only.childrenOf_eq] at valid
        exact validates ⟨total, valid⟩
      · rintro - later rfl error refused
        rcases Except.bind_eq_error.mp refused with invalid | ⟨_, _, impossible⟩
        · rw [only.childrenOf_eq] at invalid
          exact ⟨.inr invalid, ended⟩
        · cases impossible
    · exact fun _ _ _ impossible => impossible.elim

/-- Wherever a cleanup stops, the transaction has ended. -/
theorem Job.Ended.cleanup_ended {object : ControlObject} {children : NameMap Item} (ended : job.Ended committed world)
    (only : OnlyCompleted world.control (completedName job.manifest.transactionId committed) object children)
    (backups : ∀ index item, children[(Entry.backup index).name]? = some item → job.originalItem index = some item)
    (site : SiteOf) :
    Triple allowed (· = world) (cleanupCompletedDirectory job.setting site
        (completedName job.manifest.transactionId committed) job.manifest.transactionId)
      (Ends (fun _ => True) (fun _ => job.Ended committed) (job.Ended committed)) :=
  (ended.cleanup_triple only backups site).mono (fun _ same => same) (fun _ _ finished => finished.2.1)
    (fun _ _ failed => ⟨trivial, failed.2⟩) fun _ crashed => crashed.2

/-- How the end of a transaction can go. Stopped before its directory moves, the world is as it was; after
that the transaction has ended, and an error says that a step failed or that the files do not fit. -/
def Job.Finishing (job : Job) (allowed : Site → Went → Prop) (committed : Bool) (fits : Prop) (world : World) :
    Ending World FsError Unit where
  done _ later := fits ∧ job.Concluded committed later
  failed error later := (Disturbed allowed ∧ later = world) ∨ job.Ended committed later ∧
    ((error.IsIo ∧ ∃ operation, allowed (.terminal committed operation) .failed) ∨ ¬fits ∧ error.IsRecoveryLimit)
  crashed later := Disturbed allowed ∧ (later = world ∨ job.Ended committed later)

include sound active terminal in
/-- Finishing a committed or rolled back transaction removes its directory, if all of it fits. -/
theorem finishTransaction_ends : Triple allowed (· = world) (finishTransaction job.setting job.manifest.transactionId committed)
    (job.Finishing allowed committed (job.Fits committed config.phases) world) := by
  have underway : job.Running allowed config phase world := active.running
  obtain ⟨arrived, object, children, renamed, only, ended, recorded, backups, limited, validates⟩ :=
    underway.moved sound active.unbegun terminal
  obtain ⟨_, _, running, -⟩ := active.shows_.active
  have synced : Triple allowed (· = arrived) (settle (.terminal committed "sync_directory") (.io "sync_directory" none))
      ⟨fun _ later => later = arrived, (job.Finishing allowed committed (job.Fits committed config.phases) world).failed,
        (job.Finishing allowed committed (job.Fits committed config.phases) world).crashed⟩ := by
    apply Triple.act
    · rintro permitted _ rfl
      exact ⟨⟨_, .inr permitted⟩, .inr ended⟩
    · rintro permitted _ rfl
      exact .inr ⟨ended, .inl ⟨isIo _ _, _, permitted⟩⟩
    · rintro _ rfl _ _ settled
      cases settled
      rfl
    · rintro - _ rfl _ refused
      cases refused
  rw [finishTransaction, running.identifier, ofExcept_ok_bind]
  dsimp only
  apply (Triple.responds renamed (renameDenied_isSystem _)).endsThen
  · constructor
    · rintro _ _ ⟨disturbed, rfl⟩
      exact .inl ⟨⟨_, disturbed⟩, rfl⟩
    · rintro _ ⟨disturbed, rfl⟩
      exact ⟨⟨_, disturbed⟩, .inl rfl⟩
  rintro _ after ⟨-, same⟩
  rw [same]
  refine Triple.bind (fun _ later => later = arrived) synced fun _ => Triple.bind (fun _ later => later = arrived) synced fun _ => ?_
  have valid : Validates job.crates children job.manifest.transactionId ↔ job.Fits committed config.phases := by
    simp only [Validates, validates, exists_eq_left]
  apply (ended.cleanup_triple only backups _).mono
  · exact fun _ same => same
  · rintro _ after ⟨validated, finished, idle, published⟩
    exact ⟨valid.mp validated, finished, recorded.imp fun _ => .imp fun _ => .imp_right (.imp_right published.trans), idle⟩
  · rintro error after ⟨failed | refused, ended⟩
    · exact .inr ⟨ended, .inl failed⟩
    · refine .inr ⟨ended, .inr ⟨fun fits => ?_, limited error refused⟩⟩
      obtain ⟨total, accepted⟩ := valid.mpr fits
      have impossible := accepted.symm.trans refused
      cases impossible
  · rintro after ⟨⟨operation, permitted⟩, ended⟩
    exact ⟨⟨_, .inr permitted⟩, .inr ended⟩

include sound active terminal in
/-- Wherever the end of a transaction is stopped, the transaction is running or has ended. -/
theorem finishTransaction_triple (leaves : job.Leaves allowed rest)
    (ends : Disturbed allowed ∨ ¬job.Fits committed config.phases → ∀ later, job.Ended committed later → rest later) :
    Triple allowed (· = world) (finishTransaction job.setting job.manifest.transactionId committed)
      (Ends (fun _ => True) (fun _ later => job.Fits committed config.phases ∧ job.Concluded committed later) rest) := by
  apply (finishTransaction_ends sound active terminal).mono
  · exact fun _ same => same
  · exact fun _ _ finished => finished
  · rintro error later (⟨disturbed, rfl⟩ | ⟨ended, ⟨-, operation, permitted⟩ | ⟨large, -⟩⟩)
    · exact ⟨trivial, active.safe leaves disturbed⟩
    · exact ⟨trivial, ends (.inl ⟨_, .inl permitted⟩) later ended⟩
    · exact ⟨trivial, ends (.inr large) later ended⟩
  · rintro later ⟨disturbed, rfl | ended⟩
    · exact active.safe leaves disturbed
    · exact ends (.inl disturbed) later ended

end Finish

end Srcmv.Fs
