import Srcmv.Soundness.JournalLimits

/-! # What the journal writes, the scan reads

Whatever states are published one after another, and wherever a publication stops before the journal is
loaded again, the scan accepts the records of the directory and ends with the last published state and
its checksum. The engine itself only builds states that its journal accepts.
-/

namespace Srcmv.Fs

open Srcmv.Core Machine Process

/-- What publications make of a fresh directory, and the journal that is open there: states are published,
a journal is loaded again, and either may stop anywhere and leave no journal. Other steps may change the
files and put candidates and backups in the directory. -/
inductive Publishes (setting : Setting) (manifest : Manifest) (allowed : Site → Went → Prop) :
    World → Option TransactionJournal → Prop
  | create {world later : World} {object : ControlObject} {journal : TransactionJournal}
      (only : OnlyActive world.control manifest.transactionId object ∅) (unpublished : world.published = [])
      (yields : Yields allowed (createJournal setting manifest.transactionId manifest) world journal later) :
      Publishes setting manifest allowed later (some journal)
  | publish {world later : World} {journal journal' : TransactionJournal} {state : StateSnapshot} {checksum : String}
      (publishes : Publishes setting manifest allowed world (some journal))
      (yields : Yields allowed (publishState setting journal state) world (journal', checksum) later) :
      Publishes setting manifest allowed later (some journal')
  | stop {world later : World} {journal : TransactionJournal} {state : StateSnapshot}
      (publishes : Publishes setting manifest allowed world (some journal))
      (leads : Leads allowed (publishState setting journal state) world later) : Publishes setting manifest allowed later none
  | work {world : World} {journal : Option TransactionJournal} (publishes : Publishes setting manifest allowed world journal)
      {entry : Entry} {index : ℕ} (inside : index < manifest.targets.length)
      (artifact : entry = .candidate index ∨ entry = .backup index) {item : Option Item} (file : OnlyFile item)
      (files : String → Option Item) :
      Publishes setting manifest allowed { world.place (.artifact manifest.transactionId entry.name) item with files } journal
  | load {world later : World} {journal : Option TransactionJournal} {loaded : LoadedTransaction}
      (publishes : Publishes setting manifest allowed world journal)
      (yields : Yields allowed (loadActiveTransaction setting manifest.transactionId) world loaded later) :
      Publishes setting manifest allowed later (some loaded.session.journal)
  | abandon {world later : World} {journal : Option TransactionJournal}
      (publishes : Publishes setting manifest allowed world journal)
      (leads : Leads allowed (loadActiveTransaction setting manifest.transactionId) world later) :
      Publishes setting manifest allowed later none

/-- The directory holds the manifest and the records of all published states, and perhaps a temporary. -/
structure Written (setting : Setting) (manifest : Manifest) (world : World) : Prop where
  encodes : manifest.Encodes setting.crates
  directory : ∃ object children contents, OnlyActive world.control manifest.transactionId object children ∧
    Holds children contents ∧ Journaled setting.crates manifest world.published contents
  sound : SoundChain setting.crates manifest world.published
  room : manifest.artifactBytes + (manifestRecord setting.crates manifest).length + chainBytes setting.crates world.published ≤
    maxTransactionDiskBytes

/-- What is left of a publication that stops: the next record is there or not. -/
structure Leaves (setting : Setting) (manifest : Manifest) (world : World) (state : StateSnapshot) (later : World) : Prop where
  written : Written setting manifest later
  published : later.published = world.published ∨ later.published = world.published ++ [state]

/-- The journal agrees with the records, and nothing is in the way of the next one. -/
structure Continues (setting : Setting) (manifest : Manifest) (world : World) (journal : TransactionJournal) : Prop where
  reflects : Reflects setting.crates manifest world.published journal
  unbegun : world.item? (.artifact manifest.transactionId (stateName world.published.length "tmp")) = none

/-- The scan accepts the records of the directory and ends with this state and checksum. -/
def FoldsTo (setting : Setting) (manifest : Manifest) (world : World) (state : StateSnapshot) (checksum : String) : Prop :=
  ∃ total, foldStateChain setting.crates (world.control.children manifest.transactionId) manifest.transactionId manifest
    (manifestDigest setting.crates manifest) (recordNames (world.control.children manifest.transactionId))
    (manifestRecord setting.crates manifest).length {} = .ok (state, checksum, total)

/-- What the scan reads is the last state that was published: before a publication, after it, where it stops,
and when the journal is loaded again. -/
structure ReaderAgrees (setting : Setting) (manifest : Manifest) (allowed : Site → Went → Prop) (world : World)
    (journal : Option TransactionJournal) : Prop where
  folds : ∀ last, world.published.getLast? = some last → FoldsTo setting manifest world last (checksumText (stateDigest setting.crates last))
  publishes : ∀ opened state result later, journal = some opened →
    Yields allowed (publishState setting opened state) world result later →
      later.published = world.published ++ [state] ∧ FoldsTo setting manifest later state result.2
  stops : ∀ opened state later, journal = some opened → Leads allowed (publishState setting opened state) world later →
    later.published = world.published ∨ later.published = world.published ++ [state]
  loads : ∀ loaded later, Yields allowed (loadActiveTransaction setting manifest.transactionId) world loaded later →
    loaded.manifest = manifest ∧ later.published = world.published ∧
      world.published.getLast? = some loaded.session.progress.state ∧
      FoldsTo setting manifest later loaded.session.progress.state loaded.session.progress.checksum

variable {setting : Setting} {manifest : Manifest} {allowed : Site → Went → Prop} {world later : World} {journal : TransactionJournal}

section Steps

/-- The temporary of the next record comes and goes. -/
theorem Written.place (written : Written setting manifest world) (item : Option Item) :
    Written setting manifest (world.place (.artifact manifest.transactionId (stateName world.published.length "tmp")) item) := by
  obtain ⟨object, children, contents, only, holds, journaled⟩ := written.directory
  exact ⟨written.encodes, ⟨object, _, _, World.children_place_artifact only,
    holds.alter (.temporary world.published.length) item, journaled.begin item⟩, written.sound, written.room⟩

theorem Written.reaches (written : Written setting manifest world) (name : String) :
    world.Reaches (.artifact manifest.transactionId name) := by
  obtain ⟨_, _, _, only, -⟩ := written.directory
  exact only.isActive

/-- An accepted state is published under the next number. -/
private theorem sequence_eq {state : StateSnapshot} (written : Written setting manifest world)
    (extension : Extends setting.crates manifest world.published state) : state.sequence.toNat = world.published.length :=
  (written.sound.extend extension).sequence _ _ (by rw [List.getElem?_append_right le_rfl, Nat.sub_self]; rfl)

/-- The next record is published. -/
private theorem Written.published {state : StateSnapshot} {identity : FileIdentity} (written : Written setting manifest world)
    (extension : Extends setting.crates manifest world.published state)
    (room : manifest.artifactBytes + (manifestRecord setting.crates manifest).length +
      chainBytes setting.crates (world.published ++ [state]) ≤ maxTransactionDiskBytes) :
    Written setting manifest (world.afterPublication
      (.artifact manifest.transactionId (stateName world.published.length "tmp"))
      (.artifact manifest.transactionId (stateName world.published.length "rec"))
      (writtenItem identity (stateRecord setting.crates state)) (some state)) := by
  obtain ⟨object, children, contents, only, holds, journaled⟩ := written.directory
  have cleared := holds.alter (.temporary world.published.length) none
  have unbegun : Function.update contents (.temporary world.published.length) none (.temporary world.published.length) = none :=
    Function.update_self _ _ _
  exact ⟨written.encodes, ⟨object, _, _, World.children_place_artifact (World.children_place_artifact only),
    cleared.alter (.record world.published.length) _, (journaled.begin none).extend unbegun ⟨_, rfl, rfl⟩⟩,
    written.sound.extend extension, room⟩

/-- The published manifest alone. -/
private theorem created_written {object : ControlObject} (only : OnlyActive world.control manifest.transactionId object ∅)
    (unpublished : world.published = []) (encodes : manifest.Encodes setting.crates) :
    Written setting manifest (world.afterPublication (.artifact manifest.transactionId "manifest.tmp")
        (.artifact manifest.transactionId "manifest.rec") (writtenItem (setting.newIdentity "manifest.tmp")
          (manifestRecord setting.crates manifest)) none) ∧
      Continues setting manifest (world.afterPublication (.artifact manifest.transactionId "manifest.tmp")
        (.artifact manifest.transactionId "manifest.rec") (writtenItem (setting.newIdentity "manifest.tmp")
          (manifestRecord setting.crates manifest)) none) (journalOf setting.crates manifest []) := by
  let item := writtenItem (setting.newIdentity "manifest.tmp") (manifestRecord setting.crates manifest)
  have published : (world.afterPublication (.artifact manifest.transactionId "manifest.tmp")
      (.artifact manifest.transactionId "manifest.rec") item none).published = [] := (List.append_nil _).trans unpublished
  have cleared : OnlyActive (world.place (.artifact manifest.transactionId Entry.manifestTemporary.name) none).control
      manifest.transactionId object _ := World.children_place_artifact only
  have placed : OnlyActive (world.afterPublication (.artifact manifest.transactionId "manifest.tmp")
      (.artifact manifest.transactionId "manifest.rec") item none).control manifest.transactionId object _ :=
    World.children_place_artifact cleared
  have holds := (Holds.empty.alter .manifestTemporary none).alter .manifest (some item)
  have elsewhere {entry : Entry} (other : entry ≠ .manifest) :
      Function.update (Function.update (fun _ => none) .manifestTemporary none) .manifest (some item) entry = none := by
    rw [Function.update_of_ne other, Function.update_apply, ite_self]
  have journaled : Journaled setting.crates manifest []
      (Function.update (Function.update (fun _ => none) .manifestTemporary none) .manifest (some item)) := {
    published := ⟨_, Function.update_self _ _ _, rfl⟩
    noTemporary := elsewhere (by simp)
    record := fun _ _ impossible => by cases impossible
    noRecord := fun _ _ => elsewhere (by simp)
    temporary := fun _ _ => elsewhere (by simp)
    candidate := fun _ found there => by rw [elsewhere (by simp)] at there; cases there
    noCandidate := fun _ _ => elsewhere (by simp)
    backup := fun _ found there => by rw [elsewhere (by simp)] at there; cases there
    noBackup := fun _ _ => elsewhere (by simp) }
  refine ⟨⟨encodes, ⟨object, _, _, placed, holds, ?_⟩, ?_, ?_⟩, ⟨?_, ?_⟩⟩
  · rw [published]
    exact journaled
  · rw [published]
    exact .nil
  · rw [published]
    exact encodes.disk
  · rw [published]
    exact reflects_journalOf []
  · rw [World.item?_artifact placed, published]
    exact (holds.entry (.temporary 0)).trans (elsewhere (by simp))

/-- Creating the journal of an empty directory. -/
private theorem createJournal_writes {object : ControlObject} (only : OnlyActive world.control manifest.transactionId object ∅)
    (unpublished : world.published = []) : Triple allowed (· = world)
      (createJournal setting manifest.transactionId manifest)
      ⟨fun journal later => Written setting manifest later ∧ Continues setting manifest later journal, fun _ _ => True, fun _ => True⟩ := by
  have free (name : String) : world.item? (.artifact manifest.transactionId name) = none := by
    rw [World.item?_artifact only, Std.ExtTreeMap.getElem?_empty]
  rw [createJournal]
  refine Triple.computes (fun _ _ _ => trivial) fun _ _ => Triple.computes (fun _ _ _ => trivial) fun _ valid =>
    Triple.computes (fun _ _ _ => trivial) fun encoded encodes => Triple.computes (fun _ _ _ => trivial) fun projected artifacts =>
    Triple.computes (fun _ _ _ => trivial) fun _ bounded => Triple.computes (fun _ _ _ => trivial) fun checksum sum => ?_
  obtain ⟨encodable, rfl⟩ := (encodeManifestRecord_eq_ok setting.crates).mp encodes
  obtain ⟨rfl, -⟩ := projectedArtifactBytes_eq_ok.mp artifacts
  obtain rfl := Except.ok.inj ((recordChecksum_manifestRecord setting.crates manifest).symm.trans sum)
  have publishes := @publishRecord_triple allowed (fun _ => True) world setting manifest.transactionId "manifest.tmp" "manifest.rec"
    (manifestRecord setting.crates manifest) none (fun _ => only.isActive) (by decide) (free _) (free _) (fun _ => trivial)
    (fun _ _ => trivial) fun _ => trivial
  refine publishes.endsThen ⟨fun _ _ _ => trivial, fun _ _ => trivial⟩ ?_
  rintro _ later ⟨-, rfl⟩
  refine Triple.pure ?_
  rintro _ rfl
  exact created_written only unpublished encodable

/-- Only the temporary of the next record can stand there. -/
private theorem Written.free (written : Written setting manifest world) {index : ℕ} (other : index ≠ world.published.length) :
    world.item? (.artifact manifest.transactionId (stateName index "tmp")) = none := by
  obtain ⟨_, _, contents, only, holds, journaled⟩ := written.directory
  rw [World.item?_artifact only]
  exact (holds.entry (.temporary index)).trans (journaled.temporary index other)

private theorem Written.unpublished (written : Written setting manifest world) :
    world.item? (.artifact manifest.transactionId (stateName world.published.length "rec")) = none := by
  obtain ⟨_, _, contents, only, holds, journaled⟩ := written.directory
  rw [World.item?_artifact only]
  exact (holds.entry (.record world.published.length)).trans (journaled.noRecord _ le_rfl)

/-- The journal of the published record continues the longer chain. -/
private theorem Continues.published {state : StateSnapshot} {identity : FileIdentity} (continues : Continues setting manifest world journal)
    (written : Written setting manifest world) :
    Continues setting manifest (world.afterPublication
      (.artifact manifest.transactionId (stateName world.published.length "tmp"))
      (.artifact manifest.transactionId (stateName world.published.length "rec"))
      (writtenItem identity (stateRecord setting.crates state)) (some state)) (acceptedState setting.crates journal state).journal where
  reflects := continues.reflects.accepted
  unbegun := by
    have apart {entry : Entry} (other : Entry.temporary (world.published.length + 1) ≠ entry) :
        Location.artifact manifest.transactionId (stateName (world.published.length + 1) "tmp") ≠
          .artifact manifest.transactionId entry.name := by
      intro same
      rw [Location.artifact.injEq] at same
      exact other (Entry.name_injective same.2)
    have atRecord := @apart (.record world.published.length) (by simp)
    have atTemporary := @apart (.temporary world.published.length) (by simp)
    have longer : (world.published ++ [state]).length = world.published.length + 1 := List.length_append
    change World.item? (World.place (World.place world _ _) _ _) (.artifact _ (stateName (world.published ++ [state]).length "tmp")) = none
    rw [longer]
    exact (World.item?_place_ne atRecord _).trans ((World.item?_place_ne atTemporary _).trans (written.free (Nat.succ_ne_self _)))

/-- Publishing a state, and stopping on the way. -/
private theorem publishState_writes {state : StateSnapshot} (written : Written setting manifest world)
    (continues : Continues setting manifest world journal) : Triple allowed (· = world) (publishState setting journal state)
      ⟨fun result later => (later.published = world.published ++ [state] ∧ result.2 = checksumText (stateDigest setting.crates state)) ∧
          Written setting manifest later ∧ Continues setting manifest later result.1,
        fun _ later => Leaves setting manifest world state later, Leaves setting manifest world state⟩ := by
  rw [publishState]
  cases accept : journal.acceptState setting.crates state with
  | error error =>
    have refuses : Triple allowed (· = world) (acceptedOrRefused (.error error))
        ⟨fun _ _ => False, fun _ later => Leaves setting manifest world state later, Leaves setting manifest world state⟩ := by
      refine Triple.bind (fun _ later => Leaves setting manifest world state later) (Triple.note ?_) fun _ =>
        Triple.refuse fun _ kept => kept
      rintro _ rfl
      exact ⟨⟨written.encodes, written.directory, written.sound, written.room⟩, .inl rfl⟩
    exact Triple.bind _ refuses fun _ _ _ impossible => impossible.elim
  | ok accepted =>
    obtain ⟨extension, room, rfl⟩ := (acceptState_eq_ok continues.reflects).mp accept
    have published := @Written.published setting manifest world state (setting.newIdentity (stateName world.published.length "tmp"))
      written extension room
    rw [acceptedOrRefused, pure_bind, continues.reflects.directory, sequence_eq written extension]
    have publishes := @publishRecord_triple allowed (Leaves setting manifest world state) world setting manifest.transactionId
      (stateName world.published.length "tmp") (stateName world.published.length "rec") (stateRecord setting.crates state) (some state)
      written.reaches (stateName_rec_ne_tmp _ _).symm continues.unbegun written.unpublished (fun _ => ⟨written, .inl rfl⟩)
      (fun _ count => ⟨written.place _, .inl rfl⟩) fun _ => ⟨published, .inr rfl⟩
    refine publishes.endsThen ⟨fun _ _ kept => kept, fun _ kept => kept⟩ ?_
    rintro _ later ⟨-, rfl⟩
    refine Triple.pure ?_
    rintro _ rfl
    exact ⟨⟨rfl, rfl⟩, published, continues.published written⟩

/-- However a publication ends. -/
private theorem publishState_leaves {state : StateSnapshot} (written : Written setting manifest world)
    (continues : Continues setting manifest world journal) :
    Triple allowed (· = world) (publishState setting journal state) (Keeps (Leaves setting manifest world state)) := by
  apply (publishState_writes written continues).mono (fun _ holds => holds)
  · exact fun _ _ done => ⟨done.2.1, .inr done.1.1⟩
  · exact fun _ _ left => left
  · exact fun _ left => left

/-- Loading the journal again. -/
private theorem load_writes (written : Written setting manifest world) : Triple allowed (· = world)
    (loadActiveTransaction setting manifest.transactionId)
    (Ends (fun _ => True) (fun loaded later => later.published = world.published ∧ Written setting manifest later ∧
      Continues setting manifest later loaded.session.journal ∧ loaded.manifest = manifest ∧
      world.published.getLast? = some loaded.session.progress.state ∧
      loaded.session.progress.checksum = checksumText (stateDigest setting.crates loaded.session.progress.state))
      fun later => Written setting manifest later ∧ later.published = world.published) := by
  obtain ⟨object, children, contents, only, holds, journaled⟩ := written.directory
  cases final : world.published.getLast? with
  | none =>
    have settled := written.place none
    rw [List.getLast?_eq_none_iff.mp final] at journaled settled
    exact (loadActiveTransaction_empty only holds journaled written.encodes ⟨written, rfl⟩ ⟨settled, rfl⟩).weaken
      (fun _ _ impossible => impossible.elim) fun _ kept => kept
  | some last =>
    have room := written.room
    have limit : maxTransactionDiskBytes ≤ u64Max := by norm_num [maxTransactionDiskBytes, u64Max]
    have loads : Triple allowed (· = world) (loadActiveTransaction setting manifest.transactionId)
        (Ends (fun _ => True) (Exactly _ _) fun later => Written setting manifest later ∧ later.published = world.published) :=
      loadActiveTransaction_triple only holds journaled written.sound written.encodes final (room.trans limit)
        (fun _ => ⟨written, rfl⟩) fun _ => ⟨written.place none, rfl⟩
    apply loads.weaken
    · rintro _ _ ⟨rfl, rfl⟩
      refine ⟨rfl, written.place none, ⟨reflects_journalOf _, ?_⟩, rfl, rfl, rfl⟩
      exact World.item?_place_self (written.reaches _) none
    · exact fun _ kept => kept

/-- However loading ends. -/
private theorem load_keeps (written : Written setting manifest world) :
    Triple allowed (· = world) (loadActiveTransaction setting manifest.transactionId)
      (Keeps fun later => Written setting manifest later ∧ later.published = world.published) :=
  (load_writes written).keeps fun _ _ done => ⟨done.2.1, done.1⟩

/-- Candidates, backups and other files. -/
private theorem Written.works {entry : Entry} {index : ℕ} {item : Option Item} {files : String → Option Item}
    (written : Written setting manifest world) (inside : index < manifest.targets.length)
    (artifact : entry = .candidate index ∨ entry = .backup index) (file : OnlyFile item) :
    Written setting manifest { world.place (.artifact manifest.transactionId entry.name) item with files } := by
  obtain ⟨object, children, contents, only, holds, journaled⟩ := written.directory
  exact ⟨written.encodes, ⟨object, _, _, World.children_place_artifact only, holds.alter entry item,
    journaled.work inside artifact file⟩, written.sound, written.room⟩

private theorem Continues.works {entry : Entry} {index : ℕ} {item : Option Item} {files : String → Option Item}
    (continues : Continues setting manifest world journal) (artifact : entry = .candidate index ∨ entry = .backup index) :
    Continues setting manifest { world.place (.artifact manifest.transactionId entry.name) item with files } journal where
  reflects := continues.reflects
  unbegun := by
    have apart : Location.artifact manifest.transactionId (stateName world.published.length "tmp") ≠
        .artifact manifest.transactionId entry.name := by
      intro same
      rw [Location.artifact.injEq] at same
      have equal : Entry.temporary world.published.length = entry := Entry.name_injective same.2
      rcases artifact with rfl | rfl <;> cases equal
    exact (World.item?_place_ne apart _).trans continues.unbegun

end Steps

section Run

/-- Every step keeps the records and the journal. -/
private theorem Publishes.keeps {journal : Option TransactionJournal} (publishes : Publishes setting manifest allowed world journal) :
    Written setting manifest world ∧ ∀ opened, journal = some opened → Continues setting manifest world opened := by
  induction publishes with
  | create only unpublished yields =>
    obtain ⟨written, continues⟩ := (createJournal_writes only unpublished).yields rfl yields
    exact ⟨written, fun _ same => Option.some.inj same ▸ continues⟩
  | publish _ yields ih =>
    obtain ⟨-, written, continues⟩ := (publishState_writes ih.1 (ih.2 _ rfl)).yields rfl yields
    exact ⟨written, fun _ same => Option.some.inj same ▸ continues⟩
  | stop _ leads ih =>
    have leaves := (publishState_leaves ih.1 (ih.2 _ rfl)).leads rfl leads
    exact ⟨leaves.written, nofun⟩
  | work _ inside artifact file _ ih => exact ⟨ih.1.works inside artifact file, fun opened same => (ih.2 opened same).works artifact⟩
  | load _ yields ih =>
    obtain ⟨-, written, continues, -⟩ := (load_writes ih.1).yields rfl yields
    exact ⟨written, fun _ same => Option.some.inj same ▸ continues⟩
  | abandon _ leads ih =>
    have kept := (load_keeps ih.1).leads rfl leads
    exact ⟨kept.1, nofun⟩

/-- The records of the directory fold to the last state. -/
private theorem Written.folds {last : StateSnapshot} (written : Written setting manifest world)
    (final : world.published.getLast? = some last) :
    FoldsTo setting manifest world last (checksumText (stateDigest setting.crates last)) := by
  obtain ⟨_, _, _, only, holds, journaled⟩ := written.directory
  rw [FoldsTo, only.children_eq]
  exact ⟨_, foldStateChain_sound holds journaled written.sound final (written.sound.records_within written.encodes)⟩

private theorem Publishes.reader_agrees {journal : Option TransactionJournal}
    (publishes : Publishes setting manifest allowed world journal) : ReaderAgrees setting manifest allowed world journal := by
  obtain ⟨written, continues⟩ := publishes.keeps
  refine ⟨fun _ => written.folds, ?_, ?_, ?_⟩
  · intro opened state result later same yields
    obtain ⟨⟨published, checksum⟩, after, -⟩ := (publishState_writes written (continues opened same)).yields rfl yields
    have final : later.published.getLast? = some state := by rw [published, List.getLast?_concat]
    exact ⟨published, checksum ▸ after.folds final⟩
  · intro opened state later same leads
    exact ((publishState_leaves written (continues opened same)).leads rfl leads).published
  · intro loaded later yields
    obtain ⟨published, after, -, recorded, final, checksum⟩ := (load_writes written).yields rfl yields
    exact ⟨recorded, published, final, checksum ▸ after.folds (published ▸ final)⟩

/-- Whatever is published, wherever it stops and is loaded again, the scan ends with the last published state; and no
state the engine builds is refused. -/
theorem writer_and_reader_agree :
    (∀ setting manifest allowed world journal, Publishes setting manifest allowed world journal →
      ReaderAgrees setting manifest allowed world journal) ∧
    ∀ (job : Job) (world : World), job.Sound → job.Reaches Answering world → world.refusals = [] :=
  ⟨fun _ _ _ _ _ publishes => publishes.reader_agrees,
    fun _ _ sound reaches => ((reaches.rests sound Answering.sees).journal sound).2⟩

end Run

section Sample

/-- Undisturbed, a written chain is loaded again. -/
private theorem Written.load_yields {last : StateSnapshot} (written : Written setting manifest world)
    (final : world.published.getLast? = some last) : ∃ loaded later,
    Yields (fun _ _ => True) (loadActiveTransaction setting manifest.transactionId) world loaded later := by
  obtain ⟨_, _, _, only, holds, journaled⟩ := written.directory
  have limit : maxTransactionDiskBytes ≤ u64Max := by norm_num [maxTransactionDiskBytes, u64Max]
  have loads : Triple Calmly (· = world) (loadActiveTransaction setting manifest.transactionId)
      (Ends FsError.IsSystem (Exactly _ _) fun _ => False) := loadActiveTransaction_triple only holds journaled written.sound
    written.encodes final (written.room.trans limit) (fun disturbed => absurd disturbed Calmly.undisturbed)
    fun disturbed => absurd disturbed Calmly.undisturbed
  obtain ⟨_, later, ran, -⟩ := loads.calm_reaches within_start rfl
  exact ⟨_, _, Oracle.calm, fun _ _ => trivial, by rw [ran], rfl⟩

/-- A fresh transaction publishes its first state and crashes before the second. -/
private theorem Job.Fresh.republishes {job : Job} (sound : job.Sound) (fresh : job.Fresh world) : ∃ stopped,
    Publishes job.setting job.manifest (fun _ _ => True) stopped none ∧
    stopped.published = [stateAfter job.crates job.manifest job.course [] Phase.start] := by
  have unrecorded : job.LeavesUnrecorded Calmly fun _ => False := fun disturbed => absurd disturbed Calmly.undisturbed
  have leaves : job.Leaves Calmly fun _ => False := fun disturbed => absurd disturbed Calmly.undisturbed
  obtain ⟨_, only⟩ := fresh.directory
  obtain ⟨_, middle, ran, -, rfl, shown⟩ := (createJournal_triple sound fresh unrecorded).calm_reaches within_start rfl
  have creates : Yields (fun _ _ => True) (createJournal job.setting job.manifest.transactionId job.manifest) world
      (job.journalOf []) middle.world := ⟨Oracle.calm, fun _ _ => trivial, congrArg Prod.fst ran, by rw [ran]⟩
  obtain ⟨⟨opened, checksum⟩, last, ran', -, preparing⟩ := (publishFirst_triple sound unrecorded leaves shown).calm_reaches
    (within_start : Moment.Within Calmly (⟨middle.world, []⟩ : Moment World Site)) rfl
  have publishes : Yields (fun _ _ => True) _ middle.world (opened, checksum) last.world :=
    ⟨Oracle.calm, fun _ _ => trivial, congrArg Prod.fst ran', by rw [ran']⟩
  have starts : Moment.Within Calmly (⟨last.world, []⟩ : Moment World Site) := within_start
  have more := next_preparedTo sound.course_of.positive
  have crashes := (publishState_stopsAt sound preparing.follows more starts).leads (fun _ _ _ => trivial) trivial
  refine ⟨last.world, ?_, preparing.shows_.published⟩
  exact ((Publishes.create only fresh.published creates).publish publishes).stop crashes

/-- The small transaction publishes its first state, crashes before the second and is loaded again: the scan ends with
the first state. Its whole commit refuses no state. -/
theorem writer_and_reader_agree_sample :
    (∃ stopped loaded later, Publishes Sample.setting Sample.manifest (fun _ _ => True) stopped none ∧
      stopped.published = [Sample.firstState] ∧
      Yields (fun _ _ => True) (loadActiveTransaction Sample.setting Sample.manifest.transactionId) stopped loaded later ∧
      FoldsTo Sample.setting Sample.manifest later Sample.firstState (checksumText (stateDigest Sample.setting.crates Sample.firstState))) ∧
    ∃ world, Sample.job.Reaches Answering world ∧ world.LastIn .committed ∧ world.refusals = [] := by
  constructor
  · obtain ⟨stopped, publishes, published⟩ := Sample.job_fresh.republishes Sample.job_sound
    have final : stopped.published.getLast? = some Sample.firstState := by rw [published]; rfl
    obtain ⟨loaded, later, yields⟩ := publishes.keeps.1.load_yields final
    have agrees := writer_and_reader_agree.1 _ _ _ _ _ publishes
    obtain ⟨-, same, -, -⟩ := agrees.loads loaded later yields
    have again := writer_and_reader_agree.1 _ _ _ _ _ (publishes.load yields)
    exact ⟨stopped, loaded, later, publishes, published, yields, again.folds _ (same ▸ final)⟩
  · obtain ⟨world, _, reaches, -, running⟩ := Sample.job_fresh.reaches_committed Sample.job_sound Sample.job_inputsHold
    have answering : Sample.job.Reaches Answering world := reaches.mono fun _ _ permitted _ _ => permitted.1
    exact ⟨world, answering, running.lastIn, writer_and_reader_agree.2 _ _ Sample.job_sound answering⟩

end Sample

end Srcmv.Fs
