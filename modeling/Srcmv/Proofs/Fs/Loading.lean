import Srcmv.Model.Fs.Recovery
import Srcmv.Proofs.Fs.Acceptance
import Srcmv.Proofs.Fs.Places
import Srcmv.Proofs.Fs.Trees

/-! # Loading a transaction back

The loader reads the state records in the order of their names, which is the order of their sequences,
and removes a temporary on the way. From a directory that records a sound chain it resumes the journal
of that chain with its last state.
-/

namespace Srcmv.Fs

open Srcmv.Core Machine Process

section Order

variable {crates : Crates} {manifest : Manifest} {chain : List StateSnapshot} {contents : Entry → Option Item}
  {children : NameMap Item}

/-- The records stand in the order of their sequences among the names of a directory. -/
theorem recordSequences (holds : Holds children contents) (journaled : Journaled crates manifest chain contents)
    (short : chain.length ≤ maxStateRecords) :
    children.keys.filterMap (fun name => parseStateName name "rec") = List.range chain.length := by
  have members : ∀ index, index ∈ children.keys.filterMap (fun name => parseStateName name "rec") ↔ index < chain.length := by
    intro index
    constructor
    · intro member
      obtain ⟨name, inside, parsed⟩ := List.mem_filterMap.mp member
      have named : (index, name) ∈ recordNames children := List.mem_filterMap.mpr ⟨name, inside, by rw [parsed]; rfl⟩
      exact ((mem_recordNames holds journaled short).mp named).1
    · intro below
      have named := (mem_recordNames holds journaled short).mpr ⟨below, rfl⟩
      obtain ⟨name, inside, parsed⟩ := List.mem_filterMap.mp named
      obtain ⟨sequence, parses, same⟩ := Option.map_eq_some_iff.mp parsed
      rw [Prod.mk.injEq] at same
      exact List.mem_filterMap.mpr ⟨name, inside, by rw [parses, same.1]⟩
  have sorted : (children.keys.filterMap (fun name => parseStateName name "rec")).Pairwise (· < ·) := by
    rw [List.pairwise_filterMap]
    apply children.ordered_keys.imp
    intro left right ordered first parsedFirst second parsedSecond
    obtain ⟨rfl, small⟩ := parseStateName_eq_some.mp parsedFirst
    obtain ⟨rfl, -⟩ := parseStateName_eq_some.mp parsedSecond
    have limit : maxStateRecords ≤ 10 ^ 8 := by norm_num [maxStateRecords]
    by_contra notLess
    rcases Nat.eq_or_lt_of_le (not_lt.mp notLess) with rfl | reversed
    · exact Std.OrientedCmp.not_lt_of_lt ordered ordered
    · exact Std.OrientedCmp.not_lt_of_lt ordered (compare_stateName "rec" reversed (small.trans_le limit))
  apply List.Perm.eq_of_pairwise (fun left right _ _ less greater => absurd (less.trans greater) (lt_irrefl _)) sorted
    List.pairwise_lt_range
  apply (List.perm_ext_iff_of_nodup (sorted.imp fun less => less.ne) List.nodup_range).mpr
  intro index
  rw [members, List.mem_range]

end Order

section Ends

private theorem hasEnds_iff {start ending name : String} :
    hasEnds start ending name = true ↔ start.toList <+: name.toList ∧ ending.toList <:+ name.toList := by
  rw [hasEnds, Bool.and_eq_true, List.isPrefixOf_iff_prefix, List.isSuffixOf_iff_suffix]

private theorem hasEnds_stateName (sequence : ℕ) (extension : String) :
    hasEnds "state-" ("." ++ extension) (stateName sequence extension) = true := by
  rw [hasEnds_iff, toList_stateName]
  refine ⟨List.prefix_append _ _, ?_⟩
  rw [String.toList_append, ← List.append_assoc]
  exact List.suffix_append _ _

/-- Only the records and temporaries of states begin like them. -/
private theorem not_hasEnds {entry : Entry} {ending : String} (other : ∀ index, entry ≠ .record index ∧ entry ≠ .temporary index) :
    hasEnds "state-" ending entry.name = false := by
  rw [Bool.eq_false_iff]
  intro has
  obtain ⟨rest, starts⟩ := (hasEnds_iff.mp has).1
  have first := congrArg List.head? starts
  cases entry with
  | record index => exact (other index).1 rfl
  | temporary index => exact (other index).2 rfl
  | manifest => simp [Entry.name] at first
  | manifestTemporary => simp [Entry.name] at first
  | candidate index => simp [Entry.name, toList_generatedName] at first
  | backup index => simp [Entry.name, toList_generatedName] at first

private theorem record_not_temporary (sequence : ℕ) : hasEnds "state-" ".tmp" (stateName sequence "rec") = false := by
  rw [Bool.eq_false_iff]
  intro has
  obtain ⟨front, ends⟩ := (hasEnds_iff.mp has).2
  rw [toList_stateName, ← List.append_assoc] at ends
  have tails := (List.append_inj' ends rfl).2
  exact absurd tails (by decide)

end Ends

section Load

variable {setting : Setting} {manifest : Manifest} {chain : List StateSnapshot} {contents : Entry → Option Item}
  {children : NameMap Item} {object : ControlObject} {world : World} {allowed : Site → Went → Prop} {rest : World → Prop}
  {denial : FsError → Prop} [CoversIo denial]

/-- What has been read after the first `count` records. -/
def loadedAfter (crates : Crates) (chain : List StateSnapshot) (count : ℕ) : LoadedStates :=
  ⟨lastRecorded crates (chain.take count), chainBytes crates (chain.take count)⟩

/-- The temporary of the next record is gone. -/
def World.withoutTemporary (world : World) (id : String) (count : ℕ) : World :=
  world.place (.artifact id (stateName count "tmp")) none

theorem readArtifact_triple {id name operation : String} {bytes : Bytes} (there : HasBytes (world.item? (.artifact id name)) bytes) :
    Triple allowed (· = world) (readArtifact id name operation)
      (Ends denial (Exactly bytes world) (Held allowed world)) := by
  obtain ⟨node, found, rfl⟩ := there
  rw [readArtifact]
  apply ioRead_triple
  rw [found]

private theorem loadState_ok (sound : SoundChain setting.crates manifest chain) {index : ℕ} {state : StateSnapshot}
    (found : chain[index]? = some state) :
    loadState setting (loadedAfter setting.crates chain index) (stateRecord setting.crates state) =
      .ok (loadedAfter setting.crates chain (index + 1)) := by
  have encodes := sound.encodes state (List.mem_of_getElem? found)
  have charged : chainBytes setting.crates (chain.take (index + 1)) ≤ chainBytes setting.crates chain := chainBytes_take_le _
  have bounded := sound.bytes
  have limit : maxStateBytes ≤ u64Max := by norm_num [maxStateBytes, u64Max]
  rw [chainBytes_take_succ found] at charged
  rw [loadState, Except.rejectIf_of_not (by
      change ¬chainBytes setting.crates (chain.take index) + (stateRecord setting.crates state).length > u64Max
      omega), Except.ok_bind, decodeStateRecord_stateRecord setting.crates encodes, Except.ok_bind, recordChecksum_stateRecord,
    Except.ok_bind, loadedAfter, loadedAfter, lastRecorded_take_succ found, chainBytes_take_succ found]
  rfl

variable (only : OnlyActive world.control manifest.transactionId object children) (holds : Holds children contents)
  (journaled : Journaled setting.crates manifest chain contents) (sound : SoundChain setting.crates manifest chain)

/-- The worlds met while loading: the temporary is there, or it is gone. -/
private theorem item?_loading {later : World} {index : ℕ}
    (loading : later = world ∨ later = world.withoutTemporary manifest.transactionId chain.length) :
    later.item? (.artifact manifest.transactionId (stateName index "rec")) =
      world.item? (.artifact manifest.transactionId (stateName index "rec")) := by
  rcases loading with rfl | rfl
  · rfl
  · apply World.item?_place_ne
    intro same
    rw [Location.artifact.injEq] at same
    exact stateName_rec_ne_tmp _ _ same.2

/-- What has been loaded once the names before `count` were visited. -/
private structure Loading (setting : Setting) (manifest : Manifest) (chain : List StateSnapshot) (children : NameMap Item)
    (world : World) (count : ℕ) (loaded : LoadedStates) (later : World) : Prop where
  records : ∃ index, (children.keys.take count).filterMap (fun name => parseStateName name "rec") = List.range index ∧
    loaded = loadedAfter setting.crates chain index
  world : later = if stateName chain.length "tmp" ∈ children.keys.take count then
    world.withoutTemporary manifest.transactionId chain.length else world

private theorem Loading.either {count : ℕ} {loaded : LoadedStates} {later : World}
    (loading : Loading setting manifest chain children world count loaded later) :
    later = world ∨ later = world.withoutTemporary manifest.transactionId chain.length := by
  have same := loading.world
  split_ifs at same
  · exact .inr same
  · exact .inl same

include holds journaled sound in
/-- The next record to be read is the next one in the chain. -/
private theorem next_record {count sequence index : ℕ} (here : children.keys[count]? = some (stateName sequence "rec"))
    (visited : (children.keys.take count).filterMap (fun name => parseStateName name "rec") = List.range index)
    (small : sequence < maxStateRecords) :
    sequence = index ∧ (children.keys.take (count + 1)).filterMap (fun name => parseStateName name "rec") = List.range (index + 1) := by
  have taken : (children.keys.take (count + 1)).filterMap (fun name => parseStateName name "rec") = List.range index ++ [sequence] := by
    rw [List.take_add_one, here, List.filterMap_append, visited]
    simp [parseStateName_stateName "rec" small]
  have whole := recordSequences holds journaled sound.length_le
  rw [← List.take_append_drop (count + 1) children.keys, List.filterMap_append, taken] at whole
  have position := congrArg (fun list => list[index]?) whole
  rw [List.append_assoc, List.getElem?_append_right (by rw [List.length_range]), List.length_range, Nat.sub_self,
    List.singleton_append, List.getElem?_cons_zero] at position
  have same : sequence = index := by
    rw [eq_comm, List.getElem?_eq_some_iff] at position
    obtain ⟨bound, found⟩ := position
    rw [List.getElem_range] at found
    exact found.symm
  exact ⟨same, by rw [taken, same, List.range_succ]⟩

/-- A name that is no record and not the temporary. -/
private theorem Loading.skip {count : ℕ} {loaded : LoadedStates} {later : World} {name : String}
    (loading : Loading setting manifest chain children world count loaded later) (here : children.keys[count]? = some name)
    (noRecord : parseStateName name "rec" = none) (other : name ≠ stateName chain.length "tmp") :
    Loading setting manifest chain children world (count + 1) loaded later where
  records := by
    obtain ⟨index, visited, same⟩ := loading.records
    refine ⟨index, ?_, same⟩
    rw [List.take_add_one, here, List.filterMap_append, visited]
    simp [noRecord]
  world := by
    rw [loading.world, List.take_add_one, here]
    simp [Ne.symm other]

include only holds journaled sound in
/-- Loading one directory entry. -/
private theorem loadEntry_triple {count : ℕ} {loaded : LoadedStates} {later : World} {name : String}
    (loading : Loading setting manifest chain children world count loaded later) (here : children.keys[count]? = some name)
    (before : Disturbed allowed → rest world)
    (after : Disturbed allowed → rest (world.withoutTemporary manifest.transactionId chain.length)) :
    Triple allowed (· = later) (loadEntry setting manifest.transactionId loaded name)
      (Ends denial (Loading setting manifest chain children world (count + 1)) rest) := by
  have safe : Disturbed allowed → rest later := by
    rcases loading.either with rfl | rfl
    · exact before
    · exact after
  obtain ⟨entry, rfl, present⟩ := holds.mem_keys.mp (List.mem_of_getElem? here)
  have skipped (isEntry : ∀ index, entry ≠ .record index ∧ entry ≠ .temporary index) :
      Triple allowed (· = later) (loadEntry setting manifest.transactionId loaded entry.name)
        (Ends denial (Loading setting manifest chain children world (count + 1)) rest) := by
    have noRecord : parseStateName entry.name "rec" = none := by
      cases parsed : parseStateName entry.name "rec" with
      | none => rfl
      | some index => exact absurd (Entry.parseStateName_rec_name.mp parsed).1 (isEntry index).1
    have other : entry.name ≠ stateName chain.length "tmp" := fun same =>
      (isEntry chain.length).2 (Entry.name_injective (same.trans rfl))
    rw [loadEntry, not_hasEnds isEntry, not_hasEnds isEntry, if_neg Bool.false_ne_true, if_neg Bool.false_ne_true]
    exact Triple.returns (loading.skip here noRecord other)
  cases entry with
  | manifest => exact skipped fun _ => ⟨nofun, nofun⟩
  | manifestTemporary => exact skipped fun _ => ⟨nofun, nofun⟩
  | candidate index => exact skipped fun _ => ⟨nofun, nofun⟩
  | backup index => exact skipped fun _ => ⟨nofun, nofun⟩
  | record sequence =>
    have below := journaled.record_isSome.mp present
    obtain ⟨index, visited, rfl⟩ := loading.records
    obtain ⟨rfl, more⟩ := next_record holds journaled sound here visited (below.trans_le sound.length_le)
    obtain ⟨state, found⟩ : ∃ state, chain[sequence]? = some state := ⟨_, List.getElem?_eq_getElem below⟩
    have there : HasBytes (later.item? (.artifact manifest.transactionId (stateName sequence "rec")))
        (stateRecord setting.crates state) := by
      rw [item?_loading loading.either, World.item?_artifact only,
        show stateName sequence "rec" = (Entry.record sequence).name from rfl, holds.entry]
      exact journaled.record sequence state found
    have other : (Entry.record sequence).name ≠ stateName chain.length "tmp" := stateName_rec_ne_tmp _ _
    rw [loadEntry, show (Entry.record sequence).name = stateName sequence "rec" from rfl, record_not_temporary,
      if_neg Bool.false_ne_true, show hasEnds "state-" ".rec" (stateName sequence "rec") = true from
        hasEnds_stateName sequence "rec", if_pos rfl]
    apply ((readArtifact_triple there).safely safe).exactlyThen fun _ stopped => stopped
    rw [loadState_ok sound found]
    apply Triple.returns
    refine ⟨⟨sequence + 1, more, rfl⟩, ?_⟩
    rw [loading.world, List.take_add_one, here]
    simp [Ne.symm other]
  | temporary sequence =>
    obtain rfl : sequence = chain.length := by
      by_contra other
      rw [journaled.temporary sequence other] at present
      cases present
    have unvisited : stateName chain.length "tmp" ∉ children.keys.take count := by
      intro earlier
      obtain ⟨position, bound, same⟩ := List.mem_iff_getElem.mp earlier
      rw [List.length_take] at bound
      rw [List.getElem_take] at same
      have distinct := (OrderedMap.nodup_keys children).getElem_inj_iff.mp
        (same.trans (List.getElem?_eq_some_iff.mp here).2.symm)
      omega
    have still : later = world := by
      have same := loading.world
      rwa [if_neg unvisited] at same
    subst still
    obtain ⟨item, found⟩ := Option.isSome_iff_exists.mp present
    have there : later.item? (.artifact manifest.transactionId (stateName chain.length "tmp")) = some item := by
      rw [World.item?_artifact only, show stateName chain.length "tmp" = (Entry.temporary chain.length).name from rfl,
        holds.entry]
      exact found
    have removed : later.removeFile (.artifact manifest.transactionId (stateName chain.length "tmp"))
        (.io "remove_state_temporary" none) =
          .ok ((), later.place (.artifact manifest.transactionId (stateName chain.length "tmp")) none) := by
      rw [World.removeFile, there]
    rw [loadEntry, show (Entry.temporary chain.length).name = stateName chain.length "tmp" from rfl,
      show hasEnds "state-" ".tmp" (stateName chain.length "tmp") = true from hasEnds_stateName chain.length "tmp",
      if_pos rfl, io]
    apply Triple.actsThen removed (isIo _ _) fun disturbed => before ⟨_, disturbed⟩
    apply Triple.returns
    obtain ⟨index, visited, same⟩ := loading.records
    refine ⟨⟨index, ?_, same⟩, ?_⟩
    · have noRecord : parseStateName (Entry.temporary chain.length).name "rec" = none := by
        cases parsed : parseStateName (Entry.temporary chain.length).name "rec" with
        | none => rfl
        | some _ => exact absurd (Entry.parseStateName_rec_name.mp parsed).1 nofun
      rw [List.take_add_one, here, List.filterMap_append, visited]
      simp [noRecord]
    · have taken : stateName chain.length "tmp" ∈ children.keys.take (count + 1) := by
        rw [List.take_add_one, here]
        exact List.mem_append_right _ List.mem_cons_self
      rw [if_pos taken]
      rfl

include only holds journaled in
/-- Once every name was visited, every record has been read. -/
private theorem Loading.all {loaded : LoadedStates} {later : World} (short : chain.length ≤ maxStateRecords)
    (loading : Loading setting manifest chain children world children.keys.length loaded later) :
    loaded = loadedAfter setting.crates chain chain.length ∧ later = world.withoutTemporary manifest.transactionId chain.length := by
  obtain ⟨⟨index, visited, same⟩, still⟩ := loading
  rw [List.take_length, recordSequences holds journaled short] at visited
  have count := congrArg List.length visited
  rw [List.length_range, List.length_range] at count
  refine ⟨by rw [same, count], ?_⟩
  rw [still, List.take_length]
  split_ifs with there
  · rfl
  · rw [World.withoutTemporary, World.place_free]
    rw [World.item?_artifact only]
    rw [Std.ExtTreeMap.mem_keys] at there
    exact Std.ExtTreeMap.getElem?_eq_none there

/-- What the loader makes of the states it has read. -/
private def resumed (manifest : Manifest) (loaded : LoadedStates) : Engine LoadedTransaction := do
  let last ← Process.ofExcept (lastLoaded manifest.transactionId loaded)
  let again ← readArtifact manifest.transactionId "manifest.rec" "read_manifest_for_recovery"
  let journal ← Process.ofExcept (resumeJournal manifest.transactionId manifest again last.1 last.2 loaded.bytes)
  return ⟨manifest, ⟨journal, ⟨last.1, last.2⟩⟩⟩

include only holds journaled sound in
/-- The loader visits every entry of the directory and removes a temporary. -/
private theorem loads_triple (encodes : manifest.Encodes setting.crates) {done : LoadedTransaction → World → Prop}
    (before : Disturbed allowed → rest world)
    (after : Disturbed allowed → rest (world.withoutTemporary manifest.transactionId chain.length))
    (goes : Triple allowed (· = world.withoutTemporary manifest.transactionId chain.length)
      (resumed manifest (loadedAfter setting.crates chain chain.length)) (Ends denial done rest)) :
    Triple allowed (· = world) (loadActiveTransaction setting manifest.transactionId) (Ends denial done rest) := by
  have published : HasBytes (world.item? (.artifact manifest.transactionId "manifest.rec"))
      (manifestRecord setting.crates manifest) := by
    rw [World.item?_artifact only, show ("manifest.rec" : String) = Entry.manifest.name from rfl, holds.entry]
    exact journaled.published
  have names : world.control.children manifest.transactionId = children := only.children_eq
  rw [loadActiveTransaction]
  apply ((readArtifact_triple published).safely before).exactlyThen fun _ stopped => stopped
  rw [decodeManifestRecord_manifestRecord setting.crates encodes, ofExcept_ok_bind,
    Except.rejectIf_of_not (fun different => different rfl), ofExcept_ok_bind]
  have listing : Triple allowed (· = world) (ioRead "read_recovery_transaction" none fun world =>
      .ok (world.control.children manifest.transactionId).keys) (Ends denial (Exactly children.keys world) rest) :=
    (ioRead_triple _ (by rw [names])).safely before
  apply listing.exactlyThen fun _ stopped => stopped
  have loop : Triple allowed (· = world) (children.keys.foldlM (loadEntry setting manifest.transactionId) {})
      ⟨Loading setting manifest chain children world children.keys.length, fun error later => denial error ∧ rest later, rest⟩ := by
    have unvisited : Loading setting manifest chain children world 0 {} world := ⟨⟨0, rfl, rfl⟩, rfl⟩
    apply (Triple.foldlM (Loading setting manifest chain children world) _ {}).mono
    · rintro later rfl
      exact unvisited
    · exact fun _ _ finished => finished
    · exact fun _ _ failed => failed
    · exact fun _ stopped => stopped
    · intro count name here loaded
      apply Triple.pointwise
      exact fun later loading => loadEntry_triple only holds journaled sound loading here before after
  apply Triple.proceeds loop
  intro loaded later finished
  obtain ⟨rfl, rfl⟩ := finished.all only holds journaled sound.length_le
  apply (settle_safely after).exactlyThen fun _ stopped => stopped
  exact goes

include only holds journaled sound in
/-- A directory that records a sound chain is loaded as the session of that chain. -/
theorem loadActiveTransaction_triple (encodes : manifest.Encodes setting.crates) {last : StateSnapshot}
    (final : chain.getLast? = some last)
    (room : manifest.artifactBytes + (manifestRecord setting.crates manifest).length + chainBytes setting.crates chain ≤ u64Max)
    (before : Disturbed allowed → rest world)
    (after : Disturbed allowed → rest (world.withoutTemporary manifest.transactionId chain.length)) :
    Triple allowed (· = world) (loadActiveTransaction setting manifest.transactionId)
      (Ends denial (Exactly ⟨manifest, ⟨journalOf setting.crates manifest chain,
          ⟨last, checksumText (stateDigest setting.crates last)⟩⟩⟩
        (world.withoutTemporary manifest.transactionId chain.length)) rest) := by
  have published : HasBytes ((world.withoutTemporary manifest.transactionId chain.length).item?
      (.artifact manifest.transactionId "manifest.rec")) (manifestRecord setting.crates manifest) := by
    rw [World.withoutTemporary, World.item?_place_ne]
    · rw [World.item?_artifact only, show ("manifest.rec" : String) = Entry.manifest.name from rfl, holds.entry]
      exact journaled.published
    · intro same
      rw [Location.artifact.injEq] at same
      exact nomatch Entry.name_injective (show Entry.manifest.name = (Entry.temporary chain.length).name from same.2)
  have journal : resumeJournal manifest.transactionId manifest (manifestRecord setting.crates manifest) last
      (checksumText (stateDigest setting.crates last)) (chainBytes setting.crates chain) =
        .ok (journalOf setting.crates manifest chain) := by
    have member := List.mem_of_getLast? final
    have overflow : ¬manifest.artifactBytes + (manifestRecord setting.crates manifest).length +
        chainBytes setting.crates chain > u64Max := not_lt.mpr room
    have same : ¬checksumText (manifestDigest setting.crates manifest) ≠ last.manifestChecksum :=
      not_not.mpr (sound.names last member).symm
    rw [resumeJournal, encodes.valid, Except.ok_bind, sound.originals last member, Except.ok_bind,
      recordChecksum_manifestRecord, Except.ok_bind, Except.rejectIf_of_not same, Except.ok_bind,
      projectedArtifactBytes_eq_ok.mpr ⟨rfl, (by omega : manifest.artifactBytes ≤ u64Max)⟩, Except.ok_bind,
      Except.rejectIf_of_not overflow, Except.ok_bind, journalOf, final]
    rfl
  have lastOf : lastLoaded manifest.transactionId (loadedAfter setting.crates chain chain.length) =
      .ok (last, checksumText (stateDigest setting.crates last)) := by
    rw [lastLoaded, loadedAfter, List.take_length, lastRecorded, final]
    rfl
  apply loads_triple only holds journaled sound encodes before after
  rw [resumed, lastOf, ofExcept_ok_bind]
  apply ((readArtifact_triple published).safely after).exactlyThen fun _ stopped => stopped
  rw [show (loadedAfter setting.crates chain chain.length).bytes = chainBytes setting.crates chain by
    rw [loadedAfter, List.take_length], journal, ofExcept_ok_bind]
  exact Triple.returns ⟨rfl, rfl⟩

/-- A directory without states is not loaded. -/
theorem loadActiveTransaction_empty (only : OnlyActive world.control manifest.transactionId object children)
    (holds : Holds children contents) (journaled : Journaled setting.crates manifest [] contents)
    (encodes : manifest.Encodes setting.crates) (before : rest world)
    (after : rest (world.withoutTemporary manifest.transactionId 0)) :
    Triple allowed (· = world) (loadActiveTransaction setting manifest.transactionId)
      (Ends (fun _ => True) (fun _ _ => False) rest) := by
  apply loads_triple only holds journaled .nil encodes (fun _ => before) fun _ => after
  apply Triple.refuse
  rintro _ rfl
  exact ⟨trivial, after⟩

end Load

end Srcmv.Fs
