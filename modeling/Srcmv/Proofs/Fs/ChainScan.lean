import Srcmv.Proofs.Fs.Directory
import Srcmv.Proofs.Fs.Manifests

/-! # Scanning a recorded transaction

The chain fold reads the records of a sound chain in order, so the scan returns the entry of the last
state. A state temporary beside the chain is read as one more record.
-/

namespace Srcmv.Fs

open Srcmv.Core

theorem readRecordBounded_ok {item : Option Item} {bytes : Bytes} {cumulative : ℕ} (has : HasBytes item bytes)
    (size : bytes.length ≤ maxRecordBytes) (within : cumulative + bytes.length ≤ maxRecoveryBytes) :
    readRecordBounded item cumulative {} = .ok (bytes, cumulative + bytes.length) := by
  obtain ⟨node, rfl, rfl⟩ := has
  have limit : maxRecoveryBytes ≤ u64Max := by norm_num [maxRecoveryBytes, u64Max]
  unfold readRecordBounded chargeRecovery
  dsimp only
  rw [Except.rejectIf_of_not (by exact Nat.not_lt.mpr size), Except.ok_bind, if_neg (by omega),
    if_neg (by exact Nat.not_lt.mpr within)]
  rfl

section Chain

variable {crates : Crates} {manifest : Manifest} {chain : List StateSnapshot} {contents : Entry → Option Item}
  {children : NameMap Item}

/-- The state record names of a directory, as the scan collects them. -/
def recordNames (children : NameMap Item) : List (ℕ × String) :=
  children.keys.filterMap fun name => (parseStateName name "rec").map (·, name)

theorem Journaled.record_isSome (journaled : Journaled crates manifest chain contents) {index : ℕ} :
    (contents (.record index)).isSome ↔ index < chain.length := by
  constructor
  · intro present
    by_contra beyond
    rw [journaled.noRecord index (by omega)] at present
    cases present
  · intro bound
    exact (journaled.record index _ (List.getElem?_eq_getElem bound)).isSome

theorem mem_recordNames (holds : Holds children contents) (journaled : Journaled crates manifest chain contents)
    (short : chain.length ≤ maxStateRecords) {index : ℕ} {name : String} :
    (index, name) ∈ recordNames children ↔ index < chain.length ∧ name = stateName index "rec" := by
  simp only [recordNames, List.mem_filterMap, Option.map_eq_some_iff, Prod.mk.injEq]
  constructor
  · rintro ⟨key, member, parsed, parses, rfl, rfl⟩
    obtain ⟨rfl, _⟩ := parseStateName_eq_some.mp parses
    refine ⟨?_, rfl⟩
    obtain ⟨entry, named, present⟩ := holds.mem_keys.mp member
    obtain rfl : entry = .record parsed := Entry.name_injective named
    exact journaled.record_isSome.mp present
  · rintro ⟨bound, rfl⟩
    refine ⟨stateName index "rec", ?_, index, parseStateName_stateName "rec" (by omega), rfl, rfl⟩
    exact holds.mem_keys.mpr ⟨.record index, rfl, journaled.record_isSome.mpr bound⟩

theorem lookup_recordNames (holds : Holds children contents) (journaled : Journaled crates manifest chain contents)
    (short : chain.length ≤ maxStateRecords) {index : ℕ} (bound : index < chain.length) :
    (recordNames children).lookup index = some (stateName index "rec") := by
  have member := (mem_recordNames holds journaled short).mpr ⟨bound, rfl⟩
  cases found : (recordNames children).lookup index with
  | none =>
    rw [List.lookup_eq_none_iff] at found
    exact absurd (found _ member) (by simp)
  | some name =>
    obtain ⟨before, after, split, _⟩ := List.lookup_eq_some_iff.mp found
    have inside : (index, name) ∈ recordNames children := by rw [split]; simp
    rw [((mem_recordNames holds journaled short).mp inside).2]

theorem length_recordNames (holds : Holds children contents) (journaled : Journaled crates manifest chain contents)
    (short : chain.length ≤ maxStateRecords) : (recordNames children).length = chain.length := by
  have distinct : ((recordNames children).map Prod.fst).Nodup := by
    rw [recordNames, List.map_filterMap]
    refine (OrderedMap.nodup_keys children).filterMap ?_
    intro left right value parsedLeft parsedRight
    simp only [Option.mem_def, Option.map_map, Option.map_eq_some_iff, Function.comp_apply] at parsedLeft parsedRight
    obtain ⟨_, parsedLeft, rfl⟩ := parsedLeft
    obtain ⟨_, parsedRight, equal⟩ := parsedRight
    rw [(stateName_of_parseStateName parsedLeft).1, (stateName_of_parseStateName parsedRight).1, equal]
  have same : ∀ index, index ∈ (recordNames children).map Prod.fst ↔ index ∈ List.range chain.length := by
    intro index
    rw [List.mem_map, List.mem_range]
    constructor
    · rintro ⟨⟨number, name⟩, member, rfl⟩
      exact ((mem_recordNames holds journaled short).mp member).1
    · intro bound
      exact ⟨(index, _), (mem_recordNames holds journaled short).mpr ⟨bound, rfl⟩, rfl⟩
  have perm := (List.perm_ext_iff_of_nodup distinct List.nodup_range).mpr same
  rw [← List.length_map (f := Prod.fst), perm.length_eq, List.length_range]

/-- The last of some states with its checksum. -/
def lastRecorded (crates : Crates) (states : List StateSnapshot) : Option (StateSnapshot × String) :=
  states.getLast?.map fun state => (state, checksumText (stateDigest crates state))

/-- What the fold carries after the first `count` records. -/
def foldAfter (crates : Crates) (chain : List StateSnapshot) (cumulative count : ℕ) : ChainFold where
  prior := lastRecorded crates (chain.take count)
  stateBytes := chainBytes crates (chain.take count)
  cumulative := cumulative + chainBytes crates (chain.take count)

theorem chainBytes_take_succ {count : ℕ} {state : StateSnapshot} (found : chain[count]? = some state) :
    chainBytes crates (chain.take (count + 1)) =
      chainBytes crates (chain.take count) + (stateRecord crates state).length := by
  rw [chainBytes, List.take_add_one, found]
  simp [chainBytes]

theorem chainBytes_take_le (count : ℕ) : chainBytes crates (chain.take count) ≤ chainBytes crates chain := by
  have split := congrArg (chainBytes crates) (List.take_append_drop count chain)
  rw [chainBytes, List.map_append, List.sum_append] at split
  rw [← split, chainBytes]
  omega

theorem lastRecorded_take_succ {count : ℕ} {state : StateSnapshot} (found : chain[count]? = some state) :
    lastRecorded crates (chain.take (count + 1)) = some (state, checksumText (stateDigest crates state)) := by
  rw [lastRecorded, List.take_add_one, found]
  simp

/-- Each state of a sound chain passes the checks against its predecessor. -/
theorem validateChainElement_sound (sound : SoundChain crates manifest chain) {id : String} {count : ℕ}
    {state : StateSnapshot} (found : chain[count]? = some state) :
    validateChainElement id (lastRecorded crates (chain.take count)) state = .ok () := by
  have sequence := sound.sequence count state found
  cases count with
  | zero =>
    obtain ⟨preparing, prior⟩ := sound.first state found
    have zero : state.sequence = 0 := UInt64.toNat_inj.mp sequence
    rw [List.take_zero]
    change Except.rejectIf _ _ = _
    rw [Except.rejectIf_of_not (by simp [preparing, prior, zero])]
  | succ count =>
    have bound : count + 1 < chain.length := (List.getElem?_eq_some_iff.mp found).1
    have previous : chain[count]? = some chain[count] := List.getElem?_eq_getElem (by omega)
    obtain ⟨linked, transition⟩ := sound.linked count _ state previous found
    rw [lastRecorded_take_succ previous, validateChainElement, Except.rejectIf_of_not (by simp [linked]),
      Except.ok_bind, transition]

private theorem same_targets {state : StateSnapshot} (originals : validateStateAgainstManifest state manifest = .ok ()) :
    state.targets.length = manifest.targets.length := by
  unfold validateStateAgainstManifest validateStateAgainstOriginals at originals
  split at originals
  · cases originals
  · next same =>
    rw [not_not, Manifest.originalExistence, List.length_map] at same
    exact same

/-- One iteration of the chain fold. -/
theorem foldStateRecord_sound (holds : Holds children contents) (journaled : Journaled crates manifest chain contents)
    (sound : SoundChain crates manifest chain) {id : String} {cumulative count : ℕ} {state : StateSnapshot}
    (found : chain[count]? = some state) (within : cumulative + chainBytes crates chain ≤ maxRecoveryBytes) :
    foldStateRecord crates children id manifest (manifestDigest crates manifest) (recordNames children) {}
      (foldAfter crates chain cumulative count) count = .ok (foldAfter crates chain cumulative (count + 1)) := by
  have bound : count < chain.length := (List.getElem?_eq_some_iff.mp found).1
  have member : state ∈ chain := List.mem_of_getElem? found
  have encodes := sound.encodes state member
  have originals := sound.originals state member
  have grown : chainBytes crates (chain.take (count + 1)) = _ := chainBytes_take_succ found
  have total : chainBytes crates (chain.take (count + 1)) ≤ chainBytes crates chain := chainBytes_take_le (count + 1)
  have limited := sound.bytes
  have limit : maxStateBytes ≤ u64Max := by norm_num [maxStateBytes, u64Max]
  have has : HasBytes children[stateName count "rec"]? (stateRecord crates state) := by
    have recorded := journaled.record count state found
    rwa [← holds.entry] at recorded
  unfold foldStateRecord
  rw [lookup_recordNames holds journaled sound.length_le bound]
  dsimp only [foldAfter]
  rw [readRecordBounded_ok has encodes.size (by omega), Except.ok_bind]
  dsimp only
  rw [Nat.add_sub_cancel_left, ← grown, Except.rejectIf_of_not (by omega), Except.ok_bind,
    Except.rejectIf_of_not (by exact Nat.not_lt.mpr (total.trans limited)), Except.ok_bind,
    decodeStateRecord_stateRecord crates encodes, Except.ok_bind,
    Except.rejectIf_of_not (by
      rw [not_or, not_or, not_not, not_not, not_not]
      exact ⟨sound.sequence count state found, sound.names state member, same_targets originals⟩), Except.ok_bind,
    originals, Except.ok_bind, validateChainElement_sound sound found, Except.ok_bind,
    lastRecorded_take_succ found, Nat.add_assoc, ← grown]
  rfl

theorem foldlM_foldStateRecord (holds : Holds children contents)
    (journaled : Journaled crates manifest chain contents) (sound : SoundChain crates manifest chain) {id : String}
    {cumulative : ℕ} (within : cumulative + chainBytes crates chain ≤ maxRecoveryBytes) :
    ∀ count ≤ chain.length, (List.range count).foldlM
      (foldStateRecord crates children id manifest (manifestDigest crates manifest) (recordNames children) {})
      { cumulative } = .ok (foldAfter crates chain cumulative count) := by
  intro count
  induction count with
  | zero => exact fun _ => by simp [foldAfter, lastRecorded, chainBytes, pure, Except.pure]
  | succ count ih =>
    intro bound
    rw [List.range_succ, List.foldlM_append, ih (by omega), Except.ok_bind, List.foldlM_cons,
      foldStateRecord_sound holds journaled sound (List.getElem?_eq_getElem (by omega)) within, Except.ok_bind,
      List.foldlM_nil]
    rfl

theorem foldStateChain_sound (holds : Holds children contents) (journaled : Journaled crates manifest chain contents)
    (sound : SoundChain crates manifest chain) {id : String} {cumulative : ℕ} {last : StateSnapshot}
    (final : chain.getLast? = some last) (within : cumulative + chainBytes crates chain ≤ maxRecoveryBytes) :
    foldStateChain crates children id manifest (manifestDigest crates manifest) (recordNames children) cumulative {} =
      .ok (last, checksumText (stateDigest crates last), cumulative + chainBytes crates chain) := by
  have length := length_recordNames holds journaled sound.length_le
  unfold foldStateChain
  rw [length, Except.rejectIf_of_not (by exact Nat.not_lt.mpr sound.length_le), Except.ok_bind,
    foldlM_foldStateRecord holds journaled sound within _ le_rfl, Except.ok_bind]
  simp only [foldAfter, lastRecorded, List.take_length, final, Option.map_some]

section Active

/-- Every name beside a chain is known. -/
theorem validateActiveName_journaled (holds : Holds children contents)
    (journaled : Journaled crates manifest chain contents) (valid : manifest.Valid)
    (short : chain.length ≤ maxStateRecords)
    (room : (contents (.temporary chain.length)).isSome → chain.length < maxStateRecords) {id : String} :
    children.keys.forM (validateActiveName children manifest id) = .ok () := by
  rw [List.forM_eq_ok]
  intro name member
  obtain ⟨entry, rfl, present⟩ := holds.mem_keys.mp member
  have authorized : ∀ name, name ∈ manifest.authorizedNames ↔ ∃ index < manifest.targets.length,
      name = generatedName "candidate" index ∨ name = generatedName "backup" index :=
    fun name => valid.mem_authorizedNames
  have known : entry.name = "manifest.rec" ∨ entry.name = "manifest.tmp" ∨ (parseStateName entry.name "rec").isSome ∨
      (parseStateName entry.name "tmp").isSome ∨ entry.name ∈ manifest.authorizedNames := by
    cases entry with
    | manifest => exact .inl rfl
    | manifestTemporary => exact .inr (.inl rfl)
    | record index =>
      have bound := journaled.record_isSome.mp present
      refine .inr (.inr (.inl ?_))
      rw [show (Entry.record index).name = stateName index "rec" from rfl, parseStateName_stateName "rec" (by omega)]
      rfl
    | temporary index =>
      obtain rfl : index = chain.length := by
        by_contra other
        rw [journaled.temporary index other] at present
        cases present
      refine .inr (.inr (.inr (.inl ?_)))
      rw [show (Entry.temporary chain.length).name = stateName chain.length "tmp" from rfl,
        parseStateName_stateName "tmp" (room present)]
      rfl
    | candidate index =>
      have bound : index < manifest.targets.length := by
        by_contra beyond
        rw [journaled.noCandidate index (by omega)] at present
        cases present
      exact .inr (.inr (.inr (.inr ((authorized _).mpr ⟨index, bound, .inl rfl⟩))))
    | backup index =>
      have bound : index < manifest.targets.length := by
        by_contra beyond
        rw [journaled.noBackup index (by omega)] at present
        cases present
      exact .inr (.inr (.inr (.inr ((authorized _).mpr ⟨index, bound, .inr rfl⟩))))
  have regular : entry.name ∈ manifest.authorizedNames → children[entry.name]?.any Item.isFile = true := by
    intro inside
    obtain ⟨found, here⟩ := Option.isSome_iff_exists.mp present
    rw [holds.entry, here]
    obtain ⟨index, _, named | named⟩ := (authorized _).mp inside
    · obtain rfl : entry = .candidate index := Entry.name_injective named
      exact journaled.candidate index found here
    · obtain rfl : entry = .backup index := Entry.name_injective named
      exact journaled.backup index found here
  unfold validateActiveName
  rw [Except.rejectIf_of_not (not_not.mpr known), Except.ok_bind, Except.rejectIf_of_not]
  rintro ⟨inside, irregular⟩
  exact irregular (regular inside)

private theorem manifestTemporary_not_mem (holds : Holds children contents)
    (journaled : Journaled crates manifest chain contents) : "manifest.tmp" ∉ children := by
  intro member
  have present : (contents .manifestTemporary).isSome = true := holds.mem_iff.mp member
  rw [journaled.noTemporary] at present
  cases present

variable {id : String} {context : TemporaryContext} {cumulative : ℕ}

private theorem parse_temporary (holds : Holds children contents)
    (journaled : Journaled crates manifest chain contents) {name : String} (member : name ∈ children.keys)
    (other : name ≠ stateName chain.length "tmp") : parseStateName name "tmp" = none := by
  cases parsed : parseStateName name "tmp" with
  | none => rfl
  | some index =>
    obtain ⟨rfl, _⟩ := parseStateName_eq_some.mp parsed
    obtain ⟨entry, named, present⟩ := holds.mem_keys.mp member
    obtain rfl : entry = .temporary index := Entry.name_injective named
    rw [journaled.temporary index fun equal => other (by rw [equal])] at present
    cases present

theorem validateTemporaries_none (holds : Holds children contents)
    (journaled : Journaled crates manifest chain contents) (absent : contents (.temporary chain.length) = none)
    (bounded : context.lastState.sequence.toNat + 1 ≤ u64Max) :
    validateTemporaries crates children id context cumulative {} = .ok cumulative := by
  unfold validateTemporaries
  rw [Except.rejectIf_of_not (manifestTemporary_not_mem holds journaled), Except.ok_bind,
    Except.rejectIf_of_not (by omega), Except.ok_bind, List.foldlM_ok_of_forall]
  · rfl
  · intro name member
    have other : name ≠ stateName chain.length "tmp" := by
      rintro rfl
      obtain ⟨entry, named, present⟩ := holds.mem_keys.mp member
      obtain rfl : entry = .temporary chain.length := Entry.name_injective named
      rw [absent] at present
      cases present
    unfold validateTemporary
    rw [parse_temporary holds journaled member other]

/-- Only the temporary of the next state is looked at. -/
theorem validateTemporaries_some (holds : Holds children contents)
    (journaled : Journaled crates manifest chain contents) (present : (contents (.temporary chain.length)).isSome)
    (bounded : context.lastState.sequence.toNat + 1 ≤ u64Max) :
    validateTemporaries crates children id context cumulative {} = do
      let (count, cumulative) ← validateTemporary crates children id context {} (0, cumulative)
        (stateName chain.length "tmp")
      Except.rejectIf (count > 1) (corrupt (some id) "multiple_state_temporaries")
      return cumulative := by
  unfold validateTemporaries
  rw [Except.rejectIf_of_not (manifestTemporary_not_mem holds journaled), Except.ok_bind,
    Except.rejectIf_of_not (by omega), Except.ok_bind,
    List.foldlM_single (OrderedMap.nodup_keys children) (holds.mem_keys.mpr ⟨.temporary chain.length, rfl, present⟩)]
  · rfl
  · intro name member other value
    unfold validateTemporary
    rw [parse_temporary holds journaled member other]

end Active

end Chain

end Srcmv.Fs
