import Srcmv.Proofs.Fs.Envelope
import Srcmv.Proofs.Fs.Names
import Srcmv.ToMathlib.OrderedMap

/-! # Directories with a recorded transaction

A directory is described by what stands at each entry the engine can create. A sound chain is a list
of states whose records follow one another; a directory that records a manifest and a sound chain is
accepted by the scan with the actions of the last state, and a complete successor may stand beside
it as a temporary.
-/

namespace Srcmv.Fs

open Srcmv.Core

/-- The directory holds these entries and nothing else. -/
structure Holds (children : NameMap Item) (contents : Entry → Option Item) : Prop where
  entry : ∀ entry : Entry, children[entry.name]? = contents entry
  named : ∀ name, name ∈ children → ∃ entry : Entry, entry.name = name

namespace Holds

variable {children : NameMap Item} {contents : Entry → Option Item}

theorem mem_iff (holds : Holds children contents) {entry : Entry} :
    entry.name ∈ children ↔ (contents entry).isSome := by
  rw [← holds.entry, Std.ExtTreeMap.isSome_getElem?_iff_mem]

theorem mem_keys (holds : Holds children contents) {name : String} :
    name ∈ children.keys ↔ ∃ entry : Entry, entry.name = name ∧ (contents entry).isSome := by
  rw [Std.ExtTreeMap.mem_keys]
  constructor
  · intro member
    obtain ⟨entry, rfl⟩ := holds.named name member
    exact ⟨entry, rfl, holds.mem_iff.mp member⟩
  · rintro ⟨entry, rfl, present⟩
    exact holds.mem_iff.mpr present

theorem empty : Holds (∅ : NameMap Item) fun _ => none where
  entry _ := Std.ExtTreeMap.getElem?_empty
  named _ member := absurd member Std.ExtTreeMap.not_mem_empty

theorem ext {other : NameMap Item} (holds : Holds children contents) (same : Holds other contents) :
    children = other := by
  apply Std.ExtTreeMap.ext_getElem?
  intro name
  by_cases known : ∃ entry : Entry, entry.name = name
  · obtain ⟨entry, rfl⟩ := known
    rw [holds.entry, same.entry]
  · rw [getElem?_neg _ _ fun member => known (holds.named name member),
      getElem?_neg _ _ fun member => known (same.named name member)]

/-- Replace what stands at one entry. -/
theorem alter (holds : Holds children contents) (entry : Entry) (item : Option Item) :
    Holds (children.alter entry.name fun _ => item) (Function.update contents entry item) where
  entry other := by
    rw [OrderedMap.getElem?_alter]
    by_cases same : entry = other
    · rw [if_pos (congrArg Entry.name same), same, Function.update_self]
    · rw [if_neg (fun equal => same (Entry.name_injective equal)), Function.update_of_ne (Ne.symm same), holds.entry]
  named name member := by
    rw [Std.ExtTreeMap.mem_iff_isSome_getElem?, OrderedMap.getElem?_alter] at member
    split at member
    · next same => exact ⟨entry, same⟩
    · exact holds.named name (Std.ExtTreeMap.mem_iff_isSome_getElem?.mpr member)

/-- A directory with these contents, given the entries at which something stands. -/
def childrenAt (contents : Entry → Option Item) (entries : List Entry) : NameMap Item :=
  entries.foldr (fun entry children => children.alter entry.name fun _ => contents entry) ∅

theorem childrenAt_holds_mem (entries : List Entry) :
    Holds (childrenAt contents entries) fun entry => if entry ∈ entries then contents entry else none := by
  induction entries with
  | nil => exact empty
  | cons entry rest ih =>
    have next := ih.alter entry (contents entry)
    have same : Function.update (fun entry => if entry ∈ rest then contents entry else none) entry (contents entry) =
        fun other => if other ∈ entry :: rest then contents other else none := by
      funext other
      by_cases equal : other = entry
      · rw [equal, Function.update_self, if_pos List.mem_cons_self]
      · rw [Function.update_of_ne equal]
        exact if_congr ⟨List.mem_cons_of_mem _, fun member => (List.mem_cons.mp member).resolve_left equal⟩ rfl rfl
    rw [same] at next
    exact next

theorem childrenAt_holds {entries : List Entry} (complete : ∀ entry, entry ∉ entries → contents entry = none) :
    Holds (childrenAt contents entries) contents := by
  have whole : Holds (childrenAt contents entries) fun entry => if entry ∈ entries then contents entry else none :=
    childrenAt_holds_mem entries
  rwa [show (fun entry => if entry ∈ entries then contents entry else none) = contents by
    funext entry
    by_cases member : entry ∈ entries
    · exact if_pos member
    · rw [if_neg member, complete entry member]] at whole

end Holds

/-- A regular file with these bytes. -/
def HasBytes (item : Option Item) (bytes : Bytes) : Prop := ∃ node : Node, item = some (.file node) ∧ node.bytes = bytes

theorem HasBytes.isSome {item : Option Item} {bytes : Bytes} (has : HasBytes item bytes) : item.isSome = true := by
  obtain ⟨node, rfl, _⟩ := has
  rfl

/-- A file, if anything. -/
def OnlyFile (item : Option Item) : Prop := ∀ found, item = some found → found.isFile = true

variable (crates : Crates)

/-- The recorded checksum of the manifest. -/
def manifestChecksum (manifest : Manifest) : String := checksumText (manifestDigest crates manifest)

/-- Bytes of the records of a chain. -/
def chainBytes (chain : List StateSnapshot) : ℕ := (chain.map fun state => (stateRecord crates state).length).sum

/-- States whose records follow one another under one manifest. -/
structure SoundChain (manifest : Manifest) (chain : List StateSnapshot) : Prop where
  encodes : ∀ state ∈ chain, state.Encodes crates
  sequence : ∀ (index : ℕ) (state : StateSnapshot), chain[index]? = some state → state.sequence.toNat = index
  names : ∀ state ∈ chain, state.manifestChecksum = manifestChecksum crates manifest
  originals : ∀ state ∈ chain, validateStateAgainstManifest state manifest = .ok ()
  first : ∀ state : StateSnapshot, chain[0]? = some state → state.globalState = .preparing ∧ state.priorStateChecksum = none
  linked : ∀ (index : ℕ) (before after : StateSnapshot), chain[index]? = some before → chain[index + 1]? = some after →
    after.priorStateChecksum = some (checksumText (stateDigest crates before)) ∧
      validateStateTransition before after {} = .ok ()
  bytes : chainBytes crates chain ≤ maxStateBytes

/-- A directory with a manifest and the records of a chain; only the temporary of the next state may
stand beside them. -/
structure Journaled (manifest : Manifest) (chain : List StateSnapshot) (contents : Entry → Option Item) : Prop where
  published : HasBytes (contents .manifest) (manifestRecord crates manifest)
  noTemporary : contents .manifestTemporary = none
  record : ∀ index state, chain[index]? = some state → HasBytes (contents (.record index)) (stateRecord crates state)
  noRecord : ∀ index, chain.length ≤ index → contents (.record index) = none
  temporary : ∀ index, index ≠ chain.length → contents (.temporary index) = none
  candidate : ∀ index, OnlyFile (contents (.candidate index))
  noCandidate : ∀ index, manifest.targets.length ≤ index → contents (.candidate index) = none
  backup : ∀ index, OnlyFile (contents (.backup index))
  noBackup : ∀ index, manifest.targets.length ≤ index → contents (.backup index) = none

namespace Journaled

variable {crates} {manifest : Manifest} {chain : List StateSnapshot} {contents : Entry → Option Item}

/-- The temporary of the next state does not disturb a chain. -/
theorem begin (journaled : Journaled crates manifest chain contents) (item : Option Item) :
    Journaled crates manifest chain (Function.update contents (.temporary chain.length) item) where
  published := by rw [Function.update_of_ne (by simp)]; exact journaled.published
  noTemporary := by rw [Function.update_of_ne (by simp)]; exact journaled.noTemporary
  record index state found := by rw [Function.update_of_ne (by simp)]; exact journaled.record index state found
  noRecord index beyond := by rw [Function.update_of_ne (by simp)]; exact journaled.noRecord index beyond
  temporary index other := by
    rw [Function.update_of_ne (by simpa using other)]; exact journaled.temporary index other
  candidate index := by rw [Function.update_of_ne (by simp)]; exact journaled.candidate index
  noCandidate index beyond := by rw [Function.update_of_ne (by simp)]; exact journaled.noCandidate index beyond
  backup index := by rw [Function.update_of_ne (by simp)]; exact journaled.backup index
  noBackup index beyond := by rw [Function.update_of_ne (by simp)]; exact journaled.noBackup index beyond

/-- The record of the next state makes the chain longer. -/
theorem extend {state : StateSnapshot} {item : Item} (journaled : Journaled crates manifest chain contents)
    (unbegun : contents (.temporary chain.length) = none) (recorded : HasBytes (some item) (stateRecord crates state)) :
    Journaled crates manifest (chain ++ [state]) (Function.update contents (.record chain.length) (some item)) where
  published := by rw [Function.update_of_ne (by simp)]; exact journaled.published
  noTemporary := by rw [Function.update_of_ne (by simp)]; exact journaled.noTemporary
  record index other found := by
    rcases Nat.lt_or_ge index chain.length with before | beyond
    · rw [List.getElem?_append_left before] at found
      rw [Function.update_of_ne (by simp; omega)]
      exact journaled.record index other found
    · rw [List.getElem?_append_right beyond, List.getElem?_singleton] at found
      split_ifs at found with last
      obtain rfl := Option.some.inj found
      rw [show index = chain.length by omega, Function.update_self]
      exact recorded
  noRecord index beyond := by
    rw [List.length_append, List.length_singleton] at beyond
    rw [Function.update_of_ne (by simp; omega)]
    exact journaled.noRecord index (by omega)
  temporary index other := by
    rw [Function.update_of_ne (by simp)]
    by_cases same : index = chain.length
    · rw [same, unbegun]
    · exact journaled.temporary index same
  candidate index := by rw [Function.update_of_ne (by simp)]; exact journaled.candidate index
  noCandidate index beyond := by rw [Function.update_of_ne (by simp)]; exact journaled.noCandidate index beyond
  backup index := by rw [Function.update_of_ne (by simp)]; exact journaled.backup index
  noBackup index beyond := by rw [Function.update_of_ne (by simp)]; exact journaled.noBackup index beyond

/-- A candidate or a backup does not disturb a chain. -/
theorem work {entry : Entry} {index : ℕ} {item : Option Item} (journaled : Journaled crates manifest chain contents)
    (inside : index < manifest.targets.length) (artifact : entry = .candidate index ∨ entry = .backup index) (file : OnlyFile item) :
    Journaled crates manifest chain (Function.update contents entry item) := by
  have kept {other : Entry} (apart : other ≠ entry) : Function.update contents entry item other = contents other :=
    Function.update_of_ne apart _ _
  have only {other : Entry} (before : OnlyFile (contents other)) : OnlyFile (Function.update contents entry item other) := by
    rw [Function.update_apply]
    split_ifs
    · exact file
    · exact before
  have free {other : Entry} {position : ℕ} (named : other = .candidate position ∨ other = .backup position)
      (beyond : manifest.targets.length ≤ position) (before : contents other = none) :
      Function.update contents entry item other = none := by
    rw [kept, before]
    rintro rfl
    rcases artifact with rfl | rfl <;> rcases named with same | same <;> cases same <;> omega
  refine ⟨?_, ?_, ?_, ?_, ?_, fun index => only (journaled.candidate index), fun index beyond => free (.inl rfl) beyond
    (journaled.noCandidate index beyond), fun index => only (journaled.backup index), fun index beyond => free (.inr rfl) beyond
    (journaled.noBackup index beyond)⟩
  · rw [kept (by rcases artifact with rfl | rfl <;> simp)]
    exact journaled.published
  · rw [kept (by rcases artifact with rfl | rfl <;> simp)]
    exact journaled.noTemporary
  · intro index state found
    rw [kept (by rcases artifact with rfl | rfl <;> simp)]
    exact journaled.record index state found
  · intro index beyond
    rw [kept (by rcases artifact with rfl | rfl <;> simp)]
    exact journaled.noRecord index beyond
  · intro index other
    rw [kept (by rcases artifact with rfl | rfl <;> simp)]
    exact journaled.temporary index other

end Journaled

section Recorded

variable (manifest : Manifest) (chain : List StateSnapshot)

/-- A manifest and the records of a chain, and nothing else. -/
def recordedContents : Entry → Option Item
  | .manifest => some (.file ⟨⟨1, 30⟩, 1, 0o600, manifestRecord crates manifest⟩)
  | .record index => chain[index]?.map fun state => .file ⟨⟨1, 31⟩, 1, 0o600, stateRecord crates state⟩
  | _ => none

def recordedChildren : NameMap Item :=
  Holds.childrenAt (recordedContents crates manifest chain) (.manifest :: (List.range chain.length).map Entry.record)

theorem recorded_holds : Holds (recordedChildren crates manifest chain) (recordedContents crates manifest chain) := by
  apply Holds.childrenAt_holds
  intro entry missing
  cases entry with
  | manifest => exact absurd List.mem_cons_self missing
  | record index =>
    have beyond : ¬index < chain.length := fun inside =>
      missing (List.mem_cons_of_mem _ (List.mem_map_of_mem (List.mem_range.mpr inside)))
    rw [recordedContents, List.getElem?_eq_none (by omega)]
    rfl
  | _ => rfl

theorem recorded_journaled : Journaled crates manifest chain (recordedContents crates manifest chain) where
  published := ⟨_, rfl, rfl⟩
  noTemporary := rfl
  record index state found := by
    rw [recordedContents, found]
    exact ⟨_, rfl, rfl⟩
  noRecord index beyond := by
    rw [recordedContents, List.getElem?_eq_none beyond]
    rfl
  temporary _ _ := rfl
  candidate _ := nofun
  noCandidate _ _ := rfl
  backup _ := nofun
  noBackup _ _ := rfl

end Recorded

namespace SoundChain

variable {crates} {manifest : Manifest} {chain : List StateSnapshot}

theorem shape {state : StateSnapshot} (sound : SoundChain crates manifest chain) (member : state ∈ chain) :
    validateStateShape state {} = .ok () := (sound.encodes state member).shape

theorem sequence_lt_of_shape {state : StateSnapshot} (shape : validateStateShape state {} = .ok ()) :
    state.sequence.toNat < maxStateRecords := by
  unfold validateStateShape at shape
  simp only [Except.bind_eq_ok, Except.rejectIf_eq_ok] at shape
  obtain ⟨_, _, _, bounded, _⟩ := shape
  exact Nat.lt_of_not_le bounded

theorem length_le (sound : SoundChain crates manifest chain) : chain.length ≤ maxStateRecords := by
  rcases Nat.eq_zero_or_pos chain.length with empty | positive
  · omega
  · have last : chain[chain.length - 1]? = some chain[chain.length - 1] := List.getElem?_eq_getElem (by omega)
    have bounded := sequence_lt_of_shape (sound.shape (List.getElem_mem (by omega : chain.length - 1 < chain.length)))
    rw [sound.sequence _ _ last] at bounded
    omega

/-- The records of a transaction fit the recovery limit. -/
theorem records_within (sound : SoundChain crates manifest chain) (encodes : manifest.Encodes crates) :
    (manifestRecord crates manifest).length + chainBytes crates chain ≤ maxRecoveryBytes := by
  have limit : maxRecordBytes + maxStateBytes ≤ maxRecoveryBytes := by norm_num [maxRecordBytes, maxStateBytes, maxRecoveryBytes]
  exact (Nat.add_le_add encodes.size sound.bytes).trans limit

end SoundChain

end Srcmv.Fs
