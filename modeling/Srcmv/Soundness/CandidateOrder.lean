import Srcmv.Soundness.PositionQueries

/-! # The order of candidates

Only adjacent duplicates are removed, and the sort compares byte ranges where the key of duplicates
has the ranges of the server. The candidates are one canonical list of symbols exactly when the
symbols that differ in those ranges alone are told apart by the rest of the sort.
-/

namespace Srcmv.Lsp

open Srcmv.Core

/-- The candidates of every permutation are one sorted list with one symbol for each key. -/
def Canonical (symbols : List NormalizedSymbol) : Prop :=
  (∀ other : List NormalizedSymbol, other.Perm symbols → orderUniqueCandidates other = orderUniqueCandidates symbols) ∧
    ((orderUniqueCandidates symbols).Pairwise fun left right => (compareSorted left right).isLE) ∧
    ((orderUniqueCandidates symbols).map NormalizedSymbol.key).Nodup ∧
    ∀ key, key ∈ (orderUniqueCandidates symbols).map NormalizedSymbol.key ↔ key ∈ symbols.map NormalizedSymbol.key

/-- No symbol with its key is sorted before the symbol. -/
def LeastOfKey (symbols : List NormalizedSymbol) (symbol : NormalizedSymbol) : Prop :=
  ∀ other ∈ symbols, other.key = symbol.key → (compareSorted symbol other).isLE

/-- All symbols of one key are sorted strictly before those of another one. -/
def SortedBefore (symbols : List NormalizedSymbol) (left right : SymbolKey) : Prop :=
  ∀ one ∈ symbols, ∀ other ∈ symbols, one.key = left → other.key = right → compareSorted one other = .lt

/-- The sort keeps different keys apart, and the first symbol of a key is the only one. -/
structure Separated (symbols : List NormalizedSymbol) : Prop where
  apart : ∀ left ∈ symbols, ∀ right ∈ symbols, compareCandidates left right = .eq → left.lspRange ≠ right.lspRange →
    SortedBefore symbols left.key right.key ∨ SortedBefore symbols right.key left.key
  first : ∀ left ∈ symbols, ∀ right ∈ symbols, left.key = right.key → LeastOfKey symbols left → LeastOfKey symbols right →
    left = right

/-! ## What the candidates are -/

section Candidates

variable {symbols : List NormalizedSymbol}

theorem mem_candidate_keys {key : SymbolKey} :
    key ∈ (prepareCandidates symbols).map NormalizedSymbol.key ↔ key ∈ symbols.map NormalizedSymbol.key := by
  rw [prepareCandidates_keys, List.mem_destutter_ne, ((sortCandidates_perm symbols).map _).mem_iff]

theorem candidates_pairwise (symbols : List NormalizedSymbol) :
    (prepareCandidates symbols).Pairwise fun left right => (compareSorted left right).isLE :=
  (sortCandidates_pairwise symbols).sublist (prepareCandidates_sublist symbols)

/-- A symbol that is put first is kept when none of its key is sorted before it. -/
private theorem mem_candidates_of_least {symbol : NormalizedSymbol} (least : LeastOfKey (symbol :: symbols) symbol) :
    symbol ∈ prepareCandidates (symbol :: symbols) := by
  rw [prepareCandidates_eq]
  have shape : sortCandidates (symbol :: symbols) =
      (sortCandidates symbols).takeWhile (fun other => decide ¬(compareSorted symbol other).isLE) ++
        symbol :: (sortCandidates symbols).dropWhile fun other => decide ¬(compareSorted symbol other).isLE :=
    List.orderedInsert_eq_take_drop _ _ _
  refine List.mem_destutter_of_first NormalizedSymbol.key shape fun other member same => ?_
  have later : ¬(compareSorted symbol other).isLE := by simpa using List.mem_takeWhile_imp member
  have listed := (sortCandidates_perm symbols).mem_iff.mp ((List.takeWhile_sublist _).subset member)
  exact later (least other (List.mem_cons_of_mem _ listed) same)

/-- The order of two symbols in the sort is the order of their keys. -/
private theorem keys_in_order {left right : NormalizedSymbol} (before : [left, right].Sublist (sortCandidates symbols))
    (differ : left.key ≠ right.key) : [left.key, right.key].Sublist ((prepareCandidates symbols).map NormalizedSymbol.key) := by
  rw [prepareCandidates_keys]
  exact List.pair_sublist_destutter differ (before.map NormalizedSymbol.key)

private theorem sorted_pair {left right : NormalizedSymbol} {rest : List NormalizedSymbol} (ordered : (compareSorted left right).isLE)
    (listed : right ∈ rest) : [left, right].Sublist (sortCandidates (left :: rest)) :=
  List.pair_sublist_insertionSort (r := fun left right => (compareSorted left right).isLE = true) ordered
    ((List.singleton_sublist.mpr listed).cons_cons left)

end Candidates

section Order

variable {converter : PositionConverter} {symbols : List NormalizedSymbol}

private theorem compareSorted_swap (left right : NormalizedSymbol) : compareSorted left right = (compareSorted right left).swap :=
  Std.OrientedCmp.eq_swap

/-- What is sorted between two symbols that compare equal compares equal to them. -/
private theorem compareCandidates_between {left middle right : NormalizedSymbol} (same : compareCandidates left right = .eq)
    (first : (compareSorted left middle).isLE) (second : (compareSorted middle right).isLE) : compareCandidates left middle = .eq := by
  have weaken : ∀ {one other}, (compareSorted one other).isLE → (compareCandidates one other).isLE := by
    intro one other ordered
    rw [compareSorted] at ordered
    cases compared : compareCandidates one other with
    | gt =>
      rw [compared] at ordered
      cases ordered
    | lt | eq => rfl
  have back : (compareCandidates middle left).isLE :=
    Std.TransCmp.isLE_trans (weaken second) (by rw [Std.OrientedCmp.eq_comm.mp same]; rfl)
  exact Std.OrientedCmp.isLE_antisymm (weaken first) back

/-- Keys that the sort keeps apart do not come back. -/
private theorem Separated.contiguous (separated : Separated symbols) (indexed : converter.Indexed)
    (over_ : ∀ symbol ∈ symbols, symbol.Over converter) {other : List NormalizedSymbol} (perm : other.Perm symbols) :
    ((prepareCandidates other).map NormalizedSymbol.key).Nodup := by
  rw [prepareCandidates_keys]
  refine List.nodup_destutter fun key between triple => ?_
  obtain ⟨found, sub, mapped⟩ := List.sublist_map_iff.mp triple
  obtain ⟨left, rest, rfl, rfl, two⟩ := List.map_eq_cons_iff.mp mapped.symm
  obtain ⟨middle, rest, rfl, rfl, one⟩ := List.map_eq_cons_iff.mp two
  obtain ⟨right, rest, rfl, same, nothing⟩ := List.map_eq_cons_iff.mp one
  obtain rfl := List.map_eq_nil_iff.mp nothing
  by_contra differ
  have ordered := (sortCandidates_pairwise other).sublist sub
  rw [List.pairwise_cons, List.pairwise_cons] at ordered
  obtain ⟨first, second, -⟩ := ordered
  have listed : ∀ symbol ∈ [left, middle, right], symbol ∈ symbols :=
    fun symbol member => perm.mem_iff.mp ((sortCandidates_perm other).mem_iff.mp (sub.subset member))
  have inLeft := listed left (by simp)
  have inMiddle := listed middle (by simp)
  have inRight := listed right (by simp)
  have equal := (over_ left inLeft).compareCandidates_eq (over_ right inRight) indexed same.symm
  have tie := compareCandidates_between equal (first middle (by simp)) (second right (by simp))
  have ranges : left.lspRange ≠ middle.lspRange := by
    intro sameRange
    obtain ⟨-, kinds, paths, names⟩ := compareCandidates_eq_eq.mp tie
    exact differ (by rw [NormalizedSymbol.key, NormalizedSymbol.key, sameRange, kinds, paths, names])
  rcases separated.apart left inLeft middle inMiddle tie ranges with before | after
  · have less := before right inRight middle inMiddle same rfl
    have greater := second right (by simp)
    rw [compareSorted_swap, less] at greater
    cases greater
  · have less := after middle inMiddle left inLeft rfl rfl
    have greater := first middle (by simp)
    rw [compareSorted_swap, less] at greater
    cases greater

/-- The candidate of a key is the first of its symbols. -/
private theorem candidate_least (distinct : ((prepareCandidates symbols).map NormalizedSymbol.key).Nodup) {symbol : NormalizedSymbol}
    (member : symbol ∈ prepareCandidates symbols) : LeastOfKey symbols symbol := by
  intro other listed same
  -- the first symbol of the key in the sort is kept, hence it is this one
  obtain ⟨first, found⟩ : ∃ first, (sortCandidates symbols).find? (fun other => other.key = symbol.key) = some first := by
    rw [← Option.isSome_iff_exists, List.find?_isSome]
    exact ⟨other, (sortCandidates_perm symbols).mem_iff.mpr listed, decide_eq_true same⟩
  obtain ⟨keyed, front, back, shape, fresh⟩ := List.find?_eq_some_iff_append.mp found
  have keyed := of_decide_eq_true keyed
  have kept : first ∈ prepareCandidates symbols := by
    rw [prepareCandidates_eq]
    refine List.mem_destutter_of_first NormalizedSymbol.key shape fun one before equal => ?_
    have unlike := fresh one before
    rw [equal, keyed] at unlike
    simp at unlike
  obtain rfl : first = symbol := List.inj_on_of_nodup_map distinct kept member keyed
  have sorted := sortCandidates_pairwise symbols
  rw [shape] at sorted
  have place := (sortCandidates_perm symbols).mem_iff.mpr listed
  rw [shape] at place
  rcases List.mem_append.mp place with before | after
  · have unlike := fresh other before
    rw [same] at unlike
    simp at unlike
  · rcases List.mem_cons.mp after with rfl | behind
    · exact Std.ReflCmp.isLE_rfl
    · exact (List.pairwise_cons.mp (List.pairwise_append.mp sorted).2.1).1 other behind

private theorem LeastOfKey.of_perm {other : List NormalizedSymbol} {symbol : NormalizedSymbol} (least : LeastOfKey other symbol)
    (perm : other.Perm symbols) : LeastOfKey symbols symbol :=
  fun one member => least one (perm.mem_iff.mpr member)

private theorem Separated.canonical (separated : Separated symbols) (indexed : converter.Indexed)
    (over_ : ∀ symbol ∈ symbols, symbol.Over converter) : Canonical symbols := by
  refine ⟨fun other perm => ?_, candidates_pairwise symbols, separated.contiguous indexed over_ (.refl _), fun key => mem_candidate_keys⟩
  have distinct := separated.contiguous indexed over_ perm
  have distinct' := separated.contiguous indexed over_ (.refl symbols)
  -- both lists have the first symbol of every key
  have kept : ∀ symbol, symbol ∈ prepareCandidates other ↔ symbol ∈ prepareCandidates symbols := by
    intro symbol
    constructor
    · intro member
      have listed := perm.mem_iff.mp (mem_of_mem_prepareCandidates member)
      obtain ⟨one, found, same⟩ := List.mem_map.mp (mem_candidate_keys.mpr (List.mem_map_of_mem listed))
      have least := candidate_least distinct' found
      obtain rfl := separated.first one (mem_of_mem_prepareCandidates found) symbol listed same least
        ((candidate_least distinct member).of_perm perm)
      exact found
    · intro member
      have listed := mem_of_mem_prepareCandidates member
      obtain ⟨one, found, same⟩ := List.mem_map.mp (mem_candidate_keys.mpr (List.mem_map_of_mem (perm.mem_iff.mpr listed)))
      have least := (candidate_least distinct found).of_perm perm
      obtain rfl := separated.first one (perm.mem_iff.mp (mem_of_mem_prepareCandidates found)) symbol listed same least
        (candidate_least distinct' member)
      exact found
  have same : (prepareCandidates other).Perm (prepareCandidates symbols) :=
    (List.perm_ext_iff_of_nodup distinct.of_map distinct'.of_map).mpr kept
  refine same.eq_of_pairwise (fun left right inLeft inRight first second => ?_) (candidates_pairwise other) (candidates_pairwise symbols)
  by_contra differ
  have inLeft := (kept left).mp inLeft
  have unlike : left.key ≠ right.key := fun keys => differ (List.inj_on_of_nodup_map distinct' inLeft inRight keys)
  have equal : compareSorted left right = .eq := Std.OrientedCmp.isLE_antisymm first second
  have tie := (compareSorted_eq_eq.mp equal).1
  have ranges : left.lspRange ≠ right.lspRange := by
    intro sameRange
    obtain ⟨-, kinds, paths, names⟩ := compareCandidates_eq_eq.mp tie
    exact unlike (by rw [NormalizedSymbol.key, NormalizedSymbol.key, sameRange, kinds, paths, names])
  have listed := mem_of_mem_prepareCandidates inLeft
  have listed' := mem_of_mem_prepareCandidates inRight
  rcases separated.apart left listed right listed' tie ranges with before | after
  · rw [before left listed right listed' rfl rfl] at equal
    cases equal
  · rw [Std.OrientedCmp.eq_comm, after right listed' left listed rfl rfl] at equal
    cases equal

/-- A symbol that may be put first. -/
private theorem perm_cons_erase {symbol : NormalizedSymbol} (listed : symbol ∈ symbols) :
    (symbol :: symbols.erase symbol).Perm symbols :=
  (List.perm_cons_erase listed).symm

private theorem Canonical.separated (canonical : Canonical symbols) : Separated symbols := by
  obtain ⟨same, -, distinct, -⟩ := canonical
  have ordered : ∀ {one other}, one ∈ symbols → other ∈ symbols → one.key ≠ other.key → (compareSorted one other).isLE →
      [one.key, other.key].Sublist ((prepareCandidates symbols).map NormalizedSymbol.key) := by
    intro one other listed listed' differ below
    have rest : other ∈ symbols.erase one :=
      (List.mem_erase_of_ne fun equal => differ (congrArg NormalizedSymbol.key equal.symm)).mpr listed'
    have pair := keys_in_order (sorted_pair below rest) differ
    have moved := same _ (perm_cons_erase listed)
    rw [orderUniqueCandidates, orderUniqueCandidates] at moved
    rwa [moved] at pair
  have strict : ∀ {left right : SymbolKey}, left ≠ right → ¬SortedBefore symbols left right →
      [right, left].Sublist ((prepareCandidates symbols).map NormalizedSymbol.key) := by
    intro left right differ mixed
    simp only [SortedBefore, not_forall] at mixed
    obtain ⟨one, listed, other, listed', rfl, rfl, notLess⟩ := mixed
    refine ordered listed' listed differ.symm ?_
    rw [compareSorted_swap]
    cases compared : compareSorted one other with
    | lt => exact absurd compared notLess
    | eq | gt => rfl
  constructor
  · intro left listed right listed' tie ranges
    have differ : left.key ≠ right.key := fun keys => ranges (congrArg SymbolKey.lspRange keys)
    by_contra mixed
    obtain ⟨first, second⟩ := not_or.mp mixed
    exact distinct.not_pair_sublist differ (strict differ.symm second) (strict differ first)
  · intro left listed right listed' keys least least'
    have kept : ∀ {symbol}, symbol ∈ symbols → LeastOfKey symbols symbol → symbol ∈ prepareCandidates symbols := by
      intro symbol member least
      have first := mem_candidates_of_least (least.of_perm (perm_cons_erase member).symm)
      have moved := same _ (perm_cons_erase member)
      rw [orderUniqueCandidates, orderUniqueCandidates] at moved
      rwa [moved] at first
    exact List.inj_on_of_nodup_map distinct (kept listed least) (kept listed' least') keys

/-- The candidates are canonical exactly when the sort separates the symbols. -/
theorem candidates_canonical_iff (indexed : converter.Indexed) (over_ : ∀ symbol ∈ symbols, symbol.Over converter) :
    Canonical symbols ↔ Separated symbols :=
  ⟨Canonical.separated, fun separated => separated.canonical indexed over_⟩

end Order

/-! ## Ranges that are clamped to one line -/

/-- A symbol whose range ends behind the end of its line. -/
def clampedSymbol (character first last : UInt32) : NormalizedSymbol where
  name := "w"
  detail := none
  kind := .known .variable_
  symbolPath := ["w"]
  lspRange := ⟨⟨0, 0⟩, ⟨0, character⟩⟩
  lspSelectionRange := ⟨⟨0, first⟩, ⟨0, last⟩⟩
  byteRange := ⟨0, 2⟩
  selectionByteRange := ⟨first.toNat, last.toNat⟩

/-- A record that is repeated with another selection, and one that ends elsewhere. -/
def clampedSymbols : List NormalizedSymbol := [clampedSymbol 3 0 1, clampedSymbol 4 0 2, clampedSymbol 3 1 2]

private theorem clampedSymbols_over : ∀ symbol ∈ clampedSymbols, symbol.Over wordConverter := by
  rw [clampedSymbols, List.forall_mem_cons, List.forall_mem_cons, List.forall_mem_singleton]
  exact ⟨⟨⟨0, 0, by decide⟩, ⟨0, 0, by decide⟩, by decide⟩,
    ⟨⟨0, 0, by decide⟩, ⟨0, 0, by decide⟩, by decide⟩,
    ⟨⟨0, 0, by decide⟩, ⟨0, 0, by decide⟩, by decide⟩⟩

/-- The record in between keeps the repeated ones apart, so that both stay. -/
theorem clampedSymbols_not_canonical : (∀ symbol ∈ clampedSymbols, symbol.Over wordConverter) ∧ ¬Canonical clampedSymbols := by
  refine ⟨clampedSymbols_over, fun canonical => ?_⟩
  have repeated : ¬((orderUniqueCandidates clampedSymbols).map NormalizedSymbol.key).Nodup := by decide
  exact repeated canonical.2.2.1

theorem candidates_canonical_iff_example : Canonical clampedSymbols ↔ Separated clampedSymbols :=
  candidates_canonical_iff wordConverter_indexed clampedSymbols_over

end Srcmv.Lsp
