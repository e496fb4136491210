import Srcmv.Proofs.Lsp.Candidates

/-! # Unique lookup at a position

Listing all matches at a position and asking for the only one resolve the same candidates. The unique
lookup keeps those of least length, which are together once the candidates are sorted by length.
-/

namespace Srcmv.Lsp

open Srcmv.Core

/-- The matches of least length. -/
def leastMatches (found : List SymbolMatch) : List SymbolMatch :=
  found.filter fun one => found.all fun other => rangeLength one.symbolRange ≤ rangeLength other.symbolRange

/-- Candidates sorted by length. -/
private def sortShortest (candidates : List NormalizedSymbol) : List NormalizedSymbol :=
  candidates.insertionSort fun left right =>
    ((compare (rangeLength left.byteRange) (rangeLength right.byteRange)).then (compareCandidates left right)).isLE

private theorem sortShortest_pairwise (candidates : List NormalizedSymbol) :
    (sortShortest candidates).Pairwise fun left right => rangeLength left.byteRange ≤ rangeLength right.byteRange := by
  have := Comparator.transCmp_comap (compare (α := ℕ)) fun symbol : NormalizedSymbol => rangeLength symbol.byteRange
  have := Comparator.transCmp_then (fun left right : NormalizedSymbol =>
    compare (rangeLength left.byteRange) (rangeLength right.byteRange)) compareCandidates
  have sorted := Comparator.pairwise_sort (fun left right : NormalizedSymbol =>
    (compare (rangeLength left.byteRange) (rangeLength right.byteRange)).then (compareCandidates left right)) candidates
  refine sorted.imp fun {left right} ordered => ?_
  by_contra longer
  have greater : compare (rangeLength left.byteRange) (rangeLength right.byteRange) = .gt := compare_gt_iff_gt.mpr (not_le.mp longer)
  rw [greater] at ordered
  cases ordered

/-- The shortest candidates begin with the first of the sorted ones. -/
private theorem shortestCandidates_cases (candidates : List NormalizedSymbol) :
    candidates = [] ∧ shortestCandidates candidates = [] ∨ ∃ first rest, sortShortest candidates = first :: rest ∧
      shortestCandidates candidates = (first :: rest).takeWhile fun candidate : NormalizedSymbol =>
        rangeLength candidate.byteRange = rangeLength first.byteRange := by
  cases shape : sortShortest candidates with
  | nil =>
    have perm : (sortShortest candidates).Perm candidates := List.perm_insertionSort _ candidates
    rw [shape] at perm
    rw [List.nil_perm.mp perm]
    exact .inl ⟨rfl, rfl⟩
  | cons first rest =>
    refine .inr ⟨first, rest, rfl, ?_⟩
    rw [shortestCandidates]
    rw [sortShortest] at shape
    rw [shape]

private theorem shortestCandidates_eq_nil {candidates : List NormalizedSymbol} : shortestCandidates candidates = [] ↔ candidates = [] := by
  rcases shortestCandidates_cases candidates with ⟨rfl, shape⟩ | ⟨first, rest, found, shape⟩
  · rw [shape]
  · constructor
    · intro empty
      rw [shape, List.takeWhile_cons_of_pos (by simp)] at empty
      cases empty
    · rintro rfl
      cases found

/-- The shortest candidates, in another order. -/
private theorem shortestCandidates_perm (candidates : List NormalizedSymbol) : (shortestCandidates candidates).Perm
    (candidates.filter fun one => candidates.all fun other => rangeLength one.byteRange ≤ rangeLength other.byteRange) := by
  have perm : (sortShortest candidates).Perm candidates := List.perm_insertionSort _ candidates
  have sorted := sortShortest_pairwise candidates
  rcases shortestCandidates_cases candidates with ⟨rfl, shape⟩ | ⟨first, rest, found, shape⟩
  · rw [shape]
    exact .nil
  · rw [found] at perm sorted
    rw [shape]
    have least : ∀ other ∈ candidates, rangeLength first.byteRange ≤ rangeLength other.byteRange := by
      intro other member
      rcases List.mem_cons.mp (perm.mem_iff.mpr member) with rfl | later
      · exact le_rfl
      · exact (List.pairwise_cons.mp sorted).1 other later
    have listed : first ∈ candidates := perm.mem_iff.mp List.mem_cons_self
    rw [List.takeWhile_eq_filter_of_pairwise (fun symbol : NormalizedSymbol => rangeLength symbol.byteRange) sorted]
    refine (perm.filter _).trans (.of_eq (List.filter_congr fun candidate _ => ?_))
    rw [Bool.eq_iff_iff, decide_eq_true_eq, List.all_eq_true]
    constructor
    · intro same other member
      rw [decide_eq_true_eq, same]
      exact least other member
    · intro below
      exact le_antisymm (of_decide_eq_true (below first listed)) (least candidate ‹_›)

section Query

variable (text : List Char) (symbols : List NormalizedSymbol) (byteOffset : ℕ) (kind : Option KnownSymbolKind)
  (extent : SelectionExtent) (limits : SymbolLimits)

/-- The candidates at a position. -/
private def candidatesAt : List NormalizedSymbol :=
  prepareCandidates (symbols.filter fun symbol =>
    kindMatches symbol.kind kind && containsPosition symbol.byteRange byteOffset (Utf8.size text))

variable {text symbols byteOffset kind extent limits} {converter : PositionConverter}

private theorem resolvePosition_eq (inside : byteOffset ≤ Utf8.size text) (boundary : Utf8.isCharBoundary text byteOffset = true)
    (mode : MatchMode) : resolvePosition symbols text byteOffset kind extent mode limits =
      finishResolution (if mode = .unique then shortestCandidates (candidatesAt text symbols byteOffset kind)
        else candidatesAt text symbols byteOffset kind) text extent mode limits :=
  if_neg (by simp [inside, boundary])

private theorem select_ok {symbol : NormalizedSymbol} {found : SymbolMatch} (selected : symbol.select text extent = .ok found) :
    found.symbolRange = symbol.byteRange := by
  obtain ⟨range, -, built⟩ := Except.bind_eq_ok.mp selected
  obtain rfl := Except.pure_eq_ok.mp built
  rfl

/-- What a valid symbol is selected as. -/
private theorem select_succeeds {symbol : NormalizedSymbol} (extent : SelectionExtent) (valid : ValidRange text symbol.byteRange) :
    ∃ found, symbol.select text extent = .ok found := by
  obtain ⟨range, applied⟩ := applyExtent_succeeds valid extent
  exact ⟨_, Except.bind_eq_ok.mpr ⟨range, applied, rfl⟩⟩

private theorem mapM_select {candidates : List NormalizedSymbol} (extent : SelectionExtent)
    (valid : ∀ symbol ∈ candidates, ValidRange text symbol.byteRange) :
    ∃ chosen : NormalizedSymbol → SymbolMatch, (∀ symbol ∈ candidates, (chosen symbol).symbolRange = symbol.byteRange) ∧
      ∀ some_ : List NormalizedSymbol, (∀ symbol ∈ some_, symbol ∈ candidates) →
        (some_.mapM fun symbol => symbol.select text extent) = .ok (some_.map chosen) := by
  have chosen : ∀ symbol : NormalizedSymbol, ∃ found, symbol ∈ candidates → symbol.select text extent = .ok found := by
    intro symbol
    by_cases member : symbol ∈ candidates
    · obtain ⟨found, selected⟩ := select_succeeds extent (valid symbol member)
      exact ⟨found, fun _ => selected⟩
    · exact ⟨⟨"", none, symbol.kind, [], symbol.lspRange, symbol.lspRange, symbol.byteRange, symbol.byteRange, extent⟩,
        fun listed => absurd listed member⟩
  choose chosen selected using chosen
  refine ⟨chosen, fun symbol member => select_ok (selected symbol member), fun some_ within => ?_⟩
  induction some_ with
  | nil => rfl
  | cons symbol rest ih =>
    rw [List.mapM_cons, selected symbol (within symbol List.mem_cons_self), Except.ok_bind,
      ih fun other member => within other (List.mem_cons_of_mem _ member)]
    rfl

/-- Asking for the only symbol at a position agrees with listing all of them. -/
theorem unique_position_agrees (indexed : PositionConverter.Indexed converter)
    (over_ : ∀ symbol ∈ symbols, symbol.Over converter) (inside : byteOffset ≤ Utf8.size converter.text)
    (boundary : Utf8.isCharBoundary converter.text byteOffset = true)
    (unlimited : resolvePosition symbols converter.text byteOffset kind extent .all limits ≠
      .error (resourceError "selection_matches" limits.maximumMatches)) :
    ∃ found, resolvePosition symbols converter.text byteOffset kind extent .all limits = .ok found ∧
      (resolvePosition symbols converter.text byteOffset kind extent .unique limits = .error .notFound ↔ found = []) ∧
      (∀ only, resolvePosition symbols converter.text byteOffset kind extent .unique limits = .ok only ↔
        leastMatches found = only ∧ only.length = 1) ∧
      (∀ total, (∃ candidates, resolvePosition symbols converter.text byteOffset kind extent .unique limits =
          .error (.ambiguous total candidates)) ↔ total = (leastMatches found).length ∧ 1 < total) ∧
      ∀ one ∈ found, one.symbolRange.start ≤ byteOffset ∧ byteOffset < one.symbolRange.stop ∨
        byteOffset = Utf8.size converter.text ∧ one.symbolRange.stop = byteOffset := by
  rw [resolvePosition_eq inside boundary] at unlimited
  rw [resolvePosition_eq inside boundary, resolvePosition_eq inside boundary, if_pos rfl, if_neg (by decide)] at *
  have contained : ∀ symbol ∈ candidatesAt converter.text symbols byteOffset kind, symbol ∈ symbols ∧
      containsPosition symbol.byteRange byteOffset (Utf8.size converter.text) = true := by
    intro symbol member
    obtain ⟨listed, kept⟩ := List.mem_filter.mp (mem_of_mem_prepareCandidates member)
    exact ⟨listed, (Bool.and_eq_true_iff.mp kept).2⟩
  generalize candidatesAt converter.text symbols byteOffset kind = candidates at *
  obtain ⟨chosen, ranges, mapped⟩ := mapM_select extent
    fun symbol member => (over_ symbol (contained symbol member).1).validRange indexed
  have few : ¬candidates.length > limits.maximumMatches.toNat := by
    intro many
    exact unlimited (if_pos ⟨rfl, many⟩)
  have all : finishResolution candidates converter.text extent .all limits = .ok (candidates.map chosen) := by
    rw [finishResolution, if_neg (by simp [few]), if_neg (by simp), if_neg (by simp)]
    exact mapped candidates fun _ member => member
  have perm := shortestCandidates_perm candidates
  -- the least matches are those of the shortest candidates
  have least : leastMatches (candidates.map chosen) = (candidates.filter fun one =>
      candidates.all fun other => rangeLength one.byteRange ≤ rangeLength other.byteRange).map chosen := by
    rw [leastMatches, List.filter_map]
    refine congrArg (List.map chosen) (List.filter_congr fun one member => ?_)
    rw [Function.comp_apply, List.all_map, ranges one member]
    refine Bool.eq_iff_iff.mpr ?_
    rw [List.all_eq_true, List.all_eq_true]
    refine forall₂_congr fun other listed => ?_
    rw [Function.comp_apply, ranges other listed]
  have length : (leastMatches (candidates.map chosen)).length = (shortestCandidates candidates).length := by
    rw [least, List.length_map, perm.length_eq]
  have within : ∀ symbol ∈ shortestCandidates candidates, symbol ∈ candidates :=
    fun symbol member => List.mem_of_mem_filter (perm.mem_iff.mp member)
  have unique : finishResolution (shortestCandidates candidates) converter.text extent .unique limits =
      if shortestCandidates candidates = [] then .error .notFound
      else if (shortestCandidates candidates).length > 1 then
        .error (.ambiguous (shortestCandidates candidates).length
          (((shortestCandidates candidates).take limits.maximumAmbiguityCandidates.toNat).map fun symbol =>
            ⟨symbol.name, symbol.kind, symbol.symbolPath, symbol.byteRange⟩))
      else .ok ((shortestCandidates candidates).map chosen) := by
    rw [finishResolution, if_neg (by simp), mapped _ within]
    simp
  refine ⟨candidates.map chosen, all, ?_, ?_, ?_, ?_⟩
  · rw [unique, List.map_eq_nil_iff, ← @shortestCandidates_eq_nil candidates]
    split_ifs with empty <;> simp [empty]
  · intro only
    rw [unique]
    by_cases single : (shortestCandidates candidates).length = 1
    · obtain ⟨symbol, shape⟩ := List.length_eq_one_iff.mp single
      rw [shape] at perm
      rw [shape, if_neg (by simp), if_neg (by simp), least, ← List.singleton_perm.mp perm, Except.ok.injEq]
      constructor
      · rintro rfl
        exact ⟨rfl, rfl⟩
      · exact fun same => same.1
    · constructor
      · intro accepted
        split_ifs at accepted with empty many
        have := List.length_pos_iff.mpr empty
        omega
      · rintro ⟨rfl, one⟩
        exact absurd (length.symm.trans one) single
  · intro total
    rw [unique, length]
    constructor
    · rintro ⟨listed, failed⟩
      split_ifs at failed with empty many
      · cases failed
      · have same := (SymbolError.ambiguous.inj (Except.error.inj failed)).1
        exact ⟨same.symm, same ▸ many⟩
    · rintro ⟨rfl, many⟩
      exact ⟨_, (if_neg (List.ne_nil_of_length_pos (by omega))).trans (if_pos many)⟩
  · intro one member
    obtain ⟨symbol, listed, rfl⟩ := List.mem_map.mp member
    rw [ranges symbol listed]
    have at_ := (contained symbol listed).2
    rw [containsPosition] at at_
    simp only [Bool.or_eq_true, Bool.and_eq_true, decide_eq_true_eq] at at_
    rcases at_ with between | ⟨⟨last, stop⟩, -⟩
    · exact .inl between
    · exact .inr ⟨last, stop.trans last.symm⟩

end Query

section Example

/-- A word of two letters. -/
def wordConverter : PositionConverter := ⟨"ab".toList, ⟨[2]⟩, .utf8, {}⟩

theorem wordConverter_indexed : wordConverter.Indexed := ⟨⟨1, 8, by decide⟩, by decide⟩

/-- A symbol for the first letters of the word. -/
def wordSymbol (letters : UInt32) : NormalizedSymbol where
  name := "w"
  detail := none
  kind := .known .variable_
  symbolPath := ["w"]
  lspRange := ⟨⟨0, 0⟩, ⟨0, letters⟩⟩
  lspSelectionRange := ⟨⟨0, 0⟩, ⟨0, 1⟩⟩
  byteRange := ⟨0, letters.toNat⟩
  selectionByteRange := ⟨0, 1⟩

theorem wordSymbol_over : (wordSymbol 1).Over wordConverter ∧ (wordSymbol 2).Over wordConverter :=
  ⟨⟨⟨0, 0, by decide⟩, ⟨0, 0, by decide⟩, by decide⟩,
    ⟨⟨0, 0, by decide⟩, ⟨0, 0, by decide⟩, by decide⟩⟩

/-- Of the two symbols around the first letter the shorter one is unique. -/
theorem unique_position_agrees_example : ∃ found,
    resolvePosition [wordSymbol 2, wordSymbol 1] "ab".toList 0 none .symbol .all {} = .ok found ∧
      ∀ only, resolvePosition [wordSymbol 2, wordSymbol 1] "ab".toList 0 none .symbol .unique {} = .ok only ↔
        leastMatches found = only ∧ only.length = 1 := by
  have agrees := @unique_position_agrees [wordSymbol 2, wordSymbol 1] 0 none .symbol {} wordConverter wordConverter_indexed
    (by simpa using wordSymbol_over.symm) (Nat.zero_le _) (by decide) (by decide)
  obtain ⟨found, listed, -, only, -⟩ := agrees
  exact ⟨found, listed, only⟩

end Example

end Srcmv.Lsp
