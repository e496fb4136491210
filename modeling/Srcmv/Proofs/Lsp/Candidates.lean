import Srcmv.Proofs.Lsp.Extents
import Srcmv.Proofs.Lsp.Ranges
import Srcmv.ToMathlib.Except
import Srcmv.ToMathlib.Runs

/-! # Candidates

The comparators are orders, and candidates are what is left of the sorted symbols once runs of one
key are collapsed.
-/

namespace Srcmv.Lsp

open Srcmv.Core

/-! ## Comparators -/

instance : Std.TransCmp compareRanges :=
  have := Comparator.transCmp_comap (compare (α := ℕ)) ByteRange.start
  have := Comparator.transCmp_comap (compare (α := ℕ)) ByteRange.stop
  Comparator.transCmp_then (fun left right : ByteRange => compare left.start right.start) fun left right => compare left.stop right.stop

instance : Std.TransCmp compareKinds :=
  have := Comparator.transCmp_comap (compare (α := String)) NormalizedSymbolKind.asStr
  have := Comparator.transCmp_comap (compare (α := ℕ)) NormalizedSymbolKind.numeric
  Comparator.transCmp_then (fun left right : NormalizedSymbolKind => compare left.asStr right.asStr) fun left right => compare left.numeric right.numeric

instance : Std.TransCmp compareCandidates :=
  have := Comparator.transCmp_comap compareRanges NormalizedSymbol.byteRange
  have := Comparator.transCmp_comap compareKinds NormalizedSymbol.kind
  have := Comparator.transCmp_comap (compare (α := List String)) NormalizedSymbol.symbolPath
  have := Comparator.transCmp_comap (compare (α := String)) NormalizedSymbol.name
  have := Comparator.transCmp_then (fun left right : NormalizedSymbol => compare left.symbolPath right.symbolPath)
    fun left right => compare left.name right.name
  have := Comparator.transCmp_then (fun left right : NormalizedSymbol => compareKinds left.kind right.kind)
    fun left right => (compare left.symbolPath right.symbolPath).then (compare left.name right.name)
  Comparator.transCmp_then (fun left right : NormalizedSymbol => compareRanges left.byteRange right.byteRange) _

instance : Std.TransCmp compareSorted :=
  have := Comparator.transCmp_comap compareRanges NormalizedSymbol.selectionByteRange
  have := Comparator.transCmp_comap (compare (α := Option String)) NormalizedSymbol.detail
  have := Comparator.transCmp_then (fun left right : NormalizedSymbol => compareRanges left.selectionByteRange right.selectionByteRange)
    fun left right => compare left.detail right.detail
  Comparator.transCmp_then compareCandidates _

theorem compareRanges_eq_eq {left right : ByteRange} : compareRanges left right = .eq ↔ left = right := by
  rw [compareRanges, Ordering.then_eq_eq, compare_eq_iff_eq, compare_eq_iff_eq, ByteRange.mk.injEq]

/-- No standardized kind is spelled like an unknown one, and their numbers differ. -/
theorem compareKinds_eq_eq {left right : NormalizedSymbolKind} : compareKinds left right = .eq ↔ left = right := by
  rw [compareKinds, Ordering.then_eq_eq, compare_eq_iff_eq, compare_eq_iff_eq]
  constructor
  · rintro ⟨spelled, numbered⟩
    cases left with
    | known kind =>
      cases right with
      | known other => revert spelled; cases kind <;> cases other <;> decide
      | unknown value => revert spelled; cases kind <;> simp [NormalizedSymbolKind.asStr, KnownSymbolKind.asStr]
    | unknown value =>
      cases right with
      | known other => revert spelled; cases other <;> simp [NormalizedSymbolKind.asStr, KnownSymbolKind.asStr]
      | unknown other => rw [UInt32.toNat_inj.mp numbered]
  · rintro rfl
    exact ⟨rfl, rfl⟩

theorem compareCandidates_eq_eq {left right : NormalizedSymbol} : compareCandidates left right = .eq ↔
    left.byteRange = right.byteRange ∧ left.kind = right.kind ∧ left.symbolPath = right.symbolPath ∧ left.name = right.name := by
  rw [compareCandidates, Ordering.then_eq_eq, Ordering.then_eq_eq, Ordering.then_eq_eq, compareRanges_eq_eq, compareKinds_eq_eq,
    Std.compare_eq_iff_eq, compare_eq_iff_eq]

theorem compareSorted_eq_eq {left right : NormalizedSymbol} : compareSorted left right = .eq ↔
    compareCandidates left right = .eq ∧ left.selectionByteRange = right.selectionByteRange ∧ left.detail = right.detail := by
  rw [compareSorted, Ordering.then_eq_eq, Ordering.then_eq_eq, compareRanges_eq_eq, Std.compare_eq_iff_eq]

/-! ## The key of duplicates -/

/-- What makes two records of a server one symbol. -/
structure SymbolKey where
  lspRange : Range
  kind : NormalizedSymbolKind
  symbolPath : List String
  name : String
deriving DecidableEq

def NormalizedSymbol.key (symbol : NormalizedSymbol) : SymbolKey :=
  ⟨symbol.lspRange, symbol.kind, symbol.symbolPath, symbol.name⟩

theorem duplicateKeyEqual_eq_false {left right : NormalizedSymbol} :
    duplicateKeyEqual right left = false ↔ left.key ≠ right.key := by
  rw [← Bool.not_eq_true, duplicateKeyEqual, NormalizedSymbol.key, NormalizedSymbol.key, ne_eq, SymbolKey.mk.injEq]
  simp only [Bool.and_eq_true, decide_eq_true_eq, and_assoc]
  rw [eq_comm (a := right.lspRange), eq_comm (a := right.kind), eq_comm (a := right.symbolPath), eq_comm (a := right.name)]

/-- The symbols in the order of the stable sort. -/
def sortCandidates (symbols : List NormalizedSymbol) : List NormalizedSymbol :=
  symbols.insertionSort fun left right => (compareSorted left right).isLE

theorem prepareCandidates_eq (symbols : List NormalizedSymbol) :
    prepareCandidates symbols = (sortCandidates symbols).destutter fun left right => left.key ≠ right.key := by
  rw [prepareCandidates, sortCandidates]
  congr! 1
  funext left right
  rw [duplicateKeyEqual_eq_false]

theorem sortCandidates_perm (symbols : List NormalizedSymbol) : (sortCandidates symbols).Perm symbols :=
  List.perm_insertionSort _ symbols

theorem sortCandidates_pairwise (symbols : List NormalizedSymbol) :
    (sortCandidates symbols).Pairwise fun left right => (compareSorted left right).isLE :=
  Comparator.pairwise_sort compareSorted symbols

theorem prepareCandidates_sublist (symbols : List NormalizedSymbol) : (prepareCandidates symbols).Sublist (sortCandidates symbols) := by
  rw [prepareCandidates_eq]
  exact List.destutter_sublist _ _

theorem mem_of_mem_prepareCandidates {symbols : List NormalizedSymbol} {symbol : NormalizedSymbol}
    (member : symbol ∈ prepareCandidates symbols) : symbol ∈ symbols :=
  (sortCandidates_perm symbols).mem_iff.mp ((prepareCandidates_sublist symbols).subset member)

/-- The keys of the candidates are the runs of the sorted keys. -/
theorem prepareCandidates_keys (symbols : List NormalizedSymbol) : (prepareCandidates symbols).map NormalizedSymbol.key =
    ((sortCandidates symbols).map NormalizedSymbol.key).destutter (· ≠ ·) := by
  rw [prepareCandidates_eq]
  exact List.map_destutter fun _ _ _ _ => Iff.rfl

/-! ## Symbols of a text -/

/-- The byte ranges of a symbol are those of its ranges in the text. -/
structure NormalizedSymbol.Over (converter : PositionConverter) (symbol : NormalizedSymbol) : Prop where
  converted : converter.Converts symbol.lspRange symbol.byteRange
  revealed : converter.Converts symbol.lspSelectionRange symbol.selectionByteRange
  contained : rangeContains symbol.byteRange symbol.selectionByteRange = true

section Over

variable {converter : PositionConverter} {left right symbol : NormalizedSymbol}

theorem NormalizedSymbol.Over.byteRange_eq (over_ : left.Over converter) (other : right.Over converter) (indexed : converter.Indexed)
    (same : left.lspRange = right.lspRange) : left.byteRange = right.byteRange :=
  (same ▸ over_.converted).unique indexed other.converted

/-- Records of one key are compared like the rest of their sort keys. -/
theorem NormalizedSymbol.Over.compareCandidates_eq (over_ : left.Over converter) (other : right.Over converter)
    (indexed : converter.Indexed) (same : left.key = right.key) : compareCandidates left right = .eq := by
  rw [NormalizedSymbol.key, NormalizedSymbol.key, SymbolKey.mk.injEq] at same
  exact compareCandidates_eq_eq.mpr ⟨over_.byteRange_eq other indexed same.1, same.2⟩

theorem NormalizedSymbol.Over.validRange (over_ : symbol.Over converter) (indexed : converter.Indexed) :
    ValidRange converter.text symbol.byteRange := by
  obtain ⟨_, _, ran⟩ := over_.converted
  obtain ⟨_, start, stop, nonempty, bounded⟩ := PositionConverter.lspRangeToByteRange_eq_ok.mp ran
  exact ⟨nonempty, bounded, PositionConverter.lspPositionToByte_isCharBoundary indexed start,
    PositionConverter.lspPositionToByte_isCharBoundary indexed stop⟩

end Over

end Srcmv.Lsp
