import Srcmv.Model.Cli.Outline
import Srcmv.Soundness.Flattening

/-! # Consistent outlines

The ends of a symbol were converted from positions in the content of lines. The search for the line
of a byte finds these lines again, so that every record is built, with both columns, and its lines
and columns name the bytes of its selector.
-/

namespace Srcmv.Lsp

open Srcmv.Core

/-! ## Work for columns -/

namespace PositionConverter

variable {converter : PositionConverter} {scanned later : ℕ}

private theorem countScalars_charges {text : List Char} {scalars result : ℕ}
    (ran : (converter.countScalars text scalars).run scanned = (.ok result, later)) : later = scanned + text.length := by
  induction text generalizing scalars scanned with
  | nil =>
    rw [countScalars, Conversion.run_pure] at ran
    exact (congrArg Prod.snd ran).symm
  | cons scalar text ih =>
    rw [countScalars] at ran
    obtain ⟨_, between, charged, ran⟩ := Conversion.run_bind_eq_ok.mp ran
    obtain ⟨rfl, -⟩ := run_chargeCodePoint.mp charged
    obtain ⟨next, _, summed, ran⟩ := Conversion.run_bind_eq_ok.mp ran
    obtain ⟨-, rfl⟩ := Conversion.run_ofExcept_eq_ok.mp summed
    rw [ih ran, List.length_cons]
    omega

/-- A column costs at most the scalars of the text. -/
theorem byteToUserLineScalar_charges {offset : ℕ} {place : ℕ × Option ℕ}
    (ran : (converter.byteToUserLineScalar offset).run scanned = (.ok place, later)) : later ≤ scanned + converter.text.length := by
  obtain ⟨bounds, _, lookup, ran⟩ := Conversion.run_bind_eq_ok.mp ran
  obtain ⟨-, rfl⟩ := Conversion.run_ofExcept_eq_ok.mp lookup
  split_ifs at ran with beyond
  · rw [Conversion.run_pure] at ran
    have same : scanned = later := congrArg Prod.snd ran
    omega
  · obtain ⟨column, between, scannedColumn, ran⟩ := Conversion.run_bind_eq_ok.mp ran
    have same : between = later := congrArg Prod.snd ran
    subst same
    rw [scalarColumnBefore] at scannedColumn
    split_ifs at scannedColumn with outside
    · rw [Conversion.run_throw] at scannedColumn
      cases scannedColumn
    cases found : Utf8.get converter.text bounds.start offset with
    | none =>
      rw [found] at scannedColumn
      cases scannedColumn
    | some front =>
      rw [found] at scannedColumn
      obtain ⟨scalars, _, counted, summed⟩ := Conversion.run_bind_eq_ok.mp scannedColumn
      obtain ⟨-, rfl⟩ := Conversion.run_ofExcept_eq_ok.mp summed
      obtain ⟨before, after, shape, -, -⟩ := Utf8.get_eq_some_iff.mp found
      have length := congrArg List.length shape
      rw [List.length_append, List.length_append] at length
      have charged := countScalars_charges counted
      omega

/-- The byte of a server position has a line and a column, which name it. -/
theorem lspPositionToByte_returns (indexed : converter.Indexed) {position : Position} {spent after offset : ℕ}
    (ran : (converter.lspPositionToByte position).run spent = (.ok offset, after))
    (budget : converter.Sufficient scanned converter.text.length) :
    ∃ column last, (converter.byteToUserLineScalar offset).run scanned = (.ok (position.line.toNat + 1, some column), last) ∧
      ∀ other, converter.Sufficient other converter.text.length →
        ∃ last, (converter.userLineScalarToByte (position.line.toNat + 1) column).run other = (.ok offset, last) := by
  obtain ⟨before, content, terminator, rest, front, back, part, covers, rfl⟩ := lspPositionToByte_ok indexed ran
  obtain ⟨last, found⟩ := byteToUserLineScalar_succeeds indexed part covers.split budget
  exact ⟨_, last, found, fun _ enough => userLineScalarToByte_succeeds indexed part covers.split enough⟩

end PositionConverter

/-! ## Normalized symbols -/

section Normalized

variable {converter : PositionConverter} {limits : SymbolLimits} {scanned later : ℕ}

theorem visitSymbol_over {pending : PendingSymbol} {height : ℕ} {flattening next : Flattening}
    (known : ∀ symbol ∈ flattening.normalized, symbol.Over converter)
    (ran : (visitSymbol converter limits height flattening pending).run scanned = (.ok next, later)) :
    ∀ symbol ∈ next.normalized, symbol.Over converter := by
  obtain ⟨-, bytes, selection, between, converted, selected, contained, -, -, -, rfl⟩ := visitSymbol_eq_ok.mp ran
  dsimp only
  rw [List.forall_mem_append, List.forall_mem_singleton]
  exact ⟨known, ⟨_, _, converted⟩, ⟨_, _, selected⟩, contained⟩

theorem flattenFrom_over {stack : List PendingSymbol} {flattening : Flattening} {symbols : List NormalizedSymbol}
    (known : ∀ symbol ∈ flattening.normalized, symbol.Over converter)
    (ran : (flattenFrom converter limits stack flattening).run scanned = (.ok symbols, later)) :
    ∀ symbol ∈ symbols, symbol.Over converter := by
  induction stack, flattening using flattenFrom.induct generalizing scanned with
  | case1 flattening =>
    rw [flattenFrom] at ran
    obtain ⟨rfl, -⟩ := Normalizing.run_pure_eq_ok.mp ran
    exact known
  | case2 flattening pending rest ih =>
    rw [flattenFrom] at ran
    obtain ⟨next, between, visited, ran⟩ := Normalizing.run_bind_eq_ok.mp ran
    exact ih next (visitSymbol_over known visited) ran

/-- Whatever was normalized lies over the bytes of its server ranges. -/
theorem normalizeHierarchicalSymbols_over {roots : List DocumentSymbol} {symbols : List NormalizedSymbol}
    (ran : (normalizeHierarchicalSymbols roots converter limits).run scanned = (.ok symbols, later)) :
    ∀ symbol ∈ symbols, symbol.Over converter := by
  obtain ⟨_, between, -, ran⟩ := Normalizing.run_bind_eq_ok.mp ran
  exact flattenFrom_over (by simp) ran

end Normalized

end Srcmv.Lsp

namespace Srcmv.Cli.Outline

open Srcmv.Core Srcmv.Lsp Srcmv.Protocol

variable {converter : PositionConverter}

theorem run_ofConversion_bind {α β : Type} {conversion : Conversion α} {failure : OutlineErrorDto} {next : α → Outlining β}
    {value : α} {scanned between : ℕ} (converted : conversion.run scanned = (.ok value, between)) :
    (Outlining.ofConversion conversion failure >>= next).run scanned = (next value).run between := by
  refine ExceptT.runFrom_bind_of_ok ?_
  change ((conversion.run scanned).1.mapError _, (conversion.run scanned).2) = _
  rw [converted]
  rfl

/-- Every normalized symbol has a record; its lines are those of the server, and its lines and columns name the bytes of
its selector. -/
theorem outline_coordinates_consistent (indexed : converter.Indexed) {roots : List DocumentSymbol} {limits : SymbolLimits}
    {spent after : ℕ} {symbols : List NormalizedSymbol}
    (normalized : (normalizeHierarchicalSymbols roots converter limits).run spent = (.ok symbols, after))
    {symbol : NormalizedSymbol} (produced : symbol ∈ symbols) {scanned : ℕ}
    (budget : converter.Sufficient scanned (2 * converter.text.length)) :
    ∃ record startColumn endColumn later, (outlineSymbol converter symbol).run scanned = (.ok record, later) ∧
      record.startLine = symbol.lspRange.start.line.toNat + 1 ∧ record.endLine = symbol.lspRange.stop.line.toNat + 1 ∧
      record.startColumn = some startColumn ∧ record.endColumn = some endColumn ∧
      record.selector = ⟨symbol.byteRange.start, symbol.byteRange.stop⟩ ∧
      ∀ other, converter.Sufficient other converter.text.length →
        (∃ last, (converter.userLineScalarToByte record.startLine startColumn).run other = (.ok record.selector.start, last)) ∧
          ∃ last, (converter.userLineScalarToByte record.endLine endColumn).run other = (.ok record.selector.stop, last) := by
  obtain ⟨_, _, ran⟩ := (normalizeHierarchicalSymbols_over normalized symbol produced).converted
  obtain ⟨_, start, stop, -⟩ := PositionConverter.lspRangeToByteRange_eq_ok.mp ran
  rw [PositionConverter.Sufficient] at budget
  obtain ⟨startColumn, between, first, returns⟩ := PositionConverter.lspPositionToByte_returns indexed start
    (show converter.Sufficient scanned _ by rw [PositionConverter.Sufficient]; omega)
  have charged := PositionConverter.byteToUserLineScalar_charges first
  obtain ⟨endColumn, later, second, returns'⟩ := PositionConverter.lspPositionToByte_returns indexed stop
    (show converter.Sufficient between _ by rw [PositionConverter.Sufficient]; omega)
  refine ⟨⟨symbol.name, Select.protocolSymbolKind symbol.kind, symbol.symbolPath, symbol.symbolPath.length - 1, symbol.detail,
    symbol.lspRange.start.line.toNat + 1, some startColumn, symbol.lspRange.stop.line.toNat + 1, some endColumn, symbol.lspRange,
    symbol.lspSelectionRange, ⟨symbol.byteRange.start, symbol.byteRange.stop⟩⟩, startColumn, endColumn, later, ?_, rfl, rfl, rfl, rfl, rfl,
    fun other enough => ⟨returns other enough, returns' other enough⟩⟩
  rw [outlineSymbol, run_ofConversion_bind first]
  dsimp only
  rw [run_ofConversion_bind second]
  rfl

section Example

/-- The function of the word has a record. -/
theorem outline_coordinates_consistent_example : ∃ symbol record later,
    (outlineSymbol wordConverter symbol).run 0 = (.ok record, later) ∧ record.startLine = 1 := by
  have normalized : (normalizeHierarchicalSymbols [wordTree] wordConverter {}).run 0 = (.ok
      [⟨"w", some "", .known .function, ["w"], ⟨⟨0, 0⟩, ⟨0, 2⟩⟩, ⟨⟨0, 0⟩, ⟨0, 1⟩⟩, ⟨0, 2⟩, ⟨0, 1⟩⟩,
        ⟨"v", none, .known .variable_, ["w", "v"], ⟨⟨0, 1⟩, ⟨0, 2⟩⟩, ⟨⟨0, 1⟩, ⟨0, 2⟩⟩, ⟨1, 2⟩, ⟨1, 2⟩⟩], 0) := by decide +kernel
  obtain ⟨record, _, _, later, built, line, -⟩ := outline_coordinates_consistent wordConverter_indexed normalized
    (List.mem_cons_self ..) (show wordConverter.Sufficient 0 _ by decide)
  exact ⟨_, record, later, built, line⟩

end Example

end Srcmv.Cli.Outline
