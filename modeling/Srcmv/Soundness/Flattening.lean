import Srcmv.Soundness.PositionQueries

/-! # Flattened forests

The loop over a stack does what the recursion over the forest does. Every symbol is visited once, in
preorder, with the names above it; the symbols that wait on the stack are counted early, but all of
them belong to the forest.
-/

namespace Srcmv.Lsp

open Srcmv.Core

/-- A symbol with the names from its root to itself. -/
structure PlacedSymbol where
  path : List String
  symbol : DocumentSymbol

namespace PlacedSymbol

def depth (placed : PlacedSymbol) : ℕ := placed.path.length

def pathBytes (placed : PlacedSymbol) : ℕ := (placed.path.map textBytes).sum

/-- Bytes of the strings of a flattened symbol, whose name is owned twice. -/
def ownedBytes (placed : PlacedSymbol) : ℕ :=
  2 * textBytes placed.symbol.name + (placed.symbol.detail.map textBytes).getD 0 + placed.pathBytes

end PlacedSymbol

mutual

/-- The symbols of a tree below the given names: each before its children, and these in order. -/
def DocumentSymbol.preorder (above : List String) : DocumentSymbol → List PlacedSymbol
  | ⟨name, detail, kind, range, selectionRange, children⟩ =>
      ⟨above ++ [name], ⟨name, detail, kind, range, selectionRange, children⟩⟩ :: childrenPreorder (above ++ [name]) children

def childrenPreorder (above : List String) : Option (List DocumentSymbol) → List PlacedSymbol
  | none => []
  | some children => forestPreorder above children

def forestPreorder (above : List String) : List DocumentSymbol → List PlacedSymbol
  | [] => []
  | root :: rest => root.preorder above ++ forestPreorder above rest

end

/-- A symbol that is well formed and within the limits of a single symbol. -/
structure PlacedSymbol.Acceptable (converter : PositionConverter) (limits : SymbolLimits) (placed : PlacedSymbol) : Prop where
  named : placed.symbol.name ≠ ""
  wire : wireRangeIsValid placed.symbol.range ∧ wireRangeIsValid placed.symbol.selectionRange
  converts : ∃ bytes selection, converter.Converts placed.symbol.range bytes ∧
    converter.Converts placed.symbol.selectionRange selection ∧ rangeContains bytes selection
  name_le : textBytes placed.symbol.name ≤ limits.maximumNameBytes.toNat
  detail_le : ∀ detail ∈ placed.symbol.detail, textBytes detail ≤ limits.maximumDetailBytes.toNat
  path_le : placed.pathBytes ≤ limits.maximumPathBytes.toNat
  depth_le : placed.depth ≤ limits.maximumDepth.toNat

/-- A flattened symbol keeps the data of its node, and has its path and its bytes. -/
structure PlacedSymbol.Normalizes (converter : PositionConverter) (placed : PlacedSymbol) (symbol : NormalizedSymbol) : Prop where
  name : symbol.name = placed.symbol.name
  detail : symbol.detail = placed.symbol.detail
  kind : symbol.kind = placed.symbol.kind
  symbolPath : symbol.symbolPath = placed.path
  lspRange : symbol.lspRange = placed.symbol.range
  lspSelectionRange : symbol.lspSelectionRange = placed.symbol.selectionRange
  byteRange : converter.Converts placed.symbol.range symbol.byteRange
  selectionByteRange : converter.Converts placed.symbol.selectionRange symbol.selectionByteRange

/-! ## The stack as a forest -/

theorem forestPreorder_eq (above : List String) (forest : List DocumentSymbol) :
    forestPreorder above forest = forest.flatMap (DocumentSymbol.preorder above) := by
  induction forest with
  | nil => rfl
  | cons root rest ih => rw [forestPreorder, ih, List.flatMap_cons]

theorem DocumentSymbol.preorder_eq (above : List String) (symbol : DocumentSymbol) :
    symbol.preorder above = ⟨above ++ [symbol.name], symbol⟩ ::
      (symbol.children.getD []).flatMap (DocumentSymbol.preorder (above ++ [symbol.name])) := by
  obtain ⟨name, detail, kind, range, selectionRange, children⟩ := symbol
  rw [DocumentSymbol.preorder]
  cases children with
  | none => rfl
  | some children => rw [childrenPreorder, forestPreorder_eq]; rfl

namespace PendingSymbol

def placed (pending : PendingSymbol) : PlacedSymbol := ⟨pending.pathNode.reverse, pending.symbol⟩

/-- The running values of a waiting symbol are those of its place. -/
structure Placed (pending : PendingSymbol) : Prop where
  parentPathBytes : pending.parentPathBytes = (pending.parentPath.map textBytes).sum
  depth : pending.depth = pending.parentPath.length + 1
  named : "" ∉ pending.parentPath

/-- The symbols at and below a waiting symbol. -/
def preorder (pending : PendingSymbol) : List PlacedSymbol := pending.symbol.preorder pending.parentPath.reverse

variable {pending : PendingSymbol}

theorem preorder_eq (pending : PendingSymbol) :
    pending.preorder = pending.placed :: pending.childrenPending.flatMap preorder := by
  rw [preorder, DocumentSymbol.preorder_eq, childrenPending, List.flatMap_map, placed, pathNode, List.reverse_cons]
  congr 2
  funext child
  rw [preorder, List.reverse_cons]

theorem Placed.pathBytes_eq (isPlaced : pending.Placed) : pending.pathBytes = pending.placed.pathBytes := by
  rw [pathBytes, PlacedSymbol.pathBytes, placed, pathNode, isPlaced.parentPathBytes, List.map_reverse, List.sum_reverse,
    List.map_cons, List.sum_cons, Nat.add_comm]

theorem Placed.depth_eq (isPlaced : pending.Placed) : pending.depth = pending.placed.depth := by
  rw [PlacedSymbol.depth, placed, List.length_reverse, pathNode, List.length_cons, isPlaced.depth]

theorem Placed.ownedBytes_eq (isPlaced : pending.Placed) : pending.ownedBytes = pending.placed.ownedBytes := by
  rw [ownedBytes, PlacedSymbol.ownedBytes, ← isPlaced.pathBytes_eq, placed, two_mul]

/-- The children of a named symbol are placed below it. -/
theorem Placed.children (isPlaced : pending.Placed) (named : pending.symbol.name ≠ "") :
    ∀ child ∈ pending.childrenPending, child.Placed := by
  intro child member
  rw [childrenPending, List.mem_map] at member
  obtain ⟨symbol, -, rfl⟩ := member
  refine ⟨?_, ?_, ?_⟩
  · dsimp only
    rw [pathBytes, pathNode, isPlaced.parentPathBytes, List.map_cons, List.sum_cons, Nat.add_comm]
  · dsimp only
    rw [pathNode, List.length_cons, isPlaced.depth]
  · intro unnamed
    rcases List.mem_cons.mp unnamed with same | above
    · exact named same.symm
    · exact isPlaced.named above

end PendingSymbol

theorem textBytes_pos {text : String} (named : text ≠ "") : 0 < textBytes text := by
  rw [textBytes]
  cases scalars : text.toList with
  | nil => exact absurd (String.toList_inj.mp (scalars.trans String.toList_empty.symm)) named
  | cons scalar rest =>
    rw [Utf8.size_cons]
    have := scalar.utf8Size_pos
    omega

/-- Named parts take a byte each. -/
theorem length_le_pathBytes {path : List String} (named : "" ∉ path) : path.length ≤ (path.map textBytes).sum := by
  induction path with
  | nil => exact Nat.zero_le _
  | cons name rest ih =>
    rw [List.mem_cons, not_or] at named
    have first := textBytes_pos (Ne.symm named.1)
    have others := ih named.2
    rw [List.length_cons, List.map_cons, List.sum_cons]
    omega

def stackPreorder (stack : List PendingSymbol) : List PlacedSymbol := stack.flatMap PendingSymbol.preorder

theorem stackPreorder_cons (pending : PendingSymbol) (rest : List PendingSymbol) :
    stackPreorder (pending :: rest) = pending.placed :: stackPreorder (pending.childrenPending ++ rest) := by
  rw [stackPreorder, List.flatMap_cons, PendingSymbol.preorder_eq, stackPreorder, List.flatMap_append, List.cons_append]

/-- Every symbol on the stack is one of the symbols below it. -/
theorem length_le_stackPreorder (stack : List PendingSymbol) : stack.length ≤ (stackPreorder stack).length := by
  induction stack with
  | nil => exact Nat.zero_le _
  | cons pending rest ih =>
    rw [stackPreorder] at ih ⊢
    rw [List.flatMap_cons, PendingSymbol.preorder_eq, List.length_append, List.length_cons, List.length_cons]
    omega

/-! ## One symbol -/

namespace Normalizing

variable {α β : Type} {scanned later : ℕ}

theorem run_bind_eq_ok {normalizing : Normalizing α} {next : α → Normalizing β} {result : β} :
    run (normalizing >>= next) scanned = (.ok result, later) ↔
      ∃ value between, run normalizing scanned = (.ok value, between) ∧ run (next value) between = (.ok result, later) :=
  ExceptT.runFrom_bind_eq_ok

theorem run_pure_eq_ok {value result : α} : run (pure value) scanned = (.ok result, later) ↔ value = result ∧ scanned = later := by
  change ((.ok value, scanned) : Except SymbolError α × ℕ) = _ ↔ _
  rw [Prod.mk.injEq, Except.ok.injEq]

theorem run_ofExcept_eq_ok {result : Except SymbolError α} {value : α} :
    run (ofExcept result) scanned = (.ok value, later) ↔ result = .ok value ∧ scanned = later := by
  rw [← Prod.mk.injEq]
  exact Iff.rfl

theorem run_ofConversion_eq_ok {conversion : Conversion α} {value : α} :
    run (ofConversion conversion) scanned = (.ok value, later) ↔ conversion.run scanned = (.ok value, later) := by
  rcases ran : conversion.run scanned with ⟨outcome, between⟩
  have unfolded : run (ofConversion conversion) scanned = (outcome.mapError .position, between) := by
    change ((conversion.run scanned).1.mapError _, (conversion.run scanned).2) = _
    rw [ran]
  rw [unfolded]
  cases outcome with
  | error failure => simp [Except.mapError]
  | ok value => simp [Except.mapError]

end Normalizing

theorem enforceLimit_eq_ok {actual : ℕ} {maximum : UInt64} {resource : String} {value : Unit} :
    enforceLimit actual maximum resource = .ok value ↔ actual ≤ maximum.toNat := by
  rw [enforceLimit]
  split_ifs with above <;> simp <;> omega

theorem rejectSymbol_eq_ok {rejected : Prop} [Decidable rejected] {failure : SymbolError} {value : Unit} :
    rejectSymbol rejected failure = .ok value ↔ ¬rejected := by
  rw [rejectSymbol]
  split_ifs with holds <;> simp [holds]

section Visit

variable {converter : PositionConverter} {limits : SymbolLimits} {pending : PendingSymbol}

theorem checkPending_eq_ok {rawCount : ℕ} {value : Unit} :
    checkPending limits rawCount pending = .ok value ↔
      rawCount ≤ limits.maximumRawSymbols.toNat ∧ pending.depth ≤ limits.maximumDepth.toNat ∧ pending.symbol.name ≠ "" ∧
        (wireRangeIsValid pending.symbol.range ∧ wireRangeIsValid pending.symbol.selectionRange) ∧
        textBytes pending.symbol.name ≤ limits.maximumNameBytes.toNat ∧
        (∀ detail ∈ pending.symbol.detail, textBytes detail ≤ limits.maximumDetailBytes.toNat) ∧
        pending.pathBytes ≤ limits.maximumPathBytes.toNat := by
  have details : pending.symbol.detail.forM
      (fun detail => enforceLimit (textBytes detail) limits.maximumDetailBytes "symbol_detail_bytes") = .ok () ↔
        ∀ detail ∈ pending.symbol.detail, textBytes detail ≤ limits.maximumDetailBytes.toNat := by
    cases pending.symbol.detail with
    | none => exact iff_of_true rfl fun _ member => absurd member (Option.not_mem_none _)
    | some detail =>
      change enforceLimit _ _ _ = _ ↔ _
      rw [enforceLimit_eq_ok]
      exact ⟨fun within other member => Option.some.inj member ▸ within, fun within => within detail rfl⟩
  simp only [checkPending, Except.bind_eq_ok, enforceLimit_eq_ok, rejectSymbol_eq_ok, exists_const, details,
    not_or, Bool.not_eq_true, Bool.not_eq_false', and_assoc, ne_eq]

theorem checkChildren_eq_ok {height rawCount : ℕ} {value : Unit} :
    checkChildren limits height rawCount pending = .ok value ↔
      ∀ children ∈ pending.symbol.children, height + rawCount + children.length ≤ limits.maximumRawSymbols.toNat ∧
        pending.depth + 1 ≤ u64Max := by
  rw [checkChildren]
  cases pending.symbol.children with
  | none => exact iff_of_true rfl fun _ member => absurd member (Option.not_mem_none _)
  | some children =>
    simp only [Except.bind_eq_ok, enforceLimit_eq_ok, rejectSymbol_eq_ok, exists_const, not_lt, Option.mem_some_iff,
      forall_eq']

/-- The ranges of a symbol are converted between two groups of checks. -/
theorem visitSymbol_eq_ok {height scanned later : ℕ} {flattening next : Flattening} :
    (visitSymbol converter limits height flattening pending).run scanned = (.ok next, later) ↔
      checkPending limits (flattening.rawCount + 1) pending = .ok () ∧
        ∃ bytes selection between, (converter.lspRangeToByteRange pending.symbol.range).run scanned = (.ok bytes, between) ∧
          (converter.lspRangeToByteRange pending.symbol.selectionRange).run between = (.ok selection, later) ∧
          rangeContains bytes selection ∧
          flattening.candidateStorageBytes + pending.ownedBytes ≤ limits.maximumCandidateStorageBytes.toNat ∧
          checkChildren limits height (flattening.rawCount + 1) pending = .ok () ∧
          flattening.flattenedCount + 1 ≤ limits.maximumFlattenedSymbols.toNat ∧
          next = {
            rawCount := flattening.rawCount + 1
            flattenedCount := flattening.flattenedCount + 1
            candidateStorageBytes := flattening.candidateStorageBytes + pending.ownedBytes
            normalized := flattening.normalized ++ [{
              name := pending.symbol.name
              detail := pending.symbol.detail
              kind := pending.symbol.kind
              symbolPath := pending.pathNode.reverse
              lspRange := pending.symbol.range
              lspSelectionRange := pending.symbol.selectionRange
              byteRange := bytes
              selectionByteRange := selection }] } := by
  rw [visitSymbol]
  constructor
  · intro ran
    obtain ⟨_, _, checked, ran⟩ := Normalizing.run_bind_eq_ok.mp ran
    obtain ⟨accepted, rfl⟩ := Normalizing.run_ofExcept_eq_ok.mp checked
    obtain ⟨bytes, between, converted, ran⟩ := Normalizing.run_bind_eq_ok.mp ran
    obtain ⟨selection, last, selected, ran⟩ := Normalizing.run_bind_eq_ok.mp ran
    obtain ⟨_, _, contained, ran⟩ := Normalizing.run_bind_eq_ok.mp ran
    obtain ⟨inside, rfl⟩ := Normalizing.run_ofExcept_eq_ok.mp contained
    obtain ⟨_, _, stored, ran⟩ := Normalizing.run_bind_eq_ok.mp ran
    obtain ⟨held, rfl⟩ := Normalizing.run_ofExcept_eq_ok.mp stored
    obtain ⟨_, _, children, ran⟩ := Normalizing.run_bind_eq_ok.mp ran
    obtain ⟨below, rfl⟩ := Normalizing.run_ofExcept_eq_ok.mp children
    obtain ⟨_, _, counted, ran⟩ := Normalizing.run_bind_eq_ok.mp ran
    obtain ⟨numbered, rfl⟩ := Normalizing.run_ofExcept_eq_ok.mp counted
    obtain ⟨rfl, rfl⟩ := Normalizing.run_pure_eq_ok.mp ran
    refine ⟨accepted, bytes, selection, between, Normalizing.run_ofConversion_eq_ok.mp converted,
      Normalizing.run_ofConversion_eq_ok.mp selected, ?_, enforceLimit_eq_ok.mp held, below, enforceLimit_eq_ok.mp numbered, rfl⟩
    simpa using rejectSymbol_eq_ok.mp inside
  · rintro ⟨checked, bytes, selection, between, converted, selected, contained, stored, children, counted, rfl⟩
    refine Normalizing.run_bind_eq_ok.mpr ⟨(), scanned, Normalizing.run_ofExcept_eq_ok.mpr ⟨checked, rfl⟩, ?_⟩
    refine Normalizing.run_bind_eq_ok.mpr ⟨bytes, between, Normalizing.run_ofConversion_eq_ok.mpr converted, ?_⟩
    refine Normalizing.run_bind_eq_ok.mpr ⟨selection, later, Normalizing.run_ofConversion_eq_ok.mpr selected, ?_⟩
    refine Normalizing.run_bind_eq_ok.mpr ⟨(), later, Normalizing.run_ofExcept_eq_ok.mpr
      ⟨rejectSymbol_eq_ok.mpr (by simp [contained]), rfl⟩, ?_⟩
    refine Normalizing.run_bind_eq_ok.mpr ⟨(), later, Normalizing.run_ofExcept_eq_ok.mpr ⟨enforceLimit_eq_ok.mpr stored, rfl⟩, ?_⟩
    refine Normalizing.run_bind_eq_ok.mpr ⟨(), later, Normalizing.run_ofExcept_eq_ok.mpr ⟨children, rfl⟩, ?_⟩
    refine Normalizing.run_bind_eq_ok.mpr ⟨(), later, Normalizing.run_ofExcept_eq_ok.mpr ⟨enforceLimit_eq_ok.mpr counted, rfl⟩, ?_⟩
    exact Normalizing.run_pure_eq_ok.mpr ⟨rfl, rfl⟩

end Visit

/-! ## The loop -/

namespace Flattening

/-- The totals stay within their limits when these symbols are added. -/
structure Fits (flattening : Flattening) (limits : SymbolLimits) (symbols : List PlacedSymbol) : Prop where
  raw : flattening.rawCount + symbols.length ≤ limits.maximumRawSymbols.toNat
  flattened : flattening.flattenedCount + symbols.length ≤ limits.maximumFlattenedSymbols.toNat
  storage : flattening.candidateStorageBytes + (symbols.map PlacedSymbol.ownedBytes).sum ≤ limits.maximumCandidateStorageBytes.toNat

def add (flattening : Flattening) (placed : PlacedSymbol) (symbol : NormalizedSymbol) : Flattening where
  rawCount := flattening.rawCount + 1
  flattenedCount := flattening.flattenedCount + 1
  candidateStorageBytes := flattening.candidateStorageBytes + placed.ownedBytes
  normalized := flattening.normalized ++ [symbol]

variable {flattening : Flattening} {limits : SymbolLimits} {placed : PlacedSymbol} {symbols : List PlacedSymbol}

theorem add_fits_iff {symbol : NormalizedSymbol} :
    (flattening.add placed symbol).Fits limits symbols ↔ flattening.Fits limits (placed :: symbols) := by
  constructor
  · rintro ⟨raw, flattened, storage⟩
    simp only [add] at raw flattened storage
    refine ⟨?_, ?_, ?_⟩
    · rw [List.length_cons]
      omega
    · rw [List.length_cons]
      omega
    · rw [List.map_cons, List.sum_cons]
      omega
  · rintro ⟨raw, flattened, storage⟩
    rw [List.length_cons] at raw flattened
    rw [List.map_cons, List.sum_cons] at storage
    refine ⟨?_, ?_, ?_⟩ <;> simp only [add] <;> omega

theorem Fits.mono {fewer : List PlacedSymbol} (fits : flattening.Fits limits (fewer ++ symbols)) : flattening.Fits limits fewer := by
  obtain ⟨raw, flattened, storage⟩ := fits
  rw [List.length_append] at raw flattened
  rw [List.map_append, List.sum_append] at storage
  exact ⟨by omega, by omega, by omega⟩

end Flattening

section Loop

variable {converter : PositionConverter} {limits : SymbolLimits} {scanned : ℕ} (indexed : converter.Indexed)

include indexed

/-- One iteration adds an acceptable symbol, unless its children exceed the count of the symbols. -/
theorem visitSymbol_adds {pending : PendingSymbol} (isPlaced : pending.Placed) {height : ℕ} {flattening next : Flattening}
    (budget : converter.Sufficient scanned (4 * converter.text.length)) :
    (∃ later, (visitSymbol converter limits height flattening pending).run scanned = (.ok next, later)) ↔
      pending.placed.Acceptable converter limits ∧ flattening.Fits limits [pending.placed] ∧
        (∀ children ∈ pending.symbol.children,
          height + (flattening.rawCount + 1) + children.length ≤ limits.maximumRawSymbols.toNat) ∧
        ∃ symbol, pending.placed.Normalizes converter symbol ∧ next = flattening.add pending.placed symbol := by
  simp only [visitSymbol_eq_ok, checkPending_eq_ok, checkChildren_eq_ok]
  rw [isPlaced.depth_eq, isPlaced.pathBytes_eq, isPlaced.ownedBytes_eq]
  constructor
  · rintro ⟨later, ⟨raw, depth, named, wire, name, detail, path⟩, bytes, selection, between, converted, selected, contained, stored,
      children, flattened, rfl⟩
    refine ⟨⟨named, wire, ⟨bytes, selection, ⟨_, _, converted⟩, ⟨_, _, selected⟩, contained⟩, name, detail, path, depth⟩,
      ⟨raw, flattened, ?_⟩, fun siblings member => (children siblings member).1, ?_⟩
    · rw [List.map_singleton, List.sum_singleton]
      exact stored
    · exact ⟨⟨pending.symbol.name, pending.symbol.detail, pending.symbol.kind, pending.pathNode.reverse, pending.symbol.range,
        pending.symbol.selectionRange, bytes, selection⟩, ⟨rfl, rfl, rfl, rfl, rfl, rfl, ⟨_, _, converted⟩, ⟨_, _, selected⟩⟩, rfl⟩
  · rintro ⟨acceptable, fits, children, symbol, normalizes, rfl⟩
    obtain ⟨bytes, selection, converts, selects, contained⟩ := acceptable.converts
    obtain rfl := converts.unique indexed normalizes.byteRange
    obtain rfl := selects.unique indexed normalizes.selectionByteRange
    rw [PositionConverter.Sufficient] at budget
    obtain ⟨between, converted⟩ := converts.again indexed
      (show converter.Sufficient scanned _ by rw [PositionConverter.Sufficient]; omega)
    have charged := PositionConverter.lspRangeToByteRange_charges indexed converted
    obtain ⟨later, selected⟩ := selects.again indexed
      (show converter.Sufficient between _ by rw [PositionConverter.Sufficient]; omega)
    have stored := fits.storage
    rw [List.map_singleton, List.sum_singleton] at stored
    -- Every name above costs a byte, so that the depth is bounded by the storage.
    have deep : pending.placed.depth + 1 ≤ u64Max := by
      have names : "" ∉ pending.placed.path := by
        rw [PendingSymbol.placed, PendingSymbol.pathNode, List.mem_reverse, List.mem_cons, not_or]
        exact ⟨acceptable.named.symm, isPlaced.named⟩
      have bounded := length_le_pathBytes names
      have name := textBytes_pos acceptable.named
      have storage := limits.maximumCandidateStorageBytes.toNat_lt
      rw [PlacedSymbol.ownedBytes, PlacedSymbol.pathBytes] at stored
      rw [PlacedSymbol.depth, u64Max]
      omega
    refine ⟨later, ⟨fits.raw, acceptable.depth_le, acceptable.named, acceptable.wire, acceptable.name_le, acceptable.detail_le,
      acceptable.path_le⟩, symbol.byteRange, symbol.selectionByteRange, between, converted, selected, contained, stored,
      fun siblings member => ⟨children siblings member, deep⟩, fits.flattened, ?_⟩
    rw [Flattening.add]
    congr 3
    obtain ⟨name, detail, kind, symbolPath, lspRange, lspSelectionRange, -, -⟩ := normalizes
    cases symbol
    subst name detail kind symbolPath lspRange lspSelectionRange
    rfl

theorem visitSymbol_charges {pending : PendingSymbol} {height later : ℕ} {flattening next : Flattening}
    (ran : (visitSymbol converter limits height flattening pending).run scanned = (.ok next, later)) :
    later ≤ scanned + 4 * converter.text.length := by
  obtain ⟨-, _, _, between, converted, selected, -⟩ := visitSymbol_eq_ok.mp ran
  have first := PositionConverter.lspRangeToByteRange_charges indexed converted
  have second := PositionConverter.lspRangeToByteRange_charges indexed selected
  omega

/-- The loop appends the symbols below the stack in preorder, if all of them are acceptable and fit. -/
theorem flattenFrom_appends {stack : List PendingSymbol} {flattening : Flattening} (result : List NormalizedSymbol)
    (arePlaced : ∀ pending ∈ stack, pending.Placed) (fits : flattening.Fits limits [])
    (budget : converter.Sufficient scanned (4 * (stackPreorder stack).length * converter.text.length)) :
    (∃ later, (flattenFrom converter limits stack flattening).run scanned = (.ok result, later)) ↔
      (∀ placed ∈ stackPreorder stack, placed.Acceptable converter limits) ∧ flattening.Fits limits (stackPreorder stack) ∧
        ∃ symbols, List.Forall₂ (PlacedSymbol.Normalizes converter) (stackPreorder stack) symbols ∧
          result = flattening.normalized ++ symbols := by
  induction stack, flattening using flattenFrom.induct generalizing scanned with
  | case1 flattening =>
    rw [flattenFrom]
    constructor
    · rintro ⟨later, ran⟩
      obtain ⟨rfl, -⟩ := Normalizing.run_pure_eq_ok.mp ran
      exact ⟨by simp [stackPreorder], fits, [], .nil, (List.append_nil _).symm⟩
    · rintro ⟨-, -, symbols, normalizes, rfl⟩
      obtain rfl := List.forall₂_nil_left_iff.mp normalizes
      exact ⟨scanned, Normalizing.run_pure_eq_ok.mpr ⟨(List.append_nil _).symm, rfl⟩⟩
  | case2 flattening pending rest ih =>
    obtain ⟨isPlaced, others⟩ := List.forall_mem_cons.mp arePlaced
    rw [stackPreorder_cons, List.length_cons, PositionConverter.Sufficient, mul_add, add_mul, mul_one] at budget
    have first : converter.Sufficient scanned (4 * converter.text.length) := by
      rw [PositionConverter.Sufficient]
      omega
    have remaining : ∀ {later next}, (visitSymbol converter limits rest.length flattening pending).run scanned = (.ok next, later) →
        converter.Sufficient later (4 * (stackPreorder (pending.childrenPending ++ rest)).length * converter.text.length) := by
      intro later next ran
      have charged := visitSymbol_charges indexed ran
      rw [PositionConverter.Sufficient]
      omega
    rw [flattenFrom, stackPreorder_cons, List.forall_mem_cons]
    constructor
    · rintro ⟨later, ran⟩
      obtain ⟨next, between, visited, ran⟩ := Normalizing.run_bind_eq_ok.mp ran
      obtain ⟨acceptable, added, -, symbol, normalizes, rfl⟩ := (visitSymbol_adds indexed isPlaced first).mp ⟨between, visited⟩
      have placed := List.forall_mem_append.mpr ⟨isPlaced.children acceptable.named, others⟩
      obtain ⟨remain, fit, symbols, normalize, rfl⟩ :=
        (ih _ placed (Flattening.add_fits_iff.mpr added) (remaining visited)).mp ⟨later, ran⟩
      refine ⟨⟨acceptable, remain⟩, Flattening.add_fits_iff.mp fit, symbol :: symbols, .cons normalizes normalize, ?_⟩
      rw [Flattening.add, List.append_assoc, List.singleton_append]
    · rintro ⟨⟨acceptable, remain⟩, fit, _, aligned, rfl⟩
      obtain ⟨symbol, symbols, normalizes, normalize, rfl⟩ := List.forall₂_cons_left_iff.mp aligned
      have counted : ∀ children ∈ pending.symbol.children,
          rest.length + (flattening.rawCount + 1) + children.length ≤ limits.maximumRawSymbols.toNat := by
        intro children member
        have waiting := length_le_stackPreorder (pending.childrenPending ++ rest)
        have raw := fit.raw
        rw [List.length_cons] at raw
        rw [List.length_append, PendingSymbol.childrenPending, List.length_map, member] at waiting
        rw [Option.getD_some] at waiting
        rw [PendingSymbol.childrenPending, member, Option.getD_some] at raw
        omega
      have added : flattening.Fits limits [pending.placed] := (List.singleton_append ▸ fit).mono
      obtain ⟨between, visited⟩ := (visitSymbol_adds indexed isPlaced first).mpr
        ⟨acceptable, added, counted, symbol, normalizes, rfl⟩
      have placed := List.forall_mem_append.mpr ⟨isPlaced.children acceptable.named, others⟩
      have appended : flattening.normalized ++ symbol :: symbols = (flattening.add pending.placed symbol).normalized ++ symbols := by
        rw [Flattening.add, List.append_assoc, List.singleton_append]
      obtain ⟨later, ran⟩ := (ih _ placed (Flattening.add_fits_iff.mpr added) (remaining visited)).mpr
        ⟨remain, Flattening.add_fits_iff.mpr fit, symbols, normalize, appended⟩
      exact ⟨later, Normalizing.run_bind_eq_ok.mpr ⟨_, between, visited, ran⟩⟩

end Loop

/-! ## The early count -/

/-- A computation that never ends with a failure. -/
def Normalizing.Avoids {α : Type} (normalizing : Normalizing α) (failure : SymbolError) : Prop :=
  ∀ scanned later, normalizing.run scanned ≠ (.error failure, later)

namespace Normalizing.Avoids

variable {α β : Type} {failure : SymbolError}

theorem bind {normalizing : Normalizing α} {next : α → Normalizing β} (first : normalizing.Avoids failure)
    (second : ∀ value scanned later, normalizing.run scanned = (.ok value, later) → (next value).Avoids failure) :
    (normalizing >>= next).Avoids failure := by
  intro scanned later failed
  rcases ran : normalizing.run scanned with ⟨outcome, between⟩
  cases outcome with
  | error earlier =>
    have ended : (normalizing >>= next).run scanned = (.error earlier, between) := ExceptT.runFrom_bind_of_error ran
    cases ended.symm.trans failed
    exact first scanned _ ran
  | ok value =>
    have continued : (normalizing >>= next).run scanned = (next value).run between := ExceptT.runFrom_bind_of_ok ran
    exact second value scanned between ran between later (continued.symm.trans failed)

theorem ofExcept {result : Except SymbolError α} (differs : result ≠ .error failure) : (Normalizing.ofExcept result).Avoids failure :=
  fun _ _ failed => differs (congrArg Prod.fst failed)

theorem ofConversion {conversion : Conversion α} (differs : ∀ error, failure ≠ .position error) :
    (Normalizing.ofConversion conversion).Avoids failure := by
  intro scanned later failed
  have outcome : (conversion.run scanned).1.mapError SymbolError.position = .error failure := congrArg Prod.fst failed
  cases ran : (conversion.run scanned).1 with
  | error error =>
    rw [ran] at outcome
    exact differs error (Except.error.inj outcome).symm
  | ok value =>
    rw [ran] at outcome
    cases outcome

end Normalizing.Avoids

theorem enforceLimit_avoids {actual : ℕ} {maximum : UInt64} {resource : String} {failure : SymbolError}
    (differs : actual ≤ maximum.toNat ∨ resourceError resource maximum ≠ failure) :
    enforceLimit actual maximum resource ≠ .error failure := by
  intro failed
  rw [enforceLimit] at failed
  split_ifs at failed with above
  exact differs.elim (fun within => absurd within (by omega)) fun differs => differs (Except.error.inj failed)

theorem rejectSymbol_avoids {rejected : Prop} [Decidable rejected] {earlier failure : SymbolError} (differs : earlier ≠ failure) :
    rejectSymbol rejected earlier ≠ .error failure := by
  intro failed
  rw [rejectSymbol] at failed
  split_ifs at failed
  exact differs (Except.error.inj failed)

/-- Counting the symbols that wait fails only for symbols that the limit does not allow. -/
theorem visitSymbol_avoids {converter : PositionConverter} {limits : SymbolLimits} {pending : PendingSymbol}
    {rest : List PendingSymbol} {flattening : Flattening}
    (raw : flattening.rawCount + (stackPreorder (pending :: rest)).length ≤ limits.maximumRawSymbols.toNat) :
    (visitSymbol converter limits rest.length flattening pending).Avoids
      (resourceError "raw_document_symbols" limits.maximumRawSymbols) := by
  have waiting := length_le_stackPreorder (pending.childrenPending ++ rest)
  rw [stackPreorder_cons, List.length_cons] at raw
  rw [List.length_append, PendingSymbol.childrenPending, List.length_map] at waiting
  rw [PendingSymbol.childrenPending] at raw
  have other : ∀ {resource : String} {maximum : UInt64}, resource ≠ "raw_document_symbols" →
      resourceError resource maximum ≠ resourceError "raw_document_symbols" limits.maximumRawSymbols :=
    fun differs same => differs (SymbolError.resourceLimitExceeded.inj same).1
  have checks : checkPending limits (flattening.rawCount + 1) pending ≠
      .error (resourceError "raw_document_symbols" limits.maximumRawSymbols) := by
    refine Except.bind_ne_error (enforceLimit_avoids (.inl (by omega))) fun _ _ => ?_
    refine Except.bind_ne_error (enforceLimit_avoids (.inr (other (by decide)))) fun _ _ => ?_
    refine Except.bind_ne_error (rejectSymbol_avoids SymbolError.noConfusion) fun _ _ => ?_
    refine Except.bind_ne_error (enforceLimit_avoids (.inr (other (by decide)))) fun _ _ => ?_
    refine Except.bind_ne_error ?_ fun _ _ => enforceLimit_avoids (.inr (other (by decide)))
    cases pending.symbol.detail with
    | none => exact Except.ok_ne_error
    | some detail => exact enforceLimit_avoids (.inr (other (by decide)))
  have below : checkChildren limits rest.length (flattening.rawCount + 1) pending ≠
      .error (resourceError "raw_document_symbols" limits.maximumRawSymbols) := by
    rw [checkChildren]
    cases children : pending.symbol.children with
    | none => exact Except.ok_ne_error
    | some siblings =>
      rw [children, Option.getD_some] at waiting raw
      exact Except.bind_ne_error (enforceLimit_avoids (.inl (by omega))) fun _ _ => rejectSymbol_avoids (other (by decide))
  refine .bind (.ofExcept checks) fun _ _ _ _ => ?_
  refine .bind (.ofConversion fun _ => SymbolError.noConfusion) fun _ _ _ _ => ?_
  refine .bind (.ofConversion fun _ => SymbolError.noConfusion) fun _ _ _ _ => ?_
  refine .bind (.ofExcept (rejectSymbol_avoids SymbolError.noConfusion)) fun _ _ _ _ => ?_
  refine .bind (.ofExcept (enforceLimit_avoids (.inr (other (by decide))))) fun _ _ _ _ => ?_
  refine .bind (.ofExcept below) fun _ _ _ _ => ?_
  refine .bind (.ofExcept (enforceLimit_avoids (.inr (other (by decide))))) fun _ _ _ _ => ?_
  exact .ofExcept Except.ok_ne_error

theorem flattenFrom_avoids {converter : PositionConverter} {limits : SymbolLimits} {stack : List PendingSymbol}
    {flattening : Flattening} (raw : flattening.rawCount + (stackPreorder stack).length ≤ limits.maximumRawSymbols.toNat) :
    (flattenFrom converter limits stack flattening).Avoids (resourceError "raw_document_symbols" limits.maximumRawSymbols) := by
  induction stack, flattening using flattenFrom.induct with
  | case1 flattening =>
    rw [flattenFrom]
    exact .ofExcept Except.ok_ne_error
  | case2 flattening pending rest ih =>
    rw [flattenFrom]
    refine .bind (visitSymbol_avoids raw) fun next scanned later visited => ih next ?_
    obtain ⟨-, _, _, _, -, -, -, -, -, -, rfl⟩ := visitSymbol_eq_ok.mp visited
    rw [stackPreorder_cons, List.length_cons] at raw
    dsimp only
    omega

/-! ## The forest -/

theorem PlacedSymbol.Acceptable.normalizes {converter : PositionConverter} {limits : SymbolLimits} {placed : PlacedSymbol}
    (acceptable : placed.Acceptable converter limits) : ∃ symbol, placed.Normalizes converter symbol := by
  obtain ⟨bytes, selection, converts, selects, -⟩ := acceptable.converts
  exact ⟨⟨placed.symbol.name, placed.symbol.detail, placed.symbol.kind, placed.path, placed.symbol.range,
    placed.symbol.selectionRange, bytes, selection⟩, rfl, rfl, rfl, rfl, rfl, rfl, converts, selects⟩

theorem exists_normalized {converter : PositionConverter} {limits : SymbolLimits} {placed : List PlacedSymbol}
    (acceptable : ∀ symbol ∈ placed, symbol.Acceptable converter limits) :
    ∃ symbols, List.Forall₂ (PlacedSymbol.Normalizes converter) placed symbols := by
  induction placed with
  | nil => exact ⟨[], .nil⟩
  | cons first rest ih =>
    obtain ⟨head, others⟩ := List.forall_mem_cons.mp acceptable
    obtain ⟨symbol, normalizes⟩ := head.normalizes
    obtain ⟨symbols, normalize⟩ := ih others
    exact ⟨symbol :: symbols, .cons normalizes normalize⟩

/-- Flattening succeeds exactly on the forests whose symbols are acceptable and fit together, and returns their preorder;
waiting symbols are never counted beyond the symbols of the forest. -/
theorem flattening_is_preorder {converter : PositionConverter} (indexed : converter.Indexed) (limits : SymbolLimits)
    (forest : List DocumentSymbol) (scanned : ℕ)
    (budget : converter.Sufficient scanned (4 * (forestPreorder [] forest).length * converter.text.length)) :
    ((∃ result later, (normalizeHierarchicalSymbols forest converter limits).run scanned = (.ok result, later)) ↔
      (∀ placed ∈ forestPreorder [] forest, placed.Acceptable converter limits) ∧
        (forestPreorder [] forest).length ≤ limits.maximumRawSymbols.toNat ∧
        (forestPreorder [] forest).length ≤ limits.maximumFlattenedSymbols.toNat ∧
        ((forestPreorder [] forest).map PlacedSymbol.ownedBytes).sum ≤ limits.maximumCandidateStorageBytes.toNat) ∧
      (∀ result later, (normalizeHierarchicalSymbols forest converter limits).run scanned = (.ok result, later) →
        List.Forall₂ (PlacedSymbol.Normalizes converter) (forestPreorder [] forest) result) ∧
      ((forestPreorder [] forest).length ≤ limits.maximumRawSymbols.toNat → ∀ later,
        (normalizeHierarchicalSymbols forest converter limits).run scanned ≠
          (.error (resourceError "raw_document_symbols" limits.maximumRawSymbols), later)) := by
  let stack : List PendingSymbol := forest.map fun root => ⟨root, [], 0, 1⟩
  have same : stackPreorder stack = forestPreorder [] forest := by
    rw [stackPreorder, List.flatMap_map, forestPreorder_eq]
    rfl
  have arePlaced : ∀ pending ∈ stack, pending.Placed := by
    intro pending member
    obtain ⟨root, -, rfl⟩ := List.mem_map.mp member
    exact ⟨rfl, rfl, List.not_mem_nil⟩
  have roots : forest.length ≤ (forestPreorder [] forest).length := by
    have waiting := length_le_stackPreorder stack
    rwa [same, List.length_map] at waiting
  have empty : (⟨0, 0, 0, []⟩ : Flattening).Fits limits [] := ⟨Nat.zero_le _, Nat.zero_le _, Nat.zero_le _⟩
  have loop := fun result => flattenFrom_appends indexed result arePlaced empty (same ▸ budget)
  rw [same] at loop
  have ran : ∀ {result later}, (normalizeHierarchicalSymbols forest converter limits).run scanned = (.ok result, later) ↔
      forest.length ≤ limits.maximumRawSymbols.toNat ∧
        (flattenFrom converter limits stack ⟨0, 0, 0, []⟩).run scanned = (.ok result, later) := by
    intro result later
    rw [normalizeHierarchicalSymbols, Normalizing.run_bind_eq_ok]
    simp only [Normalizing.run_ofExcept_eq_ok, enforceLimit_eq_ok]
    exact ⟨fun ⟨_, _, ⟨counted, same⟩, ran⟩ => ⟨counted, same ▸ ran⟩, fun ⟨counted, ran⟩ => ⟨(), scanned, ⟨counted, rfl⟩, ran⟩⟩
  refine ⟨⟨?_, ?_⟩, ?_, ?_⟩
  · rintro ⟨result, later, normalized⟩
    obtain ⟨acceptable, ⟨raw, flattened, storage⟩, -⟩ := (loop result).mp ⟨later, (ran.mp normalized).2⟩
    exact ⟨acceptable, by omega, by omega, by omega⟩
  · rintro ⟨acceptable, raw, flattened, storage⟩
    obtain ⟨symbols, normalize⟩ := exists_normalized acceptable
    have fits : (⟨0, 0, 0, []⟩ : Flattening).Fits limits (forestPreorder [] forest) :=
      ⟨by simpa using raw, by simpa using flattened, by simpa using storage⟩
    obtain ⟨later, finished⟩ := (loop symbols).mpr ⟨acceptable, fits, symbols, normalize, rfl⟩
    exact ⟨symbols, later, ran.mpr ⟨by omega, finished⟩⟩
  · intro result later normalized
    obtain ⟨-, -, symbols, normalize, rfl⟩ := (loop result).mp ⟨later, (ran.mp normalized).2⟩
    exact normalize
  · intro raw later
    refine Normalizing.Avoids.bind (.ofExcept (enforceLimit_avoids (.inl (by omega)))) (fun _ _ _ _ => ?_) scanned later
    exact flattenFrom_avoids (by rw [same]; simpa using raw)

section Example

def wordLeaf : DocumentSymbol := ⟨"v", none, .known .variable_, ⟨⟨0, 1⟩, ⟨0, 2⟩⟩, ⟨⟨0, 1⟩, ⟨0, 2⟩⟩, none⟩

def wordTree : DocumentSymbol := ⟨"w", some "", .known .function, ⟨⟨0, 0⟩, ⟨0, 2⟩⟩, ⟨⟨0, 0⟩, ⟨0, 1⟩⟩, some [wordLeaf]⟩

theorem wordTree_preorder : forestPreorder [] [wordTree] = [⟨["w"], wordTree⟩, ⟨["w", "v"], wordLeaf⟩] := rfl

theorem wordTree_acceptable : ∀ placed ∈ forestPreorder [] [wordTree], placed.Acceptable wordConverter {} := by
  have root : PlacedSymbol.Acceptable wordConverter {} ⟨["w"], wordTree⟩ :=
    ⟨by decide, by decide, ⟨⟨0, 2⟩, ⟨0, 1⟩, ⟨0, 0, by decide⟩, ⟨0, 0, by decide⟩, rfl⟩, by decide,
      by decide, by decide, by decide⟩
  have leaf : PlacedSymbol.Acceptable wordConverter {} ⟨["w", "v"], wordLeaf⟩ :=
    ⟨by decide, by decide, ⟨⟨1, 2⟩, ⟨1, 2⟩, ⟨0, 0, by decide⟩, ⟨0, 0, by decide⟩, rfl⟩, by decide,
      by decide, by decide, by decide⟩
  rw [wordTree_preorder]
  exact List.forall_mem_cons.mpr ⟨root, List.forall_mem_singleton.mpr leaf⟩

/-- A function with one variable in it is flattened to both. -/
theorem flattening_is_preorder_example :
    ∃ result later, (normalizeHierarchicalSymbols [wordTree] wordConverter {}).run 0 = (.ok result, later) := by
  have flattening := flattening_is_preorder wordConverter_indexed {} [wordTree] 0 (by decide)
  exact flattening.1.mpr ⟨wordTree_acceptable, by decide, by decide, by decide⟩

end Example

end Srcmv.Lsp
