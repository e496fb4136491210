import Srcmv.Model.Core.Planner
import Srcmv.Soundness.Outline
import Srcmv.Soundness.UserPositions

/-! # Exhausted conversion work

All conversions of a command charge one budget. When it runs out the failure is wrapped: as a query
that is out of bounds, as symbols with invalid ranges, or as a symbol without a physical line. None
of the reports is that of a resource limit.
-/

namespace Srcmv.Cli

open Srcmv.Core Srcmv.Fs Srcmv.Lsp Srcmv.Protocol

/-! ## Where the budget runs out -/

/-- A selection reads its source. -/
structure Select.Reads (surroundings : Surroundings) (arguments : SelectArgs) (kind : Option KnownSymbolKind)
    (warnings : List WarningDto) (snapshot : FileSnapshot) (source : List Char) : Prop where
  kinded : parseKind arguments.kind = .ok kind
  named : validateName arguments.name = .ok ()
  scanned : surroundings.warnings = .ok warnings
  acquired : acquireSource surroundings arguments.path = .ok snapshot
  decoded : decodeSource snapshot = .ok source

/-- A session ends with an identified server. -/
structure Select.Serves (surroundings : Surroundings) (snapshot : FileSnapshot) (output : SessionOutput) : Prop where
  session : surroundings.session snapshot = .ok output
  name : validateServerIdentity output.reportedName "reported server name" = .ok ()
  version : validateServerIdentity output.reportedVersion "reported server version" = .ok ()

/-- The budget of a selection runs out in the conversion of its query, or of the symbols of the server. -/
inductive Select.Exhausts (surroundings : Surroundings) (arguments : SelectArgs) : Prop
  | query {kind : Option KnownSymbolKind} {warnings : List WarningDto} {snapshot : FileSnapshot} {source : List Char}
      {converter : PositionConverter} {line : UInt64} (reads : Reads surroundings arguments kind warnings snapshot source)
      (unnamed : arguments.name = none) (noByte : arguments.atByte = none) (atLine : arguments.atLine = some line)
      (created : PositionConverter.create source snapshot.lineIndex .utf8 {} = .ok converter)
      (exhausted : ((converter.userLineScalarToByte line.toNat ((arguments.atColumn.map UInt64.toNat).getD 1)).run 0).1 =
        .error .workLimitExceeded)
  | normalization {kind : Option KnownSymbolKind} {warnings : List WarningDto} {snapshot : FileSnapshot} {source : List Char}
      {query : ValidatedQuery} {output : SessionOutput} {converter : PositionConverter}
      (reads : Reads surroundings arguments kind warnings snapshot source)
      (validated : validateQuery arguments kind source snapshot = .ok query) (serves : Serves surroundings snapshot output)
      (created : PositionConverter.create source snapshot.lineIndex output.positionEncoding {} = .ok converter)
      (exhausted : ((normalizeDocumentSymbols surroundings.fromValue output.symbols converter {}).run 0).1 =
        .error (.position .workLimitExceeded))

/-- An outline reads its source and has a server. -/
structure Outline.Reads (surroundings : Surroundings) (arguments : OutlineArgs) (requested : List KnownSymbolKind)
    (warnings : List WarningDto) (snapshot : FileSnapshot) (source : List Char) (output : SessionOutput) : Prop where
  kinded : parseKinds arguments.kinds = .ok requested
  scanned : surroundings.warnings = .ok warnings
  acquired : Select.acquireSource surroundings arguments.path = .ok snapshot
  decoded : Select.decodeSource snapshot = .ok source
  serves : Select.Serves surroundings snapshot output

/-- The budget runs out in one of the two conversions for a record. -/
def Outline.ExhaustsRecord (converter : PositionConverter) (symbol : NormalizedSymbol) (scanned : ℕ) : Prop :=
  ((converter.byteToUserLineScalar symbol.byteRange.start).run scanned).1 = .error .workLimitExceeded ∨
    ∃ line column later, (converter.byteToUserLineScalar symbol.byteRange.start).run scanned = (.ok (line, some column), later) ∧
      ((converter.byteToUserLineScalar symbol.byteRange.stop).run later).1 = .error .workLimitExceeded

/-- The budget of an outline runs out in the conversion of the symbols of the server, or in a record. -/
inductive Outline.Exhausts (surroundings : Surroundings) (arguments : OutlineArgs) : Prop
  | normalization {requested : List KnownSymbolKind} {warnings : List WarningDto} {snapshot : FileSnapshot} {source : List Char}
      {output : SessionOutput} {converter : PositionConverter}
      (reads : Reads surroundings arguments requested warnings snapshot source output)
      (created : PositionConverter.create source snapshot.lineIndex output.positionEncoding {} = .ok converter)
      (exhausted : ((normalizeDocumentSymbols surroundings.fromValue output.symbols converter {}).run 0).1 =
        .error (.position .workLimitExceeded))
  | record {requested : List KnownSymbolKind} {warnings : List WarningDto} {snapshot : FileSnapshot} {source : List Char}
      {output : SessionOutput} {converter : PositionConverter} {symbols done rest : List NormalizedSymbol}
      {symbol : NormalizedSymbol} {records : List OutlineSymbolDto} {scanned between : ℕ}
      (reads : Reads surroundings arguments requested warnings snapshot source output)
      (created : PositionConverter.create source snapshot.lineIndex output.positionEncoding {} = .ok converter)
      (normalized : (normalizeDocumentSymbols surroundings.fromValue output.symbols converter {}).run 0 = (.ok symbols, scanned))
      (filtered : filterKinds (orderUniqueCandidates symbols) requested = done ++ symbol :: rest)
      (bounded : (done ++ symbol :: rest).length ≤ maximumOutlineSymbols)
      (built : (done.mapM (outlineSymbol converter)).run scanned = (.ok records, between))
      (exhausted : ExhaustsRecord converter symbol between)

/-! ## What is reported -/

namespace Select

variable {surroundings : Surroundings} {arguments : SelectArgs}

theorem Reads.executeInner_eq {kind : Option KnownSymbolKind} {warnings : List WarningDto} {snapshot : FileSnapshot} {source : List Char}
    (reads : Reads surroundings arguments kind warnings snapshot source) :
    executeInner surroundings arguments = (do
      let query ← validateQuery arguments kind source snapshot
      let output ← surroundings.session snapshot
      validateServerIdentity output.reportedName "reported server name"
      validateServerIdentity output.reportedVersion "reported server version"
      let found ← resolveSymbols surroundings arguments snapshot source query output
      buildResponse surroundings snapshot query output found warnings) := by
  rw [executeInner, reads.kinded, Except.ok_bind, reads.named, Except.ok_bind, reads.scanned]
  change (do
    let snapshot ← acquireSource surroundings arguments.path
    _) = _
  rw [reads.acquired, Except.ok_bind, reads.decoded, Except.ok_bind]

theorem Exhausts.reported (exhausts : Exhausts surroundings arguments) :
    ∃ report, executeInner surroundings arguments = .error report ∧
      (report.code = .invalidSelectionQuery ∨ report.code = .lspProtocolError) := by
  cases exhausts with
  | @query kind warnings snapshot source converter line reads unnamed noByte atLine created exhausted =>
    have failed : queryValue arguments converter = .error (mapUserPositionError .workLimitExceeded) := by
      rw [queryValue, unnamed, noByte, atLine]
      dsimp only
      rw [exhausted]
      rfl
    refine ⟨mapUserPositionError .workLimitExceeded, ?_, .inl rfl⟩
    rw [reads.executeInner_eq, validateQuery, created]
    change ((do return ValidatedQuery.mk kind (← queryValue arguments converter)) >>= _) = _
    rw [failed]
    rfl
  | @normalization kind warnings snapshot source query output converter reads validated serves created exhausted =>
    refine ⟨mapSymbolError (.position .workLimitExceeded), ?_, .inr rfl⟩
    rw [reads.executeInner_eq, validated, Except.ok_bind, serves.session, Except.ok_bind, serves.name, Except.ok_bind,
      serves.version, Except.ok_bind, resolveSymbols, created]
    change ((do
      let symbols ← ((normalizeDocumentSymbols surroundings.fromValue output.symbols converter {}).run 0).1.mapError mapSymbolError
      _) >>= _) = _
    rw [exhausted]
    rfl

end Select

namespace Outline

variable {surroundings : Surroundings} {arguments : OutlineArgs}

theorem Reads.executeInner_eq {requested : List KnownSymbolKind} {warnings : List WarningDto} {snapshot : FileSnapshot}
    {source : List Char} {output : SessionOutput} (reads : Reads surroundings arguments requested warnings snapshot source output) :
    executeInner surroundings arguments = outlineSymbols surroundings requested snapshot source output := by
  rw [executeInner, reads.kinded, Except.ok_bind, reads.scanned, reads.acquired]
  change ((Select.decodeSource snapshot).mapError retargetReport >>= _) = _
  rw [reads.decoded]
  change ((surroundings.session snapshot).mapError retargetReport >>= _) = _
  rw [reads.serves.session]
  change ((Select.validateServerIdentity output.reportedName "reported server name").mapError retargetReport >>= _) = _
  rw [reads.serves.name]
  change ((Select.validateServerIdentity output.reportedVersion "reported server version").mapError retargetReport >>= _) = _
  rw [reads.serves.version]
  rfl

theorem run_ofConversion_bind_of_error {α β : Type} {conversion : Conversion α} {failure : OutlineErrorDto} {next : α → Outlining β}
    {error : PositionError} {scanned : ℕ} (failed : (conversion.run scanned).1 = .error error) :
    ((Outlining.ofConversion conversion failure >>= next).run scanned).1 = .error failure := by
  have ran : (Outlining.ofConversion conversion failure).runFrom scanned = (.error failure, (conversion.run scanned).2) := by
    change ((conversion.run scanned).1.mapError _, (conversion.run scanned).2) = _
    rw [failed]
    rfl
  exact congrArg Prod.fst (ExceptT.runFrom_bind_of_error ran)

theorem ExhaustsRecord.reported {converter : PositionConverter} {symbol : NormalizedSymbol} {scanned : ℕ}
    (exhausts : ExhaustsRecord converter symbol scanned) :
    ∃ report, ((outlineSymbol converter symbol).run scanned).1 = .error report ∧ report.code = .outlineInternalError := by
  rcases exhausts with failed | ⟨line, column, later, converted, failed⟩
  · exact ⟨_, run_ofConversion_bind_of_error failed, rfl⟩
  · refine ⟨outlineInternalError "the symbol end offset has no physical line", ?_, rfl⟩
    rw [outlineSymbol, run_ofConversion_bind converted]
    exact run_ofConversion_bind_of_error failed

/-- The first symbol whose record fails ends the outline. -/
theorem mapM_fails {converter : PositionConverter} {done rest : List NormalizedSymbol} {symbol : NormalizedSymbol}
    {records : List OutlineSymbolDto} {scanned between : ℕ} {report : OutlineErrorDto}
    (built : (done.mapM (outlineSymbol converter)).run scanned = (.ok records, between))
    (failed : ((outlineSymbol converter symbol).run between).1 = .error report) :
    (((done ++ symbol :: rest).mapM (outlineSymbol converter)).run scanned).1 = .error report := by
  induction done generalizing scanned records with
  | nil =>
    rw [List.mapM_nil] at built
    obtain rfl : scanned = between := congrArg Prod.snd built
    rw [List.nil_append, List.mapM_cons]
    rcases ran : (outlineSymbol converter symbol).run scanned with ⟨outcome, last⟩
    rw [ran] at failed
    obtain rfl : outcome = .error report := failed
    exact congrArg Prod.fst (ExceptT.runFrom_bind_of_error ran)
  | cons first done ih =>
    rw [List.mapM_cons] at built
    obtain ⟨record, middle, ran, continued⟩ := ExceptT.runFrom_bind_eq_ok.mp built
    obtain ⟨others, last, recorded, same⟩ := ExceptT.runFrom_bind_eq_ok.mp continued
    obtain rfl : last = between := congrArg Prod.snd same
    have remaining := ih recorded
    rw [List.cons_append, List.mapM_cons]
    refine (congrArg Prod.fst (ExceptT.runFrom_bind_of_ok ran)).trans ?_
    rcases outcome : (List.mapM (outlineSymbol converter) (done ++ symbol :: rest)).run middle with ⟨result, final⟩
    rw [outcome] at remaining
    obtain rfl : result = .error report := remaining
    exact congrArg Prod.fst (ExceptT.runFrom_bind_of_error outcome)

theorem Exhausts.reported (exhausts : Exhausts surroundings arguments) :
    ∃ report, executeInner surroundings arguments = .error report ∧
      (report.code = .lspProtocolError ∨ report.code = .outlineInternalError) := by
  cases exhausts with
  | @normalization requested warnings snapshot source output converter reads created exhausted =>
    refine ⟨outlineSymbolError (.position .workLimitExceeded), ?_, .inl rfl⟩
    rw [reads.executeInner_eq, outlineSymbols, created]
    change (do
      let symbols ← ((normalizeDocumentSymbols surroundings.fromValue output.symbols converter {}).run 0).1.mapError outlineSymbolError
      _) = _
    rw [exhausted]
    rfl
  | @record requested warnings snapshot source output converter symbols done rest symbol records scanned between reads created
      normalized filtered bounded built exhausted =>
    obtain ⟨report, failed, code⟩ := exhausted.reported
    refine ⟨report, ?_, .inr code⟩
    rw [reads.executeInner_eq, outlineSymbols, created]
    change (do
      let symbols ← ((normalizeDocumentSymbols surroundings.fromValue output.symbols converter {}).run 0).1.mapError outlineSymbolError
      let filtered := filterKinds (orderUniqueCandidates symbols) requested
      enforceOutlineLimit filtered.length
      ((filtered.mapM (outlineSymbol converter)).run
        ((normalizeDocumentSymbols surroundings.fromValue output.symbols converter {}).run 0).2).1) = _
    rw [normalized]
    change (do
      enforceOutlineLimit (filterKinds (orderUniqueCandidates symbols) requested).length
      (((filterKinds (orderUniqueCandidates symbols) requested).mapM (outlineSymbol converter)).run scanned).1) = _
    have within : enforceOutlineLimit (done ++ symbol :: rest).length = .ok () := if_neg (by omega)
    rw [filtered, within]
    exact mapM_fails built failed

end Outline

/-- Exhausted conversion work is an error of another code, wherever the budget runs out. -/
theorem exhausted_work_misreported (surroundings : Surroundings) :
    (∀ arguments, Select.Exhausts surroundings arguments → ∃ report, Select.executeInner surroundings arguments = .error report ∧
      (report.code = .invalidSelectionQuery ∨ report.code = .lspProtocolError)) ∧
    ∀ arguments, Outline.Exhausts surroundings arguments → ∃ report, Outline.executeInner surroundings arguments = .error report ∧
      (report.code = .lspProtocolError ∨ report.code = .outlineInternalError) :=
  ⟨fun _ exhausts => exhausts.reported, fun _ exhausts => exhausts.reported⟩

section Example

/-! ## One line of eight mebibytes -/

/-- A line of letters with this limit. -/
def letters (count limit : ℕ) : PositionConverter := ⟨List.replicate count 'a', ⟨[count]⟩, .utf32, ⟨limit⟩⟩

open PositionConverter

private theorem letters_part (count limit : ℕ) :
    LineOf (letters count limit) 0 [] (List.replicate count 'a') [] [] := by
  have single := LineOf.of_silent .utf32 ⟨limit⟩ (replicate_silent count)
  rw [size_replicate] at single
  exact single

/-- Every letter costs one scalar, and the last of them reaches the end. -/
private theorem encodedUnits_letters (count limit rest byte units scanned : ℕ) (sized : units + rest ≤ u64Max)
    (bounded : scanned + rest ≤ limit) (limited : limit ≤ u64Max) :
    ((letters count limit).encodedUnitsFrom (fun _ => 1) (List.replicate count 'a') (units + rest) (List.replicate rest 'a') byte
      units).run scanned = (.ok count, scanned + rest) := by
  induction rest generalizing byte units scanned with
  | zero =>
    rw [List.replicate_zero, encodedUnitsFrom, size_replicate]
    rfl
  | succ rest ih =>
    have next := ih (byte + Char.utf8Size 'a') (units + 1) (scanned + 1) (by omega) (by omega)
    have within : scanned + 1 ≤ min u64Max (letters count limit).limits.maximumCodePointsScanned :=
      le_min (by omega) (show scanned + 1 ≤ limit by omega)
    rw [List.replicate_succ, encodedUnitsFrom, if_neg (by omega),
      Conversion.run_bind_of_ok (run_chargeCodePoint.mpr ⟨rfl, within⟩),
      Conversion.run_ofExcept_bind (checkedSum_eq_ok.mpr ⟨by omega, rfl⟩), if_neg (by omega)]
    rw [show units + (rest + 1) = units + 1 + rest by omega, next]
    congr 1
    omega

private theorem characterToByte_letters {count limit scanned : ℕ} {character : UInt32} (reaches : character.toNat = count)
    (bounded : scanned + count ≤ limit) (limited : limit ≤ u64Max) :
    ((letters count limit).characterToByte (List.replicate count 'a') character).run scanned = (.ok count, scanned + count) := by
  have walked := encodedUnits_letters count limit count 0 0 scanned (by omega) bounded limited
  rw [Nat.zero_add] at walked
  rw [characterToByte, letters]
  dsimp only
  rw [encodedUnitsToByte, reaches]
  exact walked

/-- The first letter costs nothing. -/
private theorem characterToByte_first {count limit : ℕ} (scanned : ℕ) (positive : 0 < count) :
    ((letters count limit).characterToByte (List.replicate count 'a') 0).run scanned = (.ok 0, scanned) := by
  obtain ⟨rest, rfl⟩ := Nat.exists_eq_succ_of_ne_zero positive.ne'
  rw [List.replicate_succ]
  rfl

/-- Without a budget the next letter cannot be reached. -/
private theorem characterToByte_exhausted {count limit scanned : ℕ} {character : UInt32} (positive : 0 < count)
    (later : character ≠ 0) (spent : limit ≤ scanned) :
    ((letters count limit).characterToByte (List.replicate count 'a') character).run scanned = (.error .workLimitExceeded, scanned) := by
  obtain ⟨rest, rfl⟩ := Nat.exists_eq_succ_of_ne_zero positive.ne'
  have charge : (letters rest.succ limit).chargeCodePoint.run scanned = (.error .workLimitExceeded, scanned) := by
    change (if scanned + 1 > u64Max ∨ scanned + 1 > limit then throw .workLimitExceeded else set (scanned + 1) :
      Conversion Unit).run scanned = _
    rw [if_pos (.inr (by omega))]
    rfl
  have reached : ¬0 = character.toNat := fun same => later (UInt32.toNat_inj.mp same.symm)
  rw [characterToByte, letters]
  dsimp only
  rw [encodedUnitsToByte, List.replicate_succ, encodedUnitsFrom, if_neg reached]
  exact Conversion.run_bind_of_error charge

private theorem lspPositionToByte_letters {count limit scanned later byte : ℕ} {character : UInt32} (sized : byte ≤ u64Max)
    (converted : ((letters count limit).characterToByte (List.replicate count 'a') character).run scanned = (.ok byte, later)) :
    ((letters count limit).lspPositionToByte ⟨0, character⟩).run scanned = (.ok byte, later) := by
  have part := letters_part count limit
  rw [lspPositionToByte, Conversion.run_ofExcept_bind part.bounds, Conversion.run_ofExcept_bind part.lineContent,
    Conversion.run_bind_of_ok converted]
  exact Conversion.run_ofExcept_eq_ok.mpr ⟨checkedSum_eq_ok.mpr ⟨by simpa using sized, by simp⟩, rfl⟩

private theorem lspPositionToByte_exhausted {count limit scanned : ℕ} {character : UInt32} (positive : 0 < count)
    (later : character ≠ 0) (spent : limit ≤ scanned) :
    ((letters count limit).lspPositionToByte ⟨0, character⟩).run scanned = (.error .workLimitExceeded, scanned) := by
  have part := letters_part count limit
  rw [lspPositionToByte, Conversion.run_ofExcept_bind part.bounds, Conversion.run_ofExcept_bind part.lineContent]
  exact Conversion.run_bind_of_error (characterToByte_exhausted positive later spent)

/-- A range over the line costs all of its letters. -/
private theorem lspRangeToByteRange_letters {count : ℕ} {character : UInt32} (limit scanned : ℕ) (positive : 0 < count)
    (reaches : character.toNat = count) (bounded : scanned + count ≤ limit) (limited : limit ≤ u64Max) :
    ((letters count limit).lspRangeToByteRange ⟨⟨0, 0⟩, ⟨0, character⟩⟩).run scanned = (.ok ⟨0, count⟩, scanned + count) := by
  have size : Utf8.size (letters count limit).text = count := size_replicate count
  exact lspRangeToByteRange_eq_ok.mpr ⟨scanned, lspPositionToByte_letters (Nat.zero_le _) (characterToByte_first scanned positive),
    lspPositionToByte_letters (show count ≤ u64Max by omega) (characterToByte_letters reaches bounded limited), positive, size.ge⟩

private theorem lspRangeToByteRange_exhausted {count : ℕ} {character : UInt32} (limit scanned : ℕ) (positive : 0 < count)
    (later : character ≠ 0) (spent : limit ≤ scanned) :
    ((letters count limit).lspRangeToByteRange ⟨⟨0, 0⟩, ⟨0, character⟩⟩).run scanned = (.error .workLimitExceeded, scanned) := by
  have first := @lspPositionToByte_letters count limit _ _ _ _ (Nat.zero_le _) (characterToByte_first scanned positive)
  rw [lspRangeToByteRange, Conversion.run_bind_of_ok first]
  exact Conversion.run_bind_of_error (lspPositionToByte_exhausted positive later spent)

/-- A symbol over a line of so many letters. -/
def wholeLine (character : UInt32) : DocumentSymbol :=
  ⟨"a", none, .known .variable_, ⟨⟨0, 0⟩, ⟨0, character⟩⟩, ⟨⟨0, 0⟩, ⟨0, character⟩⟩, none⟩

/-- The ranges of the first symbol use up the budget. -/
private theorem normalize_letters {count : ℕ} {character : UInt32} (positive : 0 < count) (reaches : character.toNat = count)
    (wire : wireRangeIsValid ⟨⟨0, 0⟩, ⟨0, character⟩⟩ = true) :
    (normalizeHierarchicalSymbols [wholeLine character, wholeLine character] (letters count (2 * count)) {}).run 0 =
      (.error (.position .workLimitExceeded), 0 + count + count) := by
  have small : 2 * count ≤ u64Max := by
    have := character.toNat_lt
    norm_num [u64Max]
    omega
  have nonzero : character ≠ 0 := by
    rintro rfl
    exact positive.ne reaches
  have checked (rawCount : ℕ) (few : rawCount ≤ 2) : checkPending {} rawCount ⟨wholeLine character, [], 0, 1⟩ = .ok () :=
    checkPending_eq_ok.mpr ⟨few.trans (show 2 ≤ (100000 : UInt64).toNat by decide), show 1 ≤ (256 : UInt64).toNat by decide,
      show "a" ≠ "" by decide, ⟨wire, wire⟩, show textBytes "a" ≤ (4096 : UInt64).toNat by decide,
      fun detail member => (by cases member), show 0 + textBytes "a" ≤ (65536 : UInt64).toNat by decide⟩
  have first := lspRangeToByteRange_letters (2 * count) (0) positive reaches (by omega) small
  have second := lspRangeToByteRange_letters (2 * count) (0 + count) positive reaches (by omega) small
  have third := lspRangeToByteRange_exhausted (2 * count) (0 + count + count) positive nonzero (by omega)
  have childless : checkChildren {} 1 (0 + 1) ⟨wholeLine character, [], 0, 1⟩ = .ok () := rfl
  have stored : 0 + PendingSymbol.ownedBytes ⟨wholeLine character, [], 0, 1⟩ ≤ (67108864 : UInt64).toNat :=
    show 0 + (textBytes "a" + textBytes "a" + 0 + (0 + textBytes "a")) ≤ (67108864 : UInt64).toNat by decide
  obtain ⟨next, visited, raw⟩ : ∃ next, (visitSymbol (letters count (2 * count)) {} 1 {} ⟨wholeLine character, [], 0, 1⟩).run 0 =
      (.ok next, 0 + count + count) ∧ next.rawCount = 1 :=
    ⟨_, visitSymbol_eq_ok.mpr ⟨checked (0 + 1) (by omega), ⟨0, count⟩, ⟨0, count⟩, 0 + count, first, second,
      by simp [rangeContains], stored, childless, show 0 + 1 ≤ (100000 : UInt64).toNat by decide, rfl⟩, rfl⟩
  have failed : (visitSymbol (letters count (2 * count)) {} 0 next ⟨wholeLine character, [], 0, 1⟩).run (0 + count + count) =
      (.error (.position .workLimitExceeded), 0 + count + count) := by
    have passed : (Normalizing.ofExcept (checkPending {} (next.rawCount + 1) ⟨wholeLine character, [], 0, 1⟩)).runFrom
        (0 + count + count) = (.ok (), 0 + count + count) := by
      rw [checked _ (by omega)]
      rfl
    have converted : (Normalizing.ofConversion ((letters count (2 * count)).lspRangeToByteRange (wholeLine character).range)).runFrom
        (0 + count + count) = (.error (.position .workLimitExceeded), 0 + count + count) := by
      change ((Conversion.run _ _).1.mapError _, (Conversion.run _ _).2) = _
      rw [wholeLine, third]
      rfl
    rw [visitSymbol]
    exact (ExceptT.runFrom_bind_of_ok passed).trans (ExceptT.runFrom_bind_of_error converted)
  have counted : (Normalizing.ofExcept (Lsp.enforceLimit [wholeLine character, wholeLine character].length
      (SymbolLimits.maximumRawSymbols {}) "raw_document_symbols")).runFrom 0 = (.ok (), 0) := rfl
  rw [normalizeHierarchicalSymbols]
  refine (ExceptT.runFrom_bind_of_ok counted).trans ?_
  rw [List.map_cons, List.map_cons, List.map_nil, flattenFrom]
  refine (ExceptT.runFrom_bind_of_ok visited).trans ?_
  change (flattenFrom _ _ [⟨wholeLine character, [], 0, 1⟩] next).runFrom _ = _
  rw [flattenFrom]
  exact ExceptT.runFrom_bind_of_error failed

/-! ## The command on this line -/

def letterBytes (count : ℕ) : Bytes := List.replicate count 97

private theorem encode_letters (count : ℕ) : Utf8.encode (List.replicate count 'a') = letterBytes count := by
  induction count with
  | zero => rfl
  | succ count ih =>
    rw [List.replicate_succ, Utf8.encode, List.flatMap_cons, ← Utf8.encode, ih]
    rfl

private theorem letterBytes_silent (count : ℕ) : ∀ byte ∈ letterBytes count, isTerminatorByte byte = false := by
  rw [← encode_letters]
  exact replicate_silent count

private theorem letterBytes_length (count : ℕ) : (letterBytes count).length = count := List.length_replicate

private theorem letters_built {count maximumLines maximumMemoryBytes : ℕ} (positive : 0 < count) (lines : 1 ≤ maximumLines)
    (memory : 8 ≤ maximumMemoryBytes) :
    LineIndex.fromBytesWithLimits (letterBytes count) maximumLines maximumMemoryBytes = .ok ⟨[count]⟩ := by
  have built := LineIndex.fromBytes_of_silent (List.ne_nil_of_length_pos ((letterBytes_length count).symm ▸ positive))
    (letterBytes_silent count) lines memory
  rwa [letterBytes_length] at built

/-- A workspace with this file. -/
def letterView (count : ℕ) : WorkspaceView where
  identity := ⟨1, 0⟩
  parents _ := .ok (⟨1, 0⟩, [⟨1, 0⟩])
  item path := if path = "a" then some (.file ⟨⟨1, 1⟩, 1, 0o644, letterBytes count⟩) else none

def letterSnapshot (count : ℕ) : FileSnapshot where
  id := 0
  path := ⟨"a"⟩
  parentIdentity := ⟨1, 0⟩
  parentIdentities := [⟨1, 0⟩]
  identity := ⟨1, 1⟩
  linkCount := 1
  bytes := letterBytes count
  digest := sha256Digest (letterBytes count)
  lineIndex := ⟨[count]⟩

private theorem letterSnapshot_acquired {count : ℕ} (positive : 0 < count) (bounded : count ≤ maximumSourceBytes) :
    (letterView count).acquireExistingFile sha256Digest ⟨"a"⟩ selectionSnapshotLimits = .ok (some (letterSnapshot count)) := by
  have small : count ≤ 8388608 := bounded
  have parsed : parseRelativePath "a" selectionSnapshotLimits.pathBytes = .ok ⟨"a"⟩ := by decide
  have counted : SnapshotAccounting.chargeIdentity {} selectionSnapshotLimits = .ok ⟨1, 0, 0, 0⟩ := by decide
  have basename : String.ofList ((pathComponents "a").getLast?.getD []) = "a" := by decide
  have validated : (letterView count).validatePath ⟨"a"⟩ = .ok ⟨⟨1, 0⟩, [⟨1, 0⟩], "a", .existing ⟨1, 1⟩⟩ := by
    have path : (⟨⟨1, 0⟩, [⟨1, 0⟩], String.ofList ((pathComponents "a").getLast?.getD []), .existing ⟨1, 1⟩⟩ : ValidatedPath) =
        ⟨⟨1, 0⟩, [⟨1, 0⟩], "a", .existing ⟨1, 1⟩⟩ := by rw [basename]
    exact congrArg Except.ok path
  have added : checkedFsAdd 0 (letterBytes count).length "snapshot_bytes" = .ok count := by
    rw [letterBytes_length, checkedFsAdd, Nat.zero_add, if_pos (by norm_num [u64Max]; omega)]
  have single : enforceFsLimit "snapshot_file_bytes" (letterBytes count).length selectionSnapshotLimits.fileBytes = .ok () := by
    rw [letterBytes_length]
    exact Except.rejectIf_of_not (not_lt.mpr bounded)
  have total : enforceFsLimit "snapshot_bytes" count selectionSnapshotLimits.totalBytes = .ok () :=
    Except.rejectIf_of_not (not_lt.mpr bounded)
  have acquired : WorkspaceView.acquireExisting sha256Digest ⟨"a"⟩ ⟨⟨1, 0⟩, [⟨1, 0⟩], "a", .existing ⟨1, 1⟩⟩
      ⟨⟨1, 1⟩, 1, 0o644, letterBytes count⟩ selectionSnapshotLimits ⟨1, 0, 0, 0⟩ = .ok (letterSnapshot count) := by
    have index : buildLineIndex (letterBytes count) selectionSnapshotLimits ⟨1, 0, 0, 0⟩ = .ok ⟨[count]⟩ := by
      rw [buildLineIndex, letters_built positive (by decide) (by decide)]
    rw [WorkspaceView.acquireExisting, single, Except.ok_bind, added, Except.ok_bind, total, Except.ok_bind, index]
    rfl
  have charged : SnapshotAccounting.chargeFile ⟨1, 0, 0, 0⟩ (letterSnapshot count) selectionSnapshotLimits =
      .ok ⟨1, count, 1, 8⟩ := by
    have lines : checkedFsAdd 0 (letterSnapshot count).lineIndex.lineCount "line_count" = .ok 1 := rfl
    have indexed : checkedFsAdd 0 (letterSnapshot count).lineIndex.memoryBytes "line_index_memory" = .ok 8 := rfl
    rw [SnapshotAccounting.chargeFile]
    change (checkedFsAdd 0 (letterBytes count).length "snapshot_bytes" >>= _) = _
    have few : enforceFsLimit "line_count" 1 selectionSnapshotLimits.totalLines = .ok () := Except.rejectIf_of_not (by decide)
    have stored : enforceFsLimit "line_index_memory" 8 selectionSnapshotLimits.lineIndexMemory = .ok () :=
      Except.rejectIf_of_not (by decide)
    rw [added, Except.ok_bind, total, Except.ok_bind, lines, Except.ok_bind, few, Except.ok_bind, indexed, Except.ok_bind, stored]
    rfl
  rw [WorkspaceView.acquireExistingFile, parsed, Except.ok_bind, counted, Except.ok_bind, validated, Except.ok_bind]
  change (WorkspaceView.acquireExisting sha256Digest ⟨"a"⟩ ⟨⟨1, 0⟩, [⟨1, 0⟩], "a", .existing ⟨1, 1⟩⟩
    ⟨⟨1, 1⟩, 1, 0o644, letterBytes count⟩ selectionSnapshotLimits ⟨1, 0, 0, 0⟩ >>= _) = _
  rw [acquired, Except.ok_bind]
  change (SnapshotAccounting.chargeFile ⟨1, 0, 0, 0⟩ (letterSnapshot count) selectionSnapshotLimits >>= _) = _
  rw [charged]
  rfl

/-- The symbol as a server sends it. -/
def wholeLineContent (character : UInt32) : Content :=
  .map [("name", .string "a"), ("kind", .natural 13), ("range", rangeContent (wholeLine character).range),
    ("selectionRange", rangeContent (wholeLine character).selectionRange)]

/-- A server that answers with this symbol twice. -/
def letterSurroundings (count : ℕ) (character : UInt32) : Surroundings where
  warnings := .ok []
  view := letterView count
  sha256 := sha256Digest
  workspaceIdentityHash := zeroDigest
  session _ := .ok ⟨none, none, none, .utf32, .seq [wholeLineContent character, wholeLineContent character]⟩
  fromValue _ := some [wholeLine character, wholeLine character]
  toVec _ := []

theorem letters_acquired {count : ℕ} {character : UInt32} (positive : 0 < count) (bounded : count ≤ maximumSourceBytes) :
    Select.acquireSource (letterSurroundings count character) "a" = .ok (letterSnapshot count) := by
  rw [Select.acquireSource]
  change (((letterView count).acquireExistingFile sha256Digest ⟨"a"⟩ selectionSnapshotLimits).mapError _ >>= _) = _
  rw [letterSnapshot_acquired positive bounded]
  rfl

private theorem letters_decoded (count : ℕ) : Select.decodeSource (letterSnapshot count) = .ok (List.replicate count 'a') := by
  have decoded : Utf8.decode (letterBytes count) = some (List.replicate count 'a') :=
    Utf8.decode_eq_some_iff.mpr (encode_letters count)
  have read : (letterSnapshot count).bytes = letterBytes count := rfl
  rw [Select.decodeSource, read, decoded]

private theorem letters_created {count : ℕ} (positive : 0 < count) (sized : count ≤ u64Max) (encoding : SupportedPositionEncoding) :
    PositionConverter.create (List.replicate count 'a') (letterSnapshot count).lineIndex encoding {} =
      .ok ⟨List.replicate count 'a', ⟨[count]⟩, encoding, {}⟩ := by
  have built := letters_built positive (Nat.le_refl 1) (Nat.le_refl 8)
  have sliced : slice? (letterBytes count) ⟨0, count⟩ = some (letterBytes count) := by
    rw [slice?_of_le (Nat.zero_le _) (letterBytes_length count).ge, List.drop_zero, Nat.sub_zero,
      List.take_of_length_le (letterBytes_length count).le]
  have metrics := LineIndex.metricsForRange_eq built sliced ((letterBytes_length count).symm ▸ sized)
  have index : (letterSnapshot count).lineIndex = ⟨[count]⟩ := rfl
  rw [PositionConverter.create, size_replicate, if_neg (by omega), encode_letters, index, metrics]

private theorem letters_exhaust (count : ℕ) (character : UInt32) (positive : 0 < count) (reaches : character.toNat = count)
    (bounded : 2 * count = PositionLimits.maximumCodePointsScanned {}) (wire : wireRangeIsValid (wholeLine character).range = true) :
    Select.Exhausts (letterSurroundings count character) { path := "a", name := some "a" } := by
  have small : 2 * count = 16777216 := bounded
  have sized : count ≤ u64Max := by norm_num [u64Max]; omega
  have reads : Select.Reads (letterSurroundings count character) { path := "a", name := some "a" } none [] (letterSnapshot count)
      (List.replicate count 'a') :=
    ⟨rfl, rfl, rfl, letters_acquired positive (show count ≤ 8388608 by omega), letters_decoded count⟩
  have validated : Select.validateQuery { path := "a", name := some "a" } none (List.replicate count 'a') (letterSnapshot count) =
      .ok ⟨none, .name "a"⟩ := by
    rw [Select.validateQuery, letters_created positive sized]
    rfl
  have serves : Select.Serves (letterSurroundings count character) (letterSnapshot count) _ := ⟨rfl, rfl, rfl⟩
  have limit : letters count (2 * count) = ⟨List.replicate count 'a', ⟨[count]⟩, .utf32, {}⟩ := by rw [letters, bounded]
  have response : decodeHierarchicalResponse (fun _ => some [wholeLine character, wholeLine character])
      (.seq [wholeLineContent character, wholeLineContent character]) = .ok [wholeLine character, wholeLine character] := by
    simp [decodeHierarchicalResponse, hasMember, wholeLineContent]
  have normalized := normalize_letters positive reaches wire
  refine .normalization reads validated serves (letters_created positive sized .utf32) ?_
  have failed : (normalizeDocumentSymbols (letterSurroundings count character).fromValue
      (.seq [wholeLineContent character, wholeLineContent character]) (letters count (2 * count)) {}).run 0 =
        (.error (.position .workLimitExceeded), 0 + count + count) := by
    have sent : (Normalizing.ofExcept (decodeHierarchicalResponse (letterSurroundings count character).fromValue
        (.seq [wholeLineContent character, wholeLineContent character]))).runFrom 0 =
          (.ok [wholeLine character, wholeLine character], 0) := by
      rw [letterSurroundings, response]
      rfl
    rw [normalizeDocumentSymbols]
    exact (ExceptT.runFrom_bind_of_ok sent).trans normalized
  rw [limit] at failed
  exact congrArg Prod.fst failed

/-- The first symbol over a line of eight mebibytes uses up the budget, and the second one is reported as a protocol error. -/
theorem exhausted_line_misreported :
    Select.Exhausts (letterSurroundings 8388608 8388608) { path := "a", name := some "a" } ∧
      ∃ report, Select.executeInner (letterSurroundings 8388608 8388608) { path := "a", name := some "a" } = .error report ∧
        report.code ≠ .lspResourceLimitExceeded := by
  have exhausts := letters_exhaust 8388608 8388608 (by norm_num) rfl rfl (by decide)
  obtain ⟨report, failed, code⟩ := exhausts.reported
  refine ⟨exhausts, report, failed, fun limited => ?_⟩
  rw [limited] at code
  rcases code with impossible | impossible <;> cases impossible

/-- The same selection. -/
theorem exhausted_work_misreported_example :
    ∃ report, Select.executeInner (letterSurroundings 8388608 8388608) { path := "a", name := some "a" } = .error report ∧
      (report.code = .invalidSelectionQuery ∨ report.code = .lspProtocolError) :=
  (exhausted_work_misreported (letterSurroundings 8388608 8388608)).1 { path := "a", name := some "a" }
    (letters_exhaust 8388608 8388608 (by norm_num) rfl rfl (by decide))

end Example

end Srcmv.Cli
