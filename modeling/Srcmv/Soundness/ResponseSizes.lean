import Srcmv.Model.Cli.Select
import Srcmv.Model.Lsp.Session
import Srcmv.Model.Protocol.Responses
import Srcmv.Soundness.WorkLimit
import Srcmv.ToMathlib.CompactJson

/-! # Sizes that are added up

A selection is refused as soon as the matches so far make its line too long, and a configuration reply
as soon as its values so far make their array too long. Both sizes are added up by hand; after every item
they are the sizes of what would be written.
-/

namespace Srcmv.Cli.Select

open Srcmv.Core Srcmv.Fs Srcmv.Lsp Srcmv.Protocol

section Selections

variable {surroundings : Surroundings} {snapshot : FileSnapshot} {query : ValidatedQuery} {output : SessionOutput}
  {warnings : List WarningDto}

/-- The response with these matches. -/
def responseWith (surroundings : Surroundings) (snapshot : FileSnapshot) (query : ValidatedQuery) (output : SessionOutput)
    (warnings : List WarningDto) (matches_ : List SelectionMatchDto) : SelectionResponse where
  workspaceIdentityHash := surroundings.workspaceIdentityHash.toPrefixedHex
  source := ⟨snapshot.path.value, snapshot.digest.toPrefixedHex, snapshot.bytes.length⟩
  query := queryDto query
  server := ⟨output.configurationId, output.reportedName, output.reportedVersion, output.positionEncoding⟩
  matches_
  warnings

/-- The size of the line with these matches. -/
private def lineLength (surroundings : Surroundings) (snapshot : FileSnapshot) (query : ValidatedQuery)
    (output : SessionOutput) (warnings : List WarningDto) (matches_ : List SelectionMatchDto) : ℕ :=
  (toJsonLine surroundings.toVec (responseWith surroundings snapshot query output warnings matches_).content).length

/-- Only the list of matches depends on the matches. -/
private theorem lineLength_eq (serializer : Content.Compact surroundings.toVec) : ∃ envelope, ∀ matches_,
    lineLength surroundings snapshot query output warnings matches_ =
      envelope + (CompactJson.array (matches_.map fun selected => surroundings.toVec selected.content)).length := by
  refine ⟨lineLength surroundings snapshot query output warnings [] - 2, ?_⟩
  intro matches_
  have lists : ∀ items : List SelectionMatchDto, surroundings.toVec (.seq (items.map SelectionMatchDto.content)) =
      CompactJson.array (items.map fun selected => surroundings.toVec selected.content) := by
    intro items
    rw [serializer.seq, List.map_map]
    rfl
  have empty : (surroundings.toVec (.seq [])).length = 2 := by rw [serializer.seq]; rfl
  simp only [lineLength, toJsonLine, SelectionResponse.content, responseWith, List.length_append, serializer.length_map,
    List.map_cons, List.map_nil, List.sum_cons, List.sum_nil, List.length_cons, List.length_nil, lists, empty]
  omega

private theorem lineLength_concat (serializer : Content.Compact surroundings.toVec) (matches_ : List SelectionMatchDto)
    (selected : SelectionMatchDto) :
    lineLength surroundings snapshot query output warnings (matches_ ++ [selected]) =
      lineLength surroundings snapshot query output warnings matches_ + (surroundings.toVec selected.content).length +
        (if matches_ = [] then 0 else 1) := by
  obtain ⟨envelope, sizes⟩ := @lineLength_eq surroundings snapshot query output warnings serializer
  rw [sizes, sizes, List.map_append, List.map_singleton, CompactJson.length_array_concat]
  simp only [List.map_eq_nil_iff]
  omega

private theorem lineLength_append_le (serializer : Content.Compact surroundings.toVec) (matches_ later : List SelectionMatchDto) :
    lineLength surroundings snapshot query output warnings matches_ ≤
      lineLength surroundings snapshot query output warnings (matches_ ++ later) := by
  induction later generalizing matches_ with
  | nil => rw [List.append_nil]
  | cons selected rest ih =>
    have further := ih (matches_ ++ [selected])
    rw [List.append_assoc, List.singleton_append] at further
    have one := @lineLength_concat surroundings snapshot query output warnings serializer matches_ selected
    omega

/-- The size that is carried along is that of the line with the matches so far. -/
private def Exact (surroundings : Surroundings) (snapshot : FileSnapshot) (query : ValidatedQuery)
    (output : SessionOutput) (warnings : List WarningDto) (measured : Measured) : Prop :=
  measured.bytes = lineLength surroundings snapshot query output warnings measured.matches_

private theorem addMatch_exact (serializer : Content.Compact surroundings.toVec) {measured : Measured}
    (exact_ : Exact surroundings snapshot query output warnings measured) {selected : SymbolMatch} {built : SelectionMatchDto}
    (builds : buildMatch surroundings.sha256 snapshot selected = .ok built) :
    addMatch surroundings snapshot measured selected =
      if lineLength surroundings snapshot query output warnings (measured.matches_ ++ [built]) ≤ maxResponseBytes then
        .ok ⟨lineLength surroundings snapshot query output warnings (measured.matches_ ++ [built]), measured.matches_ ++ [built]⟩
      else .error responseSizeError := by
  rw [addMatch, builds, Except.ok_bind]
  dsimp only
  rw [exact_, ← lineLength_concat serializer, enforceResponseSize]
  split_ifs with exceeds fits fits
  · omega
  · rfl
  · rfl
  · omega

/-- Matches that are kept were built, and the size stays exact. -/
private theorem addMatches_exact (serializer : Content.Compact surroundings.toVec) {found : List SymbolMatch}
    {measured last : Measured} (exact_ : Exact surroundings snapshot query output warnings measured)
    (added : found.foldlM (addMatch surroundings snapshot) measured = .ok last) :
    Exact surroundings snapshot query output warnings last ∧
      ∃ built, found.mapM (buildMatch surroundings.sha256 snapshot) = .ok built := by
  induction found generalizing measured with
  | nil =>
    rw [List.foldlM_nil, Except.pure_eq_ok] at added
    subst added
    exact ⟨exact_, [], rfl⟩
  | cons selected rest ih =>
    rw [List.foldlM_cons] at added
    obtain ⟨next, stepped, added⟩ := Except.bind_eq_ok.mp added
    cases builds : buildMatch surroundings.sha256 snapshot selected with
    | error failure =>
      rw [addMatch, builds] at stepped
      cases stepped
    | ok first =>
      rw [addMatch_exact serializer exact_ builds] at stepped
      split_ifs at stepped with fits
      obtain rfl := Except.ok.inj stepped
      have next : Exact surroundings snapshot query output warnings
          ⟨lineLength surroundings snapshot query output warnings (measured.matches_ ++ [first]), measured.matches_ ++ [first]⟩ := rfl
      obtain ⟨exact_, others, built⟩ := ih next added
      refine ⟨exact_, first :: others, ?_⟩
      rw [List.mapM_cons, builds, built]
      rfl

/-- Matches that fit together fit one after the other, and the others are refused for their size. -/
private theorem addMatches_fit (serializer : Content.Compact surroundings.toVec) {found : List SymbolMatch}
    {measured : Measured} {built : List SelectionMatchDto} (exact_ : Exact surroundings snapshot query output warnings measured)
    (bounded : measured.bytes ≤ maxResponseBytes)
    (builds : found.mapM (buildMatch surroundings.sha256 snapshot) = .ok built) :
    found.foldlM (addMatch surroundings snapshot) measured =
      if lineLength surroundings snapshot query output warnings (measured.matches_ ++ built) ≤ maxResponseBytes then
        .ok ⟨lineLength surroundings snapshot query output warnings (measured.matches_ ++ built), measured.matches_ ++ built⟩
      else .error responseSizeError := by
  induction found generalizing measured built with
  | nil =>
    rw [List.mapM_nil, Except.pure_eq_ok] at builds
    subst builds
    rw [List.append_nil, ← exact_, if_pos bounded]
    rfl
  | cons selected rest ih =>
    rw [List.mapM_cons] at builds
    obtain ⟨first, begins, builds⟩ := Except.bind_eq_ok.mp builds
    obtain ⟨others, built, same⟩ := Except.bind_eq_ok.mp builds
    obtain rfl := Except.pure_eq_ok.mp same
    have further := @lineLength_append_le surroundings snapshot query output warnings serializer
      (measured.matches_ ++ [first]) others
    rw [List.append_assoc, List.singleton_append] at further
    rw [List.foldlM_cons, addMatch_exact serializer exact_ begins]
    by_cases fits : lineLength surroundings snapshot query output warnings (measured.matches_ ++ [first]) ≤ maxResponseBytes
    · have next : Exact surroundings snapshot query output warnings
          ⟨lineLength surroundings snapshot query output warnings (measured.matches_ ++ [first]), measured.matches_ ++ [first]⟩ := rfl
      have later := ih next fits built
      dsimp only at later
      rw [List.append_assoc, List.singleton_append] at later
      rw [if_pos fits, Except.ok_bind, later]
    · rw [if_neg fits, if_neg (by omega)]
      rfl

private theorem writeBounded_whole {maximum : ℕ} {pieces : List Bytes} {written : Bytes}
    (fits : (written ++ pieces.flatten).length ≤ maximum) :
    pieces.foldlM (writeBounded maximum) written = .ok (written ++ pieces.flatten) := by
  induction pieces generalizing written with
  | nil => rw [List.flatten_nil, List.append_nil]; rfl
  | cons piece rest ih =>
    rw [List.flatten_cons, ← List.append_assoc] at fits ⊢
    have first : ¬written.length + piece.length > maximum := by
      rw [List.length_append, List.length_append] at fits
      omega
    rw [List.foldlM_cons, writeBounded, if_neg first, Except.ok_bind]
    exact ih fits

/-- A line within the limit is written, however the serializer cuts it. -/
private theorem writeBoundedJsonLine_whole {toVec : Content → Bytes} {value : Content} {pieces : List Bytes}
    (cut : pieces.flatten = toVec value) (fits : (toJsonLine toVec value).length ≤ maxResponseBytes) :
    writeBoundedJsonLine pieces maxResponseBytes = .ok (toJsonLine toVec value) := by
  have payload : ([] ++ pieces.flatten).length ≤ maxResponseBytes - 1 := by
    rw [toJsonLine, List.length_append, List.length_singleton] at fits
    rw [List.nil_append, cut]
    omega
  rw [writeBoundedJsonLine, writeBounded_whole payload, List.nil_append, cut]
  rfl

/-- A response is built in two checks: without matches, and with one match after the other. -/
private theorem buildResponse_eq (found : List SymbolMatch) :
    buildResponse surroundings snapshot query output found warnings = (do
      let empty := lineLength surroundings snapshot query output warnings []
      enforceResponseSize empty
      let measured ← found.foldlM (addMatch surroundings snapshot) ⟨empty, []⟩
      return responseWith surroundings snapshot query output warnings measured.matches_) := by
  have opens : (surroundings.toVec (responseWith surroundings snapshot query output warnings []).content).length + 1 =
      lineLength surroundings snapshot query output warnings [] := by
    rw [lineLength, toJsonLine, List.length_append, List.length_singleton]
  rw [← opens]
  rfl

private theorem buildResponse_fit (serializer : Content.Compact surroundings.toVec) {found : List SymbolMatch}
    {built : List SelectionMatchDto} (builds : found.mapM (buildMatch surroundings.sha256 snapshot) = .ok built) :
    buildResponse surroundings snapshot query output found warnings =
      if lineLength surroundings snapshot query output warnings built ≤ maxResponseBytes then
        .ok (responseWith surroundings snapshot query output warnings built)
      else .error responseSizeError := by
  have begins : Exact surroundings snapshot query output warnings
      ⟨lineLength surroundings snapshot query output warnings [], []⟩ := rfl
  have further := @lineLength_append_le surroundings snapshot query output warnings serializer [] built
  rw [List.nil_append] at further
  rw [buildResponse_eq]
  dsimp only
  rw [enforceResponseSize]
  by_cases empty : lineLength surroundings snapshot query output warnings [] ≤ maxResponseBytes
  · rw [if_neg (not_lt.mpr empty), Except.ok_bind, addMatches_fit serializer begins empty builds, List.nil_append]
    split_ifs <;> rfl
  · rw [if_pos (not_le.mp empty), if_neg (by omega)]
    rfl

/-- Nothing is answered without all matches. -/
private theorem buildResponse_builds (serializer : Content.Compact surroundings.toVec) {found : List SymbolMatch}
    {response : SelectionResponse}
    (accepted : buildResponse surroundings snapshot query output found warnings = .ok response) :
    ∃ built, found.mapM (buildMatch surroundings.sha256 snapshot) = .ok built := by
  rw [buildResponse_eq] at accepted
  obtain ⟨_, -, accepted⟩ := Except.bind_eq_ok.mp accepted
  obtain ⟨measured, added, -⟩ := Except.bind_eq_ok.mp accepted
  have begins : Exact surroundings snapshot query output warnings
      ⟨lineLength surroundings snapshot query output warnings [], []⟩ := rfl
  exact (addMatches_exact serializer begins added).2

end Selections

end Srcmv.Cli.Select

namespace Srcmv.Lsp

section Configuration

variable {crate : ValueCrate} {input : SessionInput}

/-- What a serializer of compact JSON promises of arrays and of nulls. -/
structure CompactValues (crate : ValueCrate) : Prop where
  null : crate.toVec .null = [110, 117, 108, 108]
  array : ∀ items, crate.toVec (.array items) = CompactJson.array (items.map crate.toVec)

/-- An object whose section, if it has one, is a text. -/
def WellFormedItem (item : Value) : Prop :=
  ∃ members, item = .object members ∧ ∀ value, members.lookup "section" = some value → ∃ name, value = .string name

/-- The settings that an item asks for; null stands for what is not there. -/
def configuredValue (settings : Option Value) (item : Value) : Value :=
  ((configuredSection settings item).toOption.bind id).getD .null

private theorem configuredSection_ok (settings : Option Value) {item : Value} (formed : WellFormedItem item) :
    ∃ configured, configuredSection settings item = .ok configured ∧ configured.getD .null = configuredValue settings item := by
  obtain ⟨members, rfl, section_⟩ := formed
  have accepted : ∃ configured, configuredSection settings (.object members) = .ok configured := by
    rw [configuredSection]
    cases named : members.lookup "section" with
    | none => exact ⟨_, rfl⟩
    | some value =>
      obtain ⟨name, rfl⟩ := section_ value named
      exact ⟨_, rfl⟩
  obtain ⟨configured, accepted⟩ := accepted
  exact ⟨configured, accepted, by rw [configuredValue, accepted]; rfl⟩

private theorem itemBytes_eq (values : CompactValues crate) (configured : Option Value) :
    configured.elim 4 (serializedLen crate) = (crate.toVec (configured.getD .null)).length := by
  cases configured with
  | none => rw [Option.getD_none, values.null]; rfl
  | some value => rfl

/-- The size of the reply's array. -/
private def arrayLength (crate : ValueCrate) (result : List Value) : ℕ := (crate.toVec (.array result)).length

private theorem arrayLength_concat (values : CompactValues crate) (result : List Value) (value : Value) :
    arrayLength crate (result ++ [value]) =
      arrayLength crate result + (if result.length ≠ 0 then 1 else 0) + (crate.toVec value).length := by
  rw [arrayLength, arrayLength, values.array, values.array, List.map_append, List.map_singleton, CompactJson.length_array_concat]
  cases result with
  | nil => rfl
  | cons first rest => rfl

private theorem arrayLength_append_le (values : CompactValues crate) (result later : List Value) :
    arrayLength crate result ≤ arrayLength crate (result ++ later) := by
  induction later generalizing result with
  | nil => rw [List.append_nil]
  | cons value rest ih =>
    have further := ih (result ++ [value])
    rw [List.append_assoc, List.singleton_append] at further
    have one := arrayLength_concat values result value
    omega

private theorem configureItem_exact (values : CompactValues crate) (result : List Value) {item : Value}
    (formed : WellFormedItem item) :
    configureItem crate input (arrayLength crate result, result) (item, result.length) =
      if arrayLength crate (result ++ [configuredValue input.settings item]) ≤ input.limits.configurationResponseBytes then
        .ok (arrayLength crate (result ++ [configuredValue input.settings item]), result ++ [configuredValue input.settings item])
      else .error (.resourceLimit "configuration response bytes" input.limits.configurationResponseBytes) := by
  obtain ⟨configured, accepted, same⟩ := configuredSection_ok input.settings formed
  rw [configureItem, accepted, Except.ok_bind]
  dsimp only
  rw [itemBytes_eq values, same, ← arrayLength_concat values, ensureWithinLimit]
  split_ifs with exceeds fits fits
  · omega
  · rfl
  · rfl
  · omega

private theorem configureItems_exact (values : CompactValues crate) {items result : List Value}
    (formed : ∀ item ∈ items, WellFormedItem item)
    (bounded : arrayLength crate result ≤ input.limits.configurationResponseBytes) :
    (items.zipIdx result.length).foldlM (configureItem crate input) (arrayLength crate result, result) =
      if arrayLength crate (result ++ items.map (configuredValue input.settings)) ≤ input.limits.configurationResponseBytes then
        .ok (arrayLength crate (result ++ items.map (configuredValue input.settings)),
          result ++ items.map (configuredValue input.settings))
      else .error (.resourceLimit "configuration response bytes" input.limits.configurationResponseBytes) := by
  induction items generalizing result with
  | nil =>
    rw [List.map_nil, List.append_nil, if_pos bounded]
    rfl
  | cons item rest ih =>
    obtain ⟨first, later⟩ := List.forall_mem_cons.mp formed
    have further := arrayLength_append_le values (result ++ [configuredValue input.settings item])
      (rest.map (configuredValue input.settings))
    rw [List.zipIdx_cons, List.foldlM_cons, configureItem_exact values result first, List.map_cons]
    rw [List.append_assoc, List.singleton_append] at further
    by_cases fits : arrayLength crate (result ++ [configuredValue input.settings item]) ≤ input.limits.configurationResponseBytes
    · have others := ih later fits
      rw [List.length_append, List.length_singleton, List.append_assoc, List.singleton_append] at others
      rw [if_pos fits, Except.ok_bind, others]
    · rw [if_neg fits, if_neg (by omega)]
      rfl

private theorem configureItems_length (values : CompactValues crate) {items result last : List Value} {size : ℕ}
    (configured : (items.zipIdx result.length).foldlM (configureItem crate input) (arrayLength crate result, result) =
      .ok (size, last)) : size = arrayLength crate last := by
  induction items generalizing result with
  | nil =>
    rw [List.zipIdx_nil, List.foldlM_nil, Except.pure_eq_ok, Prod.mk.injEq] at configured
    rw [← configured.1, ← configured.2]
  | cons item rest ih =>
    rw [List.zipIdx_cons, List.foldlM_cons] at configured
    obtain ⟨next, stepped, configured⟩ := Except.bind_eq_ok.mp configured
    obtain ⟨value, -, stepped⟩ := Except.bind_eq_ok.mp stepped
    obtain ⟨_, -, stepped⟩ := Except.bind_eq_ok.mp stepped
    dsimp only at stepped
    rw [itemBytes_eq values, ← arrayLength_concat values] at stepped
    obtain rfl := Except.pure_eq_ok.mp stepped
    refine @ih (result ++ [value.getD .null]) ?_
    rw [List.length_append, List.length_singleton]
    exact configured

private theorem dispatch_configuration (values : CompactValues crate) {request : ServerRequest} {items : List Value}
    (asked : request.method = "workspace/configuration")
    (listed : (request.params.bind (·.get "items")).bind Value.asArray = some items)
    (few : items.length ≤ input.limits.configurationItems) (formed : ∀ item ∈ items, WellFormedItem item) :
    dispatchServerRequest crate input request =
      if (crate.toVec (.array (items.map (configuredValue input.settings)))).length ≤ input.limits.configurationResponseBytes then
        .ok (resultReply request.id.toJson (.array (items.map (configuredValue input.settings))))
      else .error (.resourceLimit "configuration response bytes" input.limits.configurationResponseBytes) := by
  have empty : arrayLength crate [] = 2 := by rw [arrayLength, values.array]; rfl
  have further := arrayLength_append_le values [] (items.map (configuredValue input.settings))
  rw [List.nil_append, empty] at further
  have collected := @configureItems_exact crate input values items [] formed
  rw [List.nil_append, List.length_nil, empty] at collected
  obtain ⟨id, method, params⟩ := request
  dsimp only at asked listed ⊢
  subst asked
  rw [dispatchServerRequest]
  dsimp only
  rw [listed]
  dsimp only
  rw [configureItems, ensureWithinLimit, if_neg (not_lt.mpr few), Except.ok_bind, ensureWithinLimit]
  by_cases fits : 2 ≤ input.limits.configurationResponseBytes
  · rw [if_neg (not_lt.mpr fits), Except.ok_bind, collected fits, arrayLength]
    split_ifs <;> rfl
  · rw [arrayLength] at further
    rw [if_pos (not_le.mp fits), if_neg (by omega)]
    rfl

end Configuration

end Srcmv.Lsp

namespace Srcmv.Cli

open Srcmv.Core Srcmv.Fs Srcmv.Lsp Srcmv.Protocol Select

/-- A selection is answered exactly when all its matches are built and its line is within the limit, and
then the line is written; a configuration request is answered exactly when the array of its values is
within its limit. -/
theorem accumulated_sizes_exact :
    (∀ (surroundings : Surroundings) (snapshot : FileSnapshot) (query : ValidatedQuery) (output : SessionOutput)
        (found : List SymbolMatch) (warnings : List WarningDto), Content.Compact surroundings.toVec →
      (∀ measured, found.foldlM (addMatch surroundings snapshot)
          ⟨(toJsonLine surroundings.toVec (responseWith surroundings snapshot query output warnings []).content).length, []⟩ =
            .ok measured →
        measured.bytes = (toJsonLine surroundings.toVec
          (responseWith surroundings snapshot query output warnings measured.matches_).content).length) ∧
      (∀ response, buildResponse surroundings snapshot query output found warnings = .ok response ↔
        ∃ built, found.mapM (buildMatch surroundings.sha256 snapshot) = .ok built ∧
          response = responseWith surroundings snapshot query output warnings built ∧
          (toJsonLine surroundings.toVec response.content).length ≤ maxResponseBytes) ∧
      (∀ built, found.mapM (buildMatch surroundings.sha256 snapshot) = .ok built →
        maxResponseBytes < (toJsonLine surroundings.toVec
          (responseWith surroundings snapshot query output warnings built).content).length →
        buildResponse surroundings snapshot query output found warnings = .error responseSizeError) ∧
      ∀ response pieces, buildResponse surroundings snapshot query output found warnings = .ok response →
        pieces.flatten = surroundings.toVec response.content →
        writeBoundedJsonLine pieces maxResponseBytes = .ok (toJsonLine surroundings.toVec response.content)) ∧
    ∀ (crate : ValueCrate) (input : SessionInput) (request : ServerRequest) (items : List Value), CompactValues crate →
      (∀ size result, items.zipIdx.foldlM (configureItem crate input) (2, []) = .ok (size, result) →
        size = (crate.toVec (.array result)).length) ∧
      (request.method = "workspace/configuration" →
        (request.params.bind (·.get "items")).bind Value.asArray = some items →
        items.length ≤ input.limits.configurationItems → (∀ item ∈ items, WellFormedItem item) →
        dispatchServerRequest crate input request =
          if (crate.toVec (.array (items.map (configuredValue input.settings)))).length ≤
              input.limits.configurationResponseBytes then
            .ok (resultReply request.id.toJson (.array (items.map (configuredValue input.settings))))
          else .error (.resourceLimit "configuration response bytes" input.limits.configurationResponseBytes)) := by
  constructor
  · intro surroundings snapshot query output found warnings serializer
    have begins : Exact surroundings snapshot query output warnings
        ⟨lineLength surroundings snapshot query output warnings [], []⟩ := rfl
    have accepts : ∀ response, buildResponse surroundings snapshot query output found warnings = .ok response ↔
        ∃ built, found.mapM (buildMatch surroundings.sha256 snapshot) = .ok built ∧
          response = responseWith surroundings snapshot query output warnings built ∧
          (toJsonLine surroundings.toVec response.content).length ≤ maxResponseBytes := by
      intro response
      constructor
      · intro accepted
        obtain ⟨built, builds⟩ := buildResponse_builds serializer accepted
        rw [buildResponse_fit serializer builds] at accepted
        split_ifs at accepted with fits
        obtain rfl := Except.ok.inj accepted
        exact ⟨built, builds, rfl, fits⟩
      · rintro ⟨built, builds, rfl, fits⟩
        rw [buildResponse_fit serializer builds, lineLength, if_pos fits]
    refine ⟨?_, accepts, ?_, ?_⟩
    · exact fun measured added => (addMatches_exact serializer begins added).1
    · intro built builds exceeds
      rw [buildResponse_fit serializer builds, lineLength, if_neg (not_le.mpr exceeds)]
    · intro response pieces accepted cut
      obtain ⟨-, -, -, fits⟩ := (accepts response).mp accepted
      exact writeBoundedJsonLine_whole cut fits
  · intro crate input request items values
    have empty : arrayLength crate [] = 2 := by rw [arrayLength, values.array]; rfl
    constructor
    · intro size result configured
      rw [← empty] at configured
      exact configureItems_length values configured
    · exact dispatch_configuration values

section Example

mutual

/-- The compact form of values, with zero for floats. -/
def compactValue : Value → Bytes
  | .null => [110, 117, 108, 108]
  | .bool true => [116, 114, 117, 101]
  | .bool false => [102, 97, 108, 115, 101]
  | .number (.posInt value) => CompactJson.natural value
  | .number (.negInt value) => 45 :: CompactJson.natural (UInt64.ofNat value.toInt.natAbs)
  | .number (.float _) => [48]
  | .string value => CompactJson.quoted value
  | .array items => CompactJson.array (compactValues items)
  | .object members => CompactJson.object (compactMembers members)

def compactValues : List Value → List Bytes
  | [] => []
  | value :: rest => compactValue value :: compactValues rest

def compactMembers : List (String × Value) → List Bytes
  | [] => []
  | (name, value) :: rest => CompactJson.member name (compactValue value) :: compactMembers rest

end

private theorem compactValues_eq (items : List Value) : compactValues items = items.map compactValue := by
  induction items with
  | nil => rw [compactValues, List.map_nil]
  | cons value rest ih => rw [compactValues, ih, List.map_cons]

private theorem compactValue_compact : CompactValues ⟨fun _ => none, compactValue⟩ where
  null := by dsimp only; rw [compactValue]
  array items := by dsimp only; rw [compactValue, compactValues_eq]

/-- One letter of the file of letters, as a match. -/
def letterMatch : SymbolMatch :=
  ⟨"a", none, .known .function, [], ⟨⟨0, 0⟩, ⟨0, 1⟩⟩, ⟨⟨0, 0⟩, ⟨0, 1⟩⟩, ⟨0, 1⟩, ⟨0, 1⟩, .symbol⟩

/-- Settings of one name, asked for once whole and once by a dotted name that is not there. -/
def configurationRequest : ServerRequest :=
  ⟨.integer 1, "workspace/configuration",
    some (.object [("items", .array [.object [], .object [("section", .string "a.b")]])])⟩

theorem accumulated_sizes_exact_example :
    (∃ response, buildResponse { letterSurroundings 1 1 with toVec := Content.compact } (letterSnapshot 1) ⟨none, .name "a"⟩
        ⟨none, none, none, .utf32, .null⟩ [letterMatch] [] = .ok response ∧
      writeBoundedJsonLine [Content.compact response.content] maxResponseBytes =
        .ok (toJsonLine Content.compact response.content)) ∧
    dispatchServerRequest ⟨fun _ => none, compactValue⟩ ⟨.null, some (.object [("a", .null)]), ⟨2, 17⟩⟩ configurationRequest =
      .ok (resultReply (.ofInteger 1) (.array [.object [("a", .null)], .null])) := by
  constructor
  · obtain ⟨-, accepts, -, written⟩ := accumulated_sizes_exact.1 { letterSurroundings 1 1 with toVec := Content.compact }
      (letterSnapshot 1) ⟨none, .name "a"⟩ ⟨none, none, none, .utf32, .null⟩ [letterMatch] [] Content.compact_compact
    cases built : [letterMatch].mapM (buildMatch sha256Digest (letterSnapshot 1)) with
    | error report =>
      have sliced : ([letterMatch].mapM (buildMatch sha256Digest (letterSnapshot 1))).isOk = true := by decide
      rw [built] at sliced
      cases sliced
    | ok matches_ =>
      have small : (([letterMatch].mapM (buildMatch sha256Digest (letterSnapshot 1))).toOption.map fun matches_ =>
          decide ((toJsonLine Content.compact (responseWith { letterSurroundings 1 1 with toVec := Content.compact }
            (letterSnapshot 1) ⟨none, .name "a"⟩ ⟨none, none, none, .utf32, .null⟩ [] matches_).content).length ≤
              maxResponseBytes)) = some true := by decide +kernel
      rw [built] at small
      have fits := of_decide_eq_true (Option.some.inj small)
      have accepted := (accepts _).mpr ⟨matches_, built, rfl, fits⟩
      exact ⟨_, accepted, written _ _ accepted (List.append_nil _)⟩
  · have whole := (accumulated_sizes_exact.2 ⟨fun _ => none, compactValue⟩ ⟨.null, some (.object [("a", .null)]), ⟨2, 17⟩⟩
      configurationRequest [.object [], .object [("section", .string "a.b")]] compactValue_compact).2 rfl rfl (by decide) ?_
    · rw [whole, if_pos (by decide)]
      rfl
    · intro item member
      rcases List.mem_cons.mp member with rfl | member
      · refine ⟨[], rfl, ?_⟩
        intro value named
        cases named
      · obtain rfl := List.mem_singleton.mp member
        exact ⟨_, rfl, fun value named => ⟨"a.b", (Option.some.inj named).symm⟩⟩

end Example

end Srcmv.Cli
