import Srcmv.Model.Protocol.Documented
import Srcmv.Proofs.Protocol.Digests
import Srcmv.ToMathlib.Except

/-! # What the request parser accepts

A wire structure is read from some content and converted exactly when the content, spelled out, is
documented; documented content is spelled out already.
-/

namespace Srcmv.Protocol

open Srcmv.Core

theorem natural?_eq_some {content : Content} {value : UInt64} : content.natural? = some value ↔ content = .natural value := by
  cases content with
  | natural => simp [Content.natural?]
  | _ => simp [Content.natural?]

theorem string?_eq_some {content : Content} {value : String} : content.string? = some value ↔ content = .string value := by
  cases content with
  | string => simp [Content.string?]
  | _ => simp [Content.string?]

/-! ## Selectors -/

private theorem selectorShape_fresh (name : String) (parts : List Content.Part) (formed : selectorShape name = some parts) :
    "kind" ∉ parts.map Prod.fst := by
  unfold selectorShape at formed
  split at formed
  · rw [← Option.some.inj formed]
    decide
  · rw [← Option.some.inj formed]
    decide
  · cases formed

private theorem struct1_natural {content : Content} {name : String} {value : UInt64} :
    content.struct1 name Content.natural? = some value ↔ content.fields [name] = some [.natural value] := by
  simp only [Content.struct1_eq_some, natural?_eq_some]
  exact ⟨fun ⟨_, taken, equal⟩ => equal ▸ taken, fun taken => ⟨_, taken, rfl⟩⟩

private theorem struct1_string {content : Content} {name value : String} :
    content.struct1 name Content.string? = some value ↔ content.fields [name] = some [.string value] := by
  simp only [Content.struct1_eq_some, string?_eq_some]
  exact ⟨fun ⟨_, taken, equal⟩ => equal ▸ taken, fun taken => ⟨_, taken, rfl⟩⟩

private theorem struct2_naturals {content : Content} {first second : String} {start stop : UInt64} :
    content.struct2 first second Content.natural? Content.natural? = some (start, stop) ↔
      content.fields [first, second] = some [.natural start, .natural stop] := by
  simp only [Content.struct2_eq_some, natural?_eq_some]
  constructor
  · rintro ⟨_, _, taken, rfl, rfl⟩
    exact taken
  · exact fun taken => ⟨_, _, taken, rfl, rfl⟩

/-- Both kinds of ranges are spelled out alike. -/
private theorem isObject_spellSelector {content : Content} {name : String} (declared : name ∈ ["lines", "bytes"])
    {start stop : UInt64} :
    (spellSelector content).IsObject [("kind", .string name), ("start", .natural start), ("end", .natural stop)] ↔
      ∃ rest, content.Reads true "kind" ["lines", "bytes"] name rest ∧
        rest.struct2 "start" "end" Content.natural? Content.natural? = some (start, stop) := by
  have formed : selectorShape name = some (["start", "end"].map fun field => (field, id)) := by
    simp only [List.mem_cons, List.not_mem_nil, or_false] at declared
    rcases declared with rfl | rfl <;> rfl
  simp only [struct2_naturals]
  exact @Content.isObject_spellTagged_plain _ _ _ _ _ _ [.natural start, .natural stop] selectorShape_fresh declared _ formed
    (by decide) rfl

theorem selector_language {content : Content} {index : ℕ} {selector : Selector} :
    (∃ dto, SelectorDto.deserialize content = some dto ∧ convertSelector dto index = .ok selector) ↔
      DocumentedSelector (spellSelector content) selector := by
  constructor
  · rintro ⟨dto, read, converted⟩
    obtain ⟨name, rest, reads, read⟩ := Content.internallyTagged_eq_some.mp read
    have declared := reads.mem
    have object := fun start stop taken => (@isObject_spellSelector content name declared start stop).mpr ⟨rest, reads, taken⟩
    simp only [List.mem_cons, List.not_mem_nil, or_false] at declared
    rcases declared with rfl | rfl
    · obtain ⟨⟨start, stop⟩, taken, rfl⟩ := Option.map_eq_some_iff.mp read
      rw [convertSelector] at converted
      split_ifs at converted with valid
      obtain rfl := Except.ok.inj converted
      exact .lines (object start stop taken) valid.1 valid.2
    · obtain ⟨⟨start, stop⟩, taken, rfl⟩ := Option.map_eq_some_iff.mp read
      rw [convertSelector] at converted
      split_ifs at converted with valid
      obtain rfl := Except.ok.inj converted
      exact .bytes (object start stop taken) valid
  · intro documented
    cases documented with
    | @lines start stop object positive ordered =>
      obtain ⟨rest, reads, taken⟩ := (isObject_spellSelector (by decide)).mp object
      exact ⟨.lines start stop, Content.internallyTagged_eq_some.mpr ⟨"lines", rest, reads, Option.map_eq_some_iff.mpr ⟨_, taken, rfl⟩⟩,
        if_pos ⟨positive, ordered⟩⟩
    | @bytes start stop object nonempty =>
      obtain ⟨rest, reads, taken⟩ := (isObject_spellSelector (by decide)).mp object
      exact ⟨.bytes start stop, Content.internallyTagged_eq_some.mpr ⟨"bytes", rest, reads, Option.map_eq_some_iff.mpr ⟨_, taken, rfl⟩⟩,
        if_pos nonempty⟩

theorem DocumentedSelector.spelled {content : Content} {selector : Selector} (documented : DocumentedSelector content selector) :
    spellSelector content = content := by
  cases documented with
  | @lines start stop object =>
    exact @Content.IsObject.spellTagged_plain_eq _ _ "lines" _ _ _ [.natural start, .natural stop] (by decide) ["start", "end"] rfl
      (by decide) object rfl
  | @bytes start stop object =>
    exact @Content.IsObject.spellTagged_plain_eq _ _ "bytes" _ _ _ [.natural start, .natural stop] (by decide) ["start", "end"] rfl
      (by decide) object rfl

/-! ## Anchors -/

private def anchorNames : List String := ["file_start", "file_end", "before_line", "after_line", "byte_offset"]

private theorem anchorShape_fresh (name : String) (parts : List Content.Part) (formed : anchorShape name = some parts) :
    "kind" ∉ parts.map Prod.fst := by
  unfold anchorShape at formed
  split at formed
  case h_4 => cases formed
  all_goals
    rw [← Option.some.inj formed]
    decide

private theorem isObject_spellAnchor_unit {content : Content} {name : String} (declared : name ∈ anchorNames)
    (formed : anchorShape name = none) :
    (spellAnchor content).IsObject [("kind", .string name)] ↔
      ∃ rest, content.Reads true "kind" anchorNames name rest ∧ rest.unit = true :=
  Content.isObject_spellTagged_unit anchorShape_fresh declared formed

private theorem isObject_spellAnchor {content : Content} {name field : String} (declared : name ∈ anchorNames)
    (formed : anchorShape name = some [(field, id)]) {value : UInt64} :
    (spellAnchor content).IsObject [("kind", .string name), (field, .natural value)] ↔
      ∃ rest, content.Reads true "kind" anchorNames name rest ∧ rest.struct1 field Content.natural? = some value := by
  simp only [struct1_natural]
  exact @Content.isObject_spellTagged_plain _ _ _ _ _ _ [.natural value] anchorShape_fresh declared [field] formed
    (List.nodup_singleton field) rfl

theorem anchor_language {content : Content} {index : ℕ} {anchor : Anchor} :
    (∃ dto, AnchorDto.deserialize content = some dto ∧ convertAnchor dto index = .ok anchor) ↔
      DocumentedAnchor (spellAnchor content) anchor := by
  constructor
  · rintro ⟨dto, read, converted⟩
    obtain ⟨name, rest, reads, read⟩ := Content.internallyTagged_eq_some.mp read
    have declared := reads.mem
    simp only [List.mem_cons, List.not_mem_nil, or_false] at declared
    rcases declared with rfl | rfl | rfl | rfl | rfl
    · rw [AnchorDto.readVariant] at read
      split_ifs at read with unit
      obtain rfl := Option.some.inj read
      obtain rfl := Except.ok.inj converted
      exact .fileStart ((isObject_spellAnchor_unit (by decide) rfl).mpr ⟨rest, reads, unit⟩)
    · rw [AnchorDto.readVariant] at read
      split_ifs at read with unit
      obtain rfl := Option.some.inj read
      obtain rfl := Except.ok.inj converted
      exact .fileEnd ((isObject_spellAnchor_unit (by decide) rfl).mpr ⟨rest, reads, unit⟩)
    · obtain ⟨line, taken, rfl⟩ := Option.map_eq_some_iff.mp read
      rw [convertAnchor] at converted
      split_ifs at converted with positive
      obtain rfl := Except.ok.inj converted
      exact .beforeLine ((isObject_spellAnchor (by decide) rfl).mpr ⟨rest, reads, taken⟩) positive
    · obtain ⟨line, taken, rfl⟩ := Option.map_eq_some_iff.mp read
      rw [convertAnchor] at converted
      split_ifs at converted with positive
      obtain rfl := Except.ok.inj converted
      exact .afterLine ((isObject_spellAnchor (by decide) rfl).mpr ⟨rest, reads, taken⟩) positive
    · obtain ⟨offset, taken, rfl⟩ := Option.map_eq_some_iff.mp read
      obtain rfl := Except.ok.inj converted
      exact .byteOffset ((isObject_spellAnchor (by decide) rfl).mpr ⟨rest, reads, taken⟩)
  · have readAs : ∀ {name rest dto}, content.Reads true "kind" anchorNames name rest →
        AnchorDto.readVariant name rest = some dto → AnchorDto.deserialize content = some dto :=
      fun reads read => Content.internallyTagged_eq_some.mpr ⟨_, _, reads, read⟩
    intro documented
    cases documented with
    | fileStart object =>
      obtain ⟨rest, reads, unit⟩ := (isObject_spellAnchor_unit (by decide) rfl).mp object
      exact ⟨.fileStart, readAs reads (if_pos unit), rfl⟩
    | fileEnd object =>
      obtain ⟨rest, reads, unit⟩ := (isObject_spellAnchor_unit (by decide) rfl).mp object
      exact ⟨.fileEnd, readAs reads (if_pos unit), rfl⟩
    | beforeLine object positive =>
      obtain ⟨rest, reads, taken⟩ := (isObject_spellAnchor (by decide) rfl).mp object
      exact ⟨_, readAs reads (Option.map_eq_some_iff.mpr ⟨_, taken, rfl⟩), if_pos positive⟩
    | afterLine object positive =>
      obtain ⟨rest, reads, taken⟩ := (isObject_spellAnchor (by decide) rfl).mp object
      exact ⟨_, readAs reads (Option.map_eq_some_iff.mpr ⟨_, taken, rfl⟩), if_pos positive⟩
    | byteOffset object =>
      obtain ⟨rest, reads, taken⟩ := (isObject_spellAnchor (by decide) rfl).mp object
      exact ⟨_, readAs reads (Option.map_eq_some_iff.mpr ⟨_, taken, rfl⟩), rfl⟩

theorem DocumentedAnchor.spelled {content : Content} {anchor : Anchor} (documented : DocumentedAnchor content anchor) :
    spellAnchor content = content := by
  have plain : ∀ {name field : String} {value : UInt64}, name ∈ anchorNames → anchorShape name = some [(field, id)] →
      ["kind", field].Nodup → content.IsObject [("kind", .string name), (field, .natural value)] →
      spellAnchor content = content := fun {name field value} declared formed distinct object =>
    @Content.IsObject.spellTagged_plain_eq _ _ name _ _ _ [.natural value] declared [field] formed distinct object rfl
  cases documented with
  | fileStart object => exact object.spellTagged_unit_eq (by decide) rfl
  | fileEnd object => exact object.spellTagged_unit_eq (by decide) rfl
  | beforeLine object => exact plain (by decide) rfl (by decide) object
  | afterLine object => exact plain (by decide) rfl (by decide) object
  | byteOffset object => exact plain (by decide) rfl (by decide) object

/-! ## Preconditions -/

private theorem preconditionShape_fresh (name : String) (parts : List Content.Part)
    (formed : preconditionShape name = some parts) : "kind" ∉ parts.map Prod.fst := by
  unfold preconditionShape at formed
  split at formed
  · rw [← Option.some.inj formed]
    decide
  · cases formed

private theorem isObject_spellPrecondition {content : Content} {value : String} :
    (spellPrecondition content).IsObject [("kind", .string "sha256"), ("value", .string value)] ↔
      PreconditionDto.deserialize content = some (.sha256 value) := by
  have spelled := @Content.isObject_spellTagged_plain true "kind" "sha256" ["sha256", "must_not_exist"] _ content [.string value]
    preconditionShape_fresh (by decide) ["value"] rfl (by decide) rfl
  refine spelled.trans ?_
  constructor
  · rintro ⟨rest, reads, taken⟩
    exact Content.internallyTagged_eq_some.mpr
      ⟨"sha256", rest, reads, Option.map_eq_some_iff.mpr ⟨value, struct1_string.mpr taken, rfl⟩⟩
  · intro read
    obtain ⟨name, rest, reads, read⟩ := Content.internallyTagged_eq_some.mp read
    have declared := reads.mem
    simp only [List.mem_cons, List.not_mem_nil, or_false] at declared
    rcases declared with rfl | rfl
    · obtain ⟨_, taken, same⟩ := Option.map_eq_some_iff.mp read
      obtain rfl := PreconditionDto.sha256.inj same
      exact ⟨rest, reads, struct1_string.mp taken⟩
    · rw [PreconditionDto.readVariant] at read
      split_ifs at read
      cases Option.some.inj read

private theorem isObject_spellPrecondition_unit {content : Content} :
    (spellPrecondition content).IsObject [("kind", .string "must_not_exist")] ↔
      PreconditionDto.deserialize content = some .mustNotExist := by
  refine (Content.isObject_spellTagged_unit preconditionShape_fresh (by decide) rfl).trans ?_
  constructor
  · rintro ⟨rest, reads, unit⟩
    exact Content.internallyTagged_eq_some.mpr ⟨"must_not_exist", rest, reads, if_pos unit⟩
  · intro read
    obtain ⟨name, rest, reads, read⟩ := Content.internallyTagged_eq_some.mp read
    have declared := reads.mem
    simp only [List.mem_cons, List.not_mem_nil, or_false] at declared
    rcases declared with rfl | rfl
    · obtain ⟨_, _, impossible⟩ := Option.map_eq_some_iff.mp read
      cases impossible
    · rw [PreconditionDto.readVariant] at read
      split_ifs at read with unit
      exact ⟨rest, reads, unit⟩

theorem digest_language {content : Content} {field : String} {digest : Sha256Digest} :
    (∃ value, PreconditionDto.deserialize content = some (.sha256 value) ∧ parseSha256 value field = .ok digest) ↔
      DocumentedPrecondition (spellPrecondition content) (.sha256 digest) := by
  constructor
  · rintro ⟨value, read, parsed⟩
    obtain rfl := parseSha256_eq_ok.mp parsed
    exact .sha256 (isObject_spellPrecondition.mpr read)
  · intro documented
    cases documented with
    | sha256 object => exact ⟨_, isObject_spellPrecondition.mp object, parseSha256_eq_ok.mpr rfl⟩

theorem absence_language {content : Content} :
    PreconditionDto.deserialize content = some .mustNotExist ↔
      DocumentedPrecondition (spellPrecondition content) .mustNotExist := by
  constructor
  · exact fun read => .mustNotExist (isObject_spellPrecondition_unit.mpr read)
  · intro documented
    cases documented with
    | mustNotExist object => exact isObject_spellPrecondition_unit.mp object

theorem DocumentedPrecondition.spelled {content : Content} {precondition : Precondition}
    (documented : DocumentedPrecondition content precondition) : spellPrecondition content = content := by
  cases documented with
  | @sha256 digest object =>
    exact @Content.IsObject.spellTagged_plain_eq _ _ "sha256" _ _ _ [.string digest.toPrefixedHex] (by decide) ["value"] rfl
      (by decide) object rfl
  | mustNotExist object => exact object.spellTagged_unit_eq (by decide) rfl

/-! ## Sources and destinations -/

private theorem struct3_string {α β : Type} {content : Content} {name second third : String} {readSecond : Content → Option α}
    {readThird : Content → Option β} {path : String} {left : α} {right : β} :
    content.struct3 name second third Content.string? readSecond readThird = some (path, left, right) ↔
      ∃ two three, content.fields [name, second, third] = some [.string path, two, three] ∧
        readSecond two = some left ∧ readThird three = some right := by
  simp only [Content.struct3_eq_some, string?_eq_some]
  constructor
  · rintro ⟨_, two, three, taken, rfl, readTwo, readThree⟩
    exact ⟨two, three, taken, readTwo, readThree⟩
  · rintro ⟨two, three, taken, readTwo, readThree⟩
    exact ⟨_, two, three, taken, rfl, readTwo, readThree⟩

private theorem SourceDto.deserialize_eq_some {content : Content} {source : SourceDto} :
    SourceDto.deserialize content = some source ↔
      content.struct3 "path" "selector" "precondition" Content.string? SelectorDto.deserialize PreconditionDto.deserialize =
        some (source.path, source.selector, source.precondition) := by
  rw [SourceDto.deserialize, Option.map_eq_some_iff]
  constructor
  · rintro ⟨_, read, rfl⟩
    exact read
  · exact fun read => ⟨_, read, rfl⟩

private theorem DestinationDto.deserialize_eq_some {content : Content} {destination : DestinationDto} :
    DestinationDto.deserialize content = some destination ↔
      content.struct3 "path" "anchor" "precondition" Content.string? AnchorDto.deserialize PreconditionDto.deserialize =
        some (destination.path, destination.anchor, destination.precondition) := by
  rw [DestinationDto.deserialize, Option.map_eq_some_iff]
  constructor
  · rintro ⟨_, read, rfl⟩
    exact read
  · exact fun read => ⟨_, read, rfl⟩

theorem source_language {content : Content} {index : ℕ} {source : SourceSelection} :
    (∃ dto, SourceDto.deserialize content = some dto ∧ convertSource dto index = .ok source) ↔
      DocumentedSource (content.spellFields sourceParts) source := by
  have spelled := fun left middle right => @Content.isObject_spellFields3 ("path", id) ("selector", spellSelector)
    ("precondition", spellPrecondition) (by decide) content left middle right
  constructor
  · rintro ⟨⟨path, selectorDto, preconditionDto⟩, read, converted⟩
    obtain ⟨two, three, taken, selects, requires⟩ := struct3_string.mp (SourceDto.deserialize_eq_some.mp read)
    cases preconditionDto with
    | mustNotExist => cases converted
    | sha256 value =>
      obtain ⟨digest, parsed, converted⟩ := Except.bind_eq_ok.mp converted
      obtain ⟨selector, ranged, built⟩ := Except.bind_eq_ok.mp converted
      obtain rfl := Except.ok.inj built
      exact .exists ((spelled _ _ _).mpr ⟨_, two, three, taken, rfl, rfl, rfl⟩) (selector_language.mp ⟨_, selects, ranged⟩)
        (digest_language.mp ⟨value, requires, parsed⟩)
  · intro documented
    cases documented with
    | @«exists» _ _ path selector digest object selects requires =>
      obtain ⟨_, two, three, taken, rfl, rfl, rfl⟩ := (spelled _ _ _).mp object
      obtain ⟨selectorDto, readSelector, ranged⟩ := (@selector_language _ index _).mpr selects
      obtain ⟨value, readDigest, parsed⟩ := (@digest_language _ "operations[].source.precondition.value" _).mpr requires
      refine ⟨⟨path, selectorDto, .sha256 value⟩, SourceDto.deserialize_eq_some.mpr
        (struct3_string.mpr ⟨two, three, taken, readSelector, readDigest⟩), ?_⟩
      rw [convertSource]
      dsimp only
      rw [parsed, Except.ok_bind, ranged]
      rfl

theorem DocumentedSource.spelled {content : Content} {source : SourceSelection} (documented : DocumentedSource content source) :
    content.spellFields sourceParts = content := by
  cases documented with
  | @«exists» selectorContent preconditionContent path _ _ object selects requires =>
    refine @Content.IsObject.spellFields_eq sourceParts (by decide) _
      [.string path, selectorContent, preconditionContent] object ?_
    change [Content.string path, spellSelector selectorContent, spellPrecondition preconditionContent] = _
    rw [selects.spelled, requires.spelled]

/-- A destination may be required to be absent. -/
private theorem destinationPrecondition_language {content : Content} {precondition : Precondition} :
    (∃ dto, PreconditionDto.deserialize content = some dto ∧ destinationPrecondition dto = .ok precondition) ↔
      DocumentedPrecondition (spellPrecondition content) precondition := by
  constructor
  · rintro ⟨dto, read, converted⟩
    cases dto with
    | sha256 value =>
      obtain ⟨digest, parsed, built⟩ := Except.bind_eq_ok.mp converted
      obtain rfl := Except.ok.inj built
      exact digest_language.mp ⟨value, read, parsed⟩
    | mustNotExist =>
      obtain rfl := Except.ok.inj converted
      exact absence_language.mp read
  · intro documented
    cases precondition with
    | sha256 digest =>
      obtain ⟨value, read, parsed⟩ := (@digest_language _ "operations[].destination.precondition.value" _).mpr documented
      refine ⟨_, read, ?_⟩
      rw [destinationPrecondition, parsed]
      rfl
    | mustNotExist => exact ⟨_, absence_language.mpr documented, rfl⟩

theorem destination_language {content : Content} {index : ℕ} {destination : Destination} :
    (∃ dto, DestinationDto.deserialize content = some dto ∧ convertDestination dto index = .ok destination) ↔
      DocumentedDestination (content.spellFields destinationParts) destination := by
  have spelled := fun left middle right => @Content.isObject_spellFields3 ("path", id) ("anchor", spellAnchor)
    ("precondition", spellPrecondition) (by decide) content left middle right
  constructor
  · rintro ⟨⟨path, anchorDto, preconditionDto⟩, read, converted⟩
    obtain ⟨two, three, taken, points, requires⟩ := struct3_string.mp (DestinationDto.deserialize_eq_some.mp read)
    obtain ⟨precondition, required, converted⟩ := Except.bind_eq_ok.mp converted
    obtain ⟨anchor, pointed, built⟩ := Except.bind_eq_ok.mp converted
    obtain rfl := Except.ok.inj built
    exact .anchored ((spelled _ _ _).mpr ⟨_, two, three, taken, rfl, rfl, rfl⟩) (anchor_language.mp ⟨_, points, pointed⟩)
      (destinationPrecondition_language.mp ⟨_, requires, required⟩)
  · intro documented
    cases documented with
    | @anchored _ _ path anchor precondition object points requires =>
      obtain ⟨_, two, three, taken, rfl, rfl, rfl⟩ := (spelled _ _ _).mp object
      obtain ⟨anchorDto, readAnchor, pointed⟩ := (@anchor_language _ index _).mpr points
      obtain ⟨dto, readDigest, required⟩ := destinationPrecondition_language.mpr requires
      refine ⟨⟨path, anchorDto, dto⟩, DestinationDto.deserialize_eq_some.mpr
        (struct3_string.mpr ⟨two, three, taken, readAnchor, readDigest⟩), ?_⟩
      rw [convertDestination, required, Except.ok_bind, pointed]
      rfl

theorem DocumentedDestination.spelled {content : Content} {destination : Destination}
    (documented : DocumentedDestination content destination) : content.spellFields destinationParts = content := by
  cases documented with
  | @anchored anchorContent preconditionContent path _ _ object points requires =>
    refine @Content.IsObject.spellFields_eq destinationParts (by decide) _
      [.string path, anchorContent, preconditionContent] object ?_
    change [Content.string path, spellAnchor anchorContent, spellPrecondition preconditionContent] = _
    rw [points.spelled, requires.spelled]

/-! ## Operations -/

private theorem operationShape_eq {name : String} (declared : name ∈ ["move", "copy"]) :
    operationShape name = some [("source", .spellFields sourceParts), ("destination", .spellFields destinationParts)] := by
  simp only [List.mem_cons, List.not_mem_nil, or_false] at declared
  rcases declared with rfl | rfl <;> rfl

private theorem operationShape_fresh (name : String) (parts : List Content.Part) (formed : operationShape name = some parts) :
    "kind" ∉ parts.map Prod.fst := by
  unfold operationShape at formed
  split at formed
  case h_3 => cases formed
  all_goals
    rw [← Option.some.inj formed]
    decide

/-- Both kinds of operations have a source and a destination. -/
private theorem ends_language {content : Content} {name : String} (declared : name ∈ ["move", "copy"]) {index : ℕ}
    {source : SourceSelection} {destination : Destination} :
    (∃ rest sourceDto destinationDto, content.Reads false "kind" ["move", "copy"] name rest ∧
        rest.struct2 "source" "destination" SourceDto.deserialize DestinationDto.deserialize = some (sourceDto, destinationDto) ∧
        convertSource sourceDto index = .ok source ∧ convertDestination destinationDto index = .ok destination) ↔
      ∃ sourceContent destinationContent, (spellOperation content).IsObject
          [("kind", .string name), ("source", sourceContent), ("destination", destinationContent)] ∧
        DocumentedSource sourceContent source ∧ DocumentedDestination destinationContent destination := by
  have spelled := fun left right => @Content.isObject_spellTagged2 false "kind" name ["move", "copy"] _ content
    operationShape_fresh declared _ _ (operationShape_eq declared) (by decide) left right
  constructor
  · rintro ⟨rest, sourceDto, destinationDto, reads, read, taken, placed⟩
    obtain ⟨one, two, fields, readSource, readDestination⟩ := Content.struct2_eq_some.mp read
    exact ⟨_, _, (spelled _ _).mpr ⟨rest, one, two, reads, fields, rfl, rfl⟩, source_language.mp ⟨sourceDto, readSource, taken⟩,
      destination_language.mp ⟨destinationDto, readDestination, placed⟩⟩
  · rintro ⟨_, _, object, taken, placed⟩
    obtain ⟨rest, one, two, reads, fields, rfl, rfl⟩ := (spelled _ _).mp object
    obtain ⟨sourceDto, readSource, taken⟩ := (@source_language _ index _).mpr taken
    obtain ⟨destinationDto, readDestination, placed⟩ := (@destination_language _ index _).mpr placed
    exact ⟨rest, sourceDto, destinationDto, reads, Content.struct2_eq_some.mpr ⟨one, two, fields, readSource, readDestination⟩,
      taken, placed⟩

theorem operation_language {content : Content} {index : ℕ} {operation : Operation} :
    (∃ dto, OperationDto.deserialize content = some dto ∧ convertOperation dto index = .ok operation) ↔
      DocumentedOperation (spellOperation content) operation := by
  constructor
  · rintro ⟨dto, read, converted⟩
    obtain ⟨name, rest, reads, read⟩ := Content.internallyTagged_eq_some.mp read
    have declared := reads.mem
    have ends := fun sourceDto destinationDto source destination ends taken placed =>
      (@ends_language content name declared index source destination).mp
        ⟨rest, sourceDto, destinationDto, reads, ends, taken, placed⟩
    simp only [List.mem_cons, List.not_mem_nil, or_false] at declared
    rcases declared with rfl | rfl
    · obtain ⟨⟨sourceDto, destinationDto⟩, both, rfl⟩ := Option.map_eq_some_iff.mp read
      obtain ⟨source, taken, converted⟩ := Except.bind_eq_ok.mp converted
      obtain ⟨destination, placed, built⟩ := Except.bind_eq_ok.mp converted
      obtain rfl := Except.ok.inj built
      obtain ⟨_, _, object, taken, placed⟩ := ends _ _ _ _ both taken placed
      exact .move object taken placed
    · obtain ⟨⟨sourceDto, destinationDto⟩, both, rfl⟩ := Option.map_eq_some_iff.mp read
      obtain ⟨source, taken, converted⟩ := Except.bind_eq_ok.mp converted
      obtain ⟨destination, placed, built⟩ := Except.bind_eq_ok.mp converted
      obtain rfl := Except.ok.inj built
      obtain ⟨_, _, object, taken, placed⟩ := ends _ _ _ _ both taken placed
      exact .copy object taken placed
  · intro documented
    cases documented with
    | move object taken placed =>
      obtain ⟨rest, sourceDto, destinationDto, reads, read, taken, placed⟩ :=
        (@ends_language _ _ (by decide) index _ _).mpr ⟨_, _, object, taken, placed⟩
      refine ⟨.move sourceDto destinationDto, Content.internallyTagged_eq_some.mpr
        ⟨"move", rest, reads, Option.map_eq_some_iff.mpr ⟨_, read, rfl⟩⟩, ?_⟩
      rw [convertOperation]
      dsimp only [OperationDto.endpoints]
      rw [taken, placed]
      rfl
    | copy object taken placed =>
      obtain ⟨rest, sourceDto, destinationDto, reads, read, taken, placed⟩ :=
        (@ends_language _ _ (by decide) index _ _).mpr ⟨_, _, object, taken, placed⟩
      refine ⟨.copy sourceDto destinationDto, Content.internallyTagged_eq_some.mpr
        ⟨"copy", rest, reads, Option.map_eq_some_iff.mpr ⟨_, read, rfl⟩⟩, ?_⟩
      rw [convertOperation]
      dsimp only [OperationDto.endpoints]
      rw [taken, placed]
      rfl

theorem DocumentedOperation.spelled {content : Content} {operation : Operation}
    (documented : DocumentedOperation content operation) : spellOperation content = content := by
  have both : ∀ {name sourceContent destinationContent source destination}, name ∈ ["move", "copy"] →
      content.IsObject [("kind", .string name), ("source", sourceContent), ("destination", destinationContent)] →
      DocumentedSource sourceContent source → DocumentedDestination destinationContent destination →
      spellOperation content = content := by
    intro name sourceContent destinationContent source destination declared object taken placed
    refine @Content.IsObject.spellTagged_eq _ _ name _ _ _ _ [sourceContent, destinationContent] declared
      (operationShape_eq declared) (by decide) object rfl ?_
    change [sourceContent.spellFields sourceParts, destinationContent.spellFields destinationParts] = _
    rw [taken.spelled, placed.spelled]
  cases documented with
  | move object taken placed => exact both (by decide) object taken placed
  | copy object taken placed => exact both (by decide) object taken placed

/-! ## Requests -/

private theorem operations_language {items : List Content} {operations : List Operation} (start : ℕ) :
    (∃ dtos, items.mapM OperationDto.deserialize = some dtos ∧
        (dtos.zipIdx start).mapM (fun entry => convertOperation entry.1 entry.2) = .ok operations) ↔
      List.Forall₂ DocumentedOperation (items.map spellOperation) operations := by
  induction items generalizing start operations with
  | nil =>
    constructor
    · rintro ⟨_, read, converted⟩
      obtain rfl := Option.some.inj read
      obtain rfl := Except.ok.inj converted
      exact .nil
    · intro documented
      cases documented
      exact ⟨[], rfl, rfl⟩
  | cons item items ih =>
    rw [List.mapM_cons, List.map_cons]
    constructor
    · rintro ⟨_, read, converted⟩
      obtain ⟨dto, first, read⟩ := Option.bind_eq_some_iff.mp read
      obtain ⟨dtos, later, built⟩ := Option.bind_eq_some_iff.mp read
      obtain rfl := Option.some.inj built
      rw [List.zipIdx_cons, List.mapM_cons] at converted
      obtain ⟨operation, one, converted⟩ := Except.bind_eq_ok.mp converted
      obtain ⟨others, rest, built⟩ := Except.bind_eq_ok.mp converted
      obtain rfl := Except.ok.inj built
      exact .cons (operation_language.mp ⟨dto, first, one⟩) ((ih (start + 1)).mp ⟨dtos, later, rest⟩)
    · intro documented
      cases documented with
      | cons one others =>
        obtain ⟨dto, first, converted⟩ := (@operation_language _ start _).mpr one
        obtain ⟨dtos, later, rest⟩ := (ih (start + 1)).mpr others
        refine ⟨dto :: dtos, ?_, ?_⟩
        · rw [first, later]
          rfl
        · rw [List.zipIdx_cons, List.mapM_cons]
          dsimp only
          rw [converted, rest]
          rfl

private theorem convertOperation_paths {operation : Operation} {dto : OperationDto} {index : ℕ}
    (converted : convertOperation dto index = .ok operation) :
    (pathsOf operation).map WorkspaceRelativePath.value = [dto.endpoints.1.path, dto.endpoints.2.path] := by
  obtain ⟨source, taken, rest⟩ := Except.bind_eq_ok.mp converted
  obtain ⟨destination, placed, built⟩ := Except.bind_eq_ok.mp rest
  have sourcePath : source.path.value = dto.endpoints.1.path := by
    rw [convertSource] at taken
    split at taken
    · obtain ⟨_, -, taken⟩ := Except.bind_eq_ok.mp taken
      obtain ⟨_, -, built⟩ := Except.bind_eq_ok.mp taken
      rw [← Except.ok.inj built]
    · cases taken
  have destinationPath : destination.path.value = dto.endpoints.2.path := by
    obtain ⟨_, -, placed⟩ := Except.bind_eq_ok.mp placed
    obtain ⟨_, -, built⟩ := Except.bind_eq_ok.mp placed
    rw [← Except.ok.inj built]
  cases dto with
  | move =>
    rw [← Except.ok.inj built, pathsOf, List.map_cons, List.map_singleton, sourcePath, destinationPath]
  | copy =>
    rw [← Except.ok.inj built, pathsOf, List.map_cons, List.map_singleton, sourcePath, destinationPath]

/-- The paths of a batch are those of its wire structures. -/
private theorem operationPaths_eq {dtos : List OperationDto} {operations : List Operation} (start : ℕ)
    (converted : (dtos.zipIdx start).mapM (fun entry => convertOperation entry.1 entry.2) = .ok operations) :
    operationPaths dtos = (operations.flatMap pathsOf).map WorkspaceRelativePath.value := by
  induction dtos generalizing start operations with
  | nil =>
    obtain rfl := Except.ok.inj converted
    rfl
  | cons dto dtos ih =>
    rw [List.zipIdx_cons, List.mapM_cons] at converted
    obtain ⟨operation, one, converted⟩ := Except.bind_eq_ok.mp converted
    obtain ⟨others, rest, built⟩ := Except.bind_eq_ok.mp converted
    obtain rfl := Except.ok.inj built
    rw [operationPaths, List.flatMap_cons, List.flatMap_cons, List.map_append, convertOperation_paths one, ← ih _ rest]
    rfl

private theorem enforceLimit_eq_ok {resource : String} {actual limit : ℕ} {done : Unit} :
    enforceLimit resource actual limit = .ok done ↔ actual ≤ limit := by
  rw [enforceLimit]
  split_ifs with within
  · exact ⟨fun _ => within, fun _ => rfl⟩
  · exact ⟨fun impossible => (by cases impossible), fun fits => absurd fits within⟩

private theorem enforcePath_eq_ok {limits : RequestLimits} {path : String} {done : Unit} :
    enforcePath path limits.pathBytes = .ok done ↔ ValidPath limits ⟨path⟩ := by
  rw [enforcePath, Except.bind_eq_ok]
  constructor
  · rintro ⟨_, bounded, checked⟩
    split_ifs at checked with empty nul
    refine ⟨enforceLimit_eq_ok.mp bounded, empty, ?_⟩
    rwa [List.contains_iff_mem] at nul
  · rintro ⟨bounded, nonempty, noNul⟩
    refine ⟨(), enforceLimit_eq_ok.mpr bounded, ?_⟩
    rw [if_neg nonempty, if_neg (by rwa [List.contains_iff_mem])]

private theorem enforcePaths_eq_ok {limits : RequestLimits} {dtos : List OperationDto} {done : Unit} :
    dtos.forM (enforcePaths limits) = .ok done ↔ ∀ path ∈ operationPaths dtos, ValidPath limits ⟨path⟩ := by
  rw [List.forM_eq_ok]
  have each : ∀ dto : OperationDto, enforcePaths limits dto = .ok ⟨⟩ ↔
      ∀ path ∈ [dto.endpoints.1.path, dto.endpoints.2.path], ValidPath limits ⟨path⟩ := by
    intro dto
    rw [enforcePaths, Except.bind_eq_ok, List.forall_mem_cons, List.forall_mem_singleton]
    simp only [enforcePath_eq_ok]
    exact ⟨fun ⟨_, first, second⟩ => ⟨first, second⟩, fun ⟨first, second⟩ => ⟨(), first, second⟩⟩
  simp only [each, operationPaths, List.mem_flatMap]
  exact ⟨fun valid path ⟨dto, mem, found⟩ => valid dto mem path found, fun valid dto mem path found => valid path ⟨dto, mem, found⟩⟩

/-- A converted request has version 1 and is within its limits. -/
private theorem convertRequest_eq_ok {limits : RequestLimits} {request : RequestDto} {batch : BatchSpecification} :
    convertRequest request limits = .ok batch ↔
      request.protocolVersion = 1 ∧
        request.operations.zipIdx.mapM (fun entry => convertOperation entry.1 entry.2) = .ok batch.operations ∧
        batch.operations ≠ [] ∧ batch.operations.length ≤ limits.operations ∧
        (∀ operation ∈ batch.operations, ∀ path ∈ pathsOf operation, ValidPath limits path) ∧
        (batch.operations.flatMap pathsOf).dedup.length ≤ limits.operationPaths := by
  have same : ∀ {operations : List Operation},
      request.operations.zipIdx.mapM (fun entry => convertOperation entry.1 entry.2) = .ok operations →
        operations.length = request.operations.length ∧
        (operationPaths request.operations).dedup.length = (operations.flatMap pathsOf).dedup.length ∧
        ((∀ path ∈ operationPaths request.operations, ValidPath limits ⟨path⟩) ↔
          ∀ operation ∈ operations, ∀ path ∈ pathsOf operation, ValidPath limits path) := by
    intro operations converted
    have injective : Function.Injective WorkspaceRelativePath.value := fun _ _ => WorkspaceRelativePath.value_inj.mp
    have length := (List.forall₂_of_mapM_ok converted).length_eq
    rw [List.length_zipIdx] at length
    rw [operationPaths_eq 0 converted, List.dedup_map_of_injective injective, List.length_map]
    refine ⟨length.symm, rfl, ?_⟩
    rw [List.forall_mem_map]
    simp only [List.mem_flatMap]
    exact ⟨fun valid operation mem path found => valid path ⟨operation, mem, found⟩,
      fun valid path ⟨operation, mem, found⟩ => valid operation mem path found⟩
  rw [convertRequest]
  constructor
  · intro accepted
    split_ifs at accepted with version empty
    obtain ⟨_, count, accepted⟩ := Except.bind_eq_ok.mp accepted
    obtain ⟨_, valid, accepted⟩ := Except.bind_eq_ok.mp accepted
    obtain ⟨_, distinct, accepted⟩ := Except.bind_eq_ok.mp accepted
    obtain ⟨operations, converted, built⟩ := Except.bind_eq_ok.mp accepted
    obtain rfl := Except.ok.inj built
    obtain ⟨length, paths, validity⟩ := same converted
    refine ⟨not_not.mp version, converted, ?_, length ▸ enforceLimit_eq_ok.mp count,
      validity.mp (enforcePaths_eq_ok.mp valid), paths ▸ enforceLimit_eq_ok.mp distinct⟩
    rintro rfl
    exact empty (List.length_eq_zero_iff.mp length.symm)
  · rintro ⟨version, converted, nonempty, count, valid, distinct⟩
    obtain ⟨length, paths, validity⟩ := same converted
    have something : request.operations ≠ [] := by
      intro empty
      rw [empty] at length
      exact nonempty (List.length_eq_zero_iff.mp length)
    have counted : enforceLimit "operations" request.operations.length limits.operations = .ok () :=
      enforceLimit_eq_ok.mpr (length ▸ count)
    have checked : request.operations.forM (enforcePaths limits) = .ok () := enforcePaths_eq_ok.mpr (validity.mpr valid)
    have few : enforceLimit "operation_paths" (operationPaths request.operations).dedup.length limits.operationPaths = .ok () :=
      enforceLimit_eq_ok.mpr (paths ▸ distinct)
    rw [if_neg (not_not.mpr version), if_neg something, counted, Except.ok_bind, checked, Except.ok_bind, few, Except.ok_bind,
      converted]
    rfl

/-- Content is converted into a batch when it is documented as this batch, once it is spelled out. -/
theorem request_language {limits : RequestLimits} {content : Content} {batch : BatchSpecification} :
    (∃ request, RequestDto.deserialize content = some request ∧ convertRequest request limits = .ok batch) ↔
      DocumentedRequest limits (spellRequest content) batch := by
  have spelled := fun left right => @Content.isObject_spellFields2 ("protocol_version", id) ("operations", spellOperations)
    (by decide) content left right
  constructor
  · rintro ⟨request, read, converted⟩
    obtain ⟨⟨version, dtos⟩, fields, rfl⟩ := Option.map_eq_some_iff.mp read
    obtain ⟨one, two, taken, readVersion, readOperations⟩ := Content.struct2_eq_some.mp fields
    obtain ⟨rfl, converted, nonempty, count, valid, distinct⟩ := convertRequest_eq_ok.mp converted
    obtain rfl := natural?_eq_some.mp readVersion
    obtain ⟨items, sequence, each⟩ := Option.bind_eq_some_iff.mp readOperations
    obtain rfl : two = .seq items := by
      cases two with
      | seq => exact congrArg Content.seq (Option.some.inj sequence)
      | _ => cases sequence
    exact .batch ((spelled _ _).mpr ⟨_, _, taken, rfl, rfl⟩) ((operations_language 0).mp ⟨dtos, each, converted⟩) nonempty count
      valid distinct
  · intro documented
    cases documented with
    | @batch items operations object each nonempty count valid distinct =>
      obtain ⟨one, two, taken, rfl, sequence⟩ := (spelled _ _).mp object
      cases two with
      | seq original =>
        obtain rfl := Content.seq.inj sequence
        obtain ⟨dtos, read, converted⟩ := (operations_language 0).mpr each
        exact ⟨⟨1, dtos⟩, Option.map_eq_some_iff.mpr ⟨(1, dtos), Content.struct2_eq_some.mpr ⟨_, _, taken, rfl, read⟩, rfl⟩,
          convertRequest_eq_ok.mpr ⟨rfl, converted, nonempty, count, valid, distinct⟩⟩
      | _ => cases sequence

private theorem operations_spelled {items : List Content} {operations : List Operation}
    (each : List.Forall₂ DocumentedOperation items operations) : items.map spellOperation = items := by
  induction each with
  | nil => rfl
  | cons one _ ih => rw [List.map_cons, one.spelled, ih]

theorem DocumentedRequest.spelled {limits : RequestLimits} {content : Content} {batch : BatchSpecification}
    (documented : DocumentedRequest limits content batch) : spellRequest content = content := by
  cases documented with
  | @batch items operations object each =>
    refine @Content.IsObject.spellFields_eq [("protocol_version", id), ("operations", spellOperations)] (by decide) _
      [.natural 1, .seq items] object ?_
    change [Content.natural 1, .seq (items.map spellOperation)] = _
    rw [operations_spelled each]

end Srcmv.Protocol
