import Srcmv.Model.Core.Planner
import Srcmv.Proofs.Protocol.Requests

/-! # The language of the request parser

Within the size and depth limits a text is parsed into a batch exactly when its content, spelled
out, is documented as this batch. The parser therefore accepts the documented requests, and the
same requests in forms that the schema excludes.
-/

namespace Srcmv.Protocol

open Srcmv.Core

theorem parseRequestWithLimits_eq_ok {read : Bytes → Option Content} {input : Bytes} {limits : RequestLimits}
    (sized : input.length ≤ limits.requestBytes) (nested : enforceJsonDepth input limits.jsonDepth = .ok ())
    {batch : BatchSpecification} :
    parseRequestWithLimits read input limits = .ok batch ↔
      ∃ content, read input = some content ∧ DocumentedRequest limits (spellRequest content) batch := by
  have small : enforceRequestSize input limits.requestBytes = .ok () := if_pos sized
  rw [parseRequestWithLimits, small, Except.ok_bind, nested, Except.ok_bind]
  cases found : read input with
  | none =>
    constructor
    · intro impossible
      cases impossible
    · rintro ⟨_, impossible, -⟩
      cases impossible
  | some content =>
    rw [Option.bind_some]
    constructor
    · intro accepted
      cases deserialized : RequestDto.deserialize content with
      | none =>
        rw [deserialized] at accepted
        cases accepted
      | some request =>
        rw [deserialized] at accepted
        exact ⟨content, rfl, request_language.mp ⟨request, deserialized, accepted⟩⟩
    · rintro ⟨_, same, documented⟩
      obtain rfl := Option.some.inj same
      obtain ⟨request, deserialized, converted⟩ := request_language.mpr documented
      rw [deserialized]
      exact converted

/-- A text is parsed as it is documented, unless it is another form of a documented request. -/
theorem requests_parse_as_documented (read : Bytes → Option Content) (limits : RequestLimits) (input : Bytes)
    (sized : input.length ≤ limits.requestBytes) (nested : enforceJsonDepth input limits.jsonDepth = .ok ()) :
    (∀ batch, parseRequestWithLimits read input limits = .ok batch ↔
        ∃ content, read input = some content ∧ DocumentedRequest limits content batch) ↔
      ∀ content, read input = some content →
        spellRequest content = content ∨ ∀ batch, ¬DocumentedRequest limits (spellRequest content) batch := by
  simp only [parseRequestWithLimits_eq_ok sized nested]
  constructor
  · intro exact_ content found
    by_contra other
    obtain ⟨unlike, some_⟩ := not_or.mp other
    obtain ⟨batch, documented⟩ := not_forall_not.mp some_
    obtain ⟨_, same, plain⟩ := (exact_ batch).mp ⟨content, found, documented⟩
    obtain rfl := Option.some.inj (found.symm.trans same)
    exact unlike plain.spelled
  · intro plain batch
    constructor
    · rintro ⟨content, found, documented⟩
      rcases plain content found with same | nothing
      · exact ⟨content, found, same ▸ documented⟩
      · exact absurd documented (nothing batch)
    · rintro ⟨content, found, documented⟩
      exact ⟨content, found, documented.spelled.symm ▸ documented⟩

/-! ## A request with an unknown member -/

/-- A copy to the beginning of a file, whose anchor also has a line. -/
def lineAtStart : Bytes :=
  ["\x7b\"protocol_version\":1,", "\"operations\":[", "\x7b\"kind\":\"copy\",", "\"source\":\x7b\"path\":\"a\",",
    "\"selector\":\x7b", "\"kind\":\"bytes\",", "\"start\":0,\"end\":1\x7d,", "\"precondition\":\x7b", "\"kind\":\"sha256\",",
    "\"value\":\"sha256:"].flatMap utf8Bytes ++ List.replicate 64 48 ++
  ["\"\x7d\x7d,", "\"destination\":", "\x7b\"path\":\"b\",", "\"anchor\":\x7b", "\"kind\":\"file_start\",", "\"line\":5\x7d,",
    "\"precondition\":\x7b", "\"kind\":\"must_not_exist\"", "\x7d\x7d\x7d]\x7d"].flatMap utf8Bytes

private def sourceContent : Content :=
  .map [("path", .string "a"), ("selector", .map [("kind", .string "bytes"), ("start", .natural 0), ("end", .natural 1)]),
    ("precondition", .map [("kind", .string "sha256"), ("value", .string zeroDigest.toPrefixedHex)])]

private def anchorContent : Content := .map [("kind", .string "file_start"), ("line", .natural 5)]

/-- The content of the text. -/
def lineAtStartContent : Content :=
  .map [("protocol_version", .natural 1), ("operations", .seq [.map [("kind", .string "copy"), ("source", sourceContent),
    ("destination", .map [("path", .string "b"), ("anchor", anchorContent),
      ("precondition", .map [("kind", .string "must_not_exist")])])]])]

/-- A reader that knows this text. -/
def readLineAtStart (input : Bytes) : Option Content := if input = lineAtStart then some lineAtStartContent else none

def lineAtStartBatch : BatchSpecification :=
  ⟨[.copy ⟨⟨⟨"a"⟩, .bytes 0 1, .sha256 zeroDigest⟩, ⟨⟨"b"⟩, .fileStart, .mustNotExist⟩⟩]⟩

/-- How many members the anchor of a single operation has. -/
private def anchorMembers : Content → Option ℕ
  | .map [_, (_, .seq [.map [_, _, (_, .map [_, (_, .map members), _])]])] => some members.length
  | _ => none

theorem lineAtStart_accepted :
    lineAtStart.length ≤ RequestLimits.requestBytes {} ∧ enforceJsonDepth lineAtStart (RequestLimits.jsonDepth {}) = .ok () ∧
      parseRequest readLineAtStart lineAtStart = .ok lineAtStartBatch ∧
      ¬∀ batch, parseRequest readLineAtStart lineAtStart = .ok batch ↔
        ∃ content, readLineAtStart lineAtStart = some content ∧ DocumentedRequest {} content batch := by
  have parsed : parseRequest readLineAtStart lineAtStart = .ok lineAtStartBatch := by decide +kernel
  refine ⟨by decide +kernel, by decide +kernel, parsed, fun documented => ?_⟩
  obtain ⟨content, found, documented⟩ := (documented lineAtStartBatch).mp parsed
  obtain rfl : lineAtStartContent = content := Option.some.inj ((if_pos rfl).symm.trans found)
  have spelled : anchorMembers (spellRequest lineAtStartContent) = some 1 := by decide
  rw [documented.spelled] at spelled
  exact absurd spelled (by decide)

/-- The text is another form of a documented request. -/
theorem requests_parse_as_documented_example :
    (∀ batch, parseRequestWithLimits readLineAtStart lineAtStart {} = .ok batch ↔
        ∃ content, readLineAtStart lineAtStart = some content ∧ DocumentedRequest {} content batch) ↔
      ∀ content, readLineAtStart lineAtStart = some content →
        spellRequest content = content ∨ ∀ batch, ¬DocumentedRequest {} (spellRequest content) batch :=
  requests_parse_as_documented readLineAtStart {} lineAtStart (by decide +kernel) (by decide +kernel)

end Srcmv.Protocol
