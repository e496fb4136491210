import Srcmv.Model.Protocol.Request

/-! # The documented requests

What the schema of protocol version 1 accepts, and which batch it means: every object has exactly
the members that are listed for its kind, in any order. `spellRequest` writes out what the derived
deserializers accept in other forms.
-/

namespace Srcmv.Protocol

open Srcmv.Core

inductive DocumentedSelector : Content → Selector → Prop
  | lines {content : Content} {start stop : UInt64}
      (object : content.IsObject [("kind", .string "lines"), ("start", .natural start), ("end", .natural stop)])
      (positive : 0 < start) (ordered : start ≤ stop) : DocumentedSelector content (.lines start.toNat stop.toNat)
  | bytes {content : Content} {start stop : UInt64}
      (object : content.IsObject [("kind", .string "bytes"), ("start", .natural start), ("end", .natural stop)])
      (nonempty : start < stop) : DocumentedSelector content (.bytes start.toNat stop.toNat)

inductive DocumentedAnchor : Content → Anchor → Prop
  | fileStart {content : Content} (object : content.IsObject [("kind", .string "file_start")]) :
      DocumentedAnchor content .fileStart
  | fileEnd {content : Content} (object : content.IsObject [("kind", .string "file_end")]) : DocumentedAnchor content .fileEnd
  | beforeLine {content : Content} {line : UInt64}
      (object : content.IsObject [("kind", .string "before_line"), ("line", .natural line)]) (positive : 0 < line) :
      DocumentedAnchor content (.beforeLine line.toNat)
  | afterLine {content : Content} {line : UInt64}
      (object : content.IsObject [("kind", .string "after_line"), ("line", .natural line)]) (positive : 0 < line) :
      DocumentedAnchor content (.afterLine line.toNat)
  | byteOffset {content : Content} {offset : UInt64}
      (object : content.IsObject [("kind", .string "byte_offset"), ("offset", .natural offset)]) :
      DocumentedAnchor content (.byteOffset offset.toNat)

inductive DocumentedPrecondition : Content → Precondition → Prop
  | sha256 {content : Content} {digest : Sha256Digest}
      (object : content.IsObject [("kind", .string "sha256"), ("value", .string digest.toPrefixedHex)]) :
      DocumentedPrecondition content (.sha256 digest)
  | mustNotExist {content : Content} (object : content.IsObject [("kind", .string "must_not_exist")]) :
      DocumentedPrecondition content .mustNotExist

/-- A source exists, hence has a digest. -/
inductive DocumentedSource : Content → SourceSelection → Prop
  | exists {content selectorContent preconditionContent : Content} {path : String} {selector : Selector}
      {digest : Sha256Digest}
      (object : content.IsObject
        [("path", .string path), ("selector", selectorContent), ("precondition", preconditionContent)])
      (selects : DocumentedSelector selectorContent selector)
      (requires : DocumentedPrecondition preconditionContent (.sha256 digest)) :
      DocumentedSource content ⟨⟨path⟩, selector, .sha256 digest⟩

inductive DocumentedDestination : Content → Destination → Prop
  | anchored {content anchorContent preconditionContent : Content} {path : String} {anchor : Anchor}
      {precondition : Precondition}
      (object : content.IsObject
        [("path", .string path), ("anchor", anchorContent), ("precondition", preconditionContent)])
      (points : DocumentedAnchor anchorContent anchor)
      (requires : DocumentedPrecondition preconditionContent precondition) :
      DocumentedDestination content ⟨⟨path⟩, anchor, precondition⟩

inductive DocumentedOperation : Content → Operation → Prop
  | move {content sourceContent destinationContent : Content} {source : SourceSelection} {destination : Destination}
      (object : content.IsObject
        [("kind", .string "move"), ("source", sourceContent), ("destination", destinationContent)])
      (taken : DocumentedSource sourceContent source) (placed : DocumentedDestination destinationContent destination) :
      DocumentedOperation content (.move ⟨source, destination⟩)
  | copy {content sourceContent destinationContent : Content} {source : SourceSelection} {destination : Destination}
      (object : content.IsObject
        [("kind", .string "copy"), ("source", sourceContent), ("destination", destinationContent)])
      (taken : DocumentedSource sourceContent source) (placed : DocumentedDestination destinationContent destination) :
      DocumentedOperation content (.copy ⟨source, destination⟩)

/-- A path within its limit. -/
structure ValidPath (limits : RequestLimits) (path : WorkspaceRelativePath) : Prop where
  bounded : (utf8Bytes path.value).length ≤ limits.pathBytes
  nonempty : path.value ≠ ""
  noNul : '\x00' ∉ path.value.toList

/-- The source and the destination of an operation. -/
def pathsOf : Operation → List WorkspaceRelativePath
  | .move specification => [specification.source.path, specification.destination.path]
  | .copy specification => [specification.source.path, specification.destination.path]

inductive DocumentedRequest (limits : RequestLimits) : Content → BatchSpecification → Prop
  | batch {content : Content} {items : List Content} {operations : List Operation}
      (object : content.IsObject [("protocol_version", .natural 1), ("operations", .seq items)])
      (each : List.Forall₂ DocumentedOperation items operations) (nonempty : operations ≠ [])
      (count : operations.length ≤ limits.operations)
      (valid : ∀ operation ∈ operations, ∀ path ∈ pathsOf operation, ValidPath limits path)
      (distinct : (operations.flatMap pathsOf).dedup.length ≤ limits.operationPaths) :
      DocumentedRequest limits content ⟨operations⟩

/-! ## Other forms -/

def selectorShape : String → Option (List Content.Part)
  | "lines" => some [("start", id), ("end", id)]
  | "bytes" => some [("start", id), ("end", id)]
  | _ => none

def spellSelector (content : Content) : Content := content.spellTagged true "kind" ["lines", "bytes"] selectorShape

def anchorShape : String → Option (List Content.Part)
  | "before_line" => some [("line", id)]
  | "after_line" => some [("line", id)]
  | "byte_offset" => some [("offset", id)]
  | _ => none

def spellAnchor (content : Content) : Content :=
  content.spellTagged true "kind" ["file_start", "file_end", "before_line", "after_line", "byte_offset"] anchorShape

def preconditionShape : String → Option (List Content.Part)
  | "sha256" => some [("value", id)]
  | _ => none

def spellPrecondition (content : Content) : Content :=
  content.spellTagged true "kind" ["sha256", "must_not_exist"] preconditionShape

def sourceParts : List Content.Part :=
  [("path", id), ("selector", spellSelector), ("precondition", spellPrecondition)]

def destinationParts : List Content.Part :=
  [("path", id), ("anchor", spellAnchor), ("precondition", spellPrecondition)]

def operationShape : String → Option (List Content.Part)
  | "move" => some [("source", .spellFields sourceParts), ("destination", .spellFields destinationParts)]
  | "copy" => some [("source", .spellFields sourceParts), ("destination", .spellFields destinationParts)]
  | _ => none

def spellOperation (content : Content) : Content := content.spellTagged false "kind" ["move", "copy"] operationShape

def spellOperations : Content → Content
  | .seq items => .seq (items.map spellOperation)
  | other => other

/-- The request with every value as an object of exactly the members of its kind, where it is
accepted in another form: a sequence of the values of its members, a kind that is the index of a
variant, or a `file_start`, `file_end` or `must_not_exist` with other members. -/
def spellRequest (content : Content) : Content := content.spellFields [("protocol_version", id), ("operations", spellOperations)]

end Srcmv.Protocol
