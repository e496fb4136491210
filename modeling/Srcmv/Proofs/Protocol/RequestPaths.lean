import Srcmv.Proofs.Core.Touched
import Srcmv.Proofs.Protocol.Requests
import Srcmv.ToMathlib.JsonContent

/-! # The paths of a request

The paths of a parsed batch are strings of its text, which is therefore at least as long as all of them
with their minimal escapes. The limits of a request bound the text, the operations and every path.
-/

namespace Srcmv.Protocol

open Srcmv.Core CompactJson

/-! ## Reading -/

private theorem source_length {content : Content} {source : SourceDto} (read : SourceDto.deserialize content = some source) :
    escapedLength source.path ≤ content.stringsLength := by
  obtain ⟨parts, taken, rfl⟩ := Option.map_eq_some_iff.mp read
  obtain ⟨first, second, third, fields, path, -, -⟩ := Content.struct3_eq_some.mp taken
  have kept := Content.fields_stringsLength_le (by decide) fields
  rw [string?_eq_some.mp path, List.map_cons, List.sum_cons, Content.stringsLength] at kept
  dsimp only
  omega

private theorem destination_length {content : Content} {destination : DestinationDto}
    (read : DestinationDto.deserialize content = some destination) : escapedLength destination.path ≤ content.stringsLength := by
  obtain ⟨parts, taken, rfl⟩ := Option.map_eq_some_iff.mp read
  obtain ⟨first, second, third, fields, path, -, -⟩ := Content.struct3_eq_some.mp taken
  have kept := Content.fields_stringsLength_le (by decide) fields
  rw [string?_eq_some.mp path, List.map_cons, List.sum_cons, Content.stringsLength] at kept
  dsimp only
  omega

/-- What the paths of an operation need in a text. -/
def OperationDto.pathsLength (operation : OperationDto) : ℕ :=
  escapedLength operation.endpoints.1.path + escapedLength operation.endpoints.2.path

private theorem ends_length {content : Content} {ends : SourceDto × DestinationDto}
    (read : content.struct2 "source" "destination" SourceDto.deserialize DestinationDto.deserialize = some ends) :
    escapedLength ends.1.path + escapedLength ends.2.path ≤ content.stringsLength := by
  obtain ⟨first, second, fields, source, destination⟩ := Content.struct2_eq_some.mp read
  have kept := Content.fields_stringsLength_le (by decide) fields
  have left := source_length source
  have right := destination_length destination
  simp only [List.map_cons, List.map_nil, List.sum_cons, List.sum_nil] at kept
  omega

private theorem operation_length {content : Content} {operation : OperationDto}
    (read : OperationDto.deserialize content = some operation) : operation.pathsLength ≤ content.stringsLength := by
  obtain ⟨name, rest, reads, read⟩ := Content.internallyTagged_eq_some.mp read
  refine le_trans ?_ reads.stringsLength_le
  have declared := reads.mem
  simp only [List.mem_cons, List.not_mem_nil, or_false] at declared
  rcases declared with rfl | rfl
  · obtain ⟨ends, taken, rfl⟩ := Option.map_eq_some_iff.mp read
    exact ends_length taken
  · obtain ⟨ends, taken, rfl⟩ := Option.map_eq_some_iff.mp read
    exact ends_length taken

private theorem operations_length {items : List Content} {operations : List OperationDto}
    (read : items.mapM OperationDto.deserialize = some operations) :
    (operations.map OperationDto.pathsLength).sum ≤ (items.map Content.stringsLength).sum := by
  induction items generalizing operations with
  | nil =>
    obtain rfl := Option.some.inj read
    exact le_rfl
  | cons item rest ih =>
    rw [List.mapM_cons] at read
    obtain ⟨operation, first, read⟩ := Option.bind_eq_some_iff.mp read
    obtain ⟨later, others, read⟩ := Option.bind_eq_some_iff.mp read
    obtain rfl := Option.some.inj read
    rw [List.map_cons, List.map_cons, List.sum_cons, List.sum_cons]
    exact Nat.add_le_add (operation_length first) (ih others)

/-- The paths of a request are strings of its content. -/
theorem request_length {content : Content} {request : RequestDto} (read : RequestDto.deserialize content = some request) :
    (request.operations.map OperationDto.pathsLength).sum ≤ content.stringsLength := by
  obtain ⟨parts, taken, rfl⟩ := Option.map_eq_some_iff.mp read
  obtain ⟨first, second, fields, -, listed⟩ := Content.struct2_eq_some.mp taken
  obtain ⟨items, sequence, each⟩ := Option.bind_eq_some_iff.mp listed
  have kept := Content.fields_stringsLength_le (by decide) fields
  have sized := operations_length each
  have items : second.stringsLength = (items.map Content.stringsLength).sum := by
    cases second with
    | seq given =>
      obtain rfl := Option.some.inj sequence
      rw [Content.stringsLength, Content.itemsLength_eq]
    | _ => cases sequence
  simp only [List.map_cons, List.map_nil, List.sum_cons, List.sum_nil] at kept
  dsimp only
  omega

/-! ## Conversion -/

private theorem convertSource_path {source : SourceDto} {index : ℕ} {selection : SourceSelection}
    (converted : convertSource source index = .ok selection) : selection.path = ⟨source.path⟩ := by
  rw [convertSource] at converted
  split at converted
  · obtain ⟨_, -, converted⟩ := Except.bind_eq_ok.mp converted
    obtain ⟨_, -, converted⟩ := Except.bind_eq_ok.mp converted
    obtain rfl := Except.pure_eq_ok.mp converted
    rfl
  · cases converted

private theorem convertDestination_path {destination : DestinationDto} {index : ℕ} {result : Destination}
    (converted : convertDestination destination index = .ok result) : result.path = ⟨destination.path⟩ := by
  rw [convertDestination] at converted
  obtain ⟨_, -, converted⟩ := Except.bind_eq_ok.mp converted
  obtain ⟨_, -, converted⟩ := Except.bind_eq_ok.mp converted
  obtain rfl := Except.pure_eq_ok.mp converted
  rfl

/-- Conversion keeps both paths. -/
theorem convertOperation_endpoints {operation : OperationDto} {index : ℕ} {result : Operation}
    (converted : convertOperation operation index = .ok result) :
    endpointsOf result = [⟨operation.endpoints.1.path⟩, ⟨operation.endpoints.2.path⟩] := by
  rw [convertOperation] at converted
  obtain ⟨source, left, converted⟩ := Except.bind_eq_ok.mp converted
  obtain ⟨destination, right, converted⟩ := Except.bind_eq_ok.mp converted
  have first := convertSource_path left
  have second := convertDestination_path right
  cases operation with
  | move | copy =>
    obtain rfl := Except.pure_eq_ok.mp converted
    rw [endpointsOf, operationParts, first, second]

/-- What a path needs in a text. -/
def pathEscapedLength (path : WorkspaceRelativePath) : ℕ := escapedLength path.value

private theorem convertOperations_length {operations : List OperationDto} {results : List Operation} {offset : ℕ}
    (converted : (operations.zipIdx offset).mapM (fun entry => convertOperation entry.1 entry.2) = .ok results) :
    ((results.flatMap endpointsOf).map pathEscapedLength).sum = (operations.map OperationDto.pathsLength).sum := by
  induction operations generalizing offset results with
  | nil =>
    obtain rfl := Except.pure_eq_ok.mp converted
    rfl
  | cons operation rest ih =>
    rw [List.zipIdx_cons, List.mapM_cons] at converted
    obtain ⟨result, first, converted⟩ := Except.bind_eq_ok.mp converted
    obtain ⟨later, others, converted⟩ := Except.bind_eq_ok.mp converted
    obtain rfl := Except.pure_eq_ok.mp converted
    rw [List.flatMap_cons, List.map_append, List.sum_append, ih others, convertOperation_endpoints first, List.map_cons, List.sum_cons]
    rfl

private theorem pathsOf_eq (operation : Operation) : pathsOf operation = endpointsOf operation := by
  cases operation <;> rfl

/-- What the limits of a request leave to a batch. -/
structure Limited (batch : BatchSpecification) : Prop where
  count : batch.operations.length ≤ 1000
  bounded : ∀ path ∈ batch.operations.flatMap endpointsOf, (utf8Bytes path.value).length ≤ 4096
  paths : ((batch.operations.flatMap endpointsOf).map pathEscapedLength).sum ≤ 4 * 1024 * 1024

theorem parseRequest_limited {read : Bytes → Option Content} (reader : Content.Reader read) {input : Bytes}
    {batch : BatchSpecification} (parsed : parseRequest read input = .ok batch) : Limited batch := by
  rw [parseRequest, parseRequestWithLimits] at parsed
  obtain ⟨_, sized, parsed⟩ := Except.bind_eq_ok.mp parsed
  obtain ⟨_, -, parsed⟩ := Except.bind_eq_ok.mp parsed
  have small : input.length ≤ 4 * 1024 * 1024 := by
    rw [enforceRequestSize, enforceLimit] at sized
    split_ifs at sized with within
    exact within
  obtain ⟨content, found, request, deserialized, converted⟩ : ∃ content, read input = some content ∧
      ∃ request, RequestDto.deserialize content = some request ∧ convertRequest request {} = .ok batch := by
    cases found : read input with
    | none =>
      rw [found] at parsed
      cases parsed
    | some content =>
      cases deserialized : RequestDto.deserialize content with
      | none =>
        rw [found, Option.bind_some, deserialized] at parsed
        cases parsed
      | some request =>
        rw [found, Option.bind_some, deserialized] at parsed
        exact ⟨content, rfl, request, deserialized, parsed⟩
  have sum := (request_length deserialized).trans (reader.stringsLength_le found)
  have documented := request_language.mp ⟨request, deserialized, converted⟩
  rw [convertRequest] at converted
  split_ifs at converted
  obtain ⟨_, -, converted⟩ := Except.bind_eq_ok.mp converted
  obtain ⟨_, -, converted⟩ := Except.bind_eq_ok.mp converted
  obtain ⟨_, -, converted⟩ := Except.bind_eq_ok.mp converted
  obtain ⟨operations, each, converted⟩ := Except.bind_eq_ok.mp converted
  obtain rfl := Except.pure_eq_ok.mp converted
  cases documented with
  | batch _ _ _ count valid _ =>
    refine ⟨count, ?_, ?_⟩
    · intro path member
      obtain ⟨operation, listed, inside⟩ := List.mem_flatMap.mp member
      exact (valid operation listed path (by rwa [pathsOf_eq])).bounded
    · exact (convertOperations_length each).trans_le (sum.trans small)

end Srcmv.Protocol
