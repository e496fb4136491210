import Srcmv.Proofs.Core.Index
import Srcmv.Proofs.Fs.Acquisition
import Srcmv.Soundness.RequestLanguage
import Srcmv.Soundness.WorkLimit

/-! # Copy-ready sources

A match of a selection carries a source for a request. The source is parsed wherever it is placed, and
planning it against a snapshot with the same source bytes selects the bytes of the match. A source
with another digest is rejected by its precondition.
-/

namespace Srcmv.Cli

open Srcmv.Core Srcmv.Fs Srcmv.Lsp Srcmv.Protocol

/-! ## Ranges -/

section Ranges

variable {text : List Char}

theorem finishResolution_bounds {candidates : List NormalizedSymbol} {extent : SelectionExtent} {mode : MatchMode}
    {limits : SymbolLimits} {found : List SymbolMatch}
    (finished : finishResolution candidates text extent mode limits = .ok found) {selected : SymbolMatch} (listed : selected ∈ found) :
    selected.selectedRange.start < selected.selectedRange.stop ∧ selected.selectedRange.stop ≤ Utf8.size text := by
  rw [finishResolution] at finished
  split_ifs at finished
  obtain ⟨symbol, -, chosen⟩ := List.mapM_ok_mem finished listed
  obtain ⟨range, applied, built⟩ := Except.bind_eq_ok.mp chosen
  obtain rfl := Except.pure_eq_ok.mp built
  exact applyExtent_ok applied

/-- Every range that a query selects is nonempty and within the source. -/
theorem Select.resolveQuery_bounds {query : ValidatedQuery} {symbols : List NormalizedSymbol} {extent : SelectionExtent}
    {mode : MatchMode} {found : List SymbolMatch} (resolved : resolveQuery query symbols text extent mode = .ok found)
    {selected : SymbolMatch} (listed : selected ∈ found) :
    selected.selectedRange.start < selected.selectedRange.stop ∧ selected.selectedRange.stop ≤ Utf8.size text := by
  rw [resolveQuery] at resolved
  cases value : query.value with
  | name name =>
    rw [value] at resolved
    exact finishResolution_bounds resolved listed
  | byte offset =>
    rw [value] at resolved
    dsimp only at resolved
    rw [resolvePosition] at resolved
    split_ifs at resolved
    · exact finishResolution_bounds resolved listed
    · exact finishResolution_bounds resolved listed

end Ranges

/-! ## Responses -/

/-- A match selects a nonempty range of the snapshot and names what it selects. -/
structure MatchesSnapshot (sha256 : Bytes → Sha256Digest) (snapshot : FileSnapshot) (selected : SelectionMatchDto) : Prop where
  nonempty : selected.selector.start < selected.selector.stop
  bounded : selected.selector.stop ≤ snapshot.bytes.length
  payload : ∃ slice, slice? snapshot.bytes ⟨selected.selector.start, selected.selector.stop⟩ = some slice ∧
    selected.selectedPayloadSha256 = (sha256 slice).toPrefixedHex
  length : selected.selectedByteLength = selected.selector.stop - selected.selector.start
  source : selected.requestSource = ⟨snapshot.path.value, selected.selector, snapshot.digest.toPrefixedHex⟩

namespace Select

variable {surroundings : Surroundings} {snapshot : FileSnapshot}

theorem buildMatch_ok {sha256 : Bytes → Sha256Digest} {selected : SymbolMatch} {built : SelectionMatchDto}
    (nonempty : selected.selectedRange.start < selected.selectedRange.stop)
    (bounded : selected.selectedRange.stop ≤ snapshot.bytes.length)
    (matched : buildMatch sha256 snapshot selected = .ok built) : MatchesSnapshot sha256 snapshot built := by
  rw [buildMatch] at matched
  cases sliced : slice? snapshot.bytes selected.selectedRange with
  | none =>
    rw [sliced] at matched
    cases matched
  | some slice =>
    rw [sliced] at matched
    obtain rfl := Except.ok.inj matched
    exact ⟨nonempty, bounded, ⟨slice, sliced, rfl⟩, rfl, rfl⟩

theorem buildResponse_ok {query : ValidatedQuery} {output : SessionOutput} {found : List SymbolMatch} {warnings : List WarningDto}
    {response : SelectionResponse}
    (bounds : ∀ selected ∈ found, selected.selectedRange.start < selected.selectedRange.stop ∧
      selected.selectedRange.stop ≤ snapshot.bytes.length)
    (responds : buildResponse surroundings snapshot query output found warnings = .ok response) :
    ∀ selected ∈ response.matches_, MatchesSnapshot surroundings.sha256 snapshot selected := by
  rw [buildResponse] at responds
  obtain ⟨_, -, responds⟩ := Except.bind_eq_ok.mp responds
  obtain ⟨measured, folded, responds⟩ := Except.bind_eq_ok.mp responds
  obtain rfl := Except.pure_eq_ok.mp responds
  refine @List.foldlM_ok_invariant _ _ _ _
    (fun measured => ∀ selected ∈ measured.matches_, MatchesSnapshot surroundings.sha256 snapshot selected) found ?_ _ _
    (fun selected member => (by cases member)) folded
  intro symbol member current next kept added
  rw [addMatch] at added
  obtain ⟨built, matched, added⟩ := Except.bind_eq_ok.mp added
  obtain ⟨_, -, added⟩ := Except.bind_eq_ok.mp added
  obtain rfl := Except.pure_eq_ok.mp added
  intro selected listed
  rcases List.mem_append.mp listed with earlier | last
  · exact kept selected earlier
  · obtain rfl := List.mem_singleton.mp last
    exact buildMatch_ok (bounds symbol member).1 (bounds symbol member).2 matched

/-- A source as it is acquired: under a parsed path, with its digest, and within its limit. -/
structure Acquires (sha256 : Bytes → Sha256Digest) (path : String) (snapshot : FileSnapshot) : Prop where
  value : snapshot.path.value = path
  parsed : parseRelativePath path selectionSnapshotLimits.pathBytes = .ok snapshot.path
  digest : snapshot.digest = sha256 snapshot.bytes
  bounded : snapshot.bytes.length ≤ maximumSourceBytes

theorem acquireSource_ok {path : String} (acquired : acquireSource surroundings path = .ok snapshot) :
    Acquires surroundings.sha256 path snapshot := by
  rw [acquireSource] at acquired
  obtain ⟨result, existing, acquired⟩ := Except.bind_eq_ok.mp acquired
  rw [Except.mapError_eq_ok, WorkspaceView.acquireExistingFile] at existing
  obtain ⟨normalized, parsed, existing⟩ := Except.bind_eq_ok.mp existing
  obtain ⟨accounting, -, existing⟩ := Except.bind_eq_ok.mp existing
  obtain ⟨validated, -, existing⟩ := Except.bind_eq_ok.mp existing
  have value := parseRelativePath_eq parsed
  split at existing
  · next node _ =>
    obtain ⟨file, read, existing⟩ := Except.bind_eq_ok.mp existing
    obtain ⟨_, -, existing⟩ := Except.bind_eq_ok.mp existing
    obtain ⟨_, -, existing⟩ := Except.bind_eq_ok.mp existing
    obtain rfl := Except.pure_eq_ok.mp existing
    obtain rfl := Except.ok.inj acquired
    rw [WorkspaceView.acquireExisting] at read
    obtain ⟨_, small, read⟩ := Except.bind_eq_ok.mp read
    obtain ⟨_, -, read⟩ := Except.bind_eq_ok.mp read
    obtain ⟨_, -, read⟩ := Except.bind_eq_ok.mp read
    obtain ⟨_, -, read⟩ := Except.bind_eq_ok.mp read
    obtain rfl := Except.pure_eq_ok.mp read
    exact ⟨value, parsed, rfl, not_lt.mp (Except.rejectIf_eq_ok.mp small)⟩
  · cases existing
  · obtain rfl := Except.pure_eq_ok.mp existing
    cases acquired

/-- Every match of a response is one of the source. -/
theorem executeInner_ok {arguments : SelectArgs} {response : SelectionResponse}
    (succeeded : executeInner surroundings arguments = .ok response) :
    ∃ snapshot, acquireSource surroundings arguments.path = .ok snapshot ∧
      ∀ selected ∈ response.matches_, MatchesSnapshot surroundings.sha256 snapshot selected := by
  rw [executeInner] at succeeded
  obtain ⟨kind, -, succeeded⟩ := Except.bind_eq_ok.mp succeeded
  obtain ⟨_, -, succeeded⟩ := Except.bind_eq_ok.mp succeeded
  obtain ⟨warnings, -, succeeded⟩ := Except.bind_eq_ok.mp succeeded
  obtain ⟨snapshot, acquired, succeeded⟩ := Except.bind_eq_ok.mp succeeded
  obtain ⟨source, decoded, succeeded⟩ := Except.bind_eq_ok.mp succeeded
  obtain ⟨query, -, succeeded⟩ := Except.bind_eq_ok.mp succeeded
  obtain ⟨output, -, succeeded⟩ := Except.bind_eq_ok.mp succeeded
  obtain ⟨_, -, succeeded⟩ := Except.bind_eq_ok.mp succeeded
  obtain ⟨_, -, succeeded⟩ := Except.bind_eq_ok.mp succeeded
  obtain ⟨found, resolved, responds⟩ := Except.bind_eq_ok.mp succeeded
  rw [resolveSymbols] at resolved
  obtain ⟨converter, -, resolved⟩ := Except.bind_eq_ok.mp resolved
  obtain ⟨symbols, -, resolved⟩ := Except.bind_eq_ok.mp resolved
  rw [Except.mapError_eq_ok] at resolved
  have sized : Utf8.size source = snapshot.bytes.length := by
    rw [decodeSource] at decoded
    cases decodes : Utf8.decode snapshot.bytes with
    | none =>
      rw [decodes] at decoded
      cases decoded
    | some text =>
      rw [decodes] at decoded
      obtain rfl := Except.ok.inj decoded
      rw [← Utf8.decode_eq_some_iff.mp decodes, Utf8.length_encode]
  refine ⟨snapshot, acquired, buildResponse_ok (fun selected member => ?_) responds⟩
  rw [← sized]
  exact resolveQuery_bounds resolved member

end Select

/-! ## Requests -/

/-- An operation of a kind. -/
def operationOf (specification : OperationSpecification) : OperationKind → Operation
  | .move => .move specification
  | .copy => .copy specification

theorem operationParts_operationOf (specification : OperationSpecification) (kind : OperationKind) :
    operationParts (operationOf specification kind) = (kind, specification) := by cases kind <;> rfl

/-- The content of a request of one operation that takes this content as its source. -/
inductive PlacesSource (source : Content) (destination : Destination) (content : Content) : OperationKind → Prop
  | move {operation destinationContent : Content}
      (object : content.IsObject [("protocol_version", .natural 1), ("operations", .seq [operation])])
      (placed : operation.IsObject [("kind", .string "move"), ("source", source), ("destination", destinationContent)])
      (documented : DocumentedDestination destinationContent destination) : PlacesSource source destination content .move
  | copy {operation destinationContent : Content}
      (object : content.IsObject [("protocol_version", .natural 1), ("operations", .seq [operation])])
      (placed : operation.IsObject [("kind", .string "copy"), ("source", source), ("destination", destinationContent)])
      (documented : DocumentedDestination destinationContent destination) : PlacesSource source destination content .copy

/-- The source of a match, as a request means it. -/
def SelectionMatchDto.selection (selected : SelectionMatchDto) (digest : Sha256Digest) : SourceSelection :=
  ⟨⟨selected.requestSource.path⟩, .bytes selected.selector.start selected.selector.stop, .sha256 digest⟩

section Parsing

variable {sha256 : Bytes → Sha256Digest} {snapshot : FileSnapshot} {selected : SelectionMatchDto} {path : String}

private theorem toNat_ofNat {value : ℕ} (bounded : value ≤ maximumSourceBytes) : (UInt64.ofNat value).toNat = value := by
  rw [UInt64.toNat_ofNat']
  exact Nat.mod_eq_of_lt (lt_of_le_of_lt bounded (by norm_num [maximumSourceBytes]))

theorem MatchesSnapshot.documented (acquires : Select.Acquires sha256 path snapshot)
    (matches_ : MatchesSnapshot sha256 snapshot selected) :
    DocumentedSource selected.requestSource.content (SelectionMatchDto.selection selected snapshot.digest) := by
  have stop := toNat_ofNat (matches_.bounded.trans acquires.bounded)
  have start := toNat_ofNat (matches_.nonempty.le.trans (matches_.bounded.trans acquires.bounded))
  have selects : DocumentedSelector selected.selector.content (.bytes selected.selector.start selected.selector.stop) := by
    have bytes := @DocumentedSelector.bytes selected.selector.content (UInt64.ofNat selected.selector.start)
      (UInt64.ofNat selected.selector.stop) ⟨_, rfl, .rfl⟩ (by rw [UInt64.lt_iff_toNat_lt, start, stop]; exact matches_.nonempty)
    rwa [start, stop] at bytes
  rw [SelectionMatchDto.selection, matches_.source]
  exact .exists ⟨_, rfl, .rfl⟩ selects (.sha256 ⟨_, rfl, .rfl⟩)

theorem Select.Acquires.validPath (acquires : Select.Acquires sha256 path snapshot) : ValidPath {} snapshot.path := by
  have parsed := acquires.parsed
  rw [parseRelativePath] at parsed
  obtain ⟨_, bounded, parsed⟩ := Except.bind_eq_ok.mp parsed
  obtain ⟨_, nonempty, parsed⟩ := Except.bind_eq_ok.mp parsed
  obtain ⟨_, noNul, -⟩ := Except.bind_eq_ok.mp parsed
  rw [← acquires.value] at bounded nonempty noNul
  refine ⟨not_lt.mp (Except.rejectIf_eq_ok.mp bounded), fun empty => ?_, ?_⟩
  · exact Except.rejectIf_eq_ok.mp nonempty (by rw [empty]; rfl)
  · simpa using Except.rejectIf_eq_ok.mp noNul

/-- A request with the source of a match is documented. -/
theorem PlacesSource.documented {kind : OperationKind} {destination : Destination} {content : Content}
    (acquires : Select.Acquires sha256 path snapshot) (matches_ : MatchesSnapshot sha256 snapshot selected)
    (places : PlacesSource selected.requestSource.content destination content kind) (valid : ValidPath {} destination.path) :
    DocumentedRequest {} content ⟨[operationOf ⟨SelectionMatchDto.selection selected snapshot.digest, destination⟩ kind]⟩ := by
  have source := matches_.documented acquires
  have sourcePath : (⟨selected.requestSource.path⟩ : WorkspaceRelativePath) = snapshot.path := by rw [matches_.source]
  have paths : pathsOf (operationOf ⟨SelectionMatchDto.selection selected snapshot.digest, destination⟩ kind) =
      [snapshot.path, destination.path] := by
    rw [← sourcePath]
    cases kind <;> rfl
  have operation : ∃ item, content.IsObject [("protocol_version", .natural 1), ("operations", .seq [item])] ∧
      DocumentedOperation item (operationOf ⟨SelectionMatchDto.selection selected snapshot.digest, destination⟩ kind) := by
    cases places with
    | move object placed documented => exact ⟨_, object, .move placed source documented⟩
    | copy object placed documented => exact ⟨_, object, .copy placed source documented⟩
  obtain ⟨item, object, documented⟩ := operation
  refine .batch object (.cons documented .nil) (List.cons_ne_nil _ _) (show 1 ≤ 1000 by decide) ?_ ?_
  · intro other member path listed
    obtain rfl := List.mem_singleton.mp member
    rw [paths] at listed
    rcases List.mem_cons.mp listed with rfl | last
    · exact acquires.validPath
    · obtain rfl := List.mem_singleton.mp last
      exact valid
  · rw [List.flatMap_cons, List.flatMap_nil, List.append_nil, paths]
    exact (List.Sublist.length_le (List.dedup_sublist _)).trans (show 2 ≤ 1000 by decide)

end Parsing

/-! ## Plans -/

section Planning

variable {sha256 : Bytes → Sha256Digest} {later : WorkspaceSnapshot} {states : StatesByPath} {byId : FilesById}
  {specification : OperationSpecification} {kind : OperationKind}

/-- An acquired snapshot lists no path and no identifier twice. -/
theorem acquireSnapshot_indexable {view : WorkspaceView} {limits : SnapshotLimits} {requirements : List SnapshotRequirement}
    (acquired : view.acquireSnapshot sha256 requirements limits = .ok later) : Indexable later := by
  have facts := acquireSnapshot_ok acquired
  refine ⟨acquireSnapshot_distinct acquired, ?_⟩
  have positions : later.files.map FileSnapshot.id = List.range later.files.length := by
    refine List.ext_getElem? fun index => ?_
    rw [List.getElem?_map]
    cases found : later.files[index]? with
    | none =>
      have beyond := List.getElem?_eq_none_iff.mp found
      rw [List.getElem?_eq_none (by rwa [List.length_range])]
      rfl
    | some file =>
      obtain ⟨inside, -⟩ := List.getElem?_eq_some_iff.mp found
      rw [Option.map_some, facts.positions index file found, List.getElem?_range inside]
  rw [positions]
  exact List.nodup_range

/-- The preconditions of one operation disagree only about one path. -/
theorem validatePreconditionConsistency_single : validatePreconditionConsistency ⟨[operationOf specification kind]⟩ =
    if specification.destination.path = specification.source.path ∧
        specification.destination.precondition ≠ specification.source.precondition then
      .error (conflict "incompatible_preconditions" 0)
    else .ok () := by
  have first : insertPrecondition 0 ∅ (specification.source.path, specification.source.precondition) =
      .ok ((∅ : Std.TreeMap String Precondition).insert specification.source.path.value specification.source.precondition) := by
    simp [insertPrecondition]
  rw [validatePreconditionConsistency]
  simp only [List.zipIdx_cons, List.zipIdx_nil, List.foldlM_cons, List.foldlM_nil, operationParts_operationOf]
  rw [first, Except.ok_bind, insertPrecondition]
  dsimp only
  rw [Std.TreeMap.getElem?_insert]
  by_cases same : specification.destination.path = specification.source.path
  · by_cases agree : specification.destination.precondition = specification.source.precondition
    · simp [same, agree]
    · simp [same, agree, Ne.symm agree]
  · have apart : specification.source.path.value ≠ specification.destination.path.value := fun equal =>
      same (WorkspaceRelativePath.value_inj.mp equal.symm)
    simp [same, apart]

/-- A plan of one operation resolved it. -/
theorem plan_single_ok {sizes : TypeSizes} {operation : Operation} {budget : ResourceBudget} {edits : EditPlan}
    (indexed : indexSnapshot later = .ok (states, byId)) (planned : plan sha256 sizes later ⟨[operation]⟩ budget = .ok edits) :
    ∃ resolution, resolveOperation sha256 states operation 0 = .ok resolution ∧ edits.operations = [resolution.operation] := by
  rw [plan, indexed, Except.ok_bind] at planned
  obtain ⟨_, -, planned⟩ := Except.bind_eq_ok.mp planned
  obtain ⟨⟨resolved, folded⟩, resolves, planned⟩ := Except.bind_eq_ok.mp planned
  obtain ⟨outputs, -, planned⟩ := Except.bind_eq_ok.mp planned
  obtain ⟨usage, -, planned⟩ := Except.bind_eq_ok.mp planned
  obtain ⟨_, -, planned⟩ := Except.bind_eq_ok.mp planned
  obtain ⟨digest, -, planned⟩ := Except.bind_eq_ok.mp planned
  obtain rfl := Except.pure_eq_ok.mp planned
  obtain ⟨progress, stepped, last⟩ := Except.bind_eq_ok.mp (show planOperation sha256 states ([], ∅) (operation, 0) >>= _ = _ from resolves)
  rw [planOperation] at stepped
  obtain ⟨resolution, found, stepped⟩ := Except.bind_eq_ok.mp stepped
  obtain ⟨applied, -, stepped⟩ := Except.bind_eq_ok.mp stepped
  obtain rfl := Except.pure_eq_ok.mp stepped
  obtain ⟨rfl, -⟩ := Prod.mk.inj (Except.pure_eq_ok.mp last)
  exact ⟨resolution, found, rfl⟩

/-- A plan fails as the resolution of its only operation. -/
theorem plan_single_error {sizes : TypeSizes} {operation : Operation} {budget : ResourceBudget} {failure : CoreError}
    (indexed : indexSnapshot later = .ok (states, byId)) (consistent : validatePreconditionConsistency ⟨[operation]⟩ = .ok ())
    (failed : resolveOperation sha256 states operation 0 = .error failure) :
    plan sha256 sizes later ⟨[operation]⟩ budget = .error failure := by
  have first : planOperation sha256 states ([], ∅) (operation, 0) = .error failure := by
    rw [planOperation, failed, Except.error_bind]
  rw [plan, indexed, Except.ok_bind]
  dsimp only
  rw [consistent, Except.ok_bind]
  simp only [List.zipIdx_cons, List.zipIdx_nil, List.foldlM_cons, first, Except.error_bind]

end Planning

/-- What planning a request with the source of a match does in a snapshot that has this file at its path. -/
structure PlansSource (sha256 : Bytes → Sha256Digest) (later : WorkspaceSnapshot) (file : FileSnapshot) (original : Bytes)
    (selected : SelectionMatchDto) (specification : OperationSpecification) (kind : OperationKind) : Prop where
  /-- The source is found and its range is selected; only the destination may still fail. -/
  resolves : file.bytes = original → ∃ states byId, indexSnapshot later = .ok (states, byId) ∧
    existingSource states specification 0 = .ok file ∧
    resolveSelector file specification.source.selector 0 = .ok ⟨selected.selector.start, selected.selector.stop⟩ ∧
    ∀ failure, resolveOperation sha256 states (operationOf specification kind) 0 = .error failure →
      (do
        let state ← destinationState states specification 0
        resolveAnchor state specification.destination.anchor 0) = .error failure
  plans : file.bytes = original → ∀ sizes budget edits,
    plan sha256 sizes later ⟨[operationOf specification kind]⟩ budget = .ok edits → ∃ resolved, edits.operations = [resolved] ∧
      resolved.sourceRange = ⟨selected.selector.start, selected.selector.stop⟩ ∧
      resolved.selectedDigest.toPrefixedHex = selected.selectedPayloadSha256 ∧
      resolved.sourceRange.stop - resolved.sourceRange.start = selected.selectedByteLength
  /-- Other bytes are rejected, when these two texts do not collide. -/
  rejects : file.bytes ≠ original → sha256 file.bytes ≠ sha256 original → ∀ sizes budget,
    plan sha256 sizes later ⟨[operationOf specification kind]⟩ budget = .error (conflict "source_precondition_failed" 0) ∨
      plan sha256 sizes later ⟨[operationOf specification kind]⟩ budget = .error (conflict "incompatible_preconditions" 0) ∧
        specification.destination.path = specification.source.path ∧
        specification.destination.precondition ≠ specification.source.precondition

theorem MatchesSnapshot.plans {sha256 : Bytes → Sha256Digest} {path : String} {snapshot file : FileSnapshot}
    {selected : SelectionMatchDto} {view : WorkspaceView} {limits : SnapshotLimits} {requirements : List SnapshotRequirement}
    {later : WorkspaceSnapshot} (acquires : Select.Acquires sha256 path snapshot)
    (matches_ : MatchesSnapshot sha256 snapshot selected)
    (acquired : view.acquireSnapshot sha256 requirements limits = .ok later) (member : file ∈ later.files)
    (placed : file.path.value = selected.requestSource.path) (destination : Destination) (kind : OperationKind) :
    PlansSource sha256 later file snapshot.bytes selected ⟨SelectionMatchDto.selection selected snapshot.digest, destination⟩ kind := by
  obtain ⟨⟨states, byId⟩, indexed⟩ := (indexSnapshot_succeeds_iff later).mpr (acquireSnapshot_indexable acquired)
  have found : states[selected.requestSource.path]? = some (.existing file) :=
    ((indexSnapshot_lookups indexed).1 _ _).mpr (.inl ⟨file, member, placed, rfl⟩)
  have digest := (acquireSnapshot_ok acquired).digests file member
  obtain ⟨slice, sliced, payload⟩ := matches_.payload
  have source : existingSource states ⟨SelectionMatchDto.selection selected snapshot.digest, destination⟩ 0 =
      if file.digest ≠ snapshot.digest then .error (conflict "source_precondition_failed" 0) else .ok file := by
    rw [existingSource, SelectionMatchDto.selection]
    dsimp only
    rw [found]
  have selects (same : file.bytes = snapshot.bytes) :
      resolveSelector file (.bytes selected.selector.start selected.selector.stop) 0 =
        .ok ⟨selected.selector.start, selected.selector.stop⟩ := if_pos ⟨matches_.nonempty, same ▸ matches_.bounded⟩
  have kept (same : file.bytes = snapshot.bytes) :
      existingSource states ⟨SelectionMatchDto.selection selected snapshot.digest, destination⟩ 0 = .ok file := by
    rw [source, if_neg (by rw [digest, same, acquires.digest]; exact not_not.mpr rfl)]
  have resolved (same : file.bytes = snapshot.bytes) :
      sliceRange file.bytes ⟨selected.selector.start, selected.selector.stop⟩ = .ok slice := by
    rw [sliceRange, same, sliced]
  refine ⟨fun same => ?_, fun same sizes budget edits planned => ?_, fun _ apart sizes budget => ?_⟩
  · refine ⟨states, byId, indexed, kept same, selects same, fun failure failed => ?_⟩
    rw [resolveOperation, operationParts_operationOf] at failed
    dsimp only at failed
    rw [kept same, Except.ok_bind] at failed
    change (resolveSelector file (.bytes selected.selector.start selected.selector.stop) 0 >>= _) = _ at failed
    rw [selects same, Except.ok_bind, resolved same, Except.ok_bind] at failed
    cases state : destinationState states ⟨SelectionMatchDto.selection selected snapshot.digest, destination⟩ 0 with
    | error _ =>
      rw [state, Except.error_bind] at failed
      rw [Except.error_bind, Except.error.inj failed]
    | ok state' =>
      rw [state, Except.ok_bind] at failed
      rw [Except.ok_bind]
      cases offset : resolveAnchor state' destination.anchor 0 with
      | error _ =>
        rw [offset, Except.error_bind] at failed
        rw [Except.error.inj failed]
      | ok _ =>
        rw [offset] at failed
        cases failed
  · obtain ⟨resolution, resolution_ok, operations⟩ := plan_single_ok indexed planned
    rw [resolveOperation, operationParts_operationOf] at resolution_ok
    dsimp only at resolution_ok
    rw [kept same, Except.ok_bind] at resolution_ok
    change (resolveSelector file (.bytes selected.selector.start selected.selector.stop) 0 >>= _) = _ at resolution_ok
    rw [selects same, Except.ok_bind, resolved same, Except.ok_bind] at resolution_ok
    obtain ⟨state, -, resolution_ok⟩ := Except.bind_eq_ok.mp resolution_ok
    obtain ⟨offset, -, resolution_ok⟩ := Except.bind_eq_ok.mp resolution_ok
    obtain rfl := Except.pure_eq_ok.mp resolution_ok
    exact ⟨_, operations, rfl, payload.symm, matches_.length.symm⟩
  · rcases Decidable.em (destination.path = ⟨selected.requestSource.path⟩ ∧ destination.precondition ≠ .sha256 snapshot.digest) with
      clash | consistent
    · refine .inr ⟨?_, clash⟩
      rw [plan, indexed, Except.ok_bind, validatePreconditionConsistency_single]
      exact congrArg (· >>= _) (if_pos clash)
    · refine .inl (plan_single_error indexed (validatePreconditionConsistency_single.trans (if_neg consistent)) ?_)
      rw [resolveOperation, operationParts_operationOf]
      dsimp only
      rw [source, if_pos (by rw [digest, acquires.digest]; exact apart), Except.error_bind]

/-- The source of a match composes with editing: it is parsed wherever it is placed, plans to the bytes
of the match as long as the source is unchanged, and is rejected when it is not. -/
theorem selections_compose (surroundings : Surroundings) (read : Bytes → Option Content) {arguments : SelectArgs}
    {response : SelectionResponse} (succeeded : Select.executeInner surroundings arguments = .ok response)
    {selected : SelectionMatchDto} (listed : selected ∈ response.matches_) :
    ∃ snapshot, Select.acquireSource surroundings arguments.path = .ok snapshot ∧
      ∀ kind destination, ValidPath {} destination.path →
        (∀ content input, PlacesSource selected.requestSource.content destination content kind → read input = some content →
          input.length ≤ RequestLimits.requestBytes {} → enforceJsonDepth input (RequestLimits.jsonDepth {}) = .ok () →
          parseRequest read input =
            .ok ⟨[operationOf ⟨SelectionMatchDto.selection selected snapshot.digest, destination⟩ kind]⟩) ∧
        ∀ (view : WorkspaceView) limits requirements later file,
          view.acquireSnapshot surroundings.sha256 requirements limits = .ok later → file ∈ later.files →
          file.path.value = selected.requestSource.path → PlansSource surroundings.sha256 later file snapshot.bytes selected
            ⟨SelectionMatchDto.selection selected snapshot.digest, destination⟩ kind := by
  obtain ⟨snapshot, acquired, each⟩ := Select.executeInner_ok succeeded
  have acquires := Select.acquireSource_ok acquired
  have matches_ := each selected listed
  refine ⟨snapshot, acquired, fun kind destination valid => ⟨fun content input places found sized nested => ?_, ?_⟩⟩
  · have documented := places.documented acquires matches_ valid
    exact (parseRequestWithLimits_eq_ok sized nested).mpr ⟨content, found, documented.spelled.symm ▸ documented⟩
  · intro view limits requirements later file snapshotted member placed
    exact matches_.plans acquires snapshotted member placed destination kind

/-! ## A letter -/

/-- A copy of the letter to a new file. -/
def copyLetter : Bytes :=
  ["\x7b\"protocol_version\":1,", "\"operations\":[", "\x7b\"kind\":\"copy\",", "\"source\":\x7b\"path\":\"a\",",
    "\"selector\":\x7b", "\"kind\":\"bytes\",", "\"start\":0,\"end\":1\x7d,", "\"precondition\":\x7b", "\"kind\":\"sha256\",",
    "\"value\":\"sha256:", "ca978112ca1bbdcafac231b39a23dc4d", "a786eff8147c4e72b9807785afee48bb", "\"\x7d\x7d,", "\"destination\":",
    "\x7b\"path\":\"b\",", "\"anchor\":\x7b", "\"kind\":\"file_start\"\x7d,", "\"precondition\":\x7b", "\"kind\":\"must_not_exist\"",
    "\x7d\x7d\x7d]\x7d"].flatMap utf8Bytes

def newFile : Destination := ⟨⟨"b"⟩, .fileStart, .mustNotExist⟩

private def newFileContent : Content :=
  .map [("path", .string "b"), ("anchor", .map [("kind", .string "file_start")]),
    ("precondition", .map [("kind", .string "must_not_exist")])]

/-- The content of the text, around the source of a match. -/
def copyContent (source : Content) : Content :=
  .map [("protocol_version", .natural 1), ("operations", .seq [.map [("kind", .string "copy"), ("source", source),
    ("destination", newFileContent)]])]

/-- What is acquired of a file of letters, and of the missing new file. -/
def lettersAnd (count : ℕ) : WorkspaceSnapshot where
  workspaceIdentity := ⟨1, 0⟩
  files := [letterSnapshot count]
  absentPaths := [⟨⟨"b"⟩, ⟨1, 0⟩, [⟨1, 0⟩], "b"⟩]

def lettersRequired (count : ℕ) : List SnapshotRequirement := [⟨⟨"a"⟩, .existing (sha256Digest (letterBytes count))⟩, ⟨⟨"b"⟩, .absent⟩]

/-- The letter is selected. A request to copy it is parsed; it is planned while the file is the letter, and rejected
once the file has another one. -/
theorem selections_compose_letter : ∃ response selected,
    Select.executeInner (letterSurroundings 1 1) { path := "a", name := some "a" } = .ok response ∧ selected ∈ response.matches_ ∧
      parseRequest (fun input => if input = copyLetter then some (copyContent selected.requestSource.content) else none) copyLetter =
        .ok ⟨[operationOf ⟨SelectionMatchDto.selection selected (sha256Digest [97]), newFile⟩ .copy]⟩ ∧
      (∃ edits resolved, plan sha256Digest ⟨224, 120, 72⟩ (lettersAnd 1)
          ⟨[operationOf ⟨SelectionMatchDto.selection selected (sha256Digest [97]), newFile⟩ .copy]⟩ {} = .ok edits ∧
        edits.operations = [resolved] ∧ resolved.sourceRange = ⟨0, 1⟩ ∧
        resolved.selectedDigest.toPrefixedHex = selected.selectedPayloadSha256 ∧ selected.selectedByteLength = 1) ∧
      plan sha256Digest ⟨224, 120, 72⟩ (lettersAnd 2)
        ⟨[operationOf ⟨SelectionMatchDto.selection selected (sha256Digest [97]), newFile⟩ .copy]⟩ {} =
          .error (conflict "source_precondition_failed" 0) := by
  have found : ((Select.executeInner (letterSurroundings 1 1) { path := "a", name := some "a" }).toOption.map
      fun response => response.matches_.map fun selected => SelectionMatchDto.selection selected (sha256Digest [97])) =
        some [⟨⟨"a"⟩, .bytes 0 1, .sha256 (sha256Digest [97])⟩] := by decide +kernel
  have acquired₁ : (letterView 1).acquireSnapshot sha256Digest (lettersRequired 1) {} = .ok (lettersAnd 1) := by decide +kernel
  have acquired₂ : (letterView 2).acquireSnapshot sha256Digest (lettersRequired 2) {} = .ok (lettersAnd 2) := by decide +kernel
  cases succeeded : Select.executeInner (letterSurroundings 1 1) { path := "a", name := some "a" } with
  | error report =>
    rw [succeeded] at found
    cases found
  | ok response =>
    rw [succeeded] at found
    obtain ⟨selected, only, source⟩ := List.map_eq_singleton_iff.mp (Option.some.inj found)
    have listed : selected ∈ response.matches_ := by rw [only]; exact List.mem_singleton_self _
    obtain ⟨snapshot, acquired, composes⟩ := selections_compose (letterSurroundings 1 1)
      (fun input => if input = copyLetter then some (copyContent selected.requestSource.content) else none) succeeded listed
    obtain rfl : letterSnapshot 1 = snapshot := Except.ok.inj ((letters_acquired (by decide) (by decide)).symm.trans acquired)
    have places : PlacesSource selected.requestSource.content newFile (copyContent selected.requestSource.content) .copy :=
      .copy ⟨_, rfl, .rfl⟩ ⟨_, rfl, .rfl⟩ (.anchored ⟨_, rfl, .rfl⟩ (.fileStart ⟨_, rfl, .rfl⟩) (.mustNotExist ⟨_, rfl, .rfl⟩))
    have valid : ValidPath {} newFile.path := ⟨by decide, by decide, by decide⟩
    obtain ⟨parses, plans⟩ := composes .copy newFile valid
    have path : selected.requestSource.path = "a" := congrArg (fun source : SourceSelection => source.path.value) source
    have range : Selector.bytes selected.selector.start selected.selector.stop = .bytes 0 1 := congrArg SourceSelection.selector source
    obtain ⟨start, stop⟩ := Selector.bytes.inj range
    refine ⟨response, selected, rfl, listed, parses _ copyLetter places (if_pos rfl) (by decide +kernel) (by decide +kernel), ?_, ?_⟩
    · obtain ⟨edits, planned⟩ : ∃ edits, plan sha256Digest ⟨224, 120, 72⟩ (lettersAnd 1)
          ⟨[operationOf ⟨⟨⟨"a"⟩, .bytes 0 1, .sha256 (sha256Digest [97])⟩, newFile⟩ .copy]⟩ {} = .ok edits :=
        ⟨_, Except.eq_ok_get (by decide +kernel)⟩
      have unchanged := plans (letterView 1) {} (lettersRequired 1) (lettersAnd 1) (letterSnapshot 1) acquired₁
        (List.mem_singleton_self _) path.symm
      rw [← source] at planned
      obtain ⟨resolved, operations, selects, digest, length⟩ := unchanged.plans rfl _ _ _ planned
      rw [start, stop] at selects
      rw [selects] at length
      exact ⟨edits, resolved, planned, operations, selects, digest, length.symm⟩
    · have changed := plans (letterView 2) {} (lettersRequired 2) (lettersAnd 2) (letterSnapshot 2) acquired₂
        (List.mem_singleton_self _) path.symm
      rcases changed.rejects (by decide) (by decide +kernel) ⟨224, 120, 72⟩ {} with rejected | ⟨-, same, -⟩
      · exact rejected
      · have here : newFile.path = ⟨"a"⟩ := by
          rw [← path]
          exact same
        exact absurd here (by decide)

end Srcmv.Cli
