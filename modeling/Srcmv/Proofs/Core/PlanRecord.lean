import Srcmv.Model.Core.PlanHash
import Srcmv.ToMathlib.Cbor
import Srcmv.ToMathlib.Except

/-! # The plan record as a data item

The encoder writes one CBOR item. What it says of a plan is collected here as data: the facts of each
input in path order, the operations, and the outputs in path order with their segments naming inputs
by position.
-/

namespace Srcmv.Core

open DeterministicCbor (Item)

/-- What the record says of an input. -/
inductive InputFacts where
  | absent (path : String) (parentIdentity : FileIdentity)
  | existing (path : String) (parentIdentity identity : FileIdentity) (length : ℕ) (digest : Sha256Digest)
deriving DecidableEq

def InputRecord.facts : InputRecord → InputFacts
  | .absent missing => .absent missing.path.value missing.parentIdentity
  | .existing file => .existing file.path.value file.parentIdentity file.identity file.bytes.length file.digest

def InputRecord.hasId (id : SnapshotFileId) : InputRecord → Bool
  | .existing file => file.id = id
  | .absent _ => false

/-- The position of a file among sorted inputs. -/
def inputPosition (inputs : List InputRecord) (id : SnapshotFileId) : Option ℕ := inputs.findIdx? (InputRecord.hasId id)

/-- A segment with its file identifier read as a position. -/
def OutputSegment.positioned (position : SnapshotFileId → Option ℕ) : OutputSegment → Option OutputSegment
  | .originalSlice id range => (position id).map fun index => .originalSlice index range
  | .payloadSlice operationIndex id range digest => (position id).map fun index => .payloadSlice operationIndex index range digest

def PlannedOutput.positioned (position : SnapshotFileId → Option ℕ) (output : PlannedOutput) : Option PlannedOutput :=
  (output.segments.mapM (OutputSegment.positioned position)).map fun segments => { output with segments }

/-- Outputs in path order with positions for file identifiers. -/
def positionedOutputs (snapshot : WorkspaceSnapshot) (plan : EditPlan) : Option (List PlannedOutput) :=
  (plan.outputs.insertionSort fun left right => left.path.value ≤ right.path.value).mapM
    (PlannedOutput.positioned (inputPosition (sortedInputs snapshot)))

section Items

def textItem (value : String) : Item := .text (utf8Bytes value)

def digestItem (digest : Sha256Digest) : Item := .bytes digest.bytes

def identityItems (identity : FileIdentity) : List Item := [.unsigned identity.device.toNat, .unsigned identity.inode.toNat]

def InputFacts.item : InputFacts → Item
  | .absent path parent => .array [textItem path, .array (.unsigned 0 :: identityItems parent)]
  | .existing path parent identity length digest => .array [textItem path,
      .array (.unsigned 1 :: identityItems parent ++ identityItems identity ++ [.unsigned length, digestItem digest])]

def Selector.item : Selector → Item
  | .lines start stop => .array [.unsigned 1, .unsigned start, .unsigned stop]
  | .bytes start stop => .array [.unsigned 2, .unsigned start, .unsigned stop]

def Anchor.item : Anchor → Item
  | .fileStart => .array [.unsigned 1]
  | .fileEnd => .array [.unsigned 2]
  | .beforeLine line => .array [.unsigned 3, .unsigned line]
  | .afterLine line => .array [.unsigned 4, .unsigned line]
  | .byteOffset offset => .array [.unsigned 5, .unsigned offset]

def Precondition.item : Precondition → Item
  | .sha256 digest => .array [.unsigned 1, digestItem digest]
  | .mustNotExist => .array [.unsigned 2]

def OperationKind.item : OperationKind → Item
  | .move => .unsigned 1
  | .copy => .unsigned 2

def OperationEffect.item : OperationEffect → Item
  | .changed => .unsigned 1
  | .noOp => .unsigned 2

def ResolvedOperation.item (operation : ResolvedOperation) : Item :=
  .array [.unsigned operation.operationIndex, operation.kind.item, textItem operation.sourcePath.value,
    operation.selector.item, operation.sourcePrecondition.item, .unsigned operation.sourceRange.start,
    .unsigned operation.sourceRange.stop, digestItem operation.selectedDigest, textItem operation.destinationPath.value,
    operation.anchor.item, operation.destinationPrecondition.item, .unsigned operation.destinationOffset,
    operation.effect.item]

def OutputChange.item : OutputChange → Item
  | .unchanged => .unsigned 1
  | .modifiedExisting => .unsigned 2
  | .createdNew => .unsigned 3
  | .emptiedExisting => .unsigned 4

/-- A segment whose identifier is a position. -/
def OutputSegment.item : OutputSegment → Item
  | .originalSlice index range => .array [.unsigned 1, .unsigned index, .unsigned range.start, .unsigned range.stop]
  | .payloadSlice operationIndex index range digest => .array [.unsigned 2, .unsigned operationIndex, .unsigned index,
      .unsigned range.start, .unsigned range.stop, digestItem digest]

def originalItem : Option Sha256Digest → Item
  | some digest => digestItem digest
  | none => .null

def PlannedOutput.item (output : PlannedOutput) : Item :=
  .array [textItem output.path.value, originalItem output.originalDigest, digestItem output.resultingDigest,
    .unsigned output.resultingLength, output.change.item, .array (output.segments.map OutputSegment.item)]

/-- The whole record. -/
def planItem (snapshot : WorkspaceSnapshot) (operations : List ResolvedOperation) (outputs : List PlannedOutput) : Item :=
  .array [.unsigned planHashVersion, .unsigned protocolVersion, .array (identityItems snapshot.workspaceIdentity),
    .array ((sortedInputs snapshot).map fun input => input.facts.item), .array (operations.map ResolvedOperation.item),
    .array (outputs.map PlannedOutput.item)]

end Items

section Written

theorem bigEndian_eq_octets : bigEndian = DeterministicCbor.octets := by
  funext width
  induction width with
  | zero => rfl
  | succ width ih => funext value; rw [bigEndian, DeterministicCbor.octets, ih]

theorem majorValue_eq_writeHead (major value : ℕ) : Cbor.majorValue major value = DeterministicCbor.writeHead major value := by
  rw [Cbor.majorValue, bigEndian_eq_octets]
  rfl

/-- The encoder's primitives are the writer's heads. -/
private theorem unsigned_write (value : ℕ) : (Item.unsigned value).write = Cbor.unsigned value := by
  rw [Item.write, Cbor.unsigned, majorValue_eq_writeHead]

private theorem array_write (items : List Item) : (Item.array items).write = Cbor.array items.length ++ items.flatMap Item.write := by
  rw [Item.write, Cbor.array, majorValue_eq_writeHead, Item.writeAll_eq]

private theorem text_write (value : String) : (textItem value).write = Cbor.text value := by
  rw [textItem, Item.write, Cbor.text, majorValue_eq_writeHead]

private theorem digest_write (digest : Sha256Digest) : (digestItem digest).write = Cbor.byteString digest.bytes := by
  rw [digestItem, Item.write, Cbor.byteString, majorValue_eq_writeHead]

private theorem null_write : Item.null.write = Cbor.null := by rw [Item.write, Cbor.null]

attribute [local simp] unsigned_write array_write text_write digest_write null_write

private theorem input_write (input : InputRecord) : input.facts.item.write = encodeInput input := by
  cases input <;> simp [InputRecord.facts, InputFacts.item, encodeInput, identityItems, InputRecord.path]

private theorem selector_write (selector : Selector) : selector.item.write = encodeSelector selector := by
  cases selector <;> simp [Selector.item, encodeSelector]

private theorem anchor_write (anchor : Anchor) : anchor.item.write = encodeAnchor anchor := by
  cases anchor <;> simp [Anchor.item, encodeAnchor]

private theorem precondition_write (precondition : Precondition) : precondition.item.write = encodePrecondition precondition := by
  cases precondition <;> simp [Precondition.item, encodePrecondition]

private theorem operation_write (operation : ResolvedOperation) : operation.item.write = encodeOperation operation := by
  rcases operation with ⟨index, kind, source, selector, sourcePrecondition, range, digest, destination, anchor, precondition, offset, effect⟩
  cases kind <;> cases effect <;>
    simp [ResolvedOperation.item, OperationKind.item, OperationEffect.item, encodeOperation, selector_write, anchor_write,
      precondition_write]

/-- Traversals that succeed together give related results. -/
private theorem mapM_written {α β : Type} {encode : α → Except CoreError Bytes} {place : α → Option β} {write : β → Bytes}
    (each : ∀ item bytes, encode item = .ok bytes → ∃ placed, place item = some placed ∧ bytes = write placed)
    (items : List α) : ∀ {results : List Bytes}, items.mapM encode = .ok results →
      ∃ placed, items.mapM place = some placed ∧ results = placed.map write ∧ items.length = placed.length := by
  induction items with
  | nil =>
    intro results accepted
    rw [List.mapM_nil, Except.pure_eq_ok] at accepted
    exact ⟨[], rfl, accepted.symm, rfl⟩
  | cons item rest ih =>
    intro results accepted
    rw [List.mapM_cons] at accepted
    obtain ⟨first, encoded, accepted⟩ := Except.bind_eq_ok.mp accepted
    obtain ⟨others, traversed, accepted⟩ := Except.bind_eq_ok.mp accepted
    rw [Except.pure_eq_ok] at accepted
    obtain ⟨placed, there, rfl⟩ := each item first encoded
    obtain ⟨later, found, rfl, length⟩ := ih traversed
    exact ⟨placed :: later, by rw [List.mapM_cons, there, found]; rfl, accepted.symm, congrArg Nat.succ length⟩

variable {indexes : Std.TreeMap SnapshotFileId ℕ} {position : SnapshotFileId → Option ℕ}

private theorem inputIndex_ok {id : SnapshotFileId} {index : ℕ} (lookup : ∀ id, indexes[id]? = position id)
    (found : inputIndex indexes id = .ok index) : position id = some index := by
  unfold inputIndex at found
  rw [lookup] at found
  split at found
  · next there => rw [there, Except.ok.inj found]
  · cases found

private theorem segment_write (lookup : ∀ id, indexes[id]? = position id) {segment : OutputSegment} {bytes : Bytes}
    (encoded : encodeSegment indexes segment = .ok bytes) :
    ∃ placed, segment.positioned position = some placed ∧ bytes = placed.item.write := by
  cases segment with
  | originalSlice id range =>
    obtain ⟨index, found, encoded⟩ := Except.bind_eq_ok.mp encoded
    rw [Except.pure_eq_ok] at encoded
    refine ⟨.originalSlice index range, by rw [OutputSegment.positioned, inputIndex_ok lookup found]; rfl, ?_⟩
    simp [← encoded, OutputSegment.item]
  | payloadSlice operationIndex id range digest =>
    obtain ⟨index, found, encoded⟩ := Except.bind_eq_ok.mp encoded
    rw [Except.pure_eq_ok] at encoded
    refine ⟨.payloadSlice operationIndex index range digest,
      by rw [OutputSegment.positioned, inputIndex_ok lookup found]; rfl, ?_⟩
    simp [← encoded, OutputSegment.item]

private theorem output_write (lookup : ∀ id, indexes[id]? = position id) {output : PlannedOutput} {bytes : Bytes}
    (encoded : encodeOutput indexes output = .ok bytes) :
    ∃ placed, output.positioned position = some placed ∧ bytes = placed.item.write := by
  obtain ⟨results, traversed, encoded⟩ := Except.bind_eq_ok.mp encoded
  rw [Except.pure_eq_ok] at encoded
  obtain ⟨segments, placed, rfl, length⟩ := mapM_written (fun _ _ => segment_write lookup) _ traversed
  refine ⟨{ output with segments }, by rw [PlannedOutput.positioned, placed]; rfl, ?_⟩
  rw [← encoded, length]
  obtain ⟨path, originalDigest, change, resultingLength, resultingDigest, before⟩ := output
  cases originalDigest <;> cases change <;>
    simp [PlannedOutput.item, originalItem, OutputChange.item, List.flatMap_def, Function.comp_def]

/-- A fold that indexes the existing inputs finds each of them at its position. -/
private theorem indexing_fold {step : Std.TreeMap SnapshotFileId ℕ → InputRecord × ℕ → Except CoreError (Std.TreeMap SnapshotFileId ℕ)}
    (absent : ∀ known missing index, step known (.absent missing, index) = Except.ok known)
    (existing : ∀ known file index, step known (.existing file, index) =
      if known[file.id]?.isSome then Except.error (CoreError.invalidDomainValue "duplicate_snapshot_file_id")
        else Except.ok (known.insert file.id index))
    (id : SnapshotFileId) (inputs : List InputRecord) : ∀ (start : ℕ) {known result : Std.TreeMap SnapshotFileId ℕ},
      (inputs.zipIdx start).foldlM step known = Except.ok result →
        result[id]? = (known[id]?).or ((inputPosition inputs id).map (· + start)) := by
  induction inputs with
  | nil =>
    intro start known result folded
    rw [List.zipIdx_nil, List.foldlM_nil, Except.pure_eq_ok] at folded
    rw [folded, inputPosition, List.findIdx?_nil, Option.map_none, Option.or_none]
  | cons input rest ih =>
    intro start known result folded
    rw [List.zipIdx_cons, List.foldlM_cons] at folded
    obtain ⟨next, stepped, folded⟩ := Except.bind_eq_ok.mp folded
    rw [ih (start + 1) folded, inputPosition, inputPosition, List.findIdx?_cons]
    cases input with
    | absent missing =>
      rw [absent] at stepped
      obtain rfl := Except.ok.inj stepped
      simp [InputRecord.hasId, Function.comp_def, Nat.add_comm 1, Nat.add_assoc]
    | existing file =>
      rw [existing] at stepped
      split at stepped
      · cases stepped
      next fresh =>
        obtain rfl := Except.ok.inj stepped
        rw [Std.TreeMap.getElem?_insert]
        by_cases same : file.id = id
        · subst same
          rw [Option.not_isSome_iff_eq_none] at fresh
          simp [InputRecord.hasId, fresh]
        · have other : ¬compare file.id id = .eq := fun equal => same (compare_eq_iff_eq.mp equal)
          simp [InputRecord.hasId, other, same, Function.comp_def, Nat.add_comm 1, Nat.add_assoc]

theorem inputIndexes_ok {inputs : List InputRecord} (indexed : inputIndexes inputs = .ok indexes) (id : SnapshotFileId) :
    indexes[id]? = inputPosition inputs id := by
  rw [inputIndexes] at indexed
  have whole := @indexing_fold _ (fun _ _ _ => rfl) (fun _ _ _ => rfl) id inputs 0 _ _ indexed
  simpa using whole

/-- An encoded plan is the item of its record. -/
theorem encodePlanRecord_ok {snapshot : WorkspaceSnapshot} {plan : EditPlan} {record : Bytes}
    (encoded : encodePlanRecord snapshot plan = .ok record) :
    ∃ outputs, positionedOutputs snapshot plan = some outputs ∧ record = (planItem snapshot plan.operations outputs).write := by
  obtain ⟨indexes, indexed, encoded⟩ := Except.bind_eq_ok.mp encoded
  obtain ⟨written, encodedOutputs, encoded⟩ := Except.bind_eq_ok.mp encoded
  obtain ⟨results, traversed, encodedOutputs⟩ := Except.bind_eq_ok.mp encodedOutputs
  rw [Except.pure_eq_ok] at encoded encodedOutputs
  have lookup := fun id => inputIndexes_ok indexed id
  obtain ⟨outputs, placed, rfl, length⟩ := mapM_written (fun _ _ => output_write lookup) _ traversed
  refine ⟨outputs, placed, ?_⟩
  rw [← encoded, ← encodedOutputs, length]
  simp [planItem, encodeWorkspaceIdentity, encodeInputs, encodeOperations, identityItems, input_write,
    operation_write, List.flatMap_def, Function.comp_def]

end Written

section Sizes

/-! A number of the model stands for a `u64` or a `usize` of the code, so it is at most `u64Max`. -/

def InputFacts.MachineSized : InputFacts → Prop
  | .absent path _ => (utf8Bytes path).length ≤ u64Max
  | .existing path _ _ length _ => (utf8Bytes path).length ≤ u64Max ∧ length ≤ u64Max

def Selector.MachineSized : Selector → Prop
  | .lines start stop => start ≤ u64Max ∧ stop ≤ u64Max
  | .bytes start stop => start ≤ u64Max ∧ stop ≤ u64Max

def Anchor.MachineSized : Anchor → Prop
  | .fileStart => True
  | .fileEnd => True
  | .beforeLine line => line ≤ u64Max
  | .afterLine line => line ≤ u64Max
  | .byteOffset offset => offset ≤ u64Max

structure ResolvedOperation.MachineSized (operation : ResolvedOperation) : Prop where
  operationIndex : operation.operationIndex ≤ u64Max
  sourcePath : (utf8Bytes operation.sourcePath.value).length ≤ u64Max
  selector : operation.selector.MachineSized
  sourceRange : operation.sourceRange.start ≤ u64Max ∧ operation.sourceRange.stop ≤ u64Max
  destinationPath : (utf8Bytes operation.destinationPath.value).length ≤ u64Max
  anchor : operation.anchor.MachineSized
  destinationOffset : operation.destinationOffset ≤ u64Max

def OutputSegment.MachineSized : OutputSegment → Prop
  | .originalSlice _ range => range.start ≤ u64Max ∧ range.stop ≤ u64Max
  | .payloadSlice operationIndex _ range _ => operationIndex ≤ u64Max ∧ range.start ≤ u64Max ∧ range.stop ≤ u64Max

structure PlannedOutput.MachineSized (output : PlannedOutput) : Prop where
  path : (utf8Bytes output.path.value).length ≤ u64Max
  resultingLength : output.resultingLength ≤ u64Max
  count : output.segments.length ≤ u64Max
  segments : ∀ segment ∈ output.segments, segment.MachineSized

/-- Everything that is encoded of a snapshot and a plan fits the code's integers. -/
structure MachineSized (snapshot : WorkspaceSnapshot) (plan : EditPlan) : Prop where
  inputCount : (sortedInputs snapshot).length ≤ u64Max
  inputs : ∀ input ∈ sortedInputs snapshot, input.facts.MachineSized
  operationCount : plan.operations.length ≤ u64Max
  operations : ∀ operation ∈ plan.operations, operation.MachineSized
  outputCount : plan.outputs.length ≤ u64Max
  outputs : ∀ output ∈ plan.outputs, output.MachineSized

private theorem fits_of_le {value : ℕ} (bounded : value ≤ u64Max) : value < 2 ^ 64 := by
  unfold u64Max at bounded
  omega

private theorem digest_fits (digest : Sha256Digest) : (digestItem digest).Fits := by
  rw [digestItem, Item.Fits, digest.size]
  norm_num

private theorem text_fits {value : String} (bounded : (utf8Bytes value).length ≤ u64Max) : (textItem value).Fits := by
  rw [textItem, Item.Fits]
  exact fits_of_le bounded

private theorem identity_fits (identity : FileIdentity) : ∀ item ∈ identityItems identity, item.Fits := by
  intro item member
  simp only [identityItems, List.mem_cons, List.not_mem_nil, or_false] at member
  rcases member with rfl | rfl
  · rw [Item.Fits]; exact UInt64.toNat_lt identity.device
  · rw [Item.Fits]; exact UInt64.toNat_lt identity.inode

private theorem array_fits {items : List Item} (count : items.length ≤ u64Max) (each : ∀ item ∈ items, item.Fits) :
    (Item.array items).Fits := by
  rw [Item.Fits]
  exact ⟨fits_of_le count, (Item.allFit_iff items).mpr each⟩

private theorem unsigned_fits {value : ℕ} (bounded : value ≤ u64Max) : (Item.unsigned value).Fits := by
  rw [Item.Fits]
  exact fits_of_le bounded

/-- A short list of items, given one by one. -/
private theorem tuple_fits {items : List Item} (short : items.length ≤ 13) (each : Item.AllFit items) : (Item.array items).Fits :=
  array_fits (short.trans (by norm_num [u64Max])) ((Item.allFit_iff items).mp each)

private theorem facts_fit {facts : InputFacts} (sized : facts.MachineSized) : facts.item.Fits := by
  have zero : (Item.unsigned 0).Fits := unsigned_fits (Nat.zero_le _)
  have one : (Item.unsigned 1).Fits := unsigned_fits (by norm_num [u64Max])
  cases facts with
  | absent path parent =>
    have body : (Item.array (.unsigned 0 :: identityItems parent)).Fits := by
      refine array_fits (by norm_num [identityItems, u64Max]) (List.forall_mem_cons.mpr ⟨zero, identity_fits parent⟩)
    exact tuple_fits (by simp) ⟨text_fits sized, body, trivial⟩
  | existing path parent identity length digest =>
    have body : (Item.array (.unsigned 1 :: identityItems parent ++ identityItems identity ++
        [.unsigned length, digestItem digest])).Fits := by
      refine array_fits (by norm_num [identityItems, u64Max]) ?_
      intro item member
      rcases List.mem_append.mp member with earlier | last
      · rcases List.mem_append.mp earlier with first | second
        · rcases List.mem_cons.mp first with rfl | inside
          · exact one
          · exact identity_fits parent item inside
        · exact identity_fits identity item second
      · rcases List.mem_cons.mp last with rfl | rest
        · exact unsigned_fits sized.2
        · rw [List.mem_singleton.mp rest]
          exact digest_fits digest
    exact tuple_fits (by simp) ⟨text_fits sized.1, body, trivial⟩

private theorem selector_fits {selector : Selector} (sized : selector.MachineSized) : selector.item.Fits := by
  cases selector <;>
    exact tuple_fits (by simp) ⟨unsigned_fits (by norm_num [u64Max]), unsigned_fits sized.1, unsigned_fits sized.2, trivial⟩

private theorem anchor_fits {anchor : Anchor} (sized : anchor.MachineSized) : anchor.item.Fits := by
  cases anchor with
  | fileStart => exact tuple_fits (by simp) ⟨unsigned_fits (by norm_num [u64Max]), trivial⟩
  | fileEnd => exact tuple_fits (by simp) ⟨unsigned_fits (by norm_num [u64Max]), trivial⟩
  | _ => exact tuple_fits (by simp) ⟨unsigned_fits (by norm_num [u64Max]), unsigned_fits sized, trivial⟩

private theorem precondition_fits (precondition : Precondition) : precondition.item.Fits := by
  cases precondition with
  | sha256 digest => exact tuple_fits (by simp) ⟨unsigned_fits (by norm_num [u64Max]), digest_fits digest, trivial⟩
  | mustNotExist => exact tuple_fits (by simp) ⟨unsigned_fits (by norm_num [u64Max]), trivial⟩

private theorem kind_fits (kind : OperationKind) : kind.item.Fits := by
  cases kind <;> exact unsigned_fits (by norm_num [u64Max])

private theorem effect_fits (effect : OperationEffect) : effect.item.Fits := by
  cases effect <;> exact unsigned_fits (by norm_num [u64Max])

private theorem operation_fits {operation : ResolvedOperation} (sized : operation.MachineSized) : operation.item.Fits := by
  have range := sized.sourceRange
  exact tuple_fits (by simp) ⟨unsigned_fits sized.operationIndex, kind_fits _, text_fits sized.sourcePath,
    selector_fits sized.selector, precondition_fits _, unsigned_fits range.1, unsigned_fits range.2, digest_fits _,
    text_fits sized.destinationPath, anchor_fits sized.anchor, precondition_fits _, unsigned_fits sized.destinationOffset,
    effect_fits _, trivial⟩

private theorem change_fits (change : OutputChange) : change.item.Fits := by
  cases change <;> exact unsigned_fits (by norm_num [u64Max])

variable {position : SnapshotFileId → Option ℕ}

private theorem segment_fits {segment placed : OutputSegment} (sized : segment.MachineSized)
    (bounded : ∀ id index, position id = some index → index ≤ u64Max) (found : segment.positioned position = some placed) :
    placed.item.Fits := by
  cases segment with
  | originalSlice id range =>
    obtain ⟨index, there, rfl⟩ := Option.map_eq_some_iff.mp found
    exact tuple_fits (by simp) ⟨unsigned_fits (by norm_num [u64Max]), unsigned_fits (bounded id index there),
      unsigned_fits sized.1, unsigned_fits sized.2, trivial⟩
  | payloadSlice operationIndex id range digest =>
    obtain ⟨index, there, rfl⟩ := Option.map_eq_some_iff.mp found
    exact tuple_fits (by simp) ⟨unsigned_fits (by norm_num [u64Max]), unsigned_fits sized.1, unsigned_fits (bounded id index there),
      unsigned_fits sized.2.1, unsigned_fits sized.2.2, digest_fits _, trivial⟩

/-- What a traversal produces comes from its items, one each. -/
private theorem mapM_some {α β : Type} {place : α → Option β} {items : List α} :
    ∀ {results : List β}, items.mapM place = some results →
      results.length = items.length ∧ ∀ result ∈ results, ∃ item ∈ items, place item = some result := by
  induction items with
  | nil =>
    intro results traversed
    obtain rfl : [] = results := Option.some.inj traversed
    exact ⟨rfl, nofun⟩
  | cons item rest ih =>
    intro results traversed
    rw [List.mapM_cons] at traversed
    obtain ⟨first, placed, traversed⟩ := Option.bind_eq_some_iff.mp traversed
    obtain ⟨others, found, traversed⟩ := Option.bind_eq_some_iff.mp traversed
    obtain rfl := Option.some.inj traversed
    obtain ⟨length, each⟩ := ih found
    refine ⟨congrArg Nat.succ length, List.forall_mem_cons.mpr ⟨⟨item, List.mem_cons_self, placed⟩, ?_⟩⟩
    intro result member
    obtain ⟨origin, inside, produced⟩ := each result member
    exact ⟨origin, List.mem_cons_of_mem _ inside, produced⟩

private theorem output_fits {output placed : PlannedOutput} (sized : output.MachineSized)
    (bounded : ∀ id index, position id = some index → index ≤ u64Max) (found : output.positioned position = some placed) :
    placed.item.Fits := by
  obtain ⟨segments, traversed, rfl⟩ := Option.map_eq_some_iff.mp found
  obtain ⟨length, each⟩ := mapM_some traversed
  have original : (originalItem output.originalDigest).Fits := by
    cases output.originalDigest with
    | none => trivial
    | some digest => exact digest_fits digest
  have body : (Item.array (segments.map OutputSegment.item)).Fits := by
    apply array_fits
    · rw [List.length_map, length]
      exact sized.count
    · intro item member
      obtain ⟨segment, inside, rfl⟩ := List.mem_map.mp member
      obtain ⟨before, there, moved⟩ := each segment inside
      exact segment_fits (sized.segments before there) bounded moved
  exact tuple_fits (by simp) ⟨text_fits sized.path, original, digest_fits _, unsigned_fits sized.resultingLength,
    change_fits _, body, trivial⟩

/-- Every argument of the record fits eight octets. -/
theorem planItem_fits {snapshot : WorkspaceSnapshot} {plan : EditPlan} {outputs : List PlannedOutput}
    (sized : MachineSized snapshot plan) (placed : positionedOutputs snapshot plan = some outputs) :
    (planItem snapshot plan.operations outputs).Fits := by
  obtain ⟨length, each⟩ := mapM_some placed
  have bounded : ∀ id index, inputPosition (sortedInputs snapshot) id = some index → index ≤ u64Max := by
    intro id index found
    exact (List.findIdx?_eq_some_iff_getElem.mp found).1.le.trans sized.inputCount
  have workspace : (Item.array (identityItems snapshot.workspaceIdentity)).Fits :=
    array_fits (by norm_num [identityItems, u64Max]) (identity_fits _)
  have inputs : (Item.array ((sortedInputs snapshot).map fun input => input.facts.item)).Fits := by
    apply array_fits
    · rw [List.length_map]
      exact sized.inputCount
    · intro item member
      obtain ⟨input, inside, rfl⟩ := List.mem_map.mp member
      exact facts_fit (sized.inputs input inside)
  have operations : (Item.array (plan.operations.map ResolvedOperation.item)).Fits := by
    apply array_fits
    · rw [List.length_map]
      exact sized.operationCount
    · intro item member
      obtain ⟨operation, inside, rfl⟩ := List.mem_map.mp member
      exact operation_fits (sized.operations operation inside)
  have results : (Item.array (outputs.map PlannedOutput.item)).Fits := by
    apply array_fits
    · rw [List.length_map, length, List.length_insertionSort]
      exact sized.outputCount
    · intro item member
      obtain ⟨output, inside, rfl⟩ := List.mem_map.mp member
      obtain ⟨before, there, moved⟩ := each output inside
      exact output_fits (sized.outputs before ((List.perm_insertionSort _ _).mem_iff.mp there)) bounded moved
  exact tuple_fits (by simp) ⟨unsigned_fits (by norm_num [planHashVersion, u64Max]),
    unsigned_fits (by norm_num [protocolVersion, u64Max]), workspace, inputs, operations, results, trivial⟩

end Sizes

section Injectivity

theorem utf8Bytes_injective : Function.Injective utf8Bytes := by
  intro left right same
  have encoded : left.toList.utf8Encode = right.toList.utf8Encode := congrArg List.toByteArray same
  have decoded := congrArg ByteArray.utf8Decode? encoded
  rw [List.utf8Decode?_utf8Encode, List.utf8Decode?_utf8Encode] at decoded
  exact String.toList_inj.mp (by simpa using decoded)

private theorem textItem_inj {left right : String} : textItem left = textItem right ↔ left = right := by
  rw [textItem, textItem, Item.text.injEq]
  exact utf8Bytes_injective.eq_iff

private theorem digestItem_inj {left right : Sha256Digest} : digestItem left = digestItem right ↔ left = right := by
  cases left
  cases right
  simp [digestItem]

private theorem identity_inj {left right : FileIdentity} :
    left.device.toNat = right.device.toNat ∧ left.inode.toNat = right.inode.toNat ↔ left = right := by
  cases left
  cases right
  simp [UInt64.toNat_inj]

attribute [local simp] textItem_inj digestItem_inj

private theorem facts_injective : Function.Injective InputFacts.item := by
  intro left right same
  cases left with
  | absent path parent =>
    cases right with
    | absent other parent' =>
      have parts : path = other ∧ parent.device.toNat = parent'.device.toNat ∧ parent.inode.toNat = parent'.inode.toNat := by
        simpa [InputFacts.item, identityItems] using same
      rw [parts.1, identity_inj.mp parts.2]
    | existing => simp [InputFacts.item] at same
  | existing path parent identity length digest =>
    cases right with
    | absent => simp [InputFacts.item] at same
    | existing other parent' identity' length' digest' =>
      have parts : path = other ∧ (parent.device.toNat = parent'.device.toNat ∧ parent.inode.toNat = parent'.inode.toNat) ∧
          (identity.device.toNat = identity'.device.toNat ∧ identity.inode.toNat = identity'.inode.toNat) ∧
          length = length' ∧ digest = digest' := by
        simpa [InputFacts.item, identityItems, and_assoc] using same
      obtain ⟨rfl, parents, identities, rfl, rfl⟩ := parts
      rw [identity_inj.mp parents, identity_inj.mp identities]

private theorem selector_injective : Function.Injective Selector.item := by
  intro left right same
  cases left <;> cases right <;> simp_all [Selector.item]

private theorem anchor_injective : Function.Injective Anchor.item := by
  intro left right same
  cases left <;> cases right <;> simp_all [Anchor.item]

private theorem precondition_injective : Function.Injective Precondition.item := by
  intro left right same
  cases left <;> cases right <;> simp_all [Precondition.item]

private theorem kind_injective : Function.Injective OperationKind.item := by
  intro left right same
  cases left <;> cases right <;> simp_all [OperationKind.item]

private theorem effect_injective : Function.Injective OperationEffect.item := by
  intro left right same
  cases left <;> cases right <;> simp_all [OperationEffect.item]

private theorem change_injective : Function.Injective OutputChange.item := by
  intro left right same
  cases left <;> cases right <;> simp_all [OutputChange.item]

private theorem range_ext {left right : ByteRange} (start : left.start = right.start) (stop : left.stop = right.stop) :
    left = right := by
  cases left
  cases right
  simp_all

private theorem operation_injective : Function.Injective ResolvedOperation.item := by
  intro left right same
  simp only [ResolvedOperation.item, Item.array.injEq, List.cons.injEq, Item.unsigned.injEq, textItem_inj, digestItem_inj,
    selector_injective.eq_iff, anchor_injective.eq_iff, precondition_injective.eq_iff, kind_injective.eq_iff,
    effect_injective.eq_iff] at same
  obtain ⟨index, kind, source, selector, precondition, start, stop, digest, destination, anchor, required, offset, effect, _⟩ :=
    same
  have sourcePath := WorkspaceRelativePath.value_inj.mp source
  have sourceRange := range_ext start stop
  have destinationPath := WorkspaceRelativePath.value_inj.mp destination
  cases left
  cases right
  dsimp only at index kind sourcePath selector precondition sourceRange digest destinationPath anchor required offset effect
  subst index kind sourcePath selector precondition sourceRange digest destinationPath anchor required offset effect
  rfl

private theorem segment_injective : Function.Injective OutputSegment.item := by
  intro left right same
  cases left <;> cases right
  · simp only [OutputSegment.item, Item.array.injEq, List.cons.injEq, Item.unsigned.injEq] at same
    obtain ⟨_, index, start, stop, _⟩ := same
    rw [index, range_ext start stop]
  · simp [OutputSegment.item] at same
  · simp [OutputSegment.item] at same
  · simp only [OutputSegment.item, Item.array.injEq, List.cons.injEq, Item.unsigned.injEq, digestItem_inj] at same
    obtain ⟨_, operation, index, start, stop, digest, _⟩ := same
    rw [operation, index, range_ext start stop, digest]

private theorem originalItem_injective : Function.Injective originalItem := by
  intro left right same
  cases left <;> cases right
  · rfl
  · simp [originalItem, digestItem] at same
  · simp [originalItem, digestItem] at same
  · exact congrArg some (digestItem_inj.mp same)

private theorem output_injective : Function.Injective PlannedOutput.item := by
  intro left right same
  simp only [PlannedOutput.item, Item.array.injEq, List.cons.injEq, Item.unsigned.injEq, textItem_inj, digestItem_inj,
    originalItem_injective.eq_iff, change_injective.eq_iff, (List.map_injective_iff.mpr segment_injective).eq_iff] at same
  obtain ⟨path, original, digest, length, change, segments, _⟩ := same
  have place := WorkspaceRelativePath.value_inj.mp path
  cases left
  cases right
  dsimp only at place original digest length change segments
  subst place original digest length change segments
  rfl

/-- The record says all of this. -/
theorem planItem_injective {snapshot other : WorkspaceSnapshot} {operations operations' : List ResolvedOperation}
    {outputs outputs' : List PlannedOutput} (same : planItem snapshot operations outputs = planItem other operations' outputs') :
    snapshot.workspaceIdentity = other.workspaceIdentity ∧
      (sortedInputs snapshot).map InputRecord.facts = (sortedInputs other).map InputRecord.facts ∧
      operations = operations' ∧ outputs = outputs' := by
  simp only [planItem, Item.array.injEq, List.cons.injEq, Item.unsigned.injEq, identityItems,
    (List.map_injective_iff.mpr operation_injective).eq_iff, (List.map_injective_iff.mpr output_injective).eq_iff] at same
  obtain ⟨_, _, ⟨device, inode, _⟩, inputs, sameOperations, sameOutputs, _⟩ := same
  refine ⟨identity_inj.mp ⟨device, inode⟩, ?_, sameOperations, sameOutputs⟩
  apply List.map_injective_iff.mpr facts_injective
  rw [List.map_map, List.map_map]
  exact inputs

end Injectivity

end Srcmv.Core
