import Srcmv.Model.Cli.Commit
import Srcmv.Proofs.Fs.Sizes
import Srcmv.ToMathlib.CompactJson

/-! # The size of a commit response

Every part of the line of a commit response has a size of its own: fixed texts and digests, the digits of
its numbers, and its paths with their escapes.
-/

namespace Srcmv.Cli

open Srcmv.Core Srcmv.Fs Srcmv.Protocol CompactJson

section Texts

/-- Characters that JSON does not escape and UTF-8 writes as one byte. -/
def Unescaped (char : Char) : Prop := 32 ≤ char.toNat ∧ char.toNat < 127 ∧ char ≠ '"' ∧ char ≠ '\\'

instance (char : Char) : Decidable (Unescaped char) := inferInstanceAs (Decidable (_ ∧ _ ∧ _ ∧ _))

private theorem escape_unescaped : ∀ code < 127, Unescaped (Char.ofNat code) →
    ((Json.escape (Char.ofNat code)).flatMap String.utf8EncodeChar).length = 1 := by
  decide

theorem escapedLength_unescaped {text : String} (plain : ∀ char ∈ text.toList, Unescaped char) :
    escapedLength text = text.toList.length := by
  have each : ∀ chars : List Char, (∀ char ∈ chars, Unescaped char) →
      ((chars.flatMap Json.escape).flatMap String.utf8EncodeChar).length = chars.length := by
    intro chars plain
    induction chars with
    | nil => rfl
    | cons char rest ih =>
      obtain ⟨first, others⟩ := List.forall_mem_cons.mp plain
      have one := escape_unescaped char.toNat first.2.1
      rw [Char.ofNat_toNat] at one
      rw [List.flatMap_cons, List.flatMap_append, List.length_append, one first, ih others, List.length_cons, Nat.add_comm]
  exact each text.toList plain

private theorem hexDigit_unescaped : ∀ nibble < 16, Unescaped (hexDigit nibble) := by decide

private theorem hexPair_unescaped (byte : UInt8) :
    ∀ char ∈ [hexDigit (byte.toNat / 16), hexDigit (byte.toNat % 16)], Unescaped char := by
  have bound := byte.toNat_lt
  have high := hexDigit_unescaped (byte.toNat / 16) (by omega)
  have low := hexDigit_unescaped (byte.toNat % 16) (by omega)
  exact List.forall_mem_cons.mpr ⟨high, List.forall_mem_singleton.mpr low⟩

theorem escapedLength_toPrefixedHex (digest : Sha256Digest) : escapedLength digest.toPrefixedHex = 71 := by
  have opening : digestPrefix.all (fun char => decide (Unescaped char)) = true := by decide
  rw [escapedLength_unescaped, length_toPrefixedHex]
  intro char member
  rw [toList_toPrefixedHex] at member
  rcases List.mem_append.mp member with first | hex
  · exact of_decide_eq_true (List.all_eq_true.mp opening char first)
  · obtain ⟨byte, -, inside⟩ := List.mem_flatMap.mp hex
    exact hexPair_unescaped byte char inside

end Texts

section Parts

variable {toVec : Content → Bytes}

/-- The number of digits that a number is reported with. -/
def naturalLength (value : ℕ) : ℕ := (natural (UInt64.ofNat value)).length

theorem naturalLength_le (value : ℕ) : naturalLength value ≤ 20 := length_natural_le _

theorem length_naturalContent (serializer : Content.Compact toVec) (value : ℕ) :
    (toVec (naturalContent value)).length = naturalLength value := by
  rw [naturalContent, serializer.natural, naturalLength]

/-- The size of a committed operation. -/
def operationLength (operation : ResolvedOperation) : ℕ :=
  262 + naturalLength operation.operationIndex + naturalLength operation.sourceRange.start +
    naturalLength operation.sourceRange.stop + naturalLength operation.destinationOffset +
    escapedLength operation.sourcePath.value + escapedLength operation.destinationPath.value +
    (if operation.effect = .changed then 82 else 11)

theorem length_operation (serializer : Content.Compact toVec) (operation : ResolvedOperation) :
    (toVec (ResolvedOperationResponse.fromCommitted operation).content).length = operationLength operation := by
  have names : namesLength ["operation_index", "kind", "source_path", "source_start", "source_end", "destination_path",
      "destination_offset", "effect", "selected_payload_sha256", "inserted_payload_sha256"] = 168 := by decide
  have words : escapedLength "move" = 4 ∧ escapedLength "copy" = 4 ∧ escapedLength "changed" = 7 ∧ escapedLength "no_op" = 5 := by
    decide
  have kind : escapedLength (ResolvedOperationResponse.fromResolved operation).kind = 4 := by
    rw [ResolvedOperationResponse.fromResolved]
    cases operation.kind
    · exact words.1
    · exact words.2.1
  have null : (toVec .null).length = 4 := by rw [serializer.null]; rfl
  have digest := escapedLength_toPrefixedHex operation.selectedDigest
  rw [ResolvedOperationResponse.content, operationLength]
  cases effect : operation.effect <;>
  · simp only [ResolvedOperationResponse.fromCommitted, effect, Option.map_some, Option.toList_some, List.cons_append,
      List.nil_append, serializer.length_map, serializer.length_string, length_naturalContent serializer, List.map_cons,
      List.map_nil, List.sum_cons, List.sum_nil, List.length_cons, List.length_nil, names, kind]
    simp only [ResolvedOperationResponse.fromResolved, effect, optionContent, Option.elim_some, Option.elim_none,
      serializer.length_string, null, digest, words.2.2.1, words.2.2.2, reduceCtorEq, ↓reduceIte]
    omega

def changeLength : OutputChange → ℕ
  | .unchanged => 9
  | .modifiedExisting => 17
  | .createdNew => 11
  | .emptiedExisting => 16

/-- The size of an output. -/
def outputLength (snapshot : WorkspaceSnapshot) (output : PlannedOutput) : ℕ :=
  167 + changeLength output.change + ((originalBytes snapshot output.path.value).map List.length).elim 4 naturalLength +
    (if output.originalDigest.isSome then 73 else 4) + naturalLength output.resultingLength + escapedLength output.path.value

private theorem length_naturalOption (serializer : Content.Compact toVec) (value : Option ℕ) :
    (toVec (naturalOption value)).length = value.elim 4 naturalLength := by
  cases value with
  | none => rw [naturalOption, Option.elim_none, serializer.null]; rfl
  | some value => exact length_naturalContent serializer value

private theorem length_digestOption (serializer : Content.Compact toVec) (digest : Option Sha256Digest) :
    (toVec (optionContent (digest.map Sha256Digest.toPrefixedHex))).length = if digest.isSome then 73 else 4 := by
  cases digest with
  | none => rw [Option.map_none, optionContent, Option.elim_none, serializer.null]; rfl
  | some digest => rw [Option.map_some, optionContent, Option.elim_some, serializer.length_string, escapedLength_toPrefixedHex]; rfl

theorem length_output (serializer : Content.Compact toVec) (snapshot : WorkspaceSnapshot) (output : PlannedOutput) :
    (toVec (outputResponse snapshot output).content).length = outputLength snapshot output := by
  have names : namesLength ["path", "change_kind", "before_length", "before_sha256", "after_length", "after_sha256"] = 83 := by
    decide
  have words : escapedLength "unchanged" = 9 ∧ escapedLength "modified_existing" = 17 ∧ escapedLength "created_new" = 11 ∧
    escapedLength "emptied_existing" = 16 := by decide
  have kind : escapedLength (outputResponse snapshot output).changeKind = changeLength output.change := by
    simp only [outputResponse, OutputResponse.create]
    cases output.change
    · exact words.1
    · exact words.2.1
    · exact words.2.2.1
    · exact words.2.2.2
  simp only [OutputResponse.content, serializer.length_map, serializer.length_string, length_naturalContent serializer,
    length_naturalOption serializer, List.map_cons, List.map_nil, List.sum_cons, List.sum_nil, List.length_cons,
    List.length_nil, names, kind]
  simp only [outputResponse, OutputResponse.create, length_digestOption serializer, escapedLength_toPrefixedHex, outputLength]
  omega

end Parts

section Line

variable {toVec : Content → Bytes}

/-- The size of a warning without a context. -/
def warningLength (warning : WarningDto) : ℕ := 37 + escapedLength warning.code + escapedLength warning.message

private theorem length_warning (serializer : Content.Compact toVec) {warning : WarningDto}
    (bare : warning.context = []) : (toVec warning.content).length = warningLength warning := by
  have names : namesLength ["code", "message", "context"] = 27 := by decide
  have none_ : namesLength [] = 0 := rfl
  simp only [WarningDto.content, bare, serializer.length_map, serializer.length_string, List.map_cons, List.map_nil,
    List.sum_cons, List.sum_nil, List.length_cons, List.length_nil, names, none_, warningLength]
  omega

theorem length_warnings (serializer : Content.Compact toVec) {warnings : List WarningDto}
    (bare : ∀ warning ∈ warnings, warning.context = []) :
    (toVec (.seq (warnings.map WarningDto.content))).length = 2 + (warnings.map warningLength).sum + (warnings.length - 1) := by
  rw [serializer.length_seq, List.map_map, List.length_map]
  exact congrArg (2 + List.sum · + (warnings.length - 1))
    (List.map_congr_left fun warning member => length_warning serializer (bare warning member))

/-- The size of a transaction identifier and of its state. -/
def transactionLength (transactionId : Option String) : ℕ :=
  transactionId.elim 11 fun transactionId => escapedLength transactionId + 13

/-- The size of what is reported for a preserved mode. -/
def modeLength (entry : String × ℕ) : ℕ := escapedLength entry.1 + 3 + naturalLength entry.2

/-- The size of a path in a list of paths. -/
def listedLength (output : PlannedOutput) : ℕ := escapedLength output.path.value + 2

theorem length_commitLine (serializer : Content.Compact toVec) (snapshot : WorkspaceSnapshot) (plan : EditPlan)
    (hash : Sha256Digest) (warnings : List WarningDto) (transactionId : Option String) (modes : List (String × ℕ)) :
    (toJsonLine toVec (buildCommitResponse snapshot plan hash warnings transactionId modes).content).length =
      499 + transactionLength transactionId + (toVec (.seq (warnings.map WarningDto.content))).length +
        ((plan.operations.map operationLength).sum + (plan.operations.length - 1)) +
        ((plan.outputs.map (outputLength snapshot)).sum + (plan.outputs.length - 1)) +
        (((changedOutputs plan).map listedLength).sum + ((changedOutputs plan).length - 1)) +
        ((modes.map modeLength).sum + (modes.length - 1)) := by
  have names : namesLength ["protocol_version", "plan_hash_version", "plan_sha256", "workspace_identity_hash",
      "resolved_operations", "outputs", "diff", "warnings", "transaction_id", "transaction_state", "files_changed",
      "preserved_permission_modes", "recoverability_status", "visibility"] = 248 := by decide
  have words : escapedLength "complete" = 8 ∧ escapedLength "recoverable_not_atomic" = 22 ∧ escapedLength "committed" = 9 ∧
    escapedLength "no_op" = 5 := by decide
  have versions : naturalLength 1 = 1 := by decide
  have diff : (toVec DiffResponse.omitted.content).length = 45 := by
    have names : namesLength ["kind", "text", "summary"] = 24 := by decide
    have word : escapedLength "omitted" = 7 := by decide
    have null : (toVec .null).length = 4 := by rw [serializer.null]; rfl
    simp only [DiffResponse.content, DiffResponse.omitted, optionContent, Option.elim_none, Option.getD_none,
      serializer.length_map, serializer.length_string, List.map_cons, List.map_nil, List.sum_cons, List.sum_nil,
      List.length_cons, List.length_nil, names, word, null]
    rfl
  have operations : (toVec (.seq ((plan.operations.map .fromCommitted).map ResolvedOperationResponse.content))).length =
      2 + (plan.operations.map operationLength).sum + (plan.operations.length - 1) := by
    rw [List.map_map]
    exact serializer.length_seq_map (length_operation serializer) _
  have outputs : (toVec (.seq ((plan.outputs.map (outputResponse snapshot)).map OutputResponse.content))).length =
      2 + (plan.outputs.map (outputLength snapshot)).sum + (plan.outputs.length - 1) := by
    rw [List.map_map]
    exact serializer.length_seq_map (length_output serializer snapshot) _
  have files : (toVec (.seq (((changedOutputs plan).map fun output => output.path.value).map .string))).length =
      2 + ((changedOutputs plan).map listedLength).sum + ((changedOutputs plan).length - 1) := by
    rw [List.map_map]
    exact serializer.length_seq_map (fun output : PlannedOutput => serializer.length_string output.path.value) _
  have preserved : (toVec (.map (modes.map fun entry => (entry.1, naturalContent entry.2)))).length =
      2 + (modes.map modeLength).sum + (modes.length - 1) := by
    have split : modes.map modeLength =
        modes.map fun entry => escapedLength entry.1 + 3 + (toVec (naturalContent entry.2)).length :=
      List.map_congr_left fun entry _ => by rw [modeLength, length_naturalContent serializer]
    rw [serializer.length_map, List.map_map, List.map_map, List.length_map, namesLength, List.map_map, split, List.sum_map_add,
      Nat.add_assoc 2]
    rfl
  have transaction : (toVec (optionContent transactionId)).length +
      escapedLength (if transactionId.isSome then "committed" else "no_op") + 2 = transactionLength transactionId := by
    cases transactionId with
    | none => rw [optionContent, Option.elim_none, serializer.null]; exact congrArg (· + 6) words.2.2.2
    | some id =>
      rw [optionContent, Option.elim_some, serializer.length_string, transactionLength, Option.elim_some, Option.isSome_some,
        if_pos rfl, words.2.2.1]
  simp only [toJsonLine, CommitResponse.content, buildCommitResponse, CommitResponse.create, List.length_append]
  generalize Content.map (modes.map fun entry => (entry.1, naturalContent entry.2)) = modesContent at preserved ⊢
  simp only [serializer.length_map, serializer.length_string, length_naturalContent serializer, List.map_cons, List.map_nil,
    List.sum_cons, List.sum_nil, List.length_cons, List.length_nil, names, diff, operations, outputs, files, preserved,
    escapedLength_toPrefixedHex, words.1, words.2.1]
  simp only [protocolVersion, planHashVersion, versions]
  omega

end Line

end Srcmv.Cli
