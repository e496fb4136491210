import Srcmv.Proofs.Core.PlannedOutputs

/-! # The streamed summary of an output

The planner never materializes an output: it hashes, counts and compares one segment at a time. The
comparison stays true exactly as long as what was streamed is a prefix of the original, so that the
final length check decides equality and the recorded change is the one the bytes deserve.
-/

namespace Srcmv.Core

variable {snapshot : WorkspaceSnapshot} {states : StatesByPath} {filesById : FilesById}
  {sha256 : Bytes → Sha256Digest}

/-! ## Comparison with the original -/

/-- The next slice of the original agrees exactly when the longer text is still a prefix of it. -/
theorem prefix_append_iff {original front back : Bytes} :
    front ++ back <+: original ↔ front <+: original ∧
      slice? original ⟨front.length, front.length + back.length⟩ = some back := by
  constructor
  · rintro ⟨rest, rfl⟩
    refine ⟨⟨back ++ rest, by simp⟩, ?_⟩
    rw [slice?_of_le (by simp) (by simp)]
    simp
  · rintro ⟨⟨rest, rfl⟩, sliced⟩
    rw [slice?] at sliced
    split_ifs at sliced with valid
    have taken : rest.take back.length = back := by simpa using Option.some.inj sliced
    obtain ⟨last, rfl⟩ : back <+: rest := taken ▸ List.take_prefix _ _
    exact ⟨last, List.append_assoc ..⟩

/-- The stream has compared the segments so far with the original. -/
private structure Compared (snapshot : WorkspaceSnapshot) (original : Bytes) (done : List OutputSegment)
    (stream : Stream) : Prop where
  offset : stream.comparisonOffset = (done.flatMap (segmentBytes snapshot)).length
  agrees : stream.equalsOriginal = true ↔ done.flatMap (segmentBytes snapshot) <+: original

private theorem compared_step {original : Bytes} (looksUp : LooksUp snapshot states filesById)
    (done : List OutputSegment) (segment : OutputSegment) (current next : Stream)
    (compared : Compared snapshot original done current)
    (pushed : Stream.push filesById (some original) current segment = .ok next) :
    Compared snapshot original (done ++ [segment]) next := by
  obtain ⟨-, -, -, comparison⟩ := push_reads looksUp pushed
  obtain ⟨offset, agrees⟩ := comparison original rfl
  constructor
  · rw [offset, compared.offset, List.flatMap_append, List.flatMap_singleton, List.length_append]
  · rw [agrees, compared.agrees, offset, compared.offset, List.flatMap_append, List.flatMap_singleton, prefix_append_iff]

/-- The streamed comparison decides equality with the original. -/
theorem streamOutput_equal {segments : List OutputSegment} {fileId : SnapshotFileId} {file : FileSnapshot}
    {result : ℕ × Sha256Digest × Bool} (looksUp : LooksUp snapshot states filesById)
    (found : filesById[fileId]? = some file)
    (accepted : streamOutput sha256 segments filesById (some fileId) = .ok result) :
    result.2.2 = true ↔ segments.flatMap (segmentBytes snapshot) = file.bytes := by
  have compares : comparedBytes filesById (some fileId) = .ok (some file.bytes) := by
    rw [comparedBytes, fileOf, found]
    rfl
  rw [streamOutput, compares, Except.ok_bind] at accepted
  obtain ⟨stream, folded, accepted⟩ := Except.bind_eq_ok.mp accepted
  obtain rfl := Except.pure_eq_ok.mp accepted
  have initial : Compared snapshot file.bytes [] { equalsOriginal := (some file.bytes).isSome } :=
    ⟨rfl, by simp⟩
  have whole := List.foldlM_ok_induction (compared_step looksUp) segments initial folded
  rw [List.nil_append] at whole
  simp only [Bool.and_eq_true, decide_eq_true_eq, whole.agrees, whole.offset]
  constructor
  · rintro ⟨extended, sameLength⟩
    exact extended.eq_of_length sameLength
  · intro same
    rw [same]
    exact ⟨List.prefix_rfl, rfl⟩

/-! ## Classification -/

private theorem classifyOutput_existing {existing equalsOriginal : Bool} {bytes : Bytes} {file : FileSnapshot}
    (present : existing = true) (equal : equalsOriginal = true ↔ bytes = file.bytes) :
    let change := classifyOutput existing bytes.length equalsOriginal
    (change = .unchanged ↔ ∃ found, (SnapshotState.existing file).file? = some found ∧ bytes = found.bytes) ∧
      (change = .emptiedExisting ↔
        ∃ found, (SnapshotState.existing file).file? = some found ∧ found.bytes ≠ [] ∧ bytes = []) ∧
      (change = .createdNew ↔ (SnapshotState.existing file).file? = none) ∧
      (change = .modifiedExisting ↔
        ∃ found, (SnapshotState.existing file).file? = some found ∧ bytes ≠ found.bytes ∧ bytes ≠ []) := by
  subst present
  by_cases same : bytes = file.bytes
  · have unchanged : equalsOriginal = true := equal.mpr same
    simp [classifyOutput, SnapshotState.file?, unchanged, same]
  · have changed : equalsOriginal = false := Bool.eq_false_iff.mpr fun equals => same (equal.mp equals)
    by_cases empty : bytes = []
    · have nonempty : file.bytes ≠ [] := fun none => same (empty.trans none.symm)
      simp [classifyOutput, SnapshotState.file?, changed, empty, nonempty]
    · simp [classifyOutput, SnapshotState.file?, changed, empty, same]

/-- Every planned output records the length, the digest and the change of the bytes it names. -/
theorem output_summary_exact (sizes : TypeSizes) (batch : BatchSpecification) (budget : ResourceBudget)
    (editPlan : EditPlan) (planned : plan sha256 sizes snapshot batch budget = .ok editPlan) :
    ∀ output ∈ editPlan.outputs, ∃ bytes, output.bytes? snapshot = some bytes ∧
      output.resultingLength = bytes.length ∧ output.resultingDigest = sha256 bytes ∧
      (output.change = .unchanged ↔ ∃ file, snapshot.fileAt? output.path = some file ∧ bytes = file.bytes) ∧
      (output.change = .emptiedExisting ↔
        ∃ file, snapshot.fileAt? output.path = some file ∧ file.bytes ≠ [] ∧ bytes = []) ∧
      (output.change = .createdNew ↔ snapshot.fileAt? output.path = none) ∧
      (output.change = .modifiedExisting ↔
        ∃ file, snapshot.fileAt? output.path = some file ∧ bytes ≠ file.bytes ∧ bytes ≠ []) := by
  obtain ⟨⟨states, filesById⟩, indexedStates, planned⟩ := Except.bind_eq_ok.mp planned
  have looksUp := indexSnapshot_ok indexedStates
  obtain ⟨_, -, planned⟩ := Except.bind_eq_ok.mp planned
  obtain ⟨⟨resolved, edits⟩, looped, planned⟩ := Except.bind_eq_ok.mp planned
  obtain ⟨outputs, traversed, planned⟩ := Except.bind_eq_ok.mp planned
  obtain ⟨_, -, planned⟩ := Except.bind_eq_ok.mp planned
  obtain ⟨_, -, planned⟩ := Except.bind_eq_ok.mp planned
  obtain ⟨_, -, planned⟩ := Except.bind_eq_ok.mp planned
  obtain rfl := Except.pure_eq_ok.mp planned
  have recorded : (fun progress : List ResolvedOperation × Edits => Recorded states progress.2) (resolved, edits) :=
    List.foldlM_ok_invariant (fun _ _ _ _ kept accepted => planOperation_recorded kept accepted)
      (fun path output found => by simp at found) looped
  intro output member
  obtain ⟨edit, listed, produced⟩ := List.mapM_ok_mem traversed member
  obtain ⟨⟨path, _⟩, stored, rfl⟩ := List.mem_map.mp listed
  obtain ⟨state, known, samePath, sameId⟩ :=
    recorded path _ (Std.TreeMap.mem_toList_iff_getElem?_eq_some.mp stored)
  dsimp only at samePath sameId produced
  obtain ⟨outputPath, -, -, bytes⟩ := planOutput_ok looksUp produced
  refine ⟨_, bytes, ?_⟩
  rw [planOutput] at produced
  obtain ⟨_, -, produced⟩ := Except.bind_eq_ok.mp produced
  obtain ⟨segments, -, produced⟩ := Except.bind_eq_ok.mp produced
  obtain ⟨result, streamed, produced⟩ := Except.bind_eq_ok.mp produced
  obtain ⟨_, -, produced⟩ := Except.bind_eq_ok.mp produced
  obtain rfl := Except.pure_eq_ok.mp produced
  obtain ⟨-, length, -, digest⟩ := streamOutput_facts looksUp streamed
  have original := looksUp.byPath path state known
  rw [samePath, ← original]
  refine ⟨length, digest, ?_⟩
  rw [sameId, length]
  cases state with
  | absent missing => simp [SnapshotState.file?, SnapshotState.fileId, classifyOutput]
  | existing file =>
    have byId := looksUp.unique file (fileAt?_mem original.symm)
    rw [sameId] at streamed
    have equal := streamOutput_equal looksUp byId streamed
    exact classifyOutput_existing rfl equal

theorem output_summary_exact_example : ∃ editPlan,
    plan sha256Digest ⟨224, 120, 72⟩ exampleSnapshot exampleBatch {} = .ok editPlan ∧
      editPlan.outputs.map PlannedOutput.change = [.modifiedExisting, .modifiedExisting, .createdNew] ∧
      ∀ output ∈ editPlan.outputs, ∃ bytes, output.bytes? exampleSnapshot = some bytes ∧
        output.resultingLength = bytes.length ∧
        (output.change = .createdNew ↔ exampleSnapshot.fileAt? output.path = none) := by
  cases planned : plan sha256Digest ⟨224, 120, 72⟩ exampleSnapshot exampleBatch {} with
  | error failure =>
    have accepted : (plan sha256Digest ⟨224, 120, 72⟩ exampleSnapshot exampleBatch {}).isOk = true := by
      decide +kernel
    rw [planned] at accepted
    cases accepted
  | ok editPlan =>
    have changes : ((plan sha256Digest ⟨224, 120, 72⟩ exampleSnapshot exampleBatch {}).map
        fun editPlan => editPlan.outputs.map PlannedOutput.change) =
        .ok [.modifiedExisting, .modifiedExisting, .createdNew] := by decide +kernel
    rw [planned] at changes
    refine ⟨editPlan, rfl, Except.ok.inj changes, fun output member => ?_⟩
    obtain ⟨bytes, read, length, -, -, -, created, -⟩ := output_summary_exact _ _ _ editPlan planned output member
    exact ⟨bytes, read, length, created⟩

end Srcmv.Core
