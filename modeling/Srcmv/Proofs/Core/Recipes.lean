import Srcmv.Proofs.Core.PlanRecord
import Srcmv.Proofs.Core.Succeeding

/-! # When recipes are built

The internal errors of the sweep, of streaming and of encoding are unreachable for edits whose
events lie within their original and whose payloads can be read. Accepted edits have disjoint
deletions and no insertion inside one; rejected edits name an offending operation.
-/

namespace Srcmv.Core

variable {snapshot : WorkspaceSnapshot} {states : StatesByPath} {filesById : FilesById}
  {sha256 : Bytes → Sha256Digest} {edits : OutputEdits}

/-! ## Conflicts -/

instance : Std.Total deletionLe := ⟨fun left right => by unfold deletionLe; omega⟩

instance : IsTrans (ℕ × ByteRange) deletionLe := ⟨fun left middle right => by unfold deletionLe; omega⟩

theorem checkDeletionWindows_error {deletions : List (ℕ × ByteRange)} {failure : CoreError}
    (failed : checkDeletionWindows deletions = .error failure) :
    ∃ previous current, List.Sublist [previous, current] deletions ∧ current.2.start < previous.2.stop ∧
      failure = conflict "overlapping_move_deletions" current.1 := by
  induction deletions with
  | nil => cases failed
  | cons previous rest ih =>
    cases rest with
    | nil => cases failed
    | cons current rest =>
      simp only [checkDeletionWindows] at failed
      split_ifs at failed with overlap
      · exact ⟨previous, current, .cons_cons _ (.cons_cons _ (List.nil_sublist _)), overlap, (Except.error.inj failed).symm⟩
      · obtain ⟨left, right, listed, found⟩ := ih failed
        exact ⟨left, right, .cons _ listed, found⟩

/-- A rejected output names a deletion that overlaps another one, or an insertion inside a deletion. -/
theorem validateEditConflicts_error {failure : CoreError} (distinct : (edits.deletions.map Prod.fst).Nodup)
    (failed : validateEditConflicts edits = .error failure) :
    (∃ left ∈ edits.deletions, ∃ right ∈ edits.deletions, left.1 ≠ right.1 ∧ left.2.start ≤ right.2.start ∧
      right.2.start < left.2.stop ∧ failure = conflict "overlapping_move_deletions" right.1) ∨
    ∃ deletion ∈ edits.deletions, ∃ entry ∈ edits.insertions, deletion.2.start < entry.1 ∧ entry.1 < deletion.2.stop ∧
      failure = conflict "insertion_inside_move_deletion" entry.2.operationIndex := by
  rw [validateEditConflicts] at failed
  cases windows : checkDeletionWindows (edits.deletions.insertionSort deletionLe) with
  | error stopped =>
    rw [windows, Except.error_bind] at failed
    obtain rfl := Except.error.inj failed
    obtain ⟨left, right, listed, overlap, shape⟩ := checkDeletionWindows_error windows
    have member : ∀ deletion ∈ [left, right], deletion ∈ edits.deletions := fun deletion inside =>
      (List.mem_insertionSort _).mp (listed.subset inside)
    have ordered : deletionLe left right := by
      simpa using (List.pairwise_insertionSort deletionLe edits.deletions).sublist listed
    have apart : left.1 ≠ right.1 := by
      have nodup : ((edits.deletions.insertionSort deletionLe).map Prod.fst).Nodup :=
        ((List.perm_insertionSort deletionLe edits.deletions).map Prod.fst).nodup_iff.mpr distinct
      simpa using nodup.sublist (listed.map Prod.fst)
    refine .inl ⟨left, member left (by simp), right, member right (by simp), apart, ?_, overlap, shape⟩
    rcases ordered with less | ⟨same, -⟩
    · exact less.le
    · exact same.le
  | ok value =>
    rw [windows, Except.ok_bind] at failed
    obtain ⟨entry, member, rejected⟩ := List.forM_error failed
    split_ifs at rejected with inside
    obtain rfl := Except.error.inj rejected
    obtain ⟨deletion, listed, within⟩ := List.any_eq_true.mp inside
    rw [Bool.and_eq_true, decide_eq_true_eq, decide_eq_true_eq] at within
    exact .inr ⟨deletion, (List.mem_insertionSort _).mp listed, entry, member, within.1, within.2, rfl⟩

/-- No insertion of an accepted output lies strictly inside one of its deletions. -/
theorem insertions_outside (accepted : validateEditConflicts edits = .ok ()) :
    ∀ deletion ∈ edits.deletions, ∀ entry ∈ edits.insertions, ¬(deletion.2.start < entry.1 ∧ entry.1 < deletion.2.stop) := by
  rintro deletion listed entry member ⟨above, below⟩
  rw [validateEditConflicts] at accepted
  obtain ⟨_, -, outside⟩ := Except.bind_eq_ok.mp accepted
  have checked := List.forM_eq_ok.mp outside entry member
  rw [if_pos (List.any_eq_true.mpr ⟨deletion, (List.mem_insertionSort _).mpr listed, by simp [above, below]⟩)] at checked
  cases checked

/-! ## Sweeping -/

/-- The events of an output lie within its original, and every byte it may name can be read. -/
structure Readable (snapshot : WorkspaceSnapshot) (edits : OutputEdits) : Prop where
  deletions : ∀ deletion ∈ edits.deletions, deletion.2.start ≤ edits.originalLength ∧ deletion.2.stop ≤ edits.originalLength
  insertions : ∀ entry ∈ edits.insertions, entry.1 ≤ edits.originalLength ∧
    (segmentBytes? snapshot entry.2.segment).isSome
  absent : edits.existingFileId = none → edits.originalLength = 0
  original : ∀ fileId, edits.existingFileId = some fileId → ∀ start stop, start ≤ stop → stop ≤ edits.originalLength →
    (segmentBytes? snapshot (.originalSlice fileId ⟨start, stop⟩)).isSome

private def Below (bound : ℕ) (points : Std.TreeMap ℕ PointEvents) : Prop :=
  ∀ (offset : ℕ) (events : PointEvents), points[offset]? = some events → offset ≤ bound

private theorem updatePoint_below {bound offset : ℕ} {points : Std.TreeMap ℕ PointEvents}
    (update : PointEvents → PointEvents) (inside : offset ≤ bound) (below : Below bound points) :
    Below bound (updatePoint points offset update) := by
  intro other events found
  rw [updatePoint, Std.TreeMap.getElem?_insert] at found
  by_cases same : offset = other
  · exact same ▸ inside
  · rw [if_neg (fun equal => same (compare_eq_iff_eq.mp equal))] at found
    exact below other events found

/-- Every event point is the end of a deletion or the offset of an insertion. -/
theorem eventPoints_le (readable : Readable snapshot edits) :
    ∀ point ∈ (eventPoints edits).toList, point.1 ≤ edits.originalLength := by
  have deleted : ∀ deletions : List (ℕ × ByteRange), (∀ deletion ∈ deletions, deletion ∈ edits.deletions) →
      ∀ points, Below edits.originalLength points → Below edits.originalLength (deletions.foldl addDeletion points) := by
    intro deletions
    induction deletions with
    | nil => exact fun _ _ below => below
    | cons deletion rest ih =>
      intro listed points below
      obtain ⟨starts, stops⟩ := readable.deletions deletion (listed deletion List.mem_cons_self)
      exact ih (fun other member => listed other (List.mem_cons_of_mem _ member)) _
        (updatePoint_below _ stops (updatePoint_below _ starts below))
  have inserted : ∀ insertions : List (ℕ × Insertion), (∀ entry ∈ insertions, entry ∈ edits.insertions) →
      ∀ points, Below edits.originalLength points → Below edits.originalLength (insertions.foldl addInsertion points) := by
    intro insertions
    induction insertions with
    | nil => exact fun _ _ below => below
    | cons entry rest ih =>
      intro listed points below
      exact ih (fun other member => listed other (List.mem_cons_of_mem _ member)) _
        (updatePoint_below _ (readable.insertions entry (listed entry List.mem_cons_self)).1 below)
  intro point member
  have found := Std.TreeMap.mem_toList_iff_getElem?_eq_some.mp member
  rw [eventPoints, Std.TreeMap.getElem?_map] at found
  obtain ⟨events, present, -⟩ := Option.map_eq_some_iff.mp found
  exact inserted edits.insertions (fun _ inside => inside) _
    (deleted edits.deletions (fun _ inside => inside) ∅ (fun _ _ none => by simp at none)) point.1 events present

/-- The segments emitted so far can be read. -/
private def Sweeping (snapshot : WorkspaceSnapshot) (sweep : Sweep) : Prop :=
  ∀ segment ∈ sweep.segments, (segmentBytes? snapshot segment).isSome

private theorem survive_succeeds {sweep : Sweep} {offset : ℕ} (readable : Readable snapshot edits)
    (sweeping : Sweeping snapshot sweep) (inside : offset ≤ edits.originalLength) :
    ∃ segments, sweep.survive edits offset = .ok segments ∧ ∀ segment ∈ segments, (segmentBytes? snapshot segment).isSome := by
  rw [Sweep.survive]
  split_ifs with alive
  · cases existing : edits.existingFileId with
    | none =>
      have empty := readable.absent existing
      omega
    | some fileId =>
      refine ⟨_, rfl, fun segment member => ?_⟩
      rcases List.mem_append.mp member with earlier | last
      · exact sweeping segment earlier
      · rw [List.mem_singleton.mp last]
        exact readable.original fileId existing _ _ alive.1.le inside
  · exact ⟨_, rfl, sweeping⟩

/-- A sweep over readable edits is never stopped. -/
theorem buildSegments_succeeds (readable : Readable snapshot edits)
    (ordered : edits.insertions.Pairwise fun left right => left.2.operationIndex ≤ right.2.operationIndex) :
    ∃ segments, buildSegments edits = .ok segments ∧ ∀ segment ∈ segments, (segmentBytes? snapshot segment).isSome := by
  have inside := eventPoints_le readable
  have faithful := (eventPoints_faithful ordered).1
  have visits : ∀ point ∈ (eventPoints edits).toList, ∀ sweep, Sweeping snapshot sweep →
      ∃ next, Sweep.visit edits sweep point = .ok next ∧ Sweeping snapshot next := by
    intro point member sweep sweeping
    obtain ⟨segments, survived, read⟩ := survive_succeeds readable sweeping (inside point member)
    rw [Sweep.visit, if_neg (by have := inside point member; omega)]
    dsimp only
    rw [survived, Except.ok_bind]
    refine ⟨_, rfl, fun segment listed => ?_⟩
    rcases List.mem_append.mp listed with earlier | payload
    · exact read segment earlier
    · rw [faithful point member] at payload
      obtain ⟨insertion, chosen, rfl⟩ := List.mem_map.mp payload
      obtain ⟨entry, picked, rfl⟩ := List.mem_map.mp chosen
      exact (readable.insertions entry (List.mem_filter.mp picked).1).2
  obtain ⟨sweep, swept, sweeping⟩ := List.foldlM_succeeds visits
    (show Sweeping snapshot {} from fun segment member => by cases member)
  obtain ⟨segments, survived, read⟩ := survive_succeeds readable sweeping le_rfl
  exact ⟨segments, by rw [buildSegments, swept, Except.ok_bind, survived], read⟩

/-! ## Streaming -/

private theorem push_succeeds {original : Option Bytes} {stream : Stream} {segment : OutputSegment}
    (looksUp : LooksUp snapshot states filesById) (read : (segmentBytes? snapshot segment).isSome)
    (fits : stream.resultingLength + (segmentBytes snapshot segment).length ≤ u64Max) :
    ∃ next, Stream.push filesById original stream segment = .ok next := by
  obtain ⟨bytes, valid⟩ := Option.isSome_iff_exists.mp read
  obtain ⟨file, found, sliced⟩ := Option.bind_eq_some_iff.mp valid
  have looked : fileOf filesById segment.fileId "segment_snapshot_file_id" = .ok file := by
    rw [fileOf, looksUp.byId, found]
  have sliceRead : sliceRange file.bytes segment.range = .ok bytes := by
    rw [sliceRange, sliced]
  have added : checkedAdd stream.resultingLength bytes.length "planned_output_bytes" = .ok _ :=
    if_pos (by rwa [segmentBytes, valid, Option.getD_some] at fits)
  rw [Stream.push, looked, Except.ok_bind, sliceRead, Except.ok_bind, added, Except.ok_bind]
  cases original with
  | none => exact ⟨_, rfl⟩
  | some original => exact ⟨_, rfl⟩

/-- Streaming readable segments succeeds when their total length is a `u64`. -/
theorem streamOutput_succeeds {segments : List OutputSegment} {originalFileId : Option SnapshotFileId}
    (looksUp : LooksUp snapshot states filesById)
    (known : ∀ fileId, originalFileId = some fileId → ∃ file, filesById[fileId]? = some file)
    (read : ∀ segment ∈ segments, (segmentBytes? snapshot segment).isSome)
    (fits : (segments.flatMap (segmentBytes snapshot)).length ≤ u64Max) :
    ∃ result, streamOutput sha256 segments filesById originalFileId = .ok result := by
  have compared : ∃ original, comparedBytes filesById originalFileId = .ok original := by
    cases originalFileId with
    | none => exact ⟨none, rfl⟩
    | some fileId =>
      obtain ⟨file, found⟩ := known fileId rfl
      rw [comparedBytes, fileOf, found]
      exact ⟨_, rfl⟩
  obtain ⟨original, compared⟩ := compared
  have streams : ∀ (segments : List OutputSegment) (stream : Stream),
      (∀ segment ∈ segments, (segmentBytes? snapshot segment).isSome) →
      stream.resultingLength + (segments.flatMap (segmentBytes snapshot)).length ≤ u64Max →
      ∃ result, segments.foldlM (Stream.push filesById original) stream = .ok result := by
    intro segments
    induction segments with
    | nil => exact fun stream _ _ => ⟨stream, rfl⟩
    | cons segment rest ih =>
      intro stream read fits
      rw [List.flatMap_cons, List.length_append] at fits
      obtain ⟨next, pushed⟩ : ∃ next, Stream.push filesById original stream segment = .ok next :=
        push_succeeds looksUp (read segment List.mem_cons_self) (by omega)
      obtain ⟨-, length, -⟩ := push_reads looksUp pushed
      rw [List.foldlM_cons, pushed, Except.ok_bind]
      exact ih next (fun other member => read other (List.mem_cons_of_mem _ member)) (by omega)
  obtain ⟨stream, streamed⟩ := streams segments { equalsOriginal := original.isSome } read (by simpa using fits)
  rw [streamOutput, compared, Except.ok_bind, streamed]
  exact ⟨_, rfl⟩

/-- Readable edits without a conflict become an output when every file has one link. -/
theorem planOutput_succeeds (looksUp : LooksUp snapshot states filesById)
    (known : ∀ fileId, edits.existingFileId = some fileId → ∃ file, filesById[fileId]? = some file ∧ file.linkCount = 1)
    (readable : Readable snapshot edits)
    (ordered : edits.insertions.Pairwise fun left right => left.2.operationIndex ≤ right.2.operationIndex)
    (accepted : validateEditConflicts edits = .ok ())
    (fits : ∀ segments, buildSegments edits = .ok segments → (segments.flatMap (segmentBytes snapshot)).length ≤ u64Max) :
    ∃ output, planOutput sha256 filesById edits = .ok output := by
  obtain ⟨segments, built, read⟩ := buildSegments_succeeds readable ordered
  obtain ⟨⟨resultingLength, resultingDigest, equalsOriginal⟩, streamed⟩ :
      ∃ result, streamOutput sha256 segments filesById edits.existingFileId = .ok result :=
    streamOutput_succeeds looksUp (fun fileId existing => (known fileId existing).imp fun _ => And.left) read
      (fits segments built)
  have single : ∀ change, requireSingleLink filesById edits change = .ok () := by
    intro change
    rw [requireSingleLink]
    split_ifs with unchanged
    · rfl
    · cases existing : edits.existingFileId with
      | none => rfl
      | some fileId =>
        obtain ⟨file, found, linked⟩ := known fileId existing
        dsimp only
        rw [fileOf, found, Except.ok_bind, if_neg (not_not.mpr linked)]
  rw [planOutput, accepted, Except.ok_bind, built, Except.ok_bind, streamed, Except.ok_bind]
  dsimp only
  rw [single, Except.ok_bind]
  exact ⟨_, rfl⟩

/-! ## Usage -/

/-- The bytes a response spends on the operations and outputs, unchecked. -/
def responseTotal (operations : List ResolvedOperation) (outputs : List PlannedOutput) : ℕ :=
  1024 + (operations.map fun operation =>
      1024 + (pathLength operation.sourcePath + pathLength operation.destinationPath)).sum +
    (outputs.map fun output => 512 + pathLength output.path + output.segments.length * 512).sum

/-- The memory a plan spends on the operations and outputs, unchecked. -/
def memoryTotal (sizes : TypeSizes) (operations : List ResolvedOperation) (outputs : List PlannedOutput) : ℕ :=
  operations.length * sizes.resolvedOperation +
    (operations.map fun operation => pathLength operation.sourcePath + pathLength operation.destinationPath).sum +
    outputs.length * sizes.plannedOutput +
    (outputs.map fun output => pathLength output.path + output.segments.length * sizes.outputSegment).sum

/-- The planned bytes of all outputs, unchecked. -/
def bytesTotal (outputs : List PlannedOutput) : ℕ := (outputs.map PlannedOutput.resultingLength).sum

/-- Every sum of the usage is a `u64`. -/
structure TotalsFit (sizes : TypeSizes) (operations : List ResolvedOperation) (outputs : List PlannedOutput) : Prop where
  response : responseTotal operations outputs ≤ u64Max
  memory : memoryTotal sizes operations outputs ≤ u64Max
  bytes : bytesTotal outputs ≤ u64Max

private theorem checkedAdd_fits {left right : ℕ} {resource : String} (fits : left + right ≤ u64Max) :
    checkedAdd left right resource = .ok (left + right) := if_pos fits

private theorem checkedMul_fits {left right : ℕ} {resource : String} (fits : left * right ≤ u64Max) :
    checkedMul left right resource = .ok (left * right) := if_pos fits

private theorem chargeOperations_succeeds (operations : List ResolvedOperation) : ∀ usage : PlanningUsage,
    usage.projectedResponseBytes + (operations.map fun operation =>
      1024 + (pathLength operation.sourcePath + pathLength operation.destinationPath)).sum ≤ u64Max →
    usage.planningMemoryBytes + (operations.map fun operation =>
      pathLength operation.sourcePath + pathLength operation.destinationPath).sum ≤ u64Max →
    operations.foldlM chargeOperation usage = .ok { usage with
      projectedResponseBytes := usage.projectedResponseBytes + (operations.map fun operation =>
        1024 + (pathLength operation.sourcePath + pathLength operation.destinationPath)).sum
      planningMemoryBytes := usage.planningMemoryBytes + (operations.map fun operation =>
        pathLength operation.sourcePath + pathLength operation.destinationPath).sum } := by
  induction operations with
  | nil => exact fun usage _ _ => rfl
  | cons operation rest ih =>
    intro usage response memory
    rw [List.map_cons, List.sum_cons] at response memory
    rw [List.foldlM_cons, chargeOperation, checkedAdd_fits (by omega), Except.ok_bind, checkedAdd_fits (by omega),
      Except.ok_bind, checkedAdd_fits (by omega), Except.ok_bind, checkedAdd_fits (by omega), Except.ok_bind]
    change rest.foldlM chargeOperation _ = _
    rw [ih _ (by dsimp only; omega) (by dsimp only; omega)]
    simp only [List.map_cons, List.sum_cons, Nat.add_assoc]

/-- What remains to be charged for the outputs fits on top of a usage. -/
private structure Chargeable (sizes : TypeSizes) (usage : PlanningUsage) (outputs : List PlannedOutput) : Prop where
  response : usage.projectedResponseBytes +
    (outputs.map fun output => 512 + pathLength output.path + output.segments.length * 512).sum ≤ u64Max
  memory : usage.planningMemoryBytes +
    (outputs.map fun output => pathLength output.path + output.segments.length * sizes.outputSegment).sum ≤ u64Max
  bytes : usage.totalOutputBytes + (outputs.map PlannedOutput.resultingLength).sum ≤ u64Max
  segments : usage.totalSegments ≤ usage.projectedResponseBytes
  changed : usage.changedTargets ≤ usage.projectedResponseBytes
  largest : usage.maximumOutputBytes ≤ u64Max
  longest : usage.maximumOutputSegments ≤ u64Max

/-- The usage after one output, whether or not it counts as changed. -/
private theorem Chargeable.charged {sizes : TypeSizes} {usage : PlanningUsage} {output : PlannedOutput}
    {rest : List PlannedOutput} {count : ℕ} (chargeable : Chargeable sizes usage (output :: rest))
    (counted : count ≤ usage.changedTargets + 1) : Chargeable sizes {
      maximumOutputBytes := max usage.maximumOutputBytes output.resultingLength
      totalOutputBytes := usage.totalOutputBytes + output.resultingLength
      maximumOutputSegments := max usage.maximumOutputSegments output.segments.length
      totalSegments := usage.totalSegments + output.segments.length
      changedTargets := count
      projectedResponseBytes := usage.projectedResponseBytes +
        (512 + pathLength output.path + output.segments.length * 512)
      planningMemoryBytes := usage.planningMemoryBytes +
        (pathLength output.path + output.segments.length * sizes.outputSegment) } rest := by
  obtain ⟨response, memory, bytes, segments, changed, largest, longest⟩ := chargeable
  rw [List.map_cons, List.sum_cons] at response memory bytes
  refine ⟨?_, ?_, ?_, ?_, ?_, ?_, ?_⟩ <;> dsimp only
  · omega
  · omega
  · omega
  · omega
  · omega
  · exact max_le largest (by omega)
  · exact max_le longest (by omega)

private theorem chargeOutput_succeeds {sizes : TypeSizes} {usage : PlanningUsage} {output : PlannedOutput}
    {rest : List PlannedOutput} (chargeable : Chargeable sizes usage (output :: rest)) :
    ∃ next, chargeOutput sizes usage output = .ok next ∧ Chargeable sizes next rest := by
  have counted := chargeable.charged (le_refl (usage.changedTargets + 1))
  have uncounted := chargeable.charged (Nat.le_succ usage.changedTargets)
  obtain ⟨response, memory, bytes, segments, changed, -, -⟩ := chargeable
  rw [List.map_cons, List.sum_cons] at response memory bytes
  rw [chargeOutput]
  dsimp only
  split_ifs
  · simp (disch := omega) only [checkedAdd_fits, checkedMul_fits, Except.ok_bind]
    exact ⟨_, rfl, counted⟩
  · simp (disch := omega) only [checkedAdd_fits, checkedMul_fits, Except.ok_bind]
    exact ⟨_, rfl, uncounted⟩

private theorem chargeOutputs_succeeds {sizes : TypeSizes} (outputs : List PlannedOutput) : ∀ usage : PlanningUsage,
    Chargeable sizes usage outputs →
    ∃ result, outputs.foldlM (chargeOutput sizes) usage = .ok result ∧ Chargeable sizes result [] := by
  induction outputs with
  | nil => exact fun usage chargeable => ⟨usage, rfl, chargeable⟩
  | cons output rest ih =>
    intro usage chargeable
    obtain ⟨next, charged, remaining⟩ := chargeOutput_succeeds chargeable
    rw [List.foldlM_cons, charged, Except.ok_bind]
    exact ih next remaining

/-- No limit of the budget is below the largest `u64`. -/
structure ResourceBudget.Unlimited (budget : ResourceBudget) : Prop where
  resultingBytesPerOutput : u64Max ≤ budget.resultingBytesPerOutput
  plannedOutputBytes : u64Max ≤ budget.plannedOutputBytes
  segmentsPerOutput : u64Max ≤ budget.segmentsPerOutput
  segments : u64Max ≤ budget.segments
  changedTargets : u64Max ≤ budget.changedTargets
  projectedResponseBytes : u64Max ≤ budget.projectedResponseBytes
  planningMemoryBytes : u64Max ≤ budget.planningMemoryBytes

private theorem enforceLimit_fits {resource : String} {actual limit : ℕ} (fits : actual ≤ limit) :
    enforceLimit resource actual limit = .ok () := if_neg (by omega)

/-- Totals that fit are charged and allowed by an unlimited budget. -/
theorem calculateUsage_succeeds {sizes : TypeSizes} {operations : List ResolvedOperation} {outputs : List PlannedOutput}
    {budget : ResourceBudget} (fit : TotalsFit sizes operations outputs) (unlimited : budget.Unlimited) :
    ∃ usage, calculateUsage sizes operations outputs = .ok usage ∧ enforceUsage usage budget = .ok () := by
  obtain ⟨response, memory, bytes⟩ := fit
  rw [responseTotal] at response
  rw [memoryTotal] at memory
  rw [bytesTotal] at bytes
  rw [calculateUsage, checkedMul_fits (by omega), Except.ok_bind,
    chargeOperations_succeeds operations _ (by dsimp only; omega) (by dsimp only; omega), Except.ok_bind,
    checkedMul_fits (by omega), Except.ok_bind]
  dsimp only
  rw [checkedAdd_fits (by omega), Except.ok_bind]
  have chargeable : Chargeable sizes {
      projectedResponseBytes := 1024 + (operations.map fun operation =>
        1024 + (pathLength operation.sourcePath + pathLength operation.destinationPath)).sum
      planningMemoryBytes := operations.length * sizes.resolvedOperation + (operations.map fun operation =>
        pathLength operation.sourcePath + pathLength operation.destinationPath).sum +
        outputs.length * sizes.plannedOutput } outputs :=
    ⟨response, memory, by simpa using bytes, Nat.zero_le _, Nat.zero_le _, Nat.zero_le _, Nat.zero_le _⟩
  obtain ⟨usage, charged, final⟩ := chargeOutputs_succeeds outputs _ chargeable
  refine ⟨usage, charged, ?_⟩
  obtain ⟨response, memory, bytes, segments, changed, largest, longest⟩ := final
  simp only [List.map_nil, List.sum_nil, Nat.add_zero] at response memory bytes
  rw [enforceUsage, enforceLimit_fits (largest.trans unlimited.resultingBytesPerOutput), Except.ok_bind,
    enforceLimit_fits (bytes.trans unlimited.plannedOutputBytes), Except.ok_bind,
    enforceLimit_fits (longest.trans unlimited.segmentsPerOutput), Except.ok_bind,
    enforceLimit_fits ((segments.trans response).trans unlimited.segments), Except.ok_bind,
    enforceLimit_fits ((changed.trans response).trans unlimited.changedTargets), Except.ok_bind,
    enforceLimit_fits (response.trans unlimited.projectedResponseBytes), Except.ok_bind,
    enforceLimit_fits (memory.trans unlimited.planningMemoryBytes)]

/-! ## Encoding -/

private def InputRecord.id? : InputRecord → Option SnapshotFileId
  | .existing file => some file.id
  | .absent _ => none

/-- A fold that indexes the existing inputs meets no identifier twice. -/
private theorem indexing_succeeds
    {step : Std.TreeMap SnapshotFileId ℕ → InputRecord × ℕ → Except CoreError (Std.TreeMap SnapshotFileId ℕ)}
    (absent : ∀ known missing index, step known (.absent missing, index) = Except.ok known)
    (existing : ∀ known file index, step known (.existing file, index) =
      if known[file.id]?.isSome then Except.error (CoreError.invalidDomainValue "duplicate_snapshot_file_id")
        else Except.ok (known.insert file.id index)) (inputs : List InputRecord) :
    ∀ (start : ℕ) (known : Std.TreeMap SnapshotFileId ℕ), (inputs.filterMap InputRecord.id?).Nodup →
      (∀ file, InputRecord.existing file ∈ inputs → known[file.id]? = none) →
      ∃ result, (inputs.zipIdx start).foldlM step known = Except.ok result := by
  induction inputs with
  | nil => exact fun _ known _ _ => ⟨known, rfl⟩
  | cons input rest ih =>
    intro start known distinct fresh
    rw [List.zipIdx_cons, List.foldlM_cons]
    cases input with
    | absent missing =>
      rw [absent, Except.ok_bind]
      exact ih _ known distinct fun file member => fresh file (List.mem_cons_of_mem _ member)
    | existing file =>
      rw [List.filterMap_cons_some (f := InputRecord.id?) rfl, List.nodup_cons] at distinct
      rw [existing, fresh file List.mem_cons_self, if_neg (by simp), Except.ok_bind]
      refine ih _ _ distinct.2 fun later member => ?_
      rw [Std.TreeMap.getElem?_insert, if_neg, fresh later (List.mem_cons_of_mem _ member)]
      intro equal
      exact distinct.1 (List.mem_filterMap.mpr ⟨_, member, congrArg some (compare_eq_iff_eq.mp equal).symm⟩)

/-- Distinct identifiers are indexed. -/
theorem inputIndexes_succeeds (distinct : (snapshot.files.map FileSnapshot.id).Nodup) :
    ∃ indexes, inputIndexes (sortedInputs snapshot) = .ok indexes := by
  have ids : ((sortedInputs snapshot).filterMap InputRecord.id?).Perm (snapshot.files.map FileSnapshot.id) := by
    refine ((List.perm_insertionSort _ _).filterMap _).trans (.of_eq ?_)
    rw [List.filterMap_append, List.filterMap_map, List.filterMap_map]
    simp [Function.comp_def, InputRecord.id?]
  rw [inputIndexes]
  exact indexing_succeeds (fun _ _ _ => rfl) (fun _ _ _ => rfl) _ 0 ∅ (ids.nodup_iff.mpr distinct) (by simp)

private theorem inputIndex_succeeds {indexes : Std.TreeMap SnapshotFileId ℕ} {id : SnapshotFileId}
    (indexed : inputIndexes (sortedInputs snapshot) = .ok indexes) (known : (snapshot.fileById? id).isSome) :
    ∃ index, inputIndex indexes id = .ok index := by
  obtain ⟨file, found⟩ := Option.isSome_iff_exists.mp known
  have listed : InputRecord.existing file ∈ sortedInputs snapshot := by
    rw [sortedInputs, List.mem_insertionSort]
    exact List.mem_append_left _ (List.mem_map_of_mem (List.mem_of_find?_eq_some found))
  have sameId : file.id = id := by simpa using List.find?_some found
  have positioned : (inputPosition (sortedInputs snapshot) id).isSome := by
    rw [inputPosition, List.findIdx?_isSome, List.any_eq_true]
    exact ⟨_, listed, by simp [InputRecord.hasId, sameId]⟩
  obtain ⟨index, position⟩ := Option.isSome_iff_exists.mp positioned
  rw [inputIndex, inputIndexes_ok indexed, position]
  exact ⟨index, rfl⟩

/-- A plan whose segments name files of the snapshot has a digest. -/
theorem planDigest_succeeds {editPlan : EditPlan} (distinct : (snapshot.files.map FileSnapshot.id).Nodup)
    (named : ∀ output ∈ editPlan.outputs, ∀ segment ∈ output.segments, (segmentBytes? snapshot segment).isSome) :
    ∃ digest, planDigest sha256 snapshot editPlan = .ok digest := by
  obtain ⟨indexes, indexed⟩ := inputIndexes_succeeds distinct
  have segments : ∀ segment, (segmentBytes? snapshot segment).isSome → ∃ bytes, encodeSegment indexes segment = .ok bytes := by
    intro segment read
    have known : (snapshot.fileById? segment.fileId).isSome := by
      obtain ⟨bytes, valid⟩ := Option.isSome_iff_exists.mp read
      obtain ⟨file, present, -⟩ := Option.bind_eq_some_iff.mp valid
      rw [present]
      rfl
    obtain ⟨index, position⟩ := inputIndex_succeeds indexed known
    cases segment with
    | originalSlice fileId range =>
      rw [OutputSegment.fileId] at position
      rw [encodeSegment, position]
      exact ⟨_, rfl⟩
    | payloadSlice operationIndex fileId range digest =>
      rw [OutputSegment.fileId] at position
      rw [encodeSegment, position]
      exact ⟨_, rfl⟩
  have outputs : ∀ output ∈ editPlan.outputs, ∃ bytes, encodeOutput indexes output = .ok bytes := by
    intro output member
    obtain ⟨encoded, traversed⟩ := List.mapM_ok_of_forall fun segment inside => segments segment (named output member segment inside)
    rw [encodeOutput, traversed, Except.ok_bind]
    exact ⟨_, rfl⟩
  obtain ⟨written, traversed⟩ : ∃ written, (editPlan.outputs.insertionSort fun left right =>
      left.path.value ≤ right.path.value).mapM (encodeOutput indexes) = .ok written :=
    List.mapM_ok_of_forall fun output member => outputs output ((List.mem_insertionSort _).mp member)
  rw [planDigest, encodePlanRecord, indexed, Except.ok_bind, encodeOutputs, traversed]
  exact ⟨_, rfl⟩

end Srcmv.Core
