import Srcmv.Model.Core.Planner
import Srcmv.ToMathlib.Emission
import Srcmv.ToMathlib.Except

/-! # The event sweep emits position by position

The event points of an output answer, at every offset, whether a deletion ends there, what is
inserted there and whether a deletion begins there. Accepted deletions are disjoint, so the sweep's
flag is coverage by a deletion, and each run between two event points is one quiet stretch of the
emission of the original.
-/

namespace Srcmv.Core

/-- The events met at an offset, empty where no point is recorded. -/
def pointAt (points : Std.TreeMap ℕ PointEvents) (position : ℕ) : PointEvents :=
  (points[position]?).getD {}

namespace OutputEdits

variable (edits : OutputEdits)

def insertionsAt (position : ℕ) : List Insertion :=
  (edits.insertions.filter fun entry => entry.1 = position).map Prod.snd

def beginsAt (position : ℕ) : Bool := edits.deletions.any fun deletion => deletion.2.start = position

def endsAt (position : ℕ) : Bool := edits.deletions.any fun deletion => deletion.2.stop = position

/-- The position lies in a recorded deletion. -/
def deleted : ℕ → Bool :=
  List.covered (fun deletion : ℕ × ByteRange => deletion.2.start) (fun deletion => deletion.2.stop) edits.deletions

/-- What the sweep meets at an offset. -/
def eventsAt (position : ℕ) : PointEvents :=
  ⟨edits.endsAt position, edits.insertionsAt position, edits.beginsAt position⟩

end OutputEdits

theorem pointAt_updatePoint (points : Std.TreeMap ℕ PointEvents) (offset : ℕ)
    (update : PointEvents → PointEvents) (position : ℕ) :
    pointAt (updatePoint points offset update) position =
      if offset = position then update (pointAt points position) else pointAt points position := by
  rw [pointAt, updatePoint, Std.TreeMap.getElem?_insert]
  by_cases same : offset = position
  · simp [same, pointAt]
  · simp [same, pointAt]

theorem pointAt_addDeletion (points : Std.TreeMap ℕ PointEvents) (deletion : ℕ × ByteRange) (position : ℕ) :
    pointAt (addDeletion points deletion) position =
      { pointAt points position with
        deletionEnd := decide (deletion.2.stop = position) || (pointAt points position).deletionEnd
        deletionStart := decide (deletion.2.start = position) || (pointAt points position).deletionStart } := by
  rw [addDeletion, pointAt_updatePoint, pointAt_updatePoint]
  by_cases ends : deletion.2.stop = position <;> by_cases begins : deletion.2.start = position <;>
    simp [ends, begins]

theorem pointAt_addDeletions (deletions : List (ℕ × ByteRange)) (points : Std.TreeMap ℕ PointEvents)
    (position : ℕ) :
    pointAt (deletions.foldl addDeletion points) position =
      { pointAt points position with
        deletionEnd := (pointAt points position).deletionEnd ||
          deletions.any fun deletion => deletion.2.stop = position
        deletionStart := (pointAt points position).deletionStart ||
          deletions.any fun deletion => deletion.2.start = position } := by
  induction deletions generalizing points with
  | nil => simp
  | cons deletion rest ih =>
    rw [List.foldl_cons, ih, pointAt_addDeletion]
    simp [Bool.or_assoc, Bool.or_left_comm]

theorem pointAt_addInsertions (insertions : List (ℕ × Insertion)) (points : Std.TreeMap ℕ PointEvents)
    (position : ℕ) :
    pointAt (insertions.foldl addInsertion points) position =
      { pointAt points position with
        insertions := (pointAt points position).insertions ++
          (insertions.filter fun entry => entry.1 = position).map Prod.snd } := by
  induction insertions generalizing points with
  | nil => simp
  | cons entry rest ih =>
    rw [List.foldl_cons, ih, addInsertion, pointAt_updatePoint]
    by_cases here : entry.1 = position <;> simp [here]

/-- Insertions recorded in request order keep it through the sort of their point. -/
theorem pointAt_eventPoints {edits : OutputEdits}
    (ordered : edits.insertions.Pairwise fun left right => left.2.operationIndex ≤ right.2.operationIndex)
    (position : ℕ) : pointAt (eventPoints edits) position = edits.eventsAt position := by
  have recorded := pointAt_addInsertions edits.insertions (edits.deletions.foldl addDeletion ∅) position
  rw [pointAt_addDeletions] at recorded
  have sorted : (edits.insertionsAt position).insertionSort
      (fun left right => left.operationIndex ≤ right.operationIndex) = edits.insertionsAt position := by
    apply List.Pairwise.insertionSort_eq
    rw [OutputEdits.insertionsAt, List.pairwise_map]
    exact ordered.filter _
  rw [pointAt] at recorded
  rw [pointAt, eventPoints, Std.TreeMap.getElem?_map]
  cases found : (edits.insertions.foldl addInsertion (edits.deletions.foldl addDeletion ∅))[position]? with
  | none =>
    rw [found] at recorded
    simpa [OutputEdits.eventsAt, OutputEdits.endsAt, OutputEdits.beginsAt, OutputEdits.insertionsAt, pointAt]
      using recorded
  | some point =>
    rw [found, Option.getD_some] at recorded
    rw [Option.map_some, Option.getD_some, recorded]
    simp only [pointAt, Std.TreeMap.getElem?_emptyc, Option.getD_none, Bool.false_or, List.nil_append]
    rw [OutputEdits.eventsAt, ← sorted]
    rfl

/-- Accepted windows of nonempty deletions follow one another. -/
theorem checkDeletionWindows_ok {deletions : List (ℕ × ByteRange)}
    (accepted : checkDeletionWindows deletions = .ok ())
    (nonempty : ∀ deletion ∈ deletions, deletion.2.start < deletion.2.stop) :
    deletions.Pairwise fun left right => left.2.stop ≤ right.2.start := by
  induction deletions with
  | nil => exact .nil
  | cons previous rest ih =>
    cases rest with
    | nil => exact List.pairwise_singleton _ _
    | cons current rest =>
      simp only [checkDeletionWindows] at accepted
      split_ifs at accepted with overlap
      have ordered := ih accepted fun deletion member => nonempty deletion (List.mem_cons_of_mem _ member)
      refine List.pairwise_cons.mpr ⟨fun deletion member => ?_, ordered⟩
      have adjacent : previous.2.stop ≤ current.2.start := by omega
      rcases List.mem_cons.mp member with rfl | later
      · exact adjacent
      · have currentNonempty := nonempty current (by simp)
        have := (List.pairwise_cons.mp ordered).1 deletion later
        omega

/-- Accepted deletions are pairwise disjoint. -/
theorem deletions_disjoint {edits : OutputEdits} (accepted : validateEditConflicts edits = .ok ())
    (nonempty : ∀ deletion ∈ edits.deletions, deletion.2.start < deletion.2.stop) :
    ∀ left ∈ edits.deletions, ∀ right ∈ edits.deletions, left ≠ right →
      left.2.stop ≤ right.2.start ∨ right.2.stop ≤ left.2.start := by
  rw [validateEditConflicts, Except.bind_eq_ok] at accepted
  obtain ⟨_, windows, -⟩ := accepted
  have ordered := checkDeletionWindows_ok windows fun deletion member =>
    nonempty deletion ((List.mem_insertionSort _).mp member)
  have disjoint : (edits.deletions.insertionSort deletionLe).Pairwise fun left right =>
      left.2.stop ≤ right.2.start ∨ right.2.stop ≤ left.2.start := ordered.imp Or.inl
  have : Std.Symm fun left right : ℕ × ByteRange =>
      left.2.stop ≤ right.2.start ∨ right.2.stop ≤ left.2.start := ⟨fun _ _ => Or.symm⟩
  intro left leftMember right rightMember
  exact disjoint.forall ((List.mem_insertionSort _).mpr leftMember) ((List.mem_insertionSort _).mpr rightMember)

/-- Liveness changes at the ends of accepted deletions only. -/
theorem deleted_stepped {edits : OutputEdits} (accepted : validateEditConflicts edits = .ok ())
    (nonempty : ∀ deletion ∈ edits.deletions, deletion.2.start < deletion.2.stop) :
    List.SteppedBy edits.deleted edits.beginsAt edits.endsAt :=
  List.covered_steppedBy _ _ edits.deletions nonempty (deletions_disjoint accepted nonempty)

section Sweep

variable {edits : OutputEdits} {original : Bytes} {bytesOf : OutputSegment → Bytes}

/-- The bytes an output's insertions contribute at a position. -/
def insertedBytes (edits : OutputEdits) (bytesOf : OutputSegment → Bytes) (position : ℕ) : Bytes :=
  (edits.insertionsAt position).flatMap fun insertion => bytesOf insertion.segment

/-- The original slices of an output are slices of these original bytes. -/
structure SlicesOriginal (edits : OutputEdits) (original : Bytes) (bytesOf : OutputSegment → Bytes) : Prop where
  length : edits.originalLength = original.length
  slice : ∀ fileId start stop, edits.existingFileId = some fileId → start ≤ stop → stop ≤ original.length →
    bytesOf (.originalSlice fileId ⟨start, stop⟩) = (original.drop start).take (stop - start)

/-- The sweep has emitted everything up to its cursor and the insertions there. -/
structure SweptTo (edits : OutputEdits) (original : Bytes) (bytesOf : OutputSegment → Bytes)
    (sweep : Sweep) : Prop where
  bytes : sweep.segments.flatMap bytesOf =
    List.emission original (insertedBytes edits bytesOf) edits.deleted 0 sweep.cursor ++
      insertedBytes edits bytesOf sweep.cursor
  liveness : sweep.deleting = edits.deleted sweep.cursor
  bounded : sweep.cursor ≤ original.length

/-- Surviving to a later offset completes the emission up to it. -/
theorem survive_emission {sweep : Sweep} {offset : ℕ} {segments : List OutputSegment}
    (slices : SlicesOriginal edits original bytesOf)
    (stepped : List.SteppedBy edits.deleted edits.beginsAt edits.endsAt)
    (swept : SweptTo edits original bytesOf sweep) (later : sweep.cursor < offset)
    (bounded : offset ≤ original.length)
    (quiet : ∀ position, sweep.cursor < position → position < offset → edits.eventsAt position = {})
    (survived : sweep.survive edits offset = .ok segments) :
    segments.flatMap bytesOf =
      List.emission original (insertedBytes edits bytesOf) edits.deleted 0 offset := by
  have stretch : List.emission original (insertedBytes edits bytesOf) edits.deleted sweep.cursor offset = _ :=
    List.emission_quiet later bounded
      (fun position above below => by
        have silent := congrArg PointEvents.insertions (quiet position above below)
        simp only [OutputEdits.eventsAt] at silent
        rw [insertedBytes, silent, List.flatMap_nil])
      (stepped.constant fun position above below =>
        ⟨congrArg PointEvents.deletionStart (quiet position above below),
          congrArg PointEvents.deletionEnd (quiet position above below)⟩)
  have whole : _ = List.emission original (insertedBytes edits bytesOf) edits.deleted 0 offset :=
    List.emission_append (Nat.zero_le sweep.cursor) later.le
  rw [← whole, stretch, ← List.append_assoc, ← swept.bytes]
  unfold Sweep.survive at survived
  split_ifs at survived with alive
  · split at survived
    · next fileId existing =>
      rw [← Except.ok.inj survived, List.flatMap_append, List.flatMap_singleton,
        slices.slice fileId _ _ existing later.le bounded, ← swept.liveness, alive.2]
      rfl
    · contradiction
  · have dead : edits.deleted sweep.cursor = true := by
      rw [← swept.liveness]
      simpa [later] using alive
    rw [← Except.ok.inj survived, dead, if_pos rfl, List.append_nil]

theorem visit_ok {sweep next : Sweep} {event : ℕ × PointEvents}
    (visited : sweep.visit edits event = .ok next) :
    event.1 ≤ edits.originalLength ∧ ∃ segments, sweep.survive edits event.1 = .ok segments ∧ next = {
      segments := segments ++ event.2.insertions.map Insertion.segment
      cursor := event.1
      deleting := if event.2.deletionStart then true
        else if event.2.deletionEnd then false else sweep.deleting } := by
  rw [Sweep.visit] at visited
  by_cases beyond : event.1 > edits.originalLength
  · rw [if_pos beyond] at visited
    cases visited
  · rw [if_neg beyond] at visited
    obtain ⟨segments, survived, visited⟩ := Except.bind_eq_ok.mp visited
    exact ⟨by omega, segments, survived, (Except.pure_eq_ok.mp visited).symm⟩

/-- Visiting the next event point carries the emission to it. -/
theorem visit_sweptTo {sweep next : Sweep} {offset : ℕ}
    (slices : SlicesOriginal edits original bytesOf)
    (stepped : List.SteppedBy edits.deleted edits.beginsAt edits.endsAt)
    (swept : SweptTo edits original bytesOf sweep) (later : sweep.cursor < offset)
    (quiet : ∀ position, sweep.cursor < position → position < offset → edits.eventsAt position = {})
    (visited : sweep.visit edits (offset, edits.eventsAt offset) = .ok next) :
    SweptTo edits original bytesOf next ∧ next.cursor = offset := by
  obtain ⟨inside, segments, survived, rfl⟩ := visit_ok visited
  have bounded : offset ≤ original.length := by have := slices.length; omega
  refine ⟨⟨?_, ?_, bounded⟩, rfl⟩
  · rw [List.flatMap_append, survive_emission slices stepped swept later bounded quiet survived,
      List.flatMap_map]
    rfl
  · have constant := stepped.constant (fun position above below =>
      ⟨congrArg PointEvents.deletionStart (quiet position above below),
        congrArg PointEvents.deletionEnd (quiet position above below)⟩) (offset - 1) (by omega) (by omega)
    rw [stepped offset, if_neg (show offset ≠ 0 by omega), constant, ← swept.liveness]
    rfl

/-- Event points yet to be visited: increasing, beyond the cursor, and complete there. -/
structure Remaining (edits : OutputEdits) (cursor : ℕ) (points : List (ℕ × PointEvents)) : Prop where
  increasing : points.Pairwise fun left right => left.1 < right.1
  beyond : ∀ point ∈ points, cursor < point.1
  faithful : ∀ point ∈ points, point.2 = edits.eventsAt point.1
  complete : ∀ position, cursor < position → (∀ point ∈ points, point.1 ≠ position) →
    edits.eventsAt position = {}

/-- The whole sweep ends with everything emitted and nothing left to meet. -/
theorem visits_sweptTo (slices : SlicesOriginal edits original bytesOf)
    (stepped : List.SteppedBy edits.deleted edits.beginsAt edits.endsAt) (points : List (ℕ × PointEvents)) :
    ∀ {sweep result : Sweep}, SweptTo edits original bytesOf sweep → Remaining edits sweep.cursor points →
      points.foldlM (Sweep.visit edits) sweep = .ok result →
      SweptTo edits original bytesOf result ∧ Remaining edits result.cursor [] := by
  induction points with
  | nil =>
    intro sweep result swept remaining folded
    rw [List.foldlM_nil, Except.pure_eq_ok] at folded
    subst folded
    exact ⟨swept, remaining⟩
  | cons point rest ih =>
    intro sweep result swept remaining folded
    rw [List.foldlM_cons, Except.bind_eq_ok] at folded
    obtain ⟨next, visited, folded⟩ := folded
    obtain ⟨offset, events⟩ := point
    obtain rfl : events = edits.eventsAt offset := remaining.faithful (offset, events) (by simp)
    obtain ⟨beforeRest, increasing⟩ := List.pairwise_cons.mp remaining.increasing
    have later := remaining.beyond (offset, edits.eventsAt offset) (by simp)
    obtain ⟨sweptNext, cursor⟩ := visit_sweptTo slices stepped swept later (fun position above below => by
      apply remaining.complete position above
      intro other member
      rcases List.mem_cons.mp member with rfl | member
      · simp only at *; omega
      · have := beforeRest other member; simp only at *; omega) visited
    refine ih sweptNext ?_ folded
    rw [cursor]
    refine ⟨increasing, beforeRest, fun other member => remaining.faithful other (by simp [member]), ?_⟩
    intro position above absent
    apply remaining.complete position (by simp only at *; omega)
    intro other member
    rcases List.mem_cons.mp member with rfl | member
    · simp only at *; omega
    · exact absent other member

/-- Every event point of the output is still to be visited. -/
theorem eventPoints_faithful
    (ordered : edits.insertions.Pairwise fun left right => left.2.operationIndex ≤ right.2.operationIndex) :
    (∀ point ∈ (eventPoints edits).toList, point.2 = edits.eventsAt point.1) ∧
      ∀ position, (∀ point ∈ (eventPoints edits).toList, point.1 ≠ position) → edits.eventsAt position = {} := by
  constructor
  · intro point member
    have found := Std.TreeMap.mem_toList_iff_getElem?_eq_some.mp member
    rw [← pointAt_eventPoints ordered, pointAt, found, Option.getD_some]
  · intro position absent
    rw [← pointAt_eventPoints ordered, pointAt]
    cases found : (eventPoints edits)[position]? with
    | none => rfl
    | some events =>
      exact absurd rfl (absent (position, events) (Std.TreeMap.mem_toList_iff_getElem?_eq_some.mpr found))

/-- With nothing at offset zero, the initial sweep has already reached it. -/
theorem initial_sweptTo (stepped : List.SteppedBy edits.deleted edits.beginsAt edits.endsAt)
    (silent : edits.eventsAt 0 = {}) : SweptTo edits original bytesOf {} := by
  refine ⟨?_, ?_, Nat.zero_le _⟩
  · have none_inserted : edits.insertionsAt 0 = [] := congrArg PointEvents.insertions silent
    simp [insertedBytes, none_inserted]
  · have no_begin : edits.beginsAt 0 = false := congrArg PointEvents.deletionStart silent
    have no_end : edits.endsAt 0 = false := congrArg PointEvents.deletionEnd silent
    simp [stepped 0, no_begin, no_end]

/-- An event point at offset zero is visited without emitting any original byte. -/
theorem first_sweptTo {next : Sweep} (stepped : List.SteppedBy edits.deleted edits.beginsAt edits.endsAt)
    (visited : Sweep.visit edits {} (0, edits.eventsAt 0) = .ok next) :
    SweptTo edits original bytesOf next ∧ next.cursor = 0 := by
  obtain ⟨-, segments, survived, rfl⟩ := visit_ok visited
  have nothing : segments = [] := by simpa [Sweep.survive] using survived.symm
  refine ⟨⟨?_, ?_, Nat.zero_le _⟩, rfl⟩
  · simp only [nothing, List.nil_append, List.emission_self, List.flatMap_map]
    rfl
  · rw [stepped 0, if_pos rfl]
    rfl

/-- The sweep over all event points emits everything up to its last one. -/
theorem eventPoints_sweptTo {sweep : Sweep} (slices : SlicesOriginal edits original bytesOf)
    (stepped : List.SteppedBy edits.deleted edits.beginsAt edits.endsAt)
    (ordered : edits.insertions.Pairwise fun left right => left.2.operationIndex ≤ right.2.operationIndex)
    (folded : (eventPoints edits).toList.foldlM (Sweep.visit edits) {} = .ok sweep) :
    SweptTo edits original bytesOf sweep ∧ Remaining edits sweep.cursor [] := by
  have increasing : (eventPoints edits).toList.Pairwise fun left right => left.1 < right.1 :=
    Std.TreeMap.ordered_keys_toList.imp fun less => compare_lt_iff_lt.mp less
  obtain ⟨faithful, complete⟩ := eventPoints_faithful ordered
  generalize (eventPoints edits).toList = points at folded increasing faithful complete
  by_cases atZero : ∃ point ∈ points, point.1 = 0
  · cases points with
    | nil => simp at atZero
    | cons point rest =>
      obtain ⟨beforeRest, increasingRest⟩ := List.pairwise_cons.mp increasing
      obtain ⟨offset, events⟩ := point
      have zero : offset = 0 := by
        obtain ⟨found, member, zero⟩ := atZero
        rcases List.mem_cons.mp member with rfl | member
        · exact zero
        · have := beforeRest found member; simp only at *; omega
      obtain rfl : events = edits.eventsAt offset := faithful (offset, events) (by simp)
      subst zero
      rw [List.foldlM_cons, Except.bind_eq_ok] at folded
      obtain ⟨next, visited, folded⟩ := folded
      obtain ⟨swept, cursor⟩ := first_sweptTo stepped visited
      refine visits_sweptTo slices stepped rest swept ?_ folded
      rw [cursor]
      refine ⟨increasingRest, beforeRest, fun point member => faithful point (by simp [member]), ?_⟩
      intro position above absent
      apply complete position
      intro point member
      rcases List.mem_cons.mp member with rfl | member
      · exact above.ne
      · exact absent point member
  · have later : ∀ point ∈ points, 0 < point.1 := fun point member =>
      Nat.pos_of_ne_zero fun zero => atZero ⟨point, member, zero⟩
    have silent := complete 0 fun point member => (later point member).ne'
    exact visits_sweptTo slices stepped points (initial_sweptTo stepped silent)
      ⟨increasing, later, faithful, fun position _ => complete position⟩ folded

/-- An accepted recipe emits the original up to and including its end position. -/
theorem buildSegments_emission {segments : List OutputSegment} (slices : SlicesOriginal edits original bytesOf)
    (accepted : validateEditConflicts edits = .ok ())
    (nonempty : ∀ deletion ∈ edits.deletions, deletion.2.start < deletion.2.stop)
    (ordered : edits.insertions.Pairwise fun left right => left.2.operationIndex ≤ right.2.operationIndex)
    (built : buildSegments edits = .ok segments) :
    segments.flatMap bytesOf = List.emission original (insertedBytes edits bytesOf) edits.deleted 0
      (original.length + 1) := by
  rw [buildSegments, Except.bind_eq_ok] at built
  obtain ⟨sweep, folded, survived⟩ := built
  have stepped := deleted_stepped accepted nonempty
  obtain ⟨swept, remaining⟩ := eventPoints_sweptTo slices stepped ordered folded
  have last : List.emission original (insertedBytes edits bytesOf) edits.deleted original.length
      (original.length + 1) = _ := List.emission_succ
  have nothing_left : original[original.length]? = none := List.getElem?_eq_none le_rfl
  rw [nothing_left, Option.toList_none, ite_self, List.append_nil] at last
  rw [← List.emission_append (Nat.zero_le original.length) (Nat.le_succ _), last]
  rw [slices.length] at survived
  rcases swept.bounded.lt_or_eq with before | atEnd
  · rw [survive_emission slices stepped swept before le_rfl
      (fun position above _ => remaining.complete position above (by simp)) survived]
    have silent := congrArg PointEvents.insertions (remaining.complete original.length before (by simp))
    simp only [OutputEdits.eventsAt] at silent
    rw [insertedBytes, silent, List.flatMap_nil, List.append_nil]
  · have unchanged : segments = sweep.segments := by
      simpa [Sweep.survive, atEnd] using survived.symm
    rw [unchanged, swept.bytes, atEnd]

end Sweep

end Srcmv.Core
