import Srcmv.Model.Core.Domain

/-! # Compact line boundaries

The index stores the exclusive byte end of every logical line, terminator included. LF, CRLF and
a lone CR terminate a line; a nonempty unterminated suffix is one more line. The boundaries of an
index built from bytes are positive, strictly increasing and within the bytes, so a line range
never selects an empty or an out-of-bounds slice.
-/

namespace Srcmv.Core

/-- Exclusive byte end of each logical line, including its terminator. -/
structure LineIndex where
  boundaries : List ℕ
deriving DecidableEq

def isTerminatorByte (byte : UInt8) : Bool := byte = 13 || byte = 10

/-- The successive results of `next_terminator_end` from `offset` until it finds none. -/
def terminatorEnds : Bytes → ℕ → List ℕ
  | [], _ => []
  | 13 :: 10 :: rest, offset => (offset + 2) :: terminatorEnds rest (offset + 2)
  | byte :: rest, offset =>
      if isTerminatorByte byte then (offset + 1) :: terminatorEnds rest (offset + 1)
      else terminatorEnds rest (offset + 1)

def enforceLineLimit (resource : String) (actual limit : ℕ) : Except CoreError Unit :=
  if actual > limit then .error (.resourceLimitExceeded resource actual limit) else .ok ()

/-- Append one boundary under the line and memory limits; the products saturate. -/
def pushLineBoundary (boundaries : List ℕ) (boundary maximumLines maximumMemoryBytes : ℕ) :
    Except CoreError (List ℕ) := do
  let nextLineCount := min (boundaries.length + 1) u64Max
  enforceLineLimit "line_count" nextLineCount maximumLines
  enforceLineLimit "line_index_memory" (min (nextLineCount * 8) u64Max) maximumMemoryBytes
  return boundaries ++ [boundary]

namespace LineIndex

/-- Build a line index while enforcing the representation limits. -/
def fromBytesWithLimits (bytes : Bytes) (maximumLines maximumMemoryBytes : ℕ) :
    Except CoreError LineIndex := do
  let boundaries ← (terminatorEnds bytes 0).foldlM
    (fun boundaries boundary => pushLineBoundary boundaries boundary maximumLines maximumMemoryBytes) []
  if boundaries.getLast? ≠ some bytes.length ∧ bytes ≠ [] then
    return ⟨← pushLineBoundary boundaries bytes.length maximumLines maximumMemoryBytes⟩
  else
    return ⟨boundaries⟩

def lineCount (index : LineIndex) : ℕ := index.boundaries.length

/-- Byte offset before a one-based line number. -/
def lineStart (index : LineIndex) (line : ℕ) : Option ℕ :=
  if line = 0 ∨ line > index.lineCount then none
  else if line = 1 then some 0
  else index.boundaries[line - 2]?

/-- Exclusive byte end of a one-based line, including its terminator. -/
def lineEnd (index : LineIndex) (line : ℕ) : Option ℕ :=
  if line = 0 then none else index.boundaries[line - 1]?

def memoryBytes (index : LineIndex) : ℕ := min (index.lineCount * 8) u64Max

/-- What every index built from bytes satisfies with respect to those bytes. -/
structure Bounds (index : LineIndex) (length : ℕ) : Prop where
  increasing : index.boundaries.Pairwise (· < ·)
  positive : ∀ boundary ∈ index.boundaries, 0 < boundary
  bounded : ∀ boundary ∈ index.boundaries, boundary ≤ length

end LineIndex

theorem pushLineBoundary_ok {boundaries result : List ℕ} {boundary maximumLines maximumMemoryBytes : ℕ}
    (pushed : pushLineBoundary boundaries boundary maximumLines maximumMemoryBytes = .ok result) :
    result = boundaries ++ [boundary] := by
  simp only [pushLineBoundary, enforceLineLimit, bind, Except.bind, pure, Except.pure] at pushed
  split_ifs at pushed
  exact (Except.ok.inj pushed).symm

private theorem foldlM_push_ok {maximumLines maximumMemoryBytes : ℕ} (ends : List ℕ) :
    ∀ {boundaries result : List ℕ}, ends.foldlM (fun boundaries boundary =>
      pushLineBoundary boundaries boundary maximumLines maximumMemoryBytes) boundaries = .ok result →
      result = boundaries ++ ends := by
  induction ends with
  | nil =>
    intro boundaries result folded
    simpa [pure, Except.pure] using (Except.ok.inj folded).symm
  | cons boundary rest ih =>
    intro boundaries result folded
    simp only [List.foldlM_cons, bind, Except.bind] at folded
    split at folded
    · contradiction
    · next pushed => rw [ih folded, pushLineBoundary_ok pushed, List.append_assoc, List.singleton_append]

/-- Terminator ends increase strictly beyond the scan position and stay within the bytes. -/
theorem terminatorEnds_spec (bytes : Bytes) (offset : ℕ) :
    (terminatorEnds bytes offset).Pairwise (· < ·) ∧
      ∀ boundary ∈ terminatorEnds bytes offset, offset < boundary ∧ boundary ≤ offset + bytes.length := by
  induction bytes, offset using terminatorEnds.induct with
  | case1 => simp [terminatorEnds]
  | case2 offset rest ih =>
    simp only [terminatorEnds, List.pairwise_cons, List.mem_cons, List.length_cons]
    refine ⟨⟨fun boundary member => (ih.2 boundary member).1, ih.1⟩, ?_⟩
    rintro boundary (rfl | member)
    · omega
    · have := ih.2 boundary member; omega
  | case3 offset byte rest shape terminator ih =>
    rw [terminatorEnds.eq_3 _ _ _ shape, if_pos terminator]
    simp only [List.pairwise_cons, List.mem_cons, List.length_cons]
    refine ⟨⟨fun boundary member => (ih.2 boundary member).1, ih.1⟩, ?_⟩
    rintro boundary (rfl | member)
    · omega
    · have := ih.2 boundary member; omega
  | case4 offset byte rest shape terminator ih =>
    rw [terminatorEnds.eq_3 _ _ _ shape, if_neg terminator]
    refine ⟨ih.1, fun boundary member => ?_⟩
    have := ih.2 boundary member
    simp only [List.length_cons]
    omega

/-- The scan's boundaries, closed by the byte length when the last line is unterminated. -/
theorem LineIndex.boundaries_of_fromBytes {bytes : Bytes} {maximumLines maximumMemoryBytes : ℕ}
    {index : LineIndex} (built : fromBytesWithLimits bytes maximumLines maximumMemoryBytes = .ok index) :
    index.boundaries = terminatorEnds bytes 0 ++
      if (terminatorEnds bytes 0).getLast? ≠ some bytes.length ∧ bytes ≠ [] then [bytes.length] else [] := by
  simp only [fromBytesWithLimits, bind, Except.bind, pure, Except.pure] at built
  split at built
  · contradiction
  · next boundaries folded =>
    have scanned := foldlM_push_ok _ folded
    rw [List.nil_append] at scanned
    subst scanned
    split_ifs at built with open_
    · split at built
      · contradiction
      · next pushed =>
        rw [← Except.ok.inj built, if_pos open_]
        exact pushLineBoundary_ok pushed
    · rw [← Except.ok.inj built, if_neg open_, List.append_nil]

/-- An index built from bytes is well bounded, whatever the limits. -/
theorem LineIndex.bounds_of_fromBytes {bytes : Bytes} {maximumLines maximumMemoryBytes : ℕ}
    {index : LineIndex} (built : fromBytesWithLimits bytes maximumLines maximumMemoryBytes = .ok index) :
    index.Bounds bytes.length := by
  obtain ⟨increasing, bounded⟩ := terminatorEnds_spec bytes 0
  have shape := boundaries_of_fromBytes built
  split_ifs at shape with open_
  · have below : ∀ boundary ∈ terminatorEnds bytes 0, boundary < bytes.length := by
      intro boundary member
      obtain ⟨front, last, split⟩ := List.eq_nil_or_concat (terminatorEnds bytes 0) |>.resolve_left
        (List.ne_nil_of_mem member)
      rw [split] at member increasing open_
      have lastBound := (bounded last (by rw [split]; simp)).2
      have lastNe : last ≠ bytes.length := by simpa using open_.1
      simp only [List.concat_eq_append, List.mem_append, List.mem_singleton] at member
      rcases member with front | rfl
      · have := (List.pairwise_append.mp (by simpa using increasing)).2.2 boundary front last (by simp)
        omega
      · omega
    have nonempty : 0 < bytes.length := List.length_pos_iff.mpr open_.2
    constructor
    · rw [shape, List.pairwise_append]
      exact ⟨increasing, List.pairwise_singleton _ _, by simpa using below⟩
    · intro boundary member
      rw [shape, List.mem_append, List.mem_singleton] at member
      rcases member with member | rfl
      · exact (bounded boundary member).1
      · exact nonempty
    · intro boundary member
      rw [shape, List.mem_append, List.mem_singleton] at member
      rcases member with member | rfl
      · exact (below boundary member).le
      · exact le_rfl
  · rw [List.append_nil] at shape
    constructor
    · exact shape ▸ increasing
    · exact fun boundary member => (bounded boundary (shape ▸ member)).1
    · exact fun boundary member => by simpa using (bounded boundary (shape ▸ member)).2

namespace LineIndex

variable {index : LineIndex} {length : ℕ}

theorem Bounds.lineEnd_le (bounds : index.Bounds length) {line stop : ℕ}
    (found : index.lineEnd line = some stop) : stop ≤ length := by
  simp only [lineEnd] at found
  split_ifs at found
  exact bounds.bounded stop (List.mem_of_getElem? found)

theorem Bounds.lineStart_le (bounds : index.Bounds length) {line start : ℕ}
    (found : index.lineStart line = some start) : start ≤ length := by
  simp only [lineStart] at found
  split_ifs at found
  · exact (Option.some.inj found) ▸ Nat.zero_le _
  · exact bounds.bounded start (List.mem_of_getElem? found)

/-- The lines `first..=last` select a nonempty range. -/
theorem Bounds.lineStart_lt_lineEnd (bounds : index.Bounds length) {first last start stop : ℕ}
    (ordered : first ≤ last) (foundStart : index.lineStart first = some start)
    (foundStop : index.lineEnd last = some stop) : start < stop := by
  simp only [lineEnd] at foundStop
  split_ifs at foundStop with zero
  simp only [lineStart] at foundStart
  split_ifs at foundStart with invalid one
  · obtain rfl := Option.some.inj foundStart
    exact bounds.positive stop (List.mem_of_getElem? foundStop)
  · obtain ⟨startBound, startAt⟩ := List.getElem?_eq_some_iff.mp foundStart
    obtain ⟨stopBound, stopAt⟩ := List.getElem?_eq_some_iff.mp foundStop
    rw [← startAt, ← stopAt]
    exact List.pairwise_iff_getElem.mp bounds.increasing _ _ startBound stopBound (by omega)

end LineIndex

end Srcmv.Core
