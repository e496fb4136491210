import Mathlib.Tactic

/-! # Position-by-position emission of an edited sequence

Walking a sequence position by position, `emission` first writes what is inserted at the position
and then the original item unless it is dead. A stretch with no insertion after its first position
and a constant liveness is one slice of the original, which is what an event sweep emits between
two event points. Disjoint nonempty ranges determine liveness by their endpoints alone. Nothing
here depends on what the items are.
-/

namespace List

variable {α : Type*}

/-- What positions `start..stop` contribute: insertions, then the surviving original item. -/
def emission (original : List α) (inserted : ℕ → List α) (dead : ℕ → Bool) (start stop : ℕ) : List α :=
  (List.range' start (stop - start)).flatMap fun position =>
    inserted position ++ if dead position then [] else original[position]?.toList

section Emission

variable {original : List α} {inserted : ℕ → List α} {dead : ℕ → Bool} {start middle stop : ℕ}

@[simp] theorem emission_self : emission original inserted dead start start = [] := by
  simp [emission]

/-- Emissions of adjacent stretches concatenate. -/
theorem emission_append (low : start ≤ middle) (high : middle ≤ stop) :
    emission original inserted dead start middle ++ emission original inserted dead middle stop =
      emission original inserted dead start stop := by
  have split : range' start (stop - start) =
      range' start (middle - start) ++ range' middle (stop - middle) := by
    have joined := range'_append_1 (s := start) (m := middle - start) (n := stop - middle)
    rw [show start + (middle - start) = middle by omega] at joined
    rw [joined, show middle - start + (stop - middle) = stop - start by omega]
  simp only [emission, split, flatMap_append]

theorem emission_succ : emission original inserted dead start (start + 1) =
    inserted start ++ if dead start then [] else original[start]?.toList := by
  simp [emission]

/-- A stretch whose later positions insert nothing and share one liveness is a single slice. -/
theorem emission_quiet (nonempty : start < stop) (bounded : stop ≤ original.length)
    (quiet : ∀ position, start < position → position < stop → inserted position = [])
    (constant : ∀ position, start ≤ position → position < stop → dead position = dead start) :
    emission original inserted dead start stop =
      inserted start ++ if dead start then [] else (original.drop start).take (stop - start) := by
  induction stop, nonempty using Nat.le_induction with
  | base =>
    rw [Nat.succ_eq_add_one, emission_succ, Nat.add_sub_cancel_left]
    have item : original[start]?.toList = (original.drop start).take 1 := by
      rw [getElem?_eq_getElem (by omega), drop_eq_getElem_cons (by omega)]
      rfl
    rw [item]
  | succ stop passed ih =>
    have previous := ih (by omega) (fun position above below => quiet position above (by omega))
      (fun position above below => constant position above (by omega))
    rw [← emission_append (show start ≤ stop by omega) (Nat.le_succ stop), previous, emission_succ,
      quiet stop (by omega) (by omega), constant stop (by omega) (by omega), nil_append, append_assoc]
    congr 1
    cases dead start with
    | true => rfl
    | false =>
      have grown : stop + 1 - start = (stop - start) + 1 := by omega
      simp only [Bool.false_eq_true, ↓reduceIte]
      rw [grown, take_add_one, getElem?_drop, show start + (stop - start) = stop by omega]

end Emission

/-- Liveness of a position given by the endpoints met so far: a start kills, an end revives, and
anything else keeps the previous liveness. -/
def SteppedBy (dead starts ends : ℕ → Bool) : Prop :=
  ∀ position, dead position =
    if starts position then true
    else if ends position then false
    else if position = 0 then false else dead (position - 1)

/-- Without endpoints in between, liveness does not change. -/
theorem SteppedBy.constant {dead starts ends : ℕ → Bool} (stepped : SteppedBy dead starts ends)
    {start stop : ℕ} (silent : ∀ position, start < position → position < stop →
      starts position = false ∧ ends position = false) :
    ∀ position, start ≤ position → position < stop → dead position = dead start := by
  intro position above
  induction position, above using Nat.le_induction with
  | base => exact fun _ => rfl
  | succ position above ih =>
    intro below
    obtain ⟨noStart, noEnd⟩ := silent (position + 1) (by omega) below
    rw [stepped (position + 1), noStart, noEnd]
    simpa using ih (by omega)

section Coverage

variable {ι : Type*} (low high : ι → ℕ)

/-- A position lies in one of the half-open ranges. -/
def covered (ranges : List ι) (position : ℕ) : Bool :=
  ranges.any fun range => low range ≤ position && position < high range

/-- For pairwise disjoint nonempty ranges, coverage is stepped by their endpoints. -/
theorem covered_steppedBy (ranges : List ι) (nonempty : ∀ range ∈ ranges, low range < high range)
    (disjoint : ∀ left ∈ ranges, ∀ right ∈ ranges, left ≠ right →
      high left ≤ low right ∨ high right ≤ low left) :
    SteppedBy (covered low high ranges) (fun position => ranges.any fun range => low range = position)
      (fun position => ranges.any fun range => high range = position) := by
  have covers (position : ℕ) : covered low high ranges position = true ↔
      ∃ range ∈ ranges, low range ≤ position ∧ position < high range := by
    simp [covered]
  intro position
  beta_reduce
  by_cases begins : ∃ range ∈ ranges, low range = position
  · obtain ⟨range, member, begin⟩ := begins
    have some_begin : (ranges.any fun range => low range = position) = true := by
      simpa using ⟨range, member, begin⟩
    rw [some_begin, if_pos rfl, covers]
    exact ⟨range, member, begin.le, begin ▸ nonempty range member⟩
  · have no_begin : (ranges.any fun range => low range = position) = false := by
      simpa using begins
    rw [no_begin, if_neg Bool.false_ne_true]
    by_cases closes : ∃ range ∈ ranges, high range = position
    · obtain ⟨range, member, close⟩ := closes
      have some_close : (ranges.any fun range => high range = position) = true := by
        simpa using ⟨range, member, close⟩
      rw [some_close, if_pos rfl, Bool.eq_false_iff, ne_eq, covers]
      rintro ⟨other, otherMember, otherLow, otherHigh⟩
      have strict : low other ≠ position := fun equal => begins ⟨other, otherMember, equal⟩
      have different : range ≠ other := fun equal => by rw [equal] at close; omega
      have := nonempty range member
      rcases disjoint range member other otherMember different with apart | apart <;> omega
    · have no_close : (ranges.any fun range => high range = position) = false := by
        simpa using closes
      rw [no_close, if_neg Bool.false_ne_true]
      split
      · next zero =>
        rw [Bool.eq_false_iff, ne_eq, covers]
        rintro ⟨range, member, below, _⟩
        exact begins ⟨range, member, by omega⟩
      · next positive =>
        rw [Bool.eq_iff_iff, covers, covers]
        constructor
        · rintro ⟨range, member, below, above⟩
          have strict : low range ≠ position := fun equal => begins ⟨range, member, equal⟩
          exact ⟨range, member, by omega, by omega⟩
        · rintro ⟨range, member, below, above⟩
          have strict : high range ≠ position := fun equal => closes ⟨range, member, equal⟩
          exact ⟨range, member, by omega, by omega⟩

end Coverage

end List
