import Mathlib.Tactic

/-! # Accepted computations in `Except`

A computation that returned decomposes into returned steps. `foldlM` gets its induction rule here:
an invariant between the items already folded and the accumulator is carried to the end.
-/

universe u

namespace Except

variable {ε : Type*} {α β : Type u}

theorem bind_eq_ok {computation : Except ε α} {next : α → Except ε β} {result : β} :
    (computation >>= next) = .ok result ↔ ∃ value, computation = .ok value ∧ next value = .ok result := by
  cases computation with
  | error failure => simp [bind, Except.bind]
  | ok value => simp [bind, Except.bind]

theorem bind_eq_error {computation : Except ε α} {next : α → Except ε β} {failure : ε} :
    (computation >>= next) = .error failure ↔
      computation = .error failure ∨ ∃ value, computation = .ok value ∧ next value = .error failure := by
  cases computation with
  | error earlier => simp [bind, Except.bind]
  | ok value => simp [bind, Except.bind]

theorem ok_bind {value : α} {next : α → Except ε β} : ((.ok value : Except ε α) >>= next) = next value := rfl

theorem error_bind {failure : ε} {next : α → Except ε β} :
    ((.error failure : Except ε α) >>= next) = .error failure := rfl

theorem pure_eq_ok {value result : α} : (pure value : Except ε α) = .ok result ↔ value = result := by
  simp [pure, Except.pure]

theorem mapError_eq_ok {ε' : Type*} {computation : Except ε α} {change : ε → ε'} {value : α} :
    computation.mapError change = .ok value ↔ computation = .ok value := by
  cases computation with
  | error failure => simp [Except.mapError]
  | ok found => simp [Except.mapError]

/-- The value of a computation that is known to have one. -/
theorem eq_ok_get {computation : Except ε α} (accepted : computation.toOption.isSome) :
    computation = .ok (computation.toOption.get accepted) := by
  cases computation with
  | error failure => cases accepted
  | ok value => rfl

theorem ok_ne_error {value : α} {failure : ε} : (.ok value : Except ε α) ≠ .error failure := by
  intro same
  cases same

/-- A failure that neither the first computation nor the next one has. -/
theorem bind_ne_error {computation : Except ε α} {next : α → Except ε β} {failure : ε} (first : computation ≠ .error failure)
    (second : ∀ value, computation = .ok value → next value ≠ .error failure) : computation >>= next ≠ .error failure := by
  rintro failed
  rcases bind_eq_error.mp failed with earlier | ⟨value, found, later⟩
  · exact first earlier
  · exact second value found later

/-- Reject with an error when a condition holds. -/
def rejectIf (condition : Prop) [Decidable condition] (error : ε) : Except ε PUnit :=
  if condition then .error error else .ok ⟨⟩

theorem rejectIf_eq_ok {condition : Prop} [Decidable condition] {error : ε} {value : PUnit} :
    rejectIf condition error = .ok value ↔ ¬condition := by
  simp [rejectIf]

theorem rejectIf_of_not {condition : Prop} [Decidable condition] {error : ε} (accepted : ¬condition) :
    rejectIf condition error = .ok ⟨⟩ := if_neg accepted

theorem rejectIf_of {condition : Prop} [Decidable condition] {error : ε} (rejected : condition) :
    rejectIf condition error = .error error := if_pos rejected

/-- Two computations that fail together or succeed with related results. -/
inductive Agree (related : α → β → Prop) : Except ε α → Except ε β → Prop
  | ok {value : α} {other : β} : related value other → Agree related (.ok value) (.ok other)
  | error (failure other : ε) : Agree related (.error failure) (.error other)

section Agree

variable {γ δ : Type u} {related : α → β → Prop} {first : Except ε α} {second : Except ε β}

theorem Agree.bind {results : γ → δ → Prop} {next : α → Except ε γ} {other : β → Except ε δ}
    (agree : Agree related first second)
    (continues : ∀ value value', related value value' → Agree results (next value) (other value')) :
    Agree results (first >>= next) (second >>= other) := by
  cases agree with
  | ok same => exact continues _ _ same
  | error failure other => exact .error failure other

theorem Agree.refl (computation : Except ε α) : Agree Eq computation computation := by
  cases computation with
  | error failure => exact .error failure failure
  | ok value => exact .ok rfl

theorem Agree.of_ok_iff {succeeds : Prop} (left : (∃ value, first = .ok value) ↔ succeeds)
    (right : (∃ value, second = .ok value) ↔ succeeds)
    (relates : ∀ value other, first = .ok value → second = .ok other → related value other) :
    Agree related first second := by
  cases accepted : first with
  | error failure =>
    cases accepted' : second with
    | error failure' => exact .error failure failure'
    | ok value =>
      obtain ⟨_, impossible⟩ := left.mpr (right.mp ⟨value, accepted'⟩)
      rw [accepted] at impossible
      cases impossible
  | ok value =>
    obtain ⟨value', accepted'⟩ := right.mpr (left.mp ⟨value, accepted⟩)
    rw [accepted']
    exact .ok (relates value value' accepted accepted')

theorem map_bind {next : α → Except ε β} {change : β → γ} (computation : Except ε α) :
    (computation >>= next).map change = computation >>= fun value => (next value).map change := by
  cases computation with
  | error failure => rfl
  | ok value => rfl

theorem bind_map {change : α → β} {next : β → Except ε γ} (computation : Except ε α) :
    computation.map change >>= next = computation >>= fun value => next (change value) := by
  cases computation with
  | error failure => rfl
  | ok value => rfl

theorem bind_congr_right {next other : α → Except ε β} (computation : Except ε α)
    (same : ∀ value, next value = other value) : computation >>= next = computation >>= other := by
  rw [funext same]

end Agree

end Except

namespace List

variable {ε α : Type*} {β : Type u}

/-- Induction over an accepted fold: what relates the folded prefix to the accumulator at each step
relates the whole list to the result. -/
theorem foldlM_ok_induction {step : β → α → Except ε β} {invariant : List α → β → Prop}
    (preserved : ∀ done item current next, invariant done current → step current item = .ok next →
      invariant (done ++ [item]) next) (items : List α) :
    ∀ {done : List α} {current result : β}, invariant done current →
      items.foldlM step current = .ok result → invariant (done ++ items) result := by
  induction items with
  | nil =>
    intro done current result initial folded
    rw [foldlM_nil, Except.pure_eq_ok] at folded
    simpa [← folded] using initial
  | cons item rest ih =>
    intro done current result initial folded
    rw [foldlM_cons, Except.bind_eq_ok] at folded
    obtain ⟨next, stepped, folded⟩ := folded
    simpa using ih (preserved done item current next initial stepped) folded

/-- What every accepted step on an item of the list keeps, an accepted fold keeps. -/
theorem foldlM_ok_invariant {step : β → α → Except ε β} {invariant : β → Prop} {items : List α}
    (preserved : ∀ item ∈ items, ∀ current next, invariant current → step current item = .ok next → invariant next) :
    ∀ {current result : β}, invariant current → items.foldlM step current = .ok result → invariant result := by
  induction items with
  | nil =>
    intro current result initial folded
    rw [foldlM_nil, Except.pure_eq_ok] at folded
    exact folded ▸ initial
  | cons item rest ih =>
    intro current result initial folded
    rw [foldlM_cons] at folded
    obtain ⟨next, stepped, folded⟩ := Except.bind_eq_ok.mp folded
    exact ih (fun other member => preserved other (mem_cons_of_mem _ member))
      (preserved item mem_cons_self current next initial stepped) folded

/-- A fold whose steps succeed under an invariant that they keep. -/
theorem foldlM_succeeds {step : β → α → Except ε β} {invariant : β → Prop} {items : List α}
    (each : ∀ item ∈ items, ∀ current, invariant current → ∃ next, step current item = .ok next ∧ invariant next) :
    ∀ {current : β}, invariant current → ∃ result, items.foldlM step current = .ok result ∧ invariant result := by
  induction items with
  | nil => exact fun initial => ⟨_, rfl, initial⟩
  | cons item rest ih =>
    intro current initial
    obtain ⟨next, stepped, kept⟩ := each item mem_cons_self current initial
    rw [foldlM_cons, stepped, Except.ok_bind]
    exact ih (fun other member => each other (mem_cons_of_mem _ member)) kept

/-- Every item of an accepted fold was accepted at some accumulator. -/
theorem foldlM_ok_mem {step : β → α → Except ε β} {items : List α} :
    ∀ {current result : β}, items.foldlM step current = .ok result →
      ∀ item ∈ items, ∃ before after, step before item = .ok after := by
  induction items with
  | nil => exact fun _ _ member => by cases member
  | cons first rest ih =>
    intro current result folded item member
    rw [foldlM_cons, Except.bind_eq_ok] at folded
    obtain ⟨next, stepped, folded⟩ := folded
    rcases mem_cons.mp member with rfl | later
    · exact ⟨current, next, stepped⟩
    · exact ih folded item later

/-- Two accepted folds side by side: what relates the accumulators is kept by every pair of steps. -/
theorem foldlM_ok_simulation {step : β → α → Except ε β} (change : α → α) {related : β → β → Prop} {items : List α}
    (carries : ∀ item ∈ items, ∀ current next other, related current other → step current item = .ok next →
      ∃ after, step other (change item) = .ok after ∧ related next after) :
    ∀ {current result other : β}, related current other → items.foldlM step current = .ok result →
      ∃ final, (items.map change).foldlM step other = .ok final ∧ related result final := by
  induction items with
  | nil =>
    intro current result other initial folded
    rw [foldlM_nil, Except.pure_eq_ok] at folded
    exact ⟨other, rfl, folded ▸ initial⟩
  | cons item rest ih =>
    intro current result other initial folded
    rw [foldlM_cons, Except.bind_eq_ok] at folded
    obtain ⟨next, stepped, folded⟩ := folded
    obtain ⟨after, changed, again⟩ := carries item mem_cons_self current next other initial stepped
    obtain ⟨final, rest, last⟩ := ih (fun other member => carries other (mem_cons_of_mem _ member)) again folded
    exact ⟨final, by rw [map_cons, foldlM_cons, changed, Except.ok_bind, rest], last⟩

/-- Two folds whose steps agree agree. -/
theorem foldlM_agree {γ : Type u} {change : α → α} {related : β → γ → Prop} {step : β → α → Except ε β}
    {step' : γ → α → Except ε γ} {items : List α}
    (steps : ∀ item ∈ items, ∀ current other, related current other →
      Except.Agree related (step current item) (step' other (change item))) :
    ∀ {current : β} {other : γ}, related current other →
      Except.Agree related (items.foldlM step current) ((items.map change).foldlM step' other) := by
  induction items with
  | nil => exact fun initial => .ok initial
  | cons item rest ih =>
    intro current other initial
    rw [map_cons, foldlM_cons, foldlM_cons]
    apply Except.Agree.bind (steps item mem_cons_self current other initial)
    intro next next' again
    exact ih (fun later member => steps later (mem_cons_of_mem _ member)) again

/-- A fold over changed items, whose steps commute with a change of the accumulator. -/
theorem foldlM_map_commutes {γ : Type*} {change : α → γ} {translate : β → β} {step : β → α → Except ε β}
    {step' : β → γ → Except ε β} {items : List α}
    (commutes : ∀ item ∈ items, ∀ current,
      step' (translate current) (change item) = (step current item).map translate) (current : β) :
    (items.map change).foldlM step' (translate current) = (items.foldlM step current).map translate := by
  induction items generalizing current with
  | nil => rfl
  | cons item rest ih =>
    rw [map_cons, foldlM_cons, foldlM_cons, commutes item mem_cons_self, Except.bind_map, Except.map_bind]
    exact Except.bind_congr_right _ fun next => ih (fun later member => commutes later (mem_cons_of_mem _ member)) next

/-- A traversal of changed items, each of whose results changes alike. -/
theorem mapM_map_commutes {change : α → α} {translate : β → β} {transform transform' : α → Except ε β}
    {items : List α} (commutes : ∀ item ∈ items, transform' (change item) = (transform item).map translate) :
    (items.map change).mapM transform' = (items.mapM transform).map (List.map translate) := by
  induction items with
  | nil => rfl
  | cons item rest ih =>
    rw [map_cons, mapM_cons, mapM_cons, commutes item mem_cons_self, Except.bind_map, Except.map_bind]
    apply Except.bind_congr_right
    intro head
    rw [ih fun later member => commutes later (mem_cons_of_mem _ member), Except.bind_map, Except.map_bind]
    exact Except.bind_congr_right _ fun tail => rfl

/-- A fold whose steps keep the accumulator. -/
theorem foldlM_ok_of_forall {step : β → α → Except ε β} {items : List α} {value : β}
    (kept : ∀ item ∈ items, step value item = .ok value) : items.foldlM step value = .ok value := by
  induction items with
  | nil => rfl
  | cons item rest ih =>
    rw [foldlM_cons, kept item mem_cons_self, Except.ok_bind]
    exact ih fun other member => kept other (mem_cons_of_mem _ member)

/-- A fold in which only one item does anything. -/
theorem foldlM_single {step : β → α → Except ε β} {items : List α} {chosen : α} (distinct : items.Nodup)
    (member : chosen ∈ items) (kept : ∀ item ∈ items, item ≠ chosen → ∀ value, step value item = .ok value)
    (value : β) : items.foldlM step value = step value chosen := by
  induction items with
  | nil => cases member
  | cons item rest ih =>
    rw [nodup_cons] at distinct
    rw [foldlM_cons]
    rcases mem_cons.mp member with rfl | later
    · cases stepped : step value chosen with
      | error failure => rfl
      | ok next =>
        refine foldlM_ok_of_forall fun other inside => kept other (mem_cons_of_mem _ inside) ?_ next
        rintro rfl
        exact distinct.1 inside
    · rw [kept item mem_cons_self (fun same => distinct.1 (same ▸ later)), Except.ok_bind]
      exact ih distinct.2 later fun other inside => kept other (mem_cons_of_mem _ inside)

theorem forM_eq_ok {check : α → Except ε PUnit} {items : List α} {value : PUnit} :
    items.forM check = .ok value ↔ ∀ item ∈ items, check item = .ok ⟨⟩ := by
  induction items with
  | nil => simp [List.forM, pure, Except.pure]
  | cons item rest ih =>
    change (check item >>= fun _ => rest.forM check) = .ok value ↔ _
    rw [Except.bind_eq_ok, forall_mem_cons]
    exact ⟨fun ⟨_, first, others⟩ => ⟨first, ih.mp others⟩, fun ⟨first, others⟩ => ⟨⟨⟩, first, ih.mpr others⟩⟩

theorem forM_error {check : α → Except ε PUnit} {items : List α} {failure : ε}
    (failed : items.forM check = .error failure) : ∃ item ∈ items, check item = .error failure := by
  induction items with
  | nil => cases failed
  | cons item rest ih =>
    change (check item >>= fun _ => rest.forM check) = .error failure at failed
    cases checked : check item with
    | error stopped =>
      rw [checked, Except.error_bind] at failed
      exact ⟨item, mem_cons_self, checked.trans failed⟩
    | ok value =>
      rw [checked, Except.ok_bind] at failed
      obtain ⟨other, member, rejected⟩ := ih failed
      exact ⟨other, mem_cons_of_mem _ member, rejected⟩

/-- An accepted traversal accepted the items one by one. -/
theorem forall₂_of_mapM_ok {transform : α → Except ε β} {items : List α} {results : List β}
    (accepted : items.mapM transform = .ok results) :
    Forall₂ (fun item result => transform item = .ok result) items results := by
  induction items generalizing results with
  | nil =>
    rw [mapM_nil, Except.pure_eq_ok] at accepted
    exact accepted ▸ .nil
  | cons item rest ih =>
    rw [mapM_cons] at accepted
    obtain ⟨head, transformed, accepted⟩ := Except.bind_eq_ok.mp accepted
    obtain ⟨tail, traversed, accepted⟩ := Except.bind_eq_ok.mp accepted
    obtain rfl := Except.pure_eq_ok.mp accepted
    exact .cons transformed (ih traversed)

/-- A traversal that accepts every item is accepted. -/
theorem mapM_ok_of_forall {transform : α → Except ε β} {items : List α}
    (each : ∀ item ∈ items, ∃ result, transform item = .ok result) : ∃ results, items.mapM transform = .ok results := by
  induction items with
  | nil => exact ⟨[], rfl⟩
  | cons item rest ih =>
    obtain ⟨head, transformed⟩ := each item mem_cons_self
    obtain ⟨tail, traversed⟩ := ih fun other member => each other (mem_cons_of_mem _ member)
    rw [mapM_cons, transformed, Except.ok_bind, traversed]
    exact ⟨head :: tail, rfl⟩

/-- Every result of an accepted traversal comes from an accepted item. -/
theorem mapM_ok_mem {transform : α → Except ε β} {items : List α} {results : List β}
    (accepted : items.mapM transform = .ok results) {result : β} (member : result ∈ results) :
    ∃ item ∈ items, transform item = .ok result := by
  obtain ⟨index, bound, rfl⟩ := getElem_of_mem member
  have each := forall₂_of_mapM_ok accepted
  have inside : index < items.length := each.length_eq ▸ bound
  exact ⟨items[index], getElem_mem inside, each.get inside bound⟩

/-- An accepted traversal accepted each of its items. -/
theorem mapM_ok_of_mem {transform : α → Except ε β} {items : List α} {results : List β}
    (accepted : items.mapM transform = .ok results) {item : α} (member : item ∈ items) :
    ∃ result ∈ results, transform item = .ok result := by
  obtain ⟨index, bound, rfl⟩ := getElem_of_mem member
  have each := forall₂_of_mapM_ok accepted
  have inside : index < results.length := each.length_eq ▸ bound
  exact ⟨results[index], getElem_mem inside, each.get bound inside⟩

/-- A failed traversal failed at some item. -/
theorem mapM_error {transform : α → Except ε β} {items : List α} {failure : ε}
    (failed : items.mapM transform = .error failure) : ∃ item ∈ items, transform item = .error failure := by
  induction items with
  | nil => cases failed
  | cons item rest ih =>
    rw [mapM_cons] at failed
    cases transformed : transform item with
    | error stopped =>
      rw [transformed, Except.error_bind] at failed
      cases failed
      exact ⟨item, mem_cons_self, transformed⟩
    | ok head =>
      rw [transformed, Except.ok_bind] at failed
      cases traversed : rest.mapM transform with
      | error stopped =>
        rw [traversed] at failed
        cases failed
        obtain ⟨other, member, rejected⟩ := ih traversed
        exact ⟨other, mem_cons_of_mem _ member, rejected⟩
      | ok tail =>
        rw [traversed] at failed
        cases failed

end List
