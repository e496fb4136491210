import Mathlib.Data.List.Destutter
import Mathlib.Data.List.Sort
import Mathlib.Tactic

/-! # Sorting by comparators and collapsing runs

Comparators built from keys and from one another are orders, a list sorted by a number begins with
the elements of the least number, and collapsing the runs of a list keeps the order of its keys.
-/

namespace Comparator

variable {α β : Type*}

theorem transCmp_comap (cmp : β → β → Ordering) [Std.TransCmp cmp] (key : α → β) :
    Std.TransCmp fun left right => cmp (key left) (key right) where
  eq_swap := Std.OrientedCmp.eq_swap
  isLE_trans := Std.TransCmp.isLE_trans

theorem transCmp_then (first second : α → α → Ordering) [Std.TransCmp first] [Std.TransCmp second] :
    Std.TransCmp fun left right => (first left right).then (second left right) :=
  inferInstanceAs (Std.TransCmp (compareLex first second))

section Sorting

variable (cmp : α → α → Ordering) [Std.TransCmp cmp]

instance total_isLE : Std.Total fun left right : α => (cmp left right).isLE = true where
  total left right := by
    rw [show cmp right left = (cmp left right).swap from Std.OrientedCmp.eq_swap, Ordering.isLE_swap]
    cases cmp left right <;> simp

instance isTrans_isLE : IsTrans α fun left right : α => (cmp left right).isLE = true where
  trans _ _ _ := Std.TransCmp.isLE_trans

theorem pairwise_sort (items : List α) :
    (items.insertionSort fun left right => (cmp left right).isLE).Pairwise fun left right => (cmp left right).isLE :=
  List.pairwise_insertionSort _ items

end Sorting

end Comparator

namespace List

variable {α κ : Type*}

/-- Of a list sorted by a number, the elements with the number of the first one come first. -/
theorem takeWhile_eq_filter_of_pairwise (number : α → ℕ) {first : α} {rest : List α}
    (sorted : (first :: rest).Pairwise fun left right => number left ≤ number right) :
    (first :: rest).takeWhile (fun item => number item = number first) =
      (first :: rest).filter fun item => number item = number first := by
  obtain ⟨least, sorted⟩ := pairwise_cons.mp sorted
  rw [takeWhile_cons_of_pos (by simp), filter_cons_of_pos (by simp)]
  congr 1
  induction rest with
  | nil => rfl
  | cons next rest ih =>
    obtain ⟨nextLeast, sorted⟩ := pairwise_cons.mp sorted
    by_cases same : number next = number first
    · rw [takeWhile_cons_of_pos (by simpa using same), filter_cons_of_pos (by simpa using same),
        ih (pairwise_cons.mpr ⟨fun item member => least item (mem_cons_of_mem _ member), sorted⟩)
        (fun item member => least item (mem_cons_of_mem _ member)) sorted]
    · rw [takeWhile_cons_of_neg (by simpa using same), filter_cons_of_neg (by simpa using same), eq_comm, filter_eq_nil_iff]
      intro item member equal
      have below := least next mem_cons_self
      have above := nextLeast item member
      have := of_decide_eq_true equal
      omega

section Runs

variable [DecidableEq κ]

theorem mem_destutter'_ne {kept key : κ} {keys : List κ} : key ∈ keys.destutter' (· ≠ ·) kept ↔ key ∈ kept :: keys := by
  induction keys generalizing kept with
  | nil => rfl
  | cons next rest ih =>
    rw [destutter'_cons]
    split
    · rw [mem_cons, ih, mem_cons (a := key) (b := kept)]
    · next same =>
      obtain rfl := not_not.mp same
      rw [ih]
      simp

theorem mem_destutter_ne {key : κ} {keys : List κ} : key ∈ keys.destutter (· ≠ ·) ↔ key ∈ keys := by
  cases keys with
  | nil => rfl
  | cons first rest => exact mem_destutter'_ne

theorem pair_sublist_destutter' {kept left right : κ} {keys : List κ} (differ : left ≠ right)
    (before : [left, right].Sublist (kept :: keys)) : [left, right].Sublist (keys.destutter' (· ≠ ·) kept) := by
  induction keys generalizing kept with
  | nil => exact before
  | cons next rest ih =>
    rw [destutter'_cons]
    split
    · cases before with
      | cons _ later => exact (ih later).cons _
      | cons_cons _ later => exact (singleton_sublist.mpr (mem_destutter'_ne.mpr (singleton_sublist.mp later))).cons_cons _
    · next same =>
      obtain rfl := not_not.mp same
      refine ih ?_
      cases before with
      | cons _ later => exact later
      | cons_cons _ later =>
        have member := (mem_cons.mp (singleton_sublist.mp later)).resolve_left differ.symm
        exact (singleton_sublist.mpr member).cons_cons _

/-- Collapsing runs keeps the order of different keys. -/
theorem pair_sublist_destutter {left right : κ} {keys : List κ} (differ : left ≠ right)
    (before : [left, right].Sublist keys) : [left, right].Sublist (keys.destutter (· ≠ ·)) := by
  cases keys with
  | nil => exact before
  | cons first rest => exact pair_sublist_destutter' differ before

omit [DecidableEq κ] in
private theorem triple_sublist_of_isChain {key : κ} {keys : List κ} (chain : keys.IsChain (· ≠ ·)) (twice : [key, key].Sublist keys) :
    ∃ other, other ≠ key ∧ [key, other, key].Sublist keys := by
  induction keys with
  | nil => cases twice
  | cons first rest ih =>
    cases twice with
    | cons _ later =>
      obtain ⟨other, differs, found⟩ := ih chain.of_cons later
      exact ⟨other, differs, found.cons _⟩
    | cons_cons _ later =>
      cases rest with
      | nil => cases later
      | cons next rest =>
        have differs : key ≠ next := (isChain_cons_cons.mp chain).1
        have member := (mem_cons.mp (singleton_sublist.mp later)).resolve_left differs
        exact ⟨next, differs.symm, ((singleton_sublist.mpr member).cons_cons next).cons_cons key⟩

/-- Runs are distinct when no key comes back after another one. -/
theorem nodup_destutter {keys : List κ} (contiguous : ∀ key other, [key, other, key].Sublist keys → other = key) :
    (keys.destutter (· ≠ ·)).Nodup := by
  rw [nodup_iff_sublist]
  intro key twice
  obtain ⟨other, differs, found⟩ := triple_sublist_of_isChain (isChain_destutter _ keys) twice
  exact differs (contiguous key other (found.trans (destutter_sublist _ keys)))

variable (key : α → κ)

private theorem mem_destutter'_of_first {kept item : α} {items front back : List α} (split : kept :: items = front ++ item :: back)
    (fresh : ∀ other ∈ front, key other ≠ key item) : item ∈ items.destutter' (fun left right => key left ≠ key right) kept := by
  induction items generalizing kept front with
  | nil =>
    cases front with
    | nil => exact (cons.inj split).1 ▸ mem_destutter' ..
    | cons first front =>
      have impossible := congrArg length split
      simp at impossible
  | cons next rest ih =>
    cases front with
    | nil => exact (cons.inj split).1 ▸ mem_destutter' ..
    | cons first front =>
      rw [cons_append] at split
      obtain ⟨same, tails⟩ := cons.inj split
      subst same
      obtain ⟨unlike, others⟩ := forall_mem_cons.mp fresh
      rw [destutter'_cons]
      by_cases differs : key kept ≠ key next
      · rw [if_pos differs]
        exact mem_cons_of_mem _ (ih tails others)
      · rw [if_neg differs]
        cases front with
        | nil =>
          rw [nil_append] at tails
          rw [(cons.inj tails).1] at differs
          exact absurd unlike differs
        | cons second front =>
          rw [cons_append] at tails
          refine @ih kept (kept :: front) (by rw [(cons.inj tails).2]; rfl) ?_
          exact forall_mem_cons.mpr ⟨unlike, (forall_mem_cons.mp others).2⟩

/-- The first element with its key is kept. -/
theorem mem_destutter_of_first {item : α} {items front back : List α} (split : items = front ++ item :: back)
    (fresh : ∀ other ∈ front, key other ≠ key item) : item ∈ items.destutter fun left right => key left ≠ key right := by
  cases items with
  | nil => simp at split
  | cons first rest => exact mem_destutter'_of_first key split fresh

end Runs

/-- Members of a list without repetition are in one order only. -/
theorem Nodup.not_pair_sublist {left right : α} {items : List α} (distinct : items.Nodup) (differ : left ≠ right)
    (before : [left, right].Sublist items) : ¬[right, left].Sublist items := by
  induction items with
  | nil => cases before
  | cons item rest ih =>
    obtain ⟨absent, distinct⟩ := nodup_cons.mp distinct
    intro after
    cases before with
    | cons _ before =>
      cases after with
      | cons _ after => exact ih distinct before after
      | cons_cons _ after => exact absent (before.subset (by simp))
    | cons_cons _ before =>
      cases after with
      | cons _ after => exact absent (after.subset (by simp))
      | cons_cons _ after => exact differ rfl

end List
