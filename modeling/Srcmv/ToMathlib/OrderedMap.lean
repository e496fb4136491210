import Mathlib.Tactic
import Std.Data.ExtTreeMap

/-! # Maps over an ordered key type

Looking up after an alteration with the keys compared by equality, composing alterations, and maps
with one entry. Two trees whose lookups correspond list corresponding entries.
-/

namespace OrderedMap

variable {α β : Type*} [Ord α] [Std.TransOrd α] [Std.LawfulEqOrd α] {map : Std.ExtTreeMap α β} {key : α}

omit [Std.TransOrd α] in
theorem compare_eq_iff {left right : α} : compare left right = .eq ↔ left = right :=
  Std.LawfulEqCmp.compare_eq_iff_eq

theorem getElem?_alter [DecidableEq α] (map : Std.ExtTreeMap α β) (key other : α) (update : Option β → Option β) :
    (map.alter key update)[other]? = if key = other then update map[key]? else map[other]? := by
  rw [Std.ExtTreeMap.getElem?_alter]
  by_cases same : key = other
  · rw [if_pos (compare_eq_iff.mpr same), if_pos same]
  · rw [if_neg (fun equal => same (compare_eq_iff.mp equal)), if_neg same]

theorem getElem?_erase [DecidableEq α] (map : Std.ExtTreeMap α β) (key other : α) :
    (map.erase key)[other]? = if key = other then none else map[other]? := by
  rw [Std.ExtTreeMap.getElem?_erase]
  by_cases same : key = other
  · rw [if_pos (compare_eq_iff.mpr same), if_pos same]
  · rw [if_neg (fun equal => same (compare_eq_iff.mp equal)), if_neg same]

theorem getElem?_insert [DecidableEq α] (map : Std.ExtTreeMap α β) (key other : α) (value : β) :
    (map.insert key value)[other]? = if key = other then some value else map[other]? := by
  rw [Std.ExtTreeMap.getElem?_insert]
  by_cases same : key = other
  · rw [if_pos (compare_eq_iff.mpr same), if_pos same]
  · rw [if_neg (fun equal => same (compare_eq_iff.mp equal)), if_neg same]

theorem alter_alter [DecidableEq α] (map : Std.ExtTreeMap α β) (key : α) (first second : Option β → Option β) :
    (map.alter key first).alter key second = map.alter key fun value => second (first value) := by
  apply Std.ExtTreeMap.ext_getElem?
  intro other
  rw [getElem?_alter, getElem?_alter, getElem?_alter, getElem?_alter]
  by_cases same : key = other
  · rw [if_pos same, if_pos rfl, if_pos same]
  · rw [if_neg same, if_neg same, if_neg same]

/-- An alteration that keeps the value keeps the map. -/
theorem alter_of_keeps [DecidableEq α] {update : Option β → Option β} (keeps : update map[key]? = map[key]?) :
    map.alter key update = map := by
  apply Std.ExtTreeMap.ext_getElem?
  intro other
  rw [getElem?_alter]
  split
  · next same => rw [keeps, same]
  · rfl

/-- Changing one value changes one entry of the list. -/
theorem toList_alter_map [DecidableEq α] (map : Std.ExtTreeMap α β) (key : α) (update : β → β) :
    (map.alter key fun value => value.map update).toList =
      map.toList.map fun entry => if entry.1 = key then (entry.1, update entry.2) else entry := by
  have mapped : map.alter key (fun value => value.map update) =
      map.map fun other value => if other = key then update value else value := by
    apply Std.ExtTreeMap.ext_getElem?
    intro other
    rw [getElem?_alter, Std.ExtTreeMap.getElem?_map]
    by_cases same : key = other
    · subst same
      rw [if_pos rfl]
      exact congrArg (Option.map · map[key]?) (funext fun value => (if_pos rfl).symm)
    · rw [if_neg same]
      cases map[other]? with
      | none => rfl
      | some value => rw [Option.map_some, if_neg (Ne.symm same)]
  rw [mapped, Std.ExtTreeMap.toList_map]
  refine List.map_congr_left fun entry _ => ?_
  split <;> rfl

theorem nodup_keys (map : Std.ExtTreeMap α β) : map.keys.Nodup := by
  refine map.ordered_keys.imp fun {left right} less equal => ?_
  rw [equal, show compare right right = .eq from Std.ReflCmp.compare_self] at less
  cases less

/-- The map has exactly one entry. -/
structure Only (map : Std.ExtTreeMap α β) (key : α) (value : β) : Prop where
  here : map[key]? = some value
  single : ∀ other, other ∈ map → other = key

theorem Only.toList {value : β} (only : Only map key value) : map.toList = [(key, value)] := by
  have members : ∀ entry, entry ∈ map.toList ↔ entry = (key, value) := by
    rintro ⟨other, found⟩
    rw [Std.ExtTreeMap.mem_toList_iff_getElem?_eq_some, Prod.mk.injEq]
    constructor
    · intro here
      obtain rfl := only.single other (Std.ExtTreeMap.mem_iff_isSome_getElem?.mpr (by rw [here]; rfl))
      exact ⟨rfl, Option.some.inj (here.symm.trans only.here)⟩
    · rintro ⟨rfl, rfl⟩
      exact only.here
  have distinct : map.toList.Nodup := by
    have keys := nodup_keys map
    rw [← Std.ExtTreeMap.map_fst_toList_eq_keys] at keys
    exact keys.of_map
  have perm : map.toList.Perm [(key, value)] :=
    (List.perm_ext_iff_of_nodup distinct (List.nodup_singleton _)).mpr fun entry => by
      rw [members, List.mem_singleton]
  exact List.perm_singleton.mp perm

theorem Only.alter [DecidableEq α] {value : β} (only : Only map key value) (update : β → β) :
    Only (map.alter key fun value => value.map update) key (update value) where
  here := by rw [getElem?_alter, if_pos rfl, only.here]; rfl
  single other member := by
    rw [Std.ExtTreeMap.mem_iff_isSome_getElem?, getElem?_alter] at member
    split at member
    · next same => exact same.symm
    · exact only.single other (Std.ExtTreeMap.mem_iff_isSome_getElem?.mpr member)

theorem Only.erase [DecidableEq α] {value : β} (only : Only map key value) : map.erase key = ∅ := by
  apply Std.ExtTreeMap.ext_getElem?
  intro other
  rw [getElem?_erase, Std.ExtTreeMap.getElem?_empty]
  split
  · rfl
  · next different =>
    rw [Std.ExtTreeMap.getElem?_eq_none]
    exact fun member => different (only.single other member).symm

theorem Only.of_insert_empty (key : α) (value : β) : Only ((∅ : Std.ExtTreeMap α β).insert key value) key value where
  here := by rw [Std.ExtTreeMap.getElem?_insert_self]
  single other member := by
    rw [Std.ExtTreeMap.mem_insert] at member
    rcases member with same | impossible
    · exact (compare_eq_iff.mp same).symm
    · exact absurd impossible Std.ExtTreeMap.not_mem_empty

section Trees

variable {γ : Type*} {left : Std.TreeMap α β} {right : Std.TreeMap α γ}

omit [Std.LawfulEqOrd α] in
private theorem tree_toList_nodup (tree : Std.TreeMap α β) : tree.toList.Nodup := by
  have keys := @Std.TreeMap.nodup_keys _ _ _ tree _
  rw [← Std.TreeMap.map_fst_toList_eq_keys] at keys
  exact keys.of_map

/-- Trees with the same lookups list the same entries. -/
theorem tree_toList_eq {left right : Std.TreeMap α β} (lookups : ∀ key : α, right[key]? = left[key]?) :
    right.toList = left.toList := by
  have perm : right.toList.Perm left.toList := by
    apply (List.perm_ext_iff_of_nodup (tree_toList_nodup right) (tree_toList_nodup left)).mpr
    rintro ⟨key, value⟩
    rw [Std.TreeMap.mem_toList_iff_getElem?_eq_some, Std.TreeMap.mem_toList_iff_getElem?_eq_some, lookups]
  exact (Std.TreeMap.Equiv.of_toList_perm perm).toList_eq

/-- Trees whose lookups correspond by a change of value list corresponding entries. -/
theorem tree_toList_map {change : β → γ} (lookups : ∀ key : α, right[key]? = left[key]?.map change) :
    right.toList = left.toList.map fun entry => (entry.1, change entry.2) := by
  rw [← @Std.TreeMap.toList_map _ _ _ _ left fun _ => change]
  apply tree_toList_eq
  intro key
  rw [lookups, Std.TreeMap.getElem?_map]

/-- A new entry is the only change of an insertion. -/
theorem tree_getElem?_insert_new {tree : Std.TreeMap α β} {key other : α} {value found : β}
    (new : tree[key]? = none) :
    (tree.insert key value)[other]? = some found ↔ tree[other]? = some found ∨ key = other ∧ value = found := by
  rw [Std.TreeMap.getElem?_insert]
  by_cases same : key = other
  · subst same
    rw [if_pos (compare_eq_iff.mpr rfl), new]
    simp
  · rw [if_neg (fun equal => same (compare_eq_iff.mp equal))]
    simp [same]

end Trees

end OrderedMap
