import Mathlib.Data.List.Basic
import Mathlib.Data.List.Perm.Lattice
import Mathlib.Tactic

/-! # Derived deserializers

A text is read into content, from which derived deserializers take structs and internally tagged
enumerations. They accept more than objects with exactly the declared members: the values of a
struct may be a sequence in declaration order, the tag of a sequence comes first, a tag that is
read from buffered content may be the index of a variant, and a unit variant ignores the other
members of its object. Spelling such content out gives objects with exactly the declared members.
-/

/-- The data model that a text is read into. Numbers other than 64-bit naturals are not told apart. -/
inductive Content where
  | null
  | bool (value : Bool)
  | natural (value : UInt64)
  | number
  | string (value : String)
  | seq (items : List Content)
  | map (members : List (String × Content))

namespace Content

/-! ## Deserializers -/

def natural? : Content → Option UInt64
  | natural value => some value
  | _ => none

def string? : Content → Option String
  | string value => some value
  | _ => none

def seq? : Content → Option (List Content)
  | seq items => some items
  | _ => none

/-- The values of the declared fields; unknown, repeated and missing members are errors. -/
def fields (names : List String) : Content → Option (List Content)
  | seq items => if items.length = names.length then some items else none
  | map members =>
      if (∀ member ∈ members, member.1 ∈ names) ∧ (members.map Prod.fst).Nodup then names.mapM (List.lookup · members)
      else none
  | _ => none

/-- The tag of an enumeration, and what its variant is read from. -/
def tagged (tag : String) : Content → Option (Content × Content)
  | seq (first :: rest) => some (first, seq rest)
  | map members =>
      match members.filter (·.1 = tag) with
      | [(_, value)] => some (value, map (members.filter (·.1 ≠ tag)))
      | _ => none
  | _ => none

/-- The variant that a tag names; a tag in buffered content may be its index. -/
def variant (buffered : Bool) (names : List String) : Content → Option String
  | string name => if name ∈ names then some name else none
  | natural index => if buffered then names[index.toNat]? else none
  | _ => none

/-- Whether a unit variant accepts the rest of its content. -/
def unit : Content → Bool
  | seq items => items.isEmpty
  | map _ => true
  | _ => false

section Derived

variable {α β γ : Type}

def struct1 (name : String) (read : Content → Option α) (content : Content) : Option α := do
  match ← content.fields [name] with
  | [value] => read value
  | _ => none

def struct2 (firstName secondName : String) (readFirst : Content → Option α) (readSecond : Content → Option β)
    (content : Content) : Option (α × β) := do
  match ← content.fields [firstName, secondName] with
  | [first, second] => return (← readFirst first, ← readSecond second)
  | _ => none

def struct3 (firstName secondName thirdName : String) (readFirst : Content → Option α) (readSecond : Content → Option β)
    (readThird : Content → Option γ) (content : Content) : Option (α × β × γ) := do
  match ← content.fields [firstName, secondName, thirdName] with
  | [first, second, third] => return (← readFirst first, ← readSecond second, ← readThird third)
  | _ => none

/-- An internally tagged enumeration, whose variant is read from the rest of its content. -/
def internallyTagged (buffered : Bool) (tag : String) (names : List String) (readVariant : String → Content → Option α)
    (content : Content) : Option α := do
  let (found, rest) ← content.tagged tag
  let name ← found.variant buffered names
  readVariant name rest

end Derived

/-! ## Objects -/

/-- An object with exactly the given members, in any order. -/
def IsObject (content : Content) (members : List (String × Content)) : Prop :=
  ∃ given, content = map given ∧ given.Perm members

section Lookup

variable {α β : Type*}

private theorem eq_of_mem_of_nodup {members : List (α × β)} (distinct : (members.map Prod.fst).Nodup) {name : α}
    {left right : β} (first : (name, left) ∈ members) (second : (name, right) ∈ members) : left = right :=
  congrArg Prod.snd (List.inj_on_of_nodup_map distinct first second rfl)

private theorem lookup_eq_some [DecidableEq α] {members : List (α × β)} (distinct : (members.map Prod.fst).Nodup) {name : α} {value : β} :
    members.lookup name = some value ↔ (name, value) ∈ members := by
  induction members with
  | nil => simp
  | cons member rest ih =>
    obtain ⟨key, found⟩ := member
    obtain ⟨absent, distinct⟩ := List.nodup_cons.mp distinct
    rw [List.lookup_cons, List.mem_cons, Prod.mk.injEq]
    by_cases same : name = key
    · subst same
      rw [beq_self_eq_true, Option.some.injEq]
      constructor
      · rintro rfl
        exact .inl ⟨rfl, rfl⟩
      · rintro (⟨-, rfl⟩ | later)
        · rfl
        · exact absurd (List.mem_map_of_mem later) absent
    · rw [beq_eq_false_iff_ne.mpr same, ih distinct]
      exact ⟨.inr, fun found => found.resolve_left fun equal => same equal.1⟩

private theorem mapM_eq_some {find : α → Option β} {names : List α} {values : List β} :
    names.mapM find = some values ↔ List.Forall₂ (fun name value => find name = some value) names values := by
  induction names generalizing values with
  | nil => simp [eq_comm]
  | cons name names ih =>
    rw [List.mapM_cons]
    constructor
    · intro found
      obtain ⟨value, first, rest⟩ := Option.bind_eq_some_iff.mp found
      obtain ⟨later, others, built⟩ := Option.bind_eq_some_iff.mp rest
      obtain rfl := Option.some.inj built
      exact .cons first (ih.mp others)
    · intro found
      cases found with
      | cons first others =>
        rw [first, ih.mpr others]
        rfl

private theorem forall₂_iff_zip {related : α → β → Prop} {names : List α} {values : List β} :
    List.Forall₂ related names values ↔
      values.length = names.length ∧ ∀ name value, (name, value) ∈ names.zip values → related name value := by
  rw [List.forall₂_iff_zip, eq_comm]

end Lookup

/-- The values of fields given by name are those of an object with exactly these fields. -/
theorem fields_map_eq_some {names : List String} (distinct : names.Nodup) {members : List (String × Content)}
    {values : List Content} :
    fields names (map members) = some values ↔ values.length = names.length ∧ members.Perm (names.zip values) := by
  have keys : values.length = names.length → (names.zip values).map Prod.fst = names :=
    fun length => List.map_fst_zip (by omega)
  rw [fields]
  constructor
  · intro found
    split_ifs at found with known
    obtain ⟨declared, once⟩ := known
    obtain ⟨length, each⟩ := forall₂_iff_zip.mp (mapM_eq_some.mp found)
    refine ⟨length, (List.perm_ext_iff_of_nodup (List.Nodup.of_map _ once) ?_).mpr ?_⟩
    · exact List.Nodup.of_map Prod.fst (by rw [keys length]; exact distinct)
    · rintro ⟨name, value⟩
      have back : ∀ value, (name, value) ∈ names.zip values → (name, value) ∈ members :=
        fun value mem => (lookup_eq_some once).mp (each name value mem)
      refine ⟨fun mem => ?_, back value⟩
      have present : name ∈ (names.zip values).map Prod.fst := by
        rw [keys length]
        exact declared _ mem
      obtain ⟨⟨_, other⟩, zipped, rfl⟩ := List.mem_map.mp present
      rw [eq_of_mem_of_nodup once mem (back other zipped)]
      exact zipped
  · rintro ⟨length, same⟩
    have once : (members.map Prod.fst).Nodup := by
      rw [(same.map Prod.fst).nodup_iff, keys length]
      exact distinct
    rw [if_pos]
    · refine mapM_eq_some.mpr (forall₂_iff_zip.mpr ⟨length, fun name value mem => ?_⟩)
      exact (lookup_eq_some once).mpr (same.mem_iff.mpr mem)
    · refine ⟨fun member mem => ?_, once⟩
      rw [← keys length]
      exact List.mem_map_of_mem (same.mem_iff.mp mem)

theorem fields_length {names : List String} {content : Content} {values : List Content}
    (read : content.fields names = some values) : values.length = names.length := by
  cases content with
  | seq items =>
    rw [fields] at read
    split_ifs at read with length
    rw [← Option.some.inj read, length]
  | map members =>
    rw [fields] at read
    split_ifs at read
    exact (forall₂_iff_zip.mp (mapM_eq_some.mp read)).1
  | _ => cases read

/-- The content has the variant's tag, and the variant is read from the rest. -/
def Reads (buffered : Bool) (tag : String) (names : List String) (content : Content) (name : String) (rest : Content) : Prop :=
  ∃ found, content.tagged tag = some (found, rest) ∧ found.variant buffered names = some name

section Derived

variable {α β γ : Type} {content : Content}

theorem struct1_eq_some {name : String} {read : Content → Option α} {result : α} :
    content.struct1 name read = some result ↔ ∃ value, content.fields [name] = some [value] ∧ read value = some result := by
  rw [struct1]
  constructor
  · intro found
    obtain ⟨values, taken, found⟩ := Option.bind_eq_some_iff.mp found
    obtain ⟨value, rfl⟩ := List.length_eq_one_iff.mp (fields_length taken)
    exact ⟨value, taken, found⟩
  · rintro ⟨value, taken, found⟩
    rw [taken]
    exact found

theorem struct2_eq_some {firstName secondName : String} {readFirst : Content → Option α} {readSecond : Content → Option β}
    {result : α × β} :
    content.struct2 firstName secondName readFirst readSecond = some result ↔
      ∃ first second, content.fields [firstName, secondName] = some [first, second] ∧
        readFirst first = some result.1 ∧ readSecond second = some result.2 := by
  rw [struct2]
  constructor
  · intro found
    obtain ⟨values, taken, found⟩ := Option.bind_eq_some_iff.mp found
    obtain ⟨first, second, rfl⟩ := List.length_eq_two.mp (fields_length taken)
    obtain ⟨left, one, found⟩ := Option.bind_eq_some_iff.mp found
    obtain ⟨right, two, built⟩ := Option.bind_eq_some_iff.mp found
    obtain rfl := Option.some.inj built
    exact ⟨first, second, taken, one, two⟩
  · rintro ⟨first, second, taken, one, two⟩
    rw [taken, Option.bind_eq_bind, Option.bind_some]
    dsimp only
    rw [one, two]
    rfl

theorem struct3_eq_some {firstName secondName thirdName : String} {readFirst : Content → Option α}
    {readSecond : Content → Option β} {readThird : Content → Option γ} {result : α × β × γ} :
    content.struct3 firstName secondName thirdName readFirst readSecond readThird = some result ↔
      ∃ first second third, content.fields [firstName, secondName, thirdName] = some [first, second, third] ∧
        readFirst first = some result.1 ∧ readSecond second = some result.2.1 ∧ readThird third = some result.2.2 := by
  rw [struct3]
  constructor
  · intro found
    obtain ⟨values, taken, found⟩ := Option.bind_eq_some_iff.mp found
    obtain ⟨first, second, third, rfl⟩ := List.length_eq_three.mp (fields_length taken)
    obtain ⟨left, one, found⟩ := Option.bind_eq_some_iff.mp found
    obtain ⟨middle, two, found⟩ := Option.bind_eq_some_iff.mp found
    obtain ⟨right, three, built⟩ := Option.bind_eq_some_iff.mp found
    obtain rfl := Option.some.inj built
    exact ⟨first, second, third, taken, one, two, three⟩
  · rintro ⟨first, second, third, taken, one, two, three⟩
    rw [taken, Option.bind_eq_bind, Option.bind_some]
    dsimp only
    rw [one, two, three]
    rfl

theorem internallyTagged_eq_some {buffered : Bool} {tag : String} {names : List String}
    {readVariant : String → Content → Option α} {result : α} :
    content.internallyTagged buffered tag names readVariant = some result ↔
      ∃ name rest, Reads buffered tag names content name rest ∧ readVariant name rest = some result := by
  rw [internallyTagged]
  constructor
  · intro found
    obtain ⟨⟨found', rest⟩, taken, found⟩ := Option.bind_eq_some_iff.mp found
    obtain ⟨name, chosen, found⟩ := Option.bind_eq_some_iff.mp found
    exact ⟨name, rest, ⟨found', taken, chosen⟩, found⟩
  · rintro ⟨name, rest, ⟨found, taken, chosen⟩, read⟩
    rw [taken, Option.bind_eq_bind, Option.bind_some]
    dsimp only
    rw [chosen]
    exact read

/-- A tag names one of the variants. -/
theorem Reads.mem {buffered : Bool} {tag name : String} {names : List String} {rest : Content}
    (reads : Reads buffered tag names content name rest) : name ∈ names := by
  obtain ⟨found, -, chosen⟩ := reads
  cases found with
  | string value =>
    rw [variant] at chosen
    split_ifs at chosen with declared
    rw [← Option.some.inj chosen]
    exact declared
  | natural index =>
    rw [variant] at chosen
    split_ifs at chosen
    exact List.mem_of_getElem? chosen
  | _ => cases chosen

end Derived

/-! ## Spelling out -/

/-- A field by its name, and how its value is spelled out. -/
abbrev Part := String × (Content → Content)

/-- Spelled-out values in declaration order. -/
def spellValues (parts : List Part) (values : List Content) : List Content :=
  List.zipWith (fun part value => part.2 value) parts values

/-- A struct as an object, with its values spelled out. -/
def spellFields (parts : List Part) : Content → Content
  | seq items =>
      if items.length = parts.length then map ((parts.map Prod.fst).zip (spellValues parts items)) else seq items
  | map members => map (members.map fun member => (member.1, ((parts.lookup member.1).getD id) member.2))
  | other => other

/-- An enumeration as an object with its tag; only a struct variant has other members. -/
def spellTagged (buffered : Bool) (tag : String) (names : List String) (shape : String → Option (List Part))
    (content : Content) : Content :=
  match content.tagged tag with
  | none => content
  | some (found, rest) =>
      match found.variant buffered names with
      | none => content
      | some name =>
          match shape name with
          | none => if rest.unit then map [(tag, string name)] else content
          | some parts => spellFields ((tag, fun _ => string name) :: parts) content

private theorem spellValues_length {parts : List Part} {values : List Content} (length : values.length = parts.length) :
    (spellValues parts values).length = parts.length := by
  rw [spellValues, List.length_zipWith, length, Nat.min_self]

private theorem zip_spellValues {parts : List Part} (distinct : (parts.map Prod.fst).Nodup) (values : List Content) :
    (parts.map Prod.fst).zip (spellValues parts values) =
      ((parts.map Prod.fst).zip values).map fun member => (member.1, ((parts.lookup member.1).getD id) member.2) := by
  induction parts generalizing values with
  | nil => rfl
  | cons part parts ih =>
    obtain ⟨absent, distinct⟩ := List.nodup_cons.mp distinct
    cases values with
    | nil => rfl
    | cons value values =>
      have later : ∀ member ∈ (parts.map Prod.fst).zip values, (part :: parts).lookup member.1 = parts.lookup member.1 := by
        rintro ⟨name, other⟩ mem
        have different : name ≠ part.1 := by
          rintro rfl
          exact absent (List.of_mem_zip mem).1
        rw [List.lookup_cons, beq_eq_false_iff_ne.mpr different]
      rw [spellValues, List.zipWith_cons_cons, List.map_cons, List.zip_cons_cons, List.zip_cons_cons, List.map_cons,
        List.lookup_cons, beq_self_eq_true]
      refine congrArg (_ :: ·) ((ih distinct values).trans (List.map_congr_left fun member mem => ?_))
      rw [later member mem]

theorem IsObject.fields {names : List String} (distinct : names.Nodup) {content : Content} {values : List Content}
    (object : content.IsObject (names.zip values)) (length : values.length = names.length) :
    content.fields names = some values := by
  obtain ⟨given, rfl, same⟩ := object
  exact (fields_map_eq_some distinct).mpr ⟨length, same⟩

/-- An object that has the declared members has values for all of them. -/
private theorem fields_of_keys {names : List String} (distinct : names.Nodup) {members : List (String × Content)}
    (keys : (members.map Prod.fst).Perm names) : ∃ values, (map members).fields names = some values := by
  have found : ∃ values, List.Forall₂ (fun name value => members.lookup name = some value) names values := by
    have each : ∀ name ∈ names, ∃ value, members.lookup name = some value := by
      intro name mem
      obtain ⟨⟨_, value⟩, present, rfl⟩ := List.mem_map.mp (keys.mem_iff.mpr mem)
      exact ⟨value, (lookup_eq_some (keys.nodup_iff.mpr distinct)).mpr present⟩
    clear keys distinct
    induction names with
    | nil => exact ⟨[], .nil⟩
    | cons name names ih =>
      obtain ⟨first, later⟩ := List.forall_mem_cons.mp each
      obtain ⟨value, first⟩ := first
      obtain ⟨values, others⟩ := ih later
      exact ⟨value :: values, .cons first others⟩
  obtain ⟨values, found⟩ := found
  refine ⟨values, ?_⟩
  rw [Content.fields, if_pos ⟨fun member mem => keys.mem_iff.mp (List.mem_map_of_mem mem), keys.nodup_iff.mpr distinct⟩]
  exact mapM_eq_some.mpr found

/-- Spelling out keeps the fields, whose values are spelled out. -/
theorem isObject_spellFields {parts : List Part} (distinct : (parts.map Prod.fst).Nodup) {content : Content}
    {values : List Content} :
    (spellFields parts content).IsObject ((parts.map Prod.fst).zip values) ∧ values.length = parts.length ↔
      ∃ given, content.fields (parts.map Prod.fst) = some given ∧ values = spellValues parts given := by
  have named : (parts.map Prod.fst).length = parts.length := List.length_map ..
  have spelled : ∀ given, content.fields (parts.map Prod.fst) = some given →
      (spellFields parts content).IsObject ((parts.map Prod.fst).zip (spellValues parts given)) ∧
        (spellValues parts given).length = parts.length := by
    intro given found
    cases content with
    | seq items =>
      rw [Content.fields] at found
      split_ifs at found with length
      obtain rfl := Option.some.inj found
      rw [named] at length
      rw [spellFields, if_pos length]
      exact ⟨⟨_, rfl, List.Perm.rfl⟩, spellValues_length length⟩
    | map members =>
      obtain ⟨length, same⟩ := (fields_map_eq_some distinct).mp found
      rw [zip_spellValues distinct]
      exact ⟨⟨_, rfl, same.map _⟩, spellValues_length (length.trans named)⟩
    | _ => cases found
  constructor
  · rintro ⟨object, length⟩
    have given : ∃ given, content.fields (parts.map Prod.fst) = some given := by
      obtain ⟨members, shape, same⟩ := object
      cases content with
      | seq items =>
        rw [spellFields] at shape
        split_ifs at shape with complete
        exact ⟨items, by rw [Content.fields, if_pos (complete.trans named.symm)]⟩
      | map original =>
        obtain rfl := Content.map.inj shape
        refine fields_of_keys distinct ?_
        have keys := same.map Prod.fst
        rw [List.map_map, List.map_fst_zip (by omega)] at keys
        exact keys
      | _ => cases shape
    obtain ⟨given, found⟩ := given
    obtain ⟨other, otherLength⟩ := spelled given found
    have left := object.fields distinct (length.trans named.symm)
    rw [other.fields distinct (otherLength.trans named.symm)] at left
    exact ⟨given, found, (Option.some.inj left).symm⟩
  · rintro ⟨given, found, rfl⟩
    exact spelled given found

theorem isObject_spellFields2 {first second : Part} (distinct : first.1 ≠ second.1) {content left right : Content} :
    (spellFields [first, second] content).IsObject [(first.1, left), (second.1, right)] ↔
      ∃ one two, content.fields [first.1, second.1] = some [one, two] ∧ left = first.2 one ∧ right = second.2 two := by
  have spelled := @isObject_spellFields [first, second] (by simpa using distinct) content [left, right]
  refine (and_iff_left rfl).symm.trans (spelled.trans ⟨?_, ?_⟩)
  · rintro ⟨given, read, same⟩
    obtain ⟨one, two, rfl⟩ := List.length_eq_two.mp (fields_length read)
    obtain ⟨same, rest⟩ := List.cons.inj same
    exact ⟨one, two, read, same, (List.cons.inj rest).1⟩
  · rintro ⟨one, two, read, rfl, rfl⟩
    exact ⟨[one, two], read, rfl⟩

theorem isObject_spellFields3 {first second third : Part} (distinct : [first.1, second.1, third.1].Nodup)
    {content left middle right : Content} :
    (spellFields [first, second, third] content).IsObject [(first.1, left), (second.1, middle), (third.1, right)] ↔
      ∃ one two three, content.fields [first.1, second.1, third.1] = some [one, two, three] ∧
        left = first.2 one ∧ middle = second.2 two ∧ right = third.2 three := by
  have spelled := @isObject_spellFields [first, second, third] distinct content [left, middle, right]
  refine (and_iff_left rfl).symm.trans (spelled.trans ⟨?_, ?_⟩)
  · rintro ⟨given, read, same⟩
    obtain ⟨one, two, three, rfl⟩ := List.length_eq_three.mp (fields_length read)
    obtain ⟨same, rest⟩ := List.cons.inj same
    obtain ⟨next, rest⟩ := List.cons.inj rest
    exact ⟨one, two, three, read, same, next, (List.cons.inj rest).1⟩
  · rintro ⟨one, two, three, read, rfl, rfl, rfl⟩
    exact ⟨[one, two, three], read, rfl⟩

/-- An object with exactly the declared members stays as it is when their values do. -/
theorem IsObject.spellFields_eq {parts : List Part} (distinct : (parts.map Prod.fst).Nodup) {content : Content}
    {values : List Content} (object : content.IsObject ((parts.map Prod.fst).zip values))
    (kept : spellValues parts values = values) : spellFields parts content = content := by
  obtain ⟨members, rfl, same⟩ := object
  have fixed := zip_spellValues distinct values
  rw [kept] at fixed
  have each := List.map_inj_left.mp ((List.map_id _).trans fixed)
  rw [spellFields]
  exact congrArg map ((List.map_congr_left fun member mem => (each member (same.mem_iff.mp mem)).symm).trans (List.map_id _))

/-! ## Tags -/

private theorem tagged_map_eq_some {tag : String} {members : List (String × Content)} {found rest : Content} :
    (map members).tagged tag = some (found, rest) ↔
      members.filter (·.1 = tag) = [(tag, found)] ∧ rest = map (members.filter (·.1 ≠ tag)) := by
  have named : ∀ member ∈ members.filter (·.1 = tag), member.1 = tag :=
    fun member mem => of_decide_eq_true (List.mem_filter.mp mem).2
  rw [tagged]
  constructor
  · intro taken
    split at taken
    · next name value only =>
      obtain ⟨rfl, rfl⟩ := Prod.mk.inj (Option.some.inj taken)
      rw [only] at named ⊢
      obtain rfl : name = tag := named _ (List.mem_singleton_self _)
      exact ⟨rfl, rfl⟩
    · cases taken
  · rintro ⟨only, rfl⟩
    rw [only]

private theorem filter_tag {tag : String} {names : List String} (new : tag ∉ names) {found : Content} {values : List Content} :
    ((tag, found) :: names.zip values).filter (·.1 = tag) = [(tag, found)] ∧
      ((tag, found) :: names.zip values).filter (·.1 ≠ tag) = names.zip values := by
  have other : ∀ member ∈ names.zip values, member.1 ≠ tag := by
    rintro ⟨name, value⟩ mem rfl
    exact new (List.of_mem_zip mem).1
  constructor
  · rw [List.filter_cons_of_pos (by simp), List.filter_eq_nil_iff.mpr]
    exact fun member mem => by simpa using other member mem
  · rw [List.filter_cons_of_neg (by simp), List.filter_eq_self]
    exact fun member mem => decide_eq_true (other member mem)

/-- The tag is one more field of a struct variant, before the others. -/
theorem tagged_fields {tag : String} {names : List String} (new : tag ∉ names) (distinct : names.Nodup)
    {content found : Content} {values : List Content} :
    (∃ rest, content.tagged tag = some (found, rest) ∧ rest.fields names = some values) ↔
      content.fields (tag :: names) = some (found :: values) := by
  cases content with
  | seq items =>
    cases items with
    | nil =>
      constructor
      · rintro ⟨_, impossible, -⟩
        cases impossible
      · intro impossible
        rw [Content.fields, if_neg (by simp)] at impossible
        cases impossible
    | cons first items =>
      rw [Content.fields, List.length_cons, List.length_cons]
      constructor
      · rintro ⟨rest, taken, read⟩
        obtain ⟨rfl, rfl⟩ := Prod.mk.inj (Option.some.inj taken)
        rw [Content.fields] at read
        split_ifs at read with length
        rw [if_pos (congrArg Nat.succ length), Option.some.inj read]
      · intro read
        split_ifs at read with length
        obtain ⟨rfl, rfl⟩ := List.cons.inj (Option.some.inj read)
        exact ⟨_, rfl, by rw [Content.fields, if_pos (Nat.succ.inj length)]⟩
  | map members =>
    rw [fields_map_eq_some (List.nodup_cons.mpr ⟨new, distinct⟩), List.zip_cons_cons]
    constructor
    · rintro ⟨rest, taken, read⟩
      obtain ⟨only, rfl⟩ := tagged_map_eq_some.mp taken
      obtain ⟨length, same⟩ := (fields_map_eq_some distinct).mp read
      refine ⟨congrArg Nat.succ length, ?_⟩
      have parts := List.filter_append_perm (fun member : String × Content => decide (member.1 = tag)) members
      rw [only] at parts
      refine parts.symm.trans (List.Perm.cons _ ?_)
      simpa using same
    · rintro ⟨length, same⟩
      obtain ⟨only, others⟩ := @filter_tag _ _ new found values
      have tags := same.filter (·.1 = tag)
      have rest := same.filter (·.1 ≠ tag)
      rw [only] at tags
      rw [others] at rest
      exact ⟨_, tagged_map_eq_some.mpr ⟨List.perm_singleton.mp tags, rfl⟩,
        (fields_map_eq_some distinct).mpr ⟨Nat.succ.inj length, rest⟩⟩
  | _ =>
    constructor
    · rintro ⟨_, impossible, -⟩
      cases impossible
    · intro impossible
      cases impossible

section Enumerations

variable {buffered : Bool} {tag name : String} {names : List String} {shape : String → Option (List Part)} {parts : List Part}
  {content : Content} {values : List Content}

/-- What is spelled out has the given tag. -/
private theorem spellFields_tag {value : Content} {members : List (String × Content)} (new : tag ∉ parts.map Prod.fst)
    (spelled : spellFields ((tag, fun _ => value) :: parts) content = map members) {found : Content}
    (mem : (tag, found) ∈ members) : found = value := by
  cases content with
  | seq items =>
    rw [spellFields] at spelled
    split_ifs at spelled with length
    obtain rfl := Content.map.inj spelled
    cases items with
    | nil => cases length
    | cons item items =>
      rw [spellValues, List.zipWith_cons_cons, List.map_cons, List.zip_cons_cons, List.mem_cons] at mem
      rcases mem with first | later
      · exact (Prod.mk.inj first).2
      · exact absurd (List.of_mem_zip later).1 new
  | map original =>
    obtain rfl := Content.map.inj spelled
    obtain ⟨⟨_, _⟩, -, same⟩ := List.mem_map.mp mem
    obtain ⟨rfl, rfl⟩ := Prod.mk.inj same
    simp
  | _ => cases spelled

/-- An object with a tag has it. -/
private theorem IsObject.tagged {others : List String} (new : tag ∉ others) (distinct : others.Nodup)
    (length : values.length = others.length)
    (object : content.IsObject ((tag, string name) :: others.zip values)) :
    ∃ rest, content.tagged tag = some (string name, rest) ∧ rest.unit = true := by
  have read : content.fields (tag :: others) = some (string name :: values) :=
    IsObject.fields (List.nodup_cons.mpr ⟨new, distinct⟩) object (congrArg Nat.succ length)
  obtain ⟨rest, taken, -⟩ := (tagged_fields new distinct).mpr read
  obtain ⟨members, rfl, -⟩ := object
  obtain ⟨-, rfl⟩ := tagged_map_eq_some.mp taken
  exact ⟨_, taken, rfl⟩

private theorem variant_name (declared : name ∈ names) : (string name).variant buffered names = some name := if_pos declared

/-- The tag of what is spelled out names the variant. -/
private theorem spellTagged_variant (fresh : ∀ name parts, shape name = some parts → tag ∉ parts.map Prod.fst)
    (declared : name ∈ names) {others : List String} (new : tag ∉ others) (distinct : others.Nodup)
    (length : values.length = others.length)
    (object : (spellTagged buffered tag names shape content).IsObject ((tag, string name) :: others.zip values)) :
    ∃ rest, Reads buffered tag names content name rest := by
  rw [spellTagged.eq_def] at object
  cases taken : content.tagged tag with
  | none =>
    rw [taken] at object
    obtain ⟨_, impossible, -⟩ := IsObject.tagged new distinct length object
    cases taken.symm.trans impossible
  | some result =>
    obtain ⟨found, rest⟩ := result
    refine ⟨rest, found, taken, ?_⟩
    rw [taken] at object
    dsimp only at object
    cases chosen : found.variant buffered names with
    | none =>
      rw [chosen] at object
      obtain ⟨_, again, -⟩ := IsObject.tagged new distinct length object
      obtain ⟨rfl, -⟩ := Prod.mk.inj (Option.some.inj (taken.symm.trans again))
      cases chosen.symm.trans (variant_name declared)
    | some other =>
      rw [chosen] at object
      dsimp only at object
      cases formed : shape other with
      | none =>
        rw [formed] at object
        dsimp only at object
        split_ifs at object with empty
        · obtain ⟨members, shape, same⟩ := object
          obtain rfl := Content.map.inj shape
          have only := List.mem_singleton.mp (same.mem_iff.mpr (List.mem_cons_self ..))
          rw [Content.string.inj (Prod.mk.inj only).2]
        · obtain ⟨_, again, unit⟩ := IsObject.tagged new distinct length object
          obtain ⟨-, rfl⟩ := Prod.mk.inj (Option.some.inj (taken.symm.trans again))
          exact absurd unit empty
      | some parts =>
        rw [formed] at object
        obtain ⟨members, spelled, same⟩ := object
        have value := spellFields_tag (fresh other parts formed) spelled (same.mem_iff.mpr (List.mem_cons_self ..))
        rw [Content.string.inj value]

/-- A struct variant that is spelled out is an object with its tag and its fields. -/
theorem isObject_spellTagged (fresh : ∀ name parts, shape name = some parts → tag ∉ parts.map Prod.fst)
    (declared : name ∈ names) (formed : shape name = some parts) (distinct : (parts.map Prod.fst).Nodup) :
    (spellTagged buffered tag names shape content).IsObject ((tag, string name) :: (parts.map Prod.fst).zip values) ∧
        values.length = parts.length ↔
      ∃ rest given, Reads buffered tag names content name rest ∧ rest.fields (parts.map Prod.fst) = some given ∧
        values = spellValues parts given := by
  have new := fresh name parts formed
  have named : (parts.map Prod.fst).length = parts.length := List.length_map ..
  have whole : (((tag, fun _ => string name) :: parts).map Prod.fst).Nodup := List.nodup_cons.mpr ⟨new, distinct⟩
  have spelled : ∀ {found rest}, content.tagged tag = some (found, rest) → found.variant buffered names = some name →
      spellTagged buffered tag names shape content = spellFields ((tag, fun _ => string name) :: parts) content := by
    intro found rest taken chosen
    rw [spellTagged.eq_def, taken]
    dsimp only
    rw [chosen]
    dsimp only
    rw [formed]
  constructor
  · rintro ⟨object, length⟩
    obtain ⟨rest, found, taken, chosen⟩ := spellTagged_variant fresh declared new distinct (length.trans named.symm) object
    rw [spelled taken chosen] at object
    obtain ⟨given, read, same⟩ := (@isObject_spellFields _ whole _ (string name :: values)).mp ⟨object, congrArg Nat.succ length⟩
    cases given with
    | nil => cases same
    | cons first given =>
      obtain ⟨rest', again, others⟩ := (tagged_fields new distinct).mpr read
      obtain ⟨rfl, rfl⟩ := Prod.mk.inj (Option.some.inj (taken.symm.trans again))
      exact ⟨rest, given, ⟨found, taken, chosen⟩, others, (List.cons.inj same).2⟩
  · rintro ⟨rest, given, ⟨found, taken, chosen⟩, read, rfl⟩
    have all := (tagged_fields new distinct).mp ⟨rest, taken, read⟩
    obtain ⟨object, length⟩ := (isObject_spellFields whole).mpr ⟨_, all, rfl⟩
    rw [spelled taken chosen]
    exact ⟨object, Nat.succ.inj length⟩

theorem isObject_spellTagged2 (fresh : ∀ name parts, shape name = some parts → tag ∉ parts.map Prod.fst)
    (declared : name ∈ names) {first second : Part} (formed : shape name = some [first, second])
    (distinct : first.1 ≠ second.1) {left right : Content} :
    (spellTagged buffered tag names shape content).IsObject [(tag, string name), (first.1, left), (second.1, right)] ↔
      ∃ rest one two, Reads buffered tag names content name rest ∧ rest.fields [first.1, second.1] = some [one, two] ∧
        left = first.2 one ∧ right = second.2 two := by
  have spelled := @isObject_spellTagged buffered tag name names shape [first, second] content [left, right] fresh declared formed
    (by simpa using distinct)
  refine (and_iff_left rfl).symm.trans (spelled.trans ⟨?_, ?_⟩)
  · rintro ⟨rest, given, reads, read, same⟩
    obtain ⟨one, two, rfl⟩ := List.length_eq_two.mp (fields_length read)
    obtain ⟨same, others⟩ := List.cons.inj same
    exact ⟨rest, one, two, reads, read, same, (List.cons.inj others).1⟩
  · rintro ⟨rest, one, two, reads, read, rfl, rfl⟩
    exact ⟨rest, [one, two], reads, read, rfl⟩

private theorem spellValues_plain {fieldNames : List String} {given : List Content} (length : given.length = fieldNames.length) :
    spellValues (fieldNames.map fun field => (field, id)) given = given := by
  induction fieldNames generalizing given with
  | nil => exact (List.length_eq_zero_iff.mp length).symm
  | cons field fieldNames ih =>
    cases given with
    | nil => cases length
    | cons value given => exact congrArg (value :: ·) (ih (Nat.succ.inj length))

/-- A struct variant whose fields need no spelling out. -/
theorem isObject_spellTagged_plain (fresh : ∀ name parts, shape name = some parts → tag ∉ parts.map Prod.fst)
    (declared : name ∈ names) {fieldNames : List String} (formed : shape name = some (fieldNames.map fun field => (field, id)))
    (distinct : fieldNames.Nodup) (length : values.length = fieldNames.length) :
    (spellTagged buffered tag names shape content).IsObject ((tag, string name) :: fieldNames.zip values) ↔
      ∃ rest, Reads buffered tag names content name rest ∧ rest.fields fieldNames = some values := by
  have same : (fieldNames.map fun field => ((field, id) : Part)).map Prod.fst = fieldNames := by
    rw [List.map_map]
    exact List.map_id _
  have spelled := @isObject_spellTagged buffered tag name names shape _ content values fresh declared formed
    (same.symm ▸ distinct)
  rw [same, List.length_map, and_iff_left length] at spelled
  rw [spelled]
  constructor
  · rintro ⟨rest, given, reads, taken, rfl⟩
    rw [spellValues_plain (fields_length taken)]
    exact ⟨rest, reads, taken⟩
  · rintro ⟨rest, reads, taken⟩
    exact ⟨rest, values, reads, taken, (spellValues_plain length).symm⟩

/-- A unit variant that is spelled out is an object with its tag. -/
theorem isObject_spellTagged_unit (fresh : ∀ name parts, shape name = some parts → tag ∉ parts.map Prod.fst)
    (declared : name ∈ names) (formed : shape name = none) :
    (spellTagged buffered tag names shape content).IsObject [(tag, string name)] ↔
      ∃ rest, Reads buffered tag names content name rest ∧ rest.unit = true := by
  have alone : (tag, string name) :: ([] : List String).zip ([] : List Content) = [(tag, string name)] := rfl
  constructor
  · intro object
    obtain ⟨rest, found, taken, chosen⟩ :=
      spellTagged_variant fresh declared List.not_mem_nil List.nodup_nil rfl (alone.symm ▸ object)
    refine ⟨rest, ⟨found, taken, chosen⟩, ?_⟩
    rw [spellTagged.eq_def, taken] at object
    dsimp only at object
    rw [chosen] at object
    dsimp only at object
    rw [formed] at object
    dsimp only at object
    split_ifs at object with unit
    · exact unit
    · obtain ⟨_, again, unit⟩ := IsObject.tagged List.not_mem_nil List.nodup_nil rfl (alone.symm ▸ object)
      obtain ⟨-, rfl⟩ := Prod.mk.inj (Option.some.inj (taken.symm.trans again))
      exact unit
  · rintro ⟨rest, ⟨found, taken, chosen⟩, unit⟩
    rw [spellTagged.eq_def, taken]
    dsimp only
    rw [chosen]
    dsimp only
    rw [formed]
    dsimp only
    rw [if_pos unit]
    exact ⟨_, rfl, List.Perm.rfl⟩

/-- A spelled-out struct variant stays as it is when its values do. -/
theorem IsObject.spellTagged_eq (declared : name ∈ names) (formed : shape name = some parts)
    (distinct : (tag :: parts.map Prod.fst).Nodup)
    (object : content.IsObject ((tag, string name) :: (parts.map Prod.fst).zip values)) (length : values.length = parts.length)
    (kept : spellValues parts values = values) : spellTagged buffered tag names shape content = content := by
  obtain ⟨new, others⟩ := List.nodup_cons.mp distinct
  obtain ⟨rest, taken, -⟩ := IsObject.tagged new others (length.trans (List.length_map ..).symm) object
  rw [spellTagged.eq_def, taken]
  dsimp only
  rw [variant_name declared]
  dsimp only
  rw [formed]
  exact @IsObject.spellFields_eq ((tag, fun _ => string name) :: parts) distinct _ (string name :: values) object
    (congrArg (_ :: ·) kept)

theorem IsObject.spellTagged_plain_eq (declared : name ∈ names) {fieldNames : List String}
    (formed : shape name = some (fieldNames.map fun field => (field, id))) (distinct : (tag :: fieldNames).Nodup)
    (object : content.IsObject ((tag, string name) :: fieldNames.zip values)) (length : values.length = fieldNames.length) :
    spellTagged buffered tag names shape content = content := by
  have same : (fieldNames.map fun field => ((field, id) : Part)).map Prod.fst = fieldNames := by
    rw [List.map_map]
    exact List.map_id _
  exact IsObject.spellTagged_eq declared formed (same.symm ▸ distinct) (same.symm ▸ object)
    (length.trans (List.length_map ..).symm) (spellValues_plain length)

/-- A spelled-out unit variant stays as it is. -/
theorem IsObject.spellTagged_unit_eq (declared : name ∈ names) (formed : shape name = none)
    (object : content.IsObject [(tag, string name)]) : spellTagged buffered tag names shape content = content := by
  obtain ⟨rest, taken, unit⟩ := @IsObject.tagged _ _ _ [] [] List.not_mem_nil List.nodup_nil rfl object
  obtain ⟨given, rfl, same⟩ := object
  rw [spellTagged.eq_def, taken]
  dsimp only
  rw [variant_name declared]
  dsimp only
  rw [formed]
  dsimp only
  rw [if_pos unit, List.perm_singleton.mp same]

end Enumerations

end Content
