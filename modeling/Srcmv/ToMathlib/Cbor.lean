import Mathlib.Tactic

/-! # A reader for definite-length CBOR

Unsigned integers, byte and text strings, arrays and `null`. The reader takes any of the five forms
of an argument and reports whether every head it met had the shortest one. The writer uses the
shortest form throughout, so what it writes is read back whole, in shortest form, and writing is
injective on the items whose arguments fit eight bytes.
-/

namespace DeterministicCbor

/-- The octets of a value, most significant first. -/
def octets : ℕ → ℕ → List UInt8
  | 0, _ => []
  | width + 1, value => octets width (value / 256) ++ [UInt8.ofNat (value % 256)]

def ofOctets (bytes : List UInt8) : ℕ := bytes.foldl (fun value byte => value * 256 + byte.toNat) 0

@[simp] theorem length_octets (width value : ℕ) : (octets width value).length = width := by
  induction width generalizing value with
  | zero => rfl
  | succ width ih => rw [octets, List.length_append, ih]; rfl

theorem ofOctets_octets (width value : ℕ) (bound : value < 256 ^ width) : ofOctets (octets width value) = value := by
  induction width generalizing value with
  | zero =>
    rw [pow_zero] at bound
    obtain rfl : value = 0 := by omega
    rfl
  | succ width ih =>
    rw [pow_succ] at bound
    have high := ih (value / 256) (Nat.div_lt_of_lt_mul (by omega))
    rw [ofOctets] at high
    rw [ofOctets, octets, List.foldl_append, high]
    simp only [List.foldl_cons, List.foldl_nil, UInt8.toNat_ofNat']
    omega

/-- A data item. Text is kept as its octets. -/
inductive Item where
  | unsigned (value : ℕ)
  | bytes (content : List UInt8)
  | text (content : List UInt8)
  | array (items : List Item)
  | null

section Heads

/-- A major type with its argument in the shortest form. -/
def writeHead (major value : ℕ) : List UInt8 :=
  if value ≤ 23 then [UInt8.ofNat (major * 32 + value)]
  else if value ≤ 0xff then UInt8.ofNat (major * 32 + 24) :: octets 1 value
  else if value ≤ 0xffff then UInt8.ofNat (major * 32 + 25) :: octets 2 value
  else if value ≤ 0xffffffff then UInt8.ofNat (major * 32 + 26) :: octets 4 value
  else UInt8.ofNat (major * 32 + 27) :: octets 8 value

/-- What a head says: the major type, the argument, and whether a shorter form would have done. -/
structure Head where
  major : ℕ
  value : ℕ
  shortest : Bool

/-- An argument of some width, which is the shortest form beyond what the next narrower one holds. -/
def readArgument (major width narrower : ℕ) (bytes : List UInt8) : Option (Head × List UInt8) :=
  if width ≤ bytes.length then
    some (⟨major, ofOctets (bytes.take width), narrower < ofOctets (bytes.take width)⟩, bytes.drop width)
  else none

def readHead : List UInt8 → Option (Head × List UInt8)
  | [] => none
  | lead :: rest =>
      let major := lead.toNat / 32
      let information := lead.toNat % 32
      if information ≤ 23 then some (⟨major, information, true⟩, rest)
      else if information = 24 then readArgument major 1 23 rest
      else if information = 25 then readArgument major 2 0xff rest
      else if information = 26 then readArgument major 4 0xffff rest
      else if information = 27 then readArgument major 8 0xffffffff rest
      else none

theorem writeHead_ne_nil (major value : ℕ) : 1 ≤ (writeHead major value).length := by
  unfold writeHead
  split_ifs <;> simp

private theorem lead_parts {major information : ℕ} (small : major < 8) (bound : information < 32) :
    (UInt8.ofNat (major * 32 + information)).toNat / 32 = major ∧
      (UInt8.ofNat (major * 32 + information)).toNat % 32 = information := by
  rw [UInt8.toNat_ofNat']
  omega

private theorem readArgument_octets {major width narrower value : ℕ} {rest : List UInt8} (fits : value < 256 ^ width)
    (wide : narrower < value) : readArgument major width narrower (octets width value ++ rest) = some (⟨major, value, true⟩, rest) := by
  have length := length_octets width value
  unfold readArgument
  rw [if_pos (by rw [List.length_append]; omega), List.take_left' length, List.drop_left' length, ofOctets_octets width value fits,
    decide_eq_true wide]

theorem readHead_writeHead {major value : ℕ} {rest : List UInt8} (small : major < 8) (fits : value < 2 ^ 64) :
    readHead (writeHead major value ++ rest) = some (⟨major, value, true⟩, rest) := by
  unfold writeHead
  split_ifs with tiny one two four
  · obtain ⟨high, low⟩ := lead_parts small (show value < 32 by omega)
    rw [List.singleton_append, readHead]
    rw [high, low, if_pos tiny]
  · obtain ⟨high, low⟩ := lead_parts small (show 24 < 32 by norm_num)
    rw [List.cons_append, readHead]
    rw [high, low, if_neg (by norm_num), if_pos rfl, readArgument_octets (by norm_num; omega) (by omega)]
  · obtain ⟨high, low⟩ := lead_parts small (show 25 < 32 by norm_num)
    rw [List.cons_append, readHead]
    rw [high, low, if_neg (by norm_num), if_neg (by norm_num), if_pos rfl, readArgument_octets (by norm_num; omega) (by omega)]
  · obtain ⟨high, low⟩ := lead_parts small (show 26 < 32 by norm_num)
    rw [List.cons_append, readHead]
    rw [high, low, if_neg (by norm_num), if_neg (by norm_num), if_neg (by norm_num), if_pos rfl,
      readArgument_octets (by norm_num; omega) (by omega)]
  · obtain ⟨high, low⟩ := lead_parts small (show 27 < 32 by norm_num)
    rw [List.cons_append, readHead]
    rw [high, low, if_neg (by norm_num), if_neg (by norm_num), if_neg (by norm_num), if_neg (by norm_num), if_pos rfl,
      readArgument_octets (by norm_num; omega) (by omega)]

end Heads

section Items

mutual

def Item.write : Item → List UInt8
  | .unsigned value => writeHead 0 value
  | .bytes content => writeHead 2 content.length ++ content
  | .text content => writeHead 3 content.length ++ content
  | .array items => writeHead 4 items.length ++ Item.writeAll items
  | .null => [0xf6]

def Item.writeAll : List Item → List UInt8
  | [] => []
  | item :: items => item.write ++ Item.writeAll items

end

mutual

/-- Every argument fits eight octets. -/
def Item.Fits : Item → Prop
  | .unsigned value => value < 2 ^ 64
  | .bytes content => content.length < 2 ^ 64
  | .text content => content.length < 2 ^ 64
  | .array items => items.length < 2 ^ 64 ∧ Item.AllFit items
  | .null => True

def Item.AllFit : List Item → Prop
  | [] => True
  | item :: items => item.Fits ∧ Item.AllFit items

end

/-- A string of some length. -/
def readContent (length : ℕ) (bytes : List UInt8) : Option (List UInt8 × List UInt8) :=
  if length ≤ bytes.length then some (bytes.take length, bytes.drop length) else none

mutual

/-- Read one item; the flag tells whether all its heads are in shortest form. -/
def readItem : ℕ → List UInt8 → Option (Item × Bool × List UInt8)
  | 0, _ => none
  | fuel + 1, bytes =>
      match readHead bytes with
      | none => none
      | some (head, rest) =>
          if head.major = 0 then some (.unsigned head.value, head.shortest, rest)
          else if head.major = 2 then
            (readContent head.value rest).map fun content => (.bytes content.1, head.shortest, content.2)
          else if head.major = 3 then
            (readContent head.value rest).map fun content => (.text content.1, head.shortest, content.2)
          else if head.major = 4 then
            (readItems fuel head.value rest).map fun items => (.array items.1, head.shortest && items.2.1, items.2.2)
          else if head.major = 7 ∧ head.value = 22 then some (.null, head.shortest, rest)
          else none

def readItems : ℕ → ℕ → List UInt8 → Option (List Item × Bool × List UInt8)
  | _, 0, bytes => some ([], true, bytes)
  | 0, _ + 1, _ => none
  | fuel + 1, count + 1, bytes =>
      match readItem fuel bytes with
      | none => none
      | some (item, shortest, rest) =>
          (readItems fuel count rest).map fun items => (item :: items.1, shortest && items.2.1, items.2.2)

end

/-- Read one item from the front. -/
def read (bytes : List UInt8) : Option (Item × Bool × List UInt8) := readItem (2 * bytes.length) bytes

private theorem readContent_append (content rest : List UInt8) :
    readContent content.length (content ++ rest) = some (content, rest) := by
  rw [readContent, if_pos (by rw [List.length_append]; omega), List.take_left, List.drop_left]

theorem Item.one_le_length_write (item : Item) : 1 ≤ item.write.length := by
  cases item with
  | unsigned value => rw [Item.write]; exact writeHead_ne_nil 0 value
  | null => rw [Item.write]; rfl
  | _ =>
    rw [Item.write, List.length_append]
    exact (writeHead_ne_nil _ _).trans (Nat.le_add_right _ _)

mutual

private theorem readItem_write : ∀ (item : Item) (fuel : ℕ) (rest : List UInt8), item.Fits →
    2 * item.write.length ≤ fuel + 1 → readItem fuel (item.write ++ rest) = some (item, true, rest)
  | item, 0, rest, _, enough => by
      have positive := item.one_le_length_write
      omega
  | .unsigned value, fuel + 1, rest, fits, _ => by
      rw [Item.Fits] at fits
      rw [Item.write, readItem, readHead_writeHead (by norm_num) fits]
      rfl
  | .bytes content, fuel + 1, rest, fits, _ => by
      rw [Item.Fits] at fits
      rw [Item.write, List.append_assoc, readItem, readHead_writeHead (by norm_num) fits]
      simp [readContent_append]
  | .text content, fuel + 1, rest, fits, _ => by
      rw [Item.Fits] at fits
      rw [Item.write, List.append_assoc, readItem, readHead_writeHead (by norm_num) fits]
      simp [readContent_append]
  | .array items, fuel + 1, rest, fits, enough => by
      rw [Item.Fits] at fits
      rw [Item.write, List.length_append] at enough
      have positive := writeHead_ne_nil 4 items.length
      rw [Item.write, List.append_assoc, readItem, readHead_writeHead (by norm_num) fits.1]
      simp [readItems_write items fuel rest fits.2 (by omega)]
  | .null, fuel + 1, rest, _, _ => rfl

private theorem readItems_write : ∀ (items : List Item) (fuel : ℕ) (rest : List UInt8), Item.AllFit items →
    2 * (Item.writeAll items).length ≤ fuel →
      readItems fuel items.length (Item.writeAll items ++ rest) = some (items, true, rest)
  | [], fuel, rest, _, _ => by
      rw [Item.writeAll, List.length_nil, List.nil_append, readItems]
  | item :: items, 0, rest, _, enough => by
      have positive := item.one_le_length_write
      rw [Item.writeAll, List.length_append] at enough
      omega
  | item :: items, fuel + 1, rest, fits, enough => by
      have positive := item.one_le_length_write
      rw [Item.AllFit] at fits
      rw [Item.writeAll, List.length_append] at enough
      rw [Item.writeAll, List.length_cons, List.append_assoc, readItems, readItem_write item fuel _ fits.1 (by omega)]
      simp [readItems_write items fuel rest fits.2 (by omega)]

end

/-- What is written is read back, to its last octet and in shortest form. -/
theorem read_write {item : Item} (fits : item.Fits) : read item.write = some (item, true, []) := by
  have whole := readItem_write item (2 * item.write.length) [] fits (Nat.le_succ _)
  rwa [List.append_nil] at whole

theorem write_injective {left right : Item} (fitsLeft : left.Fits) (fitsRight : right.Fits) (same : left.write = right.write) :
    left = right := by
  have readLeft := read_write fitsLeft
  rw [same, read_write fitsRight] at readLeft
  exact (Prod.mk.inj (Option.some.inj readLeft)).1.symm

theorem Item.writeAll_eq (items : List Item) : Item.writeAll items = items.flatMap Item.write := by
  induction items with
  | nil => rw [Item.writeAll, List.flatMap_nil]
  | cons item items ih => rw [Item.writeAll, List.flatMap_cons, ih]

theorem Item.allFit_iff (items : List Item) : Item.AllFit items ↔ ∀ item ∈ items, item.Fits := by
  induction items with
  | nil => simp [Item.AllFit]
  | cons item items ih => rw [Item.AllFit, ih, List.forall_mem_cons]

end Items

end DeterministicCbor
