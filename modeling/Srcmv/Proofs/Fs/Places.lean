import Srcmv.Machine.Steps
import Srcmv.Model.Fs.World
import Srcmv.ToMathlib.OrderedMap

/-! # Placing items

What reading and placing items at locations does to a world, and the file operations as steps from a
known world.
-/

namespace Srcmv.Fs

open Srcmv.Core Machine Process

variable {world : World}

namespace World

theorem place_place (location : Location) (first second : Option Item) :
    (world.place location first).place location second = world.place location second := by
  cases location with
  | target path => simp [place]
  | artifact id name =>
    simp only [place, ControlTree.alterChildren]
    congr 2
    rw [OrderedMap.alter_alter]
    congr 1
    funext directory
    cases directory with
    | none => rfl
    | some directory =>
      simp only [Option.map_some]
      rw [OrderedMap.alter_alter]

/-- Clearing a free location changes nothing. -/
theorem place_free {location : Location} (free : world.item? location = none) : world.place location none = world := by
  cases location with
  | target path =>
    have kept : Function.update world.files path none = world.files := by
      rw [← show world.files path = none from free, Function.update_eq_self]
    simp only [place, kept]
  | artifact id name =>
    have kept : world.control.transactions.alter id (fun directory => directory.map fun directory =>
        { directory with children := directory.children.alter name fun _ => none }) = world.control.transactions := by
      apply OrderedMap.alter_of_keeps
      simp only [item?, ControlTree.children] at free
      cases found : world.control.transactions[id]? with
      | none => rfl
      | some directory =>
        rw [found] at free
        rw [Option.map_some, OrderedMap.alter_of_keeps]
        exact free.symm
    simp only [place, ControlTree.alterChildren, kept]

/-- The directory of the location exists. -/
def Reaches (world : World) (location : Location) : Prop :=
  match location with
  | .target _ => True
  | .artifact id _ => id ∈ world.control.transactions

theorem Reaches.place {location : Location} (reaches : world.Reaches location) (other : Location) (item : Option Item) :
    (world.place other item).Reaches location := by
  cases location with
  | target path => trivial
  | artifact id name =>
    cases other with
    | target path => exact reaches
    | artifact otherId otherName =>
      simp only [Reaches, World.place, ControlTree.alterChildren] at reaches ⊢
      rw [Std.ExtTreeMap.mem_iff_isSome_getElem?] at reaches ⊢
      rw [OrderedMap.getElem?_alter]
      split
      · next same => rw [same, Option.isSome_map, reaches]
      · exact reaches

theorem item?_place_self {location : Location} (reaches : world.Reaches location) (item : Option Item) :
    (world.place location item).item? location = item := by
  cases location with
  | target path => simp [World.place, item?]
  | artifact id name =>
    obtain ⟨directory, found⟩ := Option.isSome_iff_exists.mp (Std.ExtTreeMap.mem_iff_isSome_getElem?.mp reaches)
    simp only [World.place, item?, ControlTree.children, ControlTree.alterChildren]
    rw [OrderedMap.getElem?_alter, if_pos rfl, found]
    simp only [Option.map_some, Option.getD_some]
    rw [OrderedMap.getElem?_alter, if_pos rfl]

theorem item?_place_ne {location other : Location} (different : other ≠ location) (item : Option Item) :
    (world.place location item).item? other = world.item? other := by
  cases location with
  | target path =>
    cases other with
    | target otherPath =>
      exact Function.update_of_ne (fun same => different (congrArg Location.target same)) _ _
    | artifact id name => rfl
  | artifact id name =>
    cases other with
    | target path => rfl
    | artifact otherId otherName =>
      simp only [World.place, item?, ControlTree.children, ControlTree.alterChildren]
      rw [OrderedMap.getElem?_alter]
      split
      · next same =>
        subst same
        cases world.control.transactions[id]? with
        | none => rfl
        | some directory =>
          simp only [Option.map_some, Option.getD_some]
          have apart : name ≠ otherName := by
            rintro rfl
            exact different rfl
          rw [OrderedMap.getElem?_alter, if_neg apart]
      · rfl

end World

/-- The file a location holds once `bytes` were written to it. -/
def writtenItem (identity : FileIdentity) (bytes : Bytes) : Item := .file ⟨identity, 1, 0o600, bytes⟩

theorem appendByte_written {location : Location} {identity : FileIdentity} (reaches : world.Reaches location)
    (prior : Bytes) (byte : UInt8) (error : FsError) :
    (world.place location (some (writtenItem identity prior))).appendByte location byte error =
      .ok ((), world.place location (some (writtenItem identity (prior ++ [byte])))) := by
  unfold World.appendByte
  rw [World.item?_place_self reaches, writtenItem]
  dsimp only
  rw [World.place_place]
  rfl

/-! ## Steps -/

def FsError.IsIo (error : FsError) : Prop := ∃ operation path, error = .io operation path

/-- What a failing system call reports: a rename may also report what it found of the device. -/
def FsError.IsSystem (error : FsError) : Prop :=
  error.IsIo ∨ error = .crossDeviceTransaction ∨ error = .noReplaceUnavailable

/-- The denials among which every I/O error is. -/
class CoversIo (denial : FsError → Prop) : Prop where
  io (operation : String) (path : Option String) : denial (.io operation path)

theorem isIo {denial : FsError → Prop} [covers : CoversIo denial] (operation : String) (path : Option String) :
    denial (.io operation path) := covers.io operation path

instance : CoversIo FsError.IsIo := ⟨fun operation path => ⟨operation, path, rfl⟩⟩

instance : CoversIo FsError.IsSystem := ⟨fun operation path => .inl ⟨operation, path, rfl⟩⟩

instance : CoversIo fun _ => True := ⟨fun _ _ => trivial⟩

theorem renameDenied_isSystem (operation : String) (errno : ℕ) : (renameDenied operation errno).IsSystem := by
  unfold renameDenied
  split
  · exact .inr (.inl rfl)
  · split
    · exact .inr (.inr rfl)
    · exact isIo _ _

variable {denial : FsError → Prop} [CoversIo denial] {allowed : Site → Went → Prop} {site : Site}
  {operation : String} {path : Option String}

theorem settle_triple :
    Triple allowed (· = world) (settle site (.io operation path))
      (Ends denial (Exactly () world) fun later => Disturbs allowed site ∧ later = world) :=
  Triple.acts rfl (isIo _ _)

/-- A step without visible effect. -/
theorem settle_safely {rest : World → Prop} (safe : Disturbed allowed → rest world) :
    Triple allowed (· = world) (settle site (.io operation path)) (Ends denial (Exactly () world) rest) := by
  apply settle_triple.weaken
  · exact fun _ _ finished => finished
  · rintro later ⟨disturbed, rfl⟩
    exact safe ⟨_, disturbed⟩

theorem ioRead_triple {α : Type} {value : α} (view : World → Except FsError α) (seen : view world = .ok value) :
    Triple allowed (· = world) (ioRead operation path view)
      (Ends denial (Exactly value world) (Held allowed world)) := by
  rw [ioRead]
  exact Triple.watches seen (isIo _ _)

/-- Writing to a fresh file: a prefix of the bytes is there whenever it is stopped. -/
theorem writeAll_triple {location : Location} {identity : FileIdentity} (reaches : world.Reaches location)
    (bytes : Bytes) : ∀ prior : Bytes,
    Triple allowed (· = world.place location (some (writtenItem identity prior)))
      (writeAll site (.io operation path) location bytes)
      (Ends denial (Exactly () (world.place location (some (writtenItem identity (prior ++ bytes))))) fun later =>
        Disturbs allowed site ∧ ∃ count, later =
          world.place location (some (writtenItem identity (prior ++ bytes.take count)))) := by
  induction bytes with
  | nil =>
    intro prior
    apply Triple.returns
    rw [List.append_nil]
    exact ⟨rfl, rfl⟩
  | cons byte rest ih =>
    intro prior
    unfold writeAll
    rw [List.foldlM_cons]
    apply Triple.actsThen (appendByte_written reaches prior byte _) (isIo _ _)
    · intro disturbed
      exact ⟨disturbed, 0, by rw [List.take_zero, List.append_nil]⟩
    · apply (ih (prior ++ [byte])).weaken
      · intro _ later finished
        rwa [List.append_assoc, List.singleton_append] at finished
      · rintro later ⟨disturbed, count, rfl⟩
        refine ⟨disturbed, count + 1, ?_⟩
        rw [List.append_assoc, List.singleton_append, List.take_succ_cons]

end Srcmv.Fs
