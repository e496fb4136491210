import Srcmv.Model.Fs.World
import Srcmv.Proofs.Fs.Scanning

/-! # Control trees with one transaction

While a transaction runs or is recovered, the gate has left no other one in the tree. A scan of such
a tree is the inspection of its only directory.
-/

namespace Srcmv.Fs

open Srcmv.Core OrderedMap

/-- The only transaction of the tree is active and its directory holds `children`. -/
structure OnlyActive (tree : ControlTree) (id : String) (object : ControlObject) (children : NameMap Item) : Prop where
  valid : validateControlTree tree = .ok ()
  identifier : validateTransactionId id = .ok ()
  directory : validateTransactionDirectory object = .ok ()
  active : Only tree.transactions id ⟨object, children⟩
  completed : tree.completed = ∅

/-- The only transaction of the tree is completed and its directory holds `children`. -/
structure OnlyCompleted (tree : ControlTree) (name : String) (object : ControlObject) (children : NameMap Item) :
    Prop where
  valid : validateControlTree tree = .ok ()
  directory : validateTransactionDirectory object = .ok ()
  completed : Only tree.completed name ⟨object, children⟩
  active : tree.transactions = ∅

section Scan

variable {crates : Crates} {tree : ControlTree} {id : String} {object : ControlObject} {children : NameMap Item}

private theorem insert_first (scan : Scan) (entry : RecoveryEntry) (empty : scan.entries = ∅) :
    scan.insert entry = .ok { scan with entries := (∅ : NameMap RecoveryEntry).insert entry.transactionId entry } := by
  unfold Scan.insert
  rw [empty, if_neg Std.ExtTreeMap.not_mem_empty]

private theorem chargeDirectory_first : chargeDirectory 0 {} = .ok 1 := by
  rw [chargeDirectory, if_neg (by decide)]

/-- A scan of the only active directory is its inspection. -/
theorem OnlyActive.scanControl_eq (only : OnlyActive tree id object children) :
    scanControl crates tree {} = inspectActiveTransaction crates children id 0 {} >>= fun found =>
      .ok ((∅ : NameMap RecoveryEntry).insert found.1.transactionId found.1) := by
  rw [scanControl, only.valid, Except.ok_bind, only.active.toList, only.completed,
    Std.ExtTreeMap.toList_eq_nil_iff.mpr rfl, List.foldlM_cons, scanActive, chargeDirectory_first, Except.ok_bind,
    only.identifier, Except.ok_bind, only.directory, Except.ok_bind]
  cases inspectActiveTransaction crates children id 0 {} with
  | error failure => rfl
  | ok found =>
    simp only [Except.ok_bind, insert_first, List.foldlM_nil]
    rfl

/-- A scan of the only completed directory is its validation. -/
theorem OnlyCompleted.scanControl_eq {name terminalState : String} (only : OnlyCompleted tree name object children)
    (parsed : parseCompletedName name = some (id, terminalState)) :
    scanControl crates tree {} = validateCompletedContents crates children id 0 {} >>= fun _ =>
      .ok ((∅ : NameMap RecoveryEntry).insert id (completedEntry id name terminalState)) := by
  rw [scanControl, only.valid, Except.ok_bind, only.completed.toList, only.active,
    Std.ExtTreeMap.toList_eq_nil_iff.mpr rfl, List.foldlM_nil]
  dsimp only [pure, Except.pure]
  rw [Except.ok_bind, List.foldlM_cons, scanCompleted, chargeDirectory_first, Except.ok_bind, parsed]
  dsimp only
  rw [only.directory, Except.ok_bind]
  cases validateCompletedContents crates children id 0 {} with
  | error failure => rfl
  | ok total =>
    simp only [Except.ok_bind, insert_first, List.foldlM_nil]
    rfl

/-- The entry of a transaction among the entries of a scan. -/
private def entryOf (id : String) (entry : RecoveryEntry) : Except FsError RecoveryEntry :=
  match ((∅ : NameMap RecoveryEntry).insert entry.transactionId entry)[id]? with
  | some entry => .ok entry
  | none => .error (.transactionNotFound id)

/-- The scan finds what the inspection of the only active directory returns. -/
private theorem recoveryEntry_onlyActive (only : OnlyActive tree id object children) :
    recoveryEntry crates tree id =
      inspectActiveTransaction crates children id 0 {} >>= fun found => entryOf id found.1 := by
  rw [recoveryEntry, only.identifier, Except.ok_bind, only.scanControl_eq, bind_assoc]
  rfl

theorem recoveryEntry_active (only : OnlyActive tree id object children) {entry : RecoveryEntry} {total : ℕ}
    (inspected : inspectActiveTransaction crates children id 0 {} = .ok (entry, total))
    (same : entry.transactionId = id) : recoveryEntry crates tree id = .ok entry := by
  rw [recoveryEntry_onlyActive only, inspected, Except.ok_bind, entryOf, same, Std.ExtTreeMap.getElem?_insert_self]

/-- A scan of the only active directory finds its entry if the inspection accepts it. -/
theorem recoveryEntry_eq_ok (only : OnlyActive tree id object children) {entry : RecoveryEntry} :
    recoveryEntry crates tree id = .ok entry ↔
      ∃ total, inspectActiveTransaction crates children id 0 {} = .ok (entry, total) := by
  constructor
  · intro found
    rw [recoveryEntry_onlyActive only] at found
    obtain ⟨⟨other, total⟩, inspected, same⟩ := Except.bind_eq_ok.mp found
    rw [entryOf, (inspect_entry inspected).1, Std.ExtTreeMap.getElem?_insert_self] at same
    cases same
    exact ⟨total, inspected⟩
  · rintro ⟨total, inspected⟩
    exact recoveryEntry_active only inspected (inspect_entry inspected).1

theorem recoveryEntry_corrupt (only : OnlyActive tree id object children)
    (corrupted : Corrupt id (inspectActiveTransaction crates children id 0 {})) :
    Corrupt id (recoveryEntry crates tree id) := by
  obtain ⟨reason, failed⟩ := corrupted
  exact ⟨reason, by rw [recoveryEntry_onlyActive only, failed, Except.error_bind]⟩

end Scan

namespace OnlyActive

variable {tree : ControlTree} {id : String} {object : ControlObject} {children : NameMap Item}

theorem children_eq (only : OnlyActive tree id object children) : tree.children id = children := by
  rw [ControlTree.children, only.active.here]
  rfl

theorem isActive (only : OnlyActive tree id object children) : id ∈ tree.transactions := by
  rw [Std.ExtTreeMap.mem_iff_isSome_getElem?, only.active.here]
  rfl

theorem alterChildren (only : OnlyActive tree id object children) (update : NameMap Item → NameMap Item) :
    OnlyActive (tree.alterChildren id update) id object (update children) where
  valid := only.valid
  identifier := only.identifier
  directory := only.directory
  active := only.active.alter fun directory => { directory with children := update directory.children }
  completed := only.completed

end OnlyActive

namespace World

variable {world : World}

/-- What stands at a location after something was put somewhere. -/
theorem children_place_artifact {id name : String} {item : Option Item} {object : ControlObject}
    {children : NameMap Item} (only : OnlyActive world.control id object children) :
    OnlyActive (world.place (.artifact id name) item).control id object (children.alter name fun _ => item) :=
  only.alterChildren fun children => children.alter name fun _ => item

theorem item?_artifact {id name : String} {object : ControlObject} {children : NameMap Item}
    (only : OnlyActive world.control id object children) : world.item? (.artifact id name) = children[name]? := by
  rw [item?, only.children_eq]

end World

end Srcmv.Fs
