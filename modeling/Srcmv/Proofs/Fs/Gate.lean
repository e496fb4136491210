import Srcmv.Proofs.Fs.Finishing
import Srcmv.Proofs.Fs.Frames

/-! # The gate before a new transaction

From any world at all the gate only removes completed directories. When it lets a transaction pass, no
directory is left: a scan names every active directory, which stops the gate, and every completed one,
which the gate then removes.
-/

namespace Srcmv.Fs

open Srcmv.Core Machine Process Relation

variable {allowed : Site → Went → Prop} {setting : Setting} {world later : World} {name id : String}

/-- What the gate may touch: completed directories and what is in them. -/
def Scope.cleaning : Scope where
  paths _ := False
  active _ := False
  names _ := True
  completed _ := True

/-- Cleaning leaves files and active directories alone and adds no completed directory. -/
structure Cleaned (world later : World) : Prop where
  files : later.files = world.files
  transactions : later.control.transactions = world.control.transactions
  objects : later.control.objects = world.control.objects
  old : ∀ name ∈ later.control.completed, name ∈ world.control.completed

namespace Cleaned

theorem refl (world : World) : Cleaned world world := ⟨rfl, rfl, rfl, fun _ member => member⟩

theorem trans {last : World} (first : Cleaned world later) (second : Cleaned later last) : Cleaned world last where
  files := second.files.trans first.files
  transactions := second.transactions.trans first.transactions
  objects := second.objects.trans first.objects
  old name member := first.old name (second.old name member)

theorem of_action (acted : Action .cleaning world later) : Cleaned world later := by
  have spares := acted.spares
  refine ⟨funext fun path => spares.files path not_false, ?_, spares.objects, ?_⟩
  · exact Std.ExtTreeMap.ext_getElem? fun id => spares.transactions id not_false
  · cases acted with
    | place covers item =>
      cases covers with
      | target named => exact named.elim
      | artifact own named => exact own.elim
    | history published refusals => exact fun _ member => member
    | removeChild owns name =>
      rename_i path
      cases path with
      | active own => exact owns.elim
      | completed directory =>
        intro other member
        simp only [World.removeChild, ControlTree.alterCompleted] at member
        rw [Std.ExtTreeMap.mem_iff_isSome_getElem?, OrderedMap.getElem?_alter] at member
        rw [Std.ExtTreeMap.mem_iff_isSome_getElem?]
        split at member
        · next same => rwa [Option.isSome_map, same] at member
        · exact member
    | removeDirectory owns removed =>
      rename_i path error
      cases path with
      | active own => exact owns.elim
      | completed directory =>
        unfold World.removeDirectory at removed
        split at removed
        · cases removed
          exact fun _ member => Std.ExtTreeMap.mem_of_mem_erase member
        · cases removed
    | renameTerminal active completed renamed => exact active.elim

end Cleaned

/-- A directory that was cleaned up is gone. -/
theorem cleanupCompletedDirectory_erases {site : SiteOf} {invariant : World → Prop}
    (preserved : ∀ before after, Action .cleaning before after → invariant before → invariant after) :
    Triple allowed invariant (cleanupCompletedDirectory setting site name id)
      ⟨fun _ later => invariant later ∧ name ∉ later.control.completed, fun _ => invariant, invariant⟩ := by
  have owns : Scope.cleaning.Owns (.completed name) := trivial
  have gone (before after : World) (removed : before.removeDirectory (.completed name)
      (.io "remove_completed_directory" none) = .ok ((), after)) : name ∉ after.control.completed := by
    unfold World.removeDirectory at removed
    split at removed
    · cases removed
      exact fun member => (Std.ExtTreeMap.mem_erase.mp member).1 (OrderedMap.compare_eq_iff.mpr rfl)
    · cases removed
  rw [cleanupCompletedDirectory]
  refine Triple.bind (fun _ => invariant) (Acts.observe.keeps preserved) fun _ => ?_
  refine Triple.bind (fun _ => invariant) ((removeValidatedChildren_acts owns).keeps preserved) fun _ => ?_
  refine Triple.bind (fun _ later => invariant later ∧ name ∉ later.control.completed) ?_ fun _ => ?_
  · refine Triple.act (fun _ _ holds => holds) (fun _ _ holds => holds) (fun before holds value after removed => ?_)
      fun _ _ holds _ _ => holds
    cases value
    exact ⟨preserved _ _ (.removeDirectory owns removed) holds, gone before after removed⟩
  · refine Triple.act (fun _ _ holds => holds.1) (fun _ _ holds => holds.1) (fun before holds value after done => ?_)
      fun _ _ holds _ _ => holds.1
    cases done
    exact holds

/-- The tree is cleaned, and the directories of these entries are gone. -/
private def Swept (world : World) (entries : List (String × RecoveryEntry)) (later : World) : Prop :=
  Cleaned world later ∧ ∀ entry ∈ entries, ∀ name, entry.2.completedPath = some name → name ∉ later.control.completed

private theorem sweep (entries : List (String × RecoveryEntry)) (done : List (String × RecoveryEntry)) :
    Triple allowed (Swept world done) (entries.foldlM (fun _ entry => cleanupIfCompleted setting entry.2) () : Engine Unit)
      ⟨fun _ => Swept world (done ++ entries), fun _ => Cleaned world, Cleaned world⟩ := by
  induction entries generalizing done with
  | nil =>
    rw [List.append_nil]
    exact Triple.pure fun _ swept => swept
  | cons entry rest ih =>
    have preserved (before after : World) (acted : Action .cleaning before after) (swept : Swept world done before) :
        Swept world done after := by
      have cleaned := Cleaned.of_action acted
      exact ⟨swept.1.trans cleaned, fun other member name named still =>
        swept.2 other member name named (cleaned.old name still)⟩
    rw [List.foldlM_cons, List.append_cons]
    refine Triple.bind (fun _ => Swept world (done ++ [entry])) ?_ fun _ => ih (done ++ [entry])
    have more (later : World) (swept : Swept world done later)
        (gone : ∀ name, entry.2.completedPath = some name → name ∉ later.control.completed) : Swept world (done ++ [entry]) later := by
      refine ⟨swept.1, fun other member => ?_⟩
      rcases List.mem_append.mp member with earlier | last
      · exact swept.2 other earlier
      · rw [List.mem_singleton.mp last]
        exact gone
    rw [cleanupIfCompleted]
    split
    · next none =>
      refine Triple.pure fun later swept => more later swept fun name named => ?_
      rw [none] at named
      cases named
    · next directory some_ =>
      refine (cleanupCompletedDirectory_erases preserved).mono (fun _ swept => swept) (fun _ later erased => ?_)
        (fun _ _ swept => swept.1) fun _ swept => swept.1
      refine more later erased.1 fun name named => ?_
      obtain rfl := Option.some.inj (named.symm.trans some_)
      exact erased.2

theorem validateControlTree_congr {tree other : ControlTree} (same : tree.objects = other.objects) :
    validateControlTree tree = validateControlTree other := by
  simp only [ControlTree.objects, Prod.mk.injEq] at same
  rw [validateControlTree, validateControlTree, same.2.1, same.2.2.1, same.2.2.2.1, same.2.2.2.2]

/-- The gate only cleans, and lets a transaction pass only into an empty tree. -/
theorem gateNewTransaction_triple : Triple allowed (· = world) (gateNewTransaction setting)
    ⟨fun _ later => Cleaned world later ∧ Idle later.control, fun _ => Cleaned world, Cleaned world⟩ := by
  have stays (later : World) (same : later = world) : Cleaned world later := same ▸ .refl _
  rw [gateNewTransaction, ioRead]
  refine Triple.bind (fun entries later => scanControl setting.crates world.control {} = .ok entries ∧ later = world) ?_
    fun entries => Triple.fact fun scanned => ?_
  · refine Triple.observe (fun _ => stays) (fun _ => stays) (fun later same value seen => ?_) fun _ later same _ _ => stays later same
    subst same
    exact ⟨seen, rfl⟩
  dsimp only
  split
  · exact Triple.refuse stays
  next inactive =>
  rw [not_not, List.filter_eq_nil_iff] at inactive
  have quiet : world.control.transactions = ∅ := by
    refine Std.ExtTreeMap.eq_empty_iff_forall_not_mem.mpr fun id member => ?_
    obtain ⟨directory, there⟩ := Option.isSome_iff_exists.mp (Std.ExtTreeMap.mem_iff_isSome_getElem?.mp member)
    obtain ⟨entry, found, total, inspected⟩ := scan_active scanned there
    refine inactive (id, entry) (Std.ExtTreeMap.mem_toList_iff_getElem?_eq_some.mpr found) ?_
    rw [(inspect_entry inspected).2.1]
    rfl
  have valid : validateControlTree world.control = .ok () := by
    rw [scanControl] at scanned
    obtain ⟨⟨⟩, valid, -⟩ := Except.bind_eq_ok.mp scanned
    exact valid
  refine (sweep entries.toList []).mono (fun later same => ?_) (fun _ later swept => ?_) (fun _ _ cleaned => cleaned)
    fun _ cleaned => cleaned
  · subst same
    exact ⟨.refl later, fun entry impossible => by cases impossible⟩
  · obtain ⟨cleaned, gone⟩ := swept
    refine ⟨cleaned, ?_, cleaned.transactions.trans quiet, ?_⟩
    · rw [validateControlTree_congr cleaned.objects]
      exact valid
    · refine Std.ExtTreeMap.eq_empty_iff_forall_not_mem.mpr fun name member => ?_
      obtain ⟨directory, there⟩ := Option.isSome_iff_exists.mp
        (Std.ExtTreeMap.mem_iff_isSome_getElem?.mp (cleaned.old name member))
      obtain ⟨entry, found, id, terminal, -, rfl, -⟩ := scan_completed scanned there
      exact gone _ (Std.ExtTreeMap.mem_toList_iff_getElem?_eq_some.mpr found) name rfl member

end Srcmv.Fs
