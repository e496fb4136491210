import Srcmv.Proofs.Fs.Removal
import Srcmv.Proofs.Fs.Scanning

/-! # Cleaning up a transaction directory

The directories that a cleanup removes, what an inspection makes of them once their first children
are gone, and the two cleanups themselves: they remove every child and then the directory, and
wherever they stop early only the first children are gone.
-/

namespace Srcmv.Fs

open Srcmv.Core Machine

variable {crates : Crates} {children : NameMap Item} {id : String}

section Unpublished

private theorem keys_perm {names : List String} (distinct : names.Nodup) (same : ∀ name, name ∈ children.keys ↔ name ∈ names) :
    children.keys.Perm names :=
  (List.perm_ext_iff_of_nodup (OrderedMap.nodup_keys children) distinct).mpr same

private theorem keys_pair {first second : String} (ordered : compare second first ≠ .lt) (different : first ≠ second)
    (same : ∀ name, name ∈ children.keys ↔ name = first ∨ name = second) : children.keys = [first, second] := by
  have perm : children.keys.Perm [first, second] := keys_perm (by simp [different]) (by simpa using same)
  rcases List.perm_pair.mp perm with straight | reversed
  · exact straight
  · have sorted := children.ordered_keys
    rw [reversed, List.pairwise_pair] at sorted
    exact absurd sorted ordered

/-- What stands in a directory without state records. -/
inductive Unstated (children : NameMap Item) : RecoveryEntryKind → Prop where
  | empty (keys : children.keys = []) : Unstated children .orphanRecord
  | temporary (keys : children.keys = ["manifest.tmp"]) : Unstated children .orphanRecord
  | manifest (keys : children.keys = ["manifest.rec"]) : Unstated children .manifestOnly
  | manifestTemporary (keys : children.keys = ["manifest.rec", "state-00000000.tmp"]) : Unstated children .manifestOnly

theorem Unstated.kind_eq {kind : RecoveryEntryKind} (unstated : Unstated children kind) :
    kind = .orphanRecord ∨ kind = .manifestOnly := by
  cases unstated with
  | empty => exact .inl rfl
  | temporary => exact .inl rfl
  | manifest => exact .inr rfl
  | manifestTemporary => exact .inr rfl

theorem inspect_unstated {start total : ℕ} {entry : RecoveryEntry}
    (inspected : inspectActiveTransaction crates children id start {} = .ok (entry, total)) (unstated : entry.kind ≠ .active) :
    Unstated children entry.kind ∧ OnlyFiles children := by
  have sound : ∀ {name item}, children[name]? = some item → name ∈ children.keys := fun found =>
    Std.ExtTreeMap.mem_keys.mpr (Std.ExtTreeMap.mem_iff_isSome_getElem?.mpr (by rw [found]; rfl))
  rcases inspect_cases inspected with ⟨rfl, only, file⟩ | ⟨rfl, ⟨node, file⟩, manifest, digest, counter, total, folded⟩ |
    ⟨_, last, rfl⟩
  · constructor
    · by_cases present : "manifest.tmp" ∈ children
      · refine .temporary (List.perm_singleton.mp (keys_perm (List.nodup_singleton _) fun name => ?_))
        rw [List.mem_singleton]
        exact ⟨only name, fun same => same ▸ Std.ExtTreeMap.mem_keys.mpr present⟩
      · refine .empty (List.eq_nil_iff_forall_not_mem.mpr fun name member => present ?_)
        rw [← only name member]
        exact Std.ExtTreeMap.mem_keys.mp member
    · intro name item found
      obtain rfl := only name (sound found)
      obtain ⟨node, file⟩ := file (Std.ExtTreeMap.mem_keys.mp (sound found))
      rw [found] at file
      cases file
      rfl
  · have known : ∀ name ∈ children.keys, name = "manifest.rec" ∨
        (name = "state-00000000.tmp" ∧ ∃ node, children[name]? = some (.file node)) := by
      intro name member
      obtain ⟨before, after, accepted⟩ := List.foldlM_ok_mem folded name member
      unfold validateManifestOnlyEntry at accepted
      split at accepted
      · next same => exact .inl same
      · split at accepted
        · next same =>
          obtain ⟨read, reads, _⟩ := Except.bind_eq_ok.mp accepted
          exact .inr ⟨same, readRecordBounded_file reads⟩
        · cases accepted
    constructor
    · by_cases present : "state-00000000.tmp" ∈ children
      · refine .manifestTemporary (keys_pair (by decide) (by decide) fun name => ?_)
        refine ⟨fun member => (known name member).imp_right And.left, ?_⟩
        rintro (rfl | rfl)
        · exact sound file
        · exact Std.ExtTreeMap.mem_keys.mpr present
      · refine .manifest (List.perm_singleton.mp (keys_perm (List.nodup_singleton _) fun name => ?_))
        rw [List.mem_singleton]
        refine ⟨fun member => ?_, fun same => same ▸ sound file⟩
        rcases known name member with same | ⟨rfl, _⟩
        · exact same
        · exact absurd (Std.ExtTreeMap.mem_keys.mp member) present
    · intro name item found
      rcases known name (sound found) with rfl | ⟨_, other, here⟩
      · rw [found] at file
        cases file
        rfl
      · rw [found] at here
        cases here
        rfl
  · exact absurd rfl unstated

theorem inspect_empty (start : ℕ) :
    inspectActiveTransaction crates (∅ : NameMap Item) id start {} = .ok (orphanEntry id, start) :=
  inspect_orphan_empty ⟨fun _ _ => rfl⟩ Holds.empty rfl

/-- A directory cannot be accepted when only the temporary of the first state is left. -/
theorem inspect_lone_temporary {start total : ℕ} {entry : RecoveryEntry} (keys : children.keys = ["state-00000000.tmp"]) :
    inspectActiveTransaction crates children id start {} ≠ .ok (entry, total) := by
  have missing : ∀ node, children["manifest.rec"]? ≠ some (.file node) := by
    intro node file
    have member : "manifest.rec" ∈ children.keys :=
      Std.ExtTreeMap.mem_keys.mpr (Std.ExtTreeMap.mem_iff_isSome_getElem?.mpr (by rw [file]; rfl))
    rw [keys, List.mem_singleton] at member
    exact absurd member (by decide)
  intro inspected
  rcases inspect_cases inspected with ⟨_, only, _⟩ | ⟨_, ⟨node, file⟩, _⟩ | ⟨⟨node, file⟩, _⟩
  · have impossible := only "state-00000000.tmp" (by rw [keys]; exact List.mem_cons_self)
    exact absurd impossible (by decide)
  · exact missing node file
  · exact missing node file

/-- The removal stopped right after the manifest although the first temporary was beside it. -/
def LeavesTemporary (children : NameMap Item) (kind : RecoveryEntryKind) (count : ℕ) : Prop :=
  kind = .manifestOnly ∧ "state-00000000.tmp" ∈ children ∧ count = 1

theorem keys_of_leavesTemporary {kind : RecoveryEntryKind} {count : ℕ} (unstated : Unstated children kind)
    (leaves : LeavesTemporary children kind count) : (removeFirst count children).keys = ["state-00000000.tmp"] := by
  obtain ⟨rfl, present, rfl⟩ := leaves
  rw [keys_removeFirst]
  cases unstated with
  | manifest keys =>
    rw [← Std.ExtTreeMap.mem_keys, keys, List.mem_singleton] at present
    exact absurd present (by decide)
  | manifestTemporary keys => rw [keys]; rfl

/-- Otherwise the directory is still accepted, and nothing has become more expensive. -/
theorem inspect_removeFirst {start total count : ℕ} {entry : RecoveryEntry}
    (inspected : inspectActiveTransaction crates children id start {} = .ok (entry, total))
    (unstated : entry.kind ≠ .active) (clean : ¬LeavesTemporary children entry.kind count) :
    ∃ again less, inspectActiveTransaction crates (removeFirst count children) id start {} = .ok (again, less) ∧
      less ≤ total ∧ again.kind ≠ .active := by
  obtain ⟨amount, counted, _⟩ := charging_inspectActiveTransaction crates start _ inspected
  obtain rfl : total = start + amount := counted
  have gone : children.keys.length ≤ count → ∃ again less,
      inspectActiveTransaction crates (removeFirst count children) id start {} = .ok (again, less) ∧
        less ≤ start + amount ∧ again.kind ≠ .active := by
    intro all
    rw [removeFirst_of_le all]
    exact ⟨orphanEntry id, start, inspect_empty start, Nat.le_add_right _ _, nofun⟩
  rcases Nat.eq_zero_or_pos count with rfl | positive
  · exact ⟨entry, _, by rwa [removeFirst_zero], le_rfl, unstated⟩
  · refine gone ?_
    have shape := (inspect_unstated inspected unstated).1
    by_contra more
    have two : children.keys = ["manifest.rec", "state-00000000.tmp"] ∧ entry.kind = .manifestOnly ∧ count = 1 := by
      generalize entry.kind = kind at shape
      cases shape with
      | empty keys => rw [keys] at more; simp at more
      | temporary keys => rw [keys, List.length_singleton] at more; omega
      | manifest keys => rw [keys, List.length_singleton] at more; omega
      | manifestTemporary keys =>
        rw [keys, List.length_cons, List.length_singleton] at more
        exact ⟨keys, rfl, by omega⟩
    refine clean ⟨two.2.1, ?_, two.2.2⟩
    rw [← Std.ExtTreeMap.mem_keys, two.1]
    exact List.mem_cons_of_mem _ List.mem_cons_self

end Unpublished

section Completed

theorem validateCompleted_onlyFiles {start total : ℕ}
    (validated : validateCompletedContents crates children id start {} = .ok total) : OnlyFiles children := by
  intro name item found
  obtain ⟨before, after, accepted⟩ :=
    List.foldlM_ok_mem validated (name, item) (Std.ExtTreeMap.mem_toList_iff_getElem?_eq_some.mpr found)
  unfold validateCompletedEntry at accepted
  obtain ⟨_, _, accepted⟩ := Except.bind_eq_ok.mp accepted
  obtain ⟨_, regular, _⟩ := Except.bind_eq_ok.mp accepted
  rw [Except.rejectIf_eq_ok, not_not] at regular
  exact regular

/-- Completed contents stay valid while their first entries go. -/
theorem validateCompleted_removeFirst {start total count : ℕ}
    (validated : validateCompletedContents crates children id start {} = .ok total) :
    ∃ less ≤ total, validateCompletedContents crates (removeFirst count children) id start {} = .ok less := by
  unfold validateCompletedContents at validated ⊢
  rw [← List.take_append_drop count children.toList, List.foldlM_append] at validated
  obtain ⟨middle, first, rest⟩ := Except.bind_eq_ok.mp validated
  obtain ⟨removed, counted, _⟩ := Charging.foldlM (charging_validateCompletedEntry crates) _ 0 start middle first
  obtain ⟨amount, total', charges⟩ := Charging.foldlM (charging_validateCompletedEntry crates) _ 0 middle total rest
  obtain rfl : middle = start + removed := counted
  obtain rfl : total = start + removed + amount := total'
  rw [toList_removeFirst]
  exact ⟨start + amount, by omega, charges start (Nat.le_add_right _ _)⟩

end Completed

section Altered

variable {tree : ControlTree} {entries : NameMap RecoveryEntry} {update : NameMap Item → NameMap Item} {name : String}

/-- A scan that has seen the same directories and charged no more. -/
structure Lighter (scan other : Scan) : Prop where
  scanned : other.scanned = scan.scanned
  cumulative : other.cumulative ≤ scan.cumulative
  entries : ∀ key, key ∈ other.entries ↔ key ∈ scan.entries

private theorem mem_insert_congr {first second : NameMap RecoveryEntry} {key : String} {entry again : RecoveryEntry}
    (same : ∀ other, other ∈ first ↔ other ∈ second) (other : String) :
    other ∈ first.insert key entry ↔ other ∈ second.insert key again := by
  rw [Std.ExtTreeMap.mem_insert, Std.ExtTreeMap.mem_insert, same other]

private theorem Lighter.refl (scan : Scan) : Lighter scan scan := ⟨rfl, le_rfl, fun _ => Iff.rfl⟩

private theorem Lighter.active {scan other after : Scan} {key : String} {directory replaced : TransactionDirectory}
    (lighter : Lighter scan other) (accepted : scanActive crates {} scan (key, directory) = .ok after)
    (object : replaced.object = directory.object)
    (inspects : ∀ start entry total, inspectActiveTransaction crates directory.children key start {} = .ok (entry, total) →
      ∃ again less, inspectActiveTransaction crates replaced.children key start {} = .ok (again, less) ∧ less ≤ total) :
    ∃ final, scanActive crates {} other (key, replaced) = .ok final ∧ Lighter after final := by
  obtain ⟨entry, total, within, identifier, owned, inspected, fresh, rfl⟩ := scanActive_eq_ok.mp accepted
  obtain ⟨again, less, replacedInspected, bounded⟩ := inspects _ entry total inspected
  obtain ⟨least, smaller, lighterInspected⟩ := inspect_smaller replacedInspected lighter.cumulative
  refine ⟨_, scanActive_eq_ok.mpr ⟨again, least, by rw [lighter.scanned]; exact within, identifier, by rw [object]; exact owned,
    lighterInspected, fun member => fresh ((lighter.entries key).mp member), rfl⟩, ?_⟩
  exact ⟨by rw [lighter.scanned], smaller.trans bounded, mem_insert_congr lighter.entries⟩

private theorem Lighter.completed {scan other after : Scan} {directory replaced : TransactionDirectory}
    (lighter : Lighter scan other) (accepted : scanCompleted crates {} scan (name, directory) = .ok after)
    (object : replaced.object = directory.object)
    (validates : ∀ id start total, validateCompletedContents crates directory.children id start {} = .ok total →
      ∃ less ≤ total, validateCompletedContents crates replaced.children id start {} = .ok less) :
    ∃ final, scanCompleted crates {} other (name, replaced) = .ok final ∧ Lighter after final := by
  obtain ⟨id, terminalState, total, within, parsed, owned, validated, fresh, rfl⟩ := scanCompleted_eq_ok.mp accepted
  obtain ⟨less, bounded, replacedValidated⟩ := validates id _ total validated
  obtain ⟨least, smaller, lighterValidated⟩ := validateCompleted_smaller replacedValidated lighter.cumulative
  refine ⟨_, scanCompleted_eq_ok.mpr ⟨id, terminalState, least, by rw [lighter.scanned]; exact within, parsed,
    by rw [object]; exact owned, lighterValidated, fun member => fresh ((lighter.entries id).mp member), rfl⟩, ?_⟩
  exact ⟨by rw [lighter.scanned], smaller.trans bounded, mem_insert_congr lighter.entries⟩

/-- One directory of a list with other children. -/
private def altered (key : String) (update : NameMap Item → NameMap Item) (entry : String × TransactionDirectory) :
    String × TransactionDirectory :=
  if entry.1 = key then (entry.1, { entry.2 with children := update entry.2.children }) else entry

private theorem Lighter.sameCompleted {scan other after : Scan} (lighter : Lighter scan other)
    {directories : List (String × TransactionDirectory)}
    (accepted : directories.foldlM (scanCompleted crates {}) scan = .ok after) :
    ∃ final, directories.foldlM (scanCompleted crates {}) other = .ok final ∧ Lighter after final := by
  have kept := List.foldlM_ok_simulation id (fun _ _ _ _ _ before accepted =>
    Lighter.completed before accepted rfl fun _ _ _ valid => ⟨_, le_rfl, valid⟩) lighter accepted
  rwa [List.map_id] at kept

/-- The scan still accepts once the children of one active directory have shrunk to an accepted rest. -/
theorem scan_alterChildren {directory : TransactionDirectory} (scanned : scanControl crates tree {} = .ok entries)
    (there : tree.transactions[id]? = some directory)
    (inspects : ∀ start entry total, inspectActiveTransaction crates directory.children id start {} = .ok (entry, total) →
      ∃ again less, inspectActiveTransaction crates (update directory.children) id start {} = .ok (again, less) ∧
        less ≤ total) :
    ∃ later, scanControl crates (tree.alterChildren id update) {} = .ok later := by
  unfold scanControl at scanned ⊢
  obtain ⟨⟨⟩, valid, scanned⟩ := Except.bind_eq_ok.mp scanned
  obtain ⟨active, first, scanned⟩ := Except.bind_eq_ok.mp scanned
  obtain ⟨scan, second, _⟩ := Except.bind_eq_ok.mp scanned
  have each : ∀ visited ∈ tree.transactions.toList, ∀ before after other, Lighter before other →
      scanActive crates {} before visited = .ok after →
        ∃ final, scanActive crates {} other (altered id update visited) = .ok final ∧ Lighter after final := by
    intro visited member before after other lighter accepted
    unfold altered
    split
    · next same =>
      subst same
      obtain rfl := Option.some.inj (there.symm.trans (Std.ExtTreeMap.mem_toList_iff_getElem?_eq_some.mp member))
      exact lighter.active accepted rfl inspects
    · exact lighter.active accepted rfl fun _ entry total same => ⟨entry, total, same, le_rfl⟩
  obtain ⟨active', first', lighter⟩ := List.foldlM_ok_simulation (altered id update) each (Lighter.refl {}) first
  obtain ⟨scan', second', _⟩ := lighter.sameCompleted second
  refine ⟨scan'.entries, ?_⟩
  rw [show validateControlTree (tree.alterChildren id update) = .ok () from valid, Except.ok_bind,
    show (tree.alterChildren id update).transactions.toList = tree.transactions.toList.map (altered id update) from
      OrderedMap.toList_alter_map _ _ _, first', Except.ok_bind]
  change (tree.completed.toList.foldlM _ _ >>= _) = _
  rw [second']
  rfl

/-- The scan still accepts once the children of one completed directory have shrunk to a valid rest. -/
theorem scan_alterCompleted {directory : TransactionDirectory} (scanned : scanControl crates tree {} = .ok entries)
    (there : tree.completed[name]? = some directory)
    (validates : ∀ id start total, validateCompletedContents crates directory.children id start {} = .ok total →
      ∃ less ≤ total, validateCompletedContents crates (update directory.children) id start {} = .ok less) :
    ∃ later, scanControl crates (tree.alterCompleted name update) {} = .ok later := by
  unfold scanControl at scanned ⊢
  obtain ⟨⟨⟩, valid, scanned⟩ := Except.bind_eq_ok.mp scanned
  obtain ⟨active, first, scanned⟩ := Except.bind_eq_ok.mp scanned
  obtain ⟨scan, second, _⟩ := Except.bind_eq_ok.mp scanned
  have each : ∀ visited ∈ tree.completed.toList, ∀ before after other, Lighter before other →
      scanCompleted crates {} before visited = .ok after →
        ∃ final, scanCompleted crates {} other (altered name update visited) = .ok final ∧ Lighter after final := by
    intro visited member before after other lighter accepted
    unfold altered
    split
    · next same =>
      subst same
      obtain rfl := Option.some.inj (there.symm.trans (Std.ExtTreeMap.mem_toList_iff_getElem?_eq_some.mp member))
      exact lighter.completed accepted rfl validates
    · exact lighter.completed accepted rfl fun _ _ _ same => ⟨_, le_rfl, same⟩
  obtain ⟨scan', second', _⟩ := List.foldlM_ok_simulation (altered name update) each (Lighter.refl active) second
  refine ⟨scan'.entries, ?_⟩
  rw [show validateControlTree (tree.alterCompleted name update) = .ok () from valid, Except.ok_bind,
    show (tree.alterCompleted name update).transactions = tree.transactions from rfl, first, Except.ok_bind,
    show (tree.alterCompleted name update).completed.toList = tree.completed.toList.map (altered name update) from
      OrderedMap.toList_alter_map _ _ _, second']
  rfl

end Altered

section Triples

variable {setting : Setting} {allowed : Site → Went → Prop} {site : SiteOf} {path : DirectoryPath} {world : World}

/-- Part of a cleanup is done, or all of it. -/
def PartlyCleaned (world : World) (path : DirectoryPath) (left : World) : Prop :=
  PartlyRemoved world path left ∨ left = world.withoutDirectory path

theorem PartlyRemoved.start : PartlyRemoved world path world := ⟨0, World.removing_zero.symm⟩

theorem Interrupted.not_calm {went : Went} {partly : World → Prop} {left : World} (stopped : went = .failed ∨ went = .crashed) :
    ¬Interrupted Process.Calmly site went partly left := by
  rintro ⟨⟨_, calm⟩, _⟩
  rcases stopped with rfl | rfl <;> rcases calm with impossible | impossible <;> cases impossible

theorem Interrupted.cleaned {went : Went} {left : World}
    (interrupted : Interrupted allowed site went (PartlyRemoved world path) left) :
    Interrupted allowed site went (PartlyCleaned world path) left :=
  ⟨interrupted.1, .inl interrupted.2⟩

/-- Removing the children and then the directory. -/
private theorem removeAll_triple {remove sync : String} {removal : FsError} {synced : FsError}
    (removalIsIo : removal.IsIo) (syncedIsIo : synced.IsIo) (files : OnlyFiles (world.childrenOf path)) :
    Process.Triple allowed (· = world) (do
        removeValidatedChildren site path
        Process.act (site remove) removal fun world => world.removeDirectory path removal
        settle (site sync) synced)
      ⟨fun _ left => left = world.withoutDirectory path,
        Failing allowed site (PartlyCleaned world path),
        Interrupted allowed site .crashed (PartlyCleaned world path)⟩ := by
  refine Process.Triple.bind (fun _ left => left = world.removing path (world.childrenOf path).keys.length) ?_ fun _ => ?_
  · exact (removeValidatedChildren_triple files).mono (fun _ same => same) (fun _ _ same => same)
      (fun _ _ => And.imp_right Interrupted.cleaned) fun _ => Interrupted.cleaned
  refine Process.Triple.bind (fun _ left => left = world.withoutDirectory path) ?_ fun _ => ?_
  · refine Process.Triple.act ?_ ?_ ?_ ?_
    · rintro permitted left rfl
      exact ⟨⟨_, permitted⟩, .inl ⟨_, rfl⟩⟩
    · rintro permitted left rfl
      exact ⟨removalIsIo, ⟨_, permitted⟩, .inl ⟨_, rfl⟩⟩
    · rintro left rfl value later removed
      rw [World.removeDirectory_removing le_rfl] at removed
      cases removed
      rfl
    · rintro _ left rfl error refused
      rw [World.removeDirectory_removing le_rfl] at refused
      cases refused
  · refine Process.Triple.act ?_ ?_ ?_ ?_
    · rintro permitted left rfl
      exact ⟨⟨_, permitted⟩, .inr rfl⟩
    · rintro permitted left rfl
      exact ⟨syncedIsIo, ⟨_, permitted⟩, .inr rfl⟩
    · rintro left rfl value later settled
      cases settled
      rfl
    · rintro _ left rfl error refused
      cases refused

/-- A valid completed directory is removed. -/
theorem cleanupCompletedDirectory_triple {name : String} {total : ℕ}
    (valid : validateCompletedContents setting.crates (world.childrenOf (.completed name)) id 0 {} = .ok total) :
    Process.Triple allowed (· = world) (cleanupCompletedDirectory setting site name id)
      ⟨fun _ left => left = world.withoutDirectory (.completed name),
        Failing allowed site (PartlyCleaned world (.completed name)),
        Interrupted allowed site .crashed (PartlyCleaned world (.completed name))⟩ := by
  unfold cleanupCompletedDirectory
  refine Process.Triple.bind (fun _ left => left = world) ?_ fun _ => removeAll_triple (isIo _ _) (isIo _ _) (validateCompleted_onlyFiles valid)
  refine Process.Triple.observe ?_ ?_ ?_ ?_
  · rintro permitted left rfl
    exact ⟨⟨_, permitted⟩, .inl .start⟩
  · rintro permitted left rfl
    exact ⟨isIo _ _, ⟨_, permitted⟩, .inl .start⟩
  · rintro left rfl _ _
    rfl
  · rintro _ left rfl error refused
    rw [valid] at refused
    cases refused

/-- A transaction without state records is removed. -/
theorem rollbackControlOnly_triple {entry : RecoveryEntry}
    (scanned : recoveryEntry setting.crates world.control id = .ok entry)
    (unstated : entry.kind = .orphanRecord ∨ entry.kind = .manifestOnly) (active : entry.activePath = some id)
    (files : OnlyFiles (world.childrenOf (.active id))) :
    Process.Triple allowed (· = world) (rollbackControlOnly setting id)
      ⟨fun _ left => left = world.withoutDirectory (.active id),
        Failing allowed Site.io (PartlyCleaned world (.active id)),
        Interrupted allowed Site.io .crashed (PartlyCleaned world (.active id))⟩ := by
  unfold rollbackControlOnly scanRecoveryEntry ioRead
  refine Process.Triple.bind (fun found left => found = entry ∧ left = world) ?_ fun found => ?_
  · refine Process.Triple.observe ?_ ?_ ?_ ?_
    · rintro permitted left rfl
      exact ⟨⟨_, permitted⟩, .inl .start⟩
    · rintro permitted left rfl
      exact ⟨isIo _ _, ⟨_, permitted⟩, .inl .start⟩
    · rintro left rfl found seen
      rw [scanned] at seen
      exact ⟨(Except.ok.inj seen).symm, rfl⟩
    · rintro _ left rfl error refused
      rw [scanned] at refused
      cases refused
  · refine Process.Triple.fact ?_
    rintro rfl
    rw [if_pos unstated, active]
    exact removeAll_triple (isIo _ _) (isIo _ _) files

end Triples

end Srcmv.Fs
