import Srcmv.Proofs.Fs.Charges
import Srcmv.Proofs.Fs.Inspection

/-! # What an accepted scan says of each directory

An accepted scan has inspected every directory, and each of its entries describes one of them. A
directory that inspects as some kind does so from every smaller value of the counter, so each entry
is what an inspection of its directory alone returns.
-/

namespace Srcmv.Fs

open Srcmv.Core

variable {crates : Crates} {tree : ControlTree} {children : NameMap Item} {id : String}

section Inspection

theorem readRecordBounded_file {item : Option Item} {start : ℕ} {read : Bytes × ℕ}
    (accepted : readRecordBounded item start {} = .ok read) : ∃ node, item = some (.file node) := by
  unfold readRecordBounded at accepted
  split at accepted
  · cases accepted
  · next node => exact ⟨node, rfl⟩
  · cases accepted

/-- An accepted directory is an orphan, has only a manifest and perhaps the first temporary, or is a chain. -/
theorem inspect_cases {start total : ℕ} {entry : RecoveryEntry}
    (inspected : inspectActiveTransaction crates children id start {} = .ok (entry, total)) :
    (entry = orphanEntry id ∧ (∀ name ∈ children.keys, name = "manifest.tmp") ∧
      ("manifest.tmp" ∈ children → ∃ node, children["manifest.tmp"]? = some (.file node))) ∨
    (entry = manifestOnlyEntry id ∧ (∃ node, children["manifest.rec"]? = some (.file node)) ∧
      ∃ manifest digest counter total, children.keys.foldlM
        (validateManifestOnlyEntry crates children id manifest digest {}) counter = .ok total) ∨
    (∃ node, children["manifest.rec"]? = some (.file node)) ∧ ∃ last, entry = chainEntry id last := by
  unfold inspectActiveTransaction at inspected
  split at inspected
  · obtain ⟨read, reads, inspected⟩ := Except.bind_eq_ok.mp inspected
    obtain ⟨decoded, _, inspected⟩ := Except.bind_eq_ok.mp inspected
    obtain ⟨_, _, inspected⟩ := Except.bind_eq_ok.mp inspected
    unfold inspectPublished at inspected
    dsimp only at inspected
    split at inspected
    · obtain ⟨counted, folded, inspected⟩ := Except.bind_eq_ok.mp inspected
      obtain ⟨rfl, rfl⟩ := Prod.mk.inj (Except.pure_eq_ok.mp inspected)
      exact .inr (.inl ⟨rfl, readRecordBounded_file reads, _, _, _, _, folded⟩)
    · obtain ⟨_, _, inspected⟩ := Except.bind_eq_ok.mp inspected
      obtain ⟨chain, _, inspected⟩ := Except.bind_eq_ok.mp inspected
      obtain ⟨_, _, inspected⟩ := Except.bind_eq_ok.mp inspected
      obtain ⟨rfl, rfl⟩ := Prod.mk.inj (Except.pure_eq_ok.mp inspected)
      exact .inr (.inr ⟨readRecordBounded_file reads, chain.1, rfl⟩)
  · unfold inspectOrphan at inspected
    obtain ⟨_, known, inspected⟩ := Except.bind_eq_ok.mp inspected
    rw [Except.rejectIf_eq_ok, List.any_eq_true] at known
    have only : ∀ name ∈ children.keys, name = "manifest.tmp" := by
      intro name member
      by_contra other
      exact known ⟨name, member, decide_eq_true other⟩
    dsimp only at inspected
    split at inspected
    · obtain ⟨read, reads, inspected⟩ := Except.bind_eq_ok.mp inspected
      obtain ⟨_, _, inspected⟩ := Except.bind_eq_ok.mp inspected
      obtain ⟨_, _, inspected⟩ := Except.bind_eq_ok.mp inspected
      obtain ⟨rfl, rfl⟩ := Prod.mk.inj (Except.pure_eq_ok.mp inspected)
      exact .inl ⟨rfl, only, fun _ => readRecordBounded_file reads⟩
    · next absent =>
      obtain ⟨rfl, rfl⟩ := Prod.mk.inj (Except.pure_eq_ok.mp inspected)
      exact .inl ⟨rfl, only, fun present => absurd present absent⟩

theorem inspect_entry {start total : ℕ} {entry : RecoveryEntry}
    (inspected : inspectActiveTransaction crates children id start {} = .ok (entry, total)) :
    entry.transactionId = id ∧ entry.activePath = some id ∧ entry.completedPath = none := by
  rcases inspect_cases inspected with ⟨rfl, _⟩ | ⟨rfl, _⟩ | ⟨_, last, rfl⟩ <;> exact ⟨rfl, rfl, rfl⟩

/-- Without the name of a state record the directory is not that of a running transaction. -/
theorem inspect_stateless {start total : ℕ} {entry : RecoveryEntry}
    (inspected : inspectActiveTransaction crates children id start {} = .ok (entry, total))
    (unrecorded : ∀ name ∈ children, parseStateName name "rec" = none) :
    entry = orphanEntry id ∨ entry = manifestOnlyEntry id := by
  rcases inspect_cases inspected with ⟨same, _⟩ | ⟨same, _⟩ | ⟨⟨node, manifest⟩, last, rfl⟩
  · exact .inl same
  · exact .inr same
  · have none : (children.keys.filterMap fun name => (parseStateName name "rec").map (·, name)) = [] := by
      rw [List.filterMap_eq_nil_iff]
      intro name member
      rw [unrecorded name (Std.ExtTreeMap.mem_keys.mp member)]
      rfl
    have present : "manifest.rec" ∈ children := Std.ExtTreeMap.mem_iff_isSome_getElem?.mpr (by rw [manifest]; rfl)
    rw [inspectActiveTransaction, if_pos present] at inspected
    obtain ⟨read, _, inspected⟩ := Except.bind_eq_ok.mp inspected
    obtain ⟨decoded, _, inspected⟩ := Except.bind_eq_ok.mp inspected
    obtain ⟨⟨⟩, _, inspected⟩ := Except.bind_eq_ok.mp inspected
    rw [inspectPublished] at inspected
    dsimp only at inspected
    rw [none, if_pos rfl] at inspected
    obtain ⟨counter, _, returned⟩ := Except.bind_eq_ok.mp inspected
    cases returned

/-- An inspection accepted from some counter is accepted from every smaller one. -/
theorem inspect_smaller {start total earlier : ℕ} {entry : RecoveryEntry}
    (inspected : inspectActiveTransaction crates children id start {} = .ok (entry, total)) (smaller : earlier ≤ start) :
    ∃ less ≤ total, inspectActiveTransaction crates children id earlier {} = .ok (entry, less) := by
  obtain ⟨amount, counted, charges⟩ := charging_inspectActiveTransaction crates start _ inspected
  obtain rfl : total = start + amount := counted
  exact ⟨earlier + amount, by omega, charges earlier smaller⟩

theorem validateCompleted_smaller {start total earlier : ℕ}
    (validated : validateCompletedContents crates children id start {} = .ok total) (smaller : earlier ≤ start) :
    ∃ less ≤ total, validateCompletedContents crates children id earlier {} = .ok less := by
  obtain ⟨amount, counted, charges⟩ := charging_validateCompletedContents crates start _ validated
  obtain rfl : total = start + amount := counted
  exact ⟨earlier + amount, by omega, charges earlier smaller⟩

end Inspection

/-- The entry of a completed directory. -/
def completedEntry (id name terminalState : String) : RecoveryEntry :=
  ⟨id, .cleanupOnly, ["status", "cleanup"], if terminalState = "committed" then "all_planned" else "all_original",
    none, some name⟩

section Directories

variable {directory : TransactionDirectory} {name : String} {entry : RecoveryEntry}

/-- Inspecting this directory alone gives this entry. -/
def InspectsAs (crates : Crates) (id : String) (directory : TransactionDirectory) (entry : RecoveryEntry) : Prop :=
  ∃ total, inspectActiveTransaction crates directory.children id 0 {} = .ok (entry, total)

/-- This completed directory alone is valid and belongs to this entry. -/
def CompletesAs (crates : Crates) (name : String) (directory : TransactionDirectory) (entry : RecoveryEntry) : Prop :=
  ∃ id terminalState, parseCompletedName name = some (id, terminalState) ∧ entry = completedEntry id name terminalState ∧
    ∃ total, validateCompletedContents crates directory.children id 0 {} = .ok total

private theorem insert_eq_ok {scan after : Scan} (inserted : scan.insert entry = .ok after) :
    entry.transactionId ∉ scan.entries ∧
      after = { scan with entries := scan.entries.insert entry.transactionId entry } := by
  unfold Scan.insert at inserted
  split at inserted
  · cases inserted
  · next fresh => exact ⟨fresh, (Except.ok.inj inserted).symm⟩

theorem scanActive_eq_ok {scan after : Scan} {visited : String × TransactionDirectory} :
    scanActive crates {} scan visited = .ok after ↔ ∃ entry total,
      scan.scanned + 1 ≤ maxTransactionDirectories ∧ validateTransactionId visited.1 = .ok () ∧
      validateTransactionDirectory visited.2.object = .ok () ∧
      inspectActiveTransaction crates visited.2.children visited.1 scan.cumulative {} = .ok (entry, total) ∧
      visited.1 ∉ scan.entries ∧ after = ⟨scan.scanned + 1, total, scan.entries.insert visited.1 entry⟩ := by
  unfold scanActive chargeDirectory
  constructor
  · intro accepted
    obtain ⟨scanned, charged, accepted⟩ := Except.bind_eq_ok.mp accepted
    split at charged
    · cases charged
    next within =>
    cases charged
    obtain ⟨⟨⟩, identifier, accepted⟩ := Except.bind_eq_ok.mp accepted
    obtain ⟨⟨⟩, owned, accepted⟩ := Except.bind_eq_ok.mp accepted
    obtain ⟨⟨entry, total⟩, inspected, accepted⟩ := Except.bind_eq_ok.mp accepted
    obtain ⟨fresh, rfl⟩ := insert_eq_ok accepted
    rw [(inspect_entry inspected).1] at fresh ⊢
    exact ⟨entry, total, not_lt.mp within, identifier, owned, inspected, fresh, rfl⟩
  · rintro ⟨entry, total, within, identifier, owned, inspected, fresh, rfl⟩
    rw [if_neg (not_lt.mpr within), Except.ok_bind, identifier, Except.ok_bind, owned, Except.ok_bind, inspected,
      Except.ok_bind]
    dsimp only
    unfold Scan.insert
    rw [(inspect_entry inspected).1, if_neg fresh]

theorem scanCompleted_eq_ok {scan after : Scan} {visited : String × TransactionDirectory} :
    scanCompleted crates {} scan visited = .ok after ↔ ∃ id terminalState total,
      scan.scanned + 1 ≤ maxTransactionDirectories ∧ parseCompletedName visited.1 = some (id, terminalState) ∧
      validateTransactionDirectory visited.2.object = .ok () ∧
      validateCompletedContents crates visited.2.children id scan.cumulative {} = .ok total ∧
      id ∉ scan.entries ∧
      after = ⟨scan.scanned + 1, total, scan.entries.insert id (completedEntry id visited.1 terminalState)⟩ := by
  unfold scanCompleted chargeDirectory
  constructor
  · intro accepted
    obtain ⟨scanned, charged, accepted⟩ := Except.bind_eq_ok.mp accepted
    split at charged
    · cases charged
    next within =>
    cases charged
    split at accepted
    · cases accepted
    next id terminalState parsed =>
    obtain ⟨⟨⟩, owned, accepted⟩ := Except.bind_eq_ok.mp accepted
    obtain ⟨total, validated, accepted⟩ := Except.bind_eq_ok.mp accepted
    obtain ⟨fresh, rfl⟩ := insert_eq_ok accepted
    exact ⟨id, terminalState, total, not_lt.mp within, parsed, owned, validated, fresh, rfl⟩
  · rintro ⟨id, terminalState, total, within, parsed, owned, validated, fresh, rfl⟩
    rw [if_neg (not_lt.mpr within), Except.ok_bind, parsed]
    dsimp only
    rw [owned, Except.ok_bind, validated, Except.ok_bind]
    unfold Scan.insert
    exact if_neg fresh

private theorem getElem?_insert_fresh {entries : NameMap RecoveryEntry} {key other : String}
    (fresh : key ∉ entries) {found : RecoveryEntry} (present : entries[other]? = some found) :
    (entries.insert key entry)[other]? = some found := by
  rw [OrderedMap.getElem?_insert, if_neg, present]
  rintro rfl
  exact fresh (Std.ExtTreeMap.mem_iff_isSome_getElem?.mpr (by rw [present]; rfl))

/-- The entries of the active directories visited so far. -/
structure DescribesActive (crates : Crates) (visited : List (String × TransactionDirectory)) (scan : Scan) : Prop where
  inspected : ∀ directory ∈ visited, ∃ entry, scan.entries[directory.1]? = some entry ∧
    InspectsAs crates directory.1 directory.2 entry
  found : ∀ (key : String) (entry : RecoveryEntry), scan.entries[key]? = some entry → ∃ directory ∈ visited, directory.1 = key

/-- The entries once completed directories were visited too; those from before are kept. -/
structure DescribesCompleted (crates : Crates) (before : NameMap RecoveryEntry)
    (visited : List (String × TransactionDirectory)) (scan : Scan) : Prop where
  kept : ∀ (key : String) (entry : RecoveryEntry), before[key]? = some entry → scan.entries[key]? = some entry
  validated : ∀ directory ∈ visited, ∃ entry : RecoveryEntry, scan.entries[entry.transactionId]? = some entry ∧
    CompletesAs crates directory.1 directory.2 entry
  found : ∀ (key : String) (entry : RecoveryEntry), scan.entries[key]? = some entry → before[key]? = some entry ∨
    ∃ directory ∈ visited, CompletesAs crates directory.1 directory.2 entry ∧ entry.transactionId = key

private theorem DescribesActive.visit {visited : List (String × TransactionDirectory)} {scan after : Scan}
    {next : String × TransactionDirectory} (describes : DescribesActive crates visited scan)
    (accepted : scanActive crates {} scan next = .ok after) : DescribesActive crates (visited ++ [next]) after := by
  obtain ⟨entry, total, _, _, _, inspected, fresh, rfl⟩ := scanActive_eq_ok.mp accepted
  obtain ⟨less, _, alone⟩ := inspect_smaller inspected (Nat.zero_le _)
  constructor
  · intro directory member
    rcases List.mem_append.mp member with earlier | last
    · obtain ⟨found, present, inspects⟩ := describes.inspected directory earlier
      exact ⟨found, getElem?_insert_fresh fresh present, inspects⟩
    · rw [List.mem_singleton.mp last]
      exact ⟨entry, by rw [Std.ExtTreeMap.getElem?_insert_self], less, alone⟩
  · intro key found present
    rw [OrderedMap.getElem?_insert] at present
    split at present
    · next same => exact ⟨next, List.mem_append_right _ List.mem_cons_self, same⟩
    · obtain ⟨directory, member, same⟩ := describes.found key found present
      exact ⟨directory, List.mem_append_left _ member, same⟩

private theorem DescribesCompleted.visit {before : NameMap RecoveryEntry} {visited : List (String × TransactionDirectory)}
    {scan after : Scan} {next : String × TransactionDirectory} (describes : DescribesCompleted crates before visited scan)
    (accepted : scanCompleted crates {} scan next = .ok after) :
    DescribesCompleted crates before (visited ++ [next]) after := by
  obtain ⟨id, terminalState, total, _, parsed, _, validated, fresh, rfl⟩ := scanCompleted_eq_ok.mp accepted
  obtain ⟨less, _, alone⟩ := validateCompleted_smaller validated (Nat.zero_le _)
  have completes : CompletesAs crates next.1 next.2 (completedEntry id next.1 terminalState) :=
    ⟨id, terminalState, parsed, rfl, less, alone⟩
  refine ⟨fun key found present => getElem?_insert_fresh fresh (describes.kept key found present), ?_, ?_⟩
  · intro directory member
    rcases List.mem_append.mp member with earlier | last
    · obtain ⟨found, present, inspects⟩ := describes.validated directory earlier
      exact ⟨found, getElem?_insert_fresh fresh present, inspects⟩
    · rw [List.mem_singleton.mp last]
      exact ⟨_, Std.ExtTreeMap.getElem?_insert_self, completes⟩
  · intro key found present
    rw [OrderedMap.getElem?_insert] at present
    split at present
    · next same =>
      cases present
      exact .inr ⟨next, List.mem_append_right _ List.mem_cons_self, completes, same⟩
    · rcases describes.found key found present with initial | ⟨directory, member, rest⟩
      · exact .inl initial
      · exact .inr ⟨directory, List.mem_append_left _ member, rest⟩

end Directories

section Scan

variable {entries : NameMap RecoveryEntry} {directory : TransactionDirectory} {name : String} {entry : RecoveryEntry}

private theorem scan_describes (scanned : scanControl crates tree {} = .ok entries) : ∃ active scan : Scan,
    scan.entries = entries ∧ DescribesActive crates tree.transactions.toList active ∧
      DescribesCompleted crates active.entries tree.completed.toList scan := by
  unfold scanControl at scanned
  obtain ⟨⟨⟩, _, scanned⟩ := Except.bind_eq_ok.mp scanned
  obtain ⟨active, first, scanned⟩ := Except.bind_eq_ok.mp scanned
  obtain ⟨scan, second, returned⟩ := Except.bind_eq_ok.mp scanned
  refine ⟨active, scan, Except.pure_eq_ok.mp returned, ?_, ?_⟩
  · have initial : DescribesActive crates [] {} := by
      refine ⟨nofun, fun key found present => ?_⟩
      rw [Std.ExtTreeMap.getElem?_empty] at present
      cases present
    exact List.foldlM_ok_induction (fun _ _ _ _ describes accepted => describes.visit accepted) _ initial first
  · have initial : DescribesCompleted crates active.entries [] active :=
      ⟨fun _ _ same => same, nofun, fun _ _ same => .inl same⟩
    exact List.foldlM_ok_induction (fun _ _ _ _ describes accepted => describes.visit accepted) _ initial second

/-- Every active directory has its entry. -/
theorem scan_active (scanned : scanControl crates tree {} = .ok entries)
    (there : tree.transactions[id]? = some directory) :
    ∃ entry, entries[id]? = some entry ∧ InspectsAs crates id directory entry := by
  obtain ⟨active, scan, rfl, describes, completes⟩ := scan_describes scanned
  obtain ⟨entry, present, inspects⟩ :=
    describes.inspected (id, directory) (Std.ExtTreeMap.mem_toList_iff_getElem?_eq_some.mpr there)
  exact ⟨entry, completes.kept id entry present, inspects⟩

/-- Every completed directory has its entry. -/
theorem scan_completed (scanned : scanControl crates tree {} = .ok entries)
    (there : tree.completed[name]? = some directory) :
    ∃ entry : RecoveryEntry, entries[entry.transactionId]? = some entry ∧ CompletesAs crates name directory entry := by
  obtain ⟨active, scan, rfl, _, completes⟩ := scan_describes scanned
  exact completes.validated (name, directory) (Std.ExtTreeMap.mem_toList_iff_getElem?_eq_some.mpr there)

/-- Every entry comes from a directory. -/
theorem scan_entry (scanned : scanControl crates tree {} = .ok entries) (found : entries[id]? = some entry) :
    (∃ directory, tree.transactions[id]? = some directory ∧ InspectsAs crates id directory entry) ∨
      ∃ name directory, tree.completed[name]? = some directory ∧ CompletesAs crates name directory entry ∧
        entry.transactionId = id := by
  obtain ⟨active, scan, rfl, describes, completes⟩ := scan_describes scanned
  rcases completes.found id entry found with initial | ⟨⟨name, directory⟩, member, rest⟩
  · obtain ⟨⟨key, directory⟩, member, rfl⟩ := describes.found id entry initial
    obtain ⟨other, present, inspects⟩ := describes.inspected _ member
    obtain rfl := Option.some.inj (initial.symm.trans present)
    exact .inl ⟨directory, Std.ExtTreeMap.mem_toList_iff_getElem?_eq_some.mp member, inspects⟩
  · exact .inr ⟨name, directory, Std.ExtTreeMap.mem_toList_iff_getElem?_eq_some.mp member, rest⟩

theorem recoveryEntry_scanned : recoveryEntry crates tree id = .ok entry ↔
    validateTransactionId id = .ok () ∧ ∃ entries, scanControl crates tree {} = .ok entries ∧ entries[id]? = some entry := by
  unfold recoveryEntry
  constructor
  · intro found
    obtain ⟨⟨⟩, identifier, found⟩ := Except.bind_eq_ok.mp found
    obtain ⟨entries, scanned, found⟩ := Except.bind_eq_ok.mp found
    refine ⟨identifier, entries, scanned, ?_⟩
    split at found
    · next present => rw [present, Except.ok.inj found]
    · cases found
  · rintro ⟨identifier, entries, scanned, present⟩
    rw [identifier, Except.ok_bind, scanned, Except.ok_bind, present]

end Scan

end Srcmv.Fs
