import Srcmv.Proofs.Fs.Cleanup
import Srcmv.Soundness.JournalLimits

/-! # Restarting a cleanup

A cleanup that crashes between two of its removals leaves a directory that the next scan accepts and
the same cleanup removes, except in one place: when the manifest of a transaction without states has
gone and the temporary of its first state is left.
-/

namespace Srcmv.Fs

open Srcmv.Core Machine

/-- The directory a recovery entry stands for. -/
def RecoveryEntry.directory (entry : RecoveryEntry) : DirectoryPath :=
  match entry.completedPath with
  | some name => .completed name
  | none => .active entry.transactionId

/-- The cleanup of an entry without state records or of a completed one. -/
def cleanupOf (setting : Setting) (entry : RecoveryEntry) : Engine Unit :=
  if entry.kind = .cleanupOnly then cleanupCompleted setting entry
  else rollbackControlOnly setting entry.transactionId

/-- The world a crash leaves after the first `count` removals. -/
def afterRemovals (world : World) (path : DirectoryPath) (count : ℕ) : World :=
  ((removeValidatedChildren Site.io path).run (Oracle.crashAfter (2 * count + 1)) ⟨world, []⟩).2.world

/-- The next scan accepts what is left, and the same cleanup removes it. -/
structure CleanupRestarts (setting : Setting) (entry : RecoveryEntry) (left : World) : Prop where
  accepted : ∃ again, recoveryEntry setting.crates left.control entry.transactionId = .ok again ∧ again.kind ≠ .active
  removed : ∃ later, (cleanupOf setting entry).run Oracle.calm ⟨left, []⟩ = (.done (), later) ∧
    later.world = left.withoutDirectory entry.directory

variable {setting : Setting} {world : World} {id : String} {entry : RecoveryEntry} {count : ℕ}

section Active

variable {directory : TransactionDirectory}

private theorem childrenOf_active (there : world.control.transactions[id]? = some directory) :
    world.childrenOf (.active id) = directory.children := by
  rw [World.childrenOf, ControlTree.children, there]
  rfl

/-- The directory after the first removals. -/
private theorem removing_active (there : world.control.transactions[id]? = some directory) :
    (world.removing (.active id) count).control.transactions[id]? =
      some { directory with children := removeFirst count directory.children } := by
  change (world.control.transactions.alter id _)[id]? = _
  rw [OrderedMap.getElem?_alter, if_pos rfl, there]
  rfl

/-- Inspecting a directory alone gives the kind it has in every scan. -/
private theorem inspectsAs_unique {crates : Crates} (inspects : InspectsAs crates id directory entry) {start total : ℕ}
    {other : RecoveryEntry} (inspected : inspectActiveTransaction crates directory.children id start {} = .ok (other, total)) :
    other = entry := by
  obtain ⟨alone, first⟩ := inspects
  obtain ⟨less, _, second⟩ := inspect_smaller inspected (Nat.zero_le _)
  rw [first] at second
  exact (Prod.mk.inj (Except.ok.inj second)).1.symm

private theorem active_restarts {entries : NameMap RecoveryEntry} (identifier : validateTransactionId id = .ok ())
    (scanned : scanControl setting.crates world.control {} = .ok entries)
    (there : world.control.transactions[id]? = some directory) (inspects : InspectsAs setting.crates id directory entry)
    (cleanable : entry.kind ≠ .active) (clean : ¬LeavesTemporary directory.children entry.kind count) :
    CleanupRestarts setting entry (world.removing (.active id) count) := by
  have shrinks : ∀ start other total,
      inspectActiveTransaction setting.crates directory.children id start {} = .ok (other, total) →
        ∃ again less, inspectActiveTransaction setting.crates (removeFirst count directory.children) id start {} =
          .ok (again, less) ∧ less ≤ total := by
    intro start other total inspected
    obtain rfl := inspectsAs_unique inspects inspected
    obtain ⟨again, less, after, bounded, _⟩ := inspect_removeFirst inspected cleanable clean
    exact ⟨again, less, after, bounded⟩
  obtain ⟨total, alone⟩ := inspects
  obtain ⟨same, _, completed⟩ := inspect_entry alone
  have path : entry.directory = .active id := by rw [RecoveryEntry.directory, completed, same]
  obtain ⟨later, rescanned⟩ := scan_alterChildren scanned there shrinks
  obtain ⟨again, present, left, found⟩ := scan_active rescanned (removing_active there)
  obtain ⟨other, less, after, _, kind⟩ := inspect_removeFirst alone cleanable clean
  obtain ⟨rfl, rfl⟩ := Prod.mk.inj (Except.ok.inj (found.symm.trans after))
  have accepted := recoveryEntry_scanned.mpr ⟨identifier, later, rescanned, present⟩
  obtain ⟨unstated, files⟩ := inspect_unstated found kind
  refine ⟨⟨again, by rw [same]; exact accepted, kind⟩, ?_⟩
  have cleanup : cleanupOf setting entry = rollbackControlOnly setting id := by
    rw [cleanupOf, if_neg, same]
    intro completed
    rcases (inspect_unstated alone cleanable).1.kind_eq with other | other <;> rw [completed] at other <;> cases other
  have triple : Process.Triple Process.Calmly (· = world.removing (.active id) count) (rollbackControlOnly setting id) _ :=
    rollbackControlOnly_triple accepted unstated.kind_eq (inspect_entry found).2.1
      (by rwa [childrenOf_active (removing_active there)])
  obtain ⟨_, final, run, gone⟩ := triple.calm_done (fun _ _ failing => Interrupted.not_calm (.inl rfl) failing.2)
    (fun _ => Interrupted.not_calm (.inr rfl)) rfl
  exact ⟨final, by rw [cleanup]; exact run, by rw [path]; exact gone⟩

end Active

section Completed

variable {directory : TransactionDirectory} {name : String}

private theorem childrenOf_completed (there : world.control.completed[name]? = some directory) :
    world.childrenOf (.completed name) = directory.children := by
  rw [World.childrenOf, there]
  rfl

private theorem removing_completed (there : world.control.completed[name]? = some directory) :
    (world.removing (.completed name) count).control.completed[name]? =
      some { directory with children := removeFirst count directory.children } := by
  change (world.control.completed.alter name _)[name]? = _
  rw [OrderedMap.getElem?_alter, if_pos rfl, there]
  rfl

private theorem completed_restarts {entries : NameMap RecoveryEntry} (identifier : validateTransactionId id = .ok ())
    (scanned : scanControl setting.crates world.control {} = .ok entries)
    (there : world.control.completed[name]? = some directory) (completes : CompletesAs setting.crates name directory entry)
    (same : entry.transactionId = id) : CleanupRestarts setting entry (world.removing (.completed name) count) := by
  obtain ⟨key, terminalState, parsed, rfl, total, valid⟩ := completes
  obtain rfl : key = id := same
  have shrinks : ∀ id start total, validateCompletedContents setting.crates directory.children id start {} = .ok total →
      ∃ less ≤ total, validateCompletedContents setting.crates (removeFirst count directory.children) id start {} = .ok less :=
    fun _ _ _ valid => validateCompleted_removeFirst valid
  obtain ⟨later, rescanned⟩ := scan_alterCompleted scanned there shrinks
  obtain ⟨again, present, key', terminalState', parsed', rfl, less, validRest⟩ :=
    scan_completed rescanned (removing_completed there)
  obtain ⟨rfl, rfl⟩ := Prod.mk.inj (Option.some.inj (parsed.symm.trans parsed'))
  refine ⟨⟨_, recoveryEntry_scanned.mpr ⟨identifier, later, rescanned, present⟩, nofun⟩, ?_⟩
  have triple : Process.Triple Process.Calmly (· = world.removing (.completed name) count)
      (cleanupCompletedDirectory setting Site.io name key) _ :=
    cleanupCompletedDirectory_triple (by rwa [childrenOf_completed (removing_completed there)])
  obtain ⟨_, final, run, gone⟩ := triple.calm_done (fun _ _ failing => Interrupted.not_calm (.inl rfl) failing.2)
    (fun _ => Interrupted.not_calm (.inr rfl)) rfl
  exact ⟨final, run, gone⟩

end Completed

/-- What is left cannot be scanned when only the temporary of the first state remains. -/
private theorem not_restarts_of_leaves {directory : TransactionDirectory} {total : ℕ}
    (there : world.control.transactions[id]? = some directory)
    (inspected : inspectActiveTransaction setting.crates directory.children id 0 {} = .ok (entry, total))
    (cleanable : entry.kind ≠ .active) (leaves : LeavesTemporary directory.children entry.kind count) :
    ¬CleanupRestarts setting entry (world.removing (.active id) count) := by
  intro restarts
  obtain ⟨unstated, _⟩ := inspect_unstated inspected cleanable
  obtain ⟨same, _, _⟩ := inspect_entry inspected
  obtain ⟨again, rescanned, _⟩ := restarts.accepted
  rw [same] at rescanned
  obtain ⟨_, later, rescan, _⟩ := recoveryEntry_scanned.mp rescanned
  obtain ⟨_, _, _, impossible⟩ := scan_active rescan (removing_active there)
  exact inspect_lone_temporary (keys_of_leavesTemporary unstated leaves) impossible

/-- A cleanup can be restarted after any of its removals, unless it removed the manifest and left the
temporary of the first state. -/
theorem cleanup_restarts_iff (scanned : recoveryEntry setting.crates world.control id = .ok entry)
    (cleanable : entry.kind ≠ .active) (within : count ≤ (world.childrenOf entry.directory).keys.length) :
    CleanupRestarts setting entry (afterRemovals world entry.directory count) ↔
      ¬LeavesTemporary (world.childrenOf entry.directory) entry.kind count := by
  obtain ⟨identifier, entries, accepted, present⟩ := recoveryEntry_scanned.mp scanned
  rcases scan_entry accepted present with ⟨directory, there, inspects⟩ | ⟨name, directory, there, completes, same⟩
  · obtain ⟨total, alone⟩ := inspects
    obtain ⟨same, _, completed⟩ := inspect_entry alone
    have path : entry.directory = .active id := by rw [RecoveryEntry.directory, completed, same]
    obtain ⟨unstated, files⟩ := inspect_unstated alone cleanable
    rw [path, childrenOf_active there] at within ⊢
    rw [afterRemovals, removeValidatedChildren_crashAfter (by rwa [childrenOf_active there]) (by rwa [childrenOf_active there])]
    exact ⟨fun restarts leaves => not_restarts_of_leaves there alone cleanable leaves restarts,
      active_restarts identifier accepted there ⟨total, alone⟩ cleanable⟩
  · have path : entry.directory = .completed name ∧ entry.kind = .cleanupOnly := by
      obtain ⟨key, terminalState, _, rfl, _⟩ := completes
      exact ⟨rfl, rfl⟩
    have files : OnlyFiles (world.childrenOf (.completed name)) := by
      obtain ⟨key, terminalState, _, _, total, valid⟩ := completes
      rw [childrenOf_completed there]
      exact validateCompleted_onlyFiles valid
    rw [path.1] at within ⊢
    rw [path.2, afterRemovals, removeValidatedChildren_crashAfter files within]
    exact ⟨fun _ leaves => (by cases leaves.1), fun _ => completed_restarts identifier accepted there completes same⟩

section Sample

/-- A published manifest with the complete temporary of the first state. -/
def Sample.interruptedContents : Entry → Option Item :=
  Function.update (Function.update (fun _ => none) .manifest
      (some (.file ⟨⟨1, 30⟩, 1, 0o600, manifestRecord Sample.setting.crates Sample.manifest⟩)))
    (.temporary 0) (some (.file ⟨⟨1, 31⟩, 1, 0o600, stateRecord Sample.setting.crates Sample.firstState⟩))

def Sample.interruptedChildren : NameMap Item :=
  ((∅ : NameMap Item).alter (Entry.manifest.name) fun _ => Sample.interruptedContents .manifest).alter (Entry.temporary 0).name
    fun _ => Sample.interruptedContents (.temporary 0)

theorem Sample.interrupted_holds : Holds Sample.interruptedChildren Sample.interruptedContents :=
  (Holds.empty.alter .manifest _).alter (.temporary 0) _

private theorem interrupted_manifestOnly : ManifestOnly Sample.setting.crates Sample.manifest Sample.interruptedContents where
  journaled := {
    published := ⟨_, rfl, rfl⟩
    noTemporary := rfl
    record := nofun
    noRecord _ _ := rfl
    temporary index other := by
      rw [Sample.interruptedContents, Function.update_of_ne (by simpa using other)]
      rfl
    candidate _ := nofun
    noCandidate _ _ := rfl
    backup _ := nofun
    noBackup _ _ := rfl }
  candidate _ := rfl
  backup _ := rfl

private theorem interrupted_inspected : ∃ total, inspectActiveTransaction Sample.setting.crates Sample.interruptedChildren
    Sample.transactionId 0 {} = .ok (manifestOnlyEntry Sample.transactionId, total) := by
  have manifestSize := Sample.manifest_encodes.size
  have stateSize := (Sample.firstState_sound.encodes _ List.mem_cons_self).size
  have limits : maxRecordBytes + maxRecordBytes ≤ maxRecoveryBytes := by norm_num [maxRecordBytes, maxRecoveryBytes]
  exact ⟨_, inspect_manifestOnly_complete Sample.interrupted_holds interrupted_manifestOnly Sample.manifest_encodes
    Sample.firstState_sound ⟨_, rfl, rfl⟩ (by omega)⟩

private theorem interrupted_accepted : recoveryEntry Sample.setting.crates (Sample.worldWith Sample.interruptedChildren).control
    Sample.transactionId = .ok (manifestOnlyEntry Sample.transactionId) := by
  obtain ⟨total, inspected⟩ := interrupted_inspected
  exact recoveryEntry_active (Sample.onlyActive_with _) inspected rfl

private theorem interrupted_keys : Sample.interruptedChildren.keys.length = 2 := by
  obtain ⟨total, inspected⟩ := interrupted_inspected
  have member : "state-00000000.tmp" ∈ Sample.interruptedChildren.keys :=
    Sample.interrupted_holds.mem_keys.mpr ⟨.temporary 0, stateName_zero, rfl⟩
  cases (inspect_unstated inspected nofun).1 with
  | manifest keys =>
    rw [keys, List.mem_singleton] at member
    exact absurd member (by decide)
  | manifestTemporary keys => rw [keys]; rfl

end Sample

/-- Both removals done, the cleanup can be restarted. -/
theorem cleanup_restarts_after_both :
    CleanupRestarts Sample.setting (manifestOnlyEntry Sample.transactionId)
      (afterRemovals (Sample.worldWith Sample.interruptedChildren) (.active Sample.transactionId) 2) := by
  have both : 2 ≤ ((Sample.worldWith Sample.interruptedChildren).childrenOf (.active Sample.transactionId)).keys.length := by
    rw [childrenOf_active (Sample.onlyActive_with Sample.interruptedChildren).active.here]
    exact interrupted_keys.ge
  apply (cleanup_restarts_iff interrupted_accepted nofun both).mpr
  rintro ⟨-, -, impossible⟩
  cases impossible

/-- A crash right after the removal of the manifest leaves the temporary of the first state, which no
scan accepts. -/
theorem cleanup_stuck_after_manifest :
    recoveryEntry Sample.setting.crates (Sample.worldWith Sample.interruptedChildren).control Sample.transactionId =
        .ok (manifestOnlyEntry Sample.transactionId) ∧
      ¬CleanupRestarts Sample.setting (manifestOnlyEntry Sample.transactionId)
        (afterRemovals (Sample.worldWith Sample.interruptedChildren) (.active Sample.transactionId) 1) := by
  have there := (Sample.onlyActive_with Sample.interruptedChildren).active.here
  obtain ⟨total, inspected⟩ := interrupted_inspected
  refine ⟨interrupted_accepted, ?_⟩
  rw [afterRemovals, removeValidatedChildren_crashAfter
    (by rw [childrenOf_active there]; exact (inspect_unstated inspected nofun).2)
    (by rw [childrenOf_active there]; exact interrupted_keys.ge.trans' one_le_two)]
  refine not_restarts_of_leaves there inspected nofun ⟨rfl, ?_, rfl⟩
  exact Sample.interrupted_holds.mem_iff.mpr (show (Sample.interruptedContents (.temporary 0)).isSome from rfl)

end Srcmv.Fs
