import Srcmv.Model.Fs.Workspace
import Srcmv.ToMathlib.OrderedMap

/-! # What an acquired snapshot is

Files carry their position as identifier, every path was accepted by the path parser, every file is
read whole with its digest and line index, no path comes twice, and no file under two paths.
-/

namespace Srcmv.Fs

open Srcmv.Core

/-- A snapshot as acquisition leaves it. -/
structure Acquired (sha256 : Bytes → Sha256Digest) (limits : SnapshotLimits) (snapshot : WorkspaceSnapshot) :
    Prop where
  positions : ∀ (index : ℕ) (file : FileSnapshot), snapshot.files[index]? = some file → file.id = index
  filePaths : ∀ file ∈ snapshot.files, parseRelativePath file.path.value limits.pathBytes = .ok file.path
  absentPaths : ∀ missing ∈ snapshot.absentPaths,
    parseRelativePath missing.path.value limits.pathBytes = .ok missing.path
  digests : ∀ file ∈ snapshot.files, file.digest = sha256 file.bytes
  sized : ∀ file ∈ snapshot.files, file.bytes.length ≤ u64Max
  linked : ∀ file ∈ snapshot.files, file.linkCount ≤ u64Max
  indexed : snapshot.Indexed
  counted : snapshot.files.length ≤ u64Max

variable {view : WorkspaceView} {sha256 : Bytes → Sha256Digest} {limits : SnapshotLimits}

theorem checkedFsAdd_eq_ok {left right sum : ℕ} {resource : String} :
    checkedFsAdd left right resource = .ok sum ↔ left + right ≤ u64Max ∧ sum = left + right := by
  rw [checkedFsAdd]
  split_ifs with fits
  · exact ⟨fun same => ⟨fits, (Except.ok.inj same).symm⟩, fun ⟨_, same⟩ => by rw [same]⟩
  · exact ⟨nofun, fun ⟨fits', _⟩ => absurd fits' fits⟩

theorem parseRelativePath_eq {value : String} {limit : ℕ} {path : WorkspaceRelativePath}
    (parsed : parseRelativePath value limit = .ok path) : path.value = value := by
  rw [parseRelativePath] at parsed
  obtain ⟨_, -, parsed⟩ := Except.bind_eq_ok.mp parsed
  obtain ⟨_, -, parsed⟩ := Except.bind_eq_ok.mp parsed
  obtain ⟨_, -, parsed⟩ := Except.bind_eq_ok.mp parsed
  obtain ⟨_, -, parsed⟩ := Except.bind_eq_ok.mp parsed
  obtain ⟨_, -, parsed⟩ := Except.bind_eq_ok.mp parsed
  obtain ⟨_, -, parsed⟩ := Except.bind_eq_ok.mp parsed
  obtain ⟨_, -, parsed⟩ := Except.bind_eq_ok.mp parsed
  obtain ⟨_, -, parsed⟩ := Except.bind_eq_ok.mp parsed
  rw [← Except.pure_eq_ok.mp parsed]

/-- Every distinct required path was accepted by the parser. -/
private def KeysParsed (limits : SnapshotLimits) (unique : NameMap RequiredPathState) : Prop :=
  ∀ (path : String), path ∈ unique → parseRelativePath path limits.pathBytes = .ok ⟨path⟩

private theorem keysParsed_step (requirement : SnapshotRequirement)
    (unique next : NameMap RequiredPathState) (parsed : KeysParsed limits unique)
    (required : WorkspaceView.requireUnique limits unique requirement = .ok next) : KeysParsed limits next := by
  rw [WorkspaceView.requireUnique] at required
  obtain ⟨normalized, accepted, required⟩ := Except.bind_eq_ok.mp required
  have value := parseRelativePath_eq accepted
  split at required
  · split_ifs at required
    exact Except.ok.inj required ▸ parsed
  · obtain rfl := Except.ok.inj required
    intro path member
    rcases Std.ExtTreeMap.mem_insert.mp member with same | earlier
    · obtain rfl := OrderedMap.compare_eq_iff.mp same
      rw [value]
      exact accepted.trans (congrArg Except.ok (WorkspaceRelativePath.value_inj.mp value))
    · exact parsed path earlier

/-- A file read for a path is whole, hashed and indexed. -/
structure ReadWhole (sha256 : Bytes → Sha256Digest) (path : WorkspaceRelativePath) (file : FileSnapshot) : Prop where
  path : file.path = path
  digest : file.digest = sha256 file.bytes
  sized : file.bytes.length ≤ u64Max
  linked : file.linkCount ≤ u64Max
  indexed : ∃ maximumLines maximumMemoryBytes,
    LineIndex.fromBytesWithLimits file.bytes maximumLines maximumMemoryBytes = .ok file.lineIndex

theorem acquirePath_ok {path : WorkspaceRelativePath} {required : RequiredPathState} {accounting : SnapshotAccounting}
    {acquired : AcquiredPath} (accepted : view.acquirePath sha256 path required limits accounting = .ok acquired) :
    match acquired with
    | .existing file => ReadWhole sha256 path file
    | .absent missing => missing.path = path := by
  rw [WorkspaceView.acquirePath] at accepted
  obtain ⟨validated, -, accepted⟩ := Except.bind_eq_ok.mp accepted
  split at accepted
  · next node _ _ _ =>
    obtain ⟨file, read, accepted⟩ := Except.bind_eq_ok.mp accepted
    obtain ⟨_, -, accepted⟩ := Except.bind_eq_ok.mp accepted
    obtain rfl := Except.pure_eq_ok.mp accepted
    rw [WorkspaceView.acquireExisting] at read
    obtain ⟨_, -, read⟩ := Except.bind_eq_ok.mp read
    obtain ⟨total, added, read⟩ := Except.bind_eq_ok.mp read
    obtain ⟨_, -, read⟩ := Except.bind_eq_ok.mp read
    obtain ⟨lineIndex, built, read⟩ := Except.bind_eq_ok.mp read
    obtain rfl := Except.pure_eq_ok.mp read
    obtain ⟨sized, -⟩ := checkedFsAdd_eq_ok.mp added
    refine ⟨rfl, rfl, le_trans (Nat.le_add_left _ _) sized, Nat.le_of_lt_succ (UInt64.toNat_lt _), ?_⟩
    rw [buildLineIndex] at built
    split at built
    · next index found => exact ⟨_, _, (Except.ok.inj built) ▸ found⟩
    · cases built
  · cases accepted
  · cases accepted
  · cases accepted
  · obtain rfl := Except.pure_eq_ok.mp accepted
    rfl

/-- The acquisition so far is a snapshot, and its files were counted as identities. -/
private structure Progressed (sha256 : Bytes → Sha256Digest) (limits : SnapshotLimits)
    (acquisition : WorkspaceView.Acquisition) : Prop where
  acquired : ∀ identity : FileIdentity, Acquired sha256 limits ⟨identity, acquisition.files, acquisition.absentPaths⟩
  charged : acquisition.files.length ≤ acquisition.accounting.identities
  bounded : acquisition.accounting.identities ≤ u64Max

private theorem progressed_step {current next : WorkspaceView.Acquisition} {entry : String × RequiredPathState}
    (parsed : parseRelativePath entry.1 limits.pathBytes = .ok ⟨entry.1⟩) (progressed : Progressed sha256 limits current)
    (accepted : view.acquireNext sha256 limits current entry = .ok next) : Progressed sha256 limits next := by
  rw [WorkspaceView.acquireNext] at accepted
  obtain ⟨accounting, charged, accepted⟩ := Except.bind_eq_ok.mp accepted
  obtain ⟨acquired, found, accepted⟩ := Except.bind_eq_ok.mp accepted
  rw [SnapshotAccounting.chargeIdentity] at charged
  obtain ⟨identities, added, charged⟩ := Except.bind_eq_ok.mp charged
  obtain ⟨_, -, charged⟩ := Except.bind_eq_ok.mp charged
  obtain rfl := Except.pure_eq_ok.mp charged
  obtain ⟨bounded, rfl⟩ := checkedFsAdd_eq_ok.mp added
  have read := acquirePath_ok found
  cases acquired with
  | absent missing =>
    obtain rfl := Except.pure_eq_ok.mp accepted
    refine ⟨fun identity => ?_, Nat.le_succ_of_le progressed.charged, bounded⟩
    have before := progressed.acquired identity
    refine { before with absentPaths := fun other member => ?_ }
    rcases List.mem_append.mp member with earlier | last
    · exact before.absentPaths other earlier
    · obtain rfl := List.mem_singleton.mp last
      rw [show other.path = ⟨entry.1⟩ from read]
      exact parsed
  | existing file =>
    obtain ⟨aliases, -, accepted⟩ := Except.bind_eq_ok.mp accepted
    obtain ⟨charged', sums, accepted⟩ := Except.bind_eq_ok.mp accepted
    obtain rfl := Except.pure_eq_ok.mp accepted
    have identitiesKept : charged'.identities = current.accounting.identities + 1 := by
      rw [SnapshotAccounting.chargeFile] at sums
      obtain ⟨_, -, sums⟩ := Except.bind_eq_ok.mp sums
      obtain ⟨_, -, sums⟩ := Except.bind_eq_ok.mp sums
      obtain ⟨_, -, sums⟩ := Except.bind_eq_ok.mp sums
      obtain ⟨_, -, sums⟩ := Except.bind_eq_ok.mp sums
      obtain ⟨_, -, sums⟩ := Except.bind_eq_ok.mp sums
      obtain ⟨_, -, sums⟩ := Except.bind_eq_ok.mp sums
      rw [← Except.pure_eq_ok.mp sums]
    have lengths : (current.files ++ [{ file with id := current.files.length }]).length ≤ current.accounting.identities + 1 := by
      rw [List.length_append, List.length_singleton]
      exact Nat.succ_le_succ progressed.charged
    refine ⟨fun identity => ?_, identitiesKept ▸ lengths, identitiesKept ▸ bounded⟩
    have before := progressed.acquired identity
    have file_mem {other : FileSnapshot} (member : other ∈ current.files ++ [{ file with id := current.files.length }]) :
        other ∈ current.files ∨ other = { file with id := current.files.length } := by
      rwa [List.mem_append, List.mem_singleton] at member
    constructor
    · intro index other here
      rcases Nat.lt_or_ge index current.files.length with inside | beyond
      · dsimp only at here
        rw [List.getElem?_append_left inside] at here
        exact before.positions index other here
      · dsimp only at here
        rw [List.getElem?_append_right beyond, List.getElem?_singleton] at here
        split_ifs at here with zero
        rw [← Option.some.inj here]
        exact (Nat.le_antisymm (Nat.le_of_sub_eq_zero zero) beyond).symm
    · intro other member
      rcases file_mem member with earlier | rfl
      · exact before.filePaths other earlier
      · rw [show file.path = ⟨entry.1⟩ from read.path]
        exact parsed
    · exact before.absentPaths
    · intro other member
      rcases file_mem member with earlier | rfl
      · exact before.digests other earlier
      · exact read.digest
    · intro other member
      rcases file_mem member with earlier | rfl
      · exact before.sized other earlier
      · exact read.sized
    · intro other member
      rcases file_mem member with earlier | rfl
      · exact before.linked other earlier
      · exact read.linked
    · intro other member
      rcases file_mem member with earlier | rfl
      · exact before.indexed other earlier
      · exact read.indexed
    · exact lengths.trans bounded

private theorem progressed_initial : Progressed sha256 limits {} := by
  refine ⟨fun identity => ?_, le_rfl, Nat.zero_le _⟩
  constructor
  · intro index file here
    rw [List.getElem?_nil] at here
    cases here
  · intro file member
    cases member
  · intro missing member
    cases member
  · intro file member
    cases member
  · intro file member
    cases member
  · intro file member
    cases member
  · intro file member
    cases member
  · exact Nat.zero_le _

/-- Every accepted acquisition is an acquired snapshot. -/
theorem acquireSnapshot_ok {requirements : List SnapshotRequirement} {snapshot : WorkspaceSnapshot}
    (accepted : view.acquireSnapshot sha256 requirements limits = .ok snapshot) :
    Acquired sha256 limits snapshot := by
  rw [WorkspaceView.acquireSnapshot] at accepted
  obtain ⟨unique, required, accepted⟩ := Except.bind_eq_ok.mp accepted
  obtain ⟨_, -, accepted⟩ := Except.bind_eq_ok.mp accepted
  obtain ⟨acquisition, folded, accepted⟩ := Except.bind_eq_ok.mp accepted
  rw [Except.pure_eq_ok] at accepted
  have nothing : KeysParsed limits ∅ := fun path member => absurd member Std.ExtTreeMap.not_mem_empty
  have parsed : KeysParsed limits unique :=
    List.foldlM_ok_invariant (fun requirement _ => keysParsed_step requirement) nothing required
  have listed (entry : String × RequiredPathState) (member : entry ∈ unique.toList) : entry.1 ∈ unique := by
    apply Std.ExtTreeMap.mem_iff_isSome_getElem?.mpr
    rw [Std.ExtTreeMap.mem_toList_iff_getElem?_eq_some.mp member]
    rfl
  have steps : ∀ entry ∈ unique.toList, ∀ current next, Progressed sha256 limits current →
      view.acquireNext sha256 limits current entry = .ok next → Progressed sha256 limits next :=
    fun entry member _ _ progressed stepped => progressed_step (parsed entry.1 (listed entry member)) progressed stepped
  exact accepted ▸ (List.foldlM_ok_invariant steps progressed_initial folded).acquired view.identity

/-! ## Paths -/

/-- What a snapshot shows, as it can be required again. -/
def shownStates (files : List FileSnapshot) (absentPaths : List AbsentPathSnapshot) : List (String × RequiredPathState) :=
  files.map (fun file => (file.path.value, .existing file.digest)) ++ absentPaths.map fun missing => (missing.path.value, .absent)

/-- An acquisition shows the requirements that it has been through. -/
private def ShowsRequired (done : List (String × RequiredPathState)) (acquisition : WorkspaceView.Acquisition) : Prop :=
  (shownStates acquisition.files acquisition.absentPaths).Perm done

/-- What is acquired at a path is in the state that is required of it. -/
private theorem acquirePath_required {path : WorkspaceRelativePath} {required : RequiredPathState}
    {accounting : SnapshotAccounting} {acquired : AcquiredPath}
    (accepted : view.acquirePath sha256 path required limits accounting = .ok acquired) :
    match acquired with
    | .existing file => required = .existing file.digest
    | .absent _ => required = .absent := by
  rw [WorkspaceView.acquirePath] at accepted
  obtain ⟨validated, -, accepted⟩ := Except.bind_eq_ok.mp accepted
  split at accepted
  · obtain ⟨file, -, accepted⟩ := Except.bind_eq_ok.mp accepted
    obtain ⟨_, expected, accepted⟩ := Except.bind_eq_ok.mp accepted
    obtain rfl := Except.pure_eq_ok.mp accepted
    exact congrArg _ (not_not.mp (Except.rejectIf_eq_ok.mp expected))
  · cases accepted
  · cases accepted
  · cases accepted
  · obtain rfl := Except.pure_eq_ok.mp accepted
    rfl

private theorem showsRequired_step (done : List (String × RequiredPathState)) (entry : String × RequiredPathState)
    (current next : WorkspaceView.Acquisition) (shows_ : ShowsRequired done current)
    (accepted : view.acquireNext sha256 limits current entry = .ok next) : ShowsRequired (done ++ [entry]) next := by
  rw [WorkspaceView.acquireNext] at accepted
  obtain ⟨accounting, -, accepted⟩ := Except.bind_eq_ok.mp accepted
  obtain ⟨acquired, found, accepted⟩ := Except.bind_eq_ok.mp accepted
  have read := acquirePath_ok found
  have required := acquirePath_required found
  rw [ShowsRequired, shownStates]
  cases acquired with
  | absent missing =>
    obtain rfl := Except.pure_eq_ok.mp accepted
    have path : missing.path.value = entry.1 := congrArg WorkspaceRelativePath.value (show missing.path = ⟨entry.1⟩ from read)
    have same : (missing.path.value, RequiredPathState.absent) = entry := by rw [path, ← show entry.2 = .absent from required]
    rw [List.map_append, List.map_singleton, ← List.append_assoc, same]
    exact shows_.append_right _
  | existing file =>
    obtain ⟨aliases, -, accepted⟩ := Except.bind_eq_ok.mp accepted
    obtain ⟨charged, -, accepted⟩ := Except.bind_eq_ok.mp accepted
    obtain rfl := Except.pure_eq_ok.mp accepted
    have path : file.path.value = entry.1 := congrArg WorkspaceRelativePath.value read.path
    have same : (file.path.value, RequiredPathState.existing file.digest) = entry := by
      rw [path, ← show entry.2 = .existing file.digest from required]
    rw [List.map_append, List.map_singleton, same, List.append_assoc]
    exact (List.perm_append_comm.append_left _).trans ((List.append_assoc ..).symm ▸ shows_.append_right [entry])

private theorem acquired_shows {unique : NameMap RequiredPathState} {acquisition : WorkspaceView.Acquisition}
    (folded : unique.toList.foldlM (view.acquireNext sha256 limits) {} = .ok acquisition) :
    (shownStates acquisition.files acquisition.absentPaths).Perm unique.toList := by
  have initial : ShowsRequired [] {} := List.Perm.nil
  have shows_ : ShowsRequired ([] ++ unique.toList) acquisition :=
    List.foldlM_ok_induction showsRequired_step unique.toList initial folded
  exact shows_

/-- No path is acquired twice. -/
theorem acquireSnapshot_distinct {requirements : List SnapshotRequirement} {snapshot : WorkspaceSnapshot}
    (accepted : view.acquireSnapshot sha256 requirements limits = .ok snapshot) :
    (snapshot.files.map (fun file => file.path.value) ++ snapshot.absentPaths.map fun missing => missing.path.value).Nodup := by
  rw [WorkspaceView.acquireSnapshot] at accepted
  obtain ⟨unique, -, accepted⟩ := Except.bind_eq_ok.mp accepted
  obtain ⟨_, -, accepted⟩ := Except.bind_eq_ok.mp accepted
  obtain ⟨acquisition, folded, accepted⟩ := Except.bind_eq_ok.mp accepted
  obtain rfl := Except.pure_eq_ok.mp accepted
  have paths := (acquired_shows folded).map Prod.fst
  rw [shownStates, List.map_append, List.map_map, List.map_map, Std.ExtTreeMap.map_fst_toList_eq_keys] at paths
  exact paths.nodup_iff.mpr (OrderedMap.nodup_keys unique)

/-! ## The same requirements again -/

/-- New requirements of different paths join the others. -/
private theorem requireUnique_all (entries : List (String × RequiredPathState))
    (parsed : ∀ entry ∈ entries, parseRelativePath entry.1 limits.pathBytes = .ok ⟨entry.1⟩)
    (distinct : (entries.map Prod.fst).Nodup) (unique : NameMap RequiredPathState) (new : ∀ entry ∈ entries, entry.1 ∉ unique) :
    ∃ all, (entries.map fun entry => (⟨⟨entry.1⟩, entry.2⟩ : SnapshotRequirement)).foldlM (WorkspaceView.requireUnique limits) unique =
        .ok all ∧ ∀ path state, all[path]? = some state ↔ unique[path]? = some state ∨ (path, state) ∈ entries := by
  induction entries generalizing unique with
  | nil => exact ⟨unique, rfl, by simp⟩
  | cons entry rest ih =>
    obtain ⟨different, distinct⟩ := List.nodup_cons.mp distinct
    have absent : unique[entry.1]? = none := Std.ExtTreeMap.getElem?_eq_none (new entry List.mem_cons_self)
    have joined : WorkspaceView.requireUnique limits unique ⟨⟨entry.1⟩, entry.2⟩ = .ok (unique.insert entry.1 entry.2) := by
      rw [WorkspaceView.requireUnique, parsed entry List.mem_cons_self, Except.ok_bind, absent]
    have others : ∀ other ∈ rest, other.1 ∉ unique.insert entry.1 entry.2 := by
      intro other member inserted
      rcases Std.ExtTreeMap.mem_insert.mp inserted with same | earlier
      · exact different (OrderedMap.compare_eq_iff.mp same ▸ List.mem_map_of_mem member)
      · exact new other (List.mem_cons_of_mem _ member) earlier
    obtain ⟨all, folded, found⟩ := ih (fun other member => parsed other (List.mem_cons_of_mem _ member)) distinct _ others
    refine ⟨all, ?_, fun path state => ?_⟩
    · rw [List.map_cons, List.foldlM_cons, joined, Except.ok_bind, folded]
    · rw [found, OrderedMap.getElem?_insert, List.mem_cons, Prod.ext_iff]
      by_cases same : entry.1 = path
      · subst same
        rw [if_pos rfl, absent]
        simp [eq_comm]
      · rw [if_neg same]
        simp [Ne.symm same]

/-- Requiring what a snapshot shows acquires the same snapshot. -/
theorem acquireSnapshot_again {requirements : List SnapshotRequirement} {snapshot : WorkspaceSnapshot}
    (accepted : view.acquireSnapshot sha256 requirements limits = .ok snapshot) :
    view.acquireSnapshot sha256 ((shownStates snapshot.files snapshot.absentPaths).map fun entry => ⟨⟨entry.1⟩, entry.2⟩)
      limits = .ok snapshot := by
  have acquired := acquireSnapshot_ok accepted
  have distinct := acquireSnapshot_distinct accepted
  rw [WorkspaceView.acquireSnapshot] at accepted ⊢
  obtain ⟨unique, -, accepted⟩ := Except.bind_eq_ok.mp accepted
  obtain ⟨⟨⟩, bounded, accepted⟩ := Except.bind_eq_ok.mp accepted
  obtain ⟨acquisition, folded, accepted⟩ := Except.bind_eq_ok.mp accepted
  obtain rfl := Except.pure_eq_ok.mp accepted
  have shows_ := acquired_shows folded
  obtain ⟨all, required, found⟩ := requireUnique_all (shownStates acquisition.files acquisition.absentPaths) (by
    intro entry member
    rcases List.mem_append.mp member with member | member
    · obtain ⟨file, inside, rfl⟩ := List.mem_map.mp member
      exact acquired.filePaths file inside
    · obtain ⟨missing, inside, rfl⟩ := List.mem_map.mp member
      exact acquired.absentPaths missing inside) (by
    rw [shownStates, List.map_append, List.map_map, List.map_map]
    exact distinct) ∅ fun _ _ => Std.ExtTreeMap.not_mem_empty
  have same : all = unique := by
    apply Std.ExtTreeMap.ext_getElem?
    intro path
    apply Option.ext
    intro state
    rw [found, Std.ExtTreeMap.getElem?_empty, shows_.mem_iff, Std.ExtTreeMap.mem_toList_iff_getElem?_eq_some]
    simp
  dsimp only
  rw [required, Except.ok_bind, same, bounded, Except.ok_bind, folded]
  rfl

/-! ## Aliases -/

/-- Every file that was acquired is there under its path, and its path is the first one seen of it. -/
private structure Seen (view : WorkspaceView) (acquisition : WorkspaceView.Acquisition) : Prop where
  files : ∀ file ∈ acquisition.files, ∃ node, view.item file.path.value = some (.file node) ∧ node.identity = file.identity
  absentPaths : ∀ missing ∈ acquisition.absentPaths, view.item missing.path.value = none
  first : ∀ file ∈ acquisition.files, acquisition.aliases.lookup file.identity = some file.path.value

/-- What is acquired at a path is there. -/
private theorem acquirePath_seen {path : WorkspaceRelativePath} {required : RequiredPathState} {accounting : SnapshotAccounting}
    {acquired : AcquiredPath} (accepted : view.acquirePath sha256 path required limits accounting = .ok acquired) :
    match acquired with
    | .existing file => ∃ node, view.item path.value = some (.file node) ∧ node.identity = file.identity
    | .absent _ => view.item path.value = none := by
  rw [WorkspaceView.acquirePath] at accepted
  obtain ⟨validated, -, accepted⟩ := Except.bind_eq_ok.mp accepted
  split at accepted
  · next node _ here _ _ =>
    obtain ⟨file, read, accepted⟩ := Except.bind_eq_ok.mp accepted
    obtain ⟨_, -, accepted⟩ := Except.bind_eq_ok.mp accepted
    obtain rfl := Except.pure_eq_ok.mp accepted
    rw [WorkspaceView.acquireExisting] at read
    obtain ⟨_, -, read⟩ := Except.bind_eq_ok.mp read
    obtain ⟨_, -, read⟩ := Except.bind_eq_ok.mp read
    obtain ⟨_, -, read⟩ := Except.bind_eq_ok.mp read
    obtain ⟨_, -, read⟩ := Except.bind_eq_ok.mp read
    obtain rfl := Except.pure_eq_ok.mp read
    exact ⟨node, here, rfl⟩
  · cases accepted
  · cases accepted
  · cases accepted
  · next here _ _ =>
    obtain rfl := Except.pure_eq_ok.mp accepted
    exact here

/-- A file that passes stands under the path it was first seen at, and the earlier files keep theirs. -/
private theorem rejectAlias_ok {aliases next : Aliases} {identity : FileIdentity} {path : WorkspaceRelativePath}
    (accepted : rejectAlias aliases identity path = .ok next) :
    next.lookup identity = some path.value ∧
      ∀ other first, aliases.lookup other = some first → next.lookup other = some first := by
  rw [rejectAlias] at accepted
  split at accepted
  · next firstPath found =>
    split_ifs at accepted with different
    obtain rfl := Except.ok.inj accepted
    exact ⟨by rw [found, not_not.mp different], fun _ _ same => same⟩
  · next absent =>
    obtain rfl := Except.ok.inj accepted
    refine ⟨by rw [List.lookup_cons, beq_self_eq_true], fun other first found => ?_⟩
    have new : other ≠ identity := by
      rintro rfl
      rw [absent] at found
      cases found
    rw [List.lookup_cons, beq_false_of_ne new]
    exact found

private theorem seen_step {current next : WorkspaceView.Acquisition} {entry : String × RequiredPathState}
    (seen : Seen view current) (accepted : view.acquireNext sha256 limits current entry = .ok next) : Seen view next := by
  rw [WorkspaceView.acquireNext] at accepted
  obtain ⟨accounting, -, accepted⟩ := Except.bind_eq_ok.mp accepted
  obtain ⟨acquired, found, accepted⟩ := Except.bind_eq_ok.mp accepted
  have read := acquirePath_ok found
  have here := acquirePath_seen found
  cases acquired with
  | absent missing =>
    obtain rfl := Except.pure_eq_ok.mp accepted
    refine ⟨seen.files, fun other member => ?_, seen.first⟩
    rcases List.mem_append.mp member with earlier | last
    · exact seen.absentPaths other earlier
    · obtain rfl := List.mem_singleton.mp last
      rw [show other.path = ⟨entry.1⟩ from read]
      exact here
  | existing file =>
    obtain ⟨aliases, unaliased, accepted⟩ := Except.bind_eq_ok.mp accepted
    obtain ⟨charged, -, accepted⟩ := Except.bind_eq_ok.mp accepted
    obtain rfl := Except.pure_eq_ok.mp accepted
    obtain ⟨new, kept⟩ := rejectAlias_ok unaliased
    have path : file.path = ⟨entry.1⟩ := read.path
    refine ⟨fun other member => ?_, seen.absentPaths, fun other member => ?_⟩
    · rcases List.mem_append.mp member with earlier | last
      · exact seen.files other earlier
      · obtain rfl := List.mem_singleton.mp last
        obtain ⟨node, stands, same⟩ := here
        exact ⟨node, path ▸ stands, same⟩
    · rcases List.mem_append.mp member with earlier | last
      · exact kept _ _ (seen.first other earlier)
      · obtain rfl := List.mem_singleton.mp last
        exact path ▸ new

/-- A snapshot and the view it was acquired from: its files are there and are told apart by their paths, its absent
paths are not there. -/
structure Shown (view : WorkspaceView) (snapshot : WorkspaceSnapshot) : Prop where
  files : ∀ file ∈ snapshot.files, ∃ node, view.item file.path.value = some (.file node) ∧ node.identity = file.identity
  absentPaths : ∀ missing ∈ snapshot.absentPaths, view.item missing.path.value = none
  unaliased : ∀ left ∈ snapshot.files, ∀ right ∈ snapshot.files, left.identity = right.identity → left.path = right.path

theorem acquireSnapshot_shown {requirements : List SnapshotRequirement} {snapshot : WorkspaceSnapshot}
    (accepted : view.acquireSnapshot sha256 requirements limits = .ok snapshot) : Shown view snapshot := by
  rw [WorkspaceView.acquireSnapshot] at accepted
  obtain ⟨unique, -, accepted⟩ := Except.bind_eq_ok.mp accepted
  obtain ⟨_, -, accepted⟩ := Except.bind_eq_ok.mp accepted
  obtain ⟨acquisition, folded, accepted⟩ := Except.bind_eq_ok.mp accepted
  obtain rfl := Except.pure_eq_ok.mp accepted
  have initial : Seen view {} := ⟨by simp, by simp, by simp⟩
  have seen : Seen view acquisition :=
    List.foldlM_ok_invariant (fun _ _ _ _ earlier stepped => seen_step earlier stepped) initial folded
  refine ⟨seen.files, seen.absentPaths, fun left leftMember right rightMember same => ?_⟩
  have path := seen.first left leftMember
  rw [same, seen.first right rightMember] at path
  exact (WorkspaceRelativePath.value_inj.mp (Option.some.inj path)).symm

end Srcmv.Fs
