import Srcmv.Model.Core.Planner
import Srcmv.ToMathlib.Except
import Srcmv.ToMathlib.OrderedMap

/-! # The planner's index of a snapshot

Indexing succeeds exactly when no path is listed twice and no identifier is given twice, and its
lookups are then memberships in the snapshot.
-/

namespace Srcmv.Core

variable {snapshot : WorkspaceSnapshot}

/-- No path is listed twice and no identifier is given twice. -/
structure Indexable (snapshot : WorkspaceSnapshot) : Prop where
  paths : (snapshot.files.map (fun file => file.path.value) ++
    snapshot.absentPaths.map fun missing => missing.path.value).Nodup
  ids : (snapshot.files.map FileSnapshot.id).Nodup

private def indexFile (indexed : StatesByPath × FilesById) (file : FileSnapshot) :
    Except CoreError (StatesByPath × FilesById) :=
  if indexed.1[file.path.value]?.isSome then .error (.invalidDomainValue "duplicate_snapshot_path")
  else if indexed.2[file.id]?.isSome then .error (.invalidDomainValue "duplicate_snapshot_file_id")
  else .ok (indexed.1.insert file.path.value (.existing file), indexed.2.insert file.id file)

private def indexAbsent (states : StatesByPath) (missing : AbsentPathSnapshot) : Except CoreError StatesByPath :=
  if states[missing.path.value]?.isSome then .error (.editConflict "path_used_as_absent_and_existing" none)
  else .ok (states.insert missing.path.value (.absent missing))

private theorem indexSnapshot_eq (snapshot : WorkspaceSnapshot) : indexSnapshot snapshot =
    snapshot.files.foldlM indexFile (∅, ∅) >>= fun indexed =>
      snapshot.absentPaths.foldlM indexAbsent indexed.1 >>= fun states => .ok (states, indexed.2) := rfl

private theorem indexFile_eq_ok {indexed result : StatesByPath × FilesById} {file : FileSnapshot} :
    indexFile indexed file = .ok result ↔
      (indexed.1[file.path.value]? = none ∧ indexed.2[file.id]? = none) ∧
        result = (indexed.1.insert file.path.value (.existing file), indexed.2.insert file.id file) := by
  rw [indexFile]
  split_ifs with pathUsed idUsed
  · rw [Option.isSome_iff_ne_none] at pathUsed
    exact ⟨nofun, fun ⟨⟨unused, _⟩, _⟩ => absurd unused pathUsed⟩
  · rw [Option.isSome_iff_ne_none] at idUsed
    exact ⟨nofun, fun ⟨⟨_, unused⟩, _⟩ => absurd unused idUsed⟩
  · rw [Option.isSome_iff_ne_none, not_not] at pathUsed idUsed
    exact ⟨fun same => ⟨⟨pathUsed, idUsed⟩, (Except.ok.inj same).symm⟩, fun ⟨_, same⟩ => by rw [same]⟩

private theorem indexAbsent_eq_ok {states result : StatesByPath} {missing : AbsentPathSnapshot} :
    indexAbsent states missing = .ok result ↔
      states[missing.path.value]? = none ∧ result = states.insert missing.path.value (.absent missing) := by
  rw [indexAbsent]
  split_ifs with used
  · rw [Option.isSome_iff_ne_none] at used
    exact ⟨nofun, fun ⟨unused, _⟩ => absurd unused used⟩
  · rw [Option.isSome_iff_ne_none, not_not] at used
    exact ⟨fun same => ⟨used, (Except.ok.inj same).symm⟩, fun ⟨_, same⟩ => by rw [same]⟩

private theorem insert_eq_none {α β : Type} [Ord α] [Std.TransOrd α] [Std.LawfulEqOrd α] {tree : Std.TreeMap α β}
    {key other : α} {value : β} : (tree.insert key value)[other]? = none ↔ key ≠ other ∧ tree[other]? = none := by
  rw [Std.TreeMap.getElem?_insert]
  by_cases same : key = other
  · subst same
    simp
  · rw [if_neg (fun equal => same (OrderedMap.compare_eq_iff.mp equal))]
    simp [same]

private theorem indexFiles_succeeds_iff (files : List FileSnapshot) (states : StatesByPath) (byId : FilesById) :
    (∃ result, files.foldlM indexFile (states, byId) = .ok result) ↔
      (files.map fun file => file.path.value).Nodup ∧ (files.map FileSnapshot.id).Nodup ∧
        ∀ file ∈ files, states[file.path.value]? = none ∧ byId[file.id]? = none := by
  induction files generalizing states byId with
  | nil => exact ⟨fun _ => ⟨List.nodup_nil, List.nodup_nil, nofun⟩, fun _ => ⟨_, rfl⟩⟩
  | cons file rest ih =>
    have step : (∃ result, (file :: rest).foldlM indexFile (states, byId) = .ok result) ↔
        (states[file.path.value]? = none ∧ byId[file.id]? = none) ∧
          ∃ result, rest.foldlM indexFile (states.insert file.path.value (.existing file),
            byId.insert file.id file) = .ok result := by
      rw [List.foldlM_cons]
      constructor
      · rintro ⟨result, folded⟩
        obtain ⟨next, stepped, folded⟩ := Except.bind_eq_ok.mp folded
        obtain ⟨unused, rfl⟩ := indexFile_eq_ok.mp stepped
        exact ⟨unused, result, folded⟩
      · rintro ⟨unused, result, folded⟩
        exact ⟨result, Except.bind_eq_ok.mpr ⟨_, indexFile_eq_ok.mpr ⟨unused, rfl⟩, folded⟩⟩
    rw [step, ih]
    simp only [List.map_cons, List.nodup_cons, List.mem_map, List.forall_mem_cons, insert_eq_none, not_exists, not_and]
    constructor
    · rintro ⟨unused, paths, ids, others⟩
      exact ⟨⟨fun other member same => (others other member).1.1 same.symm, paths⟩,
        ⟨fun other member same => (others other member).2.1 same.symm, ids⟩, unused,
        fun other member => ⟨(others other member).1.2, (others other member).2.2⟩⟩
    · rintro ⟨⟨newPath, paths⟩, ⟨newId, ids⟩, unused, others⟩
      exact ⟨unused, paths, ids, fun other member =>
        ⟨⟨fun same => newPath other member same.symm, (others other member).1⟩,
          fun same => newId other member same.symm, (others other member).2⟩⟩

private theorem indexAbsents_succeeds_iff (absents : List AbsentPathSnapshot) (states : StatesByPath) :
    (∃ result, absents.foldlM indexAbsent states = .ok result) ↔
      (absents.map fun missing => missing.path.value).Nodup ∧
        ∀ missing ∈ absents, states[missing.path.value]? = none := by
  induction absents generalizing states with
  | nil => exact ⟨fun _ => ⟨List.nodup_nil, nofun⟩, fun _ => ⟨_, rfl⟩⟩
  | cons missing rest ih =>
    have step : (∃ result, (missing :: rest).foldlM indexAbsent states = .ok result) ↔
        states[missing.path.value]? = none ∧
          ∃ result, rest.foldlM indexAbsent (states.insert missing.path.value (.absent missing)) = .ok result := by
      rw [List.foldlM_cons]
      constructor
      · rintro ⟨result, folded⟩
        obtain ⟨next, stepped, folded⟩ := Except.bind_eq_ok.mp folded
        obtain ⟨unused, rfl⟩ := indexAbsent_eq_ok.mp stepped
        exact ⟨unused, result, folded⟩
      · rintro ⟨unused, result, folded⟩
        exact ⟨result, Except.bind_eq_ok.mpr ⟨_, indexAbsent_eq_ok.mpr ⟨unused, rfl⟩, folded⟩⟩
    rw [step, ih]
    simp only [List.map_cons, List.nodup_cons, List.mem_map, List.forall_mem_cons, insert_eq_none, not_exists, not_and]
    constructor
    · rintro ⟨unused, paths, others⟩
      exact ⟨⟨fun other member same => (others other member).1 same.symm, paths⟩, unused,
        fun other member => (others other member).2⟩
    · rintro ⟨⟨newPath, paths⟩, unused, others⟩
      exact ⟨unused, paths, fun other member => ⟨fun same => newPath other member same.symm, others other member⟩⟩

/-- The lookups are those of the listed files. -/
private structure ListsFiles (files : List FileSnapshot) (indexed : StatesByPath × FilesById) : Prop where
  byPath : ∀ (path : String) (state : SnapshotState), indexed.1[path]? = some state ↔
    ∃ file ∈ files, file.path.value = path ∧ SnapshotState.existing file = state
  byId : ∀ (id : ℕ) (found : FileSnapshot), indexed.2[id]? = some found ↔ ∃ file ∈ files, file.id = id ∧ file = found

private theorem listsFiles_step (done : List FileSnapshot) (file : FileSnapshot)
    (current next : StatesByPath × FilesById) (lists : ListsFiles done current)
    (stepped : indexFile current file = .ok next) : ListsFiles (done ++ [file]) next := by
  obtain ⟨⟨newPath, newId⟩, rfl⟩ := indexFile_eq_ok.mp stepped
  constructor
  · intro path state
    rw [OrderedMap.tree_getElem?_insert_new newPath, lists.byPath]
    simp only [List.mem_append, List.mem_singleton, or_and_right, exists_or, exists_eq_left]
  · intro id found
    rw [OrderedMap.tree_getElem?_insert_new newId, lists.byId]
    simp only [List.mem_append, List.mem_singleton, or_and_right, exists_or, exists_eq_left]

/-- The lookups by path are the earlier ones and those of the listed absent paths. -/
private def ListsAbsents (before : StatesByPath) (absents : List AbsentPathSnapshot) (states : StatesByPath) : Prop :=
  ∀ (path : String) (state : SnapshotState), states[path]? = some state ↔ before[path]? = some state ∨
    ∃ missing ∈ absents, missing.path.value = path ∧ SnapshotState.absent missing = state

private theorem listsAbsents_step {before : StatesByPath} (done : List AbsentPathSnapshot)
    (missing : AbsentPathSnapshot) (current next : StatesByPath) (lists : ListsAbsents before done current)
    (stepped : indexAbsent current missing = .ok next) : ListsAbsents before (done ++ [missing]) next := by
  obtain ⟨new, rfl⟩ := indexAbsent_eq_ok.mp stepped
  intro path state
  rw [OrderedMap.tree_getElem?_insert_new new, lists]
  simp only [List.mem_append, List.mem_singleton, or_and_right, exists_or, exists_eq_left, or_assoc]

/-- A snapshot is indexed exactly when nothing is listed twice. -/
theorem indexSnapshot_succeeds_iff (snapshot : WorkspaceSnapshot) :
    (∃ indexed, indexSnapshot snapshot = .ok indexed) ↔ Indexable snapshot := by
  have parts : (∃ indexed, indexSnapshot snapshot = .ok indexed) ↔
      ∃ indexed, snapshot.files.foldlM indexFile (∅, ∅) = .ok indexed ∧
        ∃ states, snapshot.absentPaths.foldlM indexAbsent indexed.1 = .ok states := by
    rw [indexSnapshot_eq]
    constructor
    · rintro ⟨_, accepted⟩
      obtain ⟨indexed, listed, accepted⟩ := Except.bind_eq_ok.mp accepted
      obtain ⟨states, absents, -⟩ := Except.bind_eq_ok.mp accepted
      exact ⟨indexed, listed, states, absents⟩
    · rintro ⟨indexed, listed, states, absents⟩
      rw [listed, Except.ok_bind, absents]
      exact ⟨_, rfl⟩
  rw [parts]
  simp only [indexAbsents_succeeds_iff]
  have listed := indexFiles_succeeds_iff snapshot.files ∅ ∅
  constructor
  · rintro ⟨indexed, folded, absents, unused⟩
    obtain ⟨paths, ids, -⟩ := listed.mp ⟨indexed, folded⟩
    have lists : ListsFiles ([] ++ snapshot.files) indexed :=
      List.foldlM_ok_induction listsFiles_step snapshot.files ⟨by simp, by simp⟩ folded
    refine ⟨List.nodup_append.mpr ⟨paths, absents, ?_⟩, ids⟩
    intro path fromFile path' fromAbsent same
    obtain ⟨file, member, rfl⟩ := List.mem_map.mp fromFile
    obtain ⟨missing, inside, rfl⟩ := List.mem_map.mp fromAbsent
    have found := (lists.byPath missing.path.value (.existing file)).mpr ⟨file, member, same, rfl⟩
    rw [unused missing inside] at found
    cases found
  · rintro ⟨paths, ids⟩
    obtain ⟨files, absents, apart⟩ := List.nodup_append.mp paths
    obtain ⟨indexed, folded⟩ := listed.mpr ⟨files, ids, by simp⟩
    have lists : ListsFiles ([] ++ snapshot.files) indexed :=
      List.foldlM_ok_induction listsFiles_step snapshot.files ⟨by simp, by simp⟩ folded
    refine ⟨indexed, folded, absents, fun missing inside => ?_⟩
    cases found : indexed.1[missing.path.value]? with
    | none => rfl
    | some state =>
      obtain ⟨file, member, same, -⟩ := (lists.byPath _ _).mp found
      exact absurd same (apart _ (List.mem_map_of_mem member) _ (List.mem_map_of_mem inside))

/-- The lookups of an accepted index, as memberships in the snapshot. -/
theorem indexSnapshot_lookups {states : StatesByPath} {byId : FilesById}
    (accepted : indexSnapshot snapshot = .ok (states, byId)) :
    (∀ (path : String) (state : SnapshotState), states[path]? = some state ↔
      (∃ file ∈ snapshot.files, file.path.value = path ∧ SnapshotState.existing file = state) ∨
        ∃ missing ∈ snapshot.absentPaths, missing.path.value = path ∧ SnapshotState.absent missing = state) ∧
    ∀ (id : ℕ) (found : FileSnapshot), byId[id]? = some found ↔ ∃ file ∈ snapshot.files, file.id = id ∧ file = found := by
  rw [indexSnapshot_eq] at accepted
  obtain ⟨indexed, listed, accepted⟩ := Except.bind_eq_ok.mp accepted
  obtain ⟨all, absents, accepted⟩ := Except.bind_eq_ok.mp accepted
  cases accepted
  have lists : ListsFiles ([] ++ snapshot.files) indexed :=
    List.foldlM_ok_induction listsFiles_step snapshot.files ⟨by simp, by simp⟩ listed
  have paths : ListsAbsents indexed.1 ([] ++ snapshot.absentPaths) states :=
    List.foldlM_ok_induction listsAbsents_step snapshot.absentPaths (by intro path state; simp) absents
  constructor
  · intro path state
    rw [paths path state, lists.byPath]
    rfl
  · exact lists.byId

end Srcmv.Core
