import Srcmv.Proofs.Fs.Places

/-! # Removing the children of a directory

Children go in name order. Wherever the removal stops, the first few of them are gone and nothing
else has changed; in a calm environment all of them go.
-/

namespace Srcmv.Fs

open Srcmv.Core Machine

section RemoveFirst

/-- A directory without its first children. -/
def removeFirst (count : ℕ) (children : NameMap Item) : NameMap Item :=
  (children.keys.take count).foldl (fun remaining name => remaining.erase name) children

variable {children : NameMap Item} {count : ℕ}

private theorem getElem?_foldl_erase (names : List String) : ∀ (children : NameMap Item) (name : String),
    (names.foldl (fun remaining name => remaining.erase name) children)[name]? =
      if name ∈ names then none else children[name]? := by
  induction names with
  | nil => intro children name; simp
  | cons first rest ih =>
    intro children name
    rw [List.foldl_cons, ih, OrderedMap.getElem?_erase]
    by_cases later : name ∈ rest
    · simp [later]
    · by_cases same : first = name
      · simp [same]
      · simp [later, same, Ne.symm same]

theorem getElem?_removeFirst (name : String) :
    (removeFirst count children)[name]? = if name ∈ children.keys.take count then none else children[name]? :=
  getElem?_foldl_erase _ _ _

theorem removeFirst_zero (children : NameMap Item) : removeFirst 0 children = children := by
  rw [removeFirst, List.take_zero, List.foldl_nil]

theorem removeFirst_succ {name : String} (next : children.keys[count]? = some name) :
    removeFirst (count + 1) children = (removeFirst count children).erase name := by
  rw [removeFirst, List.take_add_one, next, List.foldl_append]
  rfl

theorem removeFirst_of_le (all : children.keys.length ≤ count) : removeFirst count children = ∅ := by
  apply Std.ExtTreeMap.ext_getElem?
  intro name
  rw [getElem?_removeFirst, List.take_of_length_le all, Std.ExtTreeMap.getElem?_empty]
  split
  · rfl
  · next absent => exact Std.ExtTreeMap.getElem?_eq_none (by rwa [Std.ExtTreeMap.mem_keys] at absent)

private theorem filter_not_mem_take {α β : Type} [DecidableEq α] (entries : List (α × β)) :
    ∀ count, (entries.map Prod.fst).Nodup →
      entries.filter (fun entry => entry.1 ∉ (entries.map Prod.fst).take count) = entries.drop count := by
  intro count distinct
  have split := List.take_append_drop count entries
  rw [← split, List.map_append, List.nodup_append] at distinct
  conv_lhs => rw [← split, List.filter_append]
  rw [split, ← List.map_take, List.filter_eq_nil_iff.mpr, List.filter_eq_self.mpr, List.nil_append]
  · intro entry member
    rw [decide_eq_true_iff]
    intro taken
    exact distinct.2.2 _ taken _ (List.mem_map_of_mem member) rfl
  · intro entry member
    rw [decide_eq_true_iff, not_not]
    exact List.mem_map_of_mem member

theorem toList_removeFirst : (removeFirst count children).toList = children.toList.drop count := by
  have filtered : removeFirst count children = children.filter fun name _ => name ∉ children.keys.take count := by
    apply Std.ExtTreeMap.ext_getElem?
    intro name
    rw [getElem?_removeFirst, Std.ExtTreeMap.getElem?_filter']
    cases children[name]? with
    | none => rw [ite_self, Option.filter_none]
    | some item => simp only [Option.filter_some, decide_not, Bool.not_eq_eq_eq_not, Bool.not_true,
        decide_eq_false_iff_not, ite_not]
  rw [filtered, Std.ExtTreeMap.toList_filter]
  have distinct := OrderedMap.nodup_keys children
  rw [← Std.ExtTreeMap.map_fst_toList_eq_keys] at distinct ⊢
  exact filter_not_mem_take children.toList count distinct

theorem keys_removeFirst : (removeFirst count children).keys = children.keys.drop count := by
  rw [← Std.ExtTreeMap.map_fst_toList_eq_keys, toList_removeFirst, List.map_drop,
    Std.ExtTreeMap.map_fst_toList_eq_keys]

end RemoveFirst

namespace World

/-- The world once the first children of a directory are gone. -/
def removing (world : World) (path : DirectoryPath) (count : ℕ) : World :=
  { world with control :=
      match path with
      | .active id => world.control.alterChildren id (removeFirst count)
      | .completed name => world.control.alterCompleted name (removeFirst count) }

/-- The world once a directory is gone. -/
def withoutDirectory (world : World) (path : DirectoryPath) : World :=
  { world with control :=
      match path with
      | .active id => { world.control with transactions := world.control.transactions.erase id }
      | .completed name => { world.control with completed := world.control.completed.erase name } }

variable {world : World} {path : DirectoryPath} {count : ℕ}

private theorem alterChildren_congr {tree : ControlTree} {id : String} {first second : NameMap Item → NameMap Item}
    (same : first (tree.children id) = second (tree.children id)) :
    tree.alterChildren id first = tree.alterChildren id second := by
  simp only [ControlTree.alterChildren]
  congr 1
  apply Std.ExtTreeMap.ext_getElem?
  intro other
  rw [OrderedMap.getElem?_alter, OrderedMap.getElem?_alter]
  split
  · rw [ControlTree.children] at same
    cases found : tree.transactions[id]? with
    | none => rfl
    | some directory =>
      rw [found, Option.map_some, Option.getD_some] at same
      rw [Option.map_some, Option.map_some, same]
  · rfl

private theorem alterCompleted_congr {tree : ControlTree} {name : String}
    {first second : NameMap Item → NameMap Item}
    (same : first (((tree.completed[name]?).map TransactionDirectory.children).getD ∅) =
      second (((tree.completed[name]?).map TransactionDirectory.children).getD ∅)) :
    tree.alterCompleted name first = tree.alterCompleted name second := by
  simp only [ControlTree.alterCompleted]
  congr 1
  apply Std.ExtTreeMap.ext_getElem?
  intro other
  rw [OrderedMap.getElem?_alter, OrderedMap.getElem?_alter]
  split
  · cases found : tree.completed[name]? with
    | none => rfl
    | some directory =>
      rw [found, Option.map_some, Option.getD_some] at same
      rw [Option.map_some, Option.map_some, same]
  · rfl

private theorem alter_directories (directories : NameMap TransactionDirectory) (key : String)
    (first second : NameMap Item → NameMap Item) :
    (directories.alter key fun directory => directory.map fun directory =>
        { directory with children := first directory.children }).alter key
      (fun directory => directory.map fun directory => { directory with children := second directory.children }) =
    directories.alter key fun directory => directory.map fun directory =>
      { directory with children := second (first directory.children) } := by
  rw [OrderedMap.alter_alter]
  congr 1
  funext directory
  cases directory <;> rfl

private theorem alterChildren_twice (tree : ControlTree) (id : String) (first second : NameMap Item → NameMap Item) :
    (tree.alterChildren id first).alterChildren id second = tree.alterChildren id (fun children => second (first children)) :=
  congrArg (fun transactions => { tree with transactions }) (alter_directories _ _ _ _)

private theorem alterCompleted_twice (tree : ControlTree) (name : String)
    (first second : NameMap Item → NameMap Item) :
    (tree.alterCompleted name first).alterCompleted name second =
      tree.alterCompleted name (fun children => second (first children)) :=
  congrArg (fun completed => { tree with completed }) (alter_directories _ _ _ _)

theorem childrenOf_removing : (world.removing path count).childrenOf path = removeFirst count (world.childrenOf path) := by
  have empty : removeFirst count (∅ : NameMap Item) = ∅ :=
    removeFirst_of_le (by rw [List.length_eq_zero_iff.mpr (Std.ExtTreeMap.keys_eq_nil_iff.mpr rfl)]; exact Nat.zero_le _)
  cases path with
  | active id =>
    simp only [removing, childrenOf, ControlTree.children, ControlTree.alterChildren]
    rw [OrderedMap.getElem?_alter, if_pos rfl]
    cases world.control.transactions[id]? with
    | none => exact empty.symm
    | some directory => rfl
  | completed name =>
    simp only [removing, childrenOf, ControlTree.alterCompleted]
    rw [OrderedMap.getElem?_alter, if_pos rfl]
    cases world.control.completed[name]? with
    | none => exact empty.symm
    | some directory => rfl

theorem removing_zero : world.removing path 0 = world := by
  have same : removeFirst 0 = id := funext removeFirst_zero
  have keeps : ∀ directory : Option TransactionDirectory,
      (directory.map fun directory => { directory with children := directory.children }) = directory := by
    intro directory
    cases directory <;> rfl
  cases path with
  | active id =>
    simp only [removing, ControlTree.alterChildren, same, id_eq]
    rw [OrderedMap.alter_of_keeps (keeps _)]
  | completed name =>
    simp only [removing, ControlTree.alterCompleted, same, id_eq]
    rw [OrderedMap.alter_of_keeps (keeps _)]

/-- Removing the next child in name order. -/
theorem removing_succ {name : String} (next : (world.childrenOf path).keys[count]? = some name) :
    (world.removing path count).removeChild path name = world.removing path (count + 1) := by
  cases path with
  | active id =>
    have step : world.control.alterChildren id (fun children => (removeFirst count children).erase name) =
        world.control.alterChildren id (removeFirst (count + 1)) :=
      alterChildren_congr (removeFirst_succ next).symm
    simp only [removing, removeChild]
    rw [← step, alterChildren_twice]
  | completed directory =>
    have step : world.control.alterCompleted directory (fun children => (removeFirst count children).erase name) =
        world.control.alterCompleted directory (removeFirst (count + 1)) :=
      alterCompleted_congr (removeFirst_succ next).symm
    simp only [removing, removeChild]
    rw [← step, alterCompleted_twice]

private theorem erase_alter (directories : NameMap TransactionDirectory) (key : String)
    (update : Option TransactionDirectory → Option TransactionDirectory) :
    (directories.alter key update).erase key = directories.erase key := by
  apply Std.ExtTreeMap.ext_getElem?
  intro other
  rw [OrderedMap.getElem?_erase, OrderedMap.getElem?_erase, OrderedMap.getElem?_alter]
  split <;> rfl

theorem withoutDirectory_removing : (world.removing path count).withoutDirectory path = world.withoutDirectory path := by
  cases path with
  | active id => simp only [removing, withoutDirectory, ControlTree.alterChildren, erase_alter]
  | completed name => simp only [removing, withoutDirectory, ControlTree.alterCompleted, erase_alter]

/-- An emptied directory can be removed. -/
theorem removeDirectory_removing {error : FsError} (all : (world.childrenOf path).keys.length ≤ count) :
    (world.removing path count).removeDirectory path error = .ok ((), world.withoutDirectory path) := by
  unfold removeDirectory
  rw [childrenOf_removing, removeFirst_of_le all, if_pos rfl]
  change Except.ok ((), (world.removing path count).withoutDirectory path) = _
  rw [withoutDirectory_removing]

end World

section Triples

variable {allowed : Site → Went → Prop} {site : SiteOf} {path : DirectoryPath} {world : World}

/-- Every child is a regular file. -/
def OnlyFiles (children : NameMap Item) : Prop := ∀ (name : String) (item : Item), children[name]? = some item → item.isFile = true

/-- Part of the removal is done. -/
def PartlyRemoved (world : World) (path : DirectoryPath) (left : World) : Prop :=
  ∃ count, left = world.removing path count

/-- How a removal that begins at `world` can stop early. -/
def Interrupted (allowed : Site → Went → Prop) (site : SiteOf) (went : Went) (partly : World → Prop) (left : World) :
    Prop := (∃ operation, allowed (site operation) went) ∧ partly left

/-- How a removal that begins at `world` can fail. -/
def Failing (allowed : Site → Went → Prop) (site : SiteOf) (partly : World → Prop) (error : FsError) (left : World) : Prop :=
  error.IsIo ∧ Interrupted allowed site .failed partly left

/-- While the first children are gone the next one is there. -/
private theorem getElem?_next {count : ℕ} {name : String} (next : (world.childrenOf path).keys[count]? = some name) :
    ∃ item, (world.childrenOf path)[name]? = some item ∧
      ((world.removing path count).childrenOf path)[name]? = some item := by
  have member : name ∈ world.childrenOf path := Std.ExtTreeMap.mem_keys.mp (List.mem_of_getElem? next)
  obtain ⟨item, found⟩ := Option.isSome_iff_exists.mp (Std.ExtTreeMap.mem_iff_isSome_getElem?.mp member)
  refine ⟨item, found, ?_⟩
  have bound := (List.getElem?_eq_some_iff.mp next).1
  have here : (world.childrenOf path).keys[count] = name := (List.getElem?_eq_some_iff.mp next).2
  rw [World.childrenOf_removing, getElem?_removeFirst, if_neg, found]
  intro taken
  obtain ⟨index, earlier, same⟩ := List.mem_take_iff_getElem.mp taken
  have distinct := OrderedMap.nodup_keys (world.childrenOf path)
  have equal := (List.Nodup.getElem_inj_iff distinct).mp (same.trans here.symm)
  omega

theorem removeValidatedChild_triple {count : ℕ} {name : String} (files : OnlyFiles (world.childrenOf path))
    (next : (world.childrenOf path).keys[count]? = some name) :
    Process.Triple allowed (· = world.removing path count) (removeValidatedChild site path name)
      ⟨fun _ left => left = world.removing path (count + 1),
        Failing allowed site (PartlyRemoved world path),
        Interrupted allowed site .crashed (PartlyRemoved world path)⟩ := by
  obtain ⟨item, found, remaining⟩ := getElem?_next next
  unfold removeValidatedChild
  refine Process.Triple.bind (fun _ left => left = world.removing path count) ?_ fun _ => ?_
  · refine Process.Triple.observe ?_ ?_ ?_ ?_
    · rintro permitted left rfl
      exact ⟨⟨_, permitted⟩, count, rfl⟩
    · rintro permitted left rfl
      exact ⟨isIo _ _, ⟨_, permitted⟩, count, rfl⟩
    · rintro left rfl _ _
      rfl
    · rintro _ left rfl error refused
      rw [remaining] at refused
      dsimp only at refused
      rw [Except.rejectIf_of_not (not_not.mpr (files name item found))] at refused
      cases refused
  · refine Process.Triple.act ?_ ?_ ?_ ?_
    · rintro permitted left rfl
      exact ⟨⟨_, permitted⟩, count, rfl⟩
    · rintro permitted left rfl
      exact ⟨isIo _ _, ⟨_, permitted⟩, count, rfl⟩
    · rintro left rfl value left' removed
      cases removed
      exact World.removing_succ next
    · rintro _ left rfl error refused
      cases refused

theorem removeValidatedChildren_triple (files : OnlyFiles (world.childrenOf path)) :
    Process.Triple allowed (· = world) (removeValidatedChildren site path)
      ⟨fun _ left => left = world.removing path (world.childrenOf path).keys.length,
        Failing allowed site (PartlyRemoved world path),
        Interrupted allowed site .crashed (PartlyRemoved world path)⟩ := by
  unfold removeValidatedChildren
  refine Process.Triple.bind (fun names left => names = (world.childrenOf path).keys ∧ left = world) ?_ ?_
  · refine Process.Triple.observe ?_ ?_ ?_ ?_
    · rintro permitted left rfl
      exact ⟨⟨_, permitted⟩, 0, World.removing_zero.symm⟩
    · rintro permitted left rfl
      exact ⟨isIo _ _, ⟨_, permitted⟩, 0, World.removing_zero.symm⟩
    · rintro left rfl names seen
      exact ⟨(Except.ok.inj seen).symm, rfl⟩
    · rintro _ left rfl error refused
      cases refused
  intro names
  refine Process.Triple.fact ?_
  rintro rfl
  refine Process.Triple.bind (fun _ left => left = world.removing path (world.childrenOf path).keys.length)
    ?_ fun _ => ?_
  · refine (Process.Triple.foldlM (fun index _ left => left = world.removing path index)
      (fun index name next _ => removeValidatedChild_triple files next) ()).mono ?_ (fun _ _ same => same)
      (fun _ _ same => same) (fun _ same => same)
    rintro left rfl
    exact World.removing_zero.symm
  · refine Process.Triple.act ?_ ?_ ?_ ?_
    · rintro permitted left rfl
      exact ⟨⟨_, permitted⟩, _, rfl⟩
    · rintro permitted left rfl
      exact ⟨isIo _ _, ⟨_, permitted⟩, _, rfl⟩
    · rintro left rfl value left' settled
      cases settled
      rfl
    · rintro _ left rfl error refused
      cases refused

variable (site) in
/-- A crash after some of the removals, each of which takes two steps. -/
private theorem removals_crashAfter {count : ℕ} (files : OnlyFiles (world.childrenOf path))
    (within : count ≤ (world.childrenOf path).keys.length) (names : List String) :
    ∀ (offset : ℕ) (taken : List (Site × Went)), (world.childrenOf path).keys.drop offset = names →
      taken.length = 2 * offset + 1 → offset ≤ count →
      ∃ later, (names.foldlM (fun _ name => removeValidatedChild site path name) ()).run
          (Oracle.crashAfter (2 * count + 1)) ⟨world.removing path offset, taken⟩ =
            (if count < (world.childrenOf path).keys.length then .crashed else .done (), later) ∧
        later.world = world.removing path count ∧ 2 * count + 1 ≤ later.taken.length := by
  induction names with
  | nil =>
    intro offset taken none length early
    have all := List.drop_eq_nil_iff.mp none
    rw [if_neg (by omega)]
    exact ⟨_, rfl, by rw [show offset = count by omega], by show _ ≤ taken.length; omega⟩
  | cons name rest ih =>
    intro offset taken dropped length early
    have next : (world.childrenOf path).keys[offset]? = some name := by
      rw [← List.head?_drop, dropped, List.head?_cons]
    have remaining : (world.childrenOf path).keys.drop (offset + 1) = rest := by
      rw [← List.tail_drop, dropped, List.tail_cons]
    have bound := (List.getElem?_eq_some_iff.mp next).1
    rw [List.foldlM_cons]
    rcases Nat.eq_or_lt_of_le early with rfl | before
    · have crash : (removeValidatedChild site path name).run (Oracle.crashAfter (2 * offset + 1))
          ⟨world.removing path offset, taken⟩ = (.crashed, _) :=
        Process.run_bind_crashed (Process.run_act_crashed (by show _ ≤ taken.length; omega))
      rw [Process.run_bind_crashed crash, if_pos bound]
      exact ⟨_, rfl, rfl, by show _ ≤ taken.length + 1; omega⟩
    · obtain ⟨item, found, present⟩ := getElem?_next next
      obtain ⟨later, run, rest⟩ := ih (offset + 1) ((site "remove_cleanup_entry", .performed) ::
        (site "inspect_cleanup_entry", .performed) :: taken) remaining
        (by rw [List.length_cons, List.length_cons]; omega) before
      refine ⟨later, ?_, rest⟩
      rw [← run]
      refine Process.run_bind_done ?_
      unfold removeValidatedChild
      refine (Process.run_bind_done (Process.run_observe_performed () (by show taken.length < _; omega) ?_)).trans ?_
      · rw [present]
        exact Except.rejectIf_of_not (not_not.mpr (files name item found))
      · rw [Process.run_act_performed (by show taken.length + 1 < _; omega) rfl, Moment.step, Moment.step]
        dsimp only
        rw [World.removing_succ next]

/-- A crash after the first removals leaves the directory without its first children. -/
theorem removeValidatedChildren_crashAfter {count : ℕ} (files : OnlyFiles (world.childrenOf path))
    (within : count ≤ (world.childrenOf path).keys.length) :
    ((removeValidatedChildren site path).run (Oracle.crashAfter (2 * count + 1)) ⟨world, []⟩).2.world =
      world.removing path count := by
  obtain ⟨later, run, left, late⟩ := removals_crashAfter site files within _ 0
    [(site "read_control_directory", .performed)] rfl rfl (Nat.zero_le _)
  rw [World.removing_zero, List.drop_zero] at run
  have names : (Process.observe (site "read_control_directory") (.io "read_control_directory" none) fun world =>
      .ok (world.childrenOf path).keys : Engine (List String)).run (Oracle.crashAfter (2 * count + 1)) ⟨world, []⟩ =
        (.done (world.childrenOf path).keys, ⟨world, [(site "read_control_directory", .performed)]⟩) :=
    Process.run_observe_performed _ (by show 0 < _; omega) rfl
  unfold removeValidatedChildren
  rw [Process.run_bind_done names]
  split at run
  · rw [Process.run_bind_crashed run]
    exact left
  · rw [Process.run_bind_done run, settle, Process.run_act_crashed late]
    exact left

end Triples

end Srcmv.Fs
