import Srcmv.Proofs.Fs.Watching

/-! # Moving the files of a target

The system calls that change the locations of a target, each as a change of the layout it shows.
-/

namespace Srcmv.Fs

open Srcmv.Core Machine Process

variable {allowed : Site → Went → Prop} {rest : World → Prop} {job : Job} {config : Config} {world : World}
  {index : ℕ} {target : ManifestTarget} (sound : job.Sound) (shows_ : job.Shows config world)
  (here : job.manifest.targets[index]? = some target)

theorem Config.put_put (config : Config) (index : ℕ) (first second : Slot) (item item' : Option Item) :
    (config.put index first item).put index second item' =
      config.lay index (Function.update (Function.update (config.layout index) first item) second item') := by
  simp [put, lay, Function.update_idem]

include sound shows_ here in
theorem rename_triple {source destination : Slot} {item : Item} (full : config.layout index source = some item)
    (free : config.layout index destination = none) (operation : String) (safe : Disturbed allowed → rest world) :
    Triple allowed (· = world)
      (noReplaceRename (job.locationOf target source) (job.locationOf target destination) operation)
      (Ends FsError.IsSystem (Returns () (job.Shows (config.lay index
        (Function.update (Function.update (config.layout index) source none) destination (some item))))) rest) := by
  have renamed : world.renameNoReplace (job.locationOf target source) (job.locationOf target destination)
      (.io operation none) (conflict "no_replace_destination_collision") = .ok ((), (world.place (job.locationOf target source)
        none).place (job.locationOf target destination) (some item)) := by
    rw [World.renameNoReplace, shows_.item? sound here, shows_.item? sound here, full, free]
  rw [noReplaceRename]
  apply (Triple.responds renamed (renameDenied_isSystem operation)).weaken
  · rintro value later ⟨rfl, rfl⟩
    refine ⟨rfl, ?_⟩
    rw [← Config.put_put]
    exact (shows_.place sound here source none).place sound here destination (some item)
  · rintro later ⟨disturbed, rfl⟩
    exact safe ⟨_, disturbed⟩

include sound shows_ here in
theorem removeFile_triple {slot : Slot} {item : Item} (full : config.layout index slot = some item) (operation : String)
    (path : Option String) (safe : Disturbed allowed → rest world) :
    Triple allowed (· = world)
      (io operation path fun world => world.removeFile (job.locationOf target slot) (.io operation path))
      (Ends FsError.IsSystem
        (Returns () (job.Shows (config.lay index (Function.update (config.layout index) slot none)))) rest) := by
  have removed : world.removeFile (job.locationOf target slot) (.io operation path) =
      .ok ((), world.place (job.locationOf target slot) none) := by
    rw [World.removeFile, shows_.item? sound here, full]
  rw [io]
  apply (Triple.acts removed (isIo _ _)).weaken
  · rintro value later ⟨rfl, rfl⟩
    exact ⟨rfl, shows_.place sound here slot none⟩
  · rintro later ⟨disturbed, rfl⟩
    exact safe ⟨_, disturbed⟩

include sound shows_ here in
theorem setMode_triple {slot : Slot} {node : Node} (full : config.layout index slot = some (.file node)) (mode : UInt32)
    (reportPath : String) (safe : Disturbed allowed → rest world)
    (later : Disturbed allowed → ∀ after, job.Shows (config.lay index (Function.update (config.layout index) slot
      (some (.file { node with mode := mode &&& 0o7777 })))) after → rest after) :
    Triple allowed (· = world) (setMode (job.locationOf target slot) mode reportPath)
      (Ends FsError.IsSystem (Returns () (job.Shows (config.lay index (Function.update (config.layout index) slot
        (some (.file { node with mode := mode &&& 0o7777 })))))) rest) := by
  have changed : world.changeMode (job.locationOf target slot) mode (.io "set_candidate_mode" (some reportPath)) =
      .ok ((), world.place (job.locationOf target slot) (some (.file { node with mode := mode &&& 0o7777 }))) := by
    rw [World.changeMode, shows_.item? sound here, full]
  have moved := shows_.place sound here slot (some (.file { node with mode := mode &&& 0o7777 }))
  rw [setMode, io]
  apply Triple.actsThen changed (isIo _ _)
  · exact fun disturbed => safe ⟨_, disturbed⟩
  apply (settle_safely fun disturbed => later disturbed _ moved).weaken
  · rintro value after ⟨rfl, rfl⟩
    exact ⟨rfl, moved⟩
  · exact fun _ stopped => stopped

end Srcmv.Fs
