import Srcmv.Proofs.Fs.Classifying
import Srcmv.Proofs.Fs.Loading
import Srcmv.Proofs.Fs.Manifests
import Srcmv.Proofs.Fs.Places
import Srcmv.Soundness.JournalLimits

/-! # Recovery is refused as a whole

All targets are classified before the first one is touched. If one of them may not be recovered, the
recovery ends without a result and no location has changed, in every run: what loading removes are
temporaries of states.
-/

namespace Srcmv.Fs

open Srcmv.Core Machine Process

/-- A temporary of a state in a transaction directory. -/
def Location.isStateTemporary (id : String) : Location → Bool
  | .target _ => false
  | .artifact directory name => directory = id && hasEnds "state-" ".tmp" name

/-- Every other location is as before, nothing was completed, and no state record was published. -/
structure World.Undisturbed (id : String) (before after : World) : Prop where
  items : ∀ location : Location, location.isStateTemporary id = false → after.item? location = before.item? location
  completed : after.control.completed = before.control.completed
  published : after.published = before.published

namespace World.Undisturbed

variable {id : String} {before middle after : World}

theorem refl (world : World) : World.Undisturbed id world world := ⟨fun _ _ => rfl, rfl, rfl⟩

theorem trans (first : World.Undisturbed id before middle) (second : World.Undisturbed id middle after) :
    World.Undisturbed id before after :=
  ⟨fun location other => (second.items location other).trans (first.items location other),
    second.completed.trans first.completed, second.published.trans first.published⟩

theorem files (undisturbed : World.Undisturbed id before after) : after.files = before.files :=
  funext fun path => undisturbed.items (.target path) rfl

end World.Undisturbed

variable {setting : Setting} {id : String} {allowed : Site → Went → Prop} {world : World}

/-! ## Loading -/

theorem World.removeFile_undisturbed {name : String} {error : FsError} {later : World} (temporary : hasEnds "state-" ".tmp" name = true)
    (removed : world.removeFile (.artifact id name) error = .ok ((), later)) : World.Undisturbed id world later := by
  rw [World.removeFile] at removed
  cases found : world.item? (.artifact id name) with
  | none =>
    rw [found] at removed
    cases removed
  | some item =>
    rw [found] at removed
    cases removed
    refine ⟨fun location other => World.item?_place_ne ?_ none, rfl, rfl⟩
    rintro rfl
    rw [Location.isStateTemporary, temporary, decide_eq_true rfl] at other
    cases other

theorem loadEntry_undisturbed (start : World) (loaded : LoadedStates) (name : String) :
    Triple allowed (World.Undisturbed id start) (loadEntry setting id loaded name) (Keeps (World.Undisturbed id start)) := by
  rw [loadEntry]
  split_ifs with temporary record
  · apply Triple.keepsThen
    · rw [io]
      apply Triple.act
      · exact fun _ _ kept => kept
      · exact fun _ _ kept => kept
      · exact fun _ kept _ _ removed => kept.trans (World.removeFile_undisturbed temporary removed)
      · exact fun _ _ kept _ _ => kept
    · exact fun _ => Triple.pureKeeps
  · apply Triple.keepsThen
    · rw [readArtifact, ioRead]
      exact Triple.observe (fun _ _ kept => kept) (fun _ _ kept => kept) (fun _ kept _ _ => kept) fun _ _ kept _ _ => kept
    · exact fun _ => Triple.ofExcept (fun _ _ _ kept => kept) fun _ _ _ kept => kept
  · exact Triple.pureKeeps

/-- What a loaded transaction promises. -/
structure LoadedTransaction.Checked (loaded : LoadedTransaction) (id : String) : Prop where
  valid : loaded.manifest.Valid
  named : loaded.manifest.transactionId = id

/-- Loading changes nothing but temporaries of states, and checks the manifest. -/
theorem loadActiveTransaction_undisturbed (start : World) : Triple allowed (World.Undisturbed id start)
    (loadActiveTransaction setting id)
    ⟨fun loaded later => loaded.Checked id ∧ World.Undisturbed id start later, fun _ => World.Undisturbed id start,
      World.Undisturbed id start⟩ := by
  have reads {α : Type} {operation : String} {path : Option String} {view : World → Except FsError α} :
      Triple allowed (World.Undisturbed id start) (ioRead operation path view) (Keeps (World.Undisturbed id start)) := by
    rw [ioRead]
    exact Triple.observe (fun _ _ kept => kept) (fun _ _ kept => kept) (fun _ kept _ _ => kept) fun _ _ kept _ _ => kept
  rw [loadActiveTransaction]
  apply Triple.bind (fun _ => World.Undisturbed id start) reads
  intro bytes
  apply Triple.bind (fun _ => World.Undisturbed id start)
  · exact Triple.ofExcept (fun _ _ _ kept => kept) fun _ _ _ kept => kept
  intro manifest
  apply Triple.bind (fun _ later => manifest.payload.transactionId = id ∧ World.Undisturbed id start later)
  · exact Triple.ofExcept (fun _ same _ kept => ⟨not_not.mp (Except.rejectIf_eq_ok.mp same), kept⟩) fun _ _ _ kept => kept
  intro _
  apply Triple.fact
  intro named
  apply Triple.bind (fun _ => World.Undisturbed id start) reads
  intro names
  apply Triple.bind (fun _ => World.Undisturbed id start)
  · exact Triple.foldlM (fun _ _ => World.Undisturbed id start) (fun _ name _ loaded => loadEntry_undisturbed start loaded name) {}
  intro loaded
  apply Triple.bind (fun _ => World.Undisturbed id start)
  · rw [syncDirectory, settle]
    apply Triple.act
    · exact fun _ _ kept => kept
    · exact fun _ _ kept => kept
    · intro later kept _ same settled
      cases settled
      exact kept
    · exact fun _ _ kept _ _ => kept
  intro _
  apply Triple.bind (fun _ => World.Undisturbed id start)
  · exact Triple.ofExcept (fun _ _ _ kept => kept) fun _ _ _ kept => kept
  intro last
  apply Triple.bind (fun _ => World.Undisturbed id start) reads
  intro again
  apply Triple.bind (fun _ later => validateManifest manifest.payload {} = .ok () ∧ World.Undisturbed id start later)
  · refine Triple.ofExcept (fun journal resumed _ kept => ⟨?_, kept⟩) fun _ _ _ kept => kept
    rw [resumeJournal] at resumed
    obtain ⟨_, valid, -⟩ := Except.bind_eq_ok.mp resumed
    exact valid
  intro journal
  apply Triple.fact
  intro valid
  exact Triple.pure fun _ kept => ⟨⟨validateManifest_valid valid, named⟩, kept⟩

/-! ## Classification -/

/-- The generated names of artifacts are not those of state temporaries. -/
private theorem generatedName_not_temporary {kind : String} {index : ℕ} (letter : kind.toList.head? ≠ some 's')
    (named : kind.toList ≠ []) : hasEnds "state-" ".tmp" (generatedName kind index) = false := by
  rw [Bool.eq_false_iff]
  intro has
  rw [hasEnds, Bool.and_eq_true, List.isPrefixOf_iff_prefix] at has
  obtain ⟨rest, starts⟩ := has.1
  have first := congrArg List.head? starts
  rw [toList_generatedName] at first
  cases characters : kind.toList with
  | nil => exact named characters
  | cons char chars =>
    rw [characters] at first letter
    simp at first letter
    exact letter first.symm

/-- What may be recovered is the same where only temporaries differ. -/
theorem World.Undisturbed.permits {loaded : LoadedTransaction} {later : World} {state : StateSnapshot} {mode : RecoveryMode}
    {entry : ManifestTarget × ℕ} (undisturbed : World.Undisturbed id world later) (checked : loaded.Checked id)
    (member : entry ∈ loaded.manifest.targets.zipIdx) (permits : Permits setting loaded.manifest later state mode entry) :
    Permits setting loaded.manifest world state mode entry := by
  have valid := checked.valid.target entry.2 entry.1 (List.mk_mem_zipIdx_iff_getElem?.mp member)
  have candidate : later.item? (.artifact id entry.1.candidateName) = world.item? (.artifact id entry.1.candidateName) := by
    apply undisturbed.items
    rw [Location.isStateTemporary, valid.candidateName, generatedName_not_temporary (by decide) (by decide), Bool.and_false]
  have backup : later.item? (.artifact id entry.1.backupName) = world.item? (.artifact id entry.1.backupName) := by
    apply undisturbed.items
    rw [Location.isStateTemporary, valid.backupName, generatedName_not_temporary (by decide) (by decide), Bool.and_false]
  have target : later.item? (.target entry.1.path) = world.item? (.target entry.1.path) := undisturbed.items _ rfl
  have view : setting.view later = setting.view world := by rw [Setting.view, undisturbed.files, Setting.view]
  obtain ⟨disposition, found, allows⟩ := permits
  refine ⟨disposition, ?_, allows⟩
  rw [dispositionIn] at found ⊢
  simp only [observationIn, locationsOf, checked.named, view, candidate, backup, target] at found ⊢
  exact found

/-- Recovery of a loaded transaction. -/
def recoverLoaded (setting : Setting) (mode : RecoveryMode) (loaded : LoadedTransaction) : Engine Unit :=
  match mode with
  | .complete => recoverCompleteActive setting loaded
  | .rollback => recoverRollbackActive setting loaded

theorem recoverActive_eq (mode : RecoveryMode) : recoverActive setting id mode =
    loadActiveTransaction setting id >>= fun loaded => recoverLoaded setting mode loaded >>= fun _ => pure ⟨id, mode.outcome⟩ := by
  cases mode <;> rfl

/-- A recovery whose targets are not all permitted touches none of them. -/
theorem recoverLoaded_refused {loaded : LoadedTransaction} {mode : RecoveryMode} {entry : ManifestTarget × ℕ}
    (unfinished : mode = .rollback → loaded.session.progress.state.globalState ≠ .rolledBack)
    (member : entry ∈ loaded.manifest.targets.zipIdx)
    (refused : ¬Permits setting loaded.manifest world loaded.session.progress.state mode entry) :
    Triple allowed (· = world) (recoverLoaded setting mode loaded)
      ⟨fun _ _ => False, fun _ later => later = world, fun later => later = world⟩ := by
  have stays {α : Type} {next : Unit → Engine α} : Triple allowed (· = world)
      (classifyAllTargets setting loaded.manifest loaded.session.progress.state mode >>= next)
      ⟨fun _ _ => False, fun _ later => later = world, fun later => later = world⟩ :=
    classifyAllTargets_refusesThen member refused (fun _ => rfl) rfl
  have never {α β : Type} {first : Engine α} {next : α → Engine β}
      (refuses : Triple allowed (· = world) first ⟨fun _ _ => False, fun _ later => later = world, fun later => later = world⟩) :
      Triple allowed (· = world) (first >>= next)
        ⟨fun _ _ => False, fun _ later => later = world, fun later => later = world⟩ :=
    Triple.bind (fun _ _ => False) refuses fun _ _ _ impossible => impossible.elim
  cases mode with
  | complete =>
    rw [recoverLoaded, recoverCompleteActive]
    dsimp only
    cases loaded.session.progress.state.globalState with
    | preparing => exact never (Triple.refuse fun _ same => same)
    | rollingBack => exact never (Triple.refuse fun _ same => same)
    | rolledBack => exact never (Triple.refuse fun _ same => same)
    | committed => exact stays
    | committing =>
      dsimp only
      rw [completeCommitSteps]
      exact never stays
    | prepared =>
      dsimp only
      rw [completePrepared]
      refine never (Triple.bind (fun _ later => later = world) ?_ fun _ => stays)
      rw [revalidateManifestInputs, ioRead]
      exact Triple.observe (fun _ _ same => same) (fun _ _ same => same) (fun _ same _ _ => same) fun _ _ same _ _ => same
  | rollback =>
    rw [recoverLoaded, recoverRollbackActive]
    cases state : loaded.session.progress.state.globalState with
    | committed => exact Triple.refuse fun _ same => same
    | rolledBack => exact absurd state (unfinished rfl)
    | preparing => rw [rollBackRecorded]; exact stays
    | prepared => rw [rollBackRecorded]; exact stays
    | committing => rw [rollBackRecorded]; exact stays
    | rollingBack => rw [rollBackRecorded]; exact stays

/-- A recovery is refused all or nothing: if what is loaded has a target that may not be recovered in
this mode, the recovery has no result and no location has changed. -/
theorem recovery_refused_as_a_whole (setting : Setting) (id : String) (mode : RecoveryMode) (oracle : Oracle Site) (world : World)
    (refused : ∀ loaded later, (loadActiveTransaction setting id).run oracle ⟨world, []⟩ = (.done loaded, later) →
      (mode = .rollback → loaded.session.progress.state.globalState ≠ .rolledBack) ∧
        ∃ entry ∈ loaded.manifest.targets.zipIdx,
          ¬Permits setting loaded.manifest world loaded.session.progress.state mode entry) :
    ∃ final, ((∃ error, (recoverActive setting id mode).run oracle ⟨world, []⟩ = (.failed error, final)) ∨
        (recoverActive setting id mode).run oracle ⟨world, []⟩ = (.crashed, final) ∧ ∃ site, (site, Went.crashed) ∈ final.taken) ∧
      World.Undisturbed id world final.world := by
  have honest := (recoverActive setting id mode).honest oracle ⟨world, []⟩
  have within {moment : Moment World Site} : Moment.Within (fun _ _ => True) moment := fun _ _ => trivial
  have loads := @loadActiveTransaction_undisturbed setting id (fun _ _ => True) world oracle ⟨world, []⟩
    (World.Undisturbed.refl world) within
  rw [recoverActive_eq, run_bind] at honest ⊢
  cases ran : (loadActiveTransaction setting id).run oracle ⟨world, []⟩ with
  | mk outcome later =>
    rw [ran] at loads honest
    cases outcome with
    | failed error => exact ⟨later, .inl ⟨error, rfl⟩, loads⟩
    | crashed => exact ⟨later, .inr ⟨rfl, honest rfl⟩, loads⟩
    | done loaded =>
      obtain ⟨checked, undisturbed⟩ := loads
      obtain ⟨unfinished, entry, member, refuses⟩ := refused loaded later ran
      have bound := fun permits => refuses (undisturbed.permits checked member permits)
      have ends : Triple (fun _ _ => True) (· = later.world)
          (recoverLoaded setting mode loaded >>= fun _ => pure (⟨id, mode.outcome⟩ : RecoveryOutcome))
          ⟨fun _ _ => False, fun _ final => final = later.world, fun final => final = later.world⟩ :=
        Triple.bind (fun _ _ => False) (recoverLoaded_refused unfinished member bound) fun _ _ _ impossible => impossible.elim
      have result := ends oracle later rfl within
      rw [continueWith] at honest ⊢
      cases final : (recoverLoaded setting mode loaded >>= fun _ => pure (⟨id, mode.outcome⟩ : RecoveryOutcome)).run oracle later with
      | mk outcome last =>
        rw [final] at result honest
        cases outcome with
        | done value => exact (show False from result).elim
        | failed error => exact ⟨last, .inl ⟨error, rfl⟩, result ▸ undisturbed⟩
        | crashed => exact ⟨last, .inr ⟨rfl, honest rfl⟩, result ▸ undisturbed⟩

section Example

open Sample

/-- After the first state was recorded, a file stands where the new one is to be created. -/
def occupiedWorld : World :=
  { worldWith (recordedChildren Sample.setting.crates manifest [firstState]) with
    files := fun path => if path = "b" then some (.file sourceNode) else files path }

private theorem occupied_loaded {loaded : LoadedTransaction} {later : Moment World Site}
    (ran : (loadActiveTransaction Sample.setting transactionId).run Oracle.calm ⟨occupiedWorld, []⟩ = (.done loaded, later)) :
    loaded.manifest = manifest ∧ loaded.session.progress.state = firstState := by
  have room : manifest.artifactBytes + (manifestRecord Sample.setting.crates manifest).length + chainBytes Sample.setting.crates [firstState] ≤
      u64Max := by
    have disk := manifest_encodes.disk
    have states := firstState_sound.bytes
    have limits : maxTransactionDiskBytes + maxStateBytes ≤ u64Max := by norm_num [maxTransactionDiskBytes, maxStateBytes, u64Max]
    omega
  have loads := @loadActiveTransaction_triple Sample.setting manifest [firstState] (recordedContents Sample.setting.crates manifest [firstState])
    (recordedChildren Sample.setting.crates manifest [firstState]) directory occupiedWorld (fun _ _ => True) (fun _ => True)
    (fun _ => True) _ (onlyActive_with _) (recorded_holds _ manifest [firstState]) (recorded_journaled _ manifest [firstState]) firstState_sound manifest_encodes firstState rfl room (fun _ => trivial)
    (fun _ => trivial)
  have yields : Yields (fun _ _ => True) (loadActiveTransaction Sample.setting transactionId) occupiedWorld loaded later.world :=
    ⟨Oracle.calm, fun _ _ => trivial, by rw [ran], by rw [ran]⟩
  obtain ⟨rfl, -⟩ := loads.yields rfl yields
  exact ⟨rfl, rfl⟩

private theorem occupied_refused {target : ManifestTarget} (here : manifest.targets[1]? = some target) :
    ¬Permits Sample.setting manifest occupiedWorld firstState .rollback (target, 1) := by
  obtain rfl := Option.some.inj here
  rintro ⟨disposition, found, -⟩
  have refused : (dispositionIn Sample.setting manifest occupiedWorld firstState
      (manifest.targets.get ⟨1, by decide⟩, 1)).toOption = none := by
    decide
  have same : dispositionIn Sample.setting manifest occupiedWorld firstState
      (manifest.targets.get ⟨1, by decide⟩, 1) = .ok disposition := found
  rw [same] at refused
  cases refused

/-- The rollback of this transaction is refused. -/
theorem recovery_refused_as_a_whole_example :
    ∃ final, ((∃ error, (recoverActive Sample.setting transactionId .rollback).run Oracle.calm ⟨occupiedWorld, []⟩ = (.failed error, final)) ∨
        (recoverActive Sample.setting transactionId .rollback).run Oracle.calm ⟨occupiedWorld, []⟩ = (.crashed, final) ∧
          ∃ site, (site, Went.crashed) ∈ final.taken) ∧
      World.Undisturbed transactionId occupiedWorld final.world := by
  refine recovery_refused_as_a_whole Sample.setting transactionId .rollback Oracle.calm occupiedWorld fun loaded later ran => ?_
  obtain ⟨sameManifest, sameState⟩ := occupied_loaded ran
  rw [sameManifest, sameState]
  refine ⟨fun _ => by decide, _, List.mk_mem_zipIdx_iff_getElem?.mpr rfl, occupied_refused rfl⟩

end Example

end Srcmv.Fs
