import Srcmv.Proofs.Cli.Locked
import Srcmv.Proofs.Fs.Stopping
import Srcmv.Soundness.JournalLimits

/-! # There is at most one active transaction

The gate passes only when no transaction is active, a commit creates one directory at most, and a
recovery none. So any number of commands, with any steps failed and any crashes, never leave two active
transactions behind.
-/

namespace Srcmv.Cli

open Srcmv.Core Srcmv.Fs Machine Process Relation

variable {allowed : Site → Went → Prop} {setting : Setting} {world later : World}

/-- At most one transaction is active. -/
def AtMostOne (world : World) : Prop :=
  ∀ id ∈ world.control.transactions, ∀ other ∈ world.control.transactions, id = other

private theorem atMostOne_of_old (holds : AtMostOne world) (old : ∀ id ∈ later.control.transactions, id ∈ world.control.transactions) :
    AtMostOne later := fun id member other member' => holds id (old id member) other (old other member')

private theorem not_mem_of_empty (quiet : world.control.transactions = ∅) (id : String) : id ∉ world.control.transactions := by
  rw [quiet]
  exact Std.ExtTreeMap.not_mem_empty

private theorem gate_atMostOne : Triple allowed AtMostOne (gateNewTransaction setting)
    ⟨fun _ later => later.control.transactions = ∅, fun _ => AtMostOne, AtMostOne⟩ := by
  refine Triple.pointwise fun world holds => ?_
  have kept (later : World) (cleaned : Cleaned world later) : AtMostOne later :=
    atMostOne_of_old holds fun id member => by rwa [cleaned.transactions] at member
  exact gateNewTransaction_triple.mono (fun _ same => same) (fun _ _ passed => passed.2.active) (fun _ => kept) kept

/-- A commit that finds no active transaction leaves one at most. -/
private theorem commit_atMostOne {snapshot : WorkspaceSnapshot} {plan : EditPlan} {newFileMode : UInt32} {identifiers : List String} :
    Triple allowed (fun world => world.control.transactions = ∅) (Fs.commit setting snapshot plan newFileMode identifiers)
      (Keeps AtMostOne) := by
  refine Triple.pointwise fun world quiet => ?_
  have single (later : World) (spared : SparedByCommit plan identifiers world later) : AtMostOne later := by
    obtain ⟨own, new⟩ := spared.single
    have named (id : String) (member : id ∈ later.control.transactions) : id = own :=
      (new id member).resolve_left (not_mem_of_empty quiet id)
    exact fun id member other member' => (named id member).trans (named other member').symm
  exact commit_spares.mono (fun _ same => same) (fun _ => single) (fun _ => single) single

theorem lockedCommit_atMostOne (request : CommitRequest) :
    Triple allowed AtMostOne (lockedCommit setting request) (Keeps AtMostOne) := by
  have none_one (world : World) (quiet : world.control.transactions = ∅) : AtMostOne world :=
    fun id member => absurd member (not_mem_of_empty quiet id)
  rw [lockedCommit, underLock]
  refine Triple.bind (fun _ world => world.control.transactions = ∅) (Triple.mapError gate_atMostOne) fun _ => ?_
  refine Triple.bind (fun _ world => world.control.transactions = ∅) (Triple.note fun _ quiet => quiet) fun _ => ?_
  refine Triple.bind (fun _ world => world.control.transactions = ∅) (Triple.mapError ?_) fun snapshot => ?_
  · rw [acquireLockedSnapshot, ioRead]
    exact Triple.observe (fun _ => none_one) (fun _ => none_one) (fun _ quiet _ _ => quiet) fun _ world quiet _ _ => none_one world quiet
  · exact Triple.computes (fun _ => none_one) fun plan _ => Triple.mapErrorKeeps commit_atMostOne

theorem lockedRecovery_atMostOne (transactionId : String) (mode : RecoveryMode) :
    Triple allowed AtMostOne (lockedRecovery setting transactionId mode) (Keeps AtMostOne) := by
  rw [lockedRecovery]
  refine Triple.computes (fun _ _ holds => holds) fun _ _ => Triple.computes (fun _ _ holds => holds) fun _ _ => ?_
  refine Triple.mapErrorKeeps (Triple.pointwise fun world holds => ?_)
  have kept (later : World) (spares : (Scope.ofRecorded setting.crates world transactionId).Spares world later) : AtMostOne later :=
    atMostOne_of_old holds spares.old
  exact (spares_of_acts (recoverLocked_acts mode)).mono (fun _ same => same) (fun _ => kept) (fun _ => kept) kept

private theorem command_atMostOne (command : Command) :
    Triple allowed AtMostOne (command.process setting) (Keeps AtMostOne) := by
  cases command with
  | commit request => exact Triple.keepsThen (lockedCommit_atMostOne request) fun _ => Triple.pureKeeps
  | recovery transactionId mode => exact Triple.keepsThen (lockedRecovery_atMostOne transactionId mode) fun _ => Triple.pureKeeps

/-- Over any run of commands, whatever fails or crashes, at most one transaction is ever active. -/
theorem commands_atMostOne (setting : Setting) (start later : System)
    (reached : ReflTransGen (System.Step setting fun _ _ => True) start later) (initially : AtMostOne start.world) :
    AtMostOne later.world := by
  induction reached with
  | refl => exact initially
  | tail _ step ih =>
    cases step with
    | run command allots leads => exact (command_atMostOne command).leads ih leads

/-! ## A small commit

The commit of the small batch, in its workspace before any transaction.
-/

end Srcmv.Cli

namespace Srcmv.Fs.Sample

open Srcmv.Core Srcmv.Cli Machine Process

/-- The small workspace with nothing in its control tree. -/
def quietWorld : World := { world with control := { controlWith ∅ with transactions := ∅ } }

theorem quiet : Idle quietWorld.control := ⟨rfl, rfl, rfl⟩

def random : RandomId :=
  ⟨[0x01, 0x23, 0x45, 0x67, 0x89, 0xab, 0xcd, 0xef, 0x01, 0x23, 0x45, 0x67, 0x89, 0xab, 0xcd, 0xef], rfl⟩

def request : CommitRequest := ⟨⟨batch, none, 0o022, List.replicate 8 random, rfl, sizes⟩, editPlan.digest⟩

theorem request_expected : expectedPlan setting request.toCommitArguments snapshot = .ok editPlan :=
  expectedPlan_eq_ok.mpr ⟨planned, fun _ impossible => by cases impossible⟩

theorem request_locked : lockedPlan setting request snapshot = .ok editPlan := by
  apply lockedPlan_eq_ok.mpr ⟨request_expected, _⟩
  rw [request]

theorem request_admits : Admits setting request.toCommitArguments quietWorld snapshot editPlan manifest where
  acquired := acquired
  planned := request_expected
  qualified := rfl
  device := rfl
  changed empty := by
    have listed := (buildManifest_ok built).1.targets.length_eq
    rw [empty] at listed
    cases listed
  built := ⟨transactionId, List.replicate 7 transactionId, by decide +kernel, built⟩
  encodes := manifest_encodes

theorem quietWorld_new (path : String) (node : Node) (name : String) (stands : quietWorld.files path = some (.file node)) :
    setting.newIdentity name ≠ node.identity := by
  rw [files_source stands]
  show (⟨1, 99⟩ : FileIdentity) ≠ ⟨1, 3⟩
  decide

theorem quietWorld_ready : CommitReady setting quietWorld := ⟨quiet, rfl, rfl, rfl, quietWorld_new⟩

/-- The commit of the small transaction as one from the quiet world. -/
theorem job_quiet : job = plannedJob setting quietWorld snapshot editPlan manifest := rfl

theorem job_opened : job.Fresh (quietWorld.opening setting manifest.transactionId) := by
  rw [job_quiet]
  exact plannedJob_fresh quiet rfl rfl rfl (by decide)

/-- The commit can crash when every candidate is recorded. -/
theorem prepared_stopsAt : ∃ last site, (∃ config, config.temporary = none ∧
      job.Running Calmly config (job.preparedTo job.course.count) last.world) ∧
    StopsAt (lockedCommit setting request) ⟨quietWorld, []⟩ last site := by
  obtain ⟨taken, locked⟩ := underLock_advances quiet request_admits.acquired request_locked
  obtain ⟨taken', commits⟩ := request_admits.commit_advances quiet locked.calm
  obtain ⟨last, site, session, config, -, stops, preparing⟩ := job_opened.stops_prepared job_sound commits.calm
  exact ⟨last, site, ⟨config, preparing.unbegun, preparing.active.running⟩, locked.stops (commits.stops stops).mapError⟩

def quietSystem : System := ⟨quietWorld, setting.newIdentity⟩

theorem quietSystem_allots : quietSystem.Allots setting.newIdentity := ⟨fun active => absurd rfl active, fun _ => quietWorld_new⟩

end Srcmv.Fs.Sample

namespace Srcmv.Cli

open Srcmv.Core Srcmv.Fs Machine Process Relation

/-- A commit of the small batch that crashes when every candidate is recorded leaves its transaction alone. -/
theorem commands_atMostOne_prepared : ∃ later : System,
    System.Step Sample.setting (fun _ _ => True) Sample.quietSystem later ∧ later.world.LastIn .prepared ∧
      Sample.transactionId ∈ later.world.control.transactions ∧ AtMostOne later.world := by
  obtain ⟨last, site, prepared, stops⟩ := Sample.prepared_stopsAt
  obtain ⟨config, -, running⟩ := prepared
  obtain ⟨object, children, only, -⟩ := running.shows_.active
  have leads : Leads (fun _ _ => True) (Command.process Sample.setting (.commit Sample.request)) Sample.quietWorld last.world :=
    stops.first.leads (fun _ _ _ => trivial) trivial
  have step : System.Step Sample.setting (fun _ _ => True) Sample.quietSystem ⟨last.world, Sample.setting.newIdentity⟩ :=
    .run (.commit Sample.request) Sample.quietSystem_allots leads
  refine ⟨_, step, running.lastIn, ?_, commands_atMostOne Sample.setting _ _ (.single step) fun id member => ?_⟩
  · exact only.isActive
  · exact absurd member (not_mem_of_empty rfl id)

end Srcmv.Cli
