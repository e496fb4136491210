import Srcmv.Proofs.Fs.Acceptance
import Srcmv.Proofs.Fs.Sizes

/-! # The phases of a transaction

How far a transaction has come determines its next state record completely: candidates become ready
in target order, originals are backed up and candidates installed in target order, and a rollback
restores the targets last to first. A path of phases is a sound chain of records, and its length is
bounded by how far its last phase has come.
-/

namespace Srcmv.Fs

open Srcmv.Core

/-- What the records say of each target once it has come that far. -/
structure Course where
  count : ℕ
  existed : ℕ → Bool
  candidate : ℕ → PersistedIdentity
  original : ℕ → PersistedIdentity
  mode : ℕ → UInt32

/-- How far a transaction has come: the targets below `ready` have recorded candidates, those below
`installed` have them installed, `backedUp` tells whether the next original is recorded as backed
up, and the last `restored` targets are recorded as restored. -/
structure Phase where
  globalState : GlobalState
  ready : ℕ
  installed : ℕ
  backedUp : Bool
  restored : ℕ
deriving DecidableEq

namespace Phase

variable (course : Course) (phase : Phase)

def start : Phase := ⟨.preparing, 0, 0, false, 0⟩

/-- The target is recorded as restored. -/
def Restored (index : ℕ) : Prop := course.count ≤ index + phase.restored

instance (index : ℕ) : Decidable (phase.Restored course index) := Nat.decLe _ _

def candidate (index : ℕ) : CandidateState :=
  if index < phase.ready then ⟨.ready, some (course.candidate index)⟩ else ⟨.missing, none⟩

def commit (index : ℕ) : CommitState :=
  if index < phase.installed then
    ⟨.installed, some (course.candidate index), if course.existed index then some (course.mode index) else none⟩
  else if index = phase.installed ∧ phase.backedUp then
    ⟨.backedUp, some (course.original index), some (course.mode index)⟩
  else ⟨.untouched, none, none⟩

def rollback (index : ℕ) : RollbackState :=
  if phase.Restored course index then
    if course.existed index then ⟨.originalRestored, some (course.original index)⟩ else ⟨.absenceRestored, none⟩
  else ⟨.none, none⟩

/-- The recorded state of one target. -/
def target (index : ℕ) : TargetState :=
  ⟨lengthU64 index, phase.candidate course index, phase.commit course index, phase.rollback course index⟩

def targets : List TargetState := (List.range course.count).map (phase.target course)

/-- What holds of every phase that is reached. -/
structure Good : Prop where
  ready_le : phase.ready ≤ course.count
  installed_le : phase.installed ≤ course.count
  restored_le : phase.restored ≤ course.count
  backedUp : phase.backedUp = true → phase.installed < course.count ∧ course.existed phase.installed = true
  begun : 0 < phase.installed ∨ phase.backedUp = true → phase.ready = course.count
  preparing : phase.globalState = .preparing → phase.ready < course.count ∧ phase.installed = 0 ∧ phase.backedUp = false
  prepared : phase.globalState = .prepared → phase.ready = course.count ∧ phase.installed = 0 ∧ phase.backedUp = false
  committing : phase.globalState = .committing → phase.ready = course.count
  committed : phase.globalState = .committed → phase.ready = course.count ∧ phase.installed = course.count
  forward : phase.globalState.isRollback = false → phase.restored = 0
  rolledBack : phase.globalState = .rolledBack → phase.restored = course.count

/-- How far the phase is from the first one. -/
def rank : ℕ :=
  phase.ready + 2 * phase.installed + phase.backedUp.toNat + phase.restored +
    match phase.globalState with
    | .preparing | .prepared => 0
    | .committing => 1
    | .committed | .rollingBack => 2
    | .rolledBack => 3

end Phase

/-- Which phase may follow which. -/
inductive Next (course : Course) : Phase → Phase → Prop where
  | prepare {ready : ℕ} (more : ready < course.count) : Next course ⟨.preparing, ready, 0, false, 0⟩
      ⟨if ready + 1 = course.count then .prepared else .preparing, ready + 1, 0, false, 0⟩
  | beginCommit : Next course ⟨.prepared, course.count, 0, false, 0⟩ ⟨.committing, course.count, 0, false, 0⟩
  | backUp {installed : ℕ} (more : installed < course.count) (existed : course.existed installed = true) :
      Next course ⟨.committing, course.count, installed, false, 0⟩ ⟨.committing, course.count, installed, true, 0⟩
  | install {installed : ℕ} (more : installed < course.count) :
      Next course ⟨.committing, course.count, installed, course.existed installed, 0⟩
        ⟨.committing, course.count, installed + 1, false, 0⟩
  | commit : Next course ⟨.committing, course.count, course.count, false, 0⟩
      ⟨.committed, course.count, course.count, false, 0⟩
  | beginRollback {global : GlobalState} {ready installed : ℕ} {backedUp : Bool}
      (unfinished : global = .preparing ∨ global = .prepared ∨ global = .committing) :
      Next course ⟨global, ready, installed, backedUp, 0⟩ ⟨.rollingBack, ready, installed, backedUp, 0⟩
  | restore {ready installed restored : ℕ} {backedUp : Bool} (more : restored < course.count) :
      Next course ⟨.rollingBack, ready, installed, backedUp, restored⟩
        ⟨.rollingBack, ready, installed, backedUp, restored + 1⟩
  | rollBack {ready installed : ℕ} {backedUp : Bool} :
      Next course ⟨.rollingBack, ready, installed, backedUp, course.count⟩
        ⟨.rolledBack, ready, installed, backedUp, course.count⟩

namespace Next

variable {course : Course} {before after : Phase}

theorem good (next : Next course before after) (good : before.Good course) : after.Good course := by
  obtain ⟨readyLe, installedLe, restoredLe, backedUp, begun, preparing, prepared, committing, committed, forward,
    rolledBack⟩ := good
  cases next with
  | @prepare ready more =>
    by_cases last : ready + 1 = course.count
    · constructor <;> simp_all [GlobalState.isRollback]
    · have less : ready + 1 < course.count := by omega
      constructor <;> simp_all [GlobalState.isRollback]
  | _ => constructor <;> simp_all [GlobalState.isRollback]

theorem rank_lt (next : Next course before after) : before.rank < after.rank := by
  unfold Phase.rank
  cases next with
  | prepare more => dsimp only; split <;> omega
  | @install installed more =>
    have bit := Bool.toNat_le (course.existed installed)
    dsimp only [Bool.toNat_false]
    omega
  | beginRollback unfinished => rcases unfinished with rfl | rfl | rfl <;> dsimp only <;> omega
  | _ => dsimp only [Bool.toNat_false, Bool.toNat_true]; omega

/-- Progress only ever grows, and commit and rollback progress exclude each other. -/
structure Advances (before after : Phase) : Prop where
  precedes : before.globalState.precedes after.globalState = true
  ready : before.ready ≤ after.ready
  position : before.installed < after.installed ∨
    before.installed = after.installed ∧ (before.backedUp = true → after.backedUp = true)
  restored : before.restored ≤ after.restored
  rollback : after.globalState.isRollback = true →
    before.ready = after.ready ∧ before.installed = after.installed ∧ before.backedUp = after.backedUp
  forward : after.globalState.isRollback = false → before.restored = after.restored

theorem advances (next : Next course before after) : Advances before after := by
  cases next with
  | @prepare ready more =>
    by_cases last : ready + 1 = course.count <;> constructor <;>
      simp [last, Nat.le_of_lt more, GlobalState.precedes, GlobalState.isRollback]
  | beginRollback unfinished =>
    rcases unfinished with rfl | rfl | rfl <;> constructor <;> simp [GlobalState.precedes, GlobalState.isRollback]
  | _ => constructor <;> simp [GlobalState.precedes, GlobalState.isRollback]

end Next

theorem Phase.Good.rank_le {course : Course} {phase : Phase} (good : phase.Good course) : phase.rank ≤ 4 * course.count + 3 := by
  have ready := good.ready_le
  have installed := good.installed_le
  have restored := good.restored_le
  have room : 2 * phase.installed + phase.backedUp.toNat ≤ 2 * course.count := by
    cases backed : phase.backedUp with
    | false => dsimp only [Bool.toNat_false]; omega
    | true =>
      have more := (good.backedUp backed).1
      dsimp only [Bool.toNat_true]
      omega
  unfold Phase.rank
  split <;> omega

section Records

variable (crates : Crates) (manifest : Manifest) (course : Course)

/-- The state record that follows a chain. -/
def stateAfter (chain : List StateSnapshot) (phase : Phase) : StateSnapshot where
  transactionVersion := 1
  sequence := UInt64.ofNat chain.length
  manifestChecksum := manifestChecksum crates manifest
  priorStateChecksum := chain.getLast?.map fun last => checksumText (stateDigest crates last)
  globalState := phase.globalState
  targets := phase.targets course

/-- The records of a path of phases. -/
def chainOf (phases : List Phase) : List StateSnapshot :=
  phases.foldl (fun chain phase => chain ++ [stateAfter crates manifest course chain phase]) []

/-- A transaction goes from phase to phase. -/
inductive Path : List Phase → Phase → Prop where
  | start : Path [Phase.start] Phase.start
  | next {phases : List Phase} {before after : Phase} (path : Path phases before) (next : Next course before after) :
      Path (phases ++ [after]) after

/-- The course is that of the manifest. -/
structure Course.Of : Prop where
  count : course.count = manifest.targets.length
  existed : manifest.originalExistence = (List.range course.count).map course.existed
  positive : 0 < course.count
  bounded : course.count ≤ maxTransactionTargets

end Records

section Shape

variable {crates : Crates} {manifest : Manifest} {course : Course} {phase before after : Phase} {phases : List Phase}
  {chain : List StateSnapshot}

theorem chainOf_concat : chainOf crates manifest course (phases ++ [phase]) =
    chainOf crates manifest course phases ++ [stateAfter crates manifest course (chainOf crates manifest course phases) phase] := by
  rw [chainOf, List.foldl_append]
  rfl

@[simp] theorem length_chainOf : (chainOf crates manifest course phases).length = phases.length := by
  induction phases using List.reverseRecOn with
  | nil => rfl
  | append_singleton phases phase ih => rw [chainOf_concat, List.length_append, ih, List.length_append]; rfl

@[simp] theorem Phase.length_targets : (phase.targets course).length = course.count := by
  rw [Phase.targets, List.length_map, List.length_range]

theorem Phase.getElem?_targets {index : ℕ} (inside : index < course.count) :
    (phase.targets course)[index]? = some (phase.target course index) := by
  rw [Phase.targets, List.getElem?_map, List.getElem?_range inside]
  rfl

theorem Phase.mem_targets {target : TargetState} :
    target ∈ phase.targets course ↔ ∃ index < course.count, phase.target course index = target := by
  simp only [Phase.targets, List.mem_map, List.mem_range]

theorem Phase.candidate_of_lt {index : ℕ} (ready : index < phase.ready) :
    phase.candidate course index = ⟨.ready, some (course.candidate index)⟩ := if_pos ready

theorem Phase.candidate_of_le {index : ℕ} (unready : phase.ready ≤ index) :
    phase.candidate course index = ⟨.missing, none⟩ := if_neg (by omega)

theorem Phase.commit_of_lt {index : ℕ} (installed : index < phase.installed) : phase.commit course index =
    ⟨.installed, some (course.candidate index), if course.existed index then some (course.mode index) else none⟩ :=
  if_pos installed

theorem Phase.commit_backedUp {index : ℕ} (same : index = phase.installed) (backed : phase.backedUp = true) :
    phase.commit course index = ⟨.backedUp, some (course.original index), some (course.mode index)⟩ := by
  rw [Phase.commit, if_neg (by omega), if_pos ⟨same, backed⟩]

theorem Phase.commit_untouched {index : ℕ} (later : phase.installed ≤ index)
    (untouched : index = phase.installed → phase.backedUp = false) :
    phase.commit course index = ⟨.untouched, none, none⟩ := by
  rw [Phase.commit, if_neg (by omega), if_neg]
  rintro ⟨same, backed⟩
  rw [untouched same] at backed
  cases backed

theorem Phase.rollback_none {index : ℕ} (unrestored : ¬phase.Restored course index) :
    phase.rollback course index = ⟨.none, none⟩ := if_neg unrestored

theorem Phase.rollback_original {index : ℕ} (restored : phase.Restored course index) (existed : course.existed index = true) :
    phase.rollback course index = ⟨.originalRestored, some (course.original index)⟩ := by
  rw [Phase.rollback, if_pos restored, if_pos existed]

theorem Phase.rollback_absence {index : ℕ} (restored : phase.Restored course index) (absent : course.existed index = false) :
    phase.rollback course index = ⟨.absenceRestored, none⟩ := by
  rw [Phase.rollback, if_pos restored, if_neg (by simp [absent])]

private theorem targetFields_ok (index : ℕ) : validateTargetFields (phase.target course index) = .ok () := by
  have candidate : phase.candidate course index = ⟨.ready, some (course.candidate index)⟩ ∨
      phase.candidate course index = ⟨.missing, none⟩ := ite_eq_or_eq _ _ _
  have rollback : phase.rollback course index = ⟨.originalRestored, some (course.original index)⟩ ∨
      phase.rollback course index = ⟨.absenceRestored, none⟩ ∨ phase.rollback course index = ⟨.none, none⟩ := by
    unfold Phase.rollback
    split
    · exact (ite_eq_or_eq _ _ _).imp_right .inl
    · exact .inr (.inr rfl)
  unfold Phase.target
  rcases Nat.lt_or_ge index phase.installed with installed | later
  · rw [Phase.commit_of_lt installed]
    rcases candidate with same | same <;> rcases rollback with other | other | other <;> rw [same, other] <;> rfl
  · by_cases backed : index = phase.installed ∧ phase.backedUp = true
    · rw [Phase.commit_backedUp backed.1 backed.2]
      rcases candidate with same | same <;> rcases rollback with other | other | other <;> rw [same, other] <;> rfl
    · rw [Phase.commit_untouched later fun same => by simpa [same] using backed]
      rcases candidate with same | same <;> rcases rollback with other | other | other <;> rw [same, other] <;> rfl

theorem Phase.Good.start (positive : 0 < course.count) : Phase.start.Good course := by
  constructor <;> simp [Phase.start, GlobalState.isRollback, positive]

private theorem all_targets {property : TargetState → Bool} (each : ∀ index < course.count, property (phase.target course index) = true) :
    (phase.targets course).all property = true := by
  rw [List.all_eq_true]
  intro target member
  obtain ⟨index, inside, rfl⟩ := Phase.mem_targets.mp member
  exact each index inside

private theorem globalConstraints_ok {state : StateSnapshot} (good : phase.Good course)
    (global : state.globalState = phase.globalState) (targets : state.targets = phase.targets course) :
    globalConstraintsHold state = true := by
  have allReady : phase.ready = course.count →
      ((phase.targets course).all fun target => decide (target.candidate.kind = .ready)) = true := fun all =>
    all_targets fun index inside => by
      rw [decide_eq_true_iff, Phase.target, Phase.candidate_of_lt (by omega)]
  have allUntouched : phase.installed = 0 → phase.backedUp = false →
      ((phase.targets course).all fun target => decide (target.commit.kind = .untouched)) = true := fun none noBackup =>
    all_targets fun index inside => by
      rw [decide_eq_true_iff, Phase.target, Phase.commit_untouched (by omega) fun _ => noBackup]
  have allInstalled : phase.installed = course.count →
      ((phase.targets course).all fun target => decide (target.commit.kind = .installed)) = true := fun all =>
    all_targets fun index inside => by
      rw [decide_eq_true_iff, Phase.target, Phase.commit_of_lt (by omega)]
  have noneRolledBack : phase.globalState.isRollback = false →
      ((phase.targets course).all fun target => decide (target.rollback.kind = .none)) = true := fun forward =>
    all_targets fun index inside => by
      rw [decide_eq_true_iff, Phase.target, Phase.rollback_none (by unfold Phase.Restored; rw [good.forward forward]; omega)]
  unfold globalConstraintsHold
  rw [global, targets]
  cases kind : phase.globalState with
  | preparing =>
    obtain ⟨_, none, noBackup⟩ := good.preparing kind
    simp only [allUntouched none noBackup, noneRolledBack (by rw [kind]; rfl), Bool.and_self]
  | prepared =>
    obtain ⟨all, none, noBackup⟩ := good.prepared kind
    simp only [allReady all, allUntouched none noBackup, noneRolledBack (by rw [kind]; rfl), Bool.and_self]
  | committing => simp only [allReady (good.committing kind), noneRolledBack (by rw [kind]; rfl), Bool.and_self]
  | committed =>
    obtain ⟨all, installed⟩ := good.committed kind
    simp only [allReady all, allInstalled installed, noneRolledBack (by rw [kind]; rfl), Bool.and_self]
  | rollingBack =>
    refine all_targets fun index inside => ?_
    by_cases untouched : phase.installed = 0 ∧ phase.backedUp = false
    · have commit : phase.commit course index = ⟨.untouched, none, none⟩ :=
        Phase.commit_untouched (by omega) fun _ => untouched.2
      simp [Phase.target, commit]
    · have ready := good.begun (by
        rcases Nat.eq_zero_or_pos phase.installed with none | some
        · exact .inr (by simpa [none] using untouched)
        · exact .inl some)
      have candidate : phase.candidate course index = ⟨.ready, some (course.candidate index)⟩ :=
        Phase.candidate_of_lt (by omega)
      simp [Phase.target, candidate]
  | rolledBack =>
    refine all_targets fun index inside => ?_
    have restored : phase.Restored course index := by
      unfold Phase.Restored
      rw [good.rolledBack kind]
      omega
    rw [Phase.target, Phase.rollback, if_pos restored]
    split <;> rfl

private theorem commitRank_eq (index : ℕ) : commitRank (phase.commit course index).kind =
    if index < phase.installed then 2 else if index = phase.installed ∧ phase.backedUp = true then 1 else 0 := by
  rcases Nat.lt_or_ge index phase.installed with installed | later
  · rw [Phase.commit_of_lt installed, if_pos installed]
    rfl
  · rw [if_neg (by omega)]
    by_cases backed : index = phase.installed ∧ phase.backedUp = true
    · rw [Phase.commit_backedUp backed.1 backed.2, if_pos backed]
      rfl
    · rw [Phase.commit_untouched later fun same => by simpa [same] using backed, if_neg backed]
      rfl

private theorem targetProgress_ok (advances : Next.Advances before after) (index : ℕ) :
    validateTargetProgress (before.target course index) (after.target course index) after.globalState = .ok () := by
  have candidate : before.candidate course index = after.candidate course index ∨
      ((before.candidate course index).kind = .missing ∧ (after.candidate course index).kind = .ready) := by
    rcases Nat.lt_or_ge index before.ready with ready | unready
    · left
      rw [Phase.candidate_of_lt ready, Phase.candidate_of_lt (ready.trans_le advances.ready)]
    · rcases Nat.lt_or_ge index after.ready with ready | still
      · right
        rw [Phase.candidate_of_le unready, Phase.candidate_of_lt ready]
        exact ⟨rfl, rfl⟩
      · left
        rw [Phase.candidate_of_le unready, Phase.candidate_of_le still]
  have rank : commitRank (before.commit course index).kind ≤ commitRank (after.commit course index).kind := by
    rw [commitRank_eq, commitRank_eq]
    rcases advances.position with less | ⟨same, backed⟩
    · split_ifs <;> omega
    · rw [same]
      split_ifs with installed first second
      · exact le_rfl
      · exact le_rfl
      · exact absurd ⟨first.1, backed first.2⟩ second
      · omega
      · exact le_rfl
  have commit : after.globalState.isRollback = false ∨ before.commit course index = after.commit course index := by
    cases rollback : after.globalState.isRollback with
    | false => exact .inl rfl
    | true =>
      obtain ⟨_, installed, backed⟩ := advances.rollback rollback
      exact .inr (by rw [Phase.commit, Phase.commit, installed, backed])
  have restored : before.Restored course index → before.rollback course index = after.rollback course index := by
    intro earlier
    have later : after.Restored course index := earlier.trans (Nat.add_le_add_left advances.restored index)
    rw [Phase.rollback, Phase.rollback, if_pos earlier, if_pos later]
  unfold validateTargetProgress Phase.target
  dsimp only
  rw [if_neg (not_not.mpr candidate), if_neg, if_neg (not_not.mpr ⟨rank, commit⟩), if_neg]
  · rintro ⟨some, different⟩
    by_cases earlier : before.Restored course index
    · exact different (restored earlier)
    · exact some (by rw [Phase.rollback_none earlier])
  · rintro ⟨forward, different⟩
    refine different ?_
    simp only [Phase.rollback, Phase.Restored, advances.forward forward]

variable (of : course.Of manifest)

include of in
theorem shape_ok (good : phase.Good course) (short : chain.length < maxStateRecords) :
    validateStateShape (stateAfter crates manifest course chain phase) {} = .ok () := by
  have fits : chain.length < 2 ^ 64 := short.trans (by norm_num [maxStateRecords])
  have sequence : (UInt64.ofNat chain.length).toNat = chain.length := UInt64.toNat_ofNat_of_lt' fits
  have prior : validateOptionalDigest (stateAfter crates manifest course chain phase).priorStateChecksum none = .ok () := by
    unfold validateOptionalDigest stateAfter
    cases chain.getLast? with
    | none => rfl
    | some last => exact validateDigest_toPrefixedHex _ _
  have zero : UInt64.ofNat chain.length = 0 ↔ chain = [] := by
    rw [← UInt64.toNat_inj, sequence]
    exact List.length_eq_zero_iff
  have noPrior : ¬((stateAfter crates manifest course chain phase).sequence = 0 ∧
      (stateAfter crates manifest course chain phase).priorStateChecksum.isSome = true) := by
    rintro ⟨first, present⟩
    change UInt64.ofNat chain.length = 0 at first
    rw [zero] at first
    subst first
    cases present
  have hasPrior : ¬((stateAfter crates manifest course chain phase).sequence ≠ 0 ∧
      (stateAfter crates manifest course chain phase).priorStateChecksum.isNone = true) := by
    rintro ⟨later, missing⟩
    change UInt64.ofNat chain.length ≠ 0 at later
    rw [Ne, zero, ← List.getLast?_eq_none_iff, ← Option.isNone_iff_eq_none] at later
    change (chain.getLast?.map _).isNone = true at missing
    rw [Option.isNone_map] at missing
    exact later missing
  have each : (phase.targets course).zipIdx.forM (fun entry => do
      Except.rejectIf (entry.1.targetIndex ≠ lengthU64 entry.2) (corrupt none "state_target_index_invalid")
      validateTargetFields entry.1) = Except.ok ⟨⟩ := by
    rw [List.forM_eq_ok]
    rintro ⟨target, index⟩ member
    have found : (phase.targets course)[index]? = some target := List.mem_zipIdx_iff_getElem?.mp member
    have inside := (List.getElem?_eq_some_iff.mp found).1
    rw [Phase.length_targets] at inside
    obtain rfl := Option.some.inj (found.symm.trans (Phase.getElem?_targets inside))
    rw [Except.rejectIf_of_not (by exact not_not.mpr rfl), Except.ok_bind]
    exact targetFields_ok index
  unfold validateStateShape
  rw [Except.rejectIf_of_not (by exact not_not.mpr rfl), Except.ok_bind,
    Except.rejectIf_of_not (by change ¬(UInt64.ofNat chain.length).toNat ≥ maxStateRecords; omega), Except.ok_bind,
    show validateDigest (stateAfter crates manifest course chain phase).manifestChecksum none = .ok () from
      validateDigest_toPrefixedHex _ _, Except.ok_bind, prior, Except.ok_bind, Except.rejectIf_of_not noPrior, Except.ok_bind,
    Except.rejectIf_of_not hasPrior, Except.ok_bind,
    Except.rejectIf_of_not (by exact not_lt.mpr (Phase.length_targets.trans_le of.bounded)), Except.ok_bind,
    show (stateAfter crates manifest course chain phase).targets = phase.targets course from rfl, each, Except.ok_bind,
    validateGlobalConstraints, if_pos (globalConstraints_ok good rfl rfl)]

include of in
theorem originals_ok (good : phase.Good course) :
    validateStateAgainstManifest (stateAfter crates manifest course chain phase) manifest = .ok () := by
  have each : ∀ index < course.count, ¬((course.existed index = false ∧ (phase.target course index).commit.kind = .backedUp) ∨
      ((phase.target course index).rollback.kind = .originalRestored ∧ course.existed index = false) ∨
      ((phase.target course index).rollback.kind = .absenceRestored ∧ course.existed index = true)) := by
    intro index inside
    have backed : (phase.commit course index).kind = .backedUp → course.existed index = true := by
      intro kind
      rcases Nat.lt_or_ge index phase.installed with installed | later
      · rw [Phase.commit_of_lt installed] at kind; cases kind
      · by_cases backed : index = phase.installed ∧ phase.backedUp = true
        · rw [backed.1]; exact (good.backedUp backed.2).2
        · rw [Phase.commit_untouched later fun same => by simpa [same] using backed] at kind; cases kind
    have restored : (phase.rollback course index).kind = (if phase.Restored course index then
        if course.existed index then .originalRestored else .absenceRestored else .none) := by
      unfold Phase.rollback
      split_ifs <;> rfl
    unfold Phase.target
    dsimp only
    rw [restored]
    rintro (⟨absent, kind⟩ | ⟨kind, absent⟩ | ⟨kind, existed⟩)
    · rw [backed kind] at absent; cases absent
    · rw [absent] at kind; split at kind <;> cases kind
    · rw [existed] at kind; split at kind <;> cases kind
  unfold validateStateAgainstManifest validateStateAgainstOriginals
  rw [of.existed, show (stateAfter crates manifest course chain phase).targets = (List.range course.count).map (phase.target course)
    from rfl, List.length_map, List.length_map, if_neg (not_not.mpr rfl), List.zip_map', List.forM_eq_ok]
  intro entry member
  obtain ⟨index, inside, rfl⟩ := List.mem_map.mp member
  exact if_neg (each index (List.mem_range.mp inside))

include of in
/-- A transition between states of two courses: each target has to progress. -/
theorem transition_of_progress {other : Course} (ofOther : other.Of manifest) (good : before.Good course)
    (goodAfter : after.Good other) {earlier later : List StateSnapshot} (contiguous : later.length = earlier.length + 1)
    (short : later.length < maxStateRecords) (precedes : before.globalState.precedes after.globalState = true)
    (progress : ∀ index < course.count,
      validateTargetProgress (before.target course index) (after.target other index) after.globalState = .ok ()) :
    validateStateTransition (stateAfter crates manifest course earlier before)
      (stateAfter crates manifest other later after) {} = .ok () := by
  have sequences : ∀ {chain : List StateSnapshot}, chain.length < maxStateRecords →
      (UInt64.ofNat chain.length).toNat = chain.length := fun short =>
    UInt64.toNat_ofNat_of_lt' (short.trans (by norm_num [maxStateRecords]))
  have first := sequences (show earlier.length < maxStateRecords by omega)
  have second := sequences short
  have limit : maxStateRecords < u64Max := by norm_num [maxStateRecords, u64Max]
  have count : other.count = course.count := ofOther.count.trans of.count.symm
  have each : ((before.targets course).zip (after.targets other)).forM (fun pair => do
      Except.rejectIf (pair.1.targetIndex ≠ pair.2.targetIndex) (corrupt none "state_target_order_changed")
      validateTargetProgress pair.1 pair.2 after.globalState) = Except.ok ⟨⟩ := by
    rw [Phase.targets, Phase.targets, count, List.zip_map', List.forM_eq_ok]
    intro pair member
    obtain ⟨index, inside, rfl⟩ := List.mem_map.mp member
    rw [Except.rejectIf_of_not (by exact not_not.mpr rfl), Except.ok_bind]
    exact progress index (List.mem_range.mp inside)
  unfold validateStateTransition
  rw [shape_ok of good (by omega), Except.ok_bind, shape_ok ofOther goodAfter short, Except.ok_bind,
    Except.rejectIf_of_not (by change ¬(UInt64.ofNat earlier.length).toNat + 1 > u64Max; omega), Except.ok_bind,
    Except.rejectIf_of_not
      (by change ¬(UInt64.ofNat later.length).toNat ≠ (UInt64.ofNat earlier.length).toNat + 1; omega), Except.ok_bind,
    Except.rejectIf_of_not (by
      change ¬before.globalState.precedes after.globalState = false
      rw [precedes]
      exact Bool.noConfusion), Except.ok_bind,
    Except.rejectIf_of_not (by
      refine not_not.mpr (Phase.length_targets.trans (count.symm.trans Phase.length_targets.symm))), Except.ok_bind]
  exact each

include of in
private theorem transition_ok (good : before.Good course) (next : Next course before after) {earlier later : List StateSnapshot}
    (contiguous : later.length = earlier.length + 1) (short : later.length < maxStateRecords) :
    validateStateTransition (stateAfter crates manifest course earlier before)
      (stateAfter crates manifest course later after) {} = .ok () :=
  transition_of_progress of of good (next.good good) contiguous short next.advances.precedes fun index _ =>
    targetProgress_ok next.advances index

end Shape

namespace Path

variable {course : Course} {phases : List Phase} {phase after : Phase}

theorem good (path : Path course phases phase) (positive : 0 < course.count) : phase.Good course := by
  induction path with
  | start => exact .start positive
  | next path next ih => exact next.good ih

/-- The number of records is bounded by how far the transaction has come. -/
theorem length_le_rank (path : Path course phases phase) : phases.length ≤ phase.rank + 1 := by
  induction path with
  | start => exact Nat.succ_le_succ (Nat.zero_le _)
  | next path next ih =>
    have further := next.rank_lt
    rw [List.length_append, List.length_singleton]
    omega

/-- At most `4n + 4` records for `n` targets. -/
theorem length_le (path : Path course phases phase) (positive : 0 < course.count) : phases.length ≤ 4 * course.count + 4 := by
  have bound := path.length_le_rank
  have rank := (path.good positive).rank_le
  omega

theorem eq_concat (path : Path course phases phase) : ∃ earlier, phases = earlier ++ [phase] := by
  cases path with
  | start => exact ⟨[], rfl⟩
  | next path next => exact ⟨_, rfl⟩

end Path

section Chains

variable {crates : Crates} {manifest : Manifest} {course : Course} {phases : List Phase} {before after : Phase}

theorem mem_chainOf {state : StateSnapshot} (member : state ∈ chainOf crates manifest course phases) :
    ∃ chain phase, state = stateAfter crates manifest course chain phase := by
  induction phases using List.reverseRecOn with
  | nil => cases member
  | append_singleton phases phase ih =>
    rw [chainOf_concat] at member
    rcases List.mem_append.mp member with earlier | last
    · exact ih earlier
    · exact ⟨_, _, List.mem_singleton.mp last⟩

/-- Every candidate is recorded exactly when the transaction was prepared at some point. -/
theorem Path.prepared_iff {phase : Phase} (positive : 0 < course.count) (path : Path course phases phase) :
    (∃ earlier ∈ phases, earlier.globalState = .prepared) ↔ phase.ready = course.count := by
  induction path with
  | start =>
    refine iff_of_false ?_ positive.ne
    rintro ⟨earlier, member, prepared⟩
    obtain rfl := List.mem_singleton.mp member
    cases prepared
  | @next phases before after path next ih =>
    have good := path.good positive
    have goodAfter := next.good good
    constructor
    · rintro ⟨earlier, member, prepared⟩
      rcases List.mem_append.mp member with inside | last
      · have ready := ih.mp ⟨earlier, inside, prepared⟩
        exact Nat.le_antisymm goodAfter.ready_le (ready.ge.trans next.advances.ready)
      · obtain rfl := List.mem_singleton.mp last
        exact (goodAfter.prepared prepared).1
    · intro ready
      have early (same : before.ready = course.count) : ∃ earlier ∈ phases ++ [after], earlier.globalState = .prepared := by
        obtain ⟨earlier, member, prepared⟩ := ih.mpr same
        exact ⟨earlier, List.mem_append_left _ member, prepared⟩
      cases next with
      | prepare more =>
        refine ⟨_, List.mem_append_right _ (List.mem_singleton_self _), ?_⟩
        exact if_pos ready
      | beginCommit => exact early ready
      | backUp _ _ => exact early ready
      | install _ => exact early ready
      | commit => exact early ready
      | beginRollback _ => exact early ready
      | restore _ => exact early ready
      | rollBack => exact early ready

theorem map_globalState_chainOf : (chainOf crates manifest course phases).map StateSnapshot.globalState =
    phases.map Phase.globalState := by
  induction phases using List.reverseRecOn with
  | nil => rfl
  | append_singleton phases phase ih => rw [chainOf_concat, List.map_append, List.map_append, ih]; rfl

/-- The last record of a path is that of its last phase. -/
theorem Path.last_recorded {phase : Phase} (path : Path course phases phase) : ∃ earlier,
    phases = earlier ++ [phase] ∧ chainOf crates manifest course phases = chainOf crates manifest course earlier ++
      [stateAfter crates manifest course (chainOf crates manifest course earlier) phase] := by
  obtain ⟨earlier, rfl⟩ := path.eq_concat
  exact ⟨earlier, rfl, chainOf_concat⟩

variable (of : course.Of manifest)

include of in
theorem length_stateAfter_le {chain : List StateSnapshot} {phase : Phase} :
    (stateRecord crates (stateAfter crates manifest course chain phase)).length ≤ maxStateRecordLength := by
  refine length_stateRecord_le crates (Phase.length_targets.trans_le of.bounded) (length_toPrefixedHex _) ?_
  intro text found
  obtain ⟨last, _, rfl⟩ := Option.map_eq_some_iff.mp found
  exact length_toPrefixedHex _

include of in
theorem chainBytes_chainOf_le : chainBytes crates (chainOf crates manifest course phases) ≤ phases.length * maxStateRecordLength := by
  have count : phases.length = ((chainOf crates manifest course phases).map fun state => (stateRecord crates state).length).length := by
    rw [List.length_map, length_chainOf]
  rw [count, chainBytes]
  refine List.sum_le_card_nsmul _ _ fun length member => ?_
  obtain ⟨state, inside, rfl⟩ := List.mem_map.mp member
  obtain ⟨chain, phase, rfl⟩ := mem_chainOf inside
  exact length_stateAfter_le of

include of in
private theorem extends_of_good (good : after.Good course) (short : phases.length ≤ 4 * course.count + 4)
    (first : phases = [] → after = Phase.start)
    (next : ∀ last, (chainOf crates manifest course phases).getLast? = some last → validateStateTransition last
      (stateAfter crates manifest course (chainOf crates manifest course phases) after) {} = .ok ()) :
    Extends crates manifest (chainOf crates manifest course phases)
      (stateAfter crates manifest course (chainOf crates manifest course phases) after) := by
  have bounded : course.count ≤ 100 := of.bounded
  have length : (chainOf crates manifest course phases).length < maxStateRecords := by
    rw [length_chainOf]
    unfold maxStateRecords
    omega
  refine ⟨⟨shape_ok of good length, (length_stateAfter_le of).trans (by norm_num [maxStateRecordLength, maxRecordBytes])⟩,
    rfl, originals_ok of good, rfl, ?_, next, ?_⟩
  · intro empty
    have none : phases = [] := List.length_eq_zero_iff.mp (by rw [← length_chainOf, empty]; rfl)
    rw [first none, empty]
    exact ⟨rfl, rfl⟩
  · have records : chainBytes crates (chainOf crates manifest course (phases ++ [after])) ≤ _ := chainBytes_chainOf_le of
    rw [chainOf_concat, List.length_append, List.length_singleton] at records
    refine records.trans ((Nat.mul_le_mul_right _ (show phases.length + 1 ≤ 405 by omega)).trans ?_)
    norm_num [maxStateRecordLength, maxStateBytes]

include of in
/-- The first state opens a chain. -/
theorem start_extends : Extends crates manifest [] (stateAfter crates manifest course [] Phase.start) :=
  have empty : chainOf crates manifest course [] = [] := rfl
  empty ▸ extends_of_good of (.start of.positive) (Nat.zero_le _) (fun _ => rfl) nofun

include of in
/-- The record of a next phase extends the records of a path. -/
theorem Path.extends (path : Path course phases before) (next : Next course before after) :
    Extends crates manifest (chainOf crates manifest course phases)
      (stateAfter crates manifest course (chainOf crates manifest course phases) after) := by
  have good := path.good of.positive
  have length := path.length_le of.positive
  have bounded : course.count ≤ 100 := of.bounded
  obtain ⟨earlier, rfl⟩ := path.eq_concat
  refine extends_of_good of (next.good good) length (fun empty => by simp at empty) fun last final => ?_
  rw [chainOf_concat, List.getLast?_concat] at final
  obtain rfl := Option.some.inj final
  refine transition_ok of good next ?_ ?_
  · rw [length_chainOf, length_chainOf, List.length_append, List.length_singleton]
  · rw [length_chainOf]
    unfold maxStateRecords
    omega

include of in
/-- The records of a path are a sound chain. -/
theorem Path.sound (path : Path course phases before) : SoundChain crates manifest (chainOf crates manifest course phases) := by
  induction path with
  | start => exact SoundChain.nil.extend (start_extends of)
  | next path next ih =>
    rw [chainOf_concat]
    exact ih.extend (path.extends of next)

end Chains

end Srcmv.Fs
