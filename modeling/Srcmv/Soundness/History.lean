import Srcmv.Proofs.Fs.History
import Srcmv.Soundness.JournalLimits

/-! # Accepted histories move forward

In every chain of snapshots that the scan accepts, recorded candidates and recorded rollbacks stay,
terminal states end the chain, no commit follows a rollback, and every candidate stays ready from the
prepared state on. Recorded backups and installations stay exactly when no two neighbours of the chain
outside a rollback disagree on them, as none do in the records of a transaction.
-/

namespace Srcmv.Fs

open Srcmv.Core

/-- What a snapshot still says of an earlier one. -/
structure StillSays (before after : StateSnapshot) : Prop where
  unfinished : before.globalState ≠ .committed ∧ before.globalState ≠ .rolledBack
  noCommit : before.globalState = .rollingBack → after.globalState ≠ .committed
  ready : before.globalState = .prepared → ∀ target ∈ after.targets, target.candidate.kind = .ready
  candidate : ∀ (index : ℕ) (target : TargetState), before.targets[index]? = some target →
    target.candidate.identity.isSome = true → ∃ later, after.targets[index]? = some later ∧ later.candidate = target.candidate
  commits : CommitsKept before after
  rollback : ∀ (index : ℕ) (target : TargetState), before.targets[index]? = some target → target.rollback.kind ≠ .none →
    ∃ later, after.targets[index]? = some later ∧ later.rollback = target.rollback

/-- Every later snapshot still says what an earlier one said. -/
structure MovesForward (states : List StateSnapshot) : Prop where
  still : states.Pairwise StillSays
  ready : ∀ state ∈ states, state.globalState = .prepared → ∀ target ∈ state.targets, target.candidate.kind = .ready

/-- Neighbours outside a rollback agree on recorded backups and installations. -/
def NeighboursAgree (states : List StateSnapshot) : Prop :=
  states.IsChain fun before after => after.globalState.isRollback = false → CommitsKept before after

private theorem stillSays_of_advanced {before after : StateSnapshot} (advanced : Advanced before after)
    (kept : CommitsKept before after) : StillSays before after where
  unfinished := advanced.unfinished
  noCommit rolling committed := by
    rcases advanced.rollingBack rolling with still | finished
    · rw [still] at committed; cases committed
    · rw [finished] at committed; cases committed
  ready prepared := advanced.ready (advanced.prepared prepared)
  candidate := advanced.candidate
  commits := kept
  rollback := advanced.rollback

private theorem isChain_and {α : Type} {first second : α → α → Prop} {items : List α} (one : items.IsChain first)
    (two : items.IsChain second) : items.IsChain fun before after => first before after ∧ second before after := by
  induction items with
  | nil => exact List.isChain_nil
  | cons item rest ih =>
    cases rest with
    | nil => exact List.isChain_singleton item
    | cons next rest =>
      rw [List.isChain_cons_cons] at one two ⊢
      exact ⟨⟨one.1, two.1⟩, ih one.2 two.2⟩

private theorem movesForward_iff {states : List StateSnapshot} {limits : TransactionLimits}
    (shaped : ∀ state ∈ states, validateStateShape state limits = .ok ())
    (follow : states.IsChain fun before after => validateStateTransition before after {} = .ok ()) :
    MovesForward states ↔ NeighboursAgree states := by
  constructor
  · intro moves
    exact moves.still.isChain.imp fun _ _ still _ => still.commits
  · intro agree
    refine ⟨?_, fun state member => ready_of_prepared (shaped state member)⟩
    have steps : states.IsChain fun before after => Advanced before after ∧ CommitsKept before after := by
      refine (isChain_and follow agree).imp fun before after both => ⟨advanced_of_transition both.1, ?_⟩
      obtain ⟨transition, forward⟩ := both
      cases rolling : after.globalState.isRollback with
      | false => exact forward rolling
      | true => exact commitsKept_of_rollback transition rolling
    have transitive : Trans (fun before after => Advanced before after ∧ CommitsKept before after)
        (fun before after => Advanced before after ∧ CommitsKept before after)
        (fun before after => Advanced before after ∧ CommitsKept before after) :=
      ⟨fun first second => ⟨first.1.trans second.1, first.2.trans second.2⟩⟩
    exact (List.isChain_iff_pairwise.mp steps).imp fun both => stillSays_of_advanced both.1 both.2

variable {crates : Crates} {children : NameMap Item} {id : String} {manifest : Manifest} {digest : Sha256Digest}
  {stateNames : List (ℕ × String)} {limits : TransactionLimits} {cumulative total : ℕ} {last : StateSnapshot}
  {checksum : String}

/-- An accepted chain moves forward exactly when its neighbours agree on backups and installations. -/
theorem accepted_history_moves_forward_iff
    (accepted : foldStateChain crates children id manifest digest stateNames cumulative limits = .ok (last, checksum, total)) :
    MovesForward (recordedStates crates children id stateNames limits) ↔
      NeighboursAgree (recordedStates crates children id stateNames limits) := by
  obtain ⟨_, _, shaped, follow⟩ := foldStateChain_reads accepted
  exact movesForward_iff shaped follow

section Recorded

variable {manifest : Manifest} {course : Course} {phases : List Phase} {phase before after : Phase}

private theorem CommitKept.refl (state : CommitState) : CommitKept state state := ⟨fun _ => .inl rfl, fun _ => rfl⟩

private theorem CommitKept.of_untouched {state later : CommitState} (untouched : state.kind = .untouched) :
    CommitKept state later := by
  constructor
  · intro backed
    simp [untouched] at backed
  · intro installed
    simp [untouched] at installed

/-- The next phase keeps what is recorded of every backup and installation. -/
private theorem Next.commitKept (next : Next course before after) (index : ℕ) :
    CommitKept (before.commit course index) (after.commit course index) := by
  cases next with
  | prepare more => exact .refl _
  | beginCommit => exact .refl _
  | @backUp installed more existed =>
    by_cases earlier : index < installed
    · simp only [Phase.commit, if_pos earlier]
      exact .refl _
    · apply CommitKept.of_untouched
      simp [Phase.commit, earlier]
  | @install installed more =>
    by_cases earlier : index < installed
    · simp only [Phase.commit, if_pos earlier, if_pos (Nat.lt_succ_of_lt earlier)]
      exact .refl _
    · by_cases current : index = installed ∧ course.existed installed = true
      · obtain ⟨rfl, existed⟩ := current
        -- The backup of an existing original becomes its installation.
        simp only [Phase.commit, existed, lt_irrefl, and_self, if_true, if_false, Nat.lt_succ_self]
        exact ⟨fun _ => .inr ⟨rfl, rfl⟩, fun impossible => by cases impossible⟩
      · apply CommitKept.of_untouched
        simp [Phase.commit, earlier, current]
  | commit => exact .refl _
  | beginRollback unfinished => exact .refl _
  | restore more => exact .refl _
  | rollBack => exact .refl _

/-- The records of a path agree with their neighbours. -/
theorem Path.neighboursAgree (path : Path course phases phase) : NeighboursAgree (chainOf crates manifest course phases) := by
  induction path with
  | start => exact List.isChain_singleton _
  | @next phases before after path next ih =>
    obtain ⟨earlier, -, recorded⟩ := @Path.last_recorded crates manifest _ _ _ path
    rw [chainOf_concat]
    refine List.isChain_append.mpr ⟨ih, List.isChain_singleton _, ?_⟩
    rintro _ final _ ⟨⟩ -
    rw [recorded, List.getLast?_concat] at final
    obtain rfl := Option.some.inj final
    intro index target found
    have bound : index < course.count := by
      have inside := (List.getElem?_eq_some_iff.mp found).1
      rwa [show (stateAfter crates manifest course (chainOf crates manifest course earlier) before).targets =
        before.targets course from rfl, Phase.length_targets] at inside
    have listed (phase : Phase) : (phase.targets course)[index]? = some (phase.target course index) := by
      rw [Phase.targets, List.getElem?_map, List.getElem?_range bound]
      rfl
    obtain rfl := Option.some.inj ((listed before).symm.trans found)
    exact ⟨_, listed after, next.commitKept index⟩

end Recorded

section Sample

/-- What the records of the small transaction say if this was the identity of the original. -/
def Sample.courseFrom (original : PersistedIdentity) : Course := { Sample.job.course with original := fun _ => original }

theorem Sample.courseFrom_of (original : PersistedIdentity) : (Sample.courseFrom original).Of Sample.manifest where
  count := Sample.job_sound.course_of.count
  existed := Sample.job_sound.course_of.existed
  positive := Sample.job_sound.course_of.positive
  bounded := Sample.job_sound.course_of.bounded

/-- The original of the first target is backed up. -/
def Sample.backedUp : Phase := ⟨.committing, 2, 0, true, 0⟩

def Sample.toCommitting : List Phase :=
  [.start, ⟨.preparing, 1, 0, false, 0⟩, ⟨.prepared, 2, 0, false, 0⟩, ⟨.committing, 2, 0, false, 0⟩]

theorem Sample.path_backedUp (original : PersistedIdentity) :
    Path (Sample.courseFrom original) (Sample.toCommitting ++ [Sample.backedUp]) Sample.backedUp :=
  (((Path.start.next (Next.prepare Nat.two_pos)).next (Next.prepare Nat.one_lt_two)).next Next.beginCommit).next
    (Next.backUp Nat.two_pos rfl)

/-- The chain up to the record that the original `1:3` is backed up. -/
def Sample.committing : List StateSnapshot :=
  chainOf Sample.setting.crates Sample.manifest (Sample.courseFrom ⟨1, 3⟩) Sample.toCommitting

def Sample.recordedBackup : StateSnapshot :=
  stateAfter Sample.setting.crates Sample.manifest (Sample.courseFrom ⟨1, 3⟩) Sample.committing Sample.backedUp

/-- One more record of the same backup, now with the identity `1:4`. -/
def Sample.otherBackup : StateSnapshot :=
  stateAfter Sample.setting.crates Sample.manifest (Sample.courseFrom ⟨1, 4⟩) (Sample.committing ++ [Sample.recordedBackup]) Sample.backedUp

private theorem recorded_chain : Sample.committing ++ [Sample.recordedBackup] =
    chainOf Sample.setting.crates Sample.manifest (Sample.courseFrom ⟨1, 3⟩) (Sample.toCommitting ++ [Sample.backedUp]) := by
  rw [chainOf_concat]
  rfl

private theorem before_sound : SoundChain Sample.setting.crates Sample.manifest (Sample.committing ++ [Sample.recordedBackup]) := by
  rw [recorded_chain]
  exact (Sample.path_backedUp ⟨1, 3⟩).sound (Sample.courseFrom_of _)

private theorem length_committing : Sample.committing.length = 4 := length_chainOf

private theorem good_backedUp (original : PersistedIdentity) : Sample.backedUp.Good (Sample.courseFrom original) :=
  (Sample.path_backedUp original).good Nat.two_pos

private theorem after_extends : Extends Sample.setting.crates Sample.manifest (Sample.committing ++ [Sample.recordedBackup]) Sample.otherBackup := by
  have length : (Sample.committing ++ [Sample.recordedBackup]).length = 5 := by rw [List.length_append, length_committing]; rfl
  have short : (Sample.committing ++ [Sample.recordedBackup]).length < maxStateRecords := by rw [length]; norm_num [maxStateRecords]
  have size : (stateRecord Sample.setting.crates Sample.otherBackup).length ≤ maxStateRecordLength :=
    length_stateAfter_le (Sample.courseFrom_of _)
  refine ⟨⟨shape_ok (Sample.courseFrom_of _) (good_backedUp _) short, size.trans ?_⟩, rfl,
    originals_ok (Sample.courseFrom_of _) (good_backedUp _), rfl, ?_, ?_, ?_⟩
  · norm_num [maxStateRecordLength, maxRecordBytes]
  · intro empty
    rw [empty] at length
    cases length
  · intro last final
    rw [List.getLast?_concat] at final
    obtain rfl := Option.some.inj final
    apply transition_of_progress (Sample.courseFrom_of _) (Sample.courseFrom_of _) (good_backedUp _) (good_backedUp _)
    · rw [List.length_append]; rfl
    · exact short
    · rfl
    · intro index inside
      have two : index < 2 := inside
      interval_cases index <;> rfl
  · have earlier : chainBytes Sample.setting.crates (Sample.committing ++ [Sample.recordedBackup]) ≤ 5 * maxStateRecordLength := by
      rw [recorded_chain]
      exact chainBytes_chainOf_le (Sample.courseFrom_of _)
    have limits : 5 * maxStateRecordLength + maxStateRecordLength ≤ maxStateBytes := by
      norm_num [maxStateRecordLength, maxStateBytes]
    rw [chainBytes_concat]
    omega

private theorem accepted_of_sound {chain : List StateSnapshot} {last : StateSnapshot}
    (sound : SoundChain Sample.setting.crates Sample.manifest (chain ++ [last])) :
    foldStateChain Sample.setting.crates (recordedChildren Sample.setting.crates Sample.manifest (chain ++ [last]))
        Sample.transactionId Sample.manifest (manifestDigest Sample.setting.crates Sample.manifest)
        (recordNames (recordedChildren Sample.setting.crates Sample.manifest (chain ++ [last]))) 0 {} =
      .ok (last, checksumText (stateDigest Sample.setting.crates last), 0 + chainBytes Sample.setting.crates (chain ++ [last])) := by
  have limits : maxStateBytes ≤ maxRecoveryBytes := by norm_num [maxStateBytes, maxRecoveryBytes]
  have bytes := sound.bytes
  exact foldStateChain_sound (recorded_holds _ _ _) (recorded_journaled _ _ _) sound List.getLast?_concat (by omega)

end Sample

/-- The history of the small transaction up to its backup moves forward. -/
theorem backup_history_moves_forward :
    let children := recordedChildren Sample.setting.crates Sample.manifest (Sample.committing ++ [Sample.recordedBackup])
    (recordedStates Sample.setting.crates children Sample.transactionId (recordNames children) {}).length = 5 ∧
      MovesForward (recordedStates Sample.setting.crates children Sample.transactionId (recordNames children) {}) := by
  have states : recordedStates Sample.setting.crates
      (recordedChildren Sample.setting.crates Sample.manifest (Sample.committing ++ [Sample.recordedBackup])) Sample.transactionId
      (recordNames (recordedChildren Sample.setting.crates Sample.manifest (Sample.committing ++ [Sample.recordedBackup]))) {} =
        Sample.committing ++ [Sample.recordedBackup] :=
    recordedStates_sound (recorded_holds _ _ _) (recorded_journaled _ _ _) before_sound
  refine ⟨by rw [states, List.length_append, length_committing]; rfl, ?_⟩
  apply (accepted_history_moves_forward_iff (accepted_of_sound before_sound)).mpr
  rw [states, recorded_chain]
  exact (Sample.path_backedUp ⟨1, 3⟩).neighboursAgree

/-- The scan accepts a chain whose last record gives the backed-up original another identity. -/
theorem accepted_history_replaces_backup :
    let children := recordedChildren Sample.setting.crates Sample.manifest
      (Sample.committing ++ [Sample.recordedBackup] ++ [Sample.otherBackup])
    (∃ checksum total, foldStateChain Sample.setting.crates children Sample.transactionId Sample.manifest
        (manifestDigest Sample.setting.crates Sample.manifest) (recordNames children) 0 {} = .ok (Sample.otherBackup, checksum, total)) ∧
      ¬MovesForward (recordedStates Sample.setting.crates children Sample.transactionId (recordNames children) {}) := by
  have sound := before_sound.extend after_extends
  refine ⟨⟨_, _, accepted_of_sound sound⟩, ?_⟩
  rw [recordedStates_sound (recorded_holds _ _ _) (recorded_journaled _ _ _) sound]
  intro moves
  have still := (List.pairwise_append.mp moves.still).2.2 Sample.recordedBackup (List.mem_append_right _ List.mem_cons_self) Sample.otherBackup
    List.mem_cons_self
  obtain ⟨later, there, kept⟩ := still.commits 0 (Sample.backedUp.target (Sample.courseFrom ⟨1, 3⟩) 0) rfl
  obtain rfl : later = Sample.backedUp.target (Sample.courseFrom ⟨1, 4⟩) 0 := (Option.some.inj there).symm
  rcases kept.backedUp rfl with same | ⟨installed, _⟩
  · exact absurd same (by decide)
  · exact absurd installed (by decide)

end Srcmv.Fs
