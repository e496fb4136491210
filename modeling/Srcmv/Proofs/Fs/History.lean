import Srcmv.Proofs.Fs.ChainScan

/-! # What an accepted history keeps

The snapshots that the chain fold reads follow one another by accepted transitions. A transition keeps
recorded candidates and recorded rollbacks, and it ends nowhere but in a terminal state; what it
requires of recorded backups and installations outside a rollback is only their rank.
-/

namespace Srcmv.Fs

open Srcmv.Core

section Chain

variable (crates : Crates) (children : NameMap Item) (id : String) (stateNames : List (ℕ × String))
  (limits : TransactionLimits)

/-- The snapshot recorded under a sequence. -/
def recordedState (sequence : ℕ) : Option StateSnapshot :=
  (stateNames.lookup sequence).bind fun name =>
    match children[name]? with
    | some (.file node) => (decodeStateRecord crates node.bytes (some id) limits).toOption.map DecodedRecord.payload
    | _ => none

/-- The snapshots of a state chain, in order. -/
def recordedStates : List StateSnapshot :=
  (List.range stateNames.length).filterMap (recordedState crates children id stateNames limits)

variable {crates children id stateNames limits} {manifest : Manifest} {digest : Sha256Digest}

/-- A record that the fold accepts. -/
private theorem foldStateRecord_ok {fold next : ChainFold} {sequence : ℕ}
    (accepted : foldStateRecord crates children id manifest digest stateNames limits fold sequence = .ok next) :
    ∃ state checksum, recordedState crates children id stateNames limits sequence = some state ∧
      next.prior = some (state, checksum) ∧ validateStateShape state limits = .ok () ∧
      validateChainElement id fold.prior state = .ok () := by
  unfold foldStateRecord at accepted
  split at accepted
  · cases accepted
  · next name named =>
    obtain ⟨⟨bytes, cumulative⟩, read, accepted⟩ := Except.bind_eq_ok.mp accepted
    obtain ⟨_, _, accepted⟩ := Except.bind_eq_ok.mp accepted
    obtain ⟨_, _, accepted⟩ := Except.bind_eq_ok.mp accepted
    obtain ⟨decoded, decodes, accepted⟩ := Except.bind_eq_ok.mp accepted
    obtain ⟨_, _, accepted⟩ := Except.bind_eq_ok.mp accepted
    obtain ⟨_, _, accepted⟩ := Except.bind_eq_ok.mp accepted
    obtain ⟨⟨⟩, follows, accepted⟩ := Except.bind_eq_ok.mp accepted
    rw [Except.pure_eq_ok] at accepted
    subst accepted
    obtain ⟨node, file, rfl⟩ : ∃ node : Node, children[name]? = some (.file node) ∧ node.bytes = bytes := by
      unfold readRecordBounded at read
      split at read
      · cases read
      · next node file =>
        obtain ⟨_, _, read⟩ := Except.bind_eq_ok.mp read
        obtain ⟨_, _, read⟩ := Except.bind_eq_ok.mp read
        rw [Except.pure_eq_ok] at read
        exact ⟨node, file, (Prod.mk.inj read).1⟩
      · cases read
    refine ⟨decoded.payload, _, ?_, rfl, ?_, follows⟩
    · simp only [recordedState, named, Option.bind_some, file]
      rw [decodes]
      rfl
    · unfold decodeStateRecord at decodes
      obtain ⟨other, _, decodes⟩ := Except.bind_eq_ok.mp decodes
      obtain ⟨⟨⟩, shape, decodes⟩ := Except.bind_eq_ok.mp decodes
      rw [Except.pure_eq_ok] at decodes
      exact decodes ▸ shape

/-- What the fold has read so far. -/
private structure Reads (limits : TransactionLimits) (states : List StateSnapshot) (fold : ChainFold) : Prop where
  last : fold.prior.map Prod.fst = states.getLast?
  shaped : ∀ state ∈ states, validateStateShape state limits = .ok ()
  follow : states.IsChain fun before after => validateStateTransition before after {} = .ok ()

private theorem Reads.extend {states : List StateSnapshot} {fold next : ChainFold} {state : StateSnapshot} {checksum : String}
    (reads : Reads limits states fold) (prior : next.prior = some (state, checksum))
    (shape : validateStateShape state limits = .ok ()) (follows : validateChainElement id fold.prior state = .ok ()) :
    Reads limits (states ++ [state]) next where
  last := by rw [prior, List.getLast?_concat]; rfl
  shaped other member := by
    rcases List.mem_append.mp member with earlier | last
    · exact reads.shaped other earlier
    · rw [List.mem_singleton.mp last]; exact shape
  follow := by
    apply List.isChain_append.mpr
    refine ⟨reads.follow, List.isChain_singleton _, ?_⟩
    intro before final after first
    cases first
    have known := reads.last
    rw [Option.mem_def.mp final] at known
    obtain ⟨⟨_, sum⟩, present, rfl⟩ := Option.map_eq_some_iff.mp known
    rw [present] at follows
    obtain ⟨_, _, transition⟩ := Except.bind_eq_ok.mp follows
    exact transition

private theorem foldlM_reads {count : ℕ} :
    ∀ {start result : ChainFold}, start.prior = none →
      (List.range count).foldlM (foldStateRecord crates children id manifest digest stateNames limits) start = .ok result →
      ((List.range count).filterMap (recordedState crates children id stateNames limits)).length = count ∧
        Reads limits ((List.range count).filterMap (recordedState crates children id stateNames limits)) result := by
  induction count with
  | zero =>
    intro start result fresh folded
    rw [List.range_zero, List.foldlM_nil, Except.pure_eq_ok] at folded
    subst folded
    exact ⟨rfl, by rw [fresh]; rfl, nofun, List.isChain_nil⟩
  | succ count ih =>
    intro start result fresh folded
    rw [List.range_succ, List.foldlM_append] at folded
    obtain ⟨middle, earlier, folded⟩ := Except.bind_eq_ok.mp folded
    rw [List.foldlM_cons] at folded
    obtain ⟨final, accepted, folded⟩ := Except.bind_eq_ok.mp folded
    rw [List.foldlM_nil, Except.pure_eq_ok] at folded
    subst folded
    obtain ⟨length, reads⟩ := ih fresh earlier
    obtain ⟨state, checksum, recorded, prior, shape, follows⟩ := foldStateRecord_ok accepted
    rw [List.range_succ, List.filterMap_append, show [count].filterMap _ = [state] by
      rw [List.filterMap_cons_some recorded, List.filterMap_nil]]
    exact ⟨by rw [List.length_append, length]; rfl, reads.extend prior shape follows⟩

/-- The snapshots of an accepted chain: one for each record, the last one is returned, all are well
shaped and each follows the one before. -/
theorem foldStateChain_reads {cumulative total : ℕ} {last : StateSnapshot} {checksum : String}
    (accepted : foldStateChain crates children id manifest digest stateNames cumulative limits = .ok (last, checksum, total)) :
    (recordedStates crates children id stateNames limits).length = stateNames.length ∧
      (recordedStates crates children id stateNames limits).getLast? = some last ∧
      (∀ state ∈ recordedStates crates children id stateNames limits, validateStateShape state limits = .ok ()) ∧
      (recordedStates crates children id stateNames limits).IsChain
        fun before after => validateStateTransition before after {} = .ok () := by
  unfold foldStateChain at accepted
  obtain ⟨_, _, accepted⟩ := Except.bind_eq_ok.mp accepted
  obtain ⟨fold, folded, accepted⟩ := Except.bind_eq_ok.mp accepted
  obtain ⟨length, reads⟩ := foldlM_reads rfl folded
  have final := reads.last
  split at accepted
  · cases accepted
  · next state sum prior =>
    obtain ⟨rfl, _⟩ := Prod.mk.inj (Except.ok.inj accepted)
    rw [prior] at final
    exact ⟨length, final.symm, reads.shaped, reads.follow⟩

/-- The snapshots of a directory with a sound chain. -/
theorem recordedStates_sound {chain : List StateSnapshot} {contents : Entry → Option Item} (holds : Holds children contents)
    (journaled : Journaled crates manifest chain contents) (sound : SoundChain crates manifest chain) :
    recordedStates crates children id (recordNames children) {} = chain := by
  have recorded : ∀ index < chain.length, recordedState crates children id (recordNames children) {} index = chain[index]? := by
    intro index bound
    have found : chain[index]? = some chain[index] := List.getElem?_eq_getElem bound
    obtain ⟨node, here, bytes⟩ := journaled.record index _ found
    have there : children[stateName index "rec"]? = some (.file node) := (holds.entry (.record index)).trans here
    simp only [recordedState, lookup_recordNames holds journaled sound.length_le bound, Option.bind_some, there]
    rw [bytes, decodeStateRecord_stateRecord crates (sound.encodes _ (List.getElem_mem bound)), found]
    rfl
  have firsts : ∀ count ≤ chain.length,
      (List.range count).filterMap (recordedState crates children id (recordNames children) {}) = chain.take count := by
    intro count
    induction count with
    | zero => exact fun _ => by rw [List.range_zero, List.filterMap_nil, List.take_zero]
    | succ count ih =>
      intro bound
      have found : chain[count]? = some chain[count] := List.getElem?_eq_getElem (by omega)
      rw [List.range_succ, List.filterMap_append, ih (by omega), List.take_add_one, found,
        List.filterMap_cons_some ((recorded count (by omega)).trans found), List.filterMap_nil]
      rfl
  rw [recordedStates, length_recordNames holds journaled sound.length_le, firsts _ le_rfl, List.take_length]

end Chain

section Transition

variable {before middle after : StateSnapshot}

/-- What may become of the recorded backup or installation of a target: a backup turns into an
installation with the same preserved mode, and everything else stays. -/
structure CommitKept (before after : CommitState) : Prop where
  backedUp : before.kind = .backedUp → after = before ∨ after.kind = .installed ∧ after.preservedMode = before.preservedMode
  installed : before.kind = .installed → after = before

/-- The recorded backups and installations are kept. -/
def CommitsKept (before after : StateSnapshot) : Prop :=
  ∀ (index : ℕ) (target : TargetState), before.targets[index]? = some target →
    ∃ later, after.targets[index]? = some later ∧ CommitKept target.commit later.commit

/-- What every accepted transition keeps. -/
structure Advanced (before after : StateSnapshot) : Prop where
  unfinished : before.globalState ≠ .committed ∧ before.globalState ≠ .rolledBack
  rollingBack : before.globalState = .rollingBack → after.globalState = .rollingBack ∨ after.globalState = .rolledBack
  length : before.targets.length = after.targets.length
  candidate : ∀ (index : ℕ) (target : TargetState), before.targets[index]? = some target →
    target.candidate.identity.isSome = true → ∃ later, after.targets[index]? = some later ∧ later.candidate = target.candidate
  ready : (∀ target ∈ before.targets, target.candidate.kind = .ready) → ∀ target ∈ after.targets, target.candidate.kind = .ready
  prepared : before.globalState = .prepared → ∀ target ∈ before.targets, target.candidate.kind = .ready
  rollback : ∀ (index : ℕ) (target : TargetState), before.targets[index]? = some target → target.rollback.kind ≠ .none →
    ∃ later, after.targets[index]? = some later ∧ later.rollback = target.rollback

theorem Advanced.trans (first : Advanced before middle) (second : Advanced middle after) : Advanced before after where
  unfinished := first.unfinished
  rollingBack rolling := by
    rcases first.rollingBack rolling with still | finished
    · exact second.rollingBack still
    · exact absurd finished second.unfinished.2
  length := first.length.trans second.length
  candidate index target found recorded := by
    obtain ⟨next, there, same⟩ := first.candidate index target found recorded
    obtain ⟨later, here, equal⟩ := second.candidate index next there (by rw [same]; exact recorded)
    exact ⟨later, here, equal.trans same⟩
  ready all := second.ready (first.ready all)
  prepared := first.prepared
  rollback index target found restored := by
    obtain ⟨next, there, same⟩ := first.rollback index target found restored
    obtain ⟨later, here, equal⟩ := second.rollback index next there (by rw [same]; exact restored)
    exact ⟨later, here, equal.trans same⟩

theorem CommitKept.trans {first second third : CommitState} (one : CommitKept first second) (two : CommitKept second third) :
    CommitKept first third where
  backedUp backed := by
    rcases one.backedUp backed with rfl | ⟨installed, mode⟩
    · exact two.backedUp backed
    · rw [two.installed installed]
      exact .inr ⟨installed, mode⟩
  installed installed := by
    obtain rfl := one.installed installed
    exact two.installed installed

theorem CommitsKept.trans (first : CommitsKept before middle) (second : CommitsKept middle after) : CommitsKept before after := by
  intro index target found
  obtain ⟨next, there, one⟩ := first index target found
  obtain ⟨later, here, two⟩ := second index next there
  exact ⟨later, here, one.trans two⟩

private theorem validateTargetProgress_ok {before after : TargetState} {global : GlobalState}
    (progress : validateTargetProgress before after global = .ok ()) :
    (before.candidate = after.candidate ∨ before.candidate.kind = .missing ∧ after.candidate.kind = .ready) ∧
      (global.isRollback = true → before.commit = after.commit) ∧
      (before.rollback.kind ≠ .none → before.rollback = after.rollback) := by
  unfold validateTargetProgress at progress
  split at progress
  · cases progress
  next candidate =>
    split at progress
    · cases progress
    split at progress
    · cases progress
    next commit =>
      split at progress
      · cases progress
      next rollback =>
        rw [not_not] at candidate commit
        refine ⟨candidate, fun rolling => ?_, fun restored => by_contra fun different => rollback ⟨restored, different⟩⟩
        rcases commit.2 with forward | same
        · rw [rolling] at forward; cases forward
        · exact same

/-- The parts of an accepted transition. -/
private structure Accepted (before after : StateSnapshot) : Prop where
  shape : validateStateShape before {} = .ok ()
  precedes : before.globalState.precedes after.globalState = true
  length : before.targets.length = after.targets.length
  progress : ∀ (index : ℕ) (target later : TargetState), before.targets[index]? = some target →
    after.targets[index]? = some later → validateTargetProgress target later after.globalState = .ok ()

private theorem accepted_of_transition (transition : validateStateTransition before after {} = .ok ()) : Accepted before after := by
  unfold validateStateTransition at transition
  simp only [Except.bind_eq_ok, Except.rejectIf_eq_ok, not_not, Bool.not_eq_false, List.forM_eq_ok] at transition
  obtain ⟨_, shape, _, _, _, _, _, _, _, precedes, _, length, each⟩ := transition
  refine ⟨shape, precedes, length, fun index target later found there => ?_⟩
  have member : (target, later) ∈ before.targets.zip after.targets := by
    apply List.mem_of_getElem? (i := index)
    rw [List.getElem?_zip_eq_some]
    exact ⟨found, there⟩
  obtain ⟨_, _, progress⟩ := each _ member
  exact progress

/-- A target at the same place of the next snapshot. -/
private theorem Accepted.later (accepted : Accepted before after) {index : ℕ} {target : TargetState}
    (found : before.targets[index]? = some target) : ∃ later, after.targets[index]? = some later := by
  have bound := (List.getElem?_eq_some_iff.mp found).1
  exact ⟨_, List.getElem?_eq_getElem (accepted.length ▸ bound)⟩

private theorem Accepted.earlier (accepted : Accepted before after) {later : TargetState} (member : later ∈ after.targets) :
    ∃ target ∈ before.targets, validateTargetProgress target later after.globalState = .ok () := by
  obtain ⟨index, bound, rfl⟩ := List.getElem_of_mem member
  have inside : index < before.targets.length := accepted.length ▸ bound
  exact ⟨_, List.getElem_mem inside,
    accepted.progress index _ _ (List.getElem?_eq_getElem inside) (List.getElem?_eq_getElem bound)⟩

/-- The target checks and the global constraints of a well-shaped state. -/
theorem targets_of_shape {state : StateSnapshot} {limits : TransactionLimits} (shape : validateStateShape state limits = .ok ()) :
    (∀ target ∈ state.targets, validateTargetFields target = .ok ()) ∧ globalConstraintsHold state = true := by
  unfold validateStateShape at shape
  simp only [Except.bind_eq_ok, Except.rejectIf_eq_ok, List.forM_eq_ok] at shape
  obtain ⟨_, _, _, _, _, _, _, _, _, _, _, _, _, _, _, each, constraints⟩ := shape
  constructor
  · intro target member
    obtain ⟨index, bound, rfl⟩ := List.getElem_of_mem member
    obtain ⟨_, _, fields⟩ := each (state.targets[index], index)
      (List.mem_zipIdx_iff_getElem?.mpr (List.getElem?_eq_getElem bound))
    exact fields
  · unfold validateGlobalConstraints at constraints
    split at constraints
    · assumption
    · cases constraints

private theorem ready_of_recorded {target : TargetState} (fields : validateTargetFields target = .ok ())
    (recorded : target.candidate.identity.isSome = true) : target.candidate.kind = .ready := by
  unfold validateTargetFields at fields
  split at fields
  · cases fields
  · next same =>
    rw [recorded, ne_eq, not_not] at same
    exact of_decide_eq_true same

theorem ready_of_prepared {state : StateSnapshot} {limits : TransactionLimits} (shape : validateStateShape state limits = .ok ())
    (prepared : state.globalState = .prepared) : ∀ target ∈ state.targets, target.candidate.kind = .ready := by
  have constraints := (targets_of_shape shape).2
  simp only [globalConstraintsHold, prepared, Bool.and_eq_true, List.all_eq_true, decide_eq_true_eq] at constraints
  exact constraints.1.1

/-- A transition advances. -/
theorem advanced_of_transition (transition : validateStateTransition before after {} = .ok ()) : Advanced before after := by
  have accepted := accepted_of_transition transition
  have precedes := accepted.precedes
  refine ⟨?_, ?_, accepted.length, ?_, ?_, ready_of_prepared accepted.shape, ?_⟩
  · constructor <;> intro final <;> rw [final] at precedes <;> cases precedes
  · intro rolling
    rw [rolling] at precedes
    generalize after.globalState = next at precedes
    cases next with
    | rollingBack => exact .inl rfl
    | rolledBack => exact .inr rfl
    | _ => cases precedes
  · intro index target found recorded
    obtain ⟨later, there⟩ := accepted.later found
    have ready := ready_of_recorded ((targets_of_shape accepted.shape).1 target (List.mem_of_getElem? found)) recorded
    refine ⟨later, there, ?_⟩
    rcases (validateTargetProgress_ok (accepted.progress index target later found there)).1 with same | ⟨missing, _⟩
    · exact same.symm
    · rw [ready] at missing; cases missing
  · intro all later member
    obtain ⟨target, inside, progress⟩ := accepted.earlier member
    rcases (validateTargetProgress_ok progress).1 with same | ⟨_, ready⟩
    · rw [← same]; exact all target inside
    · exact ready
  · intro index target found restored
    obtain ⟨later, there⟩ := accepted.later found
    exact ⟨later, there, ((validateTargetProgress_ok (accepted.progress index target later found there)).2.2 restored).symm⟩

/-- Within a rollback nothing that was recorded of the commit changes. -/
theorem commitsKept_of_rollback (transition : validateStateTransition before after {} = .ok ())
    (rolling : after.globalState.isRollback = true) : CommitsKept before after := by
  have accepted := accepted_of_transition transition
  intro index target found
  obtain ⟨later, there⟩ := accepted.later found
  have same := (validateTargetProgress_ok (accepted.progress index target later found there)).2.1 rolling
  exact ⟨later, there, fun _ => .inl same.symm, fun _ => same.symm⟩

end Transition

end Srcmv.Fs
