import Mathlib.Tactic
import Srcmv.Model.Lsp.Correlation

/-! # Histories of a correlator

The issued ids are the numbers below the next id, and the pending ones are those that no response has
completed. Every answer of the correlator is therefore an answer about the whole history.
-/

namespace Srcmv.Lsp

/-- The ids that were issued in a history, in order. -/
def issuedIds (history : List Exchange) : List ClientRequestId := history.filterMap Exchange.issued?

/-- The ids that a response completed, in order. -/
def completedIds (history : List Exchange) : List ClientRequestId := history.filterMap Exchange.completed?

/-- What a correlator knows about the ids of its history. -/
private structure Accounts (maxPending : ℕ) (issued completed : List ClientRequestId) (correlator : ResponseCorrelator) : Prop where
  ordered : issued = List.range' 1 issued.length
  next : correlator.nextId = issued.length + 1
  pending : ∀ id, id ∈ correlator.pending ↔ id ∈ issued ∧ id ∉ completed
  distinct : completed.Nodup
  known : ∀ id ∈ completed, id ∈ issued
  counted : correlator.pending.card + completed.length = issued.length
  bounded : correlator.pending.card ≤ maxPending
  limit : correlator.maxPending = maxPending

namespace Accounts

variable {maxPending : ℕ} {issued completed : List ClientRequestId} {correlator : ResponseCorrelator}

private theorem initial (maxPending : ℕ) : Accounts maxPending [] [] (.new maxPending) where
  ordered := rfl
  next := rfl
  pending := by simp [ResponseCorrelator.new]
  distinct := List.nodup_nil
  known := by simp
  counted := rfl
  bounded := Nat.zero_le _
  limit := rfl

private theorem mem_issued (accounts : Accounts maxPending issued completed correlator) (id : ClientRequestId) :
    id ∈ issued ↔ 0 < id ∧ id < correlator.nextId := by
  rw [accounts.ordered, List.mem_range'_1, accounts.next, Nat.add_comm 1]
  exact Iff.rfl

private theorem begun (accounts : Accounts maxPending issued completed correlator) :
    (∀ id, correlator.beginRequest.1 = .ok id →
        Accounts maxPending (issued ++ [id]) completed correlator.beginRequest.2) ∧
      ∀ failure, correlator.beginRequest.1 = .error failure → correlator.beginRequest.2 = correlator := by
  rw [ResponseCorrelator.beginRequest]
  split_ifs with full exhausted
  · exact ⟨fun id impossible => (by cases impossible), fun _ _ => rfl⟩
  · exact ⟨fun id impossible => (by cases impossible), fun _ _ => rfl⟩
  · refine ⟨fun id same => ?_, fun failure impossible => by cases impossible⟩
    obtain rfl := Except.ok.inj same
    have fresh : correlator.nextId ∉ issued := fun member => lt_irrefl _ ((accounts.mem_issued _).mp member).2
    have absent : correlator.nextId ∉ correlator.pending := fun member => fresh ((accounts.pending _).mp member).1
    have length : (issued ++ [correlator.nextId]).length = issued.length + 1 := by simp
    have counted := accounts.counted
    have limit := accounts.limit
    constructor
    · rw [length, List.range'_1_concat, ← accounts.ordered, accounts.next, Nat.add_comm]
    · rw [length, accounts.next]
    · intro id
      rw [Finset.mem_insert, List.mem_append, List.mem_singleton, accounts.pending]
      constructor
      · rintro (rfl | ⟨member, open_⟩)
        · exact ⟨.inr rfl, fun done => fresh (accounts.known _ done)⟩
        · exact ⟨.inl member, open_⟩
      · rintro ⟨member | rfl, open_⟩
        · exact .inr ⟨member, open_⟩
        · exact .inl rfl
    · exact accounts.distinct
    · exact fun id done => List.mem_append_left _ (accounts.known id done)
    · rw [Finset.card_insert_of_notMem absent, length]
      omega
    · rw [Finset.card_insert_of_notMem absent]
      exact limit ▸ not_le.mp full
    · exact limit

/-- The answer to a response tells how its id occurs in the history. -/
private theorem answers (accounts : Accounts maxPending issued completed correlator) (id : ClientRequestId) :
    ((correlator.complete id).1 = .ok () ↔ id ∈ issued ∧ id ∉ completed) ∧
      ((correlator.complete id).1 = .error (.duplicateResponseId id) ↔ id ∈ completed) ∧
      ((correlator.complete id).1 = .error (.unknownResponseId id) ↔ id ∉ issued) := by
  rw [ResponseCorrelator.complete]
  dsimp only
  split_ifs with pending below
  · have found := (accounts.pending id).mp pending
    simp [found.1, found.2]
  · have member := (accounts.mem_issued id).mpr below
    have done : id ∈ completed := by
      by_contra open_
      exact pending ((accounts.pending id).mpr ⟨member, open_⟩)
    simp [member, done]
  · have unknown : id ∉ issued := fun member => below ((accounts.mem_issued id).mp member)
    have open_ : id ∉ completed := fun done => unknown (accounts.known id done)
    simp [unknown, open_]

private theorem completes (accounts : Accounts maxPending issued completed correlator) (id : ClientRequestId) :
    ((correlator.complete id).1 = .ok () → Accounts maxPending issued (completed ++ [id]) (correlator.complete id).2) ∧
      ∀ failure, (correlator.complete id).1 = .error failure → (correlator.complete id).2 = correlator := by
  by_cases pending : id ∈ correlator.pending
  · have accepted : (correlator.complete id).1 = .ok () := by rw [ResponseCorrelator.complete, if_pos pending]
    rw [accepted]
    refine ⟨fun _ => ?_, fun failure impossible => by cases impossible⟩
    obtain ⟨member, open_⟩ := (accounts.pending id).mp pending
    have fewer := Finset.card_erase_add_one pending
    have counted := accounts.counted
    have bounded := accounts.bounded
    change Accounts maxPending _ _ { correlator with pending := correlator.pending.erase id }
    constructor
    · exact accounts.ordered
    · exact accounts.next
    · intro other
      rw [Finset.mem_erase, accounts.pending, List.mem_append, List.mem_singleton]
      tauto
    · rw [List.nodup_append]
      refine ⟨accounts.distinct, List.nodup_singleton _, ?_⟩
      rintro other done _ last rfl
      exact open_ (List.mem_singleton.mp last ▸ done)
    · intro other listed
      rcases List.mem_append.mp listed with done | last
      · exact accounts.known other done
      · exact (List.mem_singleton.mp last) ▸ member
    · rw [List.length_append, List.length_singleton]
      dsimp only
      omega
    · dsimp only
      omega
    · exact accounts.limit
  · have same : (correlator.complete id).2 = correlator := by
      rw [ResponseCorrelator.complete, Finset.erase_eq_of_notMem pending]
    refine ⟨fun accepted => ?_, fun _ _ => same⟩
    exact absurd ((accounts.pending id).mpr ((accounts.answers id).1.mp accepted)) pending

variable {history : List Exchange}

private theorem issuedIds_concat (exchange : Exchange) :
    issuedIds (history ++ [exchange]) = issuedIds history ++ exchange.issued?.toList := by
  rw [issuedIds, List.filterMap_append]
  cases found : exchange.issued? <;> simp [issuedIds, found]

private theorem completedIds_concat (exchange : Exchange) :
    completedIds (history ++ [exchange]) = completedIds history ++ exchange.completed?.toList := by
  rw [completedIds, List.filterMap_append]
  cases found : exchange.completed? <;> simp [completedIds, found]

/-- One more call extends the history. -/
private theorem step (accounts : Accounts maxPending (issuedIds history) (completedIds history) correlator) (call : CorrelatorCall) :
    Accounts maxPending (issuedIds (history ++ [(correlator.call call).1])) (completedIds (history ++ [(correlator.call call).1]))
        (correlator.call call).2 ∧
      ((correlator.call call).1.failed = true → (correlator.call call).2 = correlator) := by
  rw [issuedIds_concat, completedIds_concat]
  cases call with
  | beginRequest =>
    obtain ⟨extends_, unchanged⟩ := accounts.begun
    simp only [ResponseCorrelator.call]
    cases result : correlator.beginRequest.1 with
    | error failure =>
      rw [unchanged failure result]
      simpa [Exchange.issued?, Exchange.completed?] using accounts
    | ok id => exact ⟨by simpa [Exchange.issued?, Exchange.completed?] using extends_ id result, fun failed => (by cases failed)⟩
  | complete id =>
    obtain ⟨extends_, unchanged⟩ := accounts.completes id
    simp only [ResponseCorrelator.call]
    cases result : (correlator.complete id).1 with
    | error failure =>
      rw [unchanged failure result]
      simpa [Exchange.issued?, Exchange.completed?] using accounts
    | ok done => exact ⟨by simpa [Exchange.issued?, Exchange.completed?] using extends_ result, fun failed => (by cases failed)⟩

private theorem run (accounts : Accounts maxPending (issuedIds history) (completedIds history) correlator)
    (calls : List CorrelatorCall) : Accounts maxPending (issuedIds (history ++ (correlator.exchanges calls).1))
      (completedIds (history ++ (correlator.exchanges calls).1)) (correlator.exchanges calls).2 := by
  induction calls generalizing history correlator with
  | nil =>
    rw [ResponseCorrelator.exchanges, List.append_nil]
    exact accounts
  | cons call rest ih =>
    have later := ih (accounts.step call).1
    rwa [List.append_assoc, List.singleton_append] at later

end Accounts

/-- After any calls on a fresh correlator: ids are issued in order from one, each is completed at most
once, the pending ones are the rest, and the next answer is right about the history. -/
theorem correlation_over_history (maxPending : ℕ) (calls : List CorrelatorCall) :
    let history := ((ResponseCorrelator.new maxPending).exchanges calls).1
    let correlator := ((ResponseCorrelator.new maxPending).exchanges calls).2
    issuedIds history = List.range' 1 (issuedIds history).length ∧
      (completedIds history).Nodup ∧ (∀ id ∈ completedIds history, id ∈ issuedIds history) ∧
      (∀ id, ((correlator.complete id).1 = .error (.duplicateResponseId id) ↔ id ∈ completedIds history) ∧
        ((correlator.complete id).1 = .error (.unknownResponseId id) ↔ id ∉ issuedIds history) ∧
        ((correlator.complete id).1 = .ok () ↔ id ∈ issuedIds history ∧ id ∉ completedIds history)) ∧
      correlator.pendingCount + (completedIds history).length = (issuedIds history).length ∧
      correlator.pendingCount ≤ maxPending ∧
      ∀ call, (correlator.call call).1.failed = true → (correlator.call call).2 = correlator := by
  have initial : Accounts maxPending (issuedIds []) (completedIds []) (ResponseCorrelator.new maxPending) := Accounts.initial maxPending
  have accounts := initial.run calls
  rw [List.nil_append] at accounts
  refine ⟨accounts.ordered, accounts.distinct, accounts.known, fun id => ?_, accounts.counted, accounts.bounded,
    fun call => (accounts.step call).2⟩
  obtain ⟨accepted, duplicate, unknown⟩ := accounts.answers id
  exact ⟨duplicate, unknown, accepted⟩

end Srcmv.Lsp
