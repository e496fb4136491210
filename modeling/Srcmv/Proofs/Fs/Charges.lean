import Srcmv.Model.Fs.Control
import Srcmv.ToMathlib.OrderedMap

/-! # The recovery counter

Everything a scan reads is charged to one counter. What is accepted from some value of the counter
is accepted from every smaller one and charges the same amount, so a directory never becomes
unreadable because others shrink.
-/

namespace Srcmv.Fs

open Srcmv.Core

/-- Results that carry the counter. -/
class Counter (ρ : Type) where
  count : ρ → ℕ
  put : ρ → ℕ → ρ
  put_count : ∀ result, put result (count result) = result
  count_put : ∀ result counter, count (put result counter) = counter
  put_put : ∀ result first second, put (put result first) second = put result second

open Counter

instance : Counter ℕ where
  count counter := counter
  put _ counter := counter
  put_count _ := rfl
  count_put _ _ := rfl
  put_put _ _ _ := rfl

instance {α β : Type} [Counter β] : Counter (α × β) where
  count result := count result.2
  put result counter := (result.1, put result.2 counter)
  put_count result := by rw [put_count]
  count_put result counter := count_put result.2 counter
  put_put result first second := by rw [put_put]

instance : Counter ChainFold where
  count := ChainFold.cumulative
  put fold cumulative := { fold with cumulative }
  put_count _ := rfl
  count_put _ _ := rfl
  put_put _ _ _ := rfl

/-- A charging computation: it only adds to the counter, and adds the same from a smaller one. -/
def Charging {ρ : Type} [Counter ρ] (compute : ℕ → Except FsError ρ) : Prop :=
  ∀ start result, compute start = .ok result →
    ∃ amount, count result = start + amount ∧
      ∀ earlier ≤ start, compute earlier = .ok (put result (earlier + amount))

namespace Charging

variable {ρ τ : Type} [Counter ρ] [Counter τ]

theorem error {failure : FsError} : Charging fun _ => (.error failure : Except FsError ρ) :=
  fun _ _ impossible => by cases impossible

/-- Checks that ignore the counter. -/
theorem bind_except {β : Type} {check : Except FsError β} {next : β → ℕ → Except FsError ρ}
    (charging : ∀ checked, Charging (next checked)) : Charging fun start => check >>= fun checked => next checked start := by
  intro start result accepted
  obtain ⟨checked, passed, accepted⟩ := Except.bind_eq_ok.mp accepted
  obtain ⟨amount, total, smaller⟩ := charging checked start result accepted
  refine ⟨amount, total, fun earlier bound => ?_⟩
  dsimp only
  rw [passed, Except.ok_bind, smaller earlier bound]

/-- What follows may also look at the amount that was charged. -/
theorem bind_amount {first : ℕ → Except FsError τ} (next : ℕ → τ → Except FsError ρ) (charging : Charging first)
    (later : ∀ amount middle, Charging fun counter => next amount (put middle counter)) :
    Charging fun start => first start >>= fun middle => next (count middle - start) middle := by
  intro start result accepted
  obtain ⟨middle, passed, accepted⟩ := Except.bind_eq_ok.mp accepted
  obtain ⟨amount, counted, smaller⟩ := charging start middle passed
  rw [show count middle - start = amount by omega] at accepted
  obtain ⟨more, total, smallerLater⟩ := later amount middle (count middle) result
    (by show next amount (put middle (count middle)) = _; rw [put_count, accepted])
  refine ⟨amount + more, by omega, fun earlier bound => ?_⟩
  have again := smallerLater (earlier + amount) (by omega)
  dsimp only at again ⊢
  rw [smaller earlier bound, Except.ok_bind, count_put, Nat.add_sub_cancel_left, again, Nat.add_assoc]

theorem bind {first : ℕ → Except FsError τ} {next : τ → Except FsError ρ} (charging : Charging first)
    (later : ∀ middle, Charging fun counter => next (put middle counter)) :
    Charging fun start => first start >>= next :=
  bind_amount (fun _ => next) charging fun _ => later

theorem ite {condition : Prop} [Decidable condition] {first second : ℕ → Except FsError ρ}
    (ifSo : Charging first) (otherwise : Charging second) :
    Charging fun start => if condition then first start else second start := by
  by_cases holds : condition
  · simpa only [if_pos holds] using ifSo
  · simpa only [if_neg holds] using otherwise

/-- Returning the counter with something else. -/
theorem put (value : ρ) : Charging fun start => (.ok (Counter.put value start) : Except FsError ρ) := by
  intro start result equal
  obtain rfl := Except.ok.inj equal
  refine ⟨0, Counter.count_put value start, fun earlier _ => ?_⟩
  rw [Counter.put_put]
  rfl

/-- A fold whose every step charges. -/
theorem foldlM {γ : Type} {step : ρ → γ → Except FsError ρ}
    (charging : ∀ value item, Charging fun start => step (Counter.put value start) item) (items : List γ) :
    ∀ value, Charging fun start => items.foldlM step (Counter.put value start) := by
  induction items with
  | nil => exact put
  | cons item rest ih =>
    intro value
    simp only [List.foldlM_cons]
    exact bind (charging value item) ih

end Charging

/-- Charging a length succeeds from every smaller counter. -/
theorem charging_chargeRecovery (length : ℕ) : Charging fun start => chargeRecovery start length {} := by
  intro start total charged
  unfold chargeRecovery at charged ⊢
  dsimp only at charged
  split at charged
  · cases charged
  · split at charged
    · cases charged
    · next fits within =>
      cases charged
      refine ⟨length, rfl, fun earlier bound => ?_⟩
      dsimp only
      rw [if_neg (by omega), if_neg (by omega)]
      rfl

theorem charging_readRecordBounded (item : Option Item) : Charging fun start => readRecordBounded item start {} := by
  unfold readRecordBounded
  cases item with
  | none => exact Charging.error
  | some item =>
    cases item with
    | symlink => exact Charging.error
    | other => exact Charging.error
    | file node =>
      refine Charging.bind_except fun _ => ?_
      exact Charging.bind (charging_chargeRecovery node.bytes.length) fun total =>
        Charging.put (node.bytes, total)

variable (crates : Crates) {children : NameMap Item} {id : String}

section Active

variable {manifest : Manifest} {digest : Sha256Digest}

theorem charging_inspectOrphan : Charging fun start => inspectOrphan crates children id start {} := by
  unfold inspectOrphan
  refine Charging.bind_except fun _ => ?_
  refine Charging.ite ?_ (Charging.put (_, 0))
  refine Charging.bind (charging_readRecordBounded _) fun read => ?_
  refine Charging.bind_except fun decoded => ?_
  exact Charging.bind_except fun _ => Charging.put (_, 0)

theorem charging_validateManifestOnlyEntry (name : String) (carried : ℕ) :
    Charging fun start => validateManifestOnlyEntry crates children id manifest digest {}
      (Counter.put carried start) name := by
  unfold validateManifestOnlyEntry
  refine Charging.ite (Charging.put carried) (Charging.ite ?_ Charging.error)
  refine Charging.bind (charging_readRecordBounded _) fun read => ?_
  refine Charging.bind_except fun decoded => ?_
  refine Charging.bind_except fun _ => ?_
  exact Charging.bind_except fun _ => Charging.put 0

/-- What follows the read of a state record of the chain, by the amount it was charged. -/
private def acceptStateBytes (fold : ChainFold) (expected amount : ℕ) (bytes : Bytes) (cumulative : ℕ) :
    Except FsError ChainFold := do
  Except.rejectIf (fold.stateBytes + amount > u64Max) (corrupt (some id) "state_bytes_overflow")
  Except.rejectIf (fold.stateBytes + amount > ({} : TransactionLimits).stateBytes)
    (.resourceLimitExceeded "state_record_bytes" (fold.stateBytes + amount) ({} : TransactionLimits).stateBytes)
  let decoded ← decodeStateRecord crates bytes (some id) {}
  Except.rejectIf (decoded.payload.sequence.toNat ≠ expected ∨
      decoded.payload.manifestChecksum ≠ checksumText digest ∨
      decoded.payload.targets.length ≠ manifest.targets.length)
    (corrupt (some id) "state_chain_manifest_or_sequence_mismatch")
  validateStateAgainstManifest decoded.payload manifest
  validateChainElement id fold.prior decoded.payload
  return ⟨some (decoded.payload, checksumText decoded.checksum), fold.stateBytes + amount, cumulative⟩

theorem charging_foldStateRecord (stateNames : List (ℕ × String)) (fold : ChainFold) (expected : ℕ) :
    Charging fun start => foldStateRecord crates children id manifest digest stateNames {}
      (Counter.put fold start) expected := by
  unfold foldStateRecord
  cases stateNames.lookup expected with
  | none => exact Charging.error
  | some name =>
    refine Charging.bind_amount (fun amount (read : Bytes × ℕ) => acceptStateBytes crates fold expected amount read.1 read.2)
      (charging_readRecordBounded _) fun amount read => ?_
    change Charging fun counter => acceptStateBytes crates fold expected amount read.1 counter
    unfold acceptStateBytes
    refine Charging.bind_except fun _ => Charging.bind_except fun _ => Charging.bind_except fun decoded => ?_
    refine Charging.bind_except fun _ => Charging.bind_except fun _ => Charging.bind_except fun _ => ?_
    exact Charging.put (⟨_, _, 0⟩ : ChainFold)

theorem charging_foldStateChain (stateNames : List (ℕ × String)) :
    Charging fun start => foldStateChain crates children id manifest digest stateNames start {} := by
  unfold foldStateChain
  refine Charging.bind_except fun _ => ?_
  refine Charging.bind (Charging.foldlM (charging_foldStateRecord crates stateNames) _ (⟨none, 0, 0⟩ : ChainFold))
    fun fold => ?_
  obtain ⟨prior, length, counter⟩ := fold
  cases prior with
  | none => exact Charging.error
  | some prior => exact Charging.put (prior.1, prior.2, 0)

theorem charging_validateTemporary (context : TemporaryContext) (carried : ℕ × ℕ) (name : String) :
    Charging fun start => validateTemporary crates children id context {} (Counter.put carried start) name := by
  unfold validateTemporary
  cases parseStateName name "tmp" with
  | none => exact Charging.put carried
  | some sequence =>
    dsimp only [Counter.put]
    refine Charging.bind (charging_readRecordBounded _) fun read => ?_
    dsimp only [Counter.put]
    refine Charging.bind_except fun decoded => Charging.bind_except fun _ => ?_
    refine Charging.bind_except fun _ => Charging.bind_except fun _ => ?_
    exact Charging.put (carried.1 + 1, 0)

theorem charging_validateTemporaries (context : TemporaryContext) :
    Charging fun start => validateTemporaries crates children id context start {} := by
  unfold validateTemporaries
  refine Charging.bind_except fun _ => Charging.bind_except fun _ => ?_
  refine Charging.bind (Charging.foldlM (charging_validateTemporary crates context) _ (0, 0)) fun counted => ?_
  exact Charging.bind_except fun _ => Charging.put 0

theorem charging_inspectPublished :
    Charging fun start => inspectPublished crates children id manifest digest start {} := by
  unfold inspectPublished
  refine Charging.ite ?_ ?_
  · exact Charging.bind (Charging.foldlM (fun carried name => charging_validateManifestOnlyEntry crates name carried) _ 0)
      fun _ => Charging.put (_, 0)
  · refine Charging.bind_except fun _ => ?_
    refine Charging.bind (charging_foldStateChain crates _) fun chain => ?_
    exact Charging.bind (charging_validateTemporaries crates _) fun _ => Charging.put (_, 0)

end Active

theorem charging_inspectActiveTransaction : Charging fun start => inspectActiveTransaction crates children id start {} := by
  unfold inspectActiveTransaction
  refine Charging.ite ?_ (charging_inspectOrphan crates)
  refine Charging.bind (charging_readRecordBounded _) fun read => ?_
  refine Charging.bind_except fun decoded => Charging.bind_except fun _ => ?_
  exact charging_inspectPublished crates

theorem charging_validateCompletedEntry (carried : ℕ) (entry : String × Item) :
    Charging fun start => validateCompletedEntry crates id {} (Counter.put carried start) entry := by
  unfold validateCompletedEntry
  refine Charging.bind_except fun _ => Charging.bind_except fun _ => ?_
  refine Charging.ite ?_ ?_
  · refine Charging.bind (charging_readRecordBounded _) fun read => ?_
    exact Charging.bind_except fun _ => Charging.put 0
  · cases completedSequence entry.1 with
    | none => exact charging_chargeRecovery _
    | some sequence =>
      have reading := charging_readRecordBounded (some entry.2)
      refine Charging.bind reading fun read => ?_
      exact Charging.bind_except fun decoded => Charging.bind_except fun _ => Charging.put 0

theorem charging_validateCompletedContents :
    Charging fun start => validateCompletedContents crates children id start {} :=
  Charging.foldlM (charging_validateCompletedEntry crates) _ 0

end Srcmv.Fs
