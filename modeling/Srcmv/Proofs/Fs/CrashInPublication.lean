import Srcmv.Proofs.Fs.Acceptance
import Srcmv.Proofs.Fs.Places
import Srcmv.Proofs.Fs.Trees

/-! # Crashing inside record publication

A crash between the creation of the temporary and the rename leaves the prefix of the record that
was written by then, and nothing else.
-/

namespace Srcmv.Fs

open Srcmv.Core Machine

variable {setting : Setting} {world : World}

section Write

variable {count : ℕ} {site : Site} {error : FsError} {location : Location} {identity : FileIdentity}

/-- Writing that ends before the crash. -/
private theorem writeAll_completed (reaches : world.Reaches location) (bytes : Bytes) :
    ∀ (prior : Bytes) (taken : List (Site × Went)), taken.length + bytes.length ≤ count →
    ∃ later, (writeAll site error location bytes).run (Oracle.crashAfter count)
        ⟨world.place location (some (writtenItem identity prior)), taken⟩ = (.done (), later) ∧
      later.world = world.place location (some (writtenItem identity (prior ++ bytes))) ∧
      later.taken.length = taken.length + bytes.length := by
  induction bytes with
  | nil => exact fun prior taken _ => ⟨_, rfl, by rw [List.append_nil], rfl⟩
  | cons byte rest ih =>
    intro prior taken early
    rw [List.length_cons] at early
    obtain ⟨later, run, written, length⟩ :=
      ih (prior ++ [byte]) ((site, .performed) :: taken) (by rw [List.length_cons]; omega)
    refine ⟨later, ?_, ?_, ?_⟩
    · unfold writeAll at run ⊢
      rw [List.foldlM_cons, Process.run_bind,
        Process.run_act_performed (by show taken.length < count; omega) (appendByte_written reaches prior byte _)]
      exact run
    · rw [written, List.append_assoc, List.singleton_append]
    · rw [length, List.length_cons, List.length_cons]; omega

/-- Writing that is cut by the crash. -/
private theorem writeAll_cut (reaches : world.Reaches location) (bytes : Bytes) :
    ∀ (prior : Bytes) (taken : List (Site × Went)), taken.length ≤ count → count < taken.length + bytes.length →
    ∃ later, (writeAll site error location bytes).run (Oracle.crashAfter count)
        ⟨world.place location (some (writtenItem identity prior)), taken⟩ = (.crashed, later) ∧
      later.world = world.place location (some (writtenItem identity (prior ++ bytes.take (count - taken.length)))) := by
  induction bytes with
  | nil => intro prior taken early late; rw [List.length_nil] at late; omega
  | cons byte rest ih =>
    intro prior taken early late
    rw [List.length_cons] at late
    rcases Nat.eq_or_lt_of_le early with same | before
    · refine ⟨⟨world.place location (some (writtenItem identity prior)), (site, .crashed) :: taken⟩, ?_, ?_⟩
      · unfold writeAll
        rw [List.foldlM_cons, Process.run_bind, Process.run_act_crashed (by show count ≤ taken.length; omega)]
        rfl
      · rw [same, Nat.sub_self, List.take_zero, List.append_nil]
    · obtain ⟨later, run, written⟩ :=
        ih (prior ++ [byte]) ((site, .performed) :: taken) (by rw [List.length_cons]; omega)
          (by rw [List.length_cons]; omega)
      refine ⟨later, ?_, ?_⟩
      · unfold writeAll at run ⊢
        rw [List.foldlM_cons, Process.run_bind,
          Process.run_act_performed (by show taken.length < count; omega) (appendByte_written reaches prior byte _)]
        exact run
      · rw [written, List.append_assoc, List.singleton_append, List.length_cons,
          show count - taken.length = count - (taken.length + 1) + 1 by omega, List.take_succ_cons]

end Write

section Publish

variable {directory temporary published : String} {bytes : Bytes} {record : Option StateSnapshot} {count : ℕ}

private theorem settle_crashAfter {site : Site} {error : FsError} {moment : Moment World Site} :
    (settle site error).run (Oracle.crashAfter count) moment =
      if moment.taken.length < count then (.done (), moment.step site .performed moment.world)
      else (.crashed, moment.step site .crashed moment.world) := by
  unfold settle
  split
  · next early => rw [Process.run_act_performed early rfl]
  · next late => rw [Process.run_act_crashed (not_lt.mp late)]

/-- The crash falls after the creation of the temporary and before its rename: what was written by
then is on disk. -/
theorem publishRecord_crashAfter (reaches : world.Reaches (.artifact directory temporary))
    (free : world.item? (.artifact directory temporary) = none) (created : 1 ≤ count)
    (unpublished : count ≤ bytes.length + 3) :
    ((publishRecord setting directory temporary published bytes record).run (Oracle.crashAfter count)
        ⟨world, []⟩).2.world =
      world.place (.artifact directory temporary)
        (some (writtenItem (setting.newIdentity temporary) (bytes.take (count - 1)))) := by
  have creation : world.createNew (.artifact directory temporary) (setting.newIdentity temporary)
      (.io "create_record_temporary" none) =
        .ok ((), world.place (.artifact directory temporary) (some (writtenItem (setting.newIdentity temporary) []))) := by
    rw [World.createNew, free, writtenItem]
  unfold publishRecord
  rw [Process.run_bind, io, Process.run_act_performed (by show 0 < count; omega) creation]
  rcases Nat.lt_or_ge count (bytes.length + 1) with cut | whole
  · obtain ⟨later, run, written⟩ : ∃ later, (writeAll (.publication "write_record") (.io "write_record" none)
        (.artifact directory temporary) bytes).run (Oracle.crashAfter count)
          ((⟨world, []⟩ : Moment World Site).step (.io "create_record_temporary") .performed (world.place
            (.artifact directory temporary) (some (writtenItem (setting.newIdentity temporary) [])))) = (.crashed, later) ∧ later.world = _ :=
      writeAll_cut reaches bytes [] [_] created (by rw [List.length_singleton]; omega)
    change (Process.continueWith _ _ ((writeAll _ _ _ _).run _ _)).2.world = _
    rw [run]
    exact written
  · obtain ⟨later, run, written, length⟩ : ∃ later, (writeAll (.publication "write_record")
        (.io "write_record" none) (.artifact directory temporary) bytes).run (Oracle.crashAfter count)
          ((⟨world, []⟩ : Moment World Site).step (.io "create_record_temporary") .performed (world.place
            (.artifact directory temporary) (some (writtenItem (setting.newIdentity temporary) [])))) = (.done (), later) ∧ later.world = _ ∧ _ :=
      writeAll_completed reaches bytes [] [_] (by rw [List.length_singleton]; omega)
    rw [List.length_singleton] at length
    rw [List.nil_append] at written
    rw [List.take_of_length_le (by omega), ← written]
    -- The remaining steps before the rename have no effect.
    change (Process.continueWith _ _ ((writeAll _ _ _ _).run _ _)).2.world = _
    rw [run]
    change (Process.continueWith _ _ ((settle _ _).run _ _)).2.world = _
    rw [settle_crashAfter]
    split
    · change (Process.continueWith _ _ ((settle _ _).run _ _)).2.world = _
      rw [settle_crashAfter]
      split
      · change (Process.continueWith _ _ ((Process.act _ _ _).run _ _)).2.world = _
        rw [Process.run_act_crashed (by show count ≤ later.taken.length + 1 + 1; omega)]
        rfl
      · rfl
    · rfl

end Publish

end Srcmv.Fs
