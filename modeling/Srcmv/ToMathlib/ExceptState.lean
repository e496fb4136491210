import Mathlib.Tactic

/-! # Failures over a state

Sequences of computations that may fail over a state that they keep when they fail.
-/

namespace ExceptT

variable {ε σ α β : Type}

/-- The outcome and the state after it. -/
def runFrom (computation : ExceptT ε (StateM σ) α) (state : σ) : Except ε α × σ := StateT.run (ExceptT.run computation) state

variable {state later : σ}

/-- A computation that fails ends the sequence. -/
theorem runFrom_bind_of_error {computation : ExceptT ε (StateM σ) α} {next : α → ExceptT ε (StateM σ) β} {failure : ε}
    (failed : computation.runFrom state = (.error failure, later)) : (computation >>= next).runFrom state = (.error failure, later) := by
  rw [runFrom, StateT.run, ExceptT.run] at *
  simp only [bind, ExceptT.bind, ExceptT.mk, StateT.bind, ExceptT.bindCont]
  rw [failed]
  rfl

theorem runFrom_bind_of_ok {computation : ExceptT ε (StateM σ) α} {next : α → ExceptT ε (StateM σ) β} {value : α}
    (ran : computation.runFrom state = (.ok value, later)) : (computation >>= next).runFrom state = (next value).runFrom later := by
  rw [runFrom, runFrom, StateT.run, StateT.run, ExceptT.run] at *
  simp only [bind, ExceptT.bind, ExceptT.mk, StateT.bind, ExceptT.bindCont]
  rw [ran]
  rfl

theorem runFrom_bind_eq_ok {computation : ExceptT ε (StateM σ) α} {next : α → ExceptT ε (StateM σ) β} {result : β} :
    (computation >>= next).runFrom state = (.ok result, later) ↔
      ∃ value between, computation.runFrom state = (.ok value, between) ∧ (next value).runFrom between = (.ok result, later) := by
  constructor
  · intro sequence
    rcases first : computation.runFrom state with ⟨outcome, between⟩
    cases outcome with
    | error failure =>
      rw [runFrom_bind_of_error first] at sequence
      cases sequence
    | ok value => exact ⟨value, between, rfl, (runFrom_bind_of_ok first).symm.trans sequence⟩
  · rintro ⟨value, between, first, second⟩
    rw [runFrom_bind_of_ok first, second]

end ExceptT
