import Srcmv.Machine.Steps

/-! # Processes that only read

A process reads a view of the world when it changes nothing and whatever it returns is the view's
value. Only the environment, or the view itself, can make it fail. Reading composes: the view of a
sequence is the sequence of the views.
-/

namespace Machine

universe u

namespace Process

variable {σ ι ε : Type*} {α β γ : Type u}

/-- The process changes nothing and returns only what the view says. -/
def Reads (process : Process σ ι ε α) (view : σ → Except ε α) : Prop :=
  ∀ (allowed : ι → Went → Prop) (world : σ), Triple allowed (· = world) process
    (Ends (fun _ => True) (fun value later => view world = .ok value ∧ later = world) (· = world))

namespace Reads

variable {process : Process σ ι ε α} {view : σ → Except ε α} {allowed : ι → Went → Prop} {world : σ}

theorem pure (value : α) : Reads (Pure.pure value : Process σ ι ε α) fun _ => .ok value := by
  intro allowed world
  apply Triple.returns
  exact ⟨rfl, rfl⟩

theorem ofExcept (result : Except ε α) : Reads (Process.ofExcept result : Process σ ι ε α) fun _ => result := by
  intro allowed world
  apply Triple.ofExcept
  · rintro value rfl later rfl
    exact ⟨rfl, rfl⟩
  · rintro error rfl later rfl
    exact ⟨trivial, rfl⟩

theorem observe (site : ι) (denied : ε) (view : σ → Except ε α) : Reads (Process.observe site denied view) view := by
  intro allowed world
  apply Triple.observe
  · rintro - later rfl
    rfl
  · rintro - later rfl
    exact ⟨trivial, rfl⟩
  · rintro later rfl value seen
    exact ⟨seen, rfl⟩
  · rintro - later rfl error seen
    exact ⟨trivial, rfl⟩

theorem bind {next : α → Process σ ι ε β} {viewNext : α → σ → Except ε β} (first : Reads process view)
    (second : ∀ value, Reads (next value) (viewNext value)) :
    Reads (process >>= next) fun world => view world >>= fun value => viewNext value world := by
  intro allowed world
  apply (first allowed world).proceeds
  rintro value later ⟨seen, rfl⟩
  apply (second value allowed later).weaken
  · rintro result after ⟨found, rfl⟩
    refine ⟨?_, rfl⟩
    dsimp only
    rw [seen]
    exact found
  · exact fun _ same => same

theorem foldlM {items : List β} {step : γ → β → Process σ ι ε γ} {viewStep : γ → β → σ → Except ε γ}
    (each : ∀ value item, Reads (step value item) (viewStep value item)) (initial : γ) :
    Reads (items.foldlM step initial) fun world => items.foldlM (fun value item => viewStep value item world) initial := by
  induction items generalizing initial with
  | nil => exact pure initial
  | cons item rest ih =>
    simp only [List.foldlM_cons]
    exact bind (each initial item) fun next => ih next

theorem congr {other : σ → Except ε α} (reads : Reads process view) (same : ∀ world, view world = other world) :
    Reads process other := by
  rwa [funext same] at reads

/-- What comes after a reading that cannot be done is never reached. -/
theorem refusesThen {next : α → Process σ ι ε β} {ending : Ending σ ε β} (reads : Reads process view)
    (refused : ∀ value, view world ≠ .ok value) (failed : ∀ error, ending.failed error world) (crashed : ending.crashed world) :
    Triple allowed (· = world) (process >>= next) ending := by
  apply Triple.bind fun _ _ => False
  · apply (reads allowed world).mono
    · exact fun _ same => same
    · exact fun value _ finished => refused value finished.1
    · rintro error later ⟨-, rfl⟩
      exact failed error
    · rintro later rfl
      exact crashed
  · exact fun _ _ _ impossible => impossible.elim

end Reads

end Process

end Machine
