import Mathlib.Data.List.Basic

/-!
# What holds until something releases it

A run is a fold of a step function over the actions taken.
-/

namespace WaveformGenerator.Held

variable {σ : Type u} {α : Type v} {step : σ → α → σ} {P : σ → Prop} {R : σ → α → Prop}

/-- What every action keeps holds at the end of a run that it holds at the beginning of. -/
theorem invariant (hstep : ∀ s a, P s → P (step s a)) {s : σ} (hs : P s) (actions : List α) :
    P (actions.foldl step s) := by
  induction actions generalizing s with
  | nil => exact hs
  | cons a actions ih => exact ih (hstep s a hs)

/-- What only a release ends has been released, if it does not hold at the end any more. -/
theorem released (hstep : ∀ s a, P s → ¬R s a → P (step s a)) {s : σ} (hs : P s)
    {actions : List α} (hend : ¬P (actions.foldl step s)) :
    ∃ before a after, actions = before ++ a :: after ∧ R (before.foldl step s) a := by
  induction actions generalizing s with
  | nil => exact absurd hs hend
  | cons a actions ih =>
    by_cases hrelease : R s a
    · exact ⟨[], a, actions, rfl, hrelease⟩
    · obtain ⟨before, b, after, rfl, hb⟩ := ih (hstep s a hs hrelease) hend
      exact ⟨a :: before, b, after, rfl, hb⟩

end WaveformGenerator.Held
