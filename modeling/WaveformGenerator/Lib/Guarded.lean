import Mathlib.Data.List.Basic

/-!
# Guarded actions in a row

An action is allowed in some states, changes the state and gives an output. `Runs` says that actions
in a row are each allowed where they are taken.
-/

namespace WaveformGenerator.Guarded

variable {σ : Type u} {α : Type v} {β : Type w} {allowed : σ → α → Prop}

def Runs (allowed : σ → α → Prop) (apply : σ → α → σ) : σ → List α → Prop
  | _, [] => True
  | s, a :: rest => allowed s a ∧ Runs allowed apply (apply s a) rest

instance decidableRuns [∀ s a, Decidable (allowed s a)] (apply : σ → α → σ) :
    (s : σ) → (a : List α) → Decidable (Runs allowed apply s a)
  | _, [] => .isTrue trivial
  | s, a :: rest =>
    have := decidableRuns apply (apply s a) rest
    inferInstanceAs (Decidable (allowed s a ∧ Runs allowed apply (apply s a) rest))

/-- The outputs, each from the state that its action is taken in. -/
def outputs (apply : σ → α → σ) (output : σ → α → β) : σ → List α → List β
  | _, [] => []
  | s, a :: rest => output s a :: outputs apply output (apply s a) rest

variable {apply : σ → α → σ} {output : σ → α → β}

theorem runs_append {s : σ} {a b : List α} :
    Runs allowed apply s (a ++ b) ↔
      Runs allowed apply s a ∧ Runs allowed apply (a.foldl apply s) b := by
  induction a generalizing s with
  | nil => simp [Runs]
  | cons x a ih => simp only [List.cons_append, Runs, List.foldl_cons, ih, and_assoc]

theorem outputs_append (s : σ) (a b : List α) :
    outputs apply output s (a ++ b) =
      outputs apply output s a ++ outputs apply output (a.foldl apply s) b := by
  induction a generalizing s with
  | nil => rfl
  | cons x a ih => rw [List.cons_append, outputs, outputs, ih, List.foldl_cons, List.cons_append]

theorem outputs_eq_nil {s : σ} {a : List α} : outputs apply output s a = [] ↔ a = [] := by
  cases a <;> simp [outputs]

theorem exists_of_mem_outputs {s : σ} {a : List α} {b : β} (h : b ∈ outputs apply output s a) :
    ∃ s' x, b = output s' x := by
  induction a generalizing s with
  | nil => exact nomatch h
  | cons x a ih =>
    rcases List.mem_cons.mp h with rfl | h
    · exact ⟨s, x, rfl⟩
    · exact ih h

/-- What holds of the state and of every allowed action's result holds at the end. -/
theorem Runs.invariant {P : σ → Prop} (hstep : ∀ s a, P s → allowed s a → P (apply s a)) {s : σ}
    {a : List α} (h : Runs allowed apply s a) (hs : P s) : P (a.foldl apply s) := by
  induction a generalizing s with
  | nil => exact hs
  | cons x a ih => exact ih h.2 (hstep s x hs h.1)

end WaveformGenerator.Guarded
