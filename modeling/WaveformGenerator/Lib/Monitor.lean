import Mathlib.Data.List.Basic

/-!
# Runs and what may be seen of them

A system takes actions one after another, and each step shows some events. A monitor says which
events may come next. A system whose every step the monitor may see, from related states to related
states, is one whose runs it may see.
-/

namespace WaveformGenerator.Monitor

variable {σ : Type u} {α : Type v} {ε : Type w} {μ : Type x}

/-- A run: the state it ends in, and the events of its steps. -/
def run (step : σ → α → σ × List ε) (s : σ) : List α → σ × List ε
  | [] => (s, [])
  | action :: actions =>
    let (s, events) := step s action
    let (s, later) := run step s actions
    (s, events ++ later)

/-- The monitor's state after a row of events, where that is what may be seen. -/
def follow (next : μ → ε → Option μ) (m : μ) (events : List ε) : Option μ := events.foldlM next m

section
variable {step : σ → α → σ × List ε} {s : σ}

theorem run_cons (action : α) (actions : List α) :
    run step s (action :: actions) =
      ((run step (step s action).1 actions).1,
        (step s action).2 ++ (run step (step s action).1 actions).2) := rfl

theorem run_append (actions later : List α) :
    run step s (actions ++ later) =
      ((run step (run step s actions).1 later).1,
        (run step s actions).2 ++ (run step (run step s actions).1 later).2) := by
  induction actions generalizing s with
  | nil => rfl
  | cons action actions ih =>
    rw [List.cons_append, run_cons, ih, run_cons, List.append_assoc]

end

variable {next : μ → ε → Option μ} {m : μ} {event : ε} {events earlier later : List ε}

theorem follow_append :
    follow next m (earlier ++ later) = (follow next m earlier).bind (follow next · later) :=
  List.foldlM_append ..

theorem follow_cons :
    follow next m (event :: events) = (next m event).bind (follow next · events) :=
  List.foldlM_cons ..

@[simp] theorem follow_singleton (m : μ) (event : ε) : follow next m [event] = next m event := by
  rw [follow_cons]
  cases next m event <;> rfl

theorem follow_trans {middle last : μ} (hearlier : follow next m earlier = some middle)
    (hlater : follow next middle later = some last) :
    follow next m (earlier ++ later) = some last := by
  rw [follow_append, hearlier]
  exact hlater

/-- What an outcome shows may be seen, and its state is related to the monitor's. -/
def Sees (next : μ → ε → Option μ) (tied : σ → μ → Prop) (m : μ) (outcome : σ × List ε) : Prop :=
  ∃ after, follow next m outcome.2 = some after ∧ tied outcome.1 after

section
variable {tied : σ → μ → Prop} {s after : σ}

theorem Sees.silent (h : tied s m) : Sees next tied m (s, ([] : List ε)) := ⟨m, rfl, h⟩

/-- What is seen of one step and then of the next. -/
theorem Sees.trans {outcome : σ × List ε} {late : σ × List ε} (h : Sees next tied m outcome)
    (hlate : ∀ middle, tied outcome.1 middle → Sees next tied middle late) :
    Sees next tied m (late.1, outcome.2 ++ late.2) := by
  obtain ⟨middle, hfollow, htied⟩ := h
  obtain ⟨last, hlast, htied'⟩ := hlate middle htied
  exact ⟨last, follow_trans hfollow hlast, htied'⟩

end

/-- Steps that are allowed where they are taken. -/
def Allowed (step : σ → α → σ × List ε) (allowed : σ → α → Prop) (s : σ) : List α → Prop
  | [] => True
  | action :: actions => allowed s action ∧ Allowed step allowed (step s action).1 actions

/-- Where the monitor sees each allowed step, it sees every run of them. -/
theorem sees_run {step : σ → α → σ × List ε} {allowed : σ → α → Prop} {tied : σ → μ → Prop}
    (hstep : ∀ s m action, tied s m → allowed s action → Sees next tied m (step s action))
    {s : σ} (h : tied s m) {actions : List α} (hallowed : Allowed step allowed s actions) :
    Sees next tied m (run step s actions) := by
  induction actions generalizing s m with
  | nil => exact .silent h
  | cons action actions ih =>
    rw [run_cons]
    exact (hstep s m action h hallowed.1).trans fun middle htied => ih htied hallowed.2

theorem allowed_of_forall {step : σ → α → σ × List ε} {allowed : σ → α → Prop}
    (h : ∀ s action, allowed s action) (s : σ) (actions : List α) :
    Allowed step allowed s actions := by
  induction actions generalizing s with
  | nil => trivial
  | cons action actions ih => exact ⟨h s action, ih _⟩

end WaveformGenerator.Monitor
