import WaveformGenerator.Lib.StableOrder
import WaveformGenerator.SignalLab.SampleSlip

/-!
# Schedules that the sample slip stage accepts

An accepted schedule is in the order of its frames, every duplicate that gets applied has the
samples it repeats, and no block grows by more than the slack.
-/

namespace WaveformGenerator.SignalLab.SampleSlipImpairment

variable {R : Type} [Det R]

/-! ## The order -/

def InOrder (planned : List PlannedSlip) : Prop := planned.Pairwise (·.frame ≤ ·.frame)

/-- Slips in the order of their frames, those of one frame as they were given. -/
abbrev Sorted (given planned : List PlannedSlip) : Prop :=
  StableOrder.Stable PlannedSlip.frame given planned

/-- What `plan` promises of the lengths. -/
structure Planned (planned : List PlannedSlip) : Prop where
  length_pos : ∀ slip ∈ planned, 0 < slip.length
  length_le : ∀ slip ∈ planned, slip.length ≤ maxSlipLength

theorem Planned.nil : Planned [] :=
  ⟨fun _ hmem => absurd hmem List.not_mem_nil, fun _ hmem => absurd hmem List.not_mem_nil⟩

theorem planned_plan {events : List (SlipEvent R)} {start planned : List PlannedSlip}
    (hstart : Planned start) (h : plan events start = .ok planned) : Planned planned := by
  induction events generalizing start with
  | nil =>
    cases h
    exact hstart
  | cons event events ih =>
    rw [plan] at h
    split at h
    · cases h
    rename_i hlength
    rw [not_or, Nat.not_lt] at hlength
    refine ih ⟨?_, ?_⟩ h
    · intro slip hslip
      rcases List.mem_cons.mp ((Insertion.insertBack_perm _ _ _).mem_iff.mp hslip) with rfl | hold
      · exact Nat.pos_of_ne_zero hlength.1
      · exact hstart.length_pos slip hold
    · intro slip hslip
      rcases List.mem_cons.mp ((Insertion.insertBack_perm _ _ _).mem_iff.mp hslip) with rfl | hold
      · exact hlength.2
      · exact hstart.length_le slip hold

theorem sorted_plan {events : List (SlipEvent R)} {given start planned : List PlannedSlip}
    (hstart : Sorted given start) (h : plan events start = .ok planned) :
    Sorted (given ++ events.map slipOf) planned := by
  induction events generalizing given start with
  | nil =>
    cases h
    rw [List.map_nil, List.append_nil]
    exact hstart
  | cons event events ih =>
    rw [plan] at h
    split at h
    · cases h
    rw [List.map_cons, List.append_cons]
    exact ih (hstart.insertBack (slipOf event)) h

/-! ## The simulation -/

/-- What the simulation finds of the events that a stream of `stop` frames reaches, once `taken`
frames are taken and `sent` samples have gone out: where each event falls, whether it gets applied
as a duplicate, and that there is enough to repeat. -/
inductive Playable (stop : Nat) : Nat → Nat → List PlannedSlip → List Bool → Prop
  | unreached {taken sent events flags} (hbehind : ∀ event ∈ events, stop ≤ event.frame) :
    Playable stop taken sent events flags
  | inside {taken sent event events flags} (hinside : event.frame < taken)
    (hlater : Playable stop taken sent events flags) :
    Playable stop taken sent (event :: events) (false :: flags)
  | duplicate {taken sent event events flags} (hduplicate : event.duplicate = true)
    (houtside : taken ≤ event.frame) (henough : event.length ≤ sent + (event.frame - taken))
    (hlater : Playable stop event.frame (sent + (event.frame - taken) + event.length) events
      flags) :
    Playable stop taken sent (event :: events) (true :: flags)
  | delete {taken sent event events flags} (hduplicate : event.duplicate = false)
    (houtside : taken ≤ event.frame)
    (hlater : Playable stop (event.frame + event.length) (sent + (event.frame - taken)) events
      flags) :
    Playable stop taken sent (event :: events) (false :: flags)

theorem ok_of_map {α β : Type} {f : α → β} {result : Result α} {value : β}
    (h : result.map f = .ok value) : ∃ given, result = .ok given ∧ f given = value := by
  cases result with
  | error status => cases h
  | ok given => exact ⟨given, rfl, Except.ok.inj h⟩

theorem raised_eq {history sent : Nat} (h : history = min maxSlipLength sent) (more : Nat) :
    raised history more = min maxSlipLength (sent + more) := by
  rw [raised]
  split
  · omega
  · omega

theorem playable_of_simulate {totalFrames stop : Nat} {events : List PlannedSlip}
    {consumed history taken sent : Nat} {flags : List Bool} (horder : InOrder events)
    (htotal : totalFrames = 0 ∨ stop ≤ totalFrames) (hstop : stop < 2 ^ 64)
    (htaken : consumed = taken ∨ (unboundedFrames.toNat ≤ taken ∧ consumed = unboundedFrames.toNat))
    (hsent : history = min maxSlipLength sent)
    (h : simulate totalFrames events consumed history = .ok flags) :
    Playable stop taken sent events flags := by
  have hunbounded : unboundedFrames.toNat = 2 ^ 64 - 1 := rfl
  induction events generalizing consumed history taken sent flags with
  | nil => exact .unreached fun event hevent => absurd hevent List.not_mem_nil
  | cons event events ih =>
    obtain ⟨hfirst, horder⟩ := List.pairwise_cons.mp horder
    have hunreached (hbehind : stop ≤ event.frame) :
        Playable stop taken sent (event :: events) flags := by
      refine .unreached fun other hother => ?_
      rcases List.mem_cons.mp hother with rfl | hother
      · exact hbehind
      · exact Nat.le_trans hbehind (hfirst other hother)
    rw [simulate] at h
    split at h
    · rename_i hend
      exact hunreached (by omega)
    split at h
    · rename_i hinside
      obtain ⟨flags, hlater, rfl⟩ := ok_of_map h
      exact .inside (by omega) (ih horder htaken hsent hlater)
    rename_i houtside
    rcases Nat.lt_or_ge event.frame stop with hreached | hbehind
    · have hsame : consumed = taken := by omega
      subst hsame
      have hraised := raised_eq hsent (event.frame - consumed)
      dsimp only at h
      split at h
      · rename_i hduplicate
        split at h
        · cases h
        rename_i henough
        obtain ⟨flags, hlater, rfl⟩ := ok_of_map h
        refine .duplicate hduplicate (by omega) (by omega) (ih horder (.inl rfl) ?_ hlater)
        exact raised_eq hraised event.length
      · rename_i hduplicate
        obtain ⟨flags, hlater, rfl⟩ := ok_of_map h
        refine .delete (by simpa using hduplicate) (by omega) (ih horder ?_ hraised hlater)
        split
        · exact .inr ⟨by omega, rfl⟩
        · exact .inl rfl
    · exact hunreached hbehind

/-! ## The slack -/

/-- The frames that the applied duplicates of some events add. -/
def added (events : List (PlannedSlip × Bool)) : Nat :=
  (events.map fun event => if event.2 then event.1.length else 0).sum

theorem added_append (a b : List (PlannedSlip × Bool)) : added (a ++ b) = added a + added b := by
  rw [added, added, added, List.map_append, List.sum_append]

theorem added_cons (event : PlannedSlip × Bool) (events : List (PlannedSlip × Bool)) :
    added (event :: events) = (if event.2 then event.1.length else 0) + added events := by
  rw [added, added, List.map_cons, List.sum_cons]

theorem added_le_expansion {first : PlannedSlip} {near : List (PlannedSlip × Bool)}
    (hnear : ∀ event ∈ near, event.1.frame - first.frame < engineBlockFrames)
    (later : List (PlannedSlip × Bool)) : added near ≤ expansion first (near ++ later) := by
  induction near with
  | nil => exact Nat.zero_le _
  | cons event near ih =>
    rw [List.forall_mem_cons] at hnear
    rw [List.cons_append, expansion, if_pos hnear.1, added_cons]
    exact Nat.add_le_add_left (ih hnear.2) _

/-- Events that follow each other within a block's length, as far as they get applied, add no more
than the slack. -/
theorem added_le_slack {events before near later : List (PlannedSlip × Bool)} {n : Nat}
    (horder : events.Pairwise (·.1.frame ≤ ·.1.frame)) (hroom : overfull events = false)
    (hevents : events = before ++ near ++ later)
    (hfrom : ∀ event ∈ near, event.2 = true → n ≤ event.1.frame)
    (hbelow : ∀ event ∈ near, event.1.frame < n + engineBlockFrames) :
    added near ≤ engineSlackFrames := by
  subst hevents
  induction before with
  | cons event before ih =>
    rw [List.cons_append, List.cons_append] at hroom horder
    exact ih (List.pairwise_cons.mp horder).2 (Bool.or_eq_false_iff.mp hroom).2
  | nil =>
    induction near with
    | nil => exact Nat.zero_le _
    | cons event near ih =>
      obtain ⟨slip, applied⟩ := event
      rw [List.nil_append, List.cons_append] at hroom horder
      obtain ⟨hhead, hrest⟩ := Bool.or_eq_false_iff.mp hroom
      obtain ⟨hfirst, horderRest⟩ := List.pairwise_cons.mp horder
      have hnear := List.forall_mem_cons.mp hbelow
      cases applied with
      | false =>
        rw [added_cons, if_neg Bool.false_ne_true, Nat.zero_add]
        exact ih (List.forall_mem_cons.mp hfrom).2 hnear.2 horderRest hrest
      | true =>
        have hslack : expansion slip ((slip, true) :: near ++ later) ≤ engineSlackFrames := by
          simpa using hhead
        have hstart : n ≤ slip.frame := hfrom _ List.mem_cons_self rfl
        have hblock : engineBlockFrames = 2048 := rfl
        refine Nat.le_trans (added_le_expansion (fun event hevent => ?_) later) hslack
        have hevent := hbelow event hevent
        omega

end WaveformGenerator.SignalLab.SampleSlipImpairment
