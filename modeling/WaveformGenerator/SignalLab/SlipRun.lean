import WaveformGenerator.SignalLab.SlipSchedule

/-!
# The sample slip stage over a stream

However a stream is cut into blocks, the stage emits the stream spliced with its slips: `Follows`
ties the locals of the loop to the track of the splices behind the cursor.
-/

namespace WaveformGenerator.SignalLab.SampleSlipImpairment

open Splice (Track length_rtake rtake_append rtake_rtake)

variable {α : Type} {stream : List α} {slack : Nat}

/-! ## One block -/

/-- A part of a block is a part of the stream. -/
theorem drop_take_block {block : List α} {n : Nat}
    (hblock : block = (stream.drop n).take block.length) {start stop : Nat}
    (hstop : stop ≤ block.length) :
    (block.take stop).drop start = (stream.take (n + stop)).drop (n + start) := by
  rw [hblock, List.take_take, Nat.min_eq_left hstop, List.take_drop, List.drop_drop]

/-- The pass of a block behind the frame `n`, and the track: what went out before the block and in
it is what the track has, up to where the pass has got. Its duplicates have added `grown` frames. -/
structure Follows (stream : List α) (n frames : Nat) (before : List α) (t : Track α) (grown : Nat)
    (pass : SlipPass α) : Prop where
  input : pass.input = min frames (t.taken - n)
  deleteRemaining : pass.deleteRemaining = t.taken - (n + frames)
  output : before ++ pass.output = t.upTo stream (n + pass.input)
  room : pass.output.length ≤ pass.input + grown
  applied : pass.applied = .ofNat t.worked

variable {b : SlipBlock α} {n : Nat} {before : List α} {t : Track α} {grown : Nat}
  {pass : SlipPass α} {event : PlannedSlip}

/-- Copying up to a place that the track has not taken. -/
theorem Follows.copyInput (h : Follows stream n b.block.length before t grown pass)
    (hblock : b.block = (stream.drop n).take b.block.length)
    (hgrown : grown ≤ slack)
    (hcapacity : b.block.length + slack ≤ b.capacity) {place : Nat}
    (hinput : pass.input ≤ place) (hplace : place ≤ b.block.length)
    (htaken : t.taken ≤ n + pass.input) :
    before ++ copyInput b.block pass.input place pass.output b.capacity =
        t.upTo stream (n + place) ∧
      (copyInput b.block pass.input place pass.output b.capacity).length ≤ place + grown := by
  have hroom := h.room
  have hpart : ((b.block.take place).drop pass.input).length = place - pass.input := by
    rw [List.length_drop, List.length_take, Nat.min_eq_left hplace]
  have hall : ((b.block.take place).drop pass.input).take (b.capacity - pass.output.length) =
      (b.block.take place).drop pass.input := List.take_of_length_le (by omega)
  rw [SampleSlipImpairment.copyInput, hall]
  constructor
  · rw [← List.append_assoc, h.output, drop_take_block hblock hplace]
    exact (Track.upTo_append htaken (by omega)).symm
  · rw [List.length_append]
    omega

/-- What a block gives its loop: the samples of the stream, room for the slack, and the last samples
that went out before. -/
structure Given (stream : List α) (n most slack : Nat) (before : List α) (b : SlipBlock α) :
    Prop where
  block : b.block = (stream.drop n).take b.block.length
  first : b.firstInputFrame = n
  inside : n + b.block.length ≤ stream.length
  capacity : b.block.length + slack ≤ b.capacity
  history : b.history = before.rtake most

/-- Where the pass has got, an event that it has not passed is not inside a removed run. -/
theorem Follows.taken_le (h : Follows stream n b.block.length before t grown pass)
    (hreached : event.frame < n + b.block.length) (hpassed : n + pass.input ≤ event.frame) :
    t.taken ≤ event.frame ∧ t.taken ≤ n + pass.input ∧ pass.input ≤ event.frame - n := by
  have hinput := h.input
  omega

theorem applied_succ {applied : UInt32} {worked : Nat} (h : applied = .ofNat worked) :
    applied + 1 = .ofNat (worked + 1) := by
  rw [h, UInt32.ofNat_add]
  rfl

theorem Follows.delete (h : Follows stream n b.block.length before t grown pass)
    {most : Nat} (hgiven : Given stream n most slack before b) (hgrown : grown ≤ slack)
    (hduplicate : event.duplicate = false) (hreached : event.frame < n + b.block.length)
    (hpassed : n + pass.input ≤ event.frame) :
    Follows stream n b.block.length before (t.splice stream event.splice) grown
      (b.take event pass) := by
  obtain ⟨houtside, htaken, hinput⟩ := h.taken_le hreached hpassed
  obtain ⟨hcopied, hroom⟩ := h.copyInput hgiven.block hgrown hgiven.capacity
    (show pass.input ≤ event.frame - n from hinput) (by omega) htaken
  have hplace : n + (event.frame - n) = event.frame := by omega
  have htrack : t.splice stream event.splice =
      ⟨event.frame + event.length, t.upTo stream event.frame, t.worked + 1⟩ := by
    rw [Track.splice, PlannedSlip.splice, if_neg (Nat.not_lt.mpr houtside), hduplicate]
    rfl
  rw [hplace] at hcopied
  rw [htrack, SlipBlock.take, hgiven.first, hduplicate, if_neg Bool.false_ne_true]
  dsimp only
  refine ⟨by dsimp only; omega, by dsimp only; omega, ?_, by dsimp only; omega,
    applied_succ h.applied⟩
  refine hcopied.trans (Eq.symm (Track.upTo_of_le ?_))
  dsimp only
  omega

/-- The samples of a duplicate, of the history and of the block. -/
theorem last_of_history (history output : List α) (length : Nat) :
    (history.drop (history.length - (length - min output.length length))).take
          (length - min output.length length) ++
        (output.drop (output.length - min output.length length)).take (min output.length length) =
      (history ++ output).rtake length := by
  have hback : (output.drop (output.length - min output.length length)).take
      (min output.length length) = output.rtake length := by
    rw [List.take_of_length_le (by rw [List.length_drop]; omega), List.rtake]
    congr 1
    omega
  have hfront : (history.drop (history.length - (length - min output.length length))).take
      (length - min output.length length) = history.rtake (length - output.length) := by
    have hfrom : length - min output.length length = length - output.length := by omega
    rw [List.take_of_length_le (by rw [List.length_drop]; omega), hfrom, ← List.rtake]
  rw [hfront, hback, rtake_append]

theorem rtake_of_kept {most length : Nat} {history : List α}
    (hhistory : history = before.rtake most) (hlength : length ≤ most) (output : List α) :
    (history ++ output).rtake length = (before ++ output).rtake length := by
  rw [rtake_append, rtake_append, hhistory, rtake_rtake _ (by omega)]

theorem Follows.duplicate (h : Follows stream n b.block.length before t grown pass)
    {most : Nat} (hgiven : Given stream n most slack before b)
    (hgrown : grown + event.length ≤ slack) (hlength : event.length ≤ most)
    (hduplicate : event.duplicate = true) (hreached : event.frame < n + b.block.length)
    (hpassed : n + pass.input ≤ event.frame)
    (henough : event.length ≤ t.out.length + (event.frame - t.taken)) :
    Follows stream n b.block.length before (t.splice stream event.splice) (grown + event.length)
      (b.take event pass) := by
  obtain ⟨houtside, htaken, hinput⟩ := h.taken_le hreached hpassed
  obtain ⟨hcopied, hroom⟩ := h.copyInput hgiven.block (by omega) hgiven.capacity
    (show pass.input ≤ event.frame - n from hinput) (by omega) htaken
  have hplace : n + (event.frame - n) = event.frame := by omega
  have htrack : t.splice stream event.splice = ⟨event.frame,
      t.upTo stream event.frame ++ (t.upTo stream event.frame).rtake event.length,
      t.worked + 1⟩ := by
    rw [Track.splice, PlannedSlip.splice, if_neg (Nat.not_lt.mpr houtside), hduplicate]
    rfl
  have hremaining := h.deleteRemaining
  have hcapacity := hgiven.capacity
  have hinside := hgiven.inside
  rw [hplace] at hcopied
  have hsent := congrArg List.length hcopied
  rw [List.length_append, Track.length_upTo (by omega)] at hsent
  rw [htrack, SlipBlock.take, hgiven.first, hduplicate, if_pos rfl]
  dsimp only
  generalize SampleSlipImpairment.copyInput b.block pass.input (event.frame - n) pass.output
    b.capacity = output at hcopied hroom hsent
  have hhistory : b.history.length = min most before.length := by
    rw [hgiven.history, length_rtake]
  rw [if_neg (by omega)]
  refine ⟨by dsimp only; omega, by dsimp only; omega, ?_, ?_, applied_succ h.applied⟩
  · dsimp only
    rw [List.append_assoc output, last_of_history, rtake_of_kept hgiven.history hlength,
      ← List.append_assoc, hcopied]
    refine Eq.symm (Track.upTo_of_le ?_)
    dsimp only
    omega
  · dsimp only
    rw [List.append_assoc, last_of_history, List.length_append, length_rtake, List.length_append]
    omega

/-- The track behind some more events. -/
def behind (stream : List α) (t : Track α) (done : List PlannedSlip) : Track α :=
  (done.map (·.splice)).foldl (Track.splice stream) t

theorem behind_cons (t : Track α) (event : PlannedSlip) (done : List PlannedSlip) :
    behind stream t (event :: done) = behind stream (t.splice stream event.splice) done := rfl

/-- What a loop leaves: the events that it passed are behind it, and each of the others is behind
the block or inside a removed run. -/
structure Passed (stream : List α) (n frames stop slack : Nat) (before : List α) (t : Track α)
    (events : List PlannedSlip) (flags : List Bool) (result : SlipPass α × Nat)
    (done later : List PlannedSlip) : Prop where
  events_eq : events = done ++ later
  moved : result.2 = done.length
  follows : ∃ grown ≤ slack,
    Follows stream n frames before (behind stream t done) grown result.1
  playable : Playable stop (behind stream t done).taken (behind stream t done).out.length later
    (flags.drop done.length)
  reached : ∀ event ∈ done, event.frame < n + frames
  clean : ∀ event ∈ later, n + frames ≤ event.frame ∨ event.frame < (behind stream t done).taken

theorem Passed.cons {frames stop : Nat} {event : PlannedSlip} {events done later : List PlannedSlip}
    {flag : Bool} {flags : List Bool} {result : SlipPass α × Nat}
    (h : Passed stream n frames stop slack before (t.splice stream event.splice) events flags result
      done later) (hreached : event.frame < n + frames) :
    Passed stream n frames stop slack before t (event :: events) (flag :: flags)
      (result.1, result.2 + 1) (event :: done) later where
  events_eq := congrArg (event :: ·) h.events_eq
  moved := congrArg (· + 1) h.moved
  follows := h.follows
  playable := h.playable
  reached := List.forall_mem_cons.mpr ⟨hreached, h.reached⟩
  clean := h.clean

/-- An event inside a removed run changes nothing. -/
theorem splice_inside (stream : List α) (hinside : event.frame < t.taken) :
    t.splice stream event.splice = t := if_pos hinside

theorem splice_duplicate (stream : List α) (hduplicate : event.duplicate = true)
    (houtside : t.taken ≤ event.frame) (hframe : event.frame ≤ stream.length)
    (henough : event.length ≤ t.out.length + (event.frame - t.taken)) :
    (t.splice stream event.splice).taken = event.frame ∧
      (t.splice stream event.splice).out.length =
        t.out.length + (event.frame - t.taken) + event.length := by
  rw [Track.splice, PlannedSlip.splice, if_neg (Nat.not_lt.mpr houtside), hduplicate, if_pos rfl]
  refine ⟨rfl, ?_⟩
  rw [List.length_append, length_rtake, Track.length_upTo hframe]
  dsimp only
  omega

theorem splice_delete (stream : List α) (hduplicate : event.duplicate = false)
    (houtside : t.taken ≤ event.frame) (hframe : event.frame ≤ stream.length) :
    (t.splice stream event.splice).taken = event.frame + event.length ∧
      (t.splice stream event.splice).out.length = t.out.length + (event.frame - t.taken) := by
  rw [Track.splice, PlannedSlip.splice, if_neg (Nat.not_lt.mpr houtside), hduplicate,
    if_neg Bool.false_ne_true]
  exact ⟨rfl, Track.length_upTo hframe⟩

/-- The events at the front that a block reaches leave the slack for what has grown already. -/
def Room (slack n frames grown : Nat) (events : List (PlannedSlip × Bool)) : Prop :=
  ∀ near later, events = near ++ later → (∀ event ∈ near, event.1.frame < n + frames) →
    (∀ event ∈ near, event.2 = true → n ≤ event.1.frame) → grown + added near ≤ slack

theorem Room.le {frames : Nat} {events : List (PlannedSlip × Bool)}
    (h : Room slack n frames grown events) : grown ≤ slack :=
  h [] events rfl (fun _ hmem => absurd hmem List.not_mem_nil)
    (fun _ hmem => absurd hmem List.not_mem_nil)

theorem Room.tail {frames : Nat} {applied : Bool} {events : List (PlannedSlip × Bool)}
    (h : Room slack n frames grown ((event, applied) :: events))
    (hreached : event.frame < n + frames) (hfrom : applied = true → n ≤ event.frame) :
    Room slack n frames (grown + if applied then event.length else 0) events := by
  intro near later hnear hbelow hnearFrom
  have hall := h ((event, applied) :: near) later (congrArg _ hnear)
    (List.forall_mem_cons.mpr ⟨hreached, hbelow⟩) (List.forall_mem_cons.mpr ⟨hfrom, hnearFrom⟩)
  rw [added_cons, ← Nat.add_assoc] at hall
  exact hall

theorem passed_events {most stop : Nat} (hgiven : Given stream n most slack before b)
    (hstop : n + b.block.length ≤ stop) (hbound : n + b.block.length < 2 ^ 64)
    {events : List PlannedSlip} {flags : List Bool}
    (hplayable : Playable stop t.taken t.out.length events flags) (horder : InOrder events)
    (hlengths : ∀ event ∈ events, event.length ≤ most)
    (hclean : ∀ event ∈ events, n ≤ event.frame ∨ event.frame < t.taken)
    (hroom : Room slack n b.block.length grown (events.zip flags))
    (h : Follows stream n b.block.length before t grown pass) :
    ∃ done later, Passed stream n b.block.length stop slack before t events flags
      (b.events events pass) done later := by
  induction events generalizing flags t grown pass with
  | nil =>
    exact ⟨[], [], rfl, rfl, ⟨grown, hroom.le, h⟩, hplayable,
      fun _ hmem => absurd hmem List.not_mem_nil, fun _ hmem => absurd hmem List.not_mem_nil⟩
  | cons event events ih =>
    obtain ⟨hfirst, horder⟩ := List.pairwise_cons.mp horder
    have hlength := List.forall_mem_cons.mp hlengths
    have hcleans := List.forall_mem_cons.mp hclean
    have hinput := h.input
    rw [SlipBlock.events, hgiven.first, Nat.mod_eq_of_lt hbound]
    rcases Nat.lt_or_ge event.frame (n + b.block.length) with hreached | hbehind
    · rw [if_pos hreached, Nat.mod_eq_of_lt (by omega)]
      rcases Nat.lt_or_ge event.frame (n + pass.input) with hinside | hpassed
      · rw [if_pos hinside]
        have htaken : event.frame < t.taken := by omega
        cases hplayable with
        | unreached hunreached =>
          have := hunreached event List.mem_cons_self
          omega
        | @inside _ _ _ _ flags _ hlater =>
          have hdropped : Follows stream n b.block.length before t grown
              { pass with dropped := pass.dropped + 1 } :=
            ⟨h.input, h.deleteRemaining, h.output, h.room, h.applied⟩
          obtain ⟨done, later, hpassed⟩ := ih hlater horder hlength.2 hcleans.2
            (hroom.tail hreached fun hfalse => by cases hfalse) hdropped
          rw [← splice_inside stream htaken] at hpassed
          exact ⟨event :: done, later, hpassed.cons hreached⟩
        | duplicate _ houtside => omega
        | delete _ houtside => omega
      · rw [if_neg (Nat.not_lt.mpr hpassed)]
        cases hplayable with
        | unreached hunreached =>
          have := hunreached event List.mem_cons_self
          omega
        | inside htaken =>
          have := h.taken_le hreached hpassed
          omega
        | @duplicate _ _ _ _ flags hduplicate houtside henough hlater =>
          have hmore : Room slack n b.block.length (grown + event.length) (events.zip flags) :=
            hroom.tail hreached fun _ => by omega
          have hinside := hgiven.inside
          obtain ⟨htaken, hsent⟩ := splice_duplicate stream hduplicate houtside (by omega)
            henough
          have hpass := h.duplicate hgiven hmore.le hlength.1 hduplicate hreached hpassed henough
          have hremaining := hpass.deleteRemaining
          obtain ⟨done, later, hpassed⟩ := ih (by rw [htaken, hsent]; exact hlater) horder hlength.2
            (fun other hother => .inl (by have := hfirst other hother; omega)) hmore hpass
          dsimp only
          rw [if_neg (not_not_intro (by omega))]
          exact ⟨event :: done, later, hpassed.cons hreached⟩
        | @delete _ _ _ _ flags hduplicate houtside hlater =>
          have hinside := hgiven.inside
          obtain ⟨htaken, hsent⟩ := splice_delete stream hduplicate houtside (by omega)
          have hpass := h.delete hgiven hroom.le hduplicate hreached hpassed
          have hremaining := hpass.deleteRemaining
          have hlater : Playable stop (t.splice stream event.splice).taken
              (t.splice stream event.splice).out.length events flags := by
            rw [htaken, hsent]
            exact hlater
          dsimp only
          split
          · rename_i hmore
            refine ⟨[event], events, rfl, rfl, ⟨grown, hroom.le, hpass⟩, hlater, ?_, ?_⟩
            · exact List.forall_mem_cons.mpr
                ⟨hreached, fun _ hmem => absurd hmem List.not_mem_nil⟩
            · intro other _
              rw [behind_cons]
              change _ ∨ _ < (t.splice stream event.splice).taken
              omega
          · obtain ⟨done, later, hpassed⟩ := ih hlater horder hlength.2
              (fun other hother => .inl (by have := hfirst other hother; omega))
              (hroom.tail hreached fun hfalse => by cases hfalse) hpass
            exact ⟨event :: done, later, hpassed.cons hreached⟩
    · rw [if_neg (Nat.not_lt.mpr hbehind)]
      refine ⟨[], event :: events, rfl, rfl, ⟨grown, hroom.le, h⟩, hplayable,
        fun _ hmem => absurd hmem List.not_mem_nil, fun other hother => .inl ?_⟩
      rcases List.mem_cons.mp hother with rfl | hother
      · exact hbehind
      · exact Nat.le_trans hbehind (hfirst other hother)

end WaveformGenerator.SignalLab.SampleSlipImpairment
