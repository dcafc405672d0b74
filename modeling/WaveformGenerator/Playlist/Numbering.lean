import WaveformGenerator.Playlist.Sequencer

/-!
# The numbers of runs and blocks

Between resets the run number counts the playlists started and the next block number the blocks
made, both modulo 2^32, and the state never goes back to idle.
-/

namespace WaveformGenerator.Playlist

open UsbAudio

/-- The playlists that notes start. -/
def startedIn (notes : List Note) : Nat := notes.countP fun
  | .accepted _ => true
  | _ => false

/-- The blocks that notes make. -/
def madeIn (notes : List Note) : Nat := notes.countP fun
  | .pushed _ => true
  | _ => false

/-- How the numbers stand after what notes report. -/
structure Counts (s s' : Sequencer) (notes : List Note) : Prop where
  run : s'.progress.run = s.progress.run + .ofNat (startedIn notes)
  nextSeq : s'.results.nextSeq = s.results.nextSeq + .ofNat (madeIn notes)
  idle : s'.progress.state = .idle → s.progress.state = .idle

/-- Notes that neither start a playlist nor make a block. -/
def Quiet (notes : List Note) : Prop := startedIn notes = 0 ∧ madeIn notes = 0

variable {s s' s'' : Sequencer} {notes notes' : List Note}

theorem Counts.of_quiet (hnotes : Quiet notes) (hrun : s'.progress.run = s.progress.run)
    (hnext : s'.results.nextSeq = s.results.nextSeq)
    (hidle : s'.progress.state = .idle → s.progress.state = .idle) : Counts s s' notes where
  run := by
    rw [hrun, hnotes.1]
    exact (UInt32.add_zero _).symm
  nextSeq := by
    rw [hnext, hnotes.2]
    exact (UInt32.add_zero _).symm
  idle := hidle

theorem Counts.refl (hnotes : Quiet notes) : Counts s s notes := .of_quiet hnotes rfl rfl id

theorem Counts.trans (h : Counts s s' notes) (h' : Counts s' s'' notes') :
    Counts s s'' (notes ++ notes') where
  run := by
    unfold startedIn
    rw [h'.run, h.run, List.countP_append, UInt32.ofNat_add, ← UInt32.add_assoc]
    rfl
  nextSeq := by
    unfold madeIn
    rw [h'.nextSeq, h.nextSeq, List.countP_append, UInt32.ofNat_add, ← UInt32.add_assoc]
    rfl
  idle := h.idle ∘ h'.idle

/-- What comes before a change of neither number. -/
theorem Counts.then (h : Counts s s' notes) (hnotes : Quiet notes')
    (hrun : s''.progress.run = s'.progress.run) (hnext : s''.results.nextSeq = s'.results.nextSeq)
    (hidle : s''.progress.state = .idle → s'.progress.state = .idle) :
    Counts s s'' (notes ++ notes') :=
  h.trans (.of_quiet hnotes hrun hnext hidle)

theorem Counts.keep (h : Counts s s' notes) (hrun : s''.progress.run = s'.progress.run)
    (hnext : s''.results.nextSeq = s'.results.nextSeq)
    (hidle : s''.progress.state = .idle → s'.progress.state = .idle) : Counts s s'' notes :=
  ⟨hrun.trans h.run, hnext.trans h.nextSeq, h.idle ∘ hidle⟩

theorem ResultRing.nextSeq_free (through : UInt32) (ring : ResultRing) (freed : UInt32) :
    (free through ring freed).2.nextSeq = ring.nextSeq := by
  fun_induction free through ring freed with
  | case1 ring freed hfree ih => exact ih
  | case2 ring freed hfree => rfl

theorem ResultRing.nextSeq_acknowledge (ring : ResultRing) (through : UInt32) :
    (ring.acknowledge through).2.nextSeq = ring.nextSeq := by
  unfold acknowledge
  split
  · rfl
  · exact nextSeq_free through ring 0

namespace Sequencer

theorem counts_serve (s : Sequencer) (served : Option Command) :
    Counts s (s.serve served).1 (s.serve served).2 := by
  unfold serve
  split
  case h_1 => exact .refl ⟨rfl, rfl⟩
  case h_2 => exact .refl ⟨rfl, rfl⟩
  case h_3 cleaned =>
    split
    · exact .of_quiet ⟨rfl, rfl⟩ rfl rfl id
    · split
      · exact .of_quiet ⟨rfl, rfl⟩ rfl rfl id
      · exact .refl ⟨rfl, rfl⟩
  case h_4 through =>
    split
    · exact .refl ⟨rfl, rfl⟩
    · exact .of_quiet ⟨rfl, rfl⟩ rfl (s.results.nextSeq_acknowledge through) id
  case h_5 name table policy =>
    split
    · exact .refl ⟨rfl, rfl⟩
    · exact ⟨rfl, (UInt32.add_zero _).symm, nofun⟩

/-- The end of a playlist in a state that is not idle. -/
theorem counts_ending (h : Counts s s' notes) {state : State} (hstate : state ≠ .idle) :
    Counts s (s'.ending notes state).1 (s'.ending notes state).2 :=
  h.then ⟨rfl, rfl⟩ rfl rfl fun hidle => absurd hidle hstate

theorem counts_recordResult (s : Sequencer) (block : ResultBlock) :
    (s.recordResult block).2.progress.run = s.progress.run ∧
      (s.recordResult block).2.progress.state = s.progress.state ∧
      (s.recordResult block).2.results.nextSeq =
        s.results.nextSeq + if (s.recordResult block).1.isOk then 1 else 0 := by
  unfold recordResult ResultRing.push
  cases s.results.full with
  | true => exact ⟨rfl, rfl, (UInt32.add_zero _).symm⟩
  | false => exact ⟨rfl, rfl, rfl⟩

theorem endAfter_ne_idle {outcome : Outcome} {policy : Policy} {stopRequested : Bool}
    {state : State} (h : endAfter outcome policy stopRequested = some state) : state ≠ .idle := by
  unfold endAfter at h
  split at h
  · cases h
    nofun
  · split at h
    · cases h
      nofun
    · cases h

theorem counts_afterItem (s : Sequencer) (index : Nat) (item : Item) (block : ResultBlock)
    (streamOpens : UInt32) (now : TickCount) :
    Counts s (s.afterItem index item block streamOpens now).1
      (s.afterItem index item block streamOpens now).2 := by
  obtain ⟨hrun, hstate, hnext⟩ := s.counts_recordResult block
  unfold afterItem
  generalize s.recordResult block = recorded at hrun hstate hnext
  obtain ⟨status, s'⟩ := recorded
  dsimp only at hrun hstate hnext ⊢
  cases hok : status.isOk with
  | false =>
    rw [hok] at hnext
    rw [if_pos Bool.not_false]
    have hsame : Counts s s' [.refused block] :=
      .of_quiet ⟨rfl, rfl⟩ hrun (hnext.trans (UInt32.add_zero _)) fun hidle => by
        rwa [hstate] at hidle
    exact counts_ending hsame nofun
  | true =>
    rw [hok, if_pos rfl] at hnext
    rw [if_neg (show ¬ (!true) = true from nofun)]
    have hmade : Counts s s' [.pushed { block with seq := s.results.nextSeq }] :=
      ⟨hrun.trans (UInt32.add_zero _).symm, hnext, fun hidle => by rwa [hstate] at hidle⟩
    split
    · exact counts_ending hmade nofun
    · split
      case h_1 state hend => exact counts_ending hmade (endAfter_ne_idle hend)
      case h_2 =>
        split
        · exact hmade.keep rfl rfl nofun
        · exact hmade.keep rfl rfl nofun

theorem counts_planStart (s : Sequencer) (index : Nat) (item : Item) (gap : Option GapWait)
    (reading : Reading) : Counts s (s.planStart index item gap reading) [] := by
  unfold planStart
  split
  · exact .of_quiet ⟨rfl, rfl⟩ rfl rfl id
  · split
    · exact .of_quiet ⟨rfl, rfl⟩ rfl rfl id
    · exact .of_quiet ⟨rfl, rfl⟩ rfl rfl nofun

theorem counts_step (s : Sequencer) (turn : Turn) :
    Counts s (s.step turn).1 (s.step turn).2 := by
  unfold step
  split
  case h_1 => exact s.counts_serve turn.served
  case h_2 index gap hphase =>
    split
    · exact counts_ending (.refl ⟨rfl, rfl⟩) nofun
    · split
      · have hserved := (s.setProgress .pausedRingFull index).counts_serve turn.served
        have hcounts : Counts s ((s.setProgress .pausedRingFull index).serve turn.served).1
            ((s.setProgress .pausedRingFull index).serve turn.served).2 :=
          ⟨hserved.run, hserved.nextSeq, fun hidle => State.noConfusion (hserved.idle hidle)⟩
        dsimp only
        split
        · exact counts_ending hcounts nofun
        · exact hcounts
      · exact .of_quiet ⟨rfl, rfl⟩ rfl rfl id
  case h_3 index gap hphase =>
    split
    · exact .refl ⟨rfl, rfl⟩
    · exact s.counts_planStart index _ gap turn.reading
  case h_4 index gap progress hphase =>
    have hserved := s.counts_serve turn.served
    dsimp only
    split
    · exact counts_ending hserved nofun
    · split
      · exact ⟨hserved.run, hserved.nextSeq, hserved.idle⟩
      · exact ⟨hserved.run, hserved.nextSeq, hserved.idle⟩
  case h_5 index plan hphase =>
    split
    · exact .refl ⟨rfl, rfl⟩
    · dsimp only
      split
      · exact .of_quiet ⟨rfl, rfl⟩ rfl rfl nofun
      · exact .of_quiet ⟨rfl, rfl⟩ rfl rfl nofun
  case h_6 index block streamOpens hphase =>
    dsimp only
    split
    · have hserved := ({ s with cleanupPending := turn.cleanupPending }).counts_serve turn.served
      exact ⟨hserved.run, hserved.nextSeq, hserved.idle⟩
    · exact .of_quiet ⟨rfl, rfl⟩ rfl rfl id
  case h_7 index block streamOpens hphase =>
    split
    · exact .refl ⟨rfl, rfl⟩
    · exact s.counts_afterItem index _ block streamOpens turn.reading.now
  case h_8 gap progress hphase =>
    have hserved := s.counts_serve turn.served
    dsimp only
    split
    · exact counts_ending hserved nofun
    · split
      · exact counts_ending hserved nofun
      · exact ⟨hserved.run, hserved.nextSeq, hserved.idle⟩

/-- The sequencer after turns, without a reset, and what it notes. -/
def turns (s : Sequencer) : List Turn → Sequencer × List Note
  | [] => (s, [])
  | turn :: later =>
    (((s.step turn).1.turns later).1, (s.step turn).2 ++ ((s.step turn).1.turns later).2)

theorem counts_turns (s : Sequencer) (later : List Turn) :
    Counts s (s.turns later).1 (s.turns later).2 := by
  induction later generalizing s with
  | nil => exact .refl ⟨rfl, rfl⟩
  | cons turn later ih => exact (s.counts_step turn).trans (ih _)

end Sequencer

end WaveformGenerator.Playlist
