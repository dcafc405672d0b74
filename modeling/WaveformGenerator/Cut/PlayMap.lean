import WaveformGenerator.Cut.Play
import WaveformGenerator.Cut.Reference

/-!
# Samples under the cuts

The cuts do not look at samples: what is done to each sample of the engine's output is done to what
a play sends of it, as long as it leaves the silence as it is.
-/

namespace WaveformGenerator.Cut

variable {α β : Type} (f : α → β)

/-! ## The reference -/

def Mark.map : Mark α → Mark β
  | frame sample => .frame (f sample)
  | zero entry => .zero entry
  | drop entry => .drop entry

theorem map_zerosBefore (entries : List CutEntry) (i : Nat) :
    (zerosBefore entries i).map (Mark.map f) = zerosBefore entries i := by
  unfold zerosBefore
  split
  · exact List.map_replicate
  · rfl

theorem map_frameMark (entries : List CutEntry) (i : Nat) (sample : α) :
    (frameMark entries i sample).map f = frameMark entries i (f sample) := by
  unfold frameMark
  split <;> rfl

theorem map_walk (entries : List CutEntry) (i : Nat) (output : List α) :
    (walk entries i output).map (Mark.map f) = walk entries i (output.map f) := by
  induction output generalizing i with
  | nil => rfl
  | cons sample output ih =>
    rw [walk, List.map_append, map_zerosBefore, List.map_cons, map_frameMark, ih]
    rfl

theorem map_emit (silence : α) (mark : Mark α) :
    (mark.emit silence).map f = (mark.map f).emit (f silence) := by
  cases mark <;> rfl

theorem map_cutStream (silence : α) (entries : List CutEntry) (output : List α) :
    (cutStream silence entries output).map f =
      cutStream (f silence) entries (output.map f) := by
  rw [cutStream, cutStream, streamFrom, streamFrom, List.map_filterMap, ← map_walk,
    List.filterMap_map]
  congr 1
  funext mark
  exact map_emit f silence mark

/-! ## The play -/

namespace Play

/-- The play over samples that something was done to. -/
def map (play : Play α) : Play β :=
  { stage := play.stage
    log := play.log
    input := play.input.map (List.map f)
    block := play.block.map f
    sent := play.sent.map f
    ended := play.ended }

theorem map_start (schedule : ValidSchedule) (blocks : List (List α)) :
    (start schedule blocks).map f = start schedule (blocks.map (List.map f)) := rfl

variable (play : Play α)

theorem streamPosition_map : (play.map f).streamPosition = play.streamPosition := by
  rw [streamPosition, map, List.length_map]
  rfl

theorem logCut_map (cut : Option AppliedCut) :
    (play.map f).logCut cut = (play.logCut cut).map (map f) := by
  cases cut with
  | none => rfl
  | some cut =>
    show (play.log.record cut >>= _) = Except.map _ (play.log.record cut >>= _)
    cases play.log.record cut <;> rfl

theorem finishOutput_map : (play.map f).finishOutput = play.finishOutput.map (map f) := by
  have hlog := logCut_map f { play with stage := (play.stage.finish play.streamPosition).2 }
    (play.stage.finish play.streamPosition).1.clipped
  unfold finishOutput
  rw [streamPosition_map]
  show (logCut (map f { play with stage := (play.stage.finish play.streamPosition).2 })
    (play.stage.finish play.streamPosition).1.clipped >>= _) = _
  rw [hlog]
  show _ = Except.map (map f) (logCut { play with
    stage := (play.stage.finish play.streamPosition).2 }
      (play.stage.finish play.streamPosition).1.clipped >>= _)
  cases logCut { play with stage := (play.stage.finish play.streamPosition).2 }
    (play.stage.finish play.streamPosition).1.clipped <;> rfl

theorem pullBlock_map : (play.map f).pullBlock = play.pullBlock.map (map f) := by
  unfold pullBlock
  cases hinput : play.input with
  | nil =>
    rw [show (play.map f).input = [] by rw [map, hinput]; rfl]
    exact finishOutput_map f play
  | cons block input =>
    rw [show (play.map f).input = block.map f :: input.map (List.map f) by rw [map, hinput]; rfl]
    dsimp only
    rw [List.length_map, show (play.map f).stage = play.stage from rfl]
    cases play.stage.offer (.ofNat block.length) <;> rfl

theorem stepFrames_map (silence : α) (step : CutStep) (from_ : UInt32) :
    (play.map f).stepFrames (f silence) step from_ =
      (play.stepFrames silence step from_).map f := by
  unfold stepFrames
  split
  · rw [map, List.map_take, List.map_drop]
  · exact List.map_replicate.symm
  · rfl

theorem takeStep_map (step : CutStep) :
    (play.map f).takeStep step = (play.takeStep step).map (map f) := by
  unfold takeStep
  rw [streamPosition_map]
  exact logCut_map f { play with stage := (play.stage.take step play.streamPosition).2 }
    (play.stage.take step play.streamPosition).1

theorem runStep_map (silence : α) (step : CutStep) (from_ : UInt32) :
    (play.map f).runStep (f silence) step from_ =
      (play.runStep silence step from_).map (map f) := by
  unfold runStep
  split
  · exact pullBlock_map f play
  · rw [stepFrames_map]
    show Except.ok _ = Except.ok _
    rw [pushFrames, pushFrames, map, map, List.map_append]

theorem carryOut_map (silence : α) (step : CutStep) :
    (play.map f).carryOut (f silence) step = (play.carryOut silence step).map (map f) := by
  unfold carryOut
  rw [takeStep_map, show (play.map f).stage = play.stage from rfl]
  cases play.takeStep step with
  | error status => rfl
  | ok taken => exact runStep_map f taken silence step play.stage.blockPosition

/-- One round, with something done to the samples before it or behind it. -/
theorem round_map (silence : α) (limit : StepLimit) :
    (play.map f).round (f silence) limit = (play.round silence limit).map (map f) := by
  unfold round
  rw [show (play.map f).ended = play.ended from rfl, show (play.map f).stage = play.stage from rfl]
  split
  · rfl
  · dsimp only
    split
    · rw [endStream, streamPosition_map]
      rfl
    · exact carryOut_map f play silence (play.stage.next limit)

theorem run_map (silence : α) (limits : List StepLimit) :
    (play.map f).run (f silence) limits = (play.run silence limits).map (map f) := by
  induction limits generalizing play with
  | nil => rfl
  | cons limit limits ih =>
    rw [run, List.foldlM_cons, round_map, run, List.foldlM_cons]
    cases play.round silence limit with
    | error status => rfl
    | ok next => exact ih next

end Play

end WaveformGenerator.Cut
