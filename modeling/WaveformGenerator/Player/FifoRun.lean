import WaveformGenerator.Player.FifoOrder

/-!
# Runs of the output FIFO

One producer and one consumer, in any order of their steps, with faults, STOP and the player's own
state changes between them. The invariant puts the producer's call beside what the FIFO carries.
-/

namespace WaveformGenerator.Player

/-- A consume fills its whole block, file frames then silence, and returns the number of the file
frames. -/
def Consumed.Counted (call : Consumed) : Prop :=
  call.block.file.length = call.returned.toNat ∧ call.block.words.length = call.frames.toNat

namespace Output

variable {s : Output} {push : Push}

/-- The frames stored and not yet published. -/
def staged (s : Output) : List Pcm24Sample :=
  match s.producer with
  | .writing push write => push.block.range push.written write.stored.toNat
  | _ => []

/-- What holds of the producer's call while it runs, `pushed` and `played` frames on. -/
def CallInv (producer : Producer) (ringWriteTotal : UInt32) (pushed played : Nat) : Prop :=
  match producer with
  | .idle | .ended => True
  | .pushing push => push.written.toNat ≤ push.block.frames.toNat
  | .writing push write =>
    write.start = ringWriteTotal ∧ write.stored.toNat ≤ write.count.toNat ∧
      push.written.toNat + write.count.toNat ≤ push.block.frames.toNat ∧
      pushed + write.count.toNat ≤ played + 32768 ∧
      pushed % 32768 + write.count.toNat ≤ 32768

/-- The consumer only makes room. -/
theorem CallInv.mono {producer : Producer} {ringWriteTotal : UInt32} {pushed played played' : Nat}
    (h : CallInv producer ringWriteTotal pushed played) (le : played ≤ played') :
    CallInv producer ringWriteTotal pushed played' := by
  cases producer with
  | writing push write =>
    obtain ⟨hstart, hstored, hframes, hroom, hend⟩ := h
    exact ⟨hstart, hstored, hframes, by omega, hend⟩
  | _ => exact h

/-- `push_block` returns short of its block only after a fault or STOP. -/
def Whole (s : Output) (push : Push) : Prop :=
  push.whole = true → push.written = push.block.frames ∨
    s.fifo.faulted = true ∨ s.fifo.stopRequested = true

structure Inv (s : Output) : Prop where
  carries : Carries s.fifo s.pushed s.staged s.played
  call : CallInv s.producer s.fifo.ringWriteTotal s.pushed.length s.played.length
  ended : s.fifo.eofEnqueued = true → s.producer = .ended
  draining : s.fifo.playerState = .draining → s.fifo.eofEnqueued = true ∧ s.played = s.pushed
  whole : ∀ push ∈ s.finished, s.Whole push
  counted : ∀ call ∈ s.consumed, call.Counted

theorem Inv.begin (old : OutputFifo) : (Output.begin old).Inv where
  carries := ⟨rfl, rfl, List.prefix_rfl, Nat.zero_le _, rfl, rfl, rfl⟩
  call := trivial
  ended := nofun
  draining := nofun
  whole := nofun
  counted := nofun

theorem pushed_eq (s : Output) :
    s.pushed = s.finished.flatMap Push.published ++ s.current.flatMap Push.published := by
  rw [pushed, List.flatMap_append]

/-! ## The producer's steps -/

/-- Before the stream's end: what the producer's steps keep. -/
structure Open (s : Output) : Prop where
  carries : Carries s.fifo s.pushed s.staged s.played
  call : CallInv s.producer s.fifo.ringWriteTotal s.pushed.length s.played.length
  more : s.fifo.eofEnqueued = false
  live : s.fifo.playerState ≠ .draining
  whole : ∀ push ∈ s.finished, s.Whole push
  counted : ∀ call ∈ s.consumed, call.Counted

theorem Open.inv (h : s.Open) : s.Inv where
  carries := h.carries
  call := h.call
  ended := fun he => absurd (h.more.symm.trans he) Bool.false_ne_true
  draining := fun hd => absurd hd h.live
  whole := h.whole
  counted := h.counted

theorem Inv.open (h : s.Inv) (hp : s.producer ≠ .ended) : s.Open where
  carries := h.carries
  call := h.call
  more := by
    by_contra he
    exact hp (h.ended (by simpa using he))
  live := fun hd => hp (h.ended (h.draining hd).1)
  whole := h.whole
  counted := h.counted

/-- The call returns with what it has published. -/
theorem Open.finish (h : s.Open) (calls : (s.finished ++ [push]).flatMap Push.published = s.pushed)
    (staged : s.staged = []) (whole : s.Whole push) : (s.finish push).Open := by
  have hpushed : (s.finish push).pushed = s.pushed := by
    rw [← calls, pushed_eq]
    simp [Output.finish, current]
  have hcarries := h.carries
  rw [staged] at hcarries
  refine ⟨?_, trivial, h.more, h.live, fun p hp => ?_, h.counted⟩
  · rw [hpushed]
    exact hcarries
  · rcases List.mem_append.mp hp with hp | hp
    · exact h.whole p hp
    · obtain rfl := List.mem_singleton.mp hp
      exact whole

/-- The call stands at the head of `push_block`'s loop. -/
theorem Open.pushing (h : s.Open) (calls : (s.finished ++ [push]).flatMap Push.published = s.pushed)
    (staged : s.staged = []) (le : push.written.toNat ≤ push.block.frames.toNat) :
    Open { s with producer := .pushing push } := by
  have hpushed : pushed { s with producer := .pushing push } = s.pushed := calls
  have hcarries := h.carries
  rw [staged] at hcarries
  refine ⟨?_, le, h.more, h.live, h.whole, h.counted⟩
  rw [hpushed]
  exact hcarries

theorem Open.loadIndexes (h : s.Open)
    (calls : (s.finished ++ [push]).flatMap Push.published = s.pushed) (staged : s.staged = [])
    (le : push.written.toNat ≤ push.block.frames.toNat) : (s.loadIndexes push).Open := by
  have hcarries := h.carries
  rw [staged] at hcarries
  obtain ⟨hframes, hroom, hend⟩ := hcarries.writeCount_le (push.block.frames - push.written)
  rw [UInt32.toNat_sub_of_le _ _ (UInt32.le_iff_toNat_le.mpr le)] at hframes
  unfold Output.loadIndexes
  dsimp only
  split
  · split <;> rename_i hwhole
    · exact h.pushing calls staged le
    · exact h.finish calls staged fun hw => absurd hw hwhole
  · have hpushed : pushed { s with
        producer := .writing push
          ⟨s.fifo.ringWriteTotal, s.fifo.writeCount (push.block.frames - push.written), 0⟩ } =
        s.pushed := calls
    refine ⟨?_, ⟨rfl, Nat.zero_le _, ?_, ?_, ?_⟩, h.more, h.live, h.whole, h.counted⟩
    · rw [hpushed]
      exact hcarries
    · dsimp only
      omega
    · rw [hpushed]
      exact hroom
    · rw [hpushed]
      exact hend

/-- A frame of the call is stored. -/
theorem Open.store {write : RingWrite} (h : s.Open) (hp : s.producer = .writing push write)
    (more : write.stored < write.count) :
    Open { s with
      fifo := s.fifo.storeFrame write.start write.stored
        (push.block.sampleAt (push.written + write.stored))
      producer := .writing push { write with stored := write.stored + 1 } } := by
  have hcall := h.call
  rw [hp] at hcall
  obtain ⟨hstart, hstored, hframes, hroom, hend⟩ := hcall
  have hstaged : s.staged = push.block.range push.written write.stored.toNat := by
    rw [staged, hp]
  have hlength : s.staged.length = write.stored.toNat := by rw [hstaged, length_range]
  have hmore := UInt32.lt_iff_toNat_lt.mp more
  have hnext : (write.stored + 1).toNat = write.stored.toNat + 1 := by
    have := write.count.toNat_lt
    rw [UInt32.toNat_add, UInt32.toNat_one]
    omega
  have hpushed : s.pushed = (s.finished ++ [push]).flatMap Push.published := by
    rw [pushed, current, hp]
  have hkept := h.carries.store (by rw [hlength]; omega) (by rw [hlength]; omega)
    (push.block.sampleAt (push.written + write.stored))
  rw [hlength, UInt32.ofNat_toNat, hstaged, ← hstart, hpushed] at hkept
  rw [hpushed] at hroom hend
  refine ⟨?_, ⟨hstart, ?_, hframes, hroom, hend⟩, h.more, h.live, h.whole, h.counted⟩
  · rw [staged]
    dsimp only
    rw [hnext, range_succ, UInt32.ofNat_toNat]
    exact hkept
  · dsimp only
    omega

/-- The index is published: the call has that many more frames out. -/
theorem Open.publish {write : RingWrite} (h : s.Open) (hp : s.producer = .writing push write)
    (all : ¬ write.stored < write.count) :
    Open { s with
      fifo := s.fifo.publishWritten write.start write.count
      producer := .pushing { push with written := push.written + write.count } } := by
  have hcall := h.call
  rw [hp] at hcall
  obtain ⟨hstart, hstored, hframes, hroom, hend⟩ := hcall
  have hcount : write.stored = write.count := by
    rw [UInt32.lt_iff_toNat_lt] at all
    exact UInt32.toNat_inj.mp (by omega)
  have hstaged : s.staged = push.block.range push.written write.count.toNat := by
    rw [staged, hp, ← hcount]
  have hlength : s.staged.length = write.count.toNat := by rw [hstaged, length_range]
  have hwritten : (push.written + write.count).toNat =
      push.written.toNat + write.count.toNat := by
    have := push.block.frames.toNat_lt
    rw [UInt32.toNat_add]
    omega
  have hpublished : Push.published { push with written := push.written + write.count } =
      push.published ++ s.staged := by
    rw [hstaged, Push.published, Push.published, hwritten, range_add, UInt32.ofNat_toNat,
      UInt32.zero_add]
  have hpushed : (s.finished ++ [{ push with written := push.written + write.count }]).flatMap
      Push.published = s.pushed ++ s.staged := by
    have hbefore : s.pushed = (s.finished ++ [push]).flatMap Push.published := by
      rw [pushed, current, hp]
    rw [hbefore]
    simp [hpublished]
  have hkept := h.carries.publish
  rw [hlength, UInt32.ofNat_toNat, ← hstart, ← hpushed] at hkept
  refine ⟨hkept, ?_, h.more, h.live, h.whole, h.counted⟩
  show (push.written + write.count).toNat ≤ push.block.frames.toNat
  omega

theorem Open.produce (h : s.Open) : s.produce.Open := by
  unfold Output.produce
  split
  · exact h
  · exact h
  · rename_i push hp
    have hcalls : (s.finished ++ [push]).flatMap Push.published = s.pushed := by
      rw [pushed, current, hp]
    have hstaged : s.staged = [] := by rw [staged, hp]
    have hle : push.written.toNat ≤ push.block.frames.toNat := by
      have hcall := h.call
      rwa [hp] at hcall
    split <;> rename_i hgo
    · exact h.loadIndexes hcalls hstaged hle
    · refine h.finish hcalls hstaged fun _ => ?_
      by_cases hlt : push.written < push.block.frames
      · right
        by_contra hflags
        simp_all
      · rw [UInt32.lt_iff_toNat_lt] at hlt
        exact .inl (UInt32.toNat_inj.mp (by omega))
  · rename_i push write hp
    split <;> rename_i hmore
    · exact h.store hp hmore
    · have hpublish := h.publish hp hmore
      dsimp only
      split <;> rename_i hwhole
      · exact hpublish
      · exact hpublish.finish rfl rfl fun hw => absurd hw hwhole

/-! ## Steps that move no frame -/

/-- The FIFO after a step that moves no frame: its flags only rise, and only the consumer reports
draining. -/
structure Inert (fifo fifo' : OutputFifo) : Prop where
  ring : fifo'.sampleRing = fifo.sampleRing
  wrote : fifo'.ringWriteTotal = fifo.ringWriteTotal
  read : fifo'.ringReadTotal = fifo.ringReadTotal
  enqueued : fifo'.counters.fileFramesEnqueued = fifo.counters.fileFramesEnqueued
  submitted : fifo'.counters.fileFramesSubmitted = fifo.counters.fileFramesSubmitted
  eof : fifo'.eofEnqueued = fifo.eofEnqueued
  draining : fifo'.playerState = .draining → fifo.playerState = .draining
  faulted : fifo.faulted = true → fifo'.faulted = true
  stopped : fifo.stopRequested = true → fifo'.stopRequested = true

theorem Inert.trans {a b c : OutputFifo} (h : Inert a b) (h' : Inert b c) : Inert a c where
  ring := h'.ring.trans h.ring
  wrote := h'.wrote.trans h.wrote
  read := h'.read.trans h.read
  enqueued := h'.enqueued.trans h.enqueued
  submitted := h'.submitted.trans h.submitted
  eof := h'.eof.trans h.eof
  draining := h.draining ∘ h'.draining
  faulted := h'.faulted ∘ h.faulted
  stopped := h'.stopped ∘ h.stopped

theorem latchFault_inert (fifo : OutputFifo) (error : PlayerError) :
    Inert fifo (fifo.latchFault error) := by
  unfold OutputFifo.latchFault
  split
  · exact ⟨rfl, rfl, rfl, rfl, rfl, rfl, id, id, id⟩
  · exact ⟨rfl, rfl, rfl, rfl, rfl, rfl, nofun, fun _ => rfl, id⟩

theorem countSilentBlock_inert (fifo : OutputFifo) (frames : UInt32)
    (silence : OutputFifo.BlockSilence) : Inert fifo (fifo.countSilentBlock frames silence) := by
  cases silence <;> exact ⟨rfl, rfl, rfl, rfl, rfl, rfl, id, id, id⟩

theorem countUnderrun_inert (fifo : OutputFifo) (frames : UInt32) :
    Inert fifo (fifo.countUnderrun frames) := by
  have hcounts : (fifo.countUnderrun frames).counters.fileFramesEnqueued =
        fifo.counters.fileFramesEnqueued ∧
      (fifo.countUnderrun frames).counters.fileFramesSubmitted =
        fifo.counters.fileFramesSubmitted := by
    unfold OutputFifo.countUnderrun
    dsimp only
    constructor <;> split <;> rfl
  exact ⟨rfl, rfl, rfl, hcounts.1, hcounts.2, rfl, id, id, id⟩

theorem Inv.inert (h : s.Inv) {fifo' : OutputFifo} (hi : Inert s.fifo fifo')
    {consumed : List Consumed}
    (silent : (consumed.flatMap fun call => call.block.file) = s.played)
    (counted : ∀ call ∈ consumed, call.Counted) : Inv { s with fifo := fifo', consumed } where
  carries := by
    have hkept := h.carries.congr hi.ring hi.wrote hi.read hi.enqueued hi.submitted
    rw [← silent] at hkept
    exact hkept
  call := by
    have hcall := h.call
    rw [← hi.wrote, ← silent] at hcall
    exact hcall
  ended := fun he => h.ended (hi.eof.symm.trans he)
  draining := fun hd => by
    obtain ⟨heof, hplayed⟩ := h.draining (hi.draining hd)
    exact ⟨hi.eof.trans heof, silent.trans hplayed⟩
  whole := fun push hp hw => (h.whole push hp hw).imp_right (.imp hi.faulted hi.stopped)
  counted := counted

/-! ## The consumer's step -/

theorem length_words (block : OutputBlock) :
    block.words.length = block.file.length + block.silence.toNat := by
  rw [OutputBlock.words, List.length_append, List.length_map, List.length_replicate]

/-- A block is filled whole, file frames then silence, and only the file frames are counted. -/
theorem consumeOutput_counted (fifo : OutputFifo) (frames : UInt32) :
    Consumed.Counted ⟨frames, (fifo.consumeOutput frames).1, (fifo.consumeOutput frames).2.1⟩ := by
  have hsilent : Consumed.Counted ⟨frames, ⟨[], frames⟩, 0⟩ :=
    ⟨rfl, by rw [length_words]; exact Nat.zero_add _⟩
  unfold OutputFifo.consumeOutput
  split
  · exact hsilent
  split
  · exact hsilent
  dsimp only
  split
  · exact hsilent
  have hle : (min (fifo.ringWriteTotal - fifo.ringReadTotal) frames).toNat ≤ frames.toNat := by
    rw [toNat_min32]
    exact Nat.min_le_right ..
  have hlength : (fifo.copyFromRing fifo.ringReadTotal
      (min (fifo.ringWriteTotal - fifo.ringReadTotal) frames)).length =
        (min (fifo.ringWriteTotal - fifo.ringReadTotal) frames).toNat := by
    simp [OutputFifo.copyFromRing]
  refine ⟨hlength, ?_⟩
  rw [length_words]
  dsimp only
  rw [hlength, UInt32.toNat_sub_of_le _ _ (UInt32.le_iff_toNat_le.mpr hle)]
  omega

/-- A block of silence plays nothing. -/
theorem played_silent (consumed : List Consumed) (frames : UInt32) :
    (consumed ++ [(⟨frames, ⟨[], frames⟩, 0⟩ : Consumed)]).flatMap (fun call => call.block.file) =
      consumed.flatMap fun call => call.block.file := by
  simp

/-- The next frames of the ring lead the block; the last of the stream report draining. -/
theorem Inv.copy (h : s.Inv) {copied frames silence : UInt32}
    (count : copied = min (s.fifo.ringWriteTotal - s.fifo.ringReadTotal) frames)
    (enough : ¬ (copied < frames ∧ s.fifo.eofEnqueued = false))
    (undrained : s.fifo.playerState ≠ .draining)
    (counted : ∀ call ∈ s.consumed ++
      [⟨frames, ⟨s.fifo.copyFromRing s.fifo.ringReadTotal copied, silence⟩, copied⟩],
        Consumed.Counted call) :
    Inv { s with
      fifo := s.fifo.publishConsumed s.fifo.ringReadTotal copied frames
      consumed := s.consumed ++
        [⟨frames, ⟨s.fifo.copyFromRing s.fifo.ringReadTotal copied, silence⟩, copied⟩] } := by
  have hfill := h.carries.fill_toNat
  have hcopied : copied.toNat = min (s.pushed.length - s.played.length) frames.toNat := by
    rw [count, toNat_min32, hfill]
  have hle : copied.toNat ≤ s.pushed.length - s.played.length := by omega
  have hkept := h.carries.consume hle frames
  have hplayed : (s.consumed ++ [(⟨frames,
      ⟨s.fifo.copyFromRing s.fifo.ringReadTotal copied, silence⟩, copied⟩ : Consumed)]).flatMap
        (fun call => call.block.file) =
      s.played ++ s.fifo.copyFromRing s.fifo.ringReadTotal copied := by
    simp [played]
  have hwrote : (s.fifo.publishConsumed s.fifo.ringReadTotal copied frames).ringWriteTotal =
      s.fifo.ringWriteTotal := by
    unfold OutputFifo.publishConsumed
    dsimp only
    split <;> rfl
  have heof : (s.fifo.publishConsumed s.fifo.ringReadTotal copied frames).eofEnqueued =
      s.fifo.eofEnqueued := by
    unfold OutputFifo.publishConsumed
    dsimp only
    split <;> rfl
  have hflags : (s.fifo.publishConsumed s.fifo.ringReadTotal copied frames).faulted =
        s.fifo.faulted ∧
      (s.fifo.publishConsumed s.fifo.ringReadTotal copied frames).stopRequested =
        s.fifo.stopRequested := by
    unfold OutputFifo.publishConsumed
    dsimp only
    constructor <;> split <;> rfl
  have hdraining : (s.fifo.publishConsumed s.fifo.ringReadTotal copied frames).playerState =
      .draining → copied < frames := by
    unfold OutputFifo.publishConsumed
    dsimp only
    split <;> rename_i hlt
    · exact fun _ => hlt
    · exact fun hd => absurd hd undrained
  rw [← hplayed] at hkept
  refine ⟨hkept, ?_, fun he => h.ended (heof.symm.trans he), fun hd => ?_,
    fun push hp hw => ?_, counted⟩
  · have hcall := h.call.mono
      (List.prefix_append s.played (s.fifo.copyFromRing s.fifo.ringReadTotal copied)).length_le
    rw [← hwrote, ← hplayed] at hcall
    exact hcall
  · have hlt := hdraining hd
    have hended : s.fifo.eofEnqueued = true := by
      by_contra he
      exact enough ⟨hlt, by simpa using he⟩
    refine ⟨heof.trans hended, hplayed.trans ?_⟩
    -- Short of the block, the consume took all the ring held.
    rw [UInt32.lt_iff_toNat_lt] at hlt
    obtain ⟨rest, hrest⟩ := h.carries.order
    have hlength := congrArg List.length hrest
    rw [List.length_append] at hlength
    have hall : s.fifo.copyFromRing s.fifo.ringReadTotal copied = rest := by
      rw [h.carries.copyFromRing_eq hle, ← hrest, List.drop_left]
      exact List.take_of_length_le (by omega)
    rw [hall, hrest]
    rfl
  · exact (h.whole push hp hw).imp_right (.imp hflags.1.trans hflags.2.trans)

theorem Inv.consume (h : s.Inv) (frames : UInt32) : (s.step (.consume frames)).Inv := by
  have hcounted : ∀ call ∈ s.consumed ++
      [⟨frames, (s.fifo.consumeOutput frames).1, (s.fifo.consumeOutput frames).2.1⟩],
        Consumed.Counted call := fun call hc => by
    rcases List.mem_append.mp hc with hc | hc
    · exact h.counted call hc
    · obtain rfl := List.mem_singleton.mp hc
      exact consumeOutput_counted ..
  revert hcounted
  simp only [step, OutputFifo.consumeOutput]
  split
  · exact h.inert (countSilentBlock_inert ..) (played_silent ..)
  split
  · exact h.inert (countSilentBlock_inert ..) (played_silent ..)
  rename_i hstate
  split
  · exact h.inert ((countUnderrun_inert ..).trans (latchFault_inert ..)) (played_silent ..)
  rename_i henough
  exact h.copy rfl (by simpa using henough) fun hd => hstate (.inl hd)

theorem Inv.step (h : s.Inv) (op : Op) : (s.step op).Inv := by
  cases op with
  | pushBlock block =>
    unfold Output.step
    cases hp : s.producer with
    | idle =>
      refine ((h.open (by rw [hp]; nofun)).pushing ?_ ?_ (Nat.zero_le _)).inv
      · rw [pushed, current, hp]
        simp [Push.published, SampleBlock.range]
      · rw [staged, hp]
    | _ => exact h
  | writeRing block =>
    unfold Output.step
    cases hp : s.producer with
    | idle =>
      refine ((h.open (by rw [hp]; nofun)).loadIndexes ?_ ?_ (Nat.zero_le _)).inv
      · rw [pushed, current, hp]
        simp [Push.published, SampleBlock.range]
      · rw [staged, hp]
    | _ => exact h
  | produce =>
    by_cases hp : s.producer = .ended
    · rw [Output.step, Output.produce, hp]
      exact h
    · exact (h.open hp).produce.inv
  | endStream =>
    unfold Output.step
    cases hp : s.producer with
    | idle =>
      have hopen := h.open (by rw [hp]; nofun)
      have hpushed : pushed { s with fifo := s.fifo.endStream, producer := .ended } = s.pushed := by
        rw [pushed_eq, pushed_eq, current, current, hp]
      have hstaged : s.staged = [] := by rw [staged, hp]
      have hcarries : Carries s.fifo.endStream s.pushed s.staged s.played :=
        h.carries.congr rfl rfl rfl rfl rfl
      rw [hstaged, ← hpushed] at hcarries
      exact ⟨hcarries, trivial, fun _ => rfl, fun hd => absurd hd hopen.live, h.whole,
        h.counted⟩
    | _ => exact h
  | consume frames => exact h.consume frames
  | latchFault error => exact h.inert (latchFault_inert ..) rfl h.counted
  | stop =>
    have hinert : Inert s.fifo { s.fifo with stopRequested := true } :=
      ⟨rfl, rfl, rfl, rfl, rfl, rfl, id, id, fun _ => rfl⟩
    exact h.inert hinert rfl h.counted
  | setState state reported =>
    have hinert : Inert s.fifo { s.fifo with playerState := state } :=
      ⟨rfl, rfl, rfl, rfl, rfl, rfl, fun hd => absurd hd reported, id, id⟩
    exact h.inert hinert rfl h.counted

theorem Inv.run (h : s.Inv) (ops : List Op) : (s.run ops).Inv := by
  induction ops generalizing s with
  | nil => exact h
  | cons op ops ih => exact ih (h.step op)

/-- What the consumer was told it played is what it played. -/
theorem Inv.credited_eq (h : s.Inv) : s.credited = s.played.length := by
  rw [credited, played, List.length_flatMap]
  exact congrArg List.sum (List.map_congr_left fun call hc => (h.counted call hc).1.symm)

/-- **The output FIFO.** At every point of a run, in any order of the two ends' steps: the frames
played are a prefix of the frames pushed, and their number is what the counters say; each consume
fills its block, file frames then silence, and the count it returns is of its file frames, so the
frames credited are those played and no silence is among them; every frame pushed and not yet
played is in its slot; and draining is reported only when all of them are played and the stream has
ended. A `push_block` that neither a fault nor STOP ended has pushed its whole block. -/
theorem run_ordered (old : OutputFifo) (ops : List Op) :
    let s := (Output.begin old).run ops
    s.played <+: s.pushed ∧
    ((∀ call ∈ s.consumed, call.block.file.length = call.returned.toNat ∧
        call.block.words.length = call.frames.toNat) ∧
      s.credited = s.played.length) ∧
    (s.fifo.counters.fileFramesSubmitted = .ofNat s.played.length ∧
      s.fifo.counters.fileFramesEnqueued = .ofNat s.pushed.length) ∧
    (s.pushed.length ≤ s.played.length + ringCapacityFrames.toNat ∧
      ∀ i (h : i < s.pushed.length), s.played.length ≤ i →
        s.fifo.sampleRing[ringSlot (.ofNat i)] = s.pushed[i]) ∧
    (s.fifo.playerState = .draining → s.fifo.eofEnqueued = true ∧ s.played = s.pushed) ∧
    (s.fifo.faulted = false → s.fifo.stopRequested = false →
      ∀ push ∈ s.finished, push.whole = true → push.written = push.block.frames) := by
  intro s
  have h : s.Inv := (Inv.begin old).run ops
  refine ⟨h.carries.order, ⟨h.counted, h.credited_eq⟩,
    ⟨h.carries.submitted, h.carries.enqueued⟩, ⟨?_, fun i hi hge => ?_⟩, h.draining,
    fun hf hs push hp hw => ?_⟩
  · have hroom := h.carries.room
    have hcapacity : ringCapacityFrames.toNat = 32768 := rfl
    omega
  · have hslot : s.fifo.sampleRing[ringSlot (.ofNat i)] = Ring.item s.fifo.sampleRing i :=
      congrArg (fun slot : Fin 32768 => s.fifo.sampleRing[slot])
        ((ringSlot_eq _).trans (Fin.ext (ofNat_mod_ring i)))
    have hheld := congrArg (·[i - s.played.length]?) h.carries.held
    simp only [Ring.getElem?_segment _ _ (show i - s.played.length <
      s.pushed.length - s.played.length + s.staged.length by omega),
      Nat.add_sub_cancel' hge] at hheld
    rw [List.getElem?_append_left (by rw [List.length_drop]; omega), List.getElem?_drop,
      Nat.add_sub_cancel' hge, List.getElem?_eq_getElem hi] at hheld
    rw [hslot]
    exact Option.some.inj hheld
  · rcases h.whole push hp hw with hall | hall | hall
    · exact hall
    · exact absurd (hf.symm.trans hall) Bool.false_ne_true
    · exact absurd (hs.symm.trans hall) Bool.false_ne_true

end Output

end WaveformGenerator.Player
