import WaveformGenerator.Source.Generated

/-!
# What a job writes

The frames of a run are those the encoder's calls returned, in order; the bytes of a run are those
its reads were handed. `Tracks` is what holds of a job that has not failed: behind the header, its
frames up to the declared count and silence from there.
-/

namespace WaveformGenerator.Source

namespace Job

section
variable {ε ρ σ α : Type} (a : Adapters ε ρ σ)

/-- The bytes the reads of a call are handed. -/
def handed (job : Job ε ρ σ) : Reads α → List UInt8
  | .ret _ => []
  | .read capacity next =>
    (job.read a capacity).1 ++
      (job.read a capacity).2.handed (next (job.read a capacity).1)

/-- The most frames a step writes. -/
def limit (job : Job ε ρ σ) (maxFrames : Nat) : Nat :=
  min (min maxFrames maximumStepFrames) (job.generator.totalFrames - job.generator.framesWritten)

/-- The frames a step asks of the encoder. -/
def request (job : Job ε ρ σ) (maxFrames : Nat) : Nat :=
  min (job.limit maxFrames) (job.generator.waveformFrames - job.generator.framesWritten)

/-- A step that calls the encoder. -/
def asks (job : Job ε ρ σ) (maxFrames : Nat) : Bool :=
  job.generator.state = .running && 0 < maxFrames &&
    job.generator.framesWritten < job.generator.waveformFrames

/-- The frames the encoder returns in a step, and the job after its call. -/
def rendered (job : Job ε ρ σ) (maxFrames : Nat) : List Binary32 × Job ε ρ σ :=
  if job.asks maxFrames then
    job.call a (a.source.readFloat job.source (job.request maxFrames))
  else
    ([], job)

/-- The payload bytes the encoder takes in a step. -/
def taken (job : Job ε ρ σ) (maxFrames : Nat) : List UInt8 :=
  if job.asks maxFrames then
    job.handed a (a.source.readFloat job.source (job.request maxFrames))
  else
    []

/-- The frames a step has to write. -/
def stepFrames (job : Job ε ρ σ) (maxFrames : Nat) : List Binary32 :=
  padFrames job.generator (job.limit maxFrames) (job.rendered a maxFrames).1

/-- The frames the encoder returned over a run of steps, and the payload bytes it took. -/
def renderedBy (job : Job ε ρ σ) : List Nat → List Binary32
  | [] => []
  | size :: sizes => (job.rendered a size).1 ++ (job.step a size).renderedBy sizes

def takenBy (job : Job ε ρ σ) : List Nat → List UInt8
  | [] => []
  | size :: sizes => job.taken a size ++ (job.step a size).takenBy sizes

/-- The job `begin` configures the encoder with. -/
def ready (job : Job ε ρ σ) (payloadBytes : Nat) (encoding : WavEncoding) : Job ε ρ σ :=
  ((job.stop a).reset payloadBytes).useEncoding encoding

/-- The payload bytes taken when the encoder is configured. -/
def takenAtBegin (job : Job ε ρ σ) (profile : String) (payloadBytes : Nat)
    (encoding : WavEncoding) : List UInt8 :=
  (job.ready a payloadBytes encoding).handed a
    (a.source.configure (job.ready a payloadBytes encoding).source profile payloadBytes)

/-- Why a step of a running job fails. -/
inductive Fails (job : Job ε ρ σ) (maxFrames : Nat) : Prop
  | status (hasks : job.asks maxFrames = true)
    (hstatus : (a.source.status (job.rendered a maxFrames).2.source).isOk = false)
  | count (hasks : job.asks maxFrames = true)
    (hcount : (job.rendered a maxFrames).1.length = 0 ∨
      job.request maxFrames < (job.rendered a maxFrames).1.length)
  | nonfinite (frame : Binary32) (hframe : frame ∈ (job.rendered a maxFrames).1)
    (hfinite : frame.isFinite = false)
  | refused
    (hrefused : (a.sink.write job.sink ((job.stepFrames a maxFrames).flatMap
      (packSample job.generator.sampleBytes))).1.isOk = false)
  | unread
    (hlast : job.generator.framesWritten + (job.stepFrames a maxFrames).length =
      job.generator.totalFrames)
    (hunread : (job.rendered a maxFrames).2.generator.payloadRead ≠ job.generator.payloadBytes)

/-- The job with `frames` written. -/
def wrote (job : Job ε ρ σ) (frames : List Binary32) : Job ε ρ σ :=
  let bytes := frames.flatMap (packSample job.generator.sampleBytes)
  { job with
    generator :=
      { job.generator with
        wavDigest := job.generator.wavDigest ++ bytes
        pcmDigest := job.generator.pcmDigest ++ bytes
        framesWritten := job.generator.framesWritten + frames.length
        state :=
          if job.generator.framesWritten + frames.length = job.generator.totalFrames then .complete
          else job.generator.state }
    sink := (a.sink.write job.sink bytes).2 }

end

section
variable {ε ρ σ α : Type} {a : Adapters ε ρ σ} {holds : σ → List UInt8}

/-! ## Calls of the encoder -/

theorem read_payload (job : Job ε ρ σ) (capacity : Nat) :
    (job.read a capacity).2.generator.payloadDigest =
        job.generator.payloadDigest ++ (job.read a capacity).1 ∧
      (job.read a capacity).2.generator.payloadRead =
        job.generator.payloadRead + (job.read a capacity).1.length := by
  unfold read
  dsimp only
  split
  · exact ⟨(List.append_nil _).symm, rfl⟩
  · exact ⟨rfl, rfl⟩

theorem call_payload (job : Job ε ρ σ) (reads : Reads (α × ε)) :
    (job.call a reads).2.generator.payloadDigest =
        job.generator.payloadDigest ++ job.handed a reads ∧
      (job.call a reads).2.generator.payloadRead =
        job.generator.payloadRead + (job.handed a reads).length := by
  induction reads generalizing job with
  | ret result => exact ⟨(List.append_nil _).symm, rfl⟩
  | read capacity next ih =>
    obtain ⟨hdigest, hcount⟩ := ih (job.read a capacity).1 (job.read a capacity).2
    obtain ⟨hread, hlength⟩ := read_payload (a := a) job capacity
    rw [hread, List.append_assoc] at hdigest
    rw [hlength, Nat.add_assoc, ← List.length_append] at hcount
    exact ⟨hdigest, hcount⟩

/-- The call of a step leaves the sink alone, and of the generator all but the payload's count. -/
theorem rendered_keeps (job : Job ε ρ σ) (maxFrames : Nat) :
    (job.rendered a maxFrames).2.sink = job.sink ∧
      (job.rendered a maxFrames).2.generator =
        { job.generator with
          payloadRead := job.generator.payloadRead + (job.taken a maxFrames).length
          payloadDigest := job.generator.payloadDigest ++ job.taken a maxFrames } := by
  unfold rendered taken
  split
  · generalize a.source.readFloat job.source (job.request maxFrames) = reads
    obtain ⟨hsink, hgenerator⟩ := call_keeps (a := a) job reads
    obtain ⟨hdigest, hcount⟩ := call_payload (a := a) job reads
    refine ⟨hsink, ?_⟩
    rw [hgenerator, hdigest, hcount]
  · exact ⟨rfl, by rw [List.append_nil, List.length_nil, Nat.add_zero]⟩

/-! ## Silence -/

/-- Silence is added only from the waveform's end, and there up to the limit. -/
theorem padFrames_eq (generator : WavGenerator) (limit : Nat) (frames : List Binary32) :
    ∃ silence, padFrames generator limit frames = frames ++ List.replicate silence .zero ∧
      silence ≤ limit - frames.length ∧
      (generator.waveformFrames ≤ generator.framesWritten → silence = limit - frames.length) ∧
      (0 < silence → generator.waveformFrames ≤ generator.framesWritten + frames.length) := by
  unfold padFrames
  split
  case isTrue hend =>
    rw [Bool.or_eq_true, decide_eq_true_eq, decide_eq_true_eq] at hend
    exact ⟨limit - frames.length, rfl, Nat.le_refl _, fun _ => rfl, fun _ => by omega⟩
  case isFalse hbefore =>
    rw [Bool.or_eq_true, decide_eq_true_eq, decide_eq_true_eq] at hbefore
    exact ⟨0, (List.append_nil _).symm, Nat.zero_le _, fun _ => by omega,
      fun hpos => absurd hpos (Nat.lt_irrefl 0)⟩

/-! ## One step -/

theorem writeFrames_cases (job : Job ε ρ σ) (frames : List Binary32) :
    (∃ after status, job.writeFrames a frames = fail a after status ∧
        after.generator.totalFrames = job.generator.totalFrames ∧
        (after.generator.framesWritten = job.generator.framesWritten ∨
          after.generator.framesWritten = job.generator.framesWritten + frames.length) ∧
        (frames = [] ∨ (∃ frame ∈ frames, frame.isFinite = false) ∨
          (a.sink.write job.sink
            (frames.flatMap (packSample job.generator.sampleBytes))).1.isOk = false ∨
          job.generator.framesWritten + frames.length = job.generator.totalFrames ∧
            job.generator.payloadRead ≠ job.generator.payloadBytes)) ∨
      job.writeFrames a frames = job.wrote a frames ∧ frames ≠ [] ∧
        (∀ frame ∈ frames, frame.isFinite = true) ∧
        (a.sink.write job.sink
          (frames.flatMap (packSample job.generator.sampleBytes))).1.isOk = true ∧
        (job.generator.framesWritten + frames.length = job.generator.totalFrames →
          job.generator.payloadRead = job.generator.payloadBytes) := by
  unfold Job.writeFrames wrote
  dsimp only
  split
  case isTrue hempty =>
    exact .inl ⟨_, _, rfl, rfl, .inl rfl, .inl (List.isEmpty_iff.mp hempty)⟩
  case isFalse hempty =>
  split
  case isTrue hinfinite =>
    rw [Bool.not_eq_true', List.all_eq_false] at hinfinite
    obtain ⟨frame, hmem, hframe⟩ := hinfinite
    exact .inl ⟨_, _, rfl, rfl, .inl rfl, .inr (.inl ⟨frame, hmem, Bool.eq_false_iff.mpr hframe⟩)⟩
  case isFalse hfinite =>
  rw [Bool.not_eq_true', Bool.not_eq_false, List.all_eq_true] at hfinite
  split
  case isTrue hrefused =>
    rw [Bool.not_eq_true'] at hrefused
    exact .inl ⟨_, _, rfl, rfl, .inl rfl, .inr (.inr (.inl hrefused))⟩
  case isFalse hwritten =>
  rw [Bool.not_eq_true', Bool.not_eq_false] at hwritten
  rw [List.isEmpty_iff] at hempty
  split
  case isTrue hlast =>
    split
    case isTrue hunread =>
      exact .inl ⟨_, _, rfl, rfl, .inr rfl, .inr (.inr (.inr ⟨hlast, hunread⟩))⟩
    case isFalse hread =>
      exact .inr ⟨rfl, hempty, hfinite, hwritten, fun _ => Decidable.not_not.mp hread⟩
  case isFalse hmore =>
    exact .inr ⟨rfl, hempty, hfinite, hwritten, fun hlast => absurd hlast hmore⟩

/-- What a write refuses is a reason for the step to fail. -/
theorem fails_of_writeFrames {job : Job ε ρ σ} {maxFrames : Nat}
    (h : (∃ frame ∈ job.stepFrames a maxFrames, frame.isFinite = false) ∨
      (a.sink.write (job.rendered a maxFrames).2.sink ((job.stepFrames a maxFrames).flatMap
        (packSample (job.rendered a maxFrames).2.generator.sampleBytes))).1.isOk = false ∨
      (job.rendered a maxFrames).2.generator.framesWritten + (job.stepFrames a maxFrames).length =
          (job.rendered a maxFrames).2.generator.totalFrames ∧
        (job.rendered a maxFrames).2.generator.payloadRead ≠
          (job.rendered a maxFrames).2.generator.payloadBytes) : job.Fails a maxFrames := by
  obtain ⟨hsink, hgenerator⟩ := rendered_keeps (a := a) job maxFrames
  obtain ⟨frame, hmem, hframe⟩ | hrefused | ⟨hlast, hunread⟩ := h
  · obtain ⟨silence, hframes, -⟩ := padFrames_eq job.generator (job.limit maxFrames)
      (job.rendered a maxFrames).1
    unfold stepFrames at hmem
    rw [hframes, List.mem_append, List.mem_replicate] at hmem
    obtain hmem | ⟨-, rfl⟩ := hmem
    · exact .nonfinite frame hmem hframe
    · cases hframe
  · rw [hsink, hgenerator] at hrefused
    exact .refused hrefused
  · refine .unread ?_ ?_
    · rw [hgenerator] at hlast
      exact hlast
    · have hbytes : (job.rendered a maxFrames).2.generator.payloadBytes =
          job.generator.payloadBytes := by rw [hgenerator]
      rw [hbytes] at hunread
      exact hunread

theorem not_fails {job : Job ε ρ σ} {maxFrames : Nat}
    (hcall : job.asks maxFrames = true →
      (a.source.status (job.rendered a maxFrames).2.source).isOk = true ∧
        0 < (job.rendered a maxFrames).1.length ∧
        (job.rendered a maxFrames).1.length ≤ job.request maxFrames)
    (hfinite : ∀ frame ∈ job.stepFrames a maxFrames, frame.isFinite = true)
    (hwritten : (a.sink.write (job.rendered a maxFrames).2.sink
      ((job.stepFrames a maxFrames).flatMap
        (packSample (job.rendered a maxFrames).2.generator.sampleBytes))).1.isOk = true)
    (hread : (job.rendered a maxFrames).2.generator.framesWritten +
          (job.stepFrames a maxFrames).length =
        (job.rendered a maxFrames).2.generator.totalFrames →
      (job.rendered a maxFrames).2.generator.payloadRead =
        (job.rendered a maxFrames).2.generator.payloadBytes) : ¬ job.Fails a maxFrames := by
  obtain ⟨hsink, hgenerator⟩ := rendered_keeps (a := a) job maxFrames
  intro hfails
  cases hfails with
  | status hasks hstatus =>
    rw [(hcall hasks).1] at hstatus
    cases hstatus
  | count hasks hcount =>
    have hcall := hcall hasks
    omega
  | nonfinite frame hframe hinfinite =>
    obtain ⟨silence, hframes, -⟩ := padFrames_eq job.generator (job.limit maxFrames)
      (job.rendered a maxFrames).1
    have hmem : frame ∈ job.stepFrames a maxFrames := by
      unfold stepFrames
      rw [hframes]
      exact List.mem_append_left _ hframe
    rw [hfinite frame hmem] at hinfinite
    cases hinfinite
  | refused hrefused =>
    rw [hsink, hgenerator] at hwritten
    rw [hwritten] at hrefused
    cases hrefused
  | unread hlast hunread =>
    have hbytes : (job.rendered a maxFrames).2.generator.payloadBytes =
        job.generator.payloadBytes := by rw [hgenerator]
    have hframes : (job.rendered a maxFrames).2.generator.framesWritten =
        job.generator.framesWritten := by rw [hgenerator]
    have htotal : (job.rendered a maxFrames).2.generator.totalFrames =
        job.generator.totalFrames := by rw [hgenerator]
    rw [hframes, htotal, hbytes] at hread
    exact hunread (hread hlast)

theorem step_eq {job : Job ε ρ σ} (hstate : job.generator.state = .running) {maxFrames : Nat}
    (hsize : 0 < maxFrames) :
    job.step a maxFrames =
      if job.asks maxFrames && !(a.source.status (job.rendered a maxFrames).2.source).isOk then
        fail a (job.rendered a maxFrames).2 (a.source.status (job.rendered a maxFrames).2.source)
      else if job.asks maxFrames && ((job.rendered a maxFrames).1.length = 0 ||
          (job.rendered a maxFrames).1.length > job.request maxFrames) then
        fail a (job.rendered a maxFrames).2
          { code := .ioError, message := "encoder did not honor its declared frame count" }
      else
        writeFrames a (job.rendered a maxFrames).2 (job.stepFrames a maxFrames) := by
  have hpad : job.stepFrames a maxFrames =
      padFrames (job.rendered a maxFrames).2.generator (job.limit maxFrames)
        (job.rendered a maxFrames).1 := by
    rw [(rendered_keeps job maxFrames).2]
    rfl
  have hready : ¬ (decide (job.generator.state ≠ .running) || decide (maxFrames = 0)) = true := by
    rw [Bool.or_eq_true, decide_eq_true_eq, decide_eq_true_eq]
    rintro (hstop | hzero)
    · exact hstop hstate
    · omega
  have hasks : job.asks maxFrames =
      decide (job.generator.framesWritten < job.generator.waveformFrames) := by
    unfold asks
    rw [hstate, decide_eq_true hsize]
    rfl
  rw [hpad, hasks]
  unfold Job.step rendered
  rw [if_neg hready, hasks]
  dsimp only
  split
  case isTrue hwaveform =>
    rw [decide_eq_true hwaveform, Bool.true_and, Bool.true_and]
    rfl
  case isFalse hwaveform =>
    rw [decide_eq_false hwaveform]
    rfl

theorem stepFrames_ne_nil {job : Job ε ρ σ} {maxFrames : Nat}
    (h : 0 < (job.rendered a maxFrames).1.length) : job.stepFrames a maxFrames ≠ [] := by
  obtain ⟨silence, hframes, -⟩ := padFrames_eq job.generator (job.limit maxFrames)
    (job.rendered a maxFrames).1
  unfold stepFrames
  rw [hframes]
  exact List.append_ne_nil_of_left_ne_nil (List.ne_nil_of_length_pos h) _

/-- A step of a running job fails, or writes the frames it has. -/
theorem step_cases {job : Job ε ρ σ} (hstate : job.generator.state = .running) {maxFrames : Nat}
    (hsize : 0 < maxFrames) :
    (∃ after status, job.step a maxFrames = fail a after status ∧
        after.generator.totalFrames = job.generator.totalFrames ∧
        (after.generator.framesWritten = job.generator.framesWritten ∨
          after.generator.framesWritten =
            job.generator.framesWritten + (job.stepFrames a maxFrames).length ∧
          (job.rendered a maxFrames).1.length ≤ job.request maxFrames) ∧
        (job.stepFrames a maxFrames = [] ∧ job.asks maxFrames = false ∨
          job.Fails a maxFrames)) ∨
      job.step a maxFrames =
          (job.rendered a maxFrames).2.wrote a (job.stepFrames a maxFrames) ∧
        job.stepFrames a maxFrames ≠ [] ∧ ¬ job.Fails a maxFrames ∧
        (job.rendered a maxFrames).1.length ≤ job.request maxFrames ∧
        (∀ frame ∈ job.stepFrames a maxFrames, frame.isFinite = true) := by
  obtain ⟨-, hgenerator⟩ := rendered_keeps (a := a) job maxFrames
  have htotal : (job.rendered a maxFrames).2.generator.totalFrames =
      job.generator.totalFrames := by rw [hgenerator]
  have hwritten : (job.rendered a maxFrames).2.generator.framesWritten =
      job.generator.framesWritten := by rw [hgenerator]
  rw [step_eq hstate hsize]
  split
  case isTrue hstatus =>
    rw [Bool.and_eq_true, Bool.not_eq_true'] at hstatus
    exact .inl ⟨_, _, rfl, htotal, .inl hwritten, .inr (.status hstatus.1 hstatus.2)⟩
  case isFalse hstatus =>
  rw [Bool.and_eq_true, Bool.not_eq_true', not_and, Bool.not_eq_false] at hstatus
  split
  case isTrue hcount =>
    rw [Bool.and_eq_true, Bool.or_eq_true, decide_eq_true_eq, decide_eq_true_eq] at hcount
    exact .inl ⟨_, _, rfl, htotal, .inl hwritten, .inr (.count hcount.1 hcount.2)⟩
  case isFalse hcount =>
  rw [Bool.and_eq_true, Bool.or_eq_true, decide_eq_true_eq, decide_eq_true_eq, not_and,
    not_or] at hcount
  have hrequest : (job.rendered a maxFrames).1.length ≤ job.request maxFrames := by
    cases hasks : job.asks maxFrames with
    | true =>
      have := (hcount hasks).2
      omega
    | false =>
      unfold rendered
      rw [hasks]
      exact Nat.zero_le _
  obtain ⟨after, status, hfail, htotal', hframes, hwhy⟩ | ⟨hwrote, hne, hfinite, hok, hread⟩ :=
    writeFrames_cases (a := a) (job.rendered a maxFrames).2 (job.stepFrames a maxFrames)
  · rw [hwritten] at hframes
    refine .inl ⟨after, status, hfail, htotal'.trans htotal,
      hframes.imp_right fun hframes => ⟨hframes, hrequest⟩, ?_⟩
    obtain hempty | hwhy := hwhy
    · refine .inl ⟨hempty, Bool.eq_false_iff.mpr fun hasks => ?_⟩
      have hpos := (hcount hasks).1
      exact stepFrames_ne_nil (by omega) hempty
    · exact .inr (fails_of_writeFrames hwhy)
  · refine .inr ⟨hwrote, hne,
      not_fails (fun hasks => ⟨hstatus hasks, ?_, hrequest⟩) hfinite hok hread, hrequest, hfinite⟩
    have hpos := (hcount hasks).1
    omega

/-! ## The invariant -/

/-- What a job is begun for, and what its sink held before. -/
structure Order where
  held : List UInt8
  sampleBytes : Nat
  declared : Nat
  silence : Nat
  payloadBytes : Nat

def Order.header (order : Order) : List UInt8 :=
  Source.header order.sampleBytes (.ofNat ((order.declared + order.silence) * order.sampleBytes))

/-- The PCM of the first `written` frames, of which the encoder returned `frames`. -/
def Order.pcm (order : Order) (frames : List Binary32) (written : Nat) : List UInt8 :=
  (frames ++ List.replicate (written - order.declared) Binary32.zero).flatMap
    (packSample order.sampleBytes)

/-- What holds of a job that has not failed; `frames` and `bytes` are what the encoder has returned
and taken. -/
structure Tracks (holds : σ → List UInt8) (order : Order) (frames : List Binary32)
    (bytes : List UInt8) (job : Job ε ρ σ) : Prop where
  sampleBytes : job.generator.sampleBytes = order.sampleBytes
  waveform : job.generator.waveformFrames = order.declared
  sink : holds job.sink = order.held ++ (order.header ++ job.generator.pcmDigest)
  wav : job.generator.wavDigest = order.header ++ job.generator.pcmDigest
  pcm : job.generator.pcmDigest = order.pcm frames job.generator.framesWritten
  rendered : frames.length = min job.generator.framesWritten order.declared
  finite : ∀ frame ∈ frames, frame.isFinite = true
  payloadBytes : job.generator.payloadBytes = order.payloadBytes
  payload : job.generator.payloadDigest = bytes
  read : job.generator.payloadRead = bytes.length

/-- What holds of a job over its run. -/
structure Exact (holds : σ → List UInt8) (order : Order) (frames : List Binary32)
    (bytes : List UInt8) (job : Job ε ρ σ) : Prop where
  begun : job.generator.state ≠ .idle
  total : job.generator.totalFrames = order.declared + order.silence
  le : job.generator.framesWritten ≤ order.declared + order.silence
  tracks : job.generator.state ≠ .failed → job.Tracks holds order frames bytes
  running : job.generator.state = .running →
    job.generator.framesWritten = order.declared + order.silence →
    job.generator.payloadRead ≠ order.payloadBytes
  complete : job.generator.state = .complete →
    job.generator.framesWritten = order.declared + order.silence ∧
      job.generator.payloadRead = order.payloadBytes

section
variable {order : Order} {frames : List Binary32} {bytes : List UInt8}

/-- What a step has to write fits: frames up to the waveform's end, silence only behind it. -/
theorem stepFrames_eq {job : Job ε ρ σ} {maxFrames : Nat}
    (hrequest : (job.rendered a maxFrames).1.length ≤ job.request maxFrames) :
    ∃ more, job.stepFrames a maxFrames =
        (job.rendered a maxFrames).1 ++ List.replicate more .zero ∧
      (job.rendered a maxFrames).1.length + more ≤
        job.generator.totalFrames - job.generator.framesWritten ∧
      (job.rendered a maxFrames).1.length ≤
        job.generator.waveformFrames - job.generator.framesWritten ∧
      (0 < more → job.generator.waveformFrames ≤
        job.generator.framesWritten + (job.rendered a maxFrames).1.length) := by
  obtain ⟨more, hframes, hle, -, hend⟩ := padFrames_eq job.generator (job.limit maxFrames)
    (job.rendered a maxFrames).1
  refine ⟨more, hframes, ?_, ?_, hend⟩
  · unfold request limit at hrequest
    unfold limit at hle
    omega
  · unfold request at hrequest
    omega

theorem Tracks.wrote (hsink : a.sink.Keeps holds) {job : Job ε ρ σ} {maxFrames : Nat}
    (h : job.Tracks holds order frames bytes)
    (hrequest : (job.rendered a maxFrames).1.length ≤ job.request maxFrames)
    (hfinite : ∀ frame ∈ job.stepFrames a maxFrames, frame.isFinite = true)
    (hok : (a.sink.write job.sink ((job.stepFrames a maxFrames).flatMap
      (packSample order.sampleBytes))).1.isOk = true) :
    ((job.rendered a maxFrames).2.wrote a (job.stepFrames a maxFrames)).Tracks holds order
      (frames ++ (job.rendered a maxFrames).1) (bytes ++ job.taken a maxFrames) := by
  obtain ⟨hkept, hgenerator⟩ := rendered_keeps (a := a) job maxFrames
  obtain ⟨more, hframes, -, hwaveform, hend⟩ := stepFrames_eq hrequest
  have hcount := h.rendered
  rw [h.waveform] at hwaveform hend
  have hpcm : job.generator.pcmDigest ++
      (job.stepFrames a maxFrames).flatMap (packSample order.sampleBytes) =
        order.pcm (frames ++ (job.rendered a maxFrames).1)
          (job.generator.framesWritten + (job.stepFrames a maxFrames).length) := by
    unfold Order.pcm
    rw [h.pcm, Order.pcm, ← List.flatMap_append, hframes]
    congr 1
    obtain hnone | hsome := Nat.eq_zero_or_pos (job.rendered a maxFrames).1.length
    · rw [List.eq_nil_of_length_eq_zero hnone] at hend ⊢
      rw [List.nil_append, List.append_nil, List.append_assoc, List.replicate_append_replicate,
        List.length_replicate]
      rw [List.length_nil, Nat.add_zero] at hend
      congr 2
      omega
    · have hmore : job.generator.framesWritten +
          ((job.rendered a maxFrames).1.length + more) - order.declared = more := by omega
      rw [Nat.sub_eq_zero_of_le (by omega : job.generator.framesWritten ≤ order.declared),
        List.replicate_zero, List.append_nil, ← List.append_assoc, List.length_append,
        List.length_replicate, hmore]
  have hholds := hsink.write _ _ hok
  refine ⟨?_, ?_, ?_, ?_, ?_, ?_, ?_, ?_, ?_, ?_⟩
  · exact (congrArg WavGenerator.sampleBytes hgenerator :).trans h.sampleBytes
  · exact (congrArg WavGenerator.waveformFrames hgenerator :).trans h.waveform
  · unfold Job.wrote
    rw [hgenerator, hkept]
    dsimp only
    rw [h.sampleBytes, hholds, h.sink]
    simp only [List.append_assoc]
  · unfold Job.wrote
    rw [hgenerator]
    dsimp only
    rw [h.sampleBytes, h.wav, List.append_assoc]
  · unfold Job.wrote
    rw [hgenerator]
    dsimp only
    rw [h.sampleBytes]
    exact hpcm
  · unfold Job.wrote
    rw [hgenerator]
    dsimp only
    rw [hframes, List.length_append, List.length_append, List.length_replicate]
    omega
  · intro frame hmem
    rw [List.mem_append] at hmem
    obtain hmem | hmem := hmem
    · exact h.finite frame hmem
    · exact hfinite frame (hframes ▸ List.mem_append_left _ hmem)
  · exact (congrArg WavGenerator.payloadBytes hgenerator :).trans h.payloadBytes
  · unfold Job.wrote
    rw [hgenerator]
    dsimp only
    rw [h.payload]
  · unfold Job.wrote
    rw [hgenerator]
    dsimp only
    rw [h.read, List.length_append]

theorem rendered_idle {job : Job ε ρ σ} {maxFrames : Nat} (h : job.asks maxFrames = false) :
    job.rendered a maxFrames = ([], job) ∧ job.taken a maxFrames = [] := by
  unfold rendered taken
  rw [h]
  exact ⟨rfl, rfl⟩

/-- Out of `running`, or of size 0, a step does nothing. -/
theorem step_idle {job : Job ε ρ σ} {maxFrames : Nat}
    (h : job.generator.state ≠ .running ∨ maxFrames = 0) :
    job.step a maxFrames = job ∧ job.rendered a maxFrames = ([], job) ∧
      job.taken a maxFrames = [] := by
  have hasks : job.asks maxFrames = false := by
    unfold asks
    obtain hstate | rfl := h
    · rw [decide_eq_false hstate]
      rfl
    · rw [decide_eq_false (Nat.lt_irrefl 0), Bool.and_false]
      rfl
  refine ⟨?_, rendered_idle hasks⟩
  unfold Job.step
  refine if_pos ?_
  rw [Bool.or_eq_true, decide_eq_true_eq, decide_eq_true_eq]
  exact h

theorem Exact.step (hsink : a.sink.Keeps holds) {job : Job ε ρ σ}
    (h : job.Exact holds order frames bytes)
    (maxFrames : Nat) :
    (job.step a maxFrames).Exact holds order
      (frames ++ (job.rendered a maxFrames).1) (bytes ++ job.taken a maxFrames) := by
  by_cases hidle : job.generator.state ≠ .running ∨ maxFrames = 0
  · obtain ⟨hstep, hrendered, htaken⟩ := step_idle (a := a) hidle
    rw [hstep, hrendered, htaken, List.append_nil, List.append_nil]
    exact h
  rw [not_or, Decidable.not_not] at hidle
  obtain ⟨hstate, hsize⟩ := hidle
  have htracks := h.tracks (by rw [hstate]; exact nofun)
  have htotal := h.total
  have hle := h.le
  obtain ⟨after, status, hfail, htotal', hframes, -⟩ | ⟨hwrote, -, hnot, hrequest, hfinite⟩ :=
    step_cases (a := a) hstate (Nat.pos_of_ne_zero hsize)
  · rw [hfail]
    refine ⟨nofun, htotal'.trans htotal, ?_, fun hfailed => absurd rfl hfailed, nofun, nofun⟩
    show after.generator.framesWritten ≤ order.declared + order.silence
    obtain hframes | ⟨hframes, hrequest⟩ := hframes
    · omega
    · obtain ⟨more, hmore, hroom, -⟩ := stepFrames_eq hrequest
      rw [hframes, hmore, List.length_append, List.length_replicate]
      omega
  · obtain ⟨-, hgenerator⟩ := rendered_keeps (a := a) job maxFrames
    obtain ⟨more, hmore, hroom, -⟩ := stepFrames_eq hrequest
    have hnotRefused : (a.sink.write job.sink ((job.stepFrames a maxFrames).flatMap
        (packSample order.sampleBytes))).1.isOk ≠ false := by
      rw [← htracks.sampleBytes]
      exact fun hrefused => hnot (.refused hrefused)
    have hafter := htracks.wrote hsink hrequest hfinite ((Bool.not_eq_false _).mp hnotRefused)
    have htotal' : (job.rendered a maxFrames).2.generator.totalFrames =
        order.declared + order.silence := by rw [hgenerator, htotal]
    have hlength : job.generator.framesWritten + (job.stepFrames a maxFrames).length ≤
        order.declared + order.silence := by
      rw [hmore, List.length_append, List.length_replicate]
      omega
    have hwritten : (job.rendered a maxFrames).2.generator.framesWritten =
        job.generator.framesWritten := by rw [hgenerator]
    have hrunning : (job.rendered a maxFrames).2.generator.state = .running := by
      rw [hgenerator, hstate]
    have hread : (job.rendered a maxFrames).2.generator.payloadBytes = order.payloadBytes :=
      hafter.payloadBytes
    rw [hwrote]
    refine ⟨?_, htotal', ?_, fun _ => hafter, ?_, ?_⟩
    · unfold Job.wrote
      rw [hrunning]
      dsimp only
      split <;> exact nofun
    · show (job.rendered a maxFrames).2.generator.framesWritten + _ ≤ _
      rw [hwritten]
      exact hlength
    · unfold Job.wrote
      rw [htotal', hrunning]
      dsimp only
      split
      · exact nofun
      case isFalse hbefore => exact fun _ hlast => absurd hlast hbefore
    · unfold Job.wrote
      rw [htotal', hrunning, hwritten]
      dsimp only
      split
      case isTrue hlast =>
        refine fun _ => ⟨hlast, ?_⟩
        by_contra hunread
        exact hnot (.unread (hlast.trans htotal.symm) (by rwa [htracks.payloadBytes]))
      · exact nofun

theorem asks_iff {job : Job ε ρ σ} (hstate : job.generator.state = .running) {maxFrames : Nat}
    (hsize : 0 < maxFrames) :
    job.asks maxFrames = true ↔ job.generator.framesWritten < job.generator.waveformFrames := by
  unfold asks
  rw [hstate, decide_eq_true hsize]
  exact decide_eq_true_iff

/-- A running job fails in a step exactly for a reason of `Fails`. -/
theorem Exact.step_failed_iff {job : Job ε ρ σ} (h : job.Exact holds order frames bytes)
    (hstate : job.generator.state = .running) {maxFrames : Nat} (hsize : 0 < maxFrames) :
    (job.step a maxFrames).generator.state = .failed ↔ job.Fails a maxFrames := by
  obtain ⟨after, status, hfail, -, -, hwhy⟩ | ⟨hwrote, -, hnot, -, -⟩ :=
    step_cases (a := a) hstate hsize
  · refine iff_of_true (congrArg (fun job => job.generator.state) hfail :) ?_
    obtain ⟨hempty, hasks⟩ | hwhy := hwhy
    · -- Nothing to ask for and nothing to write: all is written, and the payload is not read.
      have hwaveform := mt (asks_iff hstate hsize).mpr (Bool.eq_false_iff.mp hasks)
      obtain ⟨hrendered, -⟩ := rendered_idle (a := a) hasks
      obtain ⟨more, hframes, -, hmore, -⟩ :=
        padFrames_eq job.generator (job.limit maxFrames) []
      have hnone := hempty
      unfold stepFrames at hnone
      rw [hrendered, hframes, List.nil_append, List.replicate_eq_nil_iff,
        hmore (Nat.not_lt.mp hwaveform)] at hnone
      have hlast : job.generator.framesWritten = order.declared + order.silence := by
        have hle := h.le
        have htotal := h.total
        unfold limit maximumStepFrames at hnone
        rw [List.length_nil] at hnone
        omega
      have hunread := h.running hstate hlast
      refine .unread ?_ ?_
      · rw [hempty, h.total]
        exact hlast
      · rw [hrendered, (h.tracks (by rw [hstate]; exact nofun)).payloadBytes]
        exact hunread
    · exact hwhy
  · refine iff_of_false (fun hfailed => ?_) hnot
    rw [hwrote] at hfailed
    unfold Job.wrote at hfailed
    rw [(rendered_keeps job maxFrames).2, hstate] at hfailed
    dsimp only at hfailed
    split at hfailed <;> cases hfailed

/-! ## Runs -/

theorem Exact.steps (hsink : a.sink.Keeps holds) {job : Job ε ρ σ}
    (h : job.Exact holds order frames bytes) (sizes : List Nat) :
    (job.steps a sizes).Exact holds order (frames ++ job.renderedBy a sizes)
      (bytes ++ job.takenBy a sizes) := by
  induction sizes generalizing job frames bytes with
  | nil =>
    unfold renderedBy takenBy
    rw [List.append_nil, List.append_nil]
    exact h
  | cons size sizes ih =>
    unfold renderedBy takenBy
    rw [← List.append_assoc, ← List.append_assoc]
    exact ih (h.step hsink size)

theorem steps_idle {job : Job ε ρ σ} (h : job.generator.state ≠ .running) (sizes : List Nat) :
    job.steps a sizes = job := by
  induction sizes with
  | nil => rfl
  | cons size sizes ih =>
    show steps a (job.step a size) sizes = job
    rw [(step_idle (.inl h)).1]
    exact ih

/-- A step of a positive size that leaves a job running has written a frame. -/
theorem framesWritten_lt_of_running {job : Job ε ρ σ} {maxFrames : Nat} (hsize : 0 < maxFrames)
    (hafter : (job.step a maxFrames).generator.state = .running) :
    job.generator.state = .running ∧
      job.generator.framesWritten < (job.step a maxFrames).generator.framesWritten := by
  by_cases hstate : job.generator.state = .running
  · refine ⟨hstate, ?_⟩
    obtain ⟨after, status, hfail, -⟩ | ⟨hwrote, hne, -⟩ := step_cases (a := a) hstate hsize
    · rw [hfail] at hafter
      cases hafter
    · rw [hwrote]
      show _ < (job.rendered a maxFrames).2.generator.framesWritten + _
      rw [(rendered_keeps job maxFrames).2]
      exact Nat.lt_add_of_pos_right (List.length_pos_iff.mpr hne)
  · rw [(step_idle (.inl hstate)).1] at hafter
    exact absurd hafter hstate

/-- A job still running has written a frame in each step of a positive size. -/
theorem count_steps_le {job : Job ε ρ σ} {sizes : List Nat}
    (h : (job.steps a sizes).generator.state = .running) :
    job.generator.framesWritten + sizes.countP (0 < ·) ≤
      (job.steps a sizes).generator.framesWritten := by
  induction sizes generalizing job with
  | nil => exact Nat.le_refl _
  | cons size sizes ih =>
    have hrest := @ih (job.step a size) h
    have hrunning : (job.step a size).generator.state = .running := by
      by_contra hstop
      have hsame := steps_idle (a := a) hstop sizes
      exact hstop ((congrArg (fun job => job.generator.state) hsame :).symm.trans h)
    obtain hzero | hsize := Nat.eq_zero_or_pos size
    · rw [List.countP_cons_of_neg (by rw [hzero]; decide)]
      rw [(step_idle (.inr hzero)).1] at hrest
      refine hrest.trans_eq ?_
      show _ = (steps a (job.step a size) sizes).generator.framesWritten
      rw [(step_idle (.inr hzero)).1]
    · rw [List.countP_cons_of_pos (p := fun size => decide (0 < size)) (decide_eq_true hsize)]
      have hmore := (framesWritten_lt_of_running hsize hrunning).2
      exact Nat.le_trans (by omega) hrest

/-! ## Begin -/

/-- A job's fields before its header is written. -/
structure Ready (job : Job ε ρ σ) (payloadBytes : Nat) (encoding : WavEncoding)
    (bytes : List UInt8) : Prop where
  sampleBytes : job.generator.sampleBytes = if encoding = .pcm24 then 3 else 2
  payloadBytes : job.generator.payloadBytes = payloadBytes
  payload : job.generator.payloadDigest = bytes
  read : job.generator.payloadRead = bytes.length
  framesWritten : job.generator.framesWritten = 0
  wav : job.generator.wavDigest = []
  pcm : job.generator.pcmDigest = []

/-- A job begun, from the source it is configured with. -/
def orderOf (a : Adapters ε ρ σ) (holds : σ → List UInt8) (job begun : Job ε ρ σ)
    (payloadBytes : Nat) (silence : UInt32) (encoding : WavEncoding) : Order where
  held := holds job.sink
  sampleBytes := if encoding = .pcm24 then 3 else 2
  declared := (a.source.totalFrames begun.source).toNat
  silence := silence.toNat
  payloadBytes

theorem Ready.writeHeader (hsink : a.sink.Keeps holds) {job : Job ε ρ σ} {payloadBytes : Nat}
    {encoding : WavEncoding} (h : job.Ready payloadBytes encoding bytes) (silence : UInt32)
    (hok : (job.writeHeader a silence).1.isOk = true) :
    (job.writeHeader a silence).2.Exact holds
      (orderOf a holds job (job.writeHeader a silence).2 payloadBytes silence encoding)
      [] bytes := by
  have hbytes := h.sampleBytes
  unfold Job.writeHeader orderOf at *
  dsimp only at hok ⊢
  rw [hbytes] at hok ⊢
  generalize (if encoding = .pcm24 then 3 else 2) = width at *
  split at hok
  · cases hok
  case isFalse hlimit =>
  rw [if_neg hlimit]
  split at hok
  case isTrue hrefused =>
    exact absurd hok (Bool.eq_false_iff.mp ((Bool.not_eq_true' _).mp hrefused))
  case isFalse hwritten =>
  rw [if_neg hwritten]
  rw [Bool.not_eq_true, Bool.not_eq_false'] at hwritten
  have hholds := hsink.write _ _ hwritten
  have hcomplete : ∀ {declared : Nat}, (decide (declared + silence.toNat = 0) &&
        decide (job.generator.payloadRead = job.generator.payloadBytes)) = true →
      0 = declared + silence.toNat ∧ job.generator.payloadRead = payloadBytes := by
    intro declared hnothing
    rw [Bool.and_eq_true, decide_eq_true_eq, decide_eq_true_eq, h.payloadBytes] at hnothing
    exact ⟨hnothing.1.symm, hnothing.2⟩
  refine ⟨?_, rfl, ?_, fun _ => ⟨rfl, rfl, ?_, ?_, ?_, ?_, nofun, h.payloadBytes, h.payload,
    h.read⟩, ?_, ?_⟩
  · dsimp only
    split <;> exact nofun
  · dsimp only
    rw [h.framesWritten]
    exact Nat.zero_le _
  · dsimp only
    rw [hholds, h.pcm, List.append_nil]
    rfl
  · dsimp only
    rw [h.wav, h.pcm, List.nil_append, List.append_nil]
    rfl
  · dsimp only
    rw [h.pcm, h.framesWritten, Order.pcm, Nat.zero_sub]
    rfl
  · dsimp only
    rw [h.framesWritten, Nat.zero_min]
    rfl
  · dsimp only
    rw [h.framesWritten]
    split
    · exact nofun
    case isFalse hsome =>
      intro _ hlast hread
      refine hsome ?_
      rw [Bool.and_eq_true, decide_eq_true_eq, decide_eq_true_eq, h.payloadBytes]
      exact ⟨hlast.symm, hread⟩
  · dsimp only
    rw [h.framesWritten]
    split
    case isTrue hnothing => exact fun _ => hcomplete hnothing
    · exact nofun

theorem exact_begin (hsink : a.sink.Keeps holds) {job : Job ε ρ σ} {profile : String}
    {payloadBytes : Nat} {silence : UInt32} {encoding : WavEncoding}
    (hok : (job.begin a profile payloadBytes silence encoding).1.isOk = true) :
    (job.begin a profile payloadBytes silence encoding).2.Exact holds
      (orderOf a holds job (job.begin a profile payloadBytes silence encoding).2 payloadBytes
        silence encoding)
      [] (job.takenAtBegin a profile payloadBytes encoding) := by
  have hready : (job.ready a payloadBytes encoding).Ready payloadBytes encoding [] ∧
      (job.ready a payloadBytes encoding).sink = job.sink :=
    ⟨⟨rfl, rfl, rfl, rfl, rfl, rfl, rfl⟩, rfl⟩
  have hbegin : job.begin a profile payloadBytes silence encoding =
      if encoding ≠ .pcm24 && encoding ≠ .pcm16Legacy then
        let job := ((job.stop a).reset payloadBytes).fail a
          { code := .invalidArgument, message := "unsupported WAV encoding" }
        (job.generator.status, job)
      else
        let called := (job.ready a payloadBytes encoding).call a
          (a.source.configure (job.ready a payloadBytes encoding).source profile payloadBytes)
        if !called.1.isOk then
          ((called.2.fail a called.1).generator.status, called.2.fail a called.1)
        else
          called.2.writeHeader a silence := rfl
  rw [hbegin] at hok ⊢
  unfold takenAtBegin
  generalize job.ready a payloadBytes encoding = ready at *
  obtain ⟨hfields, hkeeps⟩ := hready
  split at hok
  · cases hok
  case isFalse hencoding =>
  rw [if_neg hencoding]
  obtain ⟨hkept, hgenerator⟩ := call_keeps (a := a) ready
    (a.source.configure ready.source profile payloadBytes)
  obtain ⟨hdigest, hcount⟩ := call_payload (a := a) ready
    (a.source.configure ready.source profile payloadBytes)
  generalize hbytes : ready.handed a (a.source.configure ready.source profile payloadBytes) = bytes
    at *
  rw [hfields.payload, List.nil_append] at hdigest
  rw [hfields.read, List.length_nil, Nat.zero_add] at hcount
  generalize ready.call a (a.source.configure ready.source profile payloadBytes) = called at *
  obtain ⟨configured, after⟩ := called
  have hconfigured : after.Ready payloadBytes encoding bytes := by
    change after.generator = _ at hgenerator
    refine ⟨?_, ?_, hdigest, hcount, ?_, ?_, ?_⟩
    · rw [hgenerator]
      exact hfields.sampleBytes
    · rw [hgenerator]
      exact hfields.payloadBytes
    · rw [hgenerator]
      exact hfields.framesWritten
    · rw [hgenerator]
      exact hfields.wav
    · rw [hgenerator]
      exact hfields.pcm
  dsimp only at hok ⊢
  split at hok
  case isTrue hfailed =>
    exact absurd hok (Bool.eq_false_iff.mp ((Bool.not_eq_true' _).mp hfailed))
  case isFalse hsuccess =>
  rw [if_neg hsuccess]
  have hexact := hconfigured.writeHeader hsink silence hok
  have hsame : after.sink = job.sink := hkept.trans hkeeps
  unfold orderOf at hexact ⊢
  rw [hsame] at hexact
  exact hexact

/-- A job that is not begun has failed. -/
theorem failed_of_begin {job : Job ε ρ σ} {profile : String} {payloadBytes : Nat}
    {silence : UInt32} {encoding : WavEncoding}
    (hrefused : (job.begin a profile payloadBytes silence encoding).1.isOk = false) :
    (job.begin a profile payloadBytes silence encoding).2.generator.state = .failed := by
  unfold Job.begin at hrefused ⊢
  dsimp only at hrefused ⊢
  split
  · rfl
  case isFalse hencoding =>
  rw [if_neg hencoding] at hrefused
  split
  · rfl
  case isFalse hconfigured =>
  rw [if_neg hconfigured] at hrefused
  have hstatus : ∀ after : Job ε ρ σ, after.generator.status = .success →
      (after.writeHeader a silence).1.isOk = false →
        (after.writeHeader a silence).2.generator.state = .failed := by
    intro after hsuccess
    unfold writeHeader
    dsimp only
    split
    · exact fun _ => rfl
    split
    · exact fun _ => rfl
    · intro hbad
      rw [hsuccess] at hbad
      cases hbad
  refine hstatus _ ?_ hrefused
  rw [(call_keeps _ _).2]
  rfl

/-! ## An encoder of one stream -/

/-- An encoder with `stream` to return: where `here` says that `n` frames of it are out, a call
gives at least one and at most as many as asked of those behind them. `here` is about what the
encoder sees: its own state, the payload's, and how much of the payload is read. -/
structure Renders (a : Adapters ε ρ σ) (payloadBytes : Nat) (stream : List Binary32)
    (here : ε → ρ → Nat → Nat → Prop) : Prop where
  finite : ∀ frame ∈ stream, frame.isFinite = true
  call : ∀ (job : Job ε ρ σ) (n request : Nat), job.generator.payloadBytes = payloadBytes →
    here job.source job.payload job.generator.payloadRead n → n < stream.length → 0 < request →
    (a.source.status (job.call a (a.source.readFloat job.source request)).2.source).isOk = true ∧
      0 < (job.call a (a.source.readFloat job.source request)).1.length ∧
      (job.call a (a.source.readFloat job.source request)).1.length ≤ request ∧
      (job.call a (a.source.readFloat job.source request)).1 =
        (stream.drop n).take (job.call a (a.source.readFloat job.source request)).1.length ∧
      here (job.call a (a.source.readFloat job.source request)).2.source
        (job.call a (a.source.readFloat job.source request)).2.payload
        (job.call a (a.source.readFloat job.source request)).2.generator.payloadRead
        (n + (job.call a (a.source.readFloat job.source request)).1.length)

section
variable {stream : List Binary32} {here : ε → ρ → Nat → Nat → Prop}

/-- Where a job is in the encoder's stream. -/
structure Follows (stream : List Binary32) (here : ε → ρ → Nat → Nat → Prop)
    (frames : List Binary32) (job : Job ε ρ σ) : Prop where
  here : here job.source job.payload job.generator.payloadRead frames.length
  stream : frames = stream.take frames.length

theorem Follows.rendered {job : Job ε ρ σ} {maxFrames : Nat}
    (hrenders : Renders a order.payloadBytes stream here)
    (hdeclared : stream.length = order.declared)
    (h : job.Exact holds order frames bytes) (hstate : job.generator.state = .running)
    (hfollows : job.Follows stream here frames) (hasks : job.asks maxFrames = true) :
    (a.source.status (job.rendered a maxFrames).2.source).isOk = true ∧
      0 < (job.rendered a maxFrames).1.length ∧
      (job.rendered a maxFrames).1.length ≤ job.request maxFrames ∧
      (∀ frame ∈ (job.rendered a maxFrames).1, frame.isFinite = true) ∧
      (job.rendered a maxFrames).2.Follows stream here
        (frames ++ (job.rendered a maxFrames).1) := by
  have htracks := h.tracks (by rw [hstate]; exact nofun)
  have hcount := htracks.rendered
  have hwaveform := htracks.waveform
  have htotal := h.total
  have hless : 0 < maxFrames ∧
      job.generator.framesWritten < job.generator.waveformFrames := by
    simp only [asks, Bool.and_eq_true, decide_eq_true_eq] at hasks
    exact ⟨hasks.1.2, hasks.2⟩
  have hrequest : 0 < job.request maxFrames := by
    unfold request limit maximumStepFrames
    omega
  obtain ⟨hstatus, hsome, hle, hframes, hhere⟩ :=
    hrenders.call job frames.length (job.request maxFrames) htracks.payloadBytes hfollows.here
      (by omega) hrequest
  have hrendered : job.rendered a maxFrames =
      job.call a (a.source.readFloat job.source (job.request maxFrames)) := if_pos hasks
  rw [← hrendered] at hstatus hsome hle hframes hhere
  refine ⟨hstatus, hsome, hle, ?_, ?_, ?_⟩
  · intro frame hmem
    rw [hframes] at hmem
    exact hrenders.finite frame (List.mem_of_mem_drop (List.mem_of_mem_take hmem))
  · rw [List.length_append]
    exact hhere
  · rw [List.length_append, List.take_add, ← hframes, ← hfollows.stream]

theorem Follows.step {job : Job ε ρ σ} (hrenders : Renders a order.payloadBytes stream here)
    (hdeclared : stream.length = order.declared) (h : job.Exact holds order frames bytes)
    (hfollows : job.generator.state ≠ .failed → job.Follows stream here frames) (maxFrames : Nat)
    (hafter : (job.step a maxFrames).generator.state ≠ .failed) :
    (job.step a maxFrames).Follows stream here (frames ++ (job.rendered a maxFrames).1) := by
  by_cases hidle : job.generator.state ≠ .running ∨ maxFrames = 0
  · obtain ⟨hstep, hrendered, -⟩ := step_idle (a := a) hidle
    rw [hstep] at hafter ⊢
    rw [hrendered, List.append_nil]
    exact hfollows hafter
  rw [not_or, Decidable.not_not] at hidle
  obtain ⟨hstate, hsize⟩ := hidle
  have hfollows := hfollows (by rw [hstate]; exact nofun)
  obtain ⟨after, status, hfail, -⟩ | ⟨hwrote, -⟩ :=
    step_cases (a := a) hstate (Nat.pos_of_ne_zero hsize)
  · rw [hfail] at hafter
    exact absurd rfl hafter
  · rw [hwrote]
    cases hasks : job.asks maxFrames with
    | false =>
      rw [(rendered_idle (a := a) hasks).1, List.append_nil]
      exact ⟨hfollows.here, hfollows.stream⟩
    | true =>
      obtain ⟨-, -, -, -, hnext⟩ := hfollows.rendered hrenders hdeclared h hstate hasks
      exact ⟨hnext.here, hnext.stream⟩

theorem Follows.steps (hsink : a.sink.Keeps holds) {job : Job ε ρ σ}
    (hrenders : Renders a order.payloadBytes stream here)
    (hdeclared : stream.length = order.declared) (h : job.Exact holds order frames bytes)
    (hfollows : job.generator.state ≠ .failed → job.Follows stream here frames)
    (sizes : List Nat) (hafter : (job.steps a sizes).generator.state ≠ .failed) :
    (job.steps a sizes).Follows stream here (frames ++ job.renderedBy a sizes) := by
  induction sizes generalizing job frames bytes with
  | nil =>
    unfold renderedBy
    rw [List.append_nil]
    exact hfollows hafter
  | cons size sizes ih =>
    unfold renderedBy
    rw [← List.append_assoc]
    exact ih (h.step hsink size) (fun hok => Follows.step hrenders hdeclared h hfollows size hok)
      hafter

/-- What a job in an encoder's stream has written is the start of one file, whatever its steps. -/
theorem Follows.pcm {job : Job ε ρ σ} (hdeclared : stream.length = order.declared)
    (h : job.Exact holds order frames bytes) (hstate : job.generator.state ≠ .failed)
    (hfollows : job.Follows stream here frames) :
    order.pcm frames job.generator.framesWritten =
      ((stream ++ List.replicate order.silence Binary32.zero).take
        job.generator.framesWritten).flatMap (packSample order.sampleBytes) := by
  have hcount := (h.tracks hstate).rendered
  have hle := h.le
  have hframes : frames = stream.take job.generator.framesWritten := by
    rw [hfollows.stream, hcount, ← hdeclared, ← List.take_eq_take_min]
  have hmin : min (job.generator.framesWritten - order.declared) order.silence =
      job.generator.framesWritten - order.declared := by omega
  rw [Order.pcm, List.take_append, List.take_replicate, hdeclared, hmin, ← hframes]

end

/-- With an encoder in its stream, a step fails only at the sink or for what is left of the
payload. -/
theorem Follows.refused_or_unread {stream : List Binary32} {here : ε → ρ → Nat → Nat → Prop}
    {job : Job ε ρ σ} (hrenders : Renders a order.payloadBytes stream here)
    (hdeclared : stream.length = order.declared) (h : job.Exact holds order frames bytes)
    (hstate : job.generator.state = .running) (hfollows : job.Follows stream here frames)
    {maxFrames : Nat} (hfails : job.Fails a maxFrames) :
    (a.sink.write job.sink ((job.stepFrames a maxFrames).flatMap
        (packSample order.sampleBytes))).1.isOk = false ∨
      job.generator.framesWritten + (job.stepFrames a maxFrames).length =
          order.declared + order.silence ∧
        (job.rendered a maxFrames).2.generator.payloadRead ≠ order.payloadBytes := by
  have htracks := h.tracks (by rw [hstate]; exact nofun)
  cases hfails with
  | status hasks hstatus =>
    rw [(hfollows.rendered hrenders hdeclared h hstate hasks).1] at hstatus
    cases hstatus
  | count hasks hcount =>
    obtain ⟨-, hsome, hle, -⟩ := hfollows.rendered hrenders hdeclared h hstate hasks
    omega
  | nonfinite frame hframe hinfinite =>
    cases hasks : job.asks maxFrames with
    | false =>
      rw [(rendered_idle hasks).1] at hframe
      cases hframe
    | true =>
      obtain ⟨-, -, -, hfinite, -⟩ := hfollows.rendered hrenders hdeclared h hstate hasks
      rw [hfinite frame hframe] at hinfinite
      cases hinfinite
  | refused hrefused =>
    rw [htracks.sampleBytes] at hrefused
    exact .inl hrefused
  | unread hlast hunread =>
    rw [h.total] at hlast
    rw [htracks.payloadBytes] at hunread
    exact .inr ⟨hlast, hunread⟩

end

/-- A job writes the encoder's frames and the silence behind them, and nothing else: while it has
not failed its sink holds the header and the frames of the calls so far, padded only behind the
last of the waveform. It is complete with all its frames and all its payload, its hashes those of
the payload, the file and the PCM; it fails in a step exactly for the reasons of `Fails`, for good;
and over one stream its file does not depend on the steps. -/
theorem writes_encoder_frames (hsink : a.sink.Keeps holds) (sha256Hex : List UInt8 → String)
    (job : Job ε ρ σ) (profile : String) (payloadBytes : Nat) (silence : UInt32)
    (encoding : WavEncoding) (sizes : List Nat) :
    let begun := job.begin a profile payloadBytes silence encoding
    let order := orderOf a holds job begun.2 payloadBytes silence encoding
    let after := begun.2.steps a sizes
    let written := after.generator.framesWritten
    let frames := begun.2.renderedBy a sizes
    let bytes := job.takenAtBegin a profile payloadBytes encoding ++ begun.2.takenBy a sizes
    (begun.1.isOk = false → after.generator.state = .failed) ∧
    (begun.1.isOk = true →
      (after.generator.totalFrames = order.declared + order.silence ∧
        written ≤ order.declared + order.silence) ∧
      (after.generator.state ≠ .failed →
        holds after.sink = order.held ++ (order.header ++ order.pcm frames written) ∧
          frames.length = min written order.declared ∧
          ∀ frame ∈ frames, frame.isFinite = true) ∧
      (after.generator.state = .complete →
        written = order.declared + order.silence ∧ bytes.length = payloadBytes ∧
          after.hashes sha256Hex =
            { payload := sha256Hex bytes
              wav := sha256Hex (order.header ++ order.pcm frames written)
              pcm := sha256Hex (order.pcm frames written) }) ∧
      (after.generator.state ≠ .complete → after.hashes sha256Hex = {}) ∧
      (after.generator.state = .running →
        sizes.countP (0 < ·) ≤ written ∧
          ∀ size, 0 < size →
            ((after.step a size).generator.state = .failed ↔ after.Fails a size)) ∧
      (after.generator.state = .failed → ∀ more, (after.steps a more).generator.state = .failed) ∧
      ∀ stream here, Renders a payloadBytes stream here → stream.length = order.declared →
        here begun.2.source begun.2.payload begun.2.generator.payloadRead 0 →
        (after.generator.state ≠ .failed →
          holds after.sink = order.held ++ (order.header ++
            ((stream ++ List.replicate order.silence Binary32.zero).take written).flatMap
              (packSample order.sampleBytes))) ∧
        (after.generator.state = .running → ∀ size, 0 < size →
          (after.step a size).generator.state = .failed →
          (a.sink.write after.sink ((after.stepFrames a size).flatMap
              (packSample order.sampleBytes))).1.isOk = false ∨
            written + (after.stepFrames a size).length = order.declared + order.silence ∧
              (after.rendered a size).2.generator.payloadRead ≠ payloadBytes)) := by
  intro begun order after written frames bytes
  refine ⟨fun hrefused => ?_, fun hok => ?_⟩
  · have hfailed := failed_of_begin hrefused
    show (begun.2.steps a sizes).generator.state = .failed
    rw [steps_idle (by rw [hfailed]; exact nofun)]
    exact hfailed
  have hbegun : begun.2.Exact holds order [] (job.takenAtBegin a profile payloadBytes encoding) :=
    exact_begin hsink hok
  have hexact : after.Exact holds order frames bytes := hbegun.steps hsink sizes
  refine ⟨⟨hexact.total, hexact.le⟩, fun hstate => ?_, fun hstate => ?_, fun hstate => ?_,
    fun hstate => ⟨?_, fun size hsize => hexact.step_failed_iff hstate hsize⟩,
    fun hstate more => ?_, fun stream here hrenders hdeclared hstart => ⟨fun hstate => ?_, fun hstate size hsize => ?_⟩⟩
  · have htracks := hexact.tracks hstate
    exact ⟨htracks.pcm ▸ htracks.sink, htracks.rendered, htracks.finite⟩
  · have htracks := hexact.tracks (by rw [hstate]; exact nofun)
    obtain ⟨hall, hread⟩ := hexact.complete hstate
    refine ⟨hall, htracks.read.symm.trans hread, ?_⟩
    unfold hashes
    rw [if_pos hstate, htracks.payload, htracks.wav, htracks.pcm]
  · exact if_neg hstate
  · exact Nat.le_trans (Nat.le_add_left _ _) (count_steps_le hstate)
  · exact (congrArg (fun job => job.generator.state)
      (steps_idle (by rw [hstate]; exact nofun) more) :).trans hstate
  all_goals
    have hfollows : after.generator.state ≠ .failed → after.Follows stream here frames :=
      Follows.steps hsink hrenders hdeclared hbegun (fun _ => ⟨hstart, rfl⟩) sizes
  · rw [← (hfollows hstate).pcm hdeclared hexact hstate, ← (hexact.tracks hstate).pcm]
    exact (hexact.tracks hstate).sink
  · intro hfailed
    exact (hfollows (by rw [hstate]; exact nofun)).refused_or_unread hrenders hdeclared hexact
      hstate ((hexact.step_failed_iff hstate hsize).mp hfailed)

end

/-! ## Bytes as frames -/

/-- The frame of a payload byte. -/
def byteFrame (byte : UInt8) : Binary32 := ⟨0x3F000000 + byte.toUInt32⟩

theorem renders_byteAdapters (payload : List UInt8)
    (hfinite : ∀ byte ∈ payload, (byteFrame byte).isFinite = true) :
    Renders byteAdapters payload.length (payload.map byteFrame)
      (fun _ left read n => left = payload.drop n ∧ read = n) where
  finite := by
    intro frame hmem
    obtain ⟨byte, hbyte, rfl⟩ := List.mem_map.mp hmem
    exact hfinite byte hbyte
  call := by
    intro job n request hbytes hhere hless hrequest
    obtain ⟨hleft, hread⟩ := hhere
    rw [List.length_map] at hless
    have hcount : ¬ (decide ((job.payload.take request).length > request) ||
        decide ((job.payload.take request).length >
          job.generator.payloadBytes - job.generator.payloadRead)) = true := by
      rw [Bool.or_eq_true, decide_eq_true_eq, decide_eq_true_eq, hleft, hbytes, hread,
        List.length_take, List.length_drop]
      omega
    have hcall : job.read byteAdapters request =
        (job.payload.take request,
          { job with
            payload := job.payload.drop request
            generator :=
              { job.generator with
                payloadRead := job.generator.payloadRead + (job.payload.take request).length
                payloadDigest := job.generator.payloadDigest ++ job.payload.take request } }) :=
      if_neg hcount
    have hresult : job.call byteAdapters (byteAdapters.source.readFloat job.source request) =
        ((job.payload.take request).map byteFrame,
          { job with
            payload := job.payload.drop request
            generator :=
              { job.generator with
                payloadRead := job.generator.payloadRead + (job.payload.take request).length
                payloadDigest := job.generator.payloadDigest ++ job.payload.take request } }) := by
      show call byteAdapters (job.read byteAdapters request).2
        (.ret ((job.read byteAdapters request).1.map byteFrame, job.source)) = _
      rw [hcall]
      rfl
    rw [hresult, hleft, hread]
    dsimp only
    rw [List.length_map, List.length_take, List.length_drop]
    refine ⟨rfl, by omega, Nat.min_le_left _ _, ?_, ?_, rfl⟩
    · rw [← List.map_drop, ← List.map_take, ← List.length_drop, ← List.take_eq_take_min]
    · rw [List.drop_drop]
      obtain hle | hgt := Nat.le_total request (payload.length - n)
      · rw [Nat.min_eq_left hle]
      · rw [Nat.min_eq_right hgt, List.drop_eq_nil_of_le (by omega),
          List.drop_eq_nil_of_le (by omega)]

/-- Two bytes of payload in steps of one frame and of five: two frames, one of silence. -/
theorem writes_encoder_frames_twoBytes :
    ((begin byteAdapters (byteReady [1, 2]) "" 2 1).2.steps byteAdapters
        [1, 5]).generator.framesWritten = 3 ∧
      ((begin byteAdapters (byteReady [1, 2]) "" 2 1).2.steps byteAdapters [1, 5]).sink =
        header 3 9 ++
          ([byteFrame 1, byteFrame 2, .zero] : List Binary32).flatMap (packSample 3) := by
  have hok : (begin byteAdapters (byteReady [1, 2]) "" 2 1).1.isOk = true := by decide +kernel
  have hstate : ((begin byteAdapters (byteReady [1, 2]) "" 2 1).2.steps byteAdapters
      [1, 5]).generator.state = .complete := by decide +kernel
  obtain ⟨-, hbegun⟩ := writes_encoder_frames keeps_byteAdapters (fun _ => "") (byteReady [1, 2]) ""
    2 1 .pcm24 [1, 5]
  obtain ⟨-, -, hcomplete, -, -, -, hstream⟩ := hbegun hok
  obtain ⟨hall, -⟩ := hcomplete hstate
  have hstart : ([1, 2] : List UInt8) = List.drop 0 [1, 2] := rfl
  have hfile := (hstream _ _ (renders_byteAdapters [1, 2] (by decide +kernel)) rfl ⟨hstart, rfl⟩).1
    (by rw [hstate]; exact nofun)
  refine ⟨hall, ?_⟩
  rw [hall] at hfile
  exact hfile

end Job
end WaveformGenerator.Source
