import WaveformGenerator.Artifact.Playable
import WaveformGenerator.Source.WavGenerator

/-!
# Generated files and the validator

What a job leaves in a sink that keeps its promise: the header, then three bytes for each frame it
has written. The generator writes no pad byte, and its limit is that of RIFF's size field, so the
validator takes the finished file only if its length is even and fits 32 bits.
-/

namespace WaveformGenerator.Source

open Artifact

/-- A write that succeeds has put its bytes behind what the sink holds. -/
structure ByteSink.Keeps {σ : Type} (sink : ByteSink σ) (holds : σ → List UInt8) : Prop where
  write : ∀ s data, (sink.write s data).1.isOk = true →
    holds (sink.write s data).2 = holds s ++ data

/-! ## What the validator takes -/

/-- A chunk with its padding keeps the cursor even. -/
theorem even_of_readChunk {reader : WavReader} {state after : RiffState} {chunk : Chunk}
    (h : readChunk reader state = .ok (chunk, after)) (heven : state.cursor.toNat % 2 = 0) :
    chunk.next.toNat % 2 = 0 := by
  obtain ⟨bytes, hnext⟩ :
      ∃ bytes : UInt32, chunk.next = state.cursor + 8 + (bytes + (bytes &&& 1)) := by
    unfold readChunk at h
    split at h
    · cases h
    split at h
    · cases h
    case h_2 header _ =>
      dsimp only at h
      refine ⟨readU32 header 4, ?_⟩
      split at h
      · cases h
      split at h
      · cases h
      split at h
      · split at h
        · cases h
        · cases h
          rfl
      · cases h
        rfl
  have h8 : (8 : UInt32).toNat = 8 := rfl
  rw [hnext, UInt32.toNat_add, UInt32.toNat_add, UInt32.toNat_add, and_one_toNat, h8]
  omega

theorem even_of_walkChunks {reader : WavReader} {state : RiffState} {payload : WavPayload}
    {format : Format} {result : WavPayload × Format} (heven : state.cursor.toNat % 2 = 0)
    (hle : state.cursor ≤ state.end)
    (h : walkChunks reader state payload format = .ok result) : state.end.toNat % 2 = 0 := by
  induction state, payload, format using walkChunks.induct reader with
  | case1 state payload format hcursor error hread =>
    unfold walkChunks at h
    rw [dif_pos hcursor] at h
    split at h
    · cases h
    case h_2 hread' => cases hread.symm.trans hread'
  | case2 state payload format hcursor chunk after hread error htake =>
    unfold walkChunks at h
    rw [dif_pos hcursor] at h
    split at h
    · cases h
    case h_2 hread' =>
      cases hread.symm.trans hread'
      rw [htake] at h
      cases h
  | case3 state payload format hcursor chunk after hread payload' format' htake ih =>
    rw [walkChunks_step hcursor hread htake] at h
    obtain ⟨-, hnext, hend⟩ := next_of_readChunk hcursor hread
    rw [← hend]
    exact ih (even_of_readChunk hread heven) (hend ▸ hnext) h
  | case4 state payload format hcursor =>
    rw [← UInt32.le_antisymm hle (UInt32.not_lt.mp hcursor)]
    exact heven

/-- The end the header gives is the size field's, which leaves room for the eight bytes before. -/
theorem end_of_readRiffHeader {reader : WavReader} {bytes : List UInt8} {state : RiffState}
    (hreads : reader.Reads bytes) (hlength : 12 ≤ bytes.length)
    (h : readRiffHeader reader = .ok state) :
    4 ≤ (readU32 (slice bytes 0 12) 4).toNat ∧
      (readU32 (slice bytes 0 12) 4).toNat + 8 ≤ uint32Max ∧
      state = { «end» := readU32 (slice bytes 0 12) 4 + 8 } := by
  unfold readRiffHeader at h
  split at h
  · cases h
  case isFalse htwelve =>
    rw [UInt32.lt_iff_toNat_lt, Nat.not_lt] at htwelve
    rw [hreads.readExact (by show 0 + 12 ≤ _; omega)
      (by show 0 + 12 ≤ _; exact (Nat.zero_add 12).symm ▸ htwelve)] at h
    dsimp only at h
    split at h
    · cases h
    case isFalse hfields =>
      simp only [Bool.or_eq_true, decide_eq_true_eq, not_or, UInt32.not_lt] at hfields
      obtain ⟨⟨⟨-, hleast⟩, hlimit⟩, -⟩ := hfields
      cases h
      rw [UInt32.le_iff_toNat_le] at hleast hlimit
      exact ⟨hleast, Nat.add_le_add_right hlimit 8, rfl⟩

/-- A file is taken only if the length its header gives is even and fits 32 bits. -/
theorem length_of_validate {reader : WavReader} {bytes : List UInt8} {before payload : WavPayload}
    (hreads : reader.Reads bytes) (hlength : 12 ≤ bytes.length)
    (h : validatePcm24Mono48kWav reader before = .ok payload) :
    (readU32 (slice bytes 0 12) 4).toNat % 2 = 0 ∧
      (readU32 (slice bytes 0 12) 4).toNat + 8 ≤ uint32Max := by
  unfold validatePcm24Mono48kWav validatePcmMono48kWav validatePcmWav parseRiff at h
  cases hheader : readRiffHeader reader with
  | error error =>
    rw [hheader] at h
    cases h
  | ok state =>
    obtain ⟨hleast, hlimit, rfl⟩ := end_of_readRiffHeader hreads hlength hheader
    rw [hheader] at h
    dsimp only at h
    have h8 : (8 : UInt32).toNat = 8 := rfl
    have hend : (readU32 (slice bytes 0 12) 4 + 8).toNat =
        (readU32 (slice bytes 0 12) 4).toNat + 8 :=
      toNat_add32 (by unfold uint32Max at hlimit; rw [h8]; omega)
    have hcursor : (12 : UInt32) ≤ readU32 (slice bytes 0 12) 4 + 8 := by
      rw [UInt32.le_iff_toNat_le, hend]
      exact Nat.add_le_add_right hleast 8
    split at h
    · cases h
    case h_2 hwalk =>
      have heven : (readU32 (slice bytes 0 12) 4 + 8).toNat % 2 = 0 :=
        even_of_walkChunks (by show (12 : UInt32).toNat % 2 = 0; decide) hcursor hwalk
      exact ⟨by omega, hlimit⟩

/-! ## The generator's header -/

theorem readU32_header (dataBytes : UInt32) (payload : List UInt8) :
    readU32 (slice (header 3 dataBytes ++ payload) 0 12) 4 = 36 + dataBytes := by
  have hslice : slice (header 3 dataBytes ++ payload) 0 12 =
      tag "RIFF" ++ (le32 (36 + dataBytes) ++ tag "WAVE") := rfl
  rw [hslice]
  exact readU32_le32 (tag "RIFF") (tag "WAVE") _

theorem length_header (dataBytes : UInt32) : (header 3 dataBytes).length = 44 := rfl

/-- With an even payload, which needs no pad byte, the file is the one the artifact writer leaves. -/
theorem header_append_eq_wavFile {payload : List UInt8} (heven : payload.length % 2 = 0)
    (hlength : payload.length ≤ uint32Max) :
    header 3 (.ofNat payload.length) ++ payload = wavFile ⟨48000, 1⟩ payload := by
  have hpad : UInt32.ofNat payload.length &&& 1 = 0 := by
    rw [← UInt32.toNat_inj, and_one_toNat,
      toNat_ofNat32 (by unfold uint32Max at hlength; omega), heven]
    rfl
  have hheader : header 3 (.ofNat payload.length) =
      Pcm24ArtifactWriter.makeHeader ⟨48000, 1⟩ (.ofNat payload.length) := by
    unfold Pcm24ArtifactWriter.makeHeader
    dsimp only
    rw [hpad, UInt32.add_zero]
    rfl
  rw [wavFile, padding, if_neg (by omega), List.append_nil, hheader]

namespace Job

section
variable {ε ρ σ α : Type} {a : Adapters ε ρ σ} {holds : σ → List UInt8}

/-- A job that has written its header and `payload` behind it. -/
structure Written (holds : σ → List UInt8) (job : Job ε ρ σ) (payload : List UInt8) : Prop where
  sampleBytes : job.generator.sampleBytes = 3
  fits : 36 + 3 * job.generator.totalFrames ≤ uint32Max
  sink : holds job.sink = header 3 (.ofNat (job.generator.totalFrames * 3)) ++ payload
  digest : job.generator.wavDigest = holds job.sink
  pcm : job.generator.pcmDigest = payload
  length : payload.length = 3 * job.generator.framesWritten
  le : job.generator.framesWritten ≤ job.generator.totalFrames

/-- What holds of a job for `totalFrames` frames unless it has failed. -/
structure Sound (holds : σ → List UInt8) (totalFrames : Nat) (job : Job ε ρ σ) : Prop where
  begun : job.generator.state ≠ .idle
  total : job.generator.totalFrames = totalFrames
  running : job.generator.state = .running → ∃ payload, job.Written holds payload
  complete : job.generator.state = .complete →
    ∃ payload, job.Written holds payload ∧ job.generator.framesWritten = totalFrames
  consumed : job.generator.state = .complete →
    job.generator.payloadRead = job.generator.payloadBytes

/-- Steps of the given sizes. -/
def steps (a : Adapters ε ρ σ) (job : Job ε ρ σ) (sizes : List Nat) : Job ε ρ σ :=
  sizes.foldl (fun job size => job.step a size) job

/-! ## One step -/

/-- The encoder's reads count its payload and change nothing else of the generator. -/
theorem call_keeps (job : Job ε ρ σ) (reads : Reads (α × ε)) :
    (job.call a reads).2.sink = job.sink ∧
      (job.call a reads).2.generator =
        { job.generator with
          payloadRead := (job.call a reads).2.generator.payloadRead
          payloadDigest := (job.call a reads).2.generator.payloadDigest } := by
  induction reads generalizing job with
  | ret result => exact ⟨rfl, rfl⟩
  | read capacity next ih =>
    obtain ⟨hsink, hgenerator⟩ := ih (job.read a capacity).1 (job.read a capacity).2
    have hread : (job.read a capacity).2.sink = job.sink ∧
        (job.read a capacity).2.generator =
          { job.generator with
            payloadRead := (job.read a capacity).2.generator.payloadRead
            payloadDigest := (job.read a capacity).2.generator.payloadDigest } := by
      unfold read
      dsimp only
      split
      · exact ⟨rfl, rfl⟩
      · exact ⟨rfl, rfl⟩
    refine ⟨hsink.trans hread.1, ?_⟩
    show (call a (job.read a capacity).2 (next (job.read a capacity).1)).2.generator = _
    rw [hgenerator, hread.2]
    rfl

theorem Written.call {job : Job ε ρ σ} {payload : List UInt8} (h : job.Written holds payload)
    (reads : Reads (α × ε)) : (job.call a reads).2.Written holds payload := by
  obtain ⟨hsink, hgenerator⟩ := call_keeps (a := a) job reads
  generalize (job.call a reads).2 = after at *
  refine ⟨?_, ?_, ?_, ?_, ?_, ?_, ?_⟩ <;> rw [hgenerator]
  · exact h.sampleBytes
  · exact h.fits
  · rw [hsink]
    exact h.sink
  · rw [hsink]
    exact h.digest
  · exact h.pcm
  · exact h.length
  · exact h.le

theorem sound_fail {job : Job ε ρ σ} {totalFrames : Nat}
    (htotal : job.generator.totalFrames = totalFrames) (status : Status) :
    (job.fail a status).Sound holds totalFrames :=
  ⟨fun h => (by cases h), htotal, fun h => (by cases h), fun h => (by cases h),
    fun h => (by cases h)⟩

theorem length_flatMap_packSample (frames : List Binary32) :
    (frames.flatMap (packSample 3)).length = 3 * frames.length := by
  induction frames with
  | nil => rfl
  | cons sample frames ih =>
    rw [List.flatMap_cons, List.length_append, ih, packSample, if_pos rfl, length_writePcm24Le,
      List.length_cons]
    omega

theorem Written.writeFrames (hsink : a.sink.Keeps holds) {job : Job ε ρ σ}
    {payload : List UInt8} (h : job.Written holds payload)
    (hstate : job.generator.state = .running) {frames : List Binary32}
    (hroom : job.generator.framesWritten + frames.length ≤ job.generator.totalFrames) :
    (job.writeFrames a frames).Sound holds job.generator.totalFrames := by
  unfold Job.writeFrames
  dsimp only
  split
  · exact sound_fail rfl _
  split
  · exact sound_fail rfl _
  split
  · exact sound_fail (by rfl) _
  case isFalse hwritten =>
    rw [h.sampleBytes] at hwritten
    rw [Bool.not_eq_true, Bool.not_eq_false'] at hwritten
    have hholds := hsink.write _ _ hwritten
    have hnext : ∀ generator : WavGenerator, generator.sampleBytes = 3 →
        generator.totalFrames = job.generator.totalFrames →
        generator.wavDigest = job.generator.wavDigest ++
          frames.flatMap (packSample job.generator.sampleBytes) →
        generator.pcmDigest = job.generator.pcmDigest ++
          frames.flatMap (packSample job.generator.sampleBytes) →
        generator.framesWritten = job.generator.framesWritten + frames.length →
        Written holds
          { job with
            generator
            sink := (a.sink.write job.sink
              (frames.flatMap (packSample job.generator.sampleBytes))).2 }
          (payload ++ frames.flatMap (packSample 3)) := by
      intro generator hbytes htotal hdigest hpcm hframes
      refine ⟨hbytes, htotal ▸ h.fits, ?_, ?_, ?_, ?_, ?_⟩
      · rw [htotal, h.sampleBytes]
        exact hholds.trans (by rw [h.sink, List.append_assoc])
      · rw [h.sampleBytes] at hdigest ⊢
        exact hdigest.trans ((congrArg (· ++ _) h.digest).trans hholds.symm)
      · rw [hpcm, h.pcm, h.sampleBytes]
      · rw [List.length_append, h.length, length_flatMap_packSample, hframes, Nat.mul_add]
      · rw [htotal, hframes]
        exact hroom
    split
    case isTrue hlast =>
      split
      · exact sound_fail (by rfl) _
      case isFalse hread =>
        rw [ne_eq, Decidable.not_not] at hread
        exact ⟨fun h => (by cases h), rfl, fun h => (by cases h),
          fun _ => ⟨_, hnext _ h.sampleBytes rfl rfl rfl rfl, hlast⟩, fun _ => hread⟩
    · exact ⟨fun hidle => (by rw [hstate] at hidle; cases hidle), rfl,
        fun _ => ⟨_, hnext _ h.sampleBytes rfl rfl rfl rfl⟩,
        fun hcomplete => (by rw [hstate] at hcomplete; cases hcomplete),
        fun hcomplete => (by rw [hstate] at hcomplete; cases hcomplete)⟩

theorem length_padFrames_le {generator : WavGenerator} {limit : Nat} {frames : List Binary32}
    (h : frames.length ≤ limit) : (padFrames generator limit frames).length ≤ limit := by
  unfold padFrames
  split
  · rw [List.length_append, List.length_replicate]
    omega
  · exact h

theorem Sound.step (hsink : a.sink.Keeps holds) {totalFrames : Nat} {job : Job ε ρ σ}
    (h : job.Sound holds totalFrames) (maxFrames : Nat) :
    (job.step a maxFrames).Sound holds totalFrames := by
  unfold Job.step
  split
  · exact h
  case isFalse hready =>
    simp only [Bool.or_eq_true, decide_eq_true_eq, not_or, ne_eq, Decidable.not_not] at hready
    obtain ⟨hstate, -⟩ := hready
    obtain ⟨payload, hwritten⟩ := h.running hstate
    have hle := hwritten.le
    have htotal := h.total
    dsimp only
    generalize hlimit : min (min maxFrames maximumStepFrames)
      (job.generator.totalFrames - job.generator.framesWritten) = limit
    have hroom : job.generator.framesWritten + limit ≤ job.generator.totalFrames := by omega
    split
    · generalize hrequest :
        min limit (job.generator.waveformFrames - job.generator.framesWritten) = request
      have hcall := hwritten.call (a := a) (a.source.readFloat job.source request)
      obtain ⟨-, hgenerator⟩ := call_keeps (a := a) job (a.source.readFloat job.source request)
      generalize job.call a (a.source.readFloat job.source request) = called at *
      obtain ⟨frames, after⟩ := called
      replace hcall : after.Written holds payload := hcall
      have htotal' : after.generator.totalFrames = totalFrames := by rw [hgenerator, htotal]
      have hstate' : after.generator.state = .running := by rw [hgenerator, hstate]
      have hframes : after.generator.framesWritten = job.generator.framesWritten := by
        rw [hgenerator]
      dsimp only
      split
      · exact sound_fail htotal' _
      split
      · exact sound_fail htotal' _
      case isFalse hcount =>
        simp only [Bool.or_eq_true, decide_eq_true_eq, not_or] at hcount
        have hpad : (padFrames after.generator limit frames).length ≤ limit :=
          length_padFrames_le (by omega)
        rw [← htotal']
        exact hcall.writeFrames hsink hstate' (by omega)
    · have hpad : (padFrames job.generator limit []).length ≤ limit :=
        length_padFrames_le (Nat.zero_le limit)
      rw [← htotal]
      exact hwritten.writeFrames hsink hstate (by omega)

theorem Sound.steps (hsink : a.sink.Keeps holds) {totalFrames : Nat} {job : Job ε ρ σ}
    (h : job.Sound holds totalFrames) (sizes : List Nat) :
    (job.steps a sizes).Sound holds totalFrames := by
  unfold Job.steps
  induction sizes generalizing job with
  | nil => exact h
  | cons size sizes ih => exact ih (h.step hsink size)

/-! ## Begin -/

theorem sound_writeHeader (hsink : a.sink.Keeps holds) {job : Job ε ρ σ}
    (hempty : holds job.sink = []) (hbytes : job.generator.sampleBytes = 3)
    (hframes : job.generator.framesWritten = 0) (hdigest : job.generator.wavDigest = [])
    (hpcm : job.generator.pcmDigest = []) (silence : UInt32)
    (hok : (job.writeHeader a silence).1.isOk = true) :
    (job.writeHeader a silence).2.Sound holds
        ((a.source.totalFrames (job.writeHeader a silence).2.source).toNat + silence.toNat) ∧
      (0 < silence.toNat → (job.writeHeader a silence).2.generator.state = .running) := by
  unfold writeHeader at hok ⊢
  rw [hbytes] at hok ⊢
  dsimp only at hok ⊢
  split at hok
  · cases hok
  case isFalse hlimit =>
    rw [if_neg hlimit]
    simp only [Bool.or_eq_true, decide_eq_true_eq, not_or, Nat.not_lt] at hlimit
    split at hok
    case isTrue hfailed =>
      exact absurd hok (Bool.eq_false_iff.mp ((Bool.not_eq_true' _).mp hfailed))
    case isFalse hwritten =>
      rw [if_neg hwritten]
      rw [Bool.not_eq_true, Bool.not_eq_false'] at hwritten
      have hholds := hsink.write _ _ hwritten
      rw [hempty, List.nil_append] at hholds
      have hstart : ∀ generator : WavGenerator, generator.sampleBytes = 3 →
          generator.framesWritten = 0 →
          generator.totalFrames = (a.source.totalFrames job.source).toNat + silence.toNat →
          generator.wavDigest = job.generator.wavDigest ++ header 3
            (.ofNat (((a.source.totalFrames job.source).toNat + silence.toNat) * 3)) →
          generator.pcmDigest = job.generator.pcmDigest →
          Written holds
            { job with
              generator
              sink := (a.sink.write job.sink (header 3
                (.ofNat (((a.source.totalFrames job.source).toNat + silence.toNat) * 3)))).2 }
            [] := by
        intro generator hbytes hframes htotal hheader hpcm'
        refine ⟨hbytes, ?_, ?_, ?_, hpcm'.trans hpcm, ?_, ?_⟩
        · rw [htotal]
          unfold uint32Max at hlimit ⊢
          omega
        · rw [htotal, List.append_nil]
          exact hholds
        · rw [hheader, hdigest]
          exact hholds.symm
        · rw [hframes]
          rfl
        · rw [hframes]
          exact Nat.zero_le _
      refine ⟨⟨fun hidle => ?_, rfl, fun _ => ⟨_, hstart _ hbytes hframes rfl rfl rfl⟩,
        fun hcomplete => ⟨_, hstart _ hbytes hframes rfl rfl rfl, ?_⟩, fun hcomplete => ?_⟩,
        fun hsilence => ?_⟩
      · dsimp only at hidle
        split at hidle <;> cases hidle
      · split at hcomplete
        case isTrue hnothing =>
          rw [Bool.and_eq_true, decide_eq_true_eq] at hnothing
          exact hframes.trans hnothing.1.symm
        · cases hcomplete
      · dsimp only at hcomplete
        split at hcomplete
        case isTrue hnothing =>
          rw [Bool.and_eq_true, decide_eq_true_eq, decide_eq_true_eq] at hnothing
          exact hnothing.2
        · cases hcomplete
      · refine if_neg fun hnothing => ?_
        rw [Bool.and_eq_true, decide_eq_true_eq] at hnothing
        omega

/-- A job begun: the total is what the configured encoder declares and the silence behind it. -/
theorem sound_begin (hsink : a.sink.Keeps holds) {job : Job ε ρ σ} (hempty : holds job.sink = [])
    (profile : String) (payloadBytes : Nat) (silence : UInt32)
    (hbegin : (job.begin a profile payloadBytes silence).1.isOk = true) :
    (job.begin a profile payloadBytes silence).2.Sound holds
        ((a.source.totalFrames (job.begin a profile payloadBytes silence).2.source).toNat +
          silence.toNat) ∧
      (0 < silence.toNat →
        (job.begin a profile payloadBytes silence).2.generator.state = .running) := by
  unfold Job.begin at hbegin ⊢
  dsimp only at hbegin ⊢
  rw [if_neg (by decide)] at hbegin ⊢
  have hready : (((job.stop a).reset payloadBytes).useEncoding .pcm24).sink = job.sink ∧
      (((job.stop a).reset payloadBytes).useEncoding .pcm24).generator.sampleBytes = 3 ∧
      (((job.stop a).reset payloadBytes).useEncoding .pcm24).generator.framesWritten = 0 ∧
      (((job.stop a).reset payloadBytes).useEncoding .pcm24).generator.wavDigest = [] ∧
      (((job.stop a).reset payloadBytes).useEncoding .pcm24).generator.pcmDigest = [] :=
    ⟨rfl, rfl, rfl, rfl, rfl⟩
  generalize ((job.stop a).reset payloadBytes).useEncoding .pcm24 = ready at *
  obtain ⟨hsinkReady, hbytes, hframes, hdigest, hpcm⟩ := hready
  obtain ⟨hsinkCall, hgenerator⟩ := call_keeps (a := a) ready
    (a.source.configure ready.source profile payloadBytes)
  split at hbegin
  case isTrue hfailed =>
    exact absurd hbegin (Bool.eq_false_iff.mp ((Bool.not_eq_true' _).mp hfailed))
  case isFalse hconfigured =>
    rw [if_neg hconfigured]
    refine sound_writeHeader hsink ?_ ?_ ?_ ?_ ?_ silence hbegin
    · rw [hsinkCall, hsinkReady, hempty]
    · rw [hgenerator, hbytes]
    · rw [hgenerator, hframes]
    · rw [hgenerator, hdigest]
    · rw [hgenerator, hpcm]

/-! ## What a job does to its sink -/

section
variable {Q : σ → Prop}

theorem sink_writeFrames (hwrite : ∀ s data, Q s → Q (a.sink.write s data).2)
    {job : Job ε ρ σ} (h : Q job.sink) (frames : List Binary32) :
    Q (job.writeFrames a frames).sink := by
  unfold Job.writeFrames
  dsimp only
  repeat' split
  all_goals first | exact h | exact hwrite _ _ h

/-- A step does nothing to its sink but write. -/
theorem sink_step (hwrite : ∀ s data, Q s → Q (a.sink.write s data).2)
    {job : Job ε ρ σ} (h : Q job.sink) (maxFrames : Nat) : Q (job.step a maxFrames).sink := by
  have hcall : ∀ request : Nat, Q (job.call a (a.source.readFloat job.source request)).2.sink := by
    intro request
    rw [(call_keeps job _).1]
    exact h
  unfold Job.step
  dsimp only
  split
  · exact h
  split
  · split
    · exact hcall _
    split
    · exact hcall _
    · exact sink_writeFrames hwrite (hcall _) _
  · exact sink_writeFrames hwrite h _

theorem sink_writeHeader (hwrite : ∀ s data, Q s → Q (a.sink.write s data).2)
    {job : Job ε ρ σ} (h : Q job.sink) (silence : UInt32) :
    Q (job.writeHeader a silence).2.sink := by
  unfold writeHeader
  dsimp only
  repeat' split
  all_goals first | exact h | exact hwrite _ _ h

/-- Nor does `begin`. -/
theorem sink_begin (hwrite : ∀ s data, Q s → Q (a.sink.write s data).2)
    {job : Job ε ρ σ} (h : Q job.sink) (profile : String) (payloadBytes : Nat) (silence : UInt32)
    (encoding : WavEncoding) :
    Q (job.begin a profile payloadBytes silence encoding).2.sink := by
  unfold Job.begin
  dsimp only
  split
  · exact h
  · generalize hready : ((job.stop a).reset payloadBytes).useEncoding encoding = ready
    have hsink : ready.sink = job.sink := by
      rw [← hready]
      rfl
    have hcall : Q (ready.call a (a.source.configure ready.source profile payloadBytes)).2.sink := by
      rw [(call_keeps ready _).1, hsink]
      exact h
    split
    · exact hcall
    · exact sink_writeHeader hwrite hcall silence

end

/-! ## What a job does to its payload -/

section
variable {Q : ρ → Nat → Nat → List UInt8 → Prop}

/-- What holds of the payload, its declared size, and what was read of it. -/
def Accounted (Q : ρ → Nat → Nat → List UInt8 → Prop) (job : Job ε ρ σ) : Prop :=
  Q job.payload job.generator.payloadBytes job.generator.payloadRead job.generator.payloadDigest

theorem accounted_call
    (hread : ∀ (job : Job ε ρ σ) capacity, job.Accounted Q → (job.read a capacity).2.Accounted Q)
    {job : Job ε ρ σ} (h : job.Accounted Q) (reads : Reads (α × ε)) :
    (job.call a reads).2.Accounted Q := by
  induction reads generalizing job with
  | ret _ => exact h
  | read capacity next ih => exact ih _ (hread job capacity h)

theorem accounted_writeFrames {job : Job ε ρ σ} (h : job.Accounted Q) (frames : List Binary32) :
    (job.writeFrames a frames).Accounted Q := by
  unfold Job.writeFrames
  dsimp only
  repeat' split
  all_goals exact h

/-- A step does nothing to its payload but read. -/
theorem accounted_step
    (hread : ∀ (job : Job ε ρ σ) capacity, job.Accounted Q → (job.read a capacity).2.Accounted Q)
    {job : Job ε ρ σ} (h : job.Accounted Q) (maxFrames : Nat) :
    (job.step a maxFrames).Accounted Q := by
  have hcall (request : Nat) :
      (job.call a (a.source.readFloat job.source request)).2.Accounted Q :=
    accounted_call hread h _
  unfold Job.step
  dsimp only
  split
  · exact h
  split
  · split
    · exact hcall _
    split
    · exact hcall _
    · exact accounted_writeFrames (hcall _) _
  · exact accounted_writeFrames h _

theorem accounted_steps
    (hread : ∀ (job : Job ε ρ σ) capacity, job.Accounted Q → (job.read a capacity).2.Accounted Q)
    {job : Job ε ρ σ} (h : job.Accounted Q) (sizes : List Nat) :
    (job.steps a sizes).Accounted Q := by
  unfold Job.steps
  induction sizes generalizing job with
  | nil => exact h
  | cons size sizes ih => exact ih (accounted_step hread h size)

/-- Nor does `begin`, which starts the count anew. -/
theorem accounted_begin
    (hread : ∀ (job : Job ε ρ σ) capacity, job.Accounted Q → (job.read a capacity).2.Accounted Q)
    {job : Job ε ρ σ} {payloadBytes : Nat} (h : Q job.payload payloadBytes 0 []) (profile : String)
    (silence : UInt32) (encoding : WavEncoding) :
    (job.begin a profile payloadBytes silence encoding).2.Accounted Q := by
  have hready : (((job.stop a).reset payloadBytes).useEncoding encoding).Accounted Q := h
  unfold Job.begin
  dsimp only
  split
  · exact h
  · generalize ((job.stop a).reset payloadBytes).useEncoding encoding = ready at hready ⊢
    have hcall := accounted_call hread hready (a.source.configure ready.source profile payloadBytes)
    split
    · exact hcall
    · unfold writeHeader
      dsimp only
      repeat' split
      all_goals exact hcall

end

/-! ## A complete job -/

/-- The file of a complete job is taken, its payload at 44 and three bytes a frame, exactly if the
number of its frames is even and its length fits 32 bits. -/
theorem generated_playable_iff (hsink : a.sink.Keeps holds) {job : Job ε ρ σ}
    (hempty : holds job.sink = []) {profile : String} {payloadBytes : Nat} {silence : UInt32}
    (hbegin : (job.begin a profile payloadBytes silence).1.isOk = true) {sizes : List Nat}
    (hcomplete :
      ((job.begin a profile payloadBytes silence).2.steps a sizes).generator.state = .complete)
    (hframes :
      0 < ((job.begin a profile payloadBytes silence).2.steps a sizes).generator.totalFrames)
    {reader : WavReader}
    (hreads :
      reader.Reads (holds ((job.begin a profile payloadBytes silence).2.steps a sizes).sink))
    (before : WavPayload) :
    let begun := (job.begin a profile payloadBytes silence).2
    let frames := (a.source.totalFrames begun.source).toNat + silence.toNat
    (∃ payload, validatePcm24Mono48kWav reader before = .ok payload ∧ payload.offset = 44 ∧
        payload.bytes.toNat = 3 * (begun.steps a sizes).generator.totalFrames) ↔
      frames % 2 = 0 ∧ 44 + 3 * frames ≤ uint32Max := by
  intro begun frames
  have hsound : (begun.steps a sizes).Sound holds frames :=
    (sound_begin hsink hempty profile payloadBytes silence hbegin).1.steps hsink sizes
  change (begun.steps a sizes).generator.state = .complete at hcomplete
  change 0 < (begun.steps a sizes).generator.totalFrames at hframes
  change reader.Reads (holds (begun.steps a sizes).sink) at hreads
  generalize begun.steps a sizes = finished at *
  obtain ⟨payload, hwritten, hall⟩ := hsound.complete hcomplete
  have htotal := hsound.total
  have hfits := hwritten.fits
  have hlength : payload.length = 3 * frames := by rw [hwritten.length, hall]
  have hfile : holds finished.sink = header 3 (.ofNat payload.length) ++ payload := by
    rw [hwritten.sink, hlength, htotal, Nat.mul_comm]
  have hn : (UInt32.ofNat payload.length).toNat = payload.length :=
    toNat_ofNat32 (by unfold uint32Max at hfits; omega)
  rw [hfile] at hreads
  rw [htotal] at hfits hframes ⊢
  constructor
  · rintro ⟨found, haccept, -⟩
    obtain ⟨heven, hsize⟩ := length_of_validate hreads
      (by rw [List.length_append, length_header]; omega) haccept
    have h36 : (36 : UInt32).toNat = 36 := rfl
    rw [readU32_header, toNat_add32 (by rw [h36, hn]; unfold uint32Max at hfits; omega), h36, hn,
      hlength] at heven hsize
    exact ⟨by omega, by omega⟩
  · rintro ⟨heven, hsize⟩
    have hparity : payload.length % 2 = 0 := by omega
    rw [header_append_eq_wavFile hparity (by omega)] at hreads
    have hfitsWriter : Fits payload.length := by
      unfold Fits
      omega
    have haccept : validatePcm24Mono48kWav reader before =
        .ok ⟨44, .ofNat payload.length, 24, 3⟩ :=
      validate_wavFile hreads hfitsWriter (by rw [length_wavFile]; omega) (by decide) rfl
        (by rw [hlength]; show 3 * frames % 3 = 0; omega)
        (List.ne_nil_of_length_pos (by omega)) before
    exact ⟨_, haccept, rfl, by rw [← hlength]; exact hn⟩

end

/-! ## A sample a byte -/

/-- An encoder of one sample a payload byte, its state the frames it declares; the payload and the
sink in memory. -/
def byteAdapters : Adapters Nat (List UInt8) (List UInt8) where
  source :=
    { configure := fun frames _ _ => .ret (.success, frames)
      totalFrames := fun frames => .ofNat frames
      readFloat := fun frames capacity => .read capacity fun bytes =>
        .ret (bytes.map fun byte => ⟨0x3F000000 + byte.toUInt32⟩, frames)
      status := fun _ => .success
      stop := id }
  payload := { read := fun payload capacity => (payload.take capacity, payload.drop capacity) }
  sink := { write := fun held bytes => (.success, held ++ bytes) }

theorem keeps_byteAdapters : byteAdapters.sink.Keeps id := ⟨fun _ _ _ => rfl⟩

def byteReady (payload : List UInt8) : Job Nat (List UInt8) (List UInt8) :=
  { source := payload.length, payload, sink := [] }

/-- A job over `payload` with no silence behind it, begun. -/
def byteJob (payload : List UInt8) : Status × Job Nat (List UInt8) (List UInt8) :=
  begin byteAdapters (byteReady payload) "" payload.length 0

theorem generated_playable_iff_twoFrames :
    ∃ payload,
      validatePcm24Mono48kWav (readerOf ((byteJob [1, 2]).2.steps byteAdapters [1, 5]).sink) {} =
          .ok payload ∧
        payload.offset = 44 ∧ payload.bytes.toNat =
          3 * ((byteJob [1, 2]).2.steps byteAdapters [1, 5]).generator.totalFrames :=
  (generated_playable_iff keeps_byteAdapters (rfl : id (byteReady [1, 2]).sink = []) (by decide +kernel) (by decide +kernel) (by decide +kernel)
    (reads_readerOf _) {}).mpr (by decide +kernel)

/-- One frame: the job completes a file of 47 bytes, and the validator does not take it. -/
theorem one_frame_refused :
    (byteJob [1]).1.isOk = true ∧
      ((byteJob [1]).2.steps byteAdapters [2048]).generator.state = .complete ∧
      ((byteJob [1]).2.steps byteAdapters [2048]).generator.totalFrames = 1 ∧
      ∀ before payload,
        validatePcm24Mono48kWav
          (readerOf ((byteJob [1]).2.steps byteAdapters [2048]).sink) before ≠ .ok payload := by
  refine ⟨by decide +kernel, by decide +kernel, by decide +kernel, ?_⟩
  intro before payload haccept
  have hodd := (length_of_validate (reads_readerOf _) (by decide +kernel) haccept).1
  exact absurd hodd (by decide +kernel)

end Job
end WaveformGenerator.Source
