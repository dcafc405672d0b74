import WaveformGenerator.Artifact.Image

/-!
# Reading back what is committed

Over any run of an owner's operations, from a fresh file: what is read is what was last written
there, what is committed stays, and the handle is back after every read. While only the writer
writes, what is read is what was appended, and the handle is at the end of it.
-/

namespace WaveformGenerator.Artifact

namespace Kept

variable (env : Nat → FatFsOutcome) {payload : List UInt8} {finished : Bool}
  {a : PreparedArtifact}

/-- The stream stops under the writer. -/
theorem stop (h : Kept payload finished a) {b : Binding} (hstopped : Stopped payload b) :
    Kept payload finished ⟨a.writer, b⟩ where
  whole := h.whole
  fits := h.fits
  active := h.active
  failed := h.failed
  holds := hstopped.holds
  tidy hok := absurd hok (by simp [hstopped.failure])

/-- The stream goes on with the file as it was. -/
theorem go (h : Kept payload finished a) (hclean : a.binding.stream.failure.isOk = true)
    {card : CardFile} (hbytes : card.bytes = a.binding.file.bytes)
    (hposition : card.position = a.binding.stream.writerCursor) {frames : Nat}
    (hframes : frames * 3 ≤ payload.length) :
    Kept payload finished
      ⟨a.writer, ⟨card, { a.binding.stream with committedFrames := frames }⟩⟩ := by
  obtain ⟨htidy, hinside⟩ := h.tidy hclean
  refine ⟨h.whole, h.fits, h.active, h.failed, ⟨?_, ?_, hframes⟩,
    fun _ => ⟨⟨hposition, htidy.cursor, htidy.extent⟩, ?_⟩⟩
  · exact (congrArg (slice · 44 payload.length) hbytes).trans h.holds.stored
  · exact h.holds.room.trans_eq (congrArg List.length hbytes.symm)
  · exact hinside.trans_eq (congrArg List.length hbytes.symm)

theorem commitFrames (h : Kept payload finished a) (frames : Nat) :
    Kept payload finished ⟨a.writer, (a.binding.commitFrames env frames).2⟩ ∧
      a.binding.stream.committedFrames ≤
        (a.binding.commitFrames env frames).2.stream.committedFrames := by
  by_cases hlive : a.binding.Live
  · have hcommits : Binding.Commits a.binding frames (a.binding.commitFrames env frames) :=
      Binding.commits hlive frames
    generalize a.binding.commitFrames env frames = outcome at hcommits ⊢
    cases hcommits with
    | refused _ => exact ⟨h, Nat.le_refl _⟩
    | latched hfailure hbytes =>
      exact ⟨h.stop ⟨h.holds.of_bytes hbytes rfl, hfailure⟩, Nat.le_refl _⟩
    | @done card hmore hextent hfile =>
      obtain ⟨htidy, -⟩ := h.tidy hlive.clean
      have hwhole := h.whole
      have hend := htidy.extent
      unfold endOf at hend
      have hpad : (if finished then payload.length % 2 else 0) ≤ 1 := by
        split <;> omega
      exact ⟨h.go hlive.clean (congrArg ByteFile.bytes hfile)
        ((congrArg ByteFile.position hfile).trans htidy.position) (by omega), hmore⟩
  · rw [Binding.commitFrames_of_not_live hlive]
    exact ⟨h, Nat.le_refl _⟩

/-- What a read leaves. -/
structure ReadBack (env : Nat → FatFsOutcome) (payload : List UInt8) (finished : Bool)
    (before : Binding) (firstFrame count : Nat) (outcome : Result (List UInt8) × Binding) :
    Prop where
  /-- The bytes are those appended for the frames. -/
  exact : ∀ data, outcome.1 = .ok data →
    firstFrame * 3 + count ≤ before.stream.committedFrames * 3 ∧
      data = slice payload (firstFrame * 3) count ∧ data.length = count
  /-- The handle is back at the end of what is written, unless the seek back is what failed. -/
  restored : before.stream.failure.isOk = true →
    outcome.2.stream.writerCursor = endOf payload finished ∧
      (outcome.2.file.position = outcome.2.stream.writerCursor ∨
        outcome.2.stream.failure.isOk = false ∧
          ∃ n position, env (outcome.2.file.calls - 1) = .failed n position)
  bytes : outcome.2.file.bytes = before.file.bytes
  committed : outcome.2.stream.committedFrames = before.stream.committedFrames

theorem readFrames (h : Kept payload finished a) (firstFrame count : Nat) :
    Kept payload finished ⟨a.writer, (a.binding.readFrames env firstFrame count).2⟩ ∧
      ReadBack env payload finished a.binding firstFrame count
        (a.binding.readFrames env firstFrame count) := by
  by_cases hlive : a.binding.Live
  · obtain ⟨htidy, hinside⟩ := h.tidy hlive.clean
    have hreads : Binding.Reads env a.binding firstFrame count
      (a.binding.readFrames env firstFrame count) := Binding.reads hlive firstFrame count
    generalize a.binding.readFrames env firstFrame count = outcome at hreads ⊢
    cases hreads with
    | refused =>
      exact ⟨h, (fun _ hdata => nomatch hdata), fun _ => ⟨htidy.cursor, .inl htidy.position⟩, rfl,
        rfl⟩
    | latched hfailure hbytes hposition =>
      refine ⟨h.stop ⟨h.holds.of_bytes hbytes rfl, hfailure⟩, (fun _ hdata => nomatch hdata),
        fun _ => ⟨htidy.cursor, ?_⟩, hbytes, rfl⟩
      exact hposition.imp id fun hlast => ⟨hfailure, hlast⟩
    | @done card data hrange hdata hlength hfile =>
      have hbytes : card.bytes = (a.binding.file.seek a.binding.stream.writerCursor).bytes :=
        congrArg ByteFile.bytes hfile
      have hposition : card.position = a.binding.stream.writerCursor :=
        congrArg ByteFile.position hfile
      have hcommitted := h.holds.committed
      refine ⟨h.go hlive.clean hbytes hposition hcommitted, ?_,
        fun _ => ⟨htidy.cursor, .inl hposition⟩, hbytes, rfl⟩
      intro _ hok
      cases hok
      refine ⟨hrange, ?_, hlength⟩
      rw [hdata, ← slice_slice (by omega : firstFrame * 3 + count ≤ payload.length),
        h.holds.stored]
  · obtain ⟨status, hsame⟩ : ∃ status,
        a.binding.readFrames env firstFrame count = (.error status, a.binding) :=
      Binding.readFrames_of_not_live hlive firstFrame count
    rw [hsame]
    refine ⟨h, (fun _ hdata => nomatch hdata), fun hclean => ?_, rfl, rfl⟩
    obtain ⟨htidy, -⟩ := h.tidy hclean
    exact ⟨htidy.cursor, .inl htidy.position⟩

end Kept

/-! ## Runs -/

/-- What holds of an operation behind a run that appended `payload` and wrote nothing else. -/
structure Event.Sound (env : Nat → FatFsOutcome) (payload : List UInt8) (finished : Bool)
    (e : Event) : Prop where
  /-- What a read gives is what was appended for its frames, which are committed. -/
  exact : ∀ firstFrame count data, e.operation = .readFrames firstFrame count →
    e.answer = .output (.ok data) →
    firstFrame * 3 + count ≤ e.before.binding.stream.committedFrames * 3 ∧
      data = slice payload (firstFrame * 3) count ∧ data.length = count
  /-- A live stream reads any range of committed frames its scratch holds, if the card answers. -/
  readable : ∀ firstFrame count, e.operation = .readFrames firstFrame count →
    e.before.binding.Live → 0 < count → count % 3 = 0 →
    firstFrame * 3 + count ≤ e.before.binding.stream.committedFrames * 3 →
    (44 + firstFrame * 3) % 4 + count ≤ e.before.binding.stream.scratchBytes →
    (∀ call < 3, env (e.before.binding.file.calls + call) = .done) →
    e.answer = .output (.ok (slice payload (firstFrame * 3) count))
  /-- What is committed stays what it was. -/
  writeOnce : slice e.after.binding.file.bytes 44 (e.before.binding.stream.committedFrames * 3) =
    slice e.before.binding.file.bytes 44 (e.before.binding.stream.committedFrames * 3)
  /-- After a read the handle is back at the end of what is written, unless the seek back is what
  failed. -/
  restored : ∀ firstFrame count, e.operation = .readFrames firstFrame count →
    e.before.binding.stream.failure.isOk = true →
    e.after.binding.stream.writerCursor = endOf payload finished ∧
      (e.after.binding.file.position = e.after.binding.stream.writerCursor ∨
        e.after.binding.stream.failure.isOk = false ∧
          ∃ n position, env (e.after.binding.file.calls - 1) = .failed n position)
  /-- The watermark only moves up, and not past what is appended. -/
  watermark : e.before.binding.stream.committedFrames ≤
      e.after.binding.stream.committedFrames ∧
    e.after.binding.stream.committedFrames * 3 ≤ (payload ++ e.appended).length

/-- An operation that keeps the invariant keeps what is committed. -/
theorem writeOnce_of_kept {payload payload' : List UInt8} {finished finished' : Bool}
    {a a' : PreparedArtifact} (h : Kept payload finished a)
    (h' : Kept (payload ++ payload') finished' a') :
    slice a'.binding.file.bytes 44 (a.binding.stream.committedFrames * 3) =
      slice a.binding.file.bytes 44 (a.binding.stream.committedFrames * 3) := by
  have hcommitted := h.holds.committed
  have hlonger : a.binding.stream.committedFrames * 3 ≤ (payload ++ payload').length := by
    rw [List.length_append]
    omega
  have hbefore : slice a.binding.file.bytes 44 (a.binding.stream.committedFrames * 3) =
      slice payload 0 (a.binding.stream.committedFrames * 3) := by
    conv_rhs => rw [← h.holds.stored, slice_slice (by omega)]
  have hafter : slice a'.binding.file.bytes 44 (a.binding.stream.committedFrames * 3) =
      slice (payload ++ payload') 0 (a.binding.stream.committedFrames * 3) := by
    conv_rhs => rw [← h'.holds.stored, slice_slice (by omega)]
  rw [hbefore, hafter, slice_append_left (by omega)]

variable (env : Nat → FatFsOutcome) (sha256Hex : List UInt8 → String) {payload : List UInt8}
  {finished : Bool} {a : PreparedArtifact}

/-- Every operation of the writer's, and every commit and read, keeps the invariant and the
watermark. -/
theorem Kept.perform (h : Kept payload finished a) {operation : Operation}
    (hraw : operation.isRaw = false) :
    Kept (payload ++ (a.event env sha256Hex operation).appended)
        (finished || (a.event env sha256Hex operation).finished)
        (a.event env sha256Hex operation).after ∧
      a.binding.stream.committedFrames ≤
        (a.event env sha256Hex operation).after.binding.stream.committedFrames := by
  cases operation with
  | writeExact | seek => cases hraw
  | append packed =>
    obtain ⟨hkept, hsame⟩ := h.append env packed
    refine ⟨?_, Nat.le_of_eq hsame.symm⟩
    rw [show (a.event env sha256Hex (.append packed)).finished = false from rfl, Bool.or_false]
    exact hkept
  | commitFrames frames =>
    obtain ⟨hkept, hmore⟩ := h.commitFrames env frames
    rw [show (a.event env sha256Hex (.commitFrames frames)).appended = [] from rfl,
      show (a.event env sha256Hex (.commitFrames frames)).finished = false from rfl,
      Bool.or_false, List.append_nil]
    exact ⟨hkept, hmore⟩
  | readFrames firstFrame count =>
    obtain ⟨hkept, hread⟩ := h.readFrames env firstFrame count
    rw [show (a.event env sha256Hex (.readFrames firstFrame count)).appended = [] from rfl,
      show (a.event env sha256Hex (.readFrames firstFrame count)).finished = false from rfl,
      Bool.or_false, List.append_nil]
    exact ⟨hkept, Nat.le_of_eq hread.committed.symm⟩
  | finish =>
    obtain ⟨hkept, hsame⟩ := h.finish env sha256Hex {}
    refine ⟨?_, Nat.le_of_eq hsame.symm⟩
    rw [show (a.event env sha256Hex .finish).appended = [] from rfl, List.append_nil]
    exact hkept
  | cancel =>
    rw [show (a.event env sha256Hex .cancel).appended = [] from rfl,
      show (a.event env sha256Hex .cancel).finished = false from rfl, Bool.or_false,
      List.append_nil]
    exact ⟨⟨h.whole, h.fits, (fun hactive => nomatch hactive), (fun hfailed => nomatch hfailed),
      h.holds, h.tidy⟩, Nat.le_refl _⟩
  | unbind =>
    rw [show (a.event env sha256Hex .unbind).appended = [] from rfl,
      show (a.event env sha256Hex .unbind).finished = false from rfl, Bool.or_false,
      List.append_nil]
    refine ⟨⟨h.whole, h.fits, h.active, h.failed,
      ⟨h.holds.stored, h.holds.room, h.holds.committed⟩, fun hclean => ?_⟩, Nat.le_refl _⟩
    obtain ⟨htidy, hinside⟩ := h.tidy hclean
    exact ⟨⟨htidy.position, htidy.cursor, htidy.extent⟩, hinside⟩

theorem Kept.sound (h : Kept payload finished a) {operation : Operation}
    (hraw : operation.isRaw = false) :
    (a.event env sha256Hex operation).Sound env payload finished := by
  obtain ⟨hkept, hmore⟩ := h.perform env sha256Hex hraw
  refine ⟨?_, ?_, writeOnce_of_kept h hkept, ?_, hmore, hkept.holds.committed⟩
  · rintro firstFrame count data rfl hanswer
    exact (h.readFrames env firstFrame count).2.exact data (Answer.output.inj hanswer)
  · rintro firstFrame count rfl hlive hpos hwhole hrange hscratch hcard
    replace hlive : a.binding.Live := hlive
    replace hrange : firstFrame * 3 + count ≤ a.binding.stream.committedFrames * 3 := hrange
    replace hscratch : (44 + firstFrame * 3) % 4 + count ≤ a.binding.stream.scratchBytes :=
      hscratch
    replace hcard : ∀ call < 3, env (a.binding.file.calls + call) = .done := hcard
    obtain ⟨htidy, hinside⟩ := h.tidy hlive.clean
    have hcommitted := h.holds.committed
    have hroom := h.holds.room
    have hfits := h.fits
    have hextent := htidy.extent
    unfold Fits at hfits
    unfold endOf at hextent
    refine congrArg Answer.output ((Binding.readFrames_ok hlive hpos hwhole hrange (by omega)
      (by omega) (by omega) hscratch hcard).trans ?_)
    rw [← slice_slice (by omega : firstFrame * 3 + count ≤ payload.length), h.holds.stored]
  · rintro firstFrame count rfl hclean
    exact (h.readFrames env firstFrame count).2.restored hclean

theorem Kept.run (h : Kept payload finished a) {operations : List Operation} {pre post : List Event}
    {e : Event} (hrun : a.run env sha256Hex operations = pre ++ e :: post)
    (hraw : ∀ event ∈ pre ++ [e], event.operation.isRaw = false) :
    e.Sound env (payload ++ pre.flatMap Event.appended)
      (finished || pre.any Event.finished) := by
  induction operations generalizing payload finished a pre with
  | nil => simp [PreparedArtifact.run] at hrun
  | cons operation operations ih =>
    have hcons : a.run env sha256Hex (operation :: operations) =
        a.event env sha256Hex operation ::
          (a.event env sha256Hex operation).after.run env sha256Hex operations := rfl
    rw [hcons] at hrun
    cases pre with
    | nil =>
      obtain rfl := (List.cons.inj hrun).1
      have howned : operation.isRaw = false := hraw _ List.mem_cons_self
      simpa using h.sound env sha256Hex howned
    | cons first pre =>
      obtain ⟨rfl, hrest⟩ := List.cons.inj hrun
      have howned : operation.isRaw = false := hraw _ List.mem_cons_self
      have hsound := ih (h.perform env sha256Hex howned).1 hrest fun event hevent =>
        hraw event (List.mem_cons_of_mem _ hevent)
      simpa only [List.flatMap_cons, List.any_cons, List.append_assoc, Bool.or_assoc] using hsound

/-! ## From a fresh file -/

/-- A file bound and its artifact begun. -/
def PreparedArtifact.start (env : Nat → FatFsOutcome) (a : PreparedArtifact) (file : CardFile)
    (scratchBytes : Nat) (scratchAligned : Bool) (format : Pcm24WavFormat) :
    Status × PreparedArtifact :=
  let (bound, stream) := a.binding.stream.bind file scratchBytes scratchAligned
  if !bound.isOk then
    (bound, a)
  else
    let (begun, writer, binding) :=
      Pcm24ArtifactWriter.begin (Binding.sink env) a.writer { file, stream } format
    (begun, { writer, binding })

/-- A live stream on an empty file. -/
structure Fresh (b : Binding) : Prop where
  live : b.Live
  empty : b.file.toByteFile = {}
  cursor : b.stream.writerCursor = 0
  extent : b.stream.writtenExtent = 0
  committed : b.stream.committedFrames = 0

/-- The first header goes into the empty file. -/
theorem triple_begin (env : Nat → FatFsOutcome) (format : Pcm24WavFormat) :
    Triple (Binding.sink env) Fresh (Pcm24ArtifactWriter.beginCalls format) (At [] 44 44)
      (fun _ => True) := by
  have hheader : Triple (Binding.sink env) Fresh
      [.write (Pcm24ArtifactWriter.makeHeader format 0)] (At [] 44 44) (fun _ => True) := by
    refine .cons (fun b h => ⟨fun hok => ?_, fun _ => trivial⟩) .nil
    have hwrites : Binding.Writes b (Pcm24ArtifactWriter.makeHeader format 0)
        (b.writeExact env (Pcm24ArtifactWriter.makeHeader format 0)) := Binding.writes h.live _
    replace hok : (b.writeExact env (Pcm24ArtifactWriter.makeHeader format 0)).1.isOk = true := hok
    show At [] 44 44 (b.writeExact env (Pcm24ArtifactWriter.makeHeader format 0)).2
    generalize b.writeExact env (Pcm24ArtifactWriter.makeHeader format 0) = outcome at hwrites hok ⊢
    cases hwrites with
    | nothing hnil => cases hnil
    | refused _ hstatus => exact absurd hok (by simp [hstatus])
    | latched _ _ hfailure _ => exact absurd hok (by simp [hfailure])
    | @done card _ hfile =>
      rw [h.empty] at hfile
      have hlength : card.bytes.length = 44 := congrArg (fun file => file.bytes.length) hfile
      exact ⟨⟨h.live.bound, h.live.clean⟩,
        ⟨by simp [slice], Nat.le_of_eq hlength.symm, by simp [h.committed]⟩,
        congrArg ByteFile.position hfile, by simp [h.cursor], by simp [h.cursor, h.extent],
        Nat.le_of_eq hlength.symm⟩
  refine .cons (fun b h => ⟨fun hok => ?_, fun _ => trivial⟩) hheader
  have hseeks : Binding.Seeks b 0 (b.seek env 0) := Binding.seeks h.live 0
  replace hok : (b.seek env 0).1.isOk = true := hok
  show Fresh (b.seek env 0).2
  generalize b.seek env 0 = outcome at hseeks hok ⊢
  cases hseeks with
  | refused _ hstatus => exact absurd hok (by simp [hstatus])
  | latched hfailure _ => exact absurd hok (by simp [hfailure])
  | @done card _ hfile =>
    exact ⟨⟨h.live.bound, h.live.clean⟩, hfile.trans (by rw [h.empty, ByteFile.seek]), rfl,
      h.extent, h.committed⟩

/-- A start that succeeds began the writer on a live stream with an empty file. -/
theorem start_eq {env : Nat → FatFsOutcome} {a : PreparedArtifact} {file : CardFile}
    {scratchBytes : Nat} {scratchAligned : Bool} {format : Pcm24WavFormat}
    (h : (a.start env file scratchBytes scratchAligned format).1.isOk = true) :
    ∃ b, Fresh b ∧ Pcm24ArtifactWriter.validFormat format = true ∧
      (runCalls (Binding.sink env) b (Pcm24ArtifactWriter.beginCalls format)).1.isOk = true ∧
      (a.start env file scratchBytes scratchAligned format).2 =
        ⟨Pcm24ArtifactWriter.begun format,
          (runCalls (Binding.sink env) b (Pcm24ArtifactWriter.beginCalls format)).2⟩ := by
  unfold PreparedArtifact.start Rt1170PreparedStream.bind at h ⊢
  by_cases hbound : a.binding.stream.bound = true
  · simp [hbound, Status.isOk, streamAlreadyBound] at h
  by_cases hbad : (decide (scratchBytes < 4) || !scratchAligned || decide (file.fSize ≠ 0) ||
      decide (file.position ≠ 0)) = true
  · simp only [hbound, Bool.false_eq_true, if_false, hbad, if_true] at h
    cases (h : false = true)
  simp only [hbound, Bool.false_eq_true, if_false, hbad, Status.isOk_success, Bool.not_true] at h ⊢
  have hempty : file.toByteFile = {} := by
    have hsize : file.bytes.length = 0 := by
      by_contra hne
      exact hbad (by simp [CardFile.fSize, hne])
    have hposition : file.position = 0 := by
      by_contra hne
      exact hbad (by simp [hne])
    exact congrArg₂ ByteFile.mk (List.length_eq_zero_iff.mp hsize) hposition
  have hidle : a.writer.state ≠ .active := by
    intro hactive
    rw [Pcm24ArtifactWriter.begin, if_pos hactive] at h
    cases (h : false = true)
  have hvalid : Pcm24ArtifactWriter.validFormat format = true := by
    by_contra hinvalid
    rw [Pcm24ArtifactWriter.begin_of_invalid hidle (by simpa using hinvalid)] at h
    cases h
  rw [Pcm24ArtifactWriter.begin_eq hidle hvalid] at h ⊢
  split at h
  case isFalse => exact absurd h (by simp [Pcm24ArtifactWriter.isOk_fail])
  case isTrue hcalls =>
    rw [if_pos hcalls]
    exact ⟨⟨file, { bound := true, scratchBytes }⟩, ⟨⟨rfl, rfl⟩, hempty, rfl, rfl, rfl⟩, hvalid,
      hcalls, rfl⟩

theorem kept_start {env : Nat → FatFsOutcome} {a : PreparedArtifact} {file : CardFile}
    {scratchBytes : Nat} {scratchAligned : Bool} {format : Pcm24WavFormat}
    (h : (a.start env file scratchBytes scratchAligned format).1.isOk = true) :
    Kept [] false (a.start env file scratchBytes scratchAligned format).2 := by
  obtain ⟨b, hfresh, hvalid, hcalls, heq⟩ := start_eq h
  have hat := (triple_begin env format b hfresh).1 hcalls
  rw [heq]
  exact ⟨rfl, by decide, fun _ => ⟨Pcm24ArtifactWriter.active_begun hvalid, rfl⟩,
    (fun hfailed => by cases hfailed), hat.holds,
    fun _ => ⟨⟨hat.position.trans hat.writerCursor.symm, hat.writerCursor, hat.writtenExtent⟩,
      hat.inside⟩⟩

theorem mirrored_start {env : Nat → FatFsOutcome} {a : PreparedArtifact} {file : CardFile}
    {scratchBytes : Nat} {scratchAligned : Bool} {format : Pcm24WavFormat}
    (h : (a.start env file scratchBytes scratchAligned format).1.isOk = true) :
    Mirrored ⟨Pcm24ArtifactWriter.makeHeader format 0, 44⟩
      (a.start env file scratchBytes scratchAligned format).2 := by
  obtain ⟨b, hfresh, hvalid, hcalls, heq⟩ := start_eq h
  have hat := (triple_begin env format b hfresh).1 hcalls
  have hfile := (Binding.keeps_sink env).runCalls hcalls
  rw [hfresh.empty, Pcm24ArtifactWriter.apply_beginCalls, length_makeHeader] at hfile
  have hnone := Binding.committedFrames_runCalls env b (Pcm24ArtifactWriter.beginCalls format)
  rw [hfresh.committed] at hnone
  rw [heq]
  have hsize : 44 ≤ uint32Max + 8 := by decide
  refine ⟨⟨hat.writerCursor, hat.writtenExtent, Nat.le_refl 44, hsize, ?_, ?_, fun _ => hfile⟩,
    fun _ => ⟨[], Pcm24ArtifactWriter.active_begun hvalid⟩, fun hfailed => by cases hfailed⟩
  · rw [Binding.committedBytes, hnone]
    exact Nat.le_refl 44
  · rw [hfile]

/-- Whatever an owner does with a prepared artifact, in any order, every operation is faithful to
what was written before it; and behind a run without writes past the writer it is sound for what
was appended. -/
theorem run_sound {env : Nat → FatFsOutcome} {sha256Hex : List UInt8 → String}
    {a : PreparedArtifact} {file : CardFile} {scratchBytes : Nat} {scratchAligned : Bool}
    {format : Pcm24WavFormat}
    (h : (a.start env file scratchBytes scratchAligned format).1.isOk = true)
    {operations : List Operation} {pre post : List Event} {e : Event}
    (hrun : (a.start env file scratchBytes scratchAligned format).2.run env sha256Hex operations =
      pre ++ e :: post) :
    e.Faithful env (imageOf env format pre) ∧
      ((∀ event ∈ pre ++ [e], event.operation.isRaw = false) →
        e.Sound env (pre.flatMap Event.appended) (pre.any Event.finished)) :=
  ⟨(mirrored_start h).run env sha256Hex hrun, (kept_start h).run env sha256Hex hrun⟩

/-- An artifact begun, and read once more when it is finished; and one read behind an attempt to
write over what is committed. -/
theorem run_sound_readAfterFinish :
    (∃ pre e, (PreparedArtifact.start (fun _ => .done) {} {} 16 true ⟨48000, 1⟩).2.run
        (fun _ => .done) (fun _ => "") [.append [1, 2, 3, 4, 5, 6], .commitFrames 2,
          .readFrames 1 3, .append [7, 8, 9], .finish, .readFrames 0 6] = pre ++ [e] ∧
      e.answer = .output (.ok [1, 2, 3, 4, 5, 6]) ∧
      e.Sound (fun _ => .done) [1, 2, 3, 4, 5, 6, 7, 8, 9] true) ∧
    ∃ pre e, (PreparedArtifact.start (fun _ => .done) {} {} 16 true ⟨48000, 1⟩).2.run
        (fun _ => .done) (fun _ => "") [.append [1, 2, 3, 4, 5, 6], .commitFrames 2,
          .seek 44, .writeExact [9], .readFrames 0 6] = pre ++ [e] ∧
      e.answer = .output (.ok [1, 2, 3, 4, 5, 6]) ∧
      e.Faithful (fun _ => .done) (imageOf (fun _ => .done) ⟨48000, 1⟩ pre) := by
  constructor
  · obtain ⟨pre, e, hrun, happended, hfinished, hanswer, hraw⟩ : ∃ pre e,
        (PreparedArtifact.start (fun _ => .done) {} {} 16 true ⟨48000, 1⟩).2.run
          (fun _ => .done) (fun _ => "") [.append [1, 2, 3, 4, 5, 6], .commitFrames 2,
            .readFrames 1 3, .append [7, 8, 9], .finish, .readFrames 0 6] = pre ++ [e] ∧
        pre.flatMap Event.appended = [1, 2, 3, 4, 5, 6, 7, 8, 9] ∧
        pre.any Event.finished = true ∧ e.answer = .output (.ok [1, 2, 3, 4, 5, 6]) ∧
        (pre ++ [e]).all (fun event => event.operation.isRaw == false) = true :=
      ⟨[_, _, _, _, _], _, rfl, rfl, rfl, rfl, rfl⟩
    refine ⟨pre, e, hrun, hanswer, ?_⟩
    rw [← happended, ← hfinished]
    exact (run_sound rfl hrun).2 fun event hevent =>
      beq_iff_eq.mp (List.all_eq_true.mp hraw _ hevent)
  · obtain ⟨pre, e, hrun, hanswer⟩ : ∃ pre e,
        (PreparedArtifact.start (fun _ => .done) {} {} 16 true ⟨48000, 1⟩).2.run
          (fun _ => .done) (fun _ => "") [.append [1, 2, 3, 4, 5, 6], .commitFrames 2,
            .seek 44, .writeExact [9], .readFrames 0 6] = pre ++ [e] ∧
        e.answer = .output (.ok [1, 2, 3, 4, 5, 6]) :=
      ⟨[_, _, _, _], _, rfl, rfl⟩
    exact ⟨pre, e, hrun, hanswer, (run_sound rfl hrun).1⟩

end WaveformGenerator.Artifact
