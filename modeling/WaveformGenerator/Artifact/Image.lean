import WaveformGenerator.Artifact.Interleaving

/-!
# The image of the accepted calls

The writes and seeks the stream accepts, from its writer or from its owner, make a file of their
own: the image. In any order of operations the card holds the image until a failure is latched; and
of what is committed the card holds it ever after.
-/

namespace WaveformGenerator.Artifact

open Pcm24ArtifactWriter

/-- The calls of a row that the sink accepts, up to the first it does not. -/
def acceptedCalls {σ : Type u} (sink : Pcm24ByteSink σ) (s : σ) : List SinkCall → List SinkCall
  | [] => []
  | call :: calls =>
    let (status, s) := call.run sink s
    if !status.isOk then [] else call :: acceptedCalls sink s calls

/-- The calls that an operation made of the stream and the stream accepted. -/
def Event.accepted (env : Nat → FatFsOutcome) (e : Event) : List SinkCall :=
  match e.operation, e.answer with
  | .writeExact bytes, .status status => if status.isOk then [.write bytes] else []
  | .seek absoluteOffset, .status status => if status.isOk then [.seek absoluteOffset] else []
  | .append packed, .status status => if status.isOk then [.write packed] else []
  | .finish, _ =>
    if e.before.writer.state = .active then
      acceptedCalls (Binding.sink env) e.before.binding e.before.writer.finishCalls
    else []
  | _, _ => []

/-- The image behind more calls. -/
def imageAfter (image : ByteFile) (calls : List SinkCall) : ByteFile :=
  calls.foldl SinkCall.apply image

/-- What the calls accepted in a run make of the first header. -/
def imageOf (env : Nat → FatFsOutcome) (format : Pcm24WavFormat) (events : List Event) : ByteFile :=
  imageAfter ⟨makeHeader format 0, 44⟩ (events.flatMap (Event.accepted env))

/-- One operation, its event. -/
def PreparedArtifact.event (env : Nat → FatFsOutcome) (sha256Hex : List UInt8 → String)
    (a : PreparedArtifact) (operation : Operation) : Event :=
  ⟨a, operation, (a.perform env sha256Hex operation).1, (a.perform env sha256Hex operation).2⟩

/-! ## The card and the image -/

/-- The bytes committed. -/
def Binding.committedBytes (b : Binding) : Nat := b.stream.committedFrames * 3

/-- The stream's cursors are the image's, and so is the card, as far as it is committed or no
failure is latched. -/
structure Mirrors (image : ByteFile) (b : Binding) : Prop where
  cursor : b.stream.writerCursor = image.position
  extent : b.stream.writtenExtent = image.bytes.length
  inside : image.position ≤ image.bytes.length
  size : image.bytes.length ≤ uint32Max + 8
  committed : 44 + b.committedBytes ≤ image.bytes.length
  agrees : slice b.file.bytes 44 b.committedBytes = slice image.bytes 44 b.committedBytes
  clean : b.stream.failure.isOk = true → b.file.toByteFile = image

/-- On from a stream and its image: what was committed stays, on the card and in the image. -/
structure Advances (image : ByteFile) (b : Binding) (image' : ByteFile) (b' : Binding) : Prop where
  mirrors : Mirrors image' b'
  more : b.stream.committedFrames ≤ b'.stream.committedFrames
  card : slice b'.file.bytes 44 b.committedBytes = slice b.file.bytes 44 b.committedBytes
  image : slice image'.bytes 44 b.committedBytes = slice image.bytes 44 b.committedBytes

namespace Mirrors

variable (env : Nat → FatFsOutcome) {image : ByteFile} {b : Binding}

theorem refl (h : Mirrors image b) : Advances image b image b := ⟨h, Nat.le_refl _, rfl, rfl⟩

/-- The stream stops, what is committed untouched. -/
theorem stop (h : Mirrors image b) {card : CardFile} {failure : Status}
    (hfailure : failure.isOk = false)
    (hcard : slice card.bytes 44 b.committedBytes = slice b.file.bytes 44 b.committedBytes) :
    Advances image b image ⟨card, { b.stream with failure }⟩ where
  mirrors := {
    cursor := h.cursor
    extent := h.extent
    inside := h.inside
    size := h.size
    committed := h.committed
    agrees := hcard.trans h.agrees
    clean hok := absurd (hfailure.symm.trans hok) Bool.false_ne_true }
  more := Nat.le_refl _
  card := hcard
  image := rfl

/-- A write let through changes nothing that is committed: that is what its guard is for. -/
theorem slice_write (h : Mirrors image b) {data written : List UInt8}
    (hclear : b.Clear data) (hwritten : written.length ≤ data.length) :
    slice (overwrite image.bytes image.position written) 44 b.committedBytes =
      slice image.bytes 44 b.committedBytes := by
  have hbehind := hclear.behind
  rw [h.cursor] at hbehind
  refine slice_overwrite h.inside ?_
  unfold Binding.committedBytes
  omega

theorem writeExact (h : Mirrors image b) (data : List UInt8) :
    ((b.writeExact env data).1.isOk = true →
        Advances image b (image.write data) (b.writeExact env data).2) ∧
      ((b.writeExact env data).1.isOk = false →
        Advances image b image (b.writeExact env data).2) := by
  by_cases hlive : b.Live
  · have hfile := h.clean hlive.clean
    have hwrites : Binding.Writes b data (b.writeExact env data) := Binding.writes hlive data
    generalize b.writeExact env data = outcome at hwrites ⊢
    cases hwrites with
    | nothing hnil =>
      subst hnil
      have hsame : image.write [] = image := by simp [ByteFile.write]
      exact ⟨fun _ => hsame.symm ▸ h.refl, fun hstatus => absurd hstatus.symm Bool.false_ne_true⟩
    | refused _ hstatus =>
      exact ⟨fun hok => absurd (hstatus.symm.trans hok) Bool.false_ne_true, fun _ => h.refl⟩
    | latched hclear hwritten hfailure hbytes =>
      refine ⟨fun hok => absurd (hfailure.symm.trans hok) Bool.false_ne_true,
        fun _ => h.stop hfailure ?_⟩
      rw [hbytes, hfile]
      exact h.slice_write hclear hwritten
    | @done card hclear hwrite =>
      have hcard : card.toByteFile = image.write data := hwrite.trans (by rw [hfile])
      have hslice := h.slice_write hclear (Nat.le_refl data.length)
      have hlength : (image.write data).bytes.length =
          max image.bytes.length (image.position + data.length) := length_overwrite h.inside data
      have hsize := hclear.size
      have hlonger := h.size
      have hcommitted := h.committed
      rw [h.cursor] at hsize
      refine ⟨fun _ => ⟨⟨?_, ?_, ?_, ?_, ?_, ?_, fun _ => hcard⟩, Nat.le_refl _, ?_, hslice⟩,
        fun hstatus => absurd hstatus.symm Bool.false_ne_true⟩
      · exact congrArg (· + data.length) h.cursor
      · show max b.stream.writtenExtent (b.stream.writerCursor + data.length) = _
        rw [hlength, h.extent, h.cursor]
      · show image.position + data.length ≤ _
        rw [hlength]
        exact Nat.le_max_right ..
      · rw [hlength]
        omega
      · show 44 + b.committedBytes ≤ _
        rw [hlength]
        omega
      · exact congrArg (fun file : ByteFile => slice file.bytes 44 b.committedBytes) hcard
      · show slice card.bytes 44 b.committedBytes = _
        rw [hcard, hfile]
        exact hslice
  · obtain ⟨hstatus, hsame⟩ : (b.writeExact env data).1.isOk = false ∧
        (b.writeExact env data).2 = b := Binding.writeExact_of_not_live hlive data
    rw [hsame]
    exact ⟨fun hok => absurd (hstatus.symm.trans hok) Bool.false_ne_true, fun _ => h.refl⟩

/-- The card as it was, the handle where the image has it. -/
theorem go (h : Mirrors image b) (hlive : b.Live) {card : CardFile} {offset : Nat}
    (hoffset : offset ≤ image.bytes.length) (hcard : card.toByteFile = b.file.seek offset) :
    Advances image b (image.seek offset)
      ⟨card, { b.stream with writerCursor := offset }⟩ := by
  have hbytes : card.bytes = (b.file.seek offset).bytes := congrArg ByteFile.bytes hcard
  have hslice : slice card.bytes 44 b.committedBytes = slice b.file.bytes 44 b.committedBytes :=
    congrArg (slice · 44 b.committedBytes) hbytes
  refine ⟨⟨rfl, h.extent, hoffset, h.size, h.committed, hslice.trans h.agrees, fun _ => ?_⟩,
    Nat.le_refl _, hslice, rfl⟩
  exact hcard.trans (by rw [h.clean hlive.clean])

theorem seek (h : Mirrors image b) (offset : Nat) :
    ((b.seek env offset).1.isOk = true →
        Advances image b (image.seek offset) (b.seek env offset).2) ∧
      ((b.seek env offset).1.isOk = false → Advances image b image (b.seek env offset).2) := by
  by_cases hlive : b.Live
  · have hseeks : Binding.Seeks b offset (b.seek env offset) := Binding.seeks hlive offset
    generalize b.seek env offset = outcome at hseeks ⊢
    cases hseeks with
    | refused _ hstatus =>
      exact ⟨fun hok => absurd (hstatus.symm.trans hok) Bool.false_ne_true, fun _ => h.refl⟩
    | latched hfailure hbytes =>
      exact ⟨fun hok => absurd (hfailure.symm.trans hok) Bool.false_ne_true,
        fun _ => h.stop hfailure (by rw [hbytes])⟩
    | done hinside hfile =>
      rw [h.extent] at hinside
      exact ⟨fun _ => h.go hlive hinside hfile, fun hstatus => absurd hstatus.symm Bool.false_ne_true⟩
  · obtain ⟨hstatus, hsame⟩ : (b.seek env offset).1.isOk = false ∧ (b.seek env offset).2 = b :=
      Binding.seek_of_not_live hlive offset
    rw [hsame]
    exact ⟨fun hok => absurd (hstatus.symm.trans hok) Bool.false_ne_true, fun _ => h.refl⟩

theorem commitFrames (h : Mirrors image b) (frames : Nat) :
    Advances image b image (b.commitFrames env frames).2 := by
  by_cases hlive : b.Live
  · have hcommits : Binding.Commits b frames (b.commitFrames env frames) :=
      Binding.commits hlive frames
    generalize b.commitFrames env frames = outcome at hcommits ⊢
    cases hcommits with
    | refused _ => exact h.refl
    | latched hfailure hbytes => exact h.stop hfailure (by rw [hbytes])
    | @done card hmore hextent hfile =>
      have hcard : card.toByteFile = image := hfile.trans (h.clean hlive.clean)
      rw [h.extent] at hextent
      exact ⟨⟨h.cursor, h.extent, h.inside, h.size, hextent,
        congrArg (fun file : ByteFile => slice file.bytes 44 (frames * 3)) hcard, fun _ => hcard⟩,
        hmore, congrArg (fun file : ByteFile => slice file.bytes 44 b.committedBytes) hfile, rfl⟩
  · rw [Binding.commitFrames_of_not_live hlive]
    exact h.refl

/-- A read leaves the card and its handle, unless the seek back is what failed. -/
theorem readFrames (h : Mirrors image b) (firstFrame count : Nat) :
    Advances image b image (b.readFrames env firstFrame count).2 ∧
      (b.readFrames env firstFrame count).2.stream.writerCursor = image.position ∧
      (∀ data, (b.readFrames env firstFrame count).1 = .ok data →
        firstFrame * 3 + count ≤ b.committedBytes ∧
          data = slice image.bytes (44 + firstFrame * 3) count ∧ data.length = count) ∧
      (b.stream.failure.isOk = true →
        (b.readFrames env firstFrame count).2.file.position = image.position ∨
          (b.readFrames env firstFrame count).2.stream.failure.isOk = false ∧
            ∃ n position, env ((b.readFrames env firstFrame count).2.file.calls - 1) =
              .failed n position) := by
  by_cases hlive : b.Live
  · have hfile := h.clean hlive.clean
    have hreads : Binding.Reads env b firstFrame count (b.readFrames env firstFrame count) :=
      Binding.reads hlive firstFrame count
    generalize b.readFrames env firstFrame count = outcome at hreads ⊢
    cases hreads with
    | refused =>
      exact ⟨h.refl, h.cursor, (fun _ hdata => nomatch hdata),
        fun _ => .inl (congrArg ByteFile.position hfile)⟩
    | latched hfailure hbytes hposition =>
      rw [h.cursor] at hposition
      exact ⟨h.stop hfailure (by rw [hbytes]), h.cursor, (fun _ hdata => nomatch hdata),
        fun _ => hposition.imp id fun hlast => ⟨hfailure, hlast⟩⟩
    | @done card data hrange hdata hlength hcard =>
      rw [h.cursor] at hcard
      have hsame : image.seek image.position = image := rfl
      have hstream : { b.stream with writerCursor := image.position } = b.stream := by
        rw [← h.cursor]
      have hgone := h.go hlive h.inside hcard
      rw [hsame, hstream] at hgone
      have hposition : card.position = (b.file.seek image.position).position :=
        congrArg ByteFile.position hcard
      refine ⟨hgone, h.cursor, fun _ hok => ?_, fun _ => .inl hposition⟩
      cases hok
      exact ⟨hrange, hdata.trans (by rw [hfile]), hlength⟩
  · obtain ⟨status, hsame⟩ : ∃ status, b.readFrames env firstFrame count = (.error status, b) :=
      Binding.readFrames_of_not_live hlive firstFrame count
    rw [hsame]
    exact ⟨h.refl, h.cursor, (fun _ hdata => nomatch hdata),
      fun hclean => .inl (congrArg ByteFile.position (h.clean hclean))⟩

/-- A live stream reads any range of committed frames its scratch holds, if the card answers. -/
theorem readable (h : Mirrors image b) (hlive : b.Live) {firstFrame count : Nat}
    (hpos : 0 < count) (hwhole : count % 3 = 0)
    (hrange : firstFrame * 3 + count ≤ b.committedBytes)
    (hscratch : (44 + firstFrame * 3) % 4 + count ≤ b.stream.scratchBytes)
    (hcard : ∀ call < 3, env (b.file.calls + call) = .done) :
    (b.readFrames env firstFrame count).1 =
      .ok (slice image.bytes (44 + firstFrame * 3) count) := by
  have hfile := h.clean hlive.clean
  have hcommitted := h.committed
  have hsize := h.size
  have hextent := h.extent
  unfold Binding.committedBytes at hrange hcommitted
  have hread := Binding.readFrames_ok hlive hpos hwhole hrange (by omega) (by omega)
    (by rw [hfile]; exact hcommitted) hscratch hcard
  rwa [hfile] at hread

end Mirrors

namespace Advances

variable {image image' image'' : ByteFile} {b b' b'' : Binding}

theorem trans (h : Advances image b image' b') (h' : Advances image' b' image'' b'') :
    Advances image b image'' b'' := by
  have hless : 0 + b.committedBytes ≤ b'.committedBytes := by
    have := h.more
    unfold Binding.committedBytes
    omega
  have hcard := congrArg (slice · 0 b.committedBytes) h'.card
  have himage := congrArg (slice · 0 b.committedBytes) h'.image
  simp only [slice_slice hless, Nat.add_zero] at hcard himage
  exact ⟨h'.mirrors, Nat.le_trans h.more h'.more, hcard.trans h.card, himage.trans h.image⟩

end Advances

section

variable (env : Nat → FatFsOutcome) {image : ByteFile} {b : Binding}

theorem Mirrors.call (h : Mirrors image b) (call : SinkCall) :
    ((call.run (Binding.sink env) b).1.isOk = true →
        Advances image b (call.apply image) (call.run (Binding.sink env) b).2) ∧
      ((call.run (Binding.sink env) b).1.isOk = false →
        Advances image b image (call.run (Binding.sink env) b).2) := by
  cases call with
  | write data => exact h.writeExact env data
  | seek offset => exact h.seek env offset

theorem Mirrors.runCalls (h : Mirrors image b) (calls : List SinkCall) :
    Advances image b (imageAfter image (acceptedCalls (Binding.sink env) b calls))
      (Artifact.runCalls (Binding.sink env) b calls).2 := by
  induction calls generalizing image b with
  | nil => exact h.refl
  | cons call calls ih =>
    obtain ⟨hok, hfailed⟩ := h.call env call
    unfold Artifact.runCalls acceptedCalls
    dsimp only
    cases hstatus : (call.run (Binding.sink env) b).1.isOk with
    | true =>
      have hcall := hok hstatus
      exact hcall.trans (ih hcall.mirrors)
    | false => exact hfailed hstatus

end

/-! ## Operations -/

/-- An artifact whose stream mirrors an image, its writer in order. -/
structure Mirrored (image : ByteFile) (a : PreparedArtifact) : Prop where
  mirrors : Mirrors image a.binding
  active : a.writer.state = .active → ∃ payload, a.writer.Active payload
  failed : a.writer.state = .failed → a.writer.Failed

namespace Mirrored

variable (env : Nat → FatFsOutcome) (sha256Hex : List UInt8 → String) {image : ByteFile}
  {a : PreparedArtifact}

theorem isOk_refusal (h : Mirrored image a) : a.writer.refusal.isOk = false := by
  unfold refusal
  split
  case isTrue hfailed => exact (h.failed hfailed).failure
  · rfl

/-- The writer as it was, or given up. -/
theorem onward (h : Mirrored image a) {image' : ByteFile} {writer : Pcm24ArtifactWriter}
    {b : Binding} (hadvances : Advances image a.binding image' b)
    (hwriter : writer = a.writer ∨ writer.Failed ∨ ∃ payload, writer.Active payload) :
    Mirrored image' ⟨writer, b⟩ ∧ Advances image a.binding image' b := by
  refine ⟨⟨hadvances.mirrors, ?_, ?_⟩, hadvances⟩
  · rcases hwriter with rfl | hfailed | hactive
    · exact h.active
    · exact fun hstate => absurd (hfailed.state.symm.trans hstate) (by decide)
    · exact fun _ => hactive
  · rcases hwriter with rfl | hfailed | ⟨payload, hactive⟩
    · exact h.failed
    · exact fun _ => hfailed
    · exact fun hstate => absurd (hactive.state.symm.trans hstate) (by decide)

theorem writeExact (h : Mirrored image a) (bytes : List UInt8) :
    let (status, b) := a.binding.writeExact env bytes
    let image' := imageAfter image (if status.isOk then [.write bytes] else [])
    Mirrored image' ⟨a.writer, b⟩ ∧ Advances image a.binding image' b := by
  obtain ⟨hok, hfailed⟩ := h.mirrors.writeExact env bytes
  generalize a.binding.writeExact env bytes = outcome at hok hfailed ⊢
  obtain ⟨status, b⟩ := outcome
  cases hstatus : status.isOk with
  | true =>
    simp only [hstatus, if_true]
    exact h.onward (hok hstatus) (.inl rfl)
  | false =>
    simp only [hstatus, Bool.false_eq_true, if_false]
    exact h.onward (hfailed hstatus) (.inl rfl)

theorem seek (h : Mirrored image a) (offset : Nat) :
    let (status, b) := a.binding.seek env offset
    let image' := imageAfter image (if status.isOk then [.seek offset] else [])
    Mirrored image' ⟨a.writer, b⟩ ∧ Advances image a.binding image' b := by
  obtain ⟨hok, hfailed⟩ := h.mirrors.seek env offset
  generalize a.binding.seek env offset = outcome at hok hfailed ⊢
  obtain ⟨status, b⟩ := outcome
  cases hstatus : status.isOk with
  | true =>
    simp only [hstatus, if_true]
    exact h.onward (hok hstatus) (.inl rfl)
  | false =>
    simp only [hstatus, Bool.false_eq_true, if_false]
    exact h.onward (hfailed hstatus) (.inl rfl)

theorem append (h : Mirrored image a) (packed : List UInt8) :
    let (status, writer, b) := appendFrames (Binding.sink env) a.writer a.binding packed
    let image' := imageAfter image (if status.isOk then [.write packed] else [])
    Mirrored image' ⟨writer, b⟩ ∧ Advances image a.binding image' b := by
  by_cases hstate : a.writer.state = .active
  · obtain ⟨payload, hactive⟩ := h.active hstate
    have hwrite := h.mirrors.writeExact env packed
    have happends : Appends (Binding.sink env) a.writer a.binding payload packed
      (appendFrames (Binding.sink env) a.writer a.binding packed) := appends hactive packed
    generalize appendFrames (Binding.sink env) a.writer a.binding packed = outcome at happends ⊢
    cases happends with
    | refused hstatus hfailed =>
      simp only [hstatus, Bool.false_eq_true, if_false]
      exact h.onward h.mirrors.refl (.inr (.inl hfailed))
    | nothing hnil =>
      subst hnil
      have hsame : imageAfter image [.write []] = image := by
        simp [imageAfter, SinkCall.apply, ByteFile.write]
      simp only [Status.isOk_success, if_true, hsame]
      exact h.onward h.mirrors.refl (.inl rfl)
    | failed _ _ hfails hstatus hfailed =>
      simp only [hstatus, Bool.false_eq_true, if_false]
      exact h.onward (hwrite.2 hfails) (.inr (.inl hfailed))
    | done _ hok hactive' _ =>
      simp only [Status.isOk_success, if_true]
      exact h.onward (hwrite.1 hok) (.inr (.inr ⟨_, hactive'⟩))
  · have hidle : appendFrames (Binding.sink env) a.writer a.binding packed =
        (a.writer.refusal, a.writer, a.binding) := by
      unfold appendFrames
      rw [if_pos (by simp [hstate])]
    simp only [hidle, h.isOk_refusal, Bool.false_eq_true, if_false]
    exact h.onward h.mirrors.refl (.inl rfl)

theorem finish (h : Mirrored image a) (summary : Pcm24ArtifactSummary) :
    let (_, _, writer, b) :=
      Pcm24ArtifactWriter.finish (Binding.sink env) sha256Hex a.writer a.binding summary
    let image' := imageAfter image (if a.writer.state = .active then
      acceptedCalls (Binding.sink env) a.binding a.writer.finishCalls else [])
    Mirrored image' ⟨writer, b⟩ ∧ Advances image a.binding image' b := by
  by_cases hstate : a.writer.state = .active
  · obtain ⟨payload, hactive⟩ := h.active hstate
    have hcalls := h.mirrors.runCalls env a.writer.finishCalls
    rw [finish_eq hactive, if_pos hstate]
    cases (runCalls (Binding.sink env) a.binding a.writer.finishCalls).1.isOk with
    | true =>
      simp only [if_true]
      exact ⟨⟨hcalls.mirrors, (fun hcomplete => nomatch hcomplete),
        fun hfailed => nomatch hfailed⟩, hcalls⟩
    | false =>
      simp only [Bool.false_eq_true, if_false]
      exact h.onward hcalls (.inr (.inl (failed_fail ..)))
  · have hidle : Pcm24ArtifactWriter.finish (Binding.sink env) sha256Hex a.writer a.binding
        summary = (a.writer.refusal, summary, a.writer, a.binding) := by
      unfold Pcm24ArtifactWriter.finish
      rw [if_pos (by simp [hstate])]
    simp only [hidle, if_neg hstate]
    exact h.onward h.mirrors.refl (.inl rfl)

/-- Every operation takes the image on by the calls accepted, and the stream with it. -/
theorem perform (h : Mirrored image a) (operation : Operation) :
    let e := a.event env sha256Hex operation
    Mirrored (imageAfter image (e.accepted env)) e.after ∧
      Advances image a.binding (imageAfter image (e.accepted env)) e.after.binding := by
  cases operation with
  | writeExact bytes => exact h.writeExact env bytes
  | seek absoluteOffset => exact h.seek env absoluteOffset
  | append packed => exact h.append env packed
  | commitFrames frames => exact h.onward (h.mirrors.commitFrames env frames) (.inl rfl)
  | readFrames firstFrame count =>
    exact h.onward (h.mirrors.readFrames env firstFrame count).1 (.inl rfl)
  | finish => exact h.finish env sha256Hex {}
  | cancel =>
    exact ⟨⟨h.mirrors, (fun hactive => nomatch hactive), fun hfailed => nomatch hfailed⟩,
      h.mirrors.refl⟩
  | unbind =>
    have hunbound : Mirrors image { a.binding with stream := a.binding.stream.unbind } :=
      ⟨h.mirrors.cursor, h.mirrors.extent, h.mirrors.inside, h.mirrors.size, h.mirrors.committed,
        h.mirrors.agrees, h.mirrors.clean⟩
    exact h.onward ⟨hunbound, Nat.le_refl _, rfl, rfl⟩ (.inl rfl)

end Mirrored

/-! ## What holds of every operation -/

/-- What holds of an operation where the calls accepted so far made `image`. -/
structure Event.Faithful (env : Nat → FatFsOutcome) (image : ByteFile) (e : Event) : Prop where
  /-- What a read gives is what the image has for its frames, which are committed. -/
  exact : ∀ firstFrame count data, e.operation = .readFrames firstFrame count →
    e.answer = .output (.ok data) →
    firstFrame * 3 + count ≤ e.before.binding.committedBytes ∧
      data = slice image.bytes (44 + firstFrame * 3) count ∧ data.length = count
  /-- A live stream reads any range of committed frames its scratch holds, if the card answers. -/
  readable : ∀ firstFrame count, e.operation = .readFrames firstFrame count →
    e.before.binding.Live → 0 < count → count % 3 = 0 →
    firstFrame * 3 + count ≤ e.before.binding.committedBytes →
    (44 + firstFrame * 3) % 4 + count ≤ e.before.binding.stream.scratchBytes →
    (∀ call < 3, env (e.before.binding.file.calls + call) = .done) →
    e.answer = .output (.ok (slice image.bytes (44 + firstFrame * 3) count))
  /-- What is committed stays what it was, on the card and in the image. -/
  writeOnce : slice e.after.binding.file.bytes 44 e.before.binding.committedBytes =
      slice e.before.binding.file.bytes 44 e.before.binding.committedBytes ∧
    slice (imageAfter image (e.accepted env)).bytes 44 e.before.binding.committedBytes =
      slice image.bytes 44 e.before.binding.committedBytes
  /-- After a read the handle is back where the writer had it, unless the seek back is what
  failed. -/
  restored : ∀ firstFrame count, e.operation = .readFrames firstFrame count →
    e.before.binding.stream.failure.isOk = true →
    e.after.binding.stream.writerCursor = image.position ∧
      (e.after.binding.file.position = image.position ∨
        e.after.binding.stream.failure.isOk = false ∧
          ∃ n position, env (e.after.binding.file.calls - 1) = .failed n position)
  /-- The watermark only moves up, and not past what is written. -/
  watermark : e.before.binding.stream.committedFrames ≤
      e.after.binding.stream.committedFrames ∧
    44 + e.after.binding.committedBytes ≤ (imageAfter image (e.accepted env)).bytes.length

section

variable (env : Nat → FatFsOutcome) (sha256Hex : List UInt8 → String) {image : ByteFile}
  {a : PreparedArtifact}

theorem Mirrored.faithful (h : Mirrored image a) (operation : Operation) :
    (a.event env sha256Hex operation).Faithful env image := by
  obtain ⟨-, hadvances⟩ := h.perform env sha256Hex operation
  refine ⟨?_, ?_, ⟨hadvances.card, hadvances.image⟩, ?_,
    hadvances.more, hadvances.mirrors.committed⟩
  · rintro firstFrame count data rfl hanswer
    exact (h.mirrors.readFrames env firstFrame count).2.2.1 data (Answer.output.inj hanswer)
  · rintro firstFrame count rfl hlive hpos hwhole hrange hscratch hcard
    exact congrArg Answer.output
      (h.mirrors.readable env hlive hpos hwhole hrange hscratch hcard)
  · rintro firstFrame count rfl hclean
    obtain ⟨-, hcursor, -, hposition⟩ := h.mirrors.readFrames env firstFrame count
    exact ⟨hcursor, hposition hclean⟩

theorem Mirrored.run (h : Mirrored image a) {operations : List Operation} {pre post : List Event}
    {e : Event} (hrun : a.run env sha256Hex operations = pre ++ e :: post) :
    e.Faithful env (imageAfter image (pre.flatMap (Event.accepted env))) := by
  induction operations generalizing image a pre with
  | nil => simp [PreparedArtifact.run] at hrun
  | cons operation operations ih =>
    have hcons : a.run env sha256Hex (operation :: operations) =
        a.event env sha256Hex operation ::
          (a.event env sha256Hex operation).after.run env sha256Hex operations := rfl
    rw [hcons] at hrun
    cases pre with
    | nil =>
      obtain rfl := (List.cons.inj hrun).1
      exact h.faithful env sha256Hex operation
    | cons first pre =>
      obtain ⟨rfl, hrest⟩ := List.cons.inj hrun
      have hfaithful := ih (h.perform env sha256Hex operation).1 hrest
      rw [imageAfter, imageAfter, ← List.foldl_append] at hfaithful
      exact hfaithful

end

end WaveformGenerator.Artifact
