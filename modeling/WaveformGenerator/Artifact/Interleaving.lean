import WaveformGenerator.Artifact.StreamCalls

/-!
# Writing an artifact while it is read

`Kept` says where an artifact is between operations: the card holds what was appended behind the
header, and the handle is at the end of it unless a failure is latched, after which no call reaches
the card.
-/

namespace WaveformGenerator.Artifact

open Pcm24ArtifactWriter

/-- A writer and the stream it writes to. -/
structure PreparedArtifact where
  writer : Pcm24ArtifactWriter := {}
  binding : Binding := {}

/-- What the owner does with them. `writeExact` and `seek` are the stream's own, past the writer. -/
inductive Operation
  | writeExact (bytes : List UInt8)
  | seek (absoluteOffset : Nat)
  | append (packed : List UInt8)
  | commitFrames (frames : Nat)
  | readFrames (firstFrame count : Nat)
  | finish
  | cancel
  | unbind

/-- Whether the operation goes to the stream past the writer, at any place of the file. -/
def Operation.isRaw : Operation → Bool
  | writeExact _ | seek _ => true
  | _ => false

inductive Answer
  | none
  | status (status : Status)
  | output (output : Result (List UInt8))

section
variable (env : Nat → FatFsOutcome) (sha256Hex : List UInt8 → String)

def PreparedArtifact.perform (a : PreparedArtifact) : Operation → Answer × PreparedArtifact
  | .writeExact bytes =>
    let (status, binding) := a.binding.writeExact env bytes
    (.status status, { a with binding })
  | .seek absoluteOffset =>
    let (status, binding) := a.binding.seek env absoluteOffset
    (.status status, { a with binding })
  | .append packed =>
    let (status, writer, binding) := appendFrames (Binding.sink env) a.writer a.binding packed
    (.status status, { writer, binding })
  | .commitFrames frames =>
    let (status, binding) := a.binding.commitFrames env frames
    (.status status, { a with binding })
  | .readFrames firstFrame count =>
    let (output, binding) := a.binding.readFrames env firstFrame count
    (.output output, { a with binding })
  | .finish =>
    let (status, _, writer, binding) :=
      finish (Binding.sink env) sha256Hex a.writer a.binding {}
    (.status status, { writer, binding })
  | .cancel => (.none, { a with writer := a.writer.cancel })
  | .unbind => (.none, { a with binding := { a.binding with stream := a.binding.stream.unbind } })

end

/-- One operation of a run. -/
structure Event where
  before : PreparedArtifact
  operation : Operation
  answer : Answer
  after : PreparedArtifact

namespace Event

/-- What the operation appended. -/
def appended (e : Event) : List UInt8 :=
  match e.operation, e.answer with
  | .append packed, .status status => if status.isOk then packed else []
  | _, _ => []

/-- Whether it finished the artifact. -/
def finished (e : Event) : Bool :=
  match e.operation, e.answer with
  | .finish, .status status => status.isOk
  | _, _ => false

end Event

def PreparedArtifact.run (env : Nat → FatFsOutcome) (sha256Hex : List UInt8 → String)
    (a : PreparedArtifact) : List Operation → List Event
  | [] => []
  | operation :: operations =>
    let (answer, after) := a.perform env sha256Hex operation
    ⟨a, operation, answer, after⟩ :: after.run env sha256Hex operations

/-! ## The invariant -/

/-- The end of what is written: the payload, and the pad byte of a finished one. -/
def endOf (payload : List UInt8) (finished : Bool) : Nat :=
  44 + payload.length + if finished then payload.length % 2 else 0

/-- The handle and the stream's cursors are at the end of what is written. -/
structure Tidy (payload : List UInt8) (finished : Bool) (b : Binding) : Prop where
  position : b.file.position = b.stream.writerCursor
  cursor : b.stream.writerCursor = endOf payload finished
  extent : b.stream.writtenExtent = endOf payload finished

/-- The card holds the payload, and no more is committed. -/
structure Holds (payload : List UInt8) (b : Binding) : Prop where
  stored : slice b.file.bytes 44 payload.length = payload
  room : 44 + payload.length ≤ b.file.bytes.length
  committed : b.stream.committedFrames * 3 ≤ payload.length

structure Kept (payload : List UInt8) (finished : Bool) (a : PreparedArtifact) : Prop where
  whole : payload.length % 3 = 0
  fits : Fits payload.length
  active : a.writer.state = .active → a.writer.Active payload ∧ finished = false
  failed : a.writer.state = .failed → a.writer.Failed
  holds : Holds payload a.binding
  tidy : a.binding.stream.failure.isOk = true →
    Tidy payload finished a.binding ∧ endOf payload finished ≤ a.binding.file.bytes.length

/-! ## Writes that leave the payload alone -/

/-- Bytes put behind the payload, or in front of it, leave it. -/
theorem Holds.of_overwrite {payload : List UInt8} {b : Binding} (h : Holds payload b)
    {position : Nat} {written : List UInt8} (hposition : position ≤ b.file.bytes.length)
    (hclear : 44 + payload.length ≤ position ∨ position + written.length ≤ 44) {card : CardFile}
    (hbytes : card.bytes = overwrite b.file.bytes position written)
    {stream : Rt1170PreparedStream}
    (hstream : stream.committedFrames = b.stream.committedFrames) :
    Holds payload ⟨card, stream⟩ where
  stored := by
    show slice card.bytes 44 payload.length = payload
    rw [hbytes, slice_overwrite hposition hclear, h.stored]
  room := by
    show 44 + payload.length ≤ card.bytes.length
    have := h.room
    rw [hbytes, length_overwrite hposition]
    omega
  committed := by
    show stream.committedFrames * 3 ≤ payload.length
    rw [hstream]
    exact h.committed

theorem Holds.of_bytes {payload : List UInt8} {b : Binding} (h : Holds payload b)
    {card : CardFile} (hbytes : card.bytes = b.file.bytes) {stream : Rt1170PreparedStream}
    (hstream : stream.committedFrames = b.stream.committedFrames) :
    Holds payload ⟨card, stream⟩ where
  stored := by
    show slice card.bytes 44 payload.length = payload
    rw [hbytes, h.stored]
  room := by
    show 44 + payload.length ≤ card.bytes.length
    rw [hbytes]
    exact h.room
  committed := by
    show stream.committedFrames * 3 ≤ payload.length
    rw [hstream]
    exact h.committed

/-- A live stream whose handle is at `cursor`. -/
structure At (payload : List UInt8) (cursor extent : Nat) (b : Binding) : Prop where
  live : b.Live
  holds : Holds payload b
  position : b.file.position = cursor
  writerCursor : b.stream.writerCursor = cursor
  writtenExtent : b.stream.writtenExtent = extent
  inside : extent ≤ b.file.bytes.length

/-- A stream whose failure is latched. -/
structure Stopped (payload : List UInt8) (b : Binding) : Prop where
  holds : Holds payload b
  failure : b.stream.failure.isOk = false

section
variable (env : Nat → FatFsOutcome) {payload : List UInt8} {cursor extent : Nat} {b : Binding}

/-- A write in front of the payload or behind it succeeds or stops the stream. -/
theorem At.write (h : At payload cursor extent b) (hcursor : cursor ≤ extent) {data : List UInt8}
    (hne : data ≠ []) (hsize : cursor + data.length ≤ uint32Max + 8)
    (hshort : data.length ≤ uint32Max)
    (hclear : 44 + payload.length ≤ cursor ∨ cursor + data.length ≤ 44) :
    ((b.writeExact env data).1.isOk = true →
        At payload (cursor + data.length) (max extent (cursor + data.length))
          (b.writeExact env data).2) ∧
      ((b.writeExact env data).1.isOk = false → Stopped payload (b.writeExact env data).2) := by
  have hinside : b.file.position ≤ b.file.bytes.length := by
    rw [h.position]
    exact Nat.le_trans hcursor h.inside
  have hwrites : Binding.Writes b data (b.writeExact env data) := Binding.writes h.live data
  generalize b.writeExact env data = outcome at hwrites ⊢
  cases hwrites with
  | nothing hnil => exact absurd hnil hne
  | refused hrefused _ =>
    have hcommitted := h.holds.committed
    refine absurd ⟨?_, hshort, ?_⟩ hrefused <;> rw [h.writerCursor]
    · exact hsize
    · omega
  | latched _ hwritten hfailure hbytes =>
    refine ⟨fun hok => absurd hok (by simp [hfailure]), fun _ => ⟨?_, hfailure⟩⟩
    exact h.holds.of_overwrite hinside (by rw [h.position]; omega) hbytes rfl
  | @done card _ hfile =>
    have hbytes : card.bytes = overwrite b.file.bytes b.file.position data :=
      congrArg ByteFile.bytes hfile
    refine ⟨fun _ => ?_, fun hstatus => nomatch (hstatus : true = false)⟩
    refine ⟨⟨h.live.bound, h.live.clean⟩,
      h.holds.of_overwrite hinside (by rw [h.position]; omega) hbytes rfl, ?_, ?_, ?_, ?_⟩
    · exact (congrArg ByteFile.position hfile).trans (congrArg (· + data.length) h.position)
    · exact congrArg (· + data.length) h.writerCursor
    · show max b.stream.writtenExtent (b.stream.writerCursor + data.length) = _
      rw [h.writerCursor, h.writtenExtent]
    · show _ ≤ card.bytes.length
      have := h.inside
      rw [hbytes, length_overwrite hinside, h.position]
      omega

/-- So does a seek inside what is written. -/
theorem At.seek (h : At payload cursor extent b) {offset : Nat} (hoffset : offset ≤ extent)
    (hsize : offset ≤ fsizeMax) :
    ((b.seek env offset).1.isOk = true → At payload offset extent (b.seek env offset).2) ∧
      ((b.seek env offset).1.isOk = false → Stopped payload (b.seek env offset).2) := by
  have hseeks : Binding.Seeks b offset (b.seek env offset) := Binding.seeks h.live offset
  generalize b.seek env offset = outcome at hseeks ⊢
  cases hseeks with
  | refused hrefused _ =>
    rw [h.writtenExtent] at hrefused
    exact absurd ⟨hoffset, hsize⟩ hrefused
  | latched hfailure hbytes =>
    exact ⟨fun hok => absurd hok (by simp [hfailure]),
      fun _ => ⟨h.holds.of_bytes hbytes rfl, hfailure⟩⟩
  | @done card _ hfile =>
    have hbytes : card.bytes = (b.file.seek offset).bytes := congrArg ByteFile.bytes hfile
    refine ⟨fun _ => ⟨⟨h.live.bound, h.live.clean⟩, h.holds.of_bytes hbytes rfl,
      congrArg ByteFile.position hfile, rfl, h.writtenExtent, ?_⟩,
      fun hstatus => nomatch (hstatus : true = false)⟩
    show extent ≤ card.bytes.length
    rw [hbytes]
    exact h.inside

end

/-- The header goes in front of the payload, and the handle back to the end. -/
theorem triple_rewrite (env : Nat → FatFsOutcome) {payload : List UInt8}
    (hfits : Fits payload.length) (format : Pcm24WavFormat) (dataBytes : UInt32) (cursor : Nat) :
    Triple (Binding.sink env) (At payload cursor (endOf payload true))
      [.seek 0, .write (makeHeader format dataBytes), .seek (endOf payload true)]
      (At payload (endOf payload true) (endOf payload true)) (Stopped payload) := by
  have hend : 44 ≤ endOf payload true := by
    unfold endOf
    omega
  have hlast : endOf payload true ≤ fsizeMax := by
    unfold Fits uint32Max at hfits
    unfold endOf fsizeMax uint64Max
    simp only [if_true]
    omega
  have hreturn : Triple (Binding.sink env) (At payload 44 (endOf payload true))
      [.seek (endOf payload true)] (At payload (endOf payload true) (endOf payload true))
      (Stopped payload) :=
    .cons (fun b h => h.seek env (Nat.le_refl _) hlast) .nil
  refine .cons (fun b h => h.seek env (Nat.zero_le _) (Nat.zero_le _))
    (.cons (fun b h => ?_) hreturn)
  have hne : makeHeader format dataBytes ≠ [] := List.cons_ne_nil _ _
  have hwrite := h.write env (Nat.zero_le _) hne (by rw [length_makeHeader]; decide)
    (by rw [length_makeHeader]; decide) (.inr (Nat.le_refl 44))
  rw [length_makeHeader, Nat.zero_add, Nat.max_eq_left hend] at hwrite
  exact hwrite

theorem triple_finish (env : Nat → FatFsOutcome) {payload : List UInt8}
    {w : Pcm24ArtifactWriter} (h : w.Active payload) :
    Triple (Binding.sink env) (At payload (endOf payload false) (endOf payload false))
      w.finishCalls (At payload (endOf payload true) (endOf payload true)) (Stopped payload) := by
  have hodd : (w.dataBytes &&& 1).toNat = payload.length % 2 := by
    rw [and_one_toNat, h.dataBytes]
  have hlast : pcm24WavHeaderBytes + w.dataBytes.toNat + (w.dataBytes &&& 1).toNat =
      endOf payload true := by
    rw [hodd, h.dataBytes]
    rfl
  have hrewrite := triple_rewrite env h.fits w.format w.dataBytes
  have hfits := h.fits
  unfold Fits at hfits
  rw [finishCalls, hlast]
  split
  case isTrue hpad =>
    have hone : payload.length % 2 = 1 := by
      rw [Ne, ← UInt32.toNat_inj, hodd] at hpad
      have hzero : payload.length % 2 ≠ 0 := hpad
      omega
    refine .cons (fun b hb => ?_) (hrewrite (endOf payload true))
    have hne : [(0 : UInt8)] ≠ [] := List.cons_ne_nil _ _
    have hwrite := hb.write env (Nat.le_refl _) hne (by unfold endOf; simp; omega) (by decide)
      (.inl (by unfold endOf; simp))
    have hnext : endOf payload false + [(0 : UInt8)].length = endOf payload true := by
      unfold endOf
      simp [hone]
    have hmax : max (endOf payload false) (endOf payload true) = endOf payload true := by
      rw [← hnext]
      exact Nat.max_eq_right (Nat.le_add_right ..)
    rw [hnext, hmax] at hwrite
    exact hwrite
  case isFalse hpad =>
    have hzero : payload.length % 2 = 0 := by
      rw [not_not, ← UInt32.toNat_inj, hodd] at hpad
      exact hpad
    have hsame : endOf payload false = endOf payload true := by
      unfold endOf
      simp [hzero]
    rw [hsame]
    exact hrewrite (endOf payload true)

namespace Kept

variable {env : Nat → FatFsOutcome} {payload : List UInt8} {finished : Bool}
  {a : PreparedArtifact}

theorem at_end (h : Kept payload finished a) (hlive : a.binding.Live) :
    At payload (endOf payload finished) (endOf payload finished) a.binding := by
  obtain ⟨htidy, hinside⟩ := h.tidy hlive.clean
  exact ⟨hlive, h.holds, htidy.position.trans htidy.cursor, htidy.cursor, htidy.extent, hinside⟩

/-- An operation that does not reach the writer or the card. -/
theorem of_stopped (h : Kept payload finished a) {writer : Pcm24ArtifactWriter} {b : Binding}
    (hactive : writer.state ≠ .active) (hfailed : writer.state = .failed → writer.Failed)
    (hstopped : Stopped payload b) : Kept payload finished ⟨writer, b⟩ where
  whole := h.whole
  fits := h.fits
  active hstate := absurd hstate hactive
  failed := hfailed
  holds := hstopped.holds
  tidy hok := absurd hok (by simp [hstopped.failure])

/-- The writer gives up, the card untouched. -/
theorem of_failed (h : Kept payload finished a) {writer : Pcm24ArtifactWriter}
    (hfailed : writer.Failed) : Kept payload finished ⟨writer, a.binding⟩ where
  whole := h.whole
  fits := h.fits
  active hstate := absurd (hfailed.state.symm.trans hstate) (by decide)
  failed _ := hfailed
  holds := h.holds
  tidy := h.tidy

theorem isOk_refusal (h : Kept payload finished a) : a.writer.refusal.isOk = false := by
  unfold refusal
  split
  case isTrue hfailed => exact (h.failed hfailed).failure
  · rfl

/-- A stream that is not live refuses its first call, and nothing changes. -/
theorem runCalls_of_not_live (env : Nat → FatFsOutcome) {b : Binding} (h : ¬ b.Live) (call : SinkCall)
    (calls : List SinkCall) :
    (runCalls (Binding.sink env) b (call :: calls)).1.isOk = false ∧
      (runCalls (Binding.sink env) b (call :: calls)).2 = b := by
  obtain ⟨hstatus, hsame⟩ : (call.run (Binding.sink env) b).1.isOk = false ∧
      (call.run (Binding.sink env) b).2 = b := by
    cases call with
    | write data => exact Binding.writeExact_of_not_live h data
    | seek offset => exact Binding.seek_of_not_live h offset
  simp [runCalls, hstatus, hsame]

/-- Appended bytes go behind the payload. -/
theorem appended (h : Kept payload false a) (hlive : a.binding.Live) {packed : List UInt8}
    (hne : packed ≠ []) (hfits : Fits (payload ++ packed).length)
    (hwhole : (payload ++ packed).length % 3 = 0)
    (hok : (a.binding.writeExact env packed).1.isOk = true) {writer : Pcm24ArtifactWriter}
    (hactive : writer.Active (payload ++ packed)) :
    Kept (payload ++ packed) false ⟨writer, (a.binding.writeExact env packed).2⟩ := by
  have hat := h.at_end hlive
  have hend : endOf payload false = 44 + payload.length := rfl
  have hlength : (payload ++ packed).length = payload.length + packed.length :=
    List.length_append
  have hsizes := hfits
  unfold Fits at hsizes
  obtain ⟨hafter, -⟩ := hat.write env (Nat.le_refl _) hne (by omega) (by omega)
    (.inl (Nat.le_of_eq hend.symm))
  replace hafter := hafter hok
  have hfile := (Binding.keeps_sink env).write a.binding packed hok
  have hbytes : (a.binding.writeExact env packed).2.file.bytes =
      overwrite a.binding.file.bytes (44 + payload.length) packed :=
    (congrArg ByteFile.bytes hfile).trans (by rw [ByteFile.write, hat.position, hend])
  have hextent : max (endOf payload false) (endOf payload false + packed.length) =
      endOf (payload ++ packed) false := by
    unfold endOf
    simp only [Bool.false_eq_true, if_false]
    omega
  have hcursor : endOf payload false + packed.length = endOf (payload ++ packed) false := by
    unfold endOf
    simp only [Bool.false_eq_true, if_false]
    omega
  rw [hextent, hcursor] at hafter
  refine ⟨hwhole, hfits, fun _ => ⟨hactive, rfl⟩, fun hfailed => ?_, ⟨?_, hafter.inside, ?_⟩,
    fun _ => ⟨⟨?_, hafter.writerCursor, hafter.writtenExtent⟩, hafter.inside⟩⟩
  · exact absurd (hactive.state.symm.trans hfailed) (by decide)
  · show slice (a.binding.writeExact env packed).2.file.bytes 44 _ = _
    rw [hbytes, hlength, slice_overwrite_end h.holds.room rfl, h.holds.stored]
  · exact Nat.le_trans hafter.holds.committed (by omega)
  · exact hafter.position.trans hafter.writerCursor.symm

theorem append (env : Nat → FatFsOutcome) (h : Kept payload finished a) (packed : List UInt8) :
    let (status, writer, binding) := appendFrames (Binding.sink env) a.writer a.binding packed
    Kept (payload ++ if status.isOk then packed else []) finished ⟨writer, binding⟩ ∧
      binding.stream.committedFrames = a.binding.stream.committedFrames := by
  by_cases hstate : a.writer.state = .active
  · obtain ⟨hactive, rfl⟩ := h.active hstate
    have happends : Appends (Binding.sink env) a.writer a.binding payload packed
      (appendFrames (Binding.sink env) a.writer a.binding packed) := appends hactive packed
    generalize appendFrames (Binding.sink env) a.writer a.binding packed = outcome at happends ⊢
    cases happends with
    | refused hstatus hfailed =>
      simp only [hstatus, Bool.false_eq_true, if_false, List.append_nil]
      exact ⟨h.of_failed hfailed, trivial⟩
    | nothing hnil =>
      simp only [hnil, ite_self, List.append_nil]
      exact ⟨h, trivial⟩
    | failed hfits hne hwrite hstatus hfailed =>
      simp only [hstatus, Bool.false_eq_true, if_false, List.append_nil]
      refine ⟨?_, Binding.committedFrames_run env a.binding (.write packed)⟩
      by_cases hlive : a.binding.Live
      · have hend : endOf payload false = 44 + payload.length := rfl
        have hsizes := hfits
        unfold Fits at hsizes
        rw [List.length_append] at hsizes
        have hstopped := ((h.at_end hlive).write env (Nat.le_refl _) hne (by omega)
          (by omega) (.inl (Nat.le_of_eq hend.symm))).2 hwrite
        exact h.of_stopped (by rw [hfailed.state]; decide) (fun _ => hfailed) hstopped
      · have hsame : ((Binding.sink env).writeExact a.binding packed).2 = a.binding :=
          (Binding.writeExact_of_not_live hlive packed).2
        rw [hsame]
        exact h.of_failed hfailed
    | done hne hwrite hactive' hformat =>
      simp only [Status.isOk_success, if_true]
      have hlive : a.binding.Live := by
        by_contra hdead
        have hstatus : ((Binding.sink env).writeExact a.binding packed).1.isOk = false :=
          (Binding.writeExact_of_not_live hdead packed).1
        exact absurd hwrite (by simp [hstatus])
      have hwhole : (payload ++ packed).length % 3 = 0 :=
        Nat.mod_eq_zero_of_dvd (Nat.dvd_trans (Nat.dvd_mul_left 3 _)
          (Nat.dvd_of_mod_eq_zero hactive'.whole))
      exact ⟨h.appended hlive hne hactive'.fits hwhole hwrite hactive',
        Binding.committedFrames_run env a.binding (.write packed)⟩
  · have hidle : appendFrames (Binding.sink env) a.writer a.binding packed =
        (a.writer.refusal, a.writer, a.binding) := by
      unfold appendFrames
      rw [if_pos (by simp [hstate])]
    simp only [hidle, h.isOk_refusal, Bool.false_eq_true, if_false, List.append_nil]
    exact ⟨h, trivial⟩

theorem finish (env : Nat → FatFsOutcome) (sha256Hex : List UInt8 → String)
    (h : Kept payload finished a) (summary : Pcm24ArtifactSummary) :
    let (status, _, writer, binding) :=
      Pcm24ArtifactWriter.finish (Binding.sink env) sha256Hex a.writer a.binding summary
    Kept payload (finished || status.isOk) ⟨writer, binding⟩ ∧
      binding.stream.committedFrames = a.binding.stream.committedFrames := by
  by_cases hstate : a.writer.state = .active
  · obtain ⟨hactive, rfl⟩ := h.active hstate
    have hcommitted := Binding.committedFrames_runCalls env a.binding a.writer.finishCalls
    rw [finish_eq hactive]
    by_cases hlive : a.binding.Live
    · obtain ⟨hdone, hstopped⟩ := triple_finish env hactive a.binding (h.at_end hlive)
      cases hstatus : (runCalls (Binding.sink env) a.binding a.writer.finishCalls).1.isOk with
      | true =>
        have hat := hdone hstatus
        simp only [if_true, Status.isOk_success, Bool.or_true]
        exact ⟨⟨h.whole, h.fits, (fun hcomplete => nomatch hcomplete),
          (fun hfailed => nomatch hfailed), hat.holds,
          fun _ => ⟨⟨hat.position.trans hat.writerCursor.symm, hat.writerCursor,
            hat.writtenExtent⟩, hat.inside⟩⟩, hcommitted⟩
      | false =>
        simp only [Bool.false_eq_true, if_false, isOk_fail, Bool.or_false]
        exact ⟨h.of_stopped (by rw [(failed_fail ..).state]; decide) (fun _ => failed_fail ..)
          (hstopped hstatus), hcommitted⟩
    · obtain ⟨call, calls, hcalls⟩ : ∃ call calls, a.writer.finishCalls = call :: calls := by
        unfold finishCalls
        split
        · exact ⟨_, _, rfl⟩
        · exact ⟨_, _, rfl⟩
      obtain ⟨hstatus, hsame⟩ := runCalls_of_not_live env hlive call calls
      rw [← hcalls] at hstatus hsame
      simp only [hstatus, Bool.false_eq_true, if_false, isOk_fail, Bool.or_false, hsame]
      exact ⟨h.of_failed (failed_fail ..), trivial⟩
  · have hidle : Pcm24ArtifactWriter.finish (Binding.sink env) sha256Hex a.writer a.binding
        summary = (a.writer.refusal, summary, a.writer, a.binding) := by
      unfold Pcm24ArtifactWriter.finish
      rw [if_pos (by simp [hstate])]
    simp only [hidle, h.isOk_refusal, Bool.or_false]
    exact ⟨h, trivial⟩

end Kept
end WaveformGenerator.Artifact
