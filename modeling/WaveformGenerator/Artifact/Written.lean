import WaveformGenerator.Artifact.Pcm24
import WaveformGenerator.Lib.ByteFile
import WaveformGenerator.Lib.UInt

/-!
# What the writer leaves in its file

`Active` is a writer between `begin` and `finish` with what it has appended. Over a sink that keeps
its promise the finished file is `wavFile`: the header, the payload, the pad byte.
-/

namespace WaveformGenerator.Artifact

/-- A call that succeeds has done to the file what it was asked. -/
structure Pcm24ByteSink.Keeps {σ : Type u} (sink : Pcm24ByteSink σ) (file : σ → ByteFile) :
    Prop where
  write : ∀ s data, (sink.writeExact s data).1.isOk = true →
    file (sink.writeExact s data).2 = (file s).write data
  seek : ∀ s offset, (sink.seek s offset).1.isOk = true →
    file (sink.seek s offset).2 = (file s).seek offset

/-- A call a writer makes of its sink. -/
inductive SinkCall
  | write (data : List UInt8)
  | seek (offset : Nat)
  deriving DecidableEq, Repr

def SinkCall.run {σ : Type u} (sink : Pcm24ByteSink σ) (s : σ) : SinkCall → Status × σ
  | write data => sink.writeExact s data
  | seek offset => sink.seek s offset

/-- What a call asks of the file. -/
def SinkCall.apply (file : ByteFile) : SinkCall → ByteFile
  | write data => file.write data
  | seek offset => file.seek offset

/-- Calls up to the first that fails. -/
def runCalls {σ : Type u} (sink : Pcm24ByteSink σ) (s : σ) : List SinkCall → Status × σ
  | [] => (.success, s)
  | call :: calls =>
    let (status, s) := call.run sink s
    if !status.isOk then (status, s) else runCalls sink s calls

theorem Pcm24ByteSink.Keeps.runCalls {σ : Type u} {sink : Pcm24ByteSink σ} {file : σ → ByteFile}
    (hsink : sink.Keeps file) {s : σ} {calls : List SinkCall}
    (h : (runCalls sink s calls).1.isOk = true) :
    file (Artifact.runCalls sink s calls).2 = calls.foldl SinkCall.apply (file s) := by
  induction calls generalizing s with
  | nil => rfl
  | cons call calls ih =>
    unfold Artifact.runCalls at h ⊢
    dsimp only at h ⊢
    split at h
    case isTrue hfailed => simp [h] at hfailed
    case isFalse hok =>
      rw [if_neg hok, ih h, List.foldl_cons]
      rw [Bool.not_eq_true, Bool.not_eq_false'] at hok
      cases call with
      | write data =>
        exact congrArg (List.foldl SinkCall.apply · calls) (hsink.write s data hok)
      | seek offset =>
        exact congrArg (List.foldl SinkCall.apply · calls) (hsink.seek s offset hok)

/-- From `pre`, the calls lead to `post` if they all succeed, and to `stop` if one fails. -/
def Triple {σ : Type u} (sink : Pcm24ByteSink σ) (pre : σ → Prop) (calls : List SinkCall)
    (post stop : σ → Prop) : Prop :=
  ∀ s, pre s → ((runCalls sink s calls).1.isOk = true → post (runCalls sink s calls).2) ∧
    ((runCalls sink s calls).1.isOk = false → stop (runCalls sink s calls).2)

theorem Triple.nil {σ : Type u} {sink : Pcm24ByteSink σ} {pre stop : σ → Prop} :
    Triple sink pre [] pre stop :=
  fun _ h => ⟨fun _ => h, fun h => nomatch (h : true = false)⟩

theorem Triple.cons {σ : Type u} {sink : Pcm24ByteSink σ} {pre middle post stop : σ → Prop}
    {call : SinkCall} {calls : List SinkCall}
    (hcall : ∀ s, pre s → ((call.run sink s).1.isOk = true → middle (call.run sink s).2) ∧
      ((call.run sink s).1.isOk = false → stop (call.run sink s).2))
    (hcalls : Triple sink middle calls post stop) : Triple sink pre (call :: calls) post stop := by
  intro s hs
  obtain ⟨hok, hfailed⟩ := hcall s hs
  unfold Artifact.runCalls
  dsimp only
  split
  case isTrue hstatus =>
    rw [Bool.not_eq_true'] at hstatus
    exact ⟨fun h => absurd h (by simp [hstatus]), fun _ => hfailed hstatus⟩
  case isFalse hstatus =>
    rw [Bool.not_eq_true, Bool.not_eq_false'] at hstatus
    exact hcalls _ (hok hstatus)

/-- The pad byte of a payload. -/
def padding (bytes : Nat) : List UInt8 := if bytes % 2 = 1 then [0] else []

/-- The length RIFF's size field has room for. -/
def Fits (bytes : Nat) : Prop := 36 + bytes + bytes % 2 ≤ uint32Max

instance (bytes : Nat) : Decidable (Fits bytes) := inferInstanceAs (Decidable (_ ≤ _))

/-- The file of a finished artifact. -/
def wavFile (format : Pcm24WavFormat) (payload : List UInt8) : List UInt8 :=
  Pcm24ArtifactWriter.makeHeader format (.ofNat payload.length) ++ payload ++
    padding payload.length

@[simp] theorem length_makeHeader (format : Pcm24WavFormat) (dataBytes : UInt32) :
    (Pcm24ArtifactWriter.makeHeader format dataBytes).length = 44 := rfl

theorem length_padding (bytes : Nat) : (padding bytes).length = bytes % 2 := by
  unfold padding
  split
  · simp [*]
  · simp only [List.length_nil]
    omega

theorem length_wavFile (format : Pcm24WavFormat) (payload : List UInt8) :
    (wavFile format payload).length = 44 + payload.length + payload.length % 2 := by
  simp only [wavFile, List.length_append, length_makeHeader, length_padding]

theorem and_one_toNat (n : UInt32) : (n &&& 1).toNat = n.toNat % 2 := by
  rw [UInt32.toNat_and]
  exact Nat.and_one_is_mod n.toNat

namespace Pcm24ArtifactWriter

/-- A writer with its payload so far. -/
structure Active (w : Pcm24ArtifactWriter) (payload : List UInt8) : Prop where
  state : w.state = .active
  sinkBound : w.sinkBound = true
  valid : validFormat w.format = true
  digested : w.digested = payload
  dataBytes : w.dataBytes.toNat = payload.length
  frames : w.frames.toNat = payload.length / (w.format.channels.toNat * 3)
  fits : Fits payload.length
  whole : payload.length % (w.format.channels.toNat * 3) = 0

theorem isOk_fail (w : Pcm24ArtifactWriter) (status : Status) :
    (w.fail status).1.isOk = false := by
  unfold fail
  cases h : status.isOk with
  | true => rfl
  | false => exact h

/-- A writer that has failed, with its failure. -/
structure Failed (w : Pcm24ArtifactWriter) : Prop where
  state : w.state = .failed
  failure : w.failure.isOk = false

theorem failed_fail (w : Pcm24ArtifactWriter) (status : Status) : (w.fail status).2.Failed :=
  ⟨rfl, w.isOk_fail status⟩

theorem channels_of_validFormat {format : Pcm24WavFormat} (h : validFormat format = true) :
    format.channels = 1 ∨ format.channels = 2 := by
  simp only [validFormat, Bool.and_eq_true, Bool.or_eq_true, beq_iff_eq] at h
  exact h.1.1

section
variable {σ : Type u} {sink : Pcm24ByteSink σ} {w : Pcm24ArtifactWriter} {s : σ}

/-- The writer that `begin` makes active. -/
def begun (format : Pcm24WavFormat) : Pcm24ArtifactWriter :=
  { sinkBound := true, format, state := .active }

/-- The calls of `begin`. -/
def beginCalls (format : Pcm24WavFormat) : List SinkCall :=
  [.seek 0, .write (makeHeader format 0)]

theorem active_begun {format : Pcm24WavFormat} (h : validFormat format = true) :
    (begun format).Active [] :=
  ⟨rfl, rfl, h, rfl, rfl, (Nat.zero_div _).symm, by decide, rfl⟩

theorem begin_eq {format : Pcm24WavFormat} (hidle : w.state ≠ .active)
    (hvalid : validFormat format = true) :
    begin sink w s format =
      if (runCalls sink s (beginCalls format)).1.isOk then
        (.success, begun format, (runCalls sink s (beginCalls format)).2)
      else
        (((begun format).fail (runCalls sink s (beginCalls format)).1).1,
          ((begun format).fail (runCalls sink s (beginCalls format)).1).2,
          (runCalls sink s (beginCalls format)).2) := by
  unfold begin beginCalls
  rw [if_neg hidle, if_neg (by simp [hvalid])]
  simp only [runCalls, SinkCall.run]
  repeat' split
  all_goals simp_all [begun, Status.success, Status.isOk]

theorem begin_of_invalid {format : Pcm24WavFormat} (hidle : w.state ≠ .active)
    (hvalid : validFormat format = false) : (begin sink w s format).1.isOk = false := by
  unfold begin
  rw [if_neg hidle, if_pos (by simp [hvalid])]
  rfl

/-- The count of frames does not wrap: they have fewer bytes than 32 bits count. -/
theorem toNat_newFrames {payload : List UInt8} (h : w.Active payload) {n : Nat}
    (hfits : Fits (payload.length + n)) :
    (w.frames + .ofNat (n / (w.format.channels.toNat * 3))).toNat =
      (payload.length + n) / (w.format.channels.toNat * 3) := by
  unfold Fits uint32Max at hfits
  have hframes := Nat.div_le_self payload.length (w.format.channels.toNat * 3)
  have hmore := Nat.div_le_self n (w.format.channels.toNat * 3)
  have hnew : (UInt64.ofNat (n / (w.format.channels.toNat * 3))).toNat =
      n / (w.format.channels.toNat * 3) := UInt64.toNat_ofNat_of_lt' (by unfold UInt64.size; omega)
  rw [UInt64.toNat_add, hnew, h.frames, Nat.mod_eq_of_lt (by omega),
    ← Nat.add_div_of_dvd_right (Nat.dvd_of_mod_eq_zero h.whole)]

/-- What an append does: it is refused and the sink is not called, or there is nothing to append, or
the sink's call decides. -/
inductive Appends (sink : Pcm24ByteSink σ) (w : Pcm24ArtifactWriter) (s : σ)
    (payload packed : List UInt8) : Status × Pcm24ArtifactWriter × σ → Prop
  | refused : status.isOk = false → w'.Failed →
    Appends sink w s payload packed (status, w', s)
  | nothing : packed = [] → Appends sink w s payload packed (.success, w, s)
  | failed : Fits (payload ++ packed).length → packed ≠ [] →
    (sink.writeExact s packed).1.isOk = false → status.isOk = false → w'.Failed →
    Appends sink w s payload packed (status, w', (sink.writeExact s packed).2)
  | done : packed ≠ [] → (sink.writeExact s packed).1.isOk = true →
    w'.Active (payload ++ packed) → w'.format = w.format →
    Appends sink w s payload packed (.success, w', (sink.writeExact s packed).2)

theorem appends {payload : List UInt8} (h : w.Active payload) (packed : List UInt8) :
    Appends sink w s payload packed (appendFrames sink w s packed) := by
  unfold appendFrames
  rw [if_neg (by simp [h.state, h.sinkBound])]
  dsimp only
  split
  · exact .refused (isOk_fail ..) (failed_fail ..)
  case isFalse hframes =>
    simp only [Bool.or_eq_true, decide_eq_true_eq, not_or, not_not] at hframes
    split
    case isTrue hempty => exact .nothing (List.isEmpty_iff.mp hempty)
    case isFalse hempty =>
      have hne : packed ≠ [] := mt List.isEmpty_iff.mpr hempty
      split
      · exact .refused (isOk_fail ..) (failed_fail ..)
      case isFalse hroom =>
        simp only [Bool.or_eq_true, decide_eq_true_eq, not_or, h.dataBytes] at hroom
        have hlength : (payload ++ packed).length = payload.length + packed.length :=
          List.length_append
        have hfits : Fits (payload ++ packed).length := by
          rw [hlength]
          exact Nat.not_lt.mp hroom.1.2
        have hwhole : (payload ++ packed).length % (w.format.channels.toNat * 3) = 0 := by
          rw [hlength, Nat.add_mod, h.whole, hframes.1, Nat.zero_mod]
        split
        case isTrue hwrite =>
          exact .failed hfits hne (by simpa using hwrite) (isOk_fail ..) (failed_fail ..)
        case isFalse hwrite =>
          refine .done hne (by simpa using hwrite) ⟨h.state, h.sinkBound, h.valid, ?_, ?_, ?_, hfits,
            hwhole⟩ rfl
          · exact congrArg (· ++ packed) h.digested
          · rw [h.dataBytes, hlength]
            unfold Fits uint32Max at hfits
            exact toNat_ofNat32 (by omega)
          · rw [hlength]
            exact toNat_newFrames h (hlength ▸ hfits)

/-- The calls of `finish`: the pad byte, the header over the first one, back to the end. -/
def finishCalls (w : Pcm24ArtifactWriter) : List SinkCall :=
  (if w.dataBytes &&& 1 ≠ 0 then [.write [0]] else []) ++
    [.seek 0, .write (makeHeader w.format w.dataBytes),
      .seek (pcm24WavHeaderBytes + w.dataBytes.toNat + (w.dataBytes &&& 1).toNat)]

/-- The summary of a finished artifact. -/
def summaryOf (sha256Hex : List UInt8 → String) (w : Pcm24ArtifactWriter) :
    Pcm24ArtifactSummary :=
  { frames := w.frames
    dataBytes := w.dataBytes
    fileBytes := pcm24WavHeaderBytes + w.dataBytes.toNat + (w.dataBytes &&& 1).toNat
    pcmSha256 := sha256Hex w.digested }

/-- `finish` makes its calls up to the first that fails. -/
theorem finish_eq {payload : List UInt8} (h : w.Active payload)
    (sha256Hex : List UInt8 → String) (summary : Pcm24ArtifactSummary) :
    finish sink sha256Hex w s summary =
      if (runCalls sink s w.finishCalls).1.isOk then
        (.success, w.summaryOf sha256Hex, { w with state := .complete, sinkBound := false },
          (runCalls sink s w.finishCalls).2)
      else
        ((w.fail (runCalls sink s w.finishCalls).1).1, summary,
          (w.fail (runCalls sink s w.finishCalls).1).2, (runCalls sink s w.finishCalls).2) := by
  unfold finish finishCalls
  rw [if_neg (by simp [h.state, h.sinkBound])]
  by_cases hodd : w.dataBytes &&& 1 ≠ 0
  · simp only [if_pos hodd, List.cons_append, List.nil_append, runCalls, SinkCall.run]
    repeat' split
    all_goals simp_all [summaryOf, Status.success, Status.isOk]
  · simp only [if_neg hodd, List.nil_append, runCalls, SinkCall.run]
    repeat' split
    all_goals simp_all [summaryOf, Status.success, Status.isOk]

/-- An append of whole frames within the bounds succeeds if its write does. -/
theorem appendFrames_ok {payload packed : List UInt8} (h : w.Active payload)
    (hwhole : packed.length % (w.format.channels.toNat * 3) = 0)
    (hcap : packed.length / (w.format.channels.toNat * 3) ≤ pcm24ArtifactMaxAppendFrames)
    (hfits : Fits (payload.length + packed.length))
    (hwrite : (sink.writeExact s packed).1.isOk = true) :
    (appendFrames sink w s packed).1.isOk = true := by
  have hframes : ¬ w.frames + .ofNat (packed.length / (w.format.channels.toNat * 3)) < w.frames := by
    rw [UInt64.lt_iff_toNat_lt, toNat_newFrames h hfits, h.frames, Nat.not_lt]
    exact Nat.div_le_div_right (Nat.le_add_right ..)
  unfold Fits at hfits
  unfold appendFrames
  rw [if_neg (by simp [h.state, h.sinkBound])]
  dsimp only
  rw [if_neg (by simp [hwhole, hcap])]
  split
  · rfl
  · have hroom : ¬ (payload.length + packed.length > uint32Max - 36 ∨
        36 + (payload.length + packed.length) + (payload.length + packed.length) % 2 >
          uint32Max) := by
      unfold uint32Max at hfits ⊢
      omega
    have h36 : pcm24WavRiffOverheadBytes.toNat = 36 := rfl
    rw [if_neg (by simpa only [Bool.or_eq_true, decide_eq_true_eq, h.dataBytes, h36, hframes,
      or_false] using hroom), if_neg (by simp [hwrite])]
    rfl

end

/-! ## A whole artifact -/

/-- Appends in turn, up to the first that fails. -/
def appendAll {σ : Type u} (sink : Pcm24ByteSink σ) (w : Pcm24ArtifactWriter) (s : σ) :
    List (List UInt8) → Result (Pcm24ArtifactWriter × σ)
  | [] => .ok (w, s)
  | packed :: appends =>
    let (status, w, s) := appendFrames sink w s packed
    if !status.isOk then .error status else appendAll sink w s appends

/-- An artifact from `begin` to `finish`, its calls all succeeding. -/
def produce {σ : Type u} (sink : Pcm24ByteSink σ) (sha256Hex : List UInt8 → String) (s : σ)
    (format : Pcm24WavFormat) (appends : List (List UInt8)) :
    Result (Pcm24ArtifactSummary × σ) :=
  let (status, w, s) := begin sink {} s format
  if !status.isOk then
    .error status
  else
    match appendAll sink w s appends with
    | .error status => .error status
    | .ok (w, s) =>
      let (status, summary, _, s) := finish sink sha256Hex w s {}
      if !status.isOk then .error status else .ok (summary, s)

section
variable {σ : Type u} {sink : Pcm24ByteSink σ} {file : σ → ByteFile}

/-- Over a sink that keeps its promise, an append that succeeds appends. -/
theorem file_appendFrames (hsink : sink.Keeps file) {w : Pcm24ArtifactWriter} {s : σ}
    {payload : List UInt8} (h : w.Active payload) {packed : List UInt8}
    (hok : (appendFrames sink w s packed).1.isOk = true) :
    (appendFrames sink w s packed).2.1.Active (payload ++ packed) ∧
      (appendFrames sink w s packed).2.1.format = w.format ∧
      file (appendFrames sink w s packed).2.2 = (file s).write packed := by
  have happends : Appends sink w s payload packed (appendFrames sink w s packed) :=
    appends h packed
  generalize appendFrames sink w s packed = outcome at happends hok ⊢
  cases happends with
  | refused hstatus => simp [hstatus] at hok
  | nothing hnil =>
    subst hnil
    exact ⟨by rwa [List.append_nil], rfl, by simp [ByteFile.write]⟩
  | failed _ _ _ hstatus => simp [hstatus] at hok
  | done _ hwrite hactive hformat => exact ⟨hactive, hformat, hsink.write s packed hwrite⟩

theorem file_appendAll (hsink : sink.Keeps file) {w last : Pcm24ArtifactWriter} {s s' : σ}
    {payload : List UInt8} (h : w.Active payload) {appends : List (List UInt8)}
    (hok : appendAll sink w s appends = .ok (last, s')) :
    last.Active (payload ++ appends.flatten) ∧ last.format = w.format ∧
      file s' = appends.foldl ByteFile.write (file s) := by
  induction appends generalizing w s payload with
  | nil =>
    cases hok
    exact ⟨by simpa using h, rfl, rfl⟩
  | cons packed appends ih =>
    unfold appendAll at hok
    dsimp only at hok
    split at hok
    · cases hok
    case isFalse hstatus =>
      rw [Bool.not_eq_true, Bool.not_eq_false'] at hstatus
      obtain ⟨hactive, hformat, hfile⟩ := file_appendFrames hsink h hstatus
      obtain ⟨hlast, hformat', hfile'⟩ := ih hactive hok
      refine ⟨by simpa using hlast, hformat'.trans hformat, ?_⟩
      rw [hfile', hfile, List.foldl_cons]

/-- Writes at the end of a file append. -/
theorem foldl_write (bytes : List UInt8) (appends : List (List UInt8)) :
    appends.foldl ByteFile.write ⟨bytes, bytes.length⟩ =
      ⟨bytes ++ appends.flatten, (bytes ++ appends.flatten).length⟩ := by
  induction appends generalizing bytes with
  | nil => simp
  | cons packed appends ih =>
    rw [List.foldl_cons, ByteFile.write_end, ih, List.append_assoc, List.flatten_cons]

/-- The calls of `begin` leave an empty file its first header. -/
theorem apply_beginCalls (format : Pcm24WavFormat) :
    (beginCalls format).foldl SinkCall.apply {} =
      ⟨makeHeader format 0, (makeHeader format 0).length⟩ := by
  simp [beginCalls, SinkCall.apply, ByteFile.seek, ByteFile.write, overwrite]

/-- The calls of `finish` turn a header and its payload into the finished file. -/
theorem apply_finishCalls {w : Pcm24ArtifactWriter} {payload header : List UInt8}
    (h : w.Active payload) (hheader : header.length = 44) :
    w.finishCalls.foldl SinkCall.apply ⟨header ++ payload, (header ++ payload).length⟩ =
      ⟨wavFile w.format payload, (wavFile w.format payload).length⟩ := by
  have hbytes : w.dataBytes = .ofNat payload.length := by
    rw [← h.dataBytes, UInt32.ofNat_toNat]
  have hmod : (w.dataBytes &&& 1).toNat = payload.length % 2 := by
    rw [and_one_toNat, h.dataBytes]
  have hodd : w.dataBytes &&& 1 ≠ 0 ↔ payload.length % 2 = 1 := by
    rw [Ne, ← UInt32.toNat_inj, hmod]
    show ¬ payload.length % 2 = 0 ↔ _
    omega
  have hpad : (if w.dataBytes &&& 1 ≠ 0 then [SinkCall.write [0]] else []).foldl SinkCall.apply
      ⟨header ++ payload, (header ++ payload).length⟩ =
        ⟨header ++ (payload ++ padding payload.length),
          44 + payload.length + payload.length % 2⟩ := by
    unfold padding
    by_cases hparity : payload.length % 2 = 1
    · rw [if_pos (hodd.mpr hparity), if_pos hparity]
      refine (ByteFile.write_end (header ++ payload) [0]).trans ?_
      simp only [List.append_assoc, List.length_append, hheader, hparity, List.length_singleton,
        Nat.add_assoc]
    · rw [if_neg (mt hodd.mp hparity), if_neg hparity]
      have heven : payload.length % 2 = 0 := by omega
      simp only [List.foldl_nil, List.append_nil, List.length_append, hheader, heven, Nat.add_zero]
  rw [finishCalls, List.foldl_append, hpad]
  simp only [List.foldl_cons, List.foldl_nil, SinkCall.apply, ByteFile.seek, ByteFile.write]
  rw [overwrite_zero ((length_makeHeader ..).trans hheader.symm), length_wavFile, hmod,
    h.dataBytes, hbytes, wavFile, List.append_assoc]
  rfl

/-- What is left of a finished artifact: its file, and the sizes its summary reports. -/
theorem file_produce (hsink : sink.Keeps file) {sha256Hex : List UInt8 → String} {s s' : σ}
    {format : Pcm24WavFormat} {appends : List (List UInt8)} {summary : Pcm24ArtifactSummary}
    (hempty : file s = {}) (h : produce sink sha256Hex s format appends = .ok (summary, s')) :
    validFormat format = true ∧ Fits appends.flatten.length ∧
      appends.flatten.length % (format.channels.toNat * 3) = 0 ∧
      file s' = ⟨wavFile format appends.flatten, (wavFile format appends.flatten).length⟩ ∧
      summary.fileBytes = (wavFile format appends.flatten).length ∧
      summary.dataBytes.toNat = appends.flatten.length ∧
      summary.frames.toNat = appends.flatten.length / (format.channels.toNat * 3) := by
  unfold produce at h
  cases hvalid : validFormat format with
  | false => simp [begin_of_invalid (show ({} : Pcm24ArtifactWriter).state ≠ .active by decide)
      hvalid] at h
  | true =>
    rw [begin_eq (by decide) hvalid] at h
    cases hbegin : (runCalls sink s (beginCalls format)).1.isOk with
    | false => simp [hbegin, isOk_fail] at h
    | true =>
      have hfile := hsink.runCalls hbegin
      rw [hempty, apply_beginCalls] at hfile
      simp only [hbegin, if_true, Status.isOk_success, Bool.not_true, Bool.false_eq_true,
        if_false] at h
      split at h
      · cases h
      case h_2 w s₂ happends =>
        obtain ⟨hactive, hformat, hfile₂⟩ :=
          file_appendAll hsink (active_begun hvalid) happends
        rw [List.nil_append] at hactive
        rw [hfile, foldl_write] at hfile₂
        rw [finish_eq hactive] at h
        cases hfinish : (runCalls sink s₂ w.finishCalls).1.isOk with
        | false => simp [hfinish, isOk_fail] at h
        | true =>
          have hfile₃ := hsink.runCalls hfinish
          simp only [hfinish, if_true, Status.isOk_success, Bool.not_true, Bool.false_eq_true,
            if_false, Except.ok.injEq, Prod.mk.injEq] at h
          obtain ⟨rfl, rfl⟩ := h
          rw [hfile₂, apply_finishCalls hactive (length_makeHeader format 0), hformat] at hfile₃
          have hframes := hactive.frames
          rw [hformat] at hframes
          refine ⟨rfl, hactive.fits, ?_, hfile₃, ?_, hactive.dataBytes, hframes⟩
          · rw [← hactive.whole, hformat]
            rfl
          · simp only [summaryOf, pcm24WavHeaderBytes, and_one_toNat, hactive.dataBytes,
              length_wavFile]

end

/-! ## A sink in memory -/

/-- A file in memory, whose calls succeed. -/
def memorySink : Pcm24ByteSink ByteFile where
  writeExact file data := (.success, file.write data)
  seek file offset := (.success, file.seek offset)

theorem keeps_memorySink : memorySink.Keeps id := ⟨fun _ _ _ => rfl, fun _ _ _ => rfl⟩

theorem runCalls_memorySink (file : ByteFile) (calls : List SinkCall) :
    (runCalls memorySink file calls).1.isOk = true := by
  induction calls generalizing file with
  | nil => rfl
  | cons call calls ih =>
    cases call with
    | write data => exact ih (file.write data)
    | seek offset => exact ih (file.seek offset)

/-- Appends the writer admits: whole frames, few enough a call, their sum inside RIFF's size. -/
structure Admits (format : Pcm24WavFormat) (appends : List (List UInt8)) : Prop where
  whole : ∀ packed ∈ appends, packed.length % (format.channels.toNat * 3) = 0
  capped : ∀ packed ∈ appends,
    packed.length / (format.channels.toNat * 3) ≤ pcm24ArtifactMaxAppendFrames
  fits : Fits appends.flatten.length

theorem appendAll_memorySink {w : Pcm24ArtifactWriter} {file : ByteFile} {payload : List UInt8}
    (h : w.Active payload) {appends : List (List UInt8)}
    (hwhole : ∀ packed ∈ appends, packed.length % (w.format.channels.toNat * 3) = 0)
    (hcapped : ∀ packed ∈ appends,
      packed.length / (w.format.channels.toNat * 3) ≤ pcm24ArtifactMaxAppendFrames)
    (hfits : Fits (payload ++ appends.flatten).length) :
    ∃ last file', appendAll memorySink w file appends = .ok (last, file') := by
  induction appends generalizing w file payload with
  | nil => exact ⟨w, file, rfl⟩
  | cons packed appends ih =>
    rw [List.flatten_cons, ← List.append_assoc] at hfits
    have hfirst : Fits (payload.length + packed.length) := by
      unfold Fits at hfits ⊢
      simp only [List.length_append] at hfits
      omega
    have hok : (appendFrames memorySink w file packed).1.isOk = true :=
      appendFrames_ok h (hwhole packed List.mem_cons_self) (hcapped packed List.mem_cons_self)
        hfirst rfl
    obtain ⟨hactive, hformat, -⟩ := file_appendFrames keeps_memorySink h hok
    unfold appendAll
    simp only [hok, Bool.not_true, Bool.false_eq_true, if_false]
    exact ih hactive (fun p hp => hformat ▸ hwhole p (List.mem_cons_of_mem _ hp))
      (fun p hp => hformat ▸ hcapped p (List.mem_cons_of_mem _ hp)) hfits

/-- A writer into memory completes every artifact it admits. -/
theorem produce_memorySink (sha256Hex : List UInt8 → String) {format : Pcm24WavFormat}
    {appends : List (List UInt8)} (hvalid : validFormat format = true)
    (h : Admits format appends) :
    ∃ summary file, produce memorySink sha256Hex {} format appends = .ok (summary, file) := by
  unfold produce
  rw [begin_eq (by decide) hvalid, if_pos (runCalls_memorySink _ _)]
  have hactive := active_begun hvalid
  generalize (runCalls memorySink {} (beginCalls format)).2 = first
  obtain ⟨last, file, happends⟩ : ∃ last file,
      appendAll memorySink (begun format) first appends = .ok (last, file) :=
    appendAll_memorySink hactive h.whole h.capped h.fits
  have hlast := (file_appendAll keeps_memorySink hactive happends).1
  simp only [happends, finish_eq hlast, if_pos (runCalls_memorySink _ _)]
  exact ⟨_, _, rfl⟩

end Pcm24ArtifactWriter
end WaveformGenerator.Artifact
