import Mathlib.Data.List.GetD
import WaveformGenerator.Host.CompareCapture

/-!
# What a comparison finds

A capture's bytes are those of its lanes, so a block the fast path takes has no sample the slow one
refuses. The loop reports the first sample that differs, whatever the blocks.
-/

namespace WaveformGenerator.Host

/-! ## Lanes -/

theorem length_setStride (out : List UInt8) (start step : Nat) (lane : List UInt8) :
    (setStride out start step lane).length = out.length := List.length_mapIdx

/-- A strided assignment writes its own places and no others. -/
theorem getD_setStride {out : List UInt8} {start step other index : Nat} (hstart : start < step)
    (hother : other < step) (hindex : other + index * step < out.length) (lane : List UInt8) :
    (setStride out start step lane).getD (other + index * step) 0 =
      if start = other then lane.getD index (out.getD (other + index * step) 0)
      else out.getD (other + index * step) 0 := by
  unfold setStride
  rw [List.getD_eq_getElem _ _ (by rwa [List.length_mapIdx]), List.getElem_mapIdx,
    List.getD_eq_getElem _ _ hindex]
  by_cases hsame : start = other
  · subst hsame
    rw [if_pos rfl, if_pos]
    · rw [Nat.add_sub_cancel_left, Nat.mul_div_cancel _ (Nat.zero_lt_of_lt hstart)]
    · rw [Nat.add_sub_cancel_left, Nat.mul_mod_left]
      exact ⟨Nat.le_add_right _ _, rfl⟩
  · rw [if_neg hsame, if_neg]
    rintro ⟨hle, hzero⟩
    obtain ⟨turns, hturns⟩ := Nat.dvd_of_mod_eq_zero hzero
    have hmod := congrArg (· % step) (show other + index * step = start + step * turns by omega)
    simp only [Nat.add_mul_mod_self_right, Nat.add_mul_mod_self_left, Nat.mod_eq_of_lt hstart,
      Nat.mod_eq_of_lt hother] at hmod
    exact hsame hmod.symm

/-- Assignments that start elsewhere keep a place. -/
theorem getD_setStrides_of_ne {lanes : List (Nat × List UInt8)} {step start index : Nat}
    (hstart : start < step) (hothers : ∀ lane ∈ lanes, lane.1 < step ∧ lane.1 ≠ start)
    {out : List UInt8} (hindex : start + index * step < out.length) :
    (lanes.foldl (fun out lane => setStride out lane.1 step lane.2) out).getD
      (start + index * step) 0 = out.getD (start + index * step) 0 := by
  induction lanes generalizing out with
  | nil => rfl
  | cons lane later ih =>
    obtain ⟨hlane, hne⟩ := hothers lane List.mem_cons_self
    rw [List.foldl_cons, ih (fun other hmem => hothers other (List.mem_cons_of_mem _ hmem))
      (by rwa [length_setStride]), getD_setStride hlane hstart hindex, if_neg hne]

/-- Assignments of lanes of which no two start at one place. -/
theorem getD_setStrides {lanes : List (Nat × List UInt8)} {step frames : Nat}
    (hstarts : ∀ lane ∈ lanes, lane.1 < step ∧ lane.2.length = frames)
    (hnodup : (lanes.map (·.1)).Nodup) {out : List UInt8} (hlength : out.length = step * frames)
    {lane : Nat × List UInt8} (hmem : lane ∈ lanes) {index : Nat} (hindex : index < frames) :
    (lanes.foldl (fun out lane => setStride out lane.1 step lane.2) out).getD
      (lane.1 + index * step) 0 = lane.2.getD index 0 := by
  have hplace : lane.1 + index * step < step * frames := by
    have hlane := (hstarts lane hmem).1
    calc lane.1 + index * step < step + index * step := Nat.add_lt_add_right hlane _
      _ = (index + 1) * step := by rw [Nat.succ_mul, Nat.add_comm]
      _ ≤ frames * step := Nat.mul_le_mul_right _ hindex
      _ = step * frames := Nat.mul_comm _ _
  induction lanes generalizing out with
  | nil => cases hmem
  | cons first later ih =>
    rw [List.map_cons, List.nodup_cons] at hnodup
    obtain ⟨hfirst, hlater⟩ := hnodup
    obtain ⟨hbound, hcount⟩ := hstarts first List.mem_cons_self
    rw [List.foldl_cons]
    obtain rfl | hmem := List.mem_cons.mp hmem
    · rw [getD_setStrides_of_ne hbound]
      · rw [getD_setStride hbound hbound (by rwa [hlength]), if_pos rfl,
          List.getD_eq_getElem _ _ (by rwa [hcount]), List.getD_eq_getElem _ _ (by rwa [hcount])]
      · intro other hother
        refine ⟨(hstarts other (List.mem_cons_of_mem _ hother)).1, fun heq => hfirst ?_⟩
        exact List.mem_map.mpr ⟨other, hother, heq⟩
      · rwa [length_setStride, hlength]
    · exact ih (fun other hother => hstarts other (List.mem_cons_of_mem _ hother)) hlater
        ((length_setStride ..).trans hlength) hmem

/-- The assignments of `asCaptured`, one for each byte of a frame. -/
def laneStarts (channels : Nat) (lanes : List (List UInt8)) : List (Nat × List UInt8) :=
  (List.range channels).flatMap fun channel =>
    lanes.zipIdx.map fun lane => (channel * lanes.length + lane.2, lane.1)

theorem mem_laneStarts {channels : Nat} {lanes : List (List UInt8)} {channel byte : Nat}
    (hchannel : channel < channels) (hbyte : byte < lanes.length) :
    (channel * lanes.length + byte, lanes[byte]) ∈ laneStarts channels lanes := by
  refine List.mem_flatMap.mpr ⟨channel, List.mem_range.mpr hchannel, List.mem_map.mpr ?_⟩
  exact ⟨(lanes[byte], byte), List.mem_zipIdx_iff_getElem?.mpr (List.getElem?_eq_getElem hbyte),
    rfl⟩

theorem starts_laneStarts (channels : Nat) (lanes : List (List UInt8)) :
    (laneStarts channels lanes).map (·.1) = List.range (channels * lanes.length) := by
  induction channels with
  | zero => rw [Nat.zero_mul]; rfl
  | succ channels ih =>
    have hlast : laneStarts (channels + 1) lanes = laneStarts channels lanes ++
        lanes.zipIdx.map fun lane => (channels * lanes.length + lane.2, lane.1) := by
      unfold laneStarts
      rw [List.range_succ, List.flatMap_append, List.flatMap_singleton]
    rw [hlast, List.map_append, ih, Nat.succ_mul, List.range_add, List.map_map]
    congr 1
    have hcomp : ((·.1) ∘ fun lane : List UInt8 × Nat =>
        (channels * lanes.length + lane.2, lane.1)) =
          (channels * lanes.length + ·) ∘ (·.2) := rfl
    rw [hcomp, ← List.map_map, List.zipIdx_map_snd, List.range_eq_range']

theorem asCaptured_eq (data : List UInt8) (kind : SampleKind) (bits channels streamBits : Nat) :
    asCaptured data kind bits channels streamBits =
      (laneStarts channels (capturedLanes data kind bits streamBits)).foldl
        (fun out lane => setStride out lane.1
          ((capturedLanes data kind bits streamBits).length * channels) lane.2)
        (List.replicate ((capturedLanes data kind bits streamBits).length * channels *
          (data.length / pcm24Bytes)) 0) := by
  unfold asCaptured laneStarts
  rw [List.foldl_flatMap]
  dsimp only
  refine List.foldl_ext _ _ _ fun out channel _ => ?_
  rw [List.foldl_map]

/-- A byte of the capture a stream makes: of a frame, on every channel, its lane's. -/
theorem getD_asCaptured {data : List UInt8} {kind : SampleKind} {bits channels streamBits : Nat}
    (hlanes : ∀ lane ∈ capturedLanes data kind bits streamBits,
      lane.length = data.length / pcm24Bytes)
    {frame channel byte : Nat} (hframe : frame < data.length / pcm24Bytes)
    (hchannel : channel < channels)
    (hbyte : byte < (capturedLanes data kind bits streamBits).length) :
    (asCaptured data kind bits channels streamBits).getD
        ((frame * channels + channel) * (capturedLanes data kind bits streamBits).length + byte) 0 =
      ((capturedLanes data kind bits streamBits)[byte]).getD frame 0 := by
  rw [asCaptured_eq]
  generalize capturedLanes data kind bits streamBits = lanes at *
  have hmem := mem_laneStarts hchannel hbyte
  have hstarts : ∀ lane ∈ laneStarts channels lanes,
      lane.1 < lanes.length * channels ∧ lane.2.length = data.length / pcm24Bytes := by
    intro lane hlane
    constructor
    · have hstart := List.mem_map_of_mem (f := (·.1)) hlane
      rw [starts_laneStarts, List.mem_range, Nat.mul_comm] at hstart
      exact hstart
    · obtain ⟨_, -, hlane⟩ := List.mem_flatMap.mp hlane
      obtain ⟨indexed, hindexed, rfl⟩ := List.mem_map.mp hlane
      exact hlanes _ (List.fst_mem_of_mem_zipIdx hindexed)
  have hnodup : ((laneStarts channels lanes).map (·.1)).Nodup := by
    rw [starts_laneStarts]
    exact List.nodup_range
  have hplace : (frame * channels + channel) * lanes.length + byte =
      (channel * lanes.length + byte) + frame * (lanes.length * channels) := by ring
  rw [hplace]
  exact getD_setStrides hstarts hnodup List.length_replicate hmem hframe

/-! ## Samples -/

theorem length_stride_three {data : List UInt8} {start : Nat} (hstart : start < 3)
    (hdata : data.length % 3 = 0) : (stride data start 3).length = data.length / pcm24Bytes := by
  unfold stride pcm24Bytes
  rw [List.length_map, List.length_range]
  omega

theorem getD_stride_three {data : List UInt8} {start frame : Nat} (hstart : start < 3)
    (hdata : data.length % 3 = 0) (hframe : frame < data.length / pcm24Bytes) :
    (stride data start 3).getD frame 0 = data.getD (start + frame * 3) 0 := by
  have hlength := length_stride_three hstart hdata
  rw [List.getD_eq_getElem _ _ (hlength ▸ hframe)]
  unfold stride
  rw [List.getElem_map, List.getElem_range]

theorem slice_succ {bytes : List UInt8} {offset n : Nat} (h : offset < bytes.length) :
    slice bytes offset (n + 1) = bytes.getD offset 0 :: slice bytes (offset + 1) n := by
  unfold slice
  rw [List.drop_eq_getElem_cons h, List.take_succ_cons, List.getD_eq_getElem _ _ h]

theorem slice_zero (bytes : List UInt8) (offset : Nat) : slice bytes offset 0 = [] := List.take_zero

theorem getD_slice {bytes : List UInt8} {offset n index : Nat} (h : index < n) :
    (slice bytes offset n).getD index 0 = bytes.getD (offset + index) 0 := by
  unfold slice
  rw [List.getD_eq_getElem?_getD, List.getElem?_take_of_lt h, List.getElem?_drop,
    ← List.getD_eq_getElem?_getD]

theorem slice_three {data : List UInt8} {frame : Nat} (hframe : frame < data.length / pcm24Bytes) :
    slice data (frame * pcm24Bytes) pcm24Bytes =
      [data.getD (0 + frame * 3) 0, data.getD (1 + frame * 3) 0, data.getD (2 + frame * 3) 0] := by
  unfold pcm24Bytes at *
  rw [slice_succ (by omega), slice_succ (by omega), slice_succ (by omega), slice_zero,
    Nat.zero_add, Nat.add_comm 1, Nat.add_comm 2]

/-- The bits of a PCM capture that `compare` reads. -/
def PcmBits (bits : Nat) : Prop := bits = 16 ∨ bits = 24 ∨ bits = 32

theorem capturedLanes_pcm {data : List UInt8} {bits : Nat} (hbits : PcmBits bits)
    (hdata : data.length % 3 = 0) (streamBits : Nat) :
    (capturedLanes data .pcm bits streamBits).length = bits / 8 ∧
      ∀ lane ∈ capturedLanes data .pcm bits streamBits,
        lane.length = data.length / pcm24Bytes := by
  have hlow : (if streamBits = 16 then List.replicate (data.length / pcm24Bytes) 0
      else stride data 0 3).length = data.length / pcm24Bytes := by
    split
    · exact List.length_replicate
    · exact length_stride_three (by decide) hdata
  have hmiddle := @length_stride_three data 1 (by decide) hdata
  have hhigh := @length_stride_three data 2 (by decide) hdata
  unfold capturedLanes
  dsimp only
  generalize (if streamBits = 16 then List.replicate (data.length / pcm24Bytes) 0
    else stride data 0 3) = low at *
  obtain rfl | rfl | rfl := hbits
  · refine ⟨rfl, ?_⟩
    simp only [Nat.reduceEqDiff, if_false, List.forall_mem_cons]
    exact ⟨hmiddle, hhigh, nofun⟩
  · refine ⟨rfl, ?_⟩
    simp only [Nat.reduceEqDiff, if_false, if_true, List.forall_mem_cons]
    exact ⟨hlow, hmiddle, hhigh, nofun⟩
  · refine ⟨rfl, ?_⟩
    simp only [if_true, List.forall_mem_cons]
    exact ⟨List.length_replicate, hlow, hmiddle, hhigh, nofun⟩

/-- A captured sample of a PCM format at the 24-bit scale. -/
def scaled (bits : Nat) (sample : Int) : Int :=
  if bits = 16 then sample * 256 else if bits = 32 then sample / 256 else sample

/-- The sample that is wanted of a captured one, at the 24-bit scale. -/
def narrowed (bits : Nat) (want : Int) : Int := if bits = 16 then want / 256 * 256 else want

theorem getD_captureSamples {captured : List UInt8} {bits index count : Nat} (hbits : PcmBits bits)
    (hlength : captured.length = count * (bits / 8)) (hindex : index < count) :
    (captureSamples captured .pcm bits).getD index none =
      some (scaled bits (ofLeSigned (slice captured (index * (bits / 8)) (bits / 8)))) := by
  have hwidth : 0 < bits / 8 := by
    obtain rfl | rfl | rfl := hbits <;> decide
  have hcount : (captured.length + bits / 8 - 1) / (bits / 8) = count := by
    rw [hlength, Nat.add_sub_assoc hwidth, Nat.mul_comm, Nat.mul_add_div hwidth,
      Nat.div_eq_of_lt (by omega), Nat.add_zero]
  unfold captureSamples
  dsimp only
  rw [hcount, List.map_map, List.getD_eq_getElem _ _ (by rwa [List.length_map, List.length_range]),
    List.getElem_map, List.getElem_range]
  rfl

/-- The lowest byte of a signed number is put below the number of the others. -/
theorem ofLeSigned_cons (byte : UInt8) {rest : List UInt8} (hrest : rest ≠ []) :
    ofLeSigned (byte :: rest) = byte.toNat + 256 * ofLeSigned rest := by
  have hbyte := byte.toNat_lt
  obtain ⟨half, hhalf⟩ : ∃ half, 256 ^ rest.length = 2 * half := by
    cases rest with
    | nil => exact absurd rfl hrest
    | cons next rest =>
      refine ⟨128 * 256 ^ rest.length, ?_⟩
      rw [List.length_cons, Nat.pow_succ]
      omega
  unfold ofLeSigned
  have hcast : (256 : Int) ^ rest.length = 2 * half := by exact_mod_cast hhalf
  rw [ofLe, List.length_cons, Nat.pow_succ, hhalf, Int.pow_succ, hcast]
  by_cases hlow : 2 * ofLe rest < 2 * half
  · rw [if_pos hlow, if_pos (by omega)]
    push_cast
    omega
  · rw [if_neg hlow, if_neg (by omega)]
    push_cast
    omega

/-- Low bits that are cleared, as a byte. -/
theorem wanted_sixteen (byte : UInt8) {rest : List UInt8} (hrest : rest ≠ []) :
    wanted (ofLeSigned (byte :: rest)) 16 = ofLeSigned (0 :: rest) := by
  have hbyte := byte.toNat_lt
  have hzero : (0 : UInt8).toNat = 0 := rfl
  rw [ofLeSigned_cons byte hrest, ofLeSigned_cons 0 hrest, hzero]
  unfold wanted
  show ((byte.toNat : Int) + 256 * ofLeSigned rest) / 2 ^ 8 * 2 ^ 8 = _
  omega

theorem wanted_full (sample : Int) : wanted sample 24 = sample := by
  unfold wanted
  show sample / 2 ^ 0 * 2 ^ 0 = sample
  omega

theorem length_foldl_setStride (lanes : List (Nat × List UInt8)) (step : Nat) (out : List UInt8) :
    (lanes.foldl (fun out lane => setStride out lane.1 step lane.2) out).length = out.length := by
  induction lanes generalizing out with
  | nil => rfl
  | cons lane later ih =>
    rw [List.foldl_cons, ih]
    exact length_setStride ..

theorem length_asCaptured (data : List UInt8) (kind : SampleKind)
    (bits channels streamBits : Nat) :
    (asCaptured data kind bits channels streamBits).length =
      (capturedLanes data kind bits streamBits).length * channels *
        (data.length / pcm24Bytes) := by
  rw [asCaptured_eq, length_foldl_setStride, List.length_replicate]

/-- The bytes of a sample on a channel are those of its lanes at its frame. -/
theorem slice_asCaptured {data : List UInt8} {bits channels streamBits : Nat}
    (hbits : PcmBits bits) (hdata : data.length % 3 = 0) {frame channel : Nat}
    (hframe : frame < data.length / pcm24Bytes) (hchannel : channel < channels) :
    slice (asCaptured data .pcm bits channels streamBits)
        ((frame * channels + channel) * (bits / 8)) (bits / 8) =
      (capturedLanes data .pcm bits streamBits).map (·.getD frame 0) := by
  obtain ⟨hwidth, hlanes⟩ := capturedLanes_pcm hbits hdata streamBits
  have hbyte := fun byte => @getD_asCaptured data .pcm bits channels streamBits hlanes frame channel
    byte hframe hchannel
  have hlength := length_asCaptured data .pcm bits channels streamBits
  rw [hwidth] at hlength
  have hend : (frame * channels + channel) * (bits / 8) + bits / 8 ≤
      (asCaptured data .pcm bits channels streamBits).length := by
    rw [hlength]
    calc (frame * channels + channel) * (bits / 8) + bits / 8
        = (frame * channels + (channel + 1)) * (bits / 8) := by ring
      _ ≤ (frame * channels + channels) * (bits / 8) :=
          Nat.mul_le_mul_right _ (Nat.add_le_add_left hchannel _)
      _ = (bits / 8) * channels * (frame + 1) := by ring
      _ ≤ (bits / 8) * channels * (data.length / pcm24Bytes) := Nat.mul_le_mul_left _ hframe
  refine List.ext_getElem ?_ fun byte hbefore hafter => ?_
  · rw [length_slice hend, List.length_map, hwidth]
  · have hlow : byte < bits / 8 := by rwa [length_slice hend] at hbefore
    rw [← List.getD_eq_getElem _ 0 hbefore, getD_slice hlow, List.getElem_map]
    refine Eq.trans ?_ (hbyte byte (hwidth ▸ hlow))
    rw [hwidth]

/-- What a capture holds of a stream is, at the 24-bit scale, what the slow path wants of it. -/
theorem scaled_asCaptured {data : List UInt8} {bits channels streamBits : Nat}
    (hbits : PcmBits bits) (hstream : streamBits = 16 ∨ streamBits = 24)
    (hdata : data.length % 3 = 0) {frame channel : Nat}
    (hframe : frame < data.length / pcm24Bytes) (hchannel : channel < channels) :
    scaled bits (ofLeSigned (slice (asCaptured data .pcm bits channels streamBits)
        ((frame * channels + channel) * (bits / 8)) (bits / 8))) =
      narrowed bits (wanted (ofLeSigned (slice data (frame * pcm24Bytes) pcm24Bytes))
        streamBits) := by
  rw [slice_asCaptured hbits hdata hframe hchannel, slice_three hframe]
  have hstride := fun start hstart => @getD_stride_three data start frame hstart hdata hframe
  have hlow : ∃ low : UInt8,
      (if streamBits = 16 then List.replicate (data.length / pcm24Bytes) 0
        else stride data 0 3).getD frame 0 = low ∧
      wanted (ofLeSigned [data.getD (0 + frame * 3) 0, data.getD (1 + frame * 3) 0,
        data.getD (2 + frame * 3) 0]) streamBits =
          ofLeSigned [low, data.getD (1 + frame * 3) 0, data.getD (2 + frame * 3) 0] := by
    obtain rfl | rfl := hstream
    · refine ⟨0, ?_, wanted_sixteen _ (by exact nofun)⟩
      rw [if_pos rfl, List.getD_replicate _ hframe]
    · exact ⟨_, by rw [if_neg (by decide)]; exact hstride 0 (by decide), wanted_full _⟩
  obtain ⟨low, hlane, hwanted⟩ := hlow
  rw [hwanted]
  have hmiddle := hstride 1 (by decide)
  have hhigh := hstride 2 (by decide)
  generalize data.getD (1 + frame * 3) 0 = middle at *
  generalize data.getD (2 + frame * 3) 0 = high at *
  unfold capturedLanes
  dsimp only
  generalize (if streamBits = 16 then List.replicate (data.length / pcm24Bytes) 0
    else stride data 0 3) = lane at *
  have hlowByte := low.toNat_lt
  obtain rfl | rfl | rfl := hbits
  · simp only [Nat.reduceEqDiff, if_false, List.map_cons, List.map_nil, hmiddle, hhigh]
    rw [ofLeSigned_cons low (by exact nofun)]
    unfold scaled narrowed
    rw [if_pos rfl, if_pos rfl]
    omega
  · simp only [Nat.reduceEqDiff, if_false, if_true, List.map_cons, List.map_nil, hlane, hmiddle,
      hhigh]
    rfl
  · simp only [if_true, List.map_cons, List.map_nil, hlane, hmiddle, hhigh]
    rw [List.getD_replicate _ hframe, ofLeSigned_cons 0 (by exact nofun)]
    unfold scaled narrowed
    rw [if_neg (by decide), if_pos rfl, if_neg (by decide)]
    have hzero : ((0 : UInt8).toNat : Int) = 0 := rfl
    omega

/-! ## The first sample that differs -/

theorem findSome?_range_none {β : Type} {f : Nat → Option β} {n : Nat} :
    (List.range n).findSome? f = none ↔ ∀ index < n, f index = none := by
  rw [List.findSome?_eq_none_iff]
  exact ⟨fun h index hindex => h index (List.mem_range.mpr hindex),
    fun h index hindex => h index (List.mem_range.mp hindex)⟩

theorem findSome?_range_some {β : Type} {f : Nat → Option β} {n : Nat} {found : β}
    (h : (List.range n).findSome? f = some found) :
    ∃ index < n, f index = some found ∧ ∀ earlier < index, f earlier = none := by
  induction n with
  | zero => cases h
  | succ n ih =>
    rw [List.range_succ, List.findSome?_append] at h
    cases hbefore : (List.range n).findSome? f with
    | some earlier =>
      rw [hbefore, Option.some_or, Option.some.injEq] at h
      subst h
      obtain ⟨index, hindex, hfound⟩ := ih hbefore
      exact ⟨index, Nat.lt_succ_of_lt hindex, hfound⟩
    | none =>
      rw [hbefore, Option.none_or, List.findSome?_cons] at h
      refine ⟨n, Nat.lt_succ_self n, ?_, findSome?_range_none.mp hbefore⟩
      split at h
      · rwa [← h]
      · cases h

theorem findSome?_range_congr {β : Type} {f g : Nat → Option β} {n : Nat}
    (h : ∀ index < n, f index = g index) :
    (List.range n).findSome? f = (List.range n).findSome? g := by
  induction n with
  | zero => rfl
  | succ n ih =>
    rw [List.range_succ, List.findSome?_append, List.findSome?_append,
      ih fun index hindex => h index (Nat.lt_succ_of_lt hindex), List.findSome?_cons,
      List.findSome?_cons, h n (Nat.lt_succ_self n)]
    rfl

/-- The first sample from frame `first` up to `last`, by frame and then by channel, that does not
agree. -/
structure First (agrees : Nat → Nat → Prop) (first last channels : Nat) (mismatch : Mismatch) :
    Prop where
  first_le : first ≤ mismatch.frame
  lt_last : mismatch.frame < last
  channel_lt : mismatch.channel < channels
  differs : ¬ agrees mismatch.frame mismatch.channel
  before : ∀ frame, first ≤ frame → frame < mismatch.frame → ∀ channel < channels,
    agrees frame channel
  beside : ∀ channel < mismatch.channel, agrees mismatch.frame channel

theorem ite_eq_none_iff {β : Type} {p : Prop} [Decidable p] {found : β} :
    (if p then none else some found) = none ↔ p := by
  by_cases hp : p
  · rw [if_pos hp]
    exact iff_of_true rfl hp
  · rw [if_neg hp]
    exact iff_of_false nofun hp

/-- A block's captured sample and the expected one are equal as the capture holds it. -/
def BlockAgrees (data captured : List UInt8) (bits channels streamBits frame channel : Nat) :
    Prop :=
  scaled bits (ofLeSigned (slice captured ((frame * channels + channel) * (bits / 8)) (bits / 8))) =
    narrowed bits (wanted (ofLeSigned (slice data (frame * pcm24Bytes) pcm24Bytes)) streamBits)

instance (data captured : List UInt8) (bits channels streamBits frame channel : Nat) :
    Decidable (BlockAgrees data captured bits channels streamBits frame channel) :=
  inferInstanceAs (Decidable (_ = _))

/-- What the slow path reports of a sample that does not agree. -/
def blockMismatch (data captured : List UInt8) (bits channels streamBits frame channel : Nat) :
    Mismatch :=
  ⟨frame, channel, wanted (ofLeSigned (slice data (frame * pcm24Bytes) pcm24Bytes)) streamBits,
    some (scaled bits (ofLeSigned
      (slice captured ((frame * channels + channel) * (bits / 8)) (bits / 8))))⟩

section
variable {data captured : List UInt8} {bits channels streamBits : Nat}

theorem firstMismatch_eq (hbits : PcmBits bits)
    (hlength : captured.length = data.length / pcm24Bytes * channels * (bits / 8)) :
    firstMismatch data captured .pcm bits channels streamBits =
      (List.range (data.length / pcm24Bytes)).findSome? fun frame =>
        (List.range channels).findSome? fun channel =>
          if BlockAgrees data captured bits channels streamBits frame channel then none
          else some (blockMismatch data captured bits channels streamBits frame channel) := by
  unfold firstMismatch
  dsimp only
  refine findSome?_range_congr fun frame hframe =>
    findSome?_range_congr fun channel hchannel => ?_
  have hindex : frame * channels + channel < data.length / pcm24Bytes * channels :=
    calc frame * channels + channel < frame * channels + channels :=
          Nat.add_lt_add_left hchannel _
      _ = (frame + 1) * channels := (Nat.succ_mul ..).symm
      _ ≤ _ := Nat.mul_le_mul_right _ hframe
  rw [getD_captureSamples hbits hlength hindex]
  by_cases hagrees : BlockAgrees data captured bits channels streamBits frame channel
  · rw [if_pos hagrees]
    exact if_neg (not_not.mpr (congrArg some hagrees))
  · rw [if_neg hagrees]
    exact if_pos fun hsame => hagrees (Option.some.inj hsame)

theorem firstMismatch_none (hbits : PcmBits bits)
    (hlength : captured.length = data.length / pcm24Bytes * channels * (bits / 8)) :
    firstMismatch data captured .pcm bits channels streamBits = none ↔
      ∀ frame < data.length / pcm24Bytes, ∀ channel < channels,
        BlockAgrees data captured bits channels streamBits frame channel := by
  rw [firstMismatch_eq hbits hlength, findSome?_range_none]
  refine forall₂_congr fun frame _ => ?_
  rw [findSome?_range_none]
  exact forall₂_congr fun channel _ => ite_eq_none_iff

theorem firstMismatch_some (hbits : PcmBits bits)
    (hlength : captured.length = data.length / pcm24Bytes * channels * (bits / 8))
    {mismatch : Mismatch}
    (h : firstMismatch data captured .pcm bits channels streamBits = some mismatch) :
    First (BlockAgrees data captured bits channels streamBits) 0 (data.length / pcm24Bytes)
        channels mismatch ∧
      mismatch = blockMismatch data captured bits channels streamBits mismatch.frame
        mismatch.channel := by
  rw [firstMismatch_eq hbits hlength] at h
  obtain ⟨frame, hframe, hfound, hframes⟩ := findSome?_range_some h
  obtain ⟨channel, hchannel, hfound, hchannels⟩ := findSome?_range_some hfound
  split at hfound
  · cases hfound
  case isFalse hdiffers =>
    cases hfound
    refine ⟨⟨Nat.zero_le _, hframe, hchannel, hdiffers,
      fun earlier _ hearlier channel hchannel => ?_,
      fun channel hchannel => ite_eq_none_iff.mp (hchannels channel hchannel)⟩, rfl⟩
    exact ite_eq_none_iff.mp (findSome?_range_none.mp (hframes earlier hearlier) channel hchannel)

/-- The fast path takes no block in which the slow one finds a sample that differs. -/
theorem firstMismatch_asCaptured (hbits : PcmBits bits)
    (hstream : streamBits = 16 ∨ streamBits = 24) (hdata : data.length % 3 = 0)
    (hfast : asCaptured data .pcm bits channels streamBits = captured) :
    firstMismatch data captured .pcm bits channels streamBits = none := by
  subst hfast
  have hlength : (asCaptured data .pcm bits channels streamBits).length =
      data.length / pcm24Bytes * channels * (bits / 8) := by
    rw [length_asCaptured, (capturedLanes_pcm hbits hdata streamBits).1]
    ring
  rw [firstMismatch_none hbits hlength]
  exact fun frame hframe channel hchannel =>
    scaled_asCaptured hbits hstream hdata hframe hchannel

end

/-! ## The loop -/

/-- A sample of the capture and one of the stream are equal as the capture holds it: `source` and
`stream` are where their frames begin. -/
def Agrees (expected capture : List UInt8) (stream source blockAlign bits streamBits : Nat)
    (frame channel : Nat) : Prop :=
  scaled bits (ofLeSigned
      (slice capture (source + frame * blockAlign + channel * (bits / 8)) (bits / 8))) =
    narrowed bits (wanted
      (ofLeSigned (slice expected (stream + frame * pcm24Bytes) pcm24Bytes)) streamBits)

section
variable {expected capture : List UInt8}
  {stream source blockAlign bits channels streamBits frames done count : Nat}

/-- What is reported of a sample of the files that does not agree. -/
def fileMismatch (expected capture : List UInt8) (stream source blockAlign bits streamBits : Nat)
    (frame channel : Nat) : Mismatch :=
  ⟨frame, channel,
    wanted (ofLeSigned (slice expected (stream + frame * pcm24Bytes) pcm24Bytes)) streamBits,
    some (scaled bits (ofLeSigned
      (slice capture (source + frame * blockAlign + channel * (bits / 8)) (bits / 8))))⟩

/-- The samples of a block are those of the files, `done` frames on. -/
theorem slices_block (halign : blockAlign = channels * (bits / 8)) {frame channel : Nat}
    (hframe : frame < count) (hchannel : channel < channels) :
    slice (slice expected (stream + done * pcm24Bytes) (count * pcm24Bytes)) (frame * pcm24Bytes)
        pcm24Bytes = slice expected (stream + (done + frame) * pcm24Bytes) pcm24Bytes ∧
      slice (slice capture (source + done * blockAlign) (count * blockAlign))
          ((frame * channels + channel) * (bits / 8)) (bits / 8) =
        slice capture (source + (done + frame) * blockAlign + channel * (bits / 8)) (bits / 8) := by
  have hdata : frame * pcm24Bytes + pcm24Bytes ≤ count * pcm24Bytes := by
    rw [← Nat.succ_mul]
    exact Nat.mul_le_mul_right _ hframe
  have hcaptured : (frame * channels + channel) * (bits / 8) + bits / 8 ≤ count * blockAlign :=
    calc (frame * channels + channel) * (bits / 8) + bits / 8
        = (frame * channels + (channel + 1)) * (bits / 8) := by ring
      _ ≤ (frame * channels + channels) * (bits / 8) :=
          Nat.mul_le_mul_right _ (Nat.add_le_add_left hchannel _)
      _ = (frame + 1) * blockAlign := by rw [halign]; ring
      _ ≤ count * blockAlign := Nat.mul_le_mul_right _ hframe
  have hplace : source + done * blockAlign + (frame * channels + channel) * (bits / 8) =
      source + (done + frame) * blockAlign + channel * (bits / 8) := by
    rw [halign]
    ring
  have hstream : stream + done * pcm24Bytes + frame * pcm24Bytes =
      stream + (done + frame) * pcm24Bytes := by ring
  rw [slice_slice hdata, slice_slice hcaptured, hplace, hstream]
  exact ⟨rfl, rfl⟩

theorem blockAgrees_iff (halign : blockAlign = channels * (bits / 8)) {frame channel : Nat}
    (hframe : frame < count) (hchannel : channel < channels) :
    BlockAgrees (slice expected (stream + done * pcm24Bytes) (count * pcm24Bytes))
        (slice capture (source + done * blockAlign) (count * blockAlign)) bits channels streamBits
        frame channel ↔
      Agrees expected capture stream source blockAlign bits streamBits (done + frame) channel := by
  obtain ⟨hdata, hcaptured⟩ := slices_block halign hframe hchannel
  unfold BlockAgrees Agrees
  rw [hdata, hcaptured]

theorem blockMismatch_eq (halign : blockAlign = channels * (bits / 8)) {frame channel : Nat}
    (hframe : frame < count) (hchannel : channel < channels) :
    { blockMismatch (slice expected (stream + done * pcm24Bytes) (count * pcm24Bytes))
        (slice capture (source + done * blockAlign) (count * blockAlign)) bits channels streamBits
        frame channel with frame := done + frame } =
      fileMismatch expected capture stream source blockAlign bits streamBits (done + frame)
        channel := by
  obtain ⟨hdata, hcaptured⟩ := slices_block halign hframe hchannel
  unfold blockMismatch fileMismatch
  rw [hdata, hcaptured]

/-- From frame `done` on, the loop finds nothing exactly if every sample agrees, and else the first
that does not. -/
theorem compareFrom_exact (hbits : PcmBits bits) (hstream : streamBits = 16 ∨ streamBits = 24)
    (halign : blockAlign = channels * (bits / 8)) {turns : Nat} (hturns : frames - done ≤ turns)
    {found : Option Mismatch}
    (h : compareFrom expected capture stream source blockAlign .pcm bits channels streamBits frames
      done turns = .ok found) :
    (found = none ↔ ∀ frame, done ≤ frame → frame < frames → ∀ channel < channels,
      Agrees expected capture stream source blockAlign bits streamBits frame channel) ∧
    ∀ mismatch, found = some mismatch →
      First (Agrees expected capture stream source blockAlign bits streamBits) done frames channels
          mismatch ∧
        mismatch = fileMismatch expected capture stream source blockAlign bits streamBits
          mismatch.frame mismatch.channel := by
  induction turns generalizing done with
  | zero =>
    cases h
    exact ⟨iff_of_true rfl fun frame hdone hframe => by omega, nofun⟩
  | succ turns ih =>
    unfold compareFrom at h
    split at h
    case isFalse hend =>
      cases h
      exact ⟨iff_of_true rfl fun frame hdone hframe => by omega, nofun⟩
    case isTrue hmore =>
    dsimp only at h
    generalize hcount : min (frames - done) copyFrames = count at h
    have hpositive : 0 < count ∧ done + count ≤ frames := by
      unfold copyFrames at hcount
      omega
    split at h
    · cases h
    case isFalse hread =>
    rw [not_or, not_not, not_not] at hread
    have hdata : (slice expected (stream + done * pcm24Bytes) (count * pcm24Bytes)).length /
        pcm24Bytes = count := by
      rw [hread.1]
      exact Nat.mul_div_cancel _ (by decide)
    have hcaptured : (slice capture (source + done * blockAlign) (count * blockAlign)).length =
        (slice expected (stream + done * pcm24Bytes) (count * pcm24Bytes)).length / pcm24Bytes *
          channels * (bits / 8) := by
      rw [hread.2, hdata, halign]
      ring
    have hmod : (slice expected (stream + done * pcm24Bytes) (count * pcm24Bytes)).length % 3 =
        0 := by
      rw [hread.1]
      exact Nat.mul_mod_left _ _
    -- The fast path's answer is the slow path's.
    have hfast : (if asCaptured (slice expected (stream + done * pcm24Bytes) (count * pcm24Bytes))
          .pcm bits channels streamBits ≠
          slice capture (source + done * blockAlign) (count * blockAlign) then
        firstMismatch (slice expected (stream + done * pcm24Bytes) (count * pcm24Bytes))
          (slice capture (source + done * blockAlign) (count * blockAlign)) .pcm bits channels
          streamBits else none) =
        firstMismatch (slice expected (stream + done * pcm24Bytes) (count * pcm24Bytes))
          (slice capture (source + done * blockAlign) (count * blockAlign)) .pcm bits channels
          streamBits := by
      split
      · rfl
      case isFalse hsame =>
        exact (firstMismatch_asCaptured hbits hstream hmod (not_not.mp hsame)).symm
    rw [hfast] at h
    have hnone := @firstMismatch_none _ _ bits channels streamBits hbits hcaptured
    have hsome := fun mismatch => @firstMismatch_some _ _ bits channels streamBits hbits hcaptured
      mismatch
    rw [hdata] at hnone hsome
    cases hblock : firstMismatch (slice expected (stream + done * pcm24Bytes) (count * pcm24Bytes))
        (slice capture (source + done * blockAlign) (count * blockAlign)) .pcm bits channels
        streamBits with
    | none =>
      rw [hblock] at h
      have hagrees : ∀ frame, done ≤ frame → frame < done + count → ∀ channel < channels,
          Agrees expected capture stream source blockAlign bits streamBits frame channel := by
        intro frame hdone hframe channel hchannel
        obtain ⟨offset, rfl⟩ := Nat.exists_eq_add_of_le hdone
        have hoffset : offset < count := by omega
        exact (blockAgrees_iff halign hoffset hchannel).mp
          (hnone.mp hblock offset hoffset channel hchannel)
      obtain ⟨hall, hfirst⟩ := ih (by omega) h
      refine ⟨hall.trans ⟨fun hrest frame hdone hframe => ?_, fun hevery frame hdone => ?_⟩, ?_⟩
      · by_cases hblock : frame < done + count
        · exact hagrees frame hdone hblock
        · exact hrest frame (by omega) hframe
      · exact hevery frame (by omega)
      · intro mismatch hfound
        obtain ⟨first, hreport⟩ := hfirst mismatch hfound
        refine ⟨{ first with first_le := ?_, before := ?_ }, hreport⟩
        · exact Nat.le_trans (Nat.le_add_right _ _) first.first_le
        · intro frame hdone hframe
          by_cases hblock : frame < done + count
          · exact hagrees frame hdone hblock
          · exact first.before frame (by omega) hframe
    | some mismatch =>
      rw [hblock] at h
      cases h
      obtain ⟨first, hreport⟩ := hsome mismatch hblock
      have hiff := fun channel (hchannel : channel < channels) frame (hframe : frame < count) =>
        @blockAgrees_iff expected capture stream source blockAlign bits channels streamBits done
          count halign frame channel hframe hchannel
      have hdiffers := mt (hiff _ first.channel_lt _ first.lt_last).mpr first.differs
      refine ⟨iff_of_false nofun fun hevery => hdiffers (hevery _ (Nat.le_add_right _ _)
        (by have := first.lt_last; omega) _ first.channel_lt), ?_⟩
      intro found hfound
      cases hfound
      refine ⟨⟨Nat.le_add_right _ _, by have := first.lt_last; dsimp only; omega, first.channel_lt,
        hdiffers, fun frame hdone hframe channel hchannel => ?_, fun channel hchannel => ?_⟩, ?_⟩
      · obtain ⟨offset, rfl⟩ := Nat.exists_eq_add_of_le hdone
        have hoffset : offset < mismatch.frame := Nat.lt_of_add_lt_add_left hframe
        exact (hiff _ hchannel _ (Nat.lt_trans hoffset first.lt_last)).mp
          (first.before offset (Nat.zero_le _) hoffset channel hchannel)
      · exact (hiff _ (Nat.lt_trans hchannel first.channel_lt) _ first.lt_last).mp
          (first.beside channel hchannel)
      · have hframe := first.lt_last
        have hchannel := first.channel_lt
        rw [hreport]
        exact blockMismatch_eq halign hframe hchannel

end

/-! ## The result -/

/-- A captured sample is an expected one as a capture of that format holds it: the top 16 bits, the
24 bits, or the 24 bits at the top of 32, of which the low byte is not compared. -/
def HeldAs (bits streamBits : Nat) (sample captured : Int) : Prop :=
  if bits = 16 then captured = sample / 256
  else if bits = 32 then captured / 256 = wanted sample streamBits
  else captured = wanted sample streamBits

theorem heldAs_iff {bits streamBits : Nat} (hbits : PcmBits bits)
    (hstream : streamBits = 16 ∨ streamBits = 24) (sample captured : Int) :
    scaled bits captured = narrowed bits (wanted sample streamBits) ↔
      HeldAs bits streamBits sample captured := by
  unfold scaled narrowed HeldAs
  obtain rfl | rfl | rfl := hbits
  · rw [if_pos rfl, if_pos rfl, if_pos rfl]
    have hwanted : wanted sample streamBits / 256 = sample / 256 := by
      obtain rfl | rfl := hstream
      · show sample / 2 ^ 8 * 2 ^ 8 / 256 = _
        omega
      · rw [wanted_full]
    rw [hwanted]
    omega
  · exact Iff.rfl
  · exact Iff.rfl

theorem of_bind_ok {ε α β : Type} {x : Except ε α} {f : α → Except ε β} {result : β}
    (h : x >>= f = .ok result) : ∃ value, x = .ok value ∧ f value = .ok result := by
  cases x with
  | error error => cases h
  | ok value => exact ⟨value, rfl, h⟩

theorem of_mapError_ok {ε ε' α : Type} {x : Except ε α} {f : ε → ε'} {value : α}
    (h : x.mapError f = .ok value) : x = .ok value := by
  cases x with
  | error error => cases h
  | ok value' =>
    cases h
    rfl

theorem captureFormat_ok {layout : WavLayout} {bits channels : Nat}
    (h : captureFormat layout = .ok (.pcm, bits, channels)) :
    PcmBits bits ∧ (FmtFields.unpack layout.fmt).blockAlign = channels * (bits / 8) := by
  unfold captureFormat at h
  dsimp only at h
  generalize FmtFields.unpack layout.fmt = fields at *
  split at h
  · cases h
  split at h
  · cases h
  split at h
  · cases h
  case isFalse hformat =>
    rw [not_or, not_or, not_not, not_not] at hformat
    obtain ⟨-, halign, hkinds⟩ := hformat
    cases h
    have hbits : PcmBits fields.sampleBits := by
      simp only [Prod.mk.injEq, true_and, reduceCtorEq, false_and, or_false] at hkinds
      exact hkinds
    refine ⟨hbits, halign.trans ?_⟩
    obtain hbits | hbits | hbits := hbits <;> rw [hbits] <;> omega

/-- The result of a comparison that begins at `start`. -/
theorem of_compareCapture {sha256Hex : List UInt8 → String} {expected capture : WavFile}
    {sent : Option Int} {streamBits : Nat} {captureStart : Option Int} {result : CompareResult}
    (h : compareCapture sha256Hex expected capture sent streamBits captureStart = .ok result) :
    ∃ offset streamFrames layout,
      cardData sha256Hex expected.bytes = .ok (offset, streamFrames) ∧
      wavLayout capture = .ok layout ∧
      captureFormat layout = .ok (result.kind, result.bits, result.channels) ∧
      (streamBits = 16 ∨ streamBits = 24) ∧ result.streamBits = streamBits ∧
      (result.framesCompared : Int) = sent.getD streamFrames ∧
      result.framesCompared ≤ streamFrames ∧
      (∀ start, captureStart = some start → result.captureStart = start) ∧
      ((result.captureStart < 0 ∨ result.captureStart + result.framesCompared > layout.frames) ∧
          result.why = some "the capture does not hold the stream at that place" ∧
          result.firstMismatch = none ∨
        ¬(result.captureStart < 0 ∨
            result.captureStart + result.framesCompared > layout.frames) ∧
          result.why = none ∧
          compareFrom expected.bytes capture.bytes offset
            (layout.dataOffset + result.captureStart.toNat * layout.blockAlign) layout.blockAlign
            result.kind result.bits result.channels streamBits result.framesCompared 0
            result.framesCompared = .ok result.firstMismatch) := by
  unfold compareCapture at h
  by_cases hbits : streamBits ≠ 16 ∧ streamBits ≠ 24
  · rw [if_pos hbits] at h
    cases h
  rw [if_neg hbits] at h
  obtain ⟨⟨offset, streamFrames⟩, hcard, h⟩ := of_bind_ok h
  dsimp only at h
  generalize hasked : sent.getD (streamFrames : Int) = asked at h
  by_cases hrange : ¬(0 ≤ asked ∧ asked ≤ streamFrames)
  · rw [if_pos hrange] at h
    cases h
  rw [if_neg hrange] at h
  rw [not_not] at hrange
  obtain ⟨layout, hlayout, h⟩ := of_bind_ok h
  obtain ⟨⟨kind, bits, channels⟩, hformat, h⟩ := of_bind_ok h
  dsimp only at h
  by_cases hrate : layout.sampleRate ≠ sampleRateHz
  · rw [if_pos hrate] at h
    cases h
  rw [if_neg hrate] at h
  obtain ⟨start, hstart, h⟩ := of_bind_ok h
  have hgiven : ∀ given, captureStart = some given → start = given := by
    rintro given rfl
    cases hstart
    rfl
  have hframes : (asked.toNat : Int) = asked := Int.toNat_of_nonneg hrange.1
  unfold compareAt at h
  dsimp only at h
  by_cases hheld : start < 0 ∨ start + asked.toNat > layout.frames
  · rw [if_pos hheld] at h
    cases h
    exact ⟨offset, streamFrames, layout, of_mapError_ok hcard, of_mapError_ok hlayout,
      of_mapError_ok hformat, by tauto, rfl, hframes.trans hasked.symm, by dsimp only; omega,
      hgiven, .inl ⟨hheld, rfl, rfl⟩⟩
  · rw [if_neg hheld] at h
    obtain ⟨mismatch, hcompare, h⟩ := of_bind_ok h
    cases h
    exact ⟨offset, streamFrames, layout, of_mapError_ok hcard, of_mapError_ok hlayout,
      of_mapError_ok hformat, by tauto, rfl, hframes.trans hasked.symm, by dsimp only; omega,
      hgiven, .inr ⟨hheld, rfl, hcompare⟩⟩

theorem blockAlign_of_wavLayout {file : WavFile} {layout : WavLayout}
    (h : wavLayout file = .ok layout) :
    layout.blockAlign = (FmtFields.unpack layout.fmt).blockAlign := by
  have hfrom : ∀ turns fmt position, wavLayoutFrom file fmt position turns = .ok layout →
      layout.blockAlign = (FmtFields.unpack layout.fmt).blockAlign := by
    intro turns
    induction turns with
    | zero => exact nofun
    | succ turns ih =>
      intro fmt position h
      unfold wavLayoutFrom at h
      dsimp only at h
      split at h
      · split at h
        · split at h
          · cases h
          · exact ih _ _ h
        split at h
        · split at h
          · cases h
          split at h
          · cases h
          · cases h
            rfl
        · exact ih _ _ h
      · cases h
  unfold wavLayout at h
  dsimp only at h
  split at h
  · cases h
  · exact hfrom _ _ _ h

/-- A comparison reports nothing exactly if every sample of the frames compared is the expected one
as the capture's format holds it, of a 32-bit sample its top 24 bits, and else the first one that is
not, by frame and then by channel. A capture that does not hold the frames at that place is not
compared. The fast path takes no block in which the slow one finds a sample that differs. -/
theorem compareCapture_exact (sha256Hex : List UInt8 → String) (expected capture : WavFile)
    (sent : Option Int) (streamBits : Nat) (captureStart : Option Int) (result : CompareResult)
    (h : compareCapture sha256Hex expected capture sent streamBits captureStart = .ok result)
    (hkind : result.kind = .pcm) :
    ∃ offset streamFrames layout,
      cardData sha256Hex expected.bytes = .ok (offset, streamFrames) ∧
      wavLayout capture = .ok layout ∧
      captureFormat layout = .ok (.pcm, result.bits, result.channels) ∧
      (result.framesCompared : Int) = sent.getD streamFrames ∧
      result.framesCompared ≤ streamFrames ∧
      (∀ start, captureStart = some start → result.captureStart = start) ∧
      (result.why = none ↔
        0 ≤ result.captureStart ∧ result.captureStart + result.framesCompared ≤ layout.frames) ∧
      (result.why ≠ none → result.firstMismatch = none) ∧
      (result.why = none →
        let sample := fun frame =>
          ofLeSigned (slice expected.bytes (offset + frame * pcm24Bytes) pcm24Bytes)
        let captured := fun frame channel =>
          ofLeSigned (slice capture.bytes
            (layout.dataOffset + (result.captureStart.toNat + frame) * layout.blockAlign +
              channel * (result.bits / 8)) (result.bits / 8))
        let holds := fun frame channel =>
          HeldAs result.bits streamBits (sample frame) (captured frame channel)
        (result.firstMismatch = none ↔
          ∀ frame < result.framesCompared, ∀ channel < result.channels, holds frame channel) ∧
        ∀ mismatch, result.firstMismatch = some mismatch →
          First holds 0 result.framesCompared result.channels mismatch ∧
            mismatch.expected = wanted (sample mismatch.frame) streamBits ∧
            mismatch.got =
              some (scaled result.bits (captured mismatch.frame mismatch.channel))) ∧
      ∀ data captured : List UInt8, data.length % 3 = 0 →
        asCaptured data .pcm result.bits result.channels streamBits = captured →
        firstMismatch data captured .pcm result.bits result.channels streamBits = none := by
  obtain ⟨offset, streamFrames, layout, hcard, hlayout, hformat, hstream, -, hframes, hle, hgiven,
    hplace⟩ := of_compareCapture h
  rw [hkind] at hformat hplace
  obtain ⟨hbits, halign⟩ := captureFormat_ok hformat
  rw [← blockAlign_of_wavLayout hlayout] at halign
  refine ⟨offset, streamFrames, layout, hcard, hlayout, hformat, hframes, hle, hgiven, ?_, ?_,
    fun hwhy => ?_, fun data captured hdata hfast =>
      firstMismatch_asCaptured hbits hstream hdata hfast⟩
  · obtain ⟨hout, hwhy, -⟩ | ⟨hheld, hwhy, -⟩ := hplace
    · rw [hwhy]
      exact iff_of_false nofun (by omega)
    · exact iff_of_true hwhy (by omega)
  · obtain ⟨-, -, hnone⟩ | ⟨-, hwhy, -⟩ := hplace
    · exact fun _ => hnone
    · exact fun hnot => absurd hwhy hnot
  obtain ⟨-, hnot, -⟩ | ⟨-, -, hcompare⟩ := hplace
  · rw [hwhy] at hnot
    cases hnot
  intro sample captured holds
  have hplaces : ∀ frame channel, slice capture.bytes
      (layout.dataOffset + result.captureStart.toNat * layout.blockAlign +
        frame * layout.blockAlign + channel * (result.bits / 8)) (result.bits / 8) =
      slice capture.bytes (layout.dataOffset + (result.captureStart.toNat + frame) *
        layout.blockAlign + channel * (result.bits / 8)) (result.bits / 8) := by
    intro frame channel
    rw [Nat.add_mul, Nat.add_assoc layout.dataOffset]
  have hagrees : ∀ frame channel, Agrees expected.bytes capture.bytes offset
      (layout.dataOffset + result.captureStart.toNat * layout.blockAlign) layout.blockAlign
      result.bits streamBits frame channel ↔ holds frame channel := by
    intro frame channel
    show _ ↔ HeldAs _ _ (sample frame) (ofLeSigned (slice _ (_ + _ + _) _))
    rw [← hplaces]
    exact heldAs_iff hbits hstream _ _
  obtain ⟨hnone, hsome⟩ := compareFrom_exact hbits hstream halign (Nat.le_refl _) hcompare
  have hholds : Agrees expected.bytes capture.bytes offset
      (layout.dataOffset + result.captureStart.toNat * layout.blockAlign) layout.blockAlign
      result.bits streamBits = holds :=
    funext fun frame => funext fun channel => propext (hagrees frame channel)
  rw [hholds] at hnone hsome
  refine ⟨hnone.trans ⟨fun hall frame => hall frame (Nat.zero_le _),
    fun hall frame _ => hall frame⟩, fun mismatch hfound => ?_⟩
  obtain ⟨first, hreport⟩ := hsome mismatch hfound
  refine ⟨first, congrArg Mismatch.expected hreport, ?_⟩
  refine (congrArg Mismatch.got hreport).trans ?_
  show some (scaled _ (ofLeSigned (slice _ (_ + _ + _) _))) = _
  rw [hplaces]

/-- A card of two samples, 1 and 2. -/
def twoSamples : WavFile :=
  ⟨"EXPECTED.WAV", textBytes "RIFF" ++ le32 42 ++ textBytes "WAVEfmt " ++ le32 16 ++ le16 1 ++
    le16 1 ++ le32 48000 ++ le32 144000 ++ le16 3 ++ le16 24 ++ textBytes "data" ++ le32 6 ++
    [1, 0, 0, 2, 0, 0]⟩

/-- A capture of 32 bits whose frames are the given bytes. -/
def captureOf (data : List UInt8) : WavFile :=
  ⟨"CAPTURE.WAV", textBytes "RIFF" ++ le32 (.ofNat (36 + data.length)) ++ textBytes "WAVEfmt " ++
    le32 16 ++ le16 1 ++ le16 1 ++ le32 48000 ++ le32 192000 ++ le16 4 ++ le16 32 ++
    textBytes "data" ++ le32 (.ofNat data.length) ++ data⟩

theorem walkFrom_step {bytes : List UInt8} {position next : Nat} {found found' : Found}
    (hposition : position < bytes.length)
    (hchunk : walkChunk bytes position found = .ok (found', next)) :
    walkFrom bytes position found = walkFrom bytes next found' := by
  conv_lhs => rw [walkFrom]
  rw [if_pos hposition]
  split
  case h_1 herror => cases hchunk.symm.trans herror
  case h_2 hok =>
    cases hchunk.symm.trans hok
    rfl

theorem cardData_twoSamples : cardData (fun _ => "") twoSamples.bytes = .ok (44, 2) := by
  have hfmt : walkChunk twoSamples.bytes 12 {} = .ok (⟨some .expected, none⟩, 36) := by
    decide +kernel
  have hdata : walkChunk twoSamples.bytes 36 ⟨some .expected, none⟩ =
      .ok (⟨some .expected, some (44, 6)⟩, 50) := by decide +kernel
  have hwalk : walkFrom twoSamples.bytes 12 {} = .ok (⟨some .expected, some (44, 6)⟩, 50) := by
    rw [walkFrom_step (by decide +kernel) hfmt, walkFrom_step (by decide +kernel) hdata, walkFrom]
    exact if_neg (by decide +kernel)
  unfold cardData inspectWav
  rw [hwalk]
  rfl

/-- The result of comparing the two samples with a capture of 32 bits. -/
theorem compareCapture_twoSamples :
    compareCapture (fun _ => "") twoSamples (captureOf [0, 1, 0, 0, 0, 3, 0, 0]) none 24 (some 0) =
      .ok { expected := "EXPECTED.WAV", capture := "CAPTURE.WAV", kind := .pcm, bits := 32
            channels := 1, streamBits := 24, captureStart := 0, framesCompared := 2
            firstMismatch := some ⟨1, 0, 2, some 3⟩, silentAfter := some true } := by
  unfold compareCapture
  rw [cardData_twoSamples]
  decide +kernel

/-- The second sample of that capture is the first that is not as it should be. -/
theorem compareCapture_exact_twoSamples :
    ∃ offset streamFrames layout,
      cardData (fun _ => "") twoSamples.bytes = .ok (offset, streamFrames) ∧
      wavLayout (captureOf [0, 1, 0, 0, 0, 3, 0, 0]) = .ok layout ∧
      HeldAs 32 24 (ofLeSigned (slice twoSamples.bytes (offset + 0 * pcm24Bytes) pcm24Bytes))
        (ofLeSigned (slice (captureOf [0, 1, 0, 0, 0, 3, 0, 0]).bytes
          (layout.dataOffset + (0 + 0) * layout.blockAlign + 0 * (32 / 8)) (32 / 8))) ∧
      ¬ HeldAs 32 24 (ofLeSigned (slice twoSamples.bytes (offset + 1 * pcm24Bytes) pcm24Bytes))
        (ofLeSigned (slice (captureOf [0, 1, 0, 0, 0, 3, 0, 0]).bytes
          (layout.dataOffset + (0 + 1) * layout.blockAlign + 0 * (32 / 8)) (32 / 8))) := by
  obtain ⟨offset, streamFrames, layout, hcard, hlayout, -, -, -, -, -, -, hcompared, -⟩ :=
    compareCapture_exact (fun _ => "") twoSamples (captureOf [0, 1, 0, 0, 0, 3, 0, 0]) none 24
      (some 0) _ compareCapture_twoSamples rfl
  obtain ⟨first, -⟩ := (hcompared rfl).2 _ rfl
  exact ⟨offset, streamFrames, layout, hcard, hlayout,
    first.before 0 (Nat.le_refl 0) Nat.zero_lt_one 0 Nat.zero_lt_one, first.differs⟩

/-- A low byte in a capture of 32 bits: nothing is reported, and the frames are not the bytes such a
capture holds of the samples. -/
theorem compareCapture_lowByte :
    compareCapture (fun _ => "") twoSamples (captureOf [5, 1, 0, 0, 0, 2, 0, 0]) none 24 (some 0) =
        .ok { expected := "EXPECTED.WAV", capture := "CAPTURE.WAV", kind := .pcm, bits := 32
              channels := 1, streamBits := 24, captureStart := 0, framesCompared := 2
              silentAfter := some true, ok := true } ∧
      (wavLayout (captureOf [5, 1, 0, 0, 0, 2, 0, 0])).map (·.dataOffset) = .ok 44 ∧
      ofLeSigned (slice (captureOf [5, 1, 0, 0, 0, 2, 0, 0]).bytes 44 4) ≠
        ofLeSigned (slice (asCaptured (slice twoSamples.bytes 44 6) .pcm 32 1 24) 0 4) := by
  refine ⟨?_, by decide +kernel, by decide +kernel⟩
  unfold compareCapture
  rw [cardData_twoSamples]
  decide +kernel

end WaveformGenerator.Host
