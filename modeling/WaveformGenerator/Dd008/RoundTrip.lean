import WaveformGenerator.Dd008.Decoding

/-!
# DD-008 round trips

What the encoder wrote of some frames, decoded in whatever chunks it arrives, is these frames.
-/

namespace WaveformGenerator.Dd008

variable (config : CdcMuxConfig)

/-- The wires that the encoder wrote of frames, one after the other. -/
def Wrote (frames : List CdcMuxFrameView) (wires : List (List UInt8)) : Prop :=
  List.Forall₂ (fun frame wire => encodeFrame config frame = .ok wire) frames wires

variable {config}

theorem Wrote.eq {frames : List CdcMuxFrameView} {wires : List (List UInt8)}
    (h : Wrote config frames wires) :
    (∀ frame ∈ frames, config.Admits frame) ∧ wires.flatten = frames.flatMap wireOf := by
  induction h with
  | nil => exact ⟨by simp, rfl⟩
  | cons hframe _ ih =>
    obtain ⟨hadmits, rfl⟩ := admits_of_encodeFrame hframe
    exact ⟨List.forall_mem_cons.mpr ⟨hadmits, ih.1⟩, by rw [List.flatten_cons, List.flatMap_cons, ih.2]⟩

/-- An admitted frame has a wire without zero bytes but its last, of no more than the declared
size; the encoder stores it whole where it fits, and refuses smaller buffers without storing
outside them. The wires of any frames decode to these frames, in order and to nothing else, however
they are cut. -/
theorem round_trip {σ : Type u} (handle : CdcMuxDecodedPacket → σ → σ) (context : σ) :
    (∀ frame, config.Admits frame → ∃ packet : List UInt8, (0 : UInt8) ∉ packet ∧
      (packet ++ [0]).length ≤ config.maximumWireFrameSize ∧
      encodeFrame config frame = .ok (packet ++ [0]) ∧
      (∀ output : List UInt8, (packet ++ [0]).length ≤ output.length →
        encodeCdcMuxFrame config frame { bytes := output } = (.ok (packet ++ [0]).length,
          { bytes := packet ++ [0] ++ output.drop (packet ++ [0]).length })) ∧
      ∀ output : List UInt8, output.length < (packet ++ [0]).length →
        ∃ status after, encodeCdcMuxFrame config frame { bytes := output } =
          (.error status, after) ∧ after.size = output.length ∧ after.overrun = false) ∧
    ∀ (frames : List CdcMuxFrameView) (wires chunks : List (List UInt8)),
      Wrote config frames wires → chunks.flatten = wires.flatten →
        ∃ decoder, CdcMuxStreamDecoder.ingestChunks config (succeeding handle) (.initial config)
          context chunks = (.success, decoder,
            frames.foldl (fun context frame => handle (.accepted frame) context) context) := by
  refine ⟨fun frame hadmits => ?_, fun frames wires chunks hwrote hchunks => ?_⟩
  · refine ⟨packetOf frame, zero_not_mem_packetOf frame, length_wireOf_le hadmits,
      encodeFrame_of_admits hadmits, fun output hfits => ?_, fun output hshort => ?_⟩
    · have hstores := encodeCdcMuxFrame_stores hadmits output
      generalize encodeCdcMuxFrame config frame { bytes := output } = outcome at hstores ⊢
      rcases outcome with ⟨status | size, after⟩
      · exact absurd hstores.2.1 (Nat.not_lt.mpr hfits)
      · obtain ⟨rfl, -, rfl⟩ := hstores
        rfl
    · have hstores := encodeCdcMuxFrame_stores hadmits output
      generalize encodeCdcMuxFrame config frame { bytes := output } = outcome at hstores ⊢
      rcases outcome with ⟨status | size, after⟩
      · exact ⟨status, after, rfl, hstores.2.2⟩
      · exact absurd hstores.2.1 (Nat.not_le.mpr hshort)
  · obtain ⟨hadmits, hwires⟩ := hwrote.eq
    obtain ⟨decoder, -, -, hingest⟩ :=
      CdcMuxStreamDecoder.ingestChunks_succeeding handle chunks
        follows_initial context
    rw [hchunks, hwires] at hingest
    have hreports := reports_flatMap_wireOf hadmits
    rw [reports] at hreports
    rw [hreports, List.foldl_map] at hingest
    exact ⟨decoder, hingest⟩

end WaveformGenerator.Dd008
