import WaveformGenerator.Lib.ByteFile
import WaveformGenerator.Lib.Bytes

/-!
# RIFF chunks

A RIFF body is a sequence of chunks: four bytes that name the chunk, its length as a little-endian
word, its payload, and a pad byte behind a payload of odd length. `chunks` cuts a body into them;
`located` says where each payload starts.
-/

namespace WaveformGenerator.Riff

structure Chunk where
  id : List UInt8
  payload : List UInt8
  deriving DecidableEq

/-- A payload of `n` bytes with its pad byte. -/
def padded (n : Nat) : Nat := n + n % 2

/-- The bytes a chunk takes. -/
def Chunk.length (chunk : Chunk) : Nat := 8 + padded chunk.payload.length

/-- The length a chunk's header gives its payload. -/
def sizeAt (bytes : List UInt8) : Nat := (readU32 bytes 4).toNat

/-- The chunks of a body, when chunks are all it is. -/
def chunks (bytes : List UInt8) : Option (List Chunk) :=
  if bytes = [] then some []
  else if bytes.length < 8 + padded (sizeAt bytes) then none
  else (chunks (bytes.drop (8 + padded (sizeAt bytes)))).map
    (⟨bytes.take 4, slice bytes 8 (sizeAt bytes)⟩ :: ·)
termination_by bytes.length
decreasing_by
  have := List.length_pos_of_ne_nil ‹bytes ≠ []›
  rw [List.length_drop]
  omega

/-- The chunks with the places of their payloads, the first chunk's header at `offset`. -/
def located (offset : Nat) : List Chunk → List (Nat × Chunk)
  | [] => []
  | chunk :: rest => (offset + 8, chunk) :: located (offset + chunk.length) rest

@[simp] theorem chunks_nil : chunks [] = some [] := by
  rw [chunks, if_pos rfl]

/-- A body starts with a chunk and the chunks behind it. -/
theorem chunks_eq_some {bytes : List UInt8} (hne : bytes ≠ []) {all : List Chunk} :
    chunks bytes = some all ↔
      8 + padded (sizeAt bytes) ≤ bytes.length ∧
        ∃ rest, chunks (bytes.drop (8 + padded (sizeAt bytes))) = some rest ∧
          all = ⟨bytes.take 4, slice bytes 8 (sizeAt bytes)⟩ :: rest := by
  rw [chunks, if_neg hne]
  by_cases hshort : bytes.length < 8 + padded (sizeAt bytes)
  · rw [if_pos hshort]
    exact ⟨fun h => (by cases h), fun h => absurd h.1 (Nat.not_le.mpr hshort)⟩
  · rw [if_neg hshort, Option.map_eq_some_iff]
    exact ⟨fun ⟨rest, hrest, hall⟩ => ⟨Nat.not_lt.mp hshort, rest, hrest, hall.symm⟩,
      fun ⟨_, rest, hrest, hall⟩ => ⟨rest, hrest, hall.symm⟩⟩

/-- The payload of a body's first chunk has the length its header gives. -/
theorem length_payload {bytes : List UInt8} (h : 8 + padded (sizeAt bytes) ≤ bytes.length) :
    (slice bytes 8 (sizeAt bytes)).length = sizeAt bytes :=
  length_slice (by unfold padded at h; omega)

/-- The chunks are the whole body. -/
theorem sum_length {bytes : List UInt8} {all : List Chunk} (h : chunks bytes = some all) :
    (all.map Chunk.length).sum = bytes.length := by
  induction hlength : bytes.length using Nat.strong_induction_on generalizing bytes all with
  | _ length ih =>
    by_cases hne : bytes = []
    · rw [hne, chunks_nil] at h
      cases h
      rw [← hlength, hne]
      rfl
    · obtain ⟨hfits, rest, hrest, rfl⟩ := (chunks_eq_some hne).mp h
      have hdrop := List.length_drop (i := 8 + padded (sizeAt bytes)) (l := bytes)
      have hsum := ih _ (by rw [hdrop]; omega) hrest rfl
      rw [List.map_cons, List.sum_cons, hsum, hdrop, Chunk.length, length_payload hfits]
      omega

/-- Each payload ends inside the body. -/
theorem located_bounds {offset : Nat} {all : List Chunk} {placed : Nat × Chunk}
    (h : placed ∈ located offset all) :
    offset ≤ placed.1 ∧
      placed.1 + placed.2.payload.length ≤ offset + (all.map Chunk.length).sum := by
  induction all generalizing offset with
  | nil => cases h
  | cons chunk rest ih =>
    rw [List.map_cons, List.sum_cons]
    rcases List.mem_cons.mp h with rfl | h
    · refine ⟨Nat.le_add_right .., ?_⟩
      dsimp only
      unfold Chunk.length padded
      omega
    · have := ih h
      omega

/-- Each payload is what the body has at its place. -/
theorem located_payload {bytes : List UInt8} {all : List Chunk} (h : chunks bytes = some all)
    {offset : Nat} {placed : Nat × Chunk} (hmem : placed ∈ located offset all) :
    placed.2.payload = slice bytes (placed.1 - offset) placed.2.payload.length := by
  induction all generalizing bytes offset with
  | nil => cases hmem
  | cons chunk rest ih =>
    have hne : bytes ≠ [] := by
      rintro rfl
      rw [chunks_nil] at h
      cases h
    obtain ⟨hfits, _, hrest, heq⟩ := (chunks_eq_some hne).mp h
    cases heq
    rcases List.mem_cons.mp hmem with rfl | hmem
    · show slice bytes 8 _ = slice bytes (offset + 8 - offset) (slice bytes 8 _).length
      rw [Nat.add_sub_cancel_left, length_payload hfits]
    · have hplace := (located_bounds hmem).1
      rw [Chunk.length, length_payload hfits] at hmem hplace
      refine (ih hrest hmem).trans ?_
      have hdrop : 8 + padded (sizeAt bytes) +
          (placed.1 - (offset + (8 + padded (sizeAt bytes)))) = placed.1 - offset := by omega
      rw [slice, slice, List.drop_drop, hdrop]

end WaveformGenerator.Riff
