import WaveformGenerator.Dd008.Protocol
import WaveformGenerator.Lib.Cobs

/-!
# The stuffing loops of DD-008

`cobs_encode` fills the caller's buffer with the wire of its input, or refuses a buffer that the
wire does not fit; `cobs_decode` accepts what decodes to no more than its buffer holds. Neither
stores outside the buffer.
-/

namespace WaveformGenerator.Dd008

open Cobs

/-! ## Stuffing -/

/-- What storing `wire` into a buffer comes to: the wire in front and its size where it fits, and
otherwise a refusal. -/
def Stores (wire before : List UInt8) : Result Nat × Buffer → Prop
  | (.ok size, after) =>
    size = wire.length ∧ wire.length ≤ before.length ∧
      after = { bytes := wire ++ before.drop wire.length }
  | (.error status, after) =>
    status.code = .bufferTooSmall ∧ before.length < wire.length ∧
      after.size = before.length ∧ after.overrun = false

/-- Only what lies behind the wire matters of the bytes before. -/
theorem Stores.change {wire a b rest : List UInt8} {outcome : Result Nat × Buffer}
    (h : Stores wire (a ++ rest) outcome) (hlen : a.length = b.length)
    (hle : a.length ≤ wire.length) : Stores wire (b ++ rest) outcome := by
  have hlength : (b ++ rest).length = (a ++ rest).length := by simp [hlen]
  have hdrop : (b ++ rest).drop wire.length = (a ++ rest).drop wire.length := by
    rw [List.drop_append, List.drop_append, List.drop_of_length_le hle,
      List.drop_of_length_le (hlen ▸ hle), hlen]
  rcases outcome with ⟨_ | _, _⟩
  · simpa only [Stores, hlength] using h
  · simpa only [Stores, hlength, hdrop] using h

/-- A code without a place in the buffer is refused, whatever is left to read. -/
theorem cobsEncodeLoop_full {output : Buffer} {writeIndex codeIndex : Nat}
    (hcode : output.size ≤ codeIndex) (hwrite : output.size ≤ writeIndex) (code : UInt8)
    (input : List UInt8) :
    cobsEncodeLoop output writeIndex codeIndex code input = (.error cobsOutputTooSmall, output) := by
  cases input with
  | nil => rw [cobsEncodeLoop, if_pos hcode]
  | cons value input => rw [cobsEncodeLoop, if_pos hcode, if_pos hwrite, ite_self]

/-- The code of a run grows with it, and stays a byte. -/
theorem code_succ (n : Nat) : UInt8.ofNat (n + 1) + 1 = UInt8.ofNat (n + 1 + 1) := by
  rw [UInt8.ofNat_add (n + 1) 1]
  rfl

theorem code_full_iff {n : Nat} (h : n < maximumRun) :
    UInt8.ofNat (n + 1) + 1 = 0xFF ↔ n + 1 = maximumRun := by
  rw [code_succ, ← UInt8.toNat_inj, toNat_code (by omega)]
  exact ⟨fun h => Nat.succ.inj h, fun h => by rw [h]; rfl⟩

/-- The loop with blocks closed, a place for the next code, an open run behind it and the rest of
the buffer stores the closed blocks and the wire of what is left. -/
theorem cobsEncodeLoop_stores (input closed run rest : List UInt8) (hole : UInt8)
    (hrun : run.length < maximumRun) :
    Stores (closed ++ stuff run input) (closed ++ hole :: (run ++ rest))
      (cobsEncodeLoop { bytes := closed ++ hole :: (run ++ rest) } (closed.length + 1 + run.length)
        closed.length (UInt8.ofNat (run.length + 1)) input) := by
  induction input generalizing closed run rest hole with
  | nil =>
    rw [cobsEncodeLoop, if_neg (by simp [Buffer.size]), Buffer.store_mid, stuff]
    simp only [Stores, length_block, List.length_append, List.length_cons]
    refine ⟨by omega, by omega, ?_⟩
    rw [List.drop_append, List.drop_of_length_le (by omega),
      show closed.length + (run.length + 1) - closed.length = run.length + 1 by omega,
      List.drop_succ_cons, List.drop_left, block]
    simp
  | cons value input ih =>
    -- behind closed blocks there is a place for the next code, or the buffer is full
    have hnext (closed rest : List UInt8) :
        Stores (closed ++ stuff [] input) (closed ++ rest)
          (cobsEncodeLoop { bytes := closed ++ rest } (closed.length + 1) closed.length 1 input) := by
      cases rest with
      | nil =>
        have hpos := List.length_pos_of_ne_nil (stuff_ne_nil [] input)
        rw [cobsEncodeLoop_full (by simp [Buffer.size]) (by simp [Buffer.size])]
        refine ⟨rfl, ?_, rfl, rfl⟩
        simp only [List.length_append, List.length_nil]
        omega
      | cons hole rest => exact ih closed [] rest hole (by decide)
    -- closing the block of a run stores its code in front of it
    have hclose (run rest : List UInt8) :
        Stores (closed ++ (block run ++ stuff [] input)) (closed ++ hole :: (run ++ rest))
          (cobsEncodeLoop { bytes := closed ++ (block run ++ rest) }
            (closed.length + 1 + run.length + 1) (closed.length + 1 + run.length) 1 input) := by
      have h := hnext (closed ++ block run) rest
      have hlength : (closed ++ block run).length = closed.length + 1 + run.length := by
        simp only [List.length_append, length_block]
        omega
      rw [hlength, List.append_assoc closed _ (stuff _ _)] at h
      rw [show closed ++ hole :: (run ++ rest) = (closed ++ hole :: run) ++ rest by simp]
      rw [← List.append_assoc closed (block run) rest]
      refine Stores.change h (by simp) ?_
      simp only [List.length_append, length_block]
      omega
    by_cases hvalue : value = 0
    · subst hvalue
      rw [cobsEncodeLoop, if_pos rfl, if_neg (by simp [Buffer.size]), Buffer.store_mid, stuff,
        if_pos rfl]
      exact hclose run rest
    · have hindex : closed.length + 1 + run.length = (closed ++ hole :: run).length := by
        simp only [List.length_append, List.length_cons]
        omega
      rw [cobsEncodeLoop, if_neg hvalue]
      cases rest with
      | nil =>
        rw [if_pos (by simp [Buffer.size]; omega)]
        refine ⟨rfl, ?_, rfl, rfl⟩
        have hfull := length_lt_length_stuff (run ++ [value]) input
        have hblock : run.length + 1 < (block (run ++ [value]) ++ stuff [] input).length := by
          simp
          omega
        rw [stuff, if_neg hvalue]
        split <;> simp only [List.length_append, List.length_cons, List.length_nil] at * <;> omega
      | cons old rest =>
        have hlength : (run ++ [value]).length = run.length + 1 := by simp
        have hstored {wire : List UInt8} {outcome : Result Nat × Buffer}
            (hwire : closed.length + run.length + 2 ≤ wire.length)
            (h : Stores wire (closed ++ hole :: (run ++ [value] ++ rest)) outcome) :
            Stores wire (closed ++ hole :: (run ++ old :: rest)) outcome := by
          have h' : Stores wire ((closed ++ hole :: (run ++ [value])) ++ rest) outcome := by
            simpa using h
          have := h'.change (b := closed ++ hole :: (run ++ [old])) (by simp) (by simp; omega)
          simpa using this
        have hstore : Buffer.store { bytes := closed ++ hole :: (run ++ old :: rest) }
            (closed.length + 1 + run.length) value =
              { bytes := closed ++ hole :: (run ++ [value] ++ rest) } := by
          have := Buffer.store_mid (closed ++ hole :: run) rest old value
          rw [← hindex] at this
          simpa using this
        rw [if_neg (by simp [Buffer.size]; omega), hstore, stuff, if_neg hvalue]
        by_cases hfull : run.length + 1 = maximumRun
        · rw [if_pos ((code_full_iff hrun).mpr hfull), if_pos hfull, code_succ, Buffer.store_mid]
          have h := hclose (run ++ [value]) rest
          rw [block, hlength] at h ⊢
          exact hstored (by simp; omega) h
        · rw [if_neg (mt (code_full_iff hrun).mp hfull), if_neg hfull, code_succ]
          have h := ih closed (run ++ [value]) rest hole (by rw [hlength]; omega)
          rw [hlength] at h
          have := length_lt_length_stuff (run ++ [value]) input
          exact hstored (by simp at this ⊢; omega) h

/-- `cobs_encode` stores the wire of its input, or refuses a buffer too small for it. -/
theorem cobsEncode_stores (input : List UInt8) (output : List UInt8) :
    Stores (encode input) output (cobsEncode input { bytes := output }) := by
  cases output with
  | nil =>
    have := length_lt_length_stuff [] input
    exact ⟨rfl, this, rfl, rfl⟩
  | cons hole rest =>
    rw [cobsEncode, if_neg (by simp [Buffer.size])]
    exact cobsEncodeLoop_stores input [] [] rest hole (by decide)

/-! ## Unstuffing -/

/-- What unstuffing `wire` behind `start` bytes of a buffer comes to: the body behind them where it
decodes and fits, and otherwise a refusal. -/
def Loads (wire : List UInt8) (start : Nat) (before : Buffer) : Result Nat × Buffer → Prop
  | (.ok size, after) =>
    after.size = before.size ∧ after.overrun = false ∧ size ≤ before.size ∧
      ∃ body, decode wire = some body ∧ size = start + body.length ∧
        after.bytes.take size = before.bytes.take start ++ body
  | (.error _, after) =>
    after.size = before.size ∧ after.overrun = false ∧
      ∀ body, decode wire = some body → before.size < start + body.length

/-- The buffer once a run has been copied behind its first `start` bytes. -/
theorem size_copy {output : Buffer} {start : Nat} {run : List UInt8}
    (h : start + run.length ≤ output.size) : (output.copy start run).size = output.size := by
  rw [Buffer.copy_of_le h]
  simp only [Buffer.size, List.length_append, List.length_take, List.length_drop] at h ⊢
  omega

theorem overrun_copy {output : Buffer} {start : Nat} {run : List UInt8}
    (h : start + run.length ≤ output.size) : (output.copy start run).overrun = output.overrun := by
  rw [Buffer.copy_of_le h]

theorem take_copy {output : Buffer} {start : Nat} {run : List UInt8}
    (h : start + run.length ≤ output.size) :
    (output.copy start run).bytes.take (start + run.length) = output.bytes.take start ++ run := by
  rw [Buffer.copy_of_le h]
  have hstart : (output.bytes.take start).length = start := by
    rw [List.length_take]
    exact Nat.min_eq_left (Nat.le_trans (Nat.le_add_right ..) h)
  exact List.take_left' (by rw [List.length_append, hstart])

/-- A store right behind the bytes that count adds one to them. -/
theorem take_store {output : Buffer} {start : Nat} (h : start < output.size) (byte : UInt8) :
    (output.store start byte).bytes.take (start + 1) = output.bytes.take start ++ [byte] := by
  rw [Buffer.store_of_lt h, List.take_set]
  rw [Buffer.size] at h
  rw [List.take_add_one, List.getElem?_eq_getElem h, Option.toList_some,
    List.set_append_right _ _ (by simp)]
  simp [Nat.min_eq_left (Nat.le_of_lt h)]

/-- Bytes stored in front of what a tail of the wire loads. -/
theorem Loads.behind {wire tail front : List UInt8} {start : Nat} {before mid : Buffer}
    {outcome : Result Nat × Buffer} (h : Loads tail (start + front.length) mid outcome)
    (hsize : mid.size = before.size)
    (htake : mid.bytes.take (start + front.length) = before.bytes.take start ++ front)
    (hdecode : ∀ body, decode wire = some body ↔
      ∃ rest, decode tail = some rest ∧ body = front ++ rest) :
    Loads wire start before outcome := by
  rcases outcome with ⟨status | size, after⟩
  · obtain ⟨hafter, hoverrun, hbig⟩ := h
    refine ⟨hafter.trans hsize, hoverrun, fun body hbody => ?_⟩
    obtain ⟨rest, hrest, rfl⟩ := (hdecode body).mp hbody
    rw [← hsize, List.length_append, ← Nat.add_assoc]
    exact hbig rest hrest
  · obtain ⟨hafter, hoverrun, hle, rest, hrest, rfl, hbytes⟩ := h
    refine ⟨hafter.trans hsize, hoverrun, hsize ▸ hle, front ++ rest,
      (hdecode _).mpr ⟨rest, hrest, rfl⟩, by rw [List.length_append, Nat.add_assoc], ?_⟩
    rw [hbytes, htake, List.append_assoc]

theorem cobsDecodeLoop_loads (input : List UInt8) (output : Buffer) (writeIndex : Nat)
    (hindex : writeIndex ≤ output.size) (hoverrun : output.overrun = false) :
    Loads input writeIndex output (cobsDecodeLoop output writeIndex input) := by
  fun_induction cobsDecodeLoop output writeIndex input with
  | case1 output writeIndex =>
    exact ⟨rfl, hoverrun, hindex, [], decode_nil, rfl, by simp⟩
  | case2 output writeIndex input =>
    refine ⟨rfl, hoverrun, fun body h => ?_⟩
    exact absurd rfl (decode_cons.mp h).1
  | case3 output writeIndex code input hcode copySize hshort =>
    refine ⟨rfl, hoverrun, fun body h => ?_⟩
    obtain ⟨-, hlen, tail, -, rfl⟩ := decode_cons.mp h
    simp only [List.length_append, List.length_take]
    omega
  | case4 output writeIndex code input hcode copySize hshort output' writeIndex' input' hnext
      hfull =>
    rw [not_or, Nat.not_lt, Nat.not_lt] at hshort
    have hrun : (input.take copySize).length = copySize := List.length_take_of_le hshort.1
    have hfits : writeIndex + (input.take copySize).length ≤ output.size := by omega
    have hsize : output'.size = output.size := size_copy hfits
    refine ⟨hsize, (overrun_copy hfits).trans hoverrun, fun body h => ?_⟩
    obtain ⟨-, -, tail, -, rfl⟩ := decode_cons.mp h
    rw [if_pos hnext, List.length_append, List.length_cons, hrun]
    omega
  | case5 output writeIndex code input hcode copySize hshort output' writeIndex' input' hnext
      hfull ih =>
    rw [not_or, Nat.not_lt, Nat.not_lt] at hshort
    have hrun : (input.take copySize).length = copySize := List.length_take_of_le hshort.1
    have hfits : writeIndex + (input.take copySize).length ≤ output.size := by omega
    have hsize : output'.size = output.size := size_copy hfits
    have hplace : writeIndex' < output'.size := Nat.not_le.mp hfull
    have hfront : writeIndex + (input.take copySize ++ [0]).length = writeIndex' + 1 := by
      rw [List.length_append, hrun]
      rfl
    have hloads : Loads input' (writeIndex + (input.take copySize ++ [0]).length)
        (output'.store writeIndex' 0)
        (cobsDecodeLoop (output'.store writeIndex' 0) (writeIndex' + 1) input') := by
      rw [hfront]
      refine ih (by rw [Buffer.size_store]; omega) ?_
      rw [Buffer.store_of_lt hplace]
      exact (overrun_copy hfits).trans hoverrun
    refine hloads.behind ((Buffer.size_store ..).trans hsize) ?_ fun body => ?_
    · rw [hfront, take_store hplace, ← List.append_assoc]
      have := take_copy hfits
      rw [hrun] at this
      rw [this]
    · have hzero : code ≠ 0xFF ∧ input.drop (code.toNat - 1) ≠ [] := hnext
      simp only [decode_cons, if_pos hzero]
      simp [hcode, hshort.1, input', copySize]
  | case6 output writeIndex code input hcode copySize hshort output' writeIndex' input' hnext ih =>
    rw [not_or, Nat.not_lt, Nat.not_lt] at hshort
    have hrun : (input.take copySize).length = copySize := List.length_take_of_le hshort.1
    have hfits : writeIndex + (input.take copySize).length ≤ output.size := by omega
    have hsize : output'.size = output.size := size_copy hfits
    have hloads : Loads input' (writeIndex + (input.take copySize).length) output'
        (cobsDecodeLoop output' writeIndex' input') := by
      rw [hrun]
      exact ih (by omega) ((overrun_copy hfits).trans hoverrun)
    refine hloads.behind hsize (take_copy hfits) fun body => ?_
    have hzero : ¬(code ≠ 0xFF ∧ input.drop (code.toNat - 1) ≠ []) := hnext
    simp only [decode_cons, if_neg hzero]
    simp [hcode, hshort.1, input', copySize]

/-- `cobs_decode` into a buffer. -/
theorem cobsDecode_loads (input : List UInt8) {output : Buffer} (h : output.overrun = false) :
    Loads input 0 output (cobsDecode input output) :=
  cobsDecodeLoop_loads input output 0 (Nat.zero_le _) h

end WaveformGenerator.Dd008
