import Mathlib.Data.List.Basic

/-!
# Consistent overhead byte stuffing

A body is cut at its zero bytes, and into runs of at most 254 bytes. Each run is led by a code, one
more than its length; the code 255 says that no zero followed the run. The wire has no zero byte,
and its decoding is the body.
-/

namespace WaveformGenerator.Cobs

/-- The longest run. Its code, 255, stands for no zero. -/
def maximumRun : Nat := 254

/-- A run behind its code. -/
def block (run : List UInt8) : List UInt8 := UInt8.ofNat (run.length + 1) :: run

/-- The wire of a body that follows an open run. -/
def stuff (run : List UInt8) : List UInt8 → List UInt8
  | [] => block run
  | byte :: body =>
    if byte = 0 then block run ++ stuff [] body
    else if run.length + 1 = maximumRun then block (run ++ [byte]) ++ stuff [] body
    else stuff (run ++ [byte]) body

def encode (body : List UInt8) : List UInt8 := stuff [] body

/-- The body of a wire, unless a code is zero or promises more bytes than there are. -/
def decode (wire : List UInt8) : Option (List UInt8) :=
  match wire with
  | [] => some []
  | code :: wire =>
    if code = 0 ∨ wire.length < code.toNat - 1 then none
    else
      let run := wire.take (code.toNat - 1)
      let wire := wire.drop (code.toNat - 1)
      (decode wire).map fun body => run ++ if code ≠ 255 ∧ wire ≠ [] then 0 :: body else body
termination_by wire.length
decreasing_by
  simp only [List.length_drop, List.length_cons]
  omega

/-! ## The wire -/

@[simp] theorem length_block (run : List UInt8) : (block run).length = run.length + 1 := rfl

theorem stuff_ne_nil (run body : List UInt8) : stuff run body ≠ [] := by
  fun_induction stuff run body <;> simp_all [block]

/-- The open run is part of the wire, behind a code. -/
theorem length_lt_length_stuff (run body : List UInt8) : run.length < (stuff run body).length := by
  fun_induction stuff run body <;> simp_all <;> omega

/-- A code is a byte that is not zero. -/
theorem toNat_code {n : Nat} (h : n ≤ maximumRun) : (UInt8.ofNat (n + 1)).toNat = n + 1 := by
  rw [UInt8.toNat_ofNat', Nat.mod_eq_of_lt]
  unfold maximumRun at h
  omega

theorem zero_not_mem_block {run : List UInt8} (hrun : (0 : UInt8) ∉ run)
    (hlen : run.length ≤ maximumRun) : (0 : UInt8) ∉ block run := by
  have hcode := toNat_code hlen
  intro h
  rcases List.mem_cons.mp h with h | h
  · rw [← h] at hcode
    simp at hcode
  · exact hrun h

/-- No byte of the wire is zero. -/
theorem zero_not_mem_stuff {run body : List UInt8} (hrun : (0 : UInt8) ∉ run)
    (hlen : run.length < maximumRun) : (0 : UInt8) ∉ stuff run body := by
  fun_induction stuff run body with
  | case1 run => exact zero_not_mem_block hrun (Nat.le_of_lt hlen)
  | case2 run body ih =>
    rw [List.mem_append, not_or]
    exact ⟨zero_not_mem_block hrun (Nat.le_of_lt hlen), ih (by simp) (by decide)⟩
  | case3 run byte body hbyte hfull ih =>
    rw [List.mem_append, not_or]
    refine ⟨zero_not_mem_block ?_ (by simp; omega), ih (by simp) (by decide)⟩
    simp [hrun, Ne.symm hbyte]
  | case4 run byte body hbyte hfull ih =>
    exact ih (by simp [hrun, Ne.symm hbyte]) (by simp; omega)

theorem zero_not_mem_encode (body : List UInt8) : (0 : UInt8) ∉ encode body :=
  zero_not_mem_stuff (by simp) (by decide)

/-- The codes cost one byte, and one more for each full run. -/
theorem length_stuff_le {run : List UInt8} (body : List UInt8) (hlen : run.length < maximumRun) :
    (stuff run body).length ≤
      run.length + body.length + (run.length + body.length) / maximumRun + 1 := by
  unfold maximumRun
  fun_induction stuff run body with
  | case1 run => simp
  | case2 run body ih =>
    have := ih (by decide)
    simp only [List.length_append, List.length_cons, length_block, List.length_nil] at this ⊢
    omega
  | case3 run byte body hbyte hfull ih =>
    have := ih (by decide)
    simp only [List.length_append, List.length_cons, length_block, List.length_nil, maximumRun]
      at this hfull ⊢
    omega
  | case4 run byte body hbyte hfull ih =>
    have := ih (by simp; omega)
    simp only [List.length_append, List.length_cons, List.length_nil] at this ⊢
    omega

theorem length_encode_le (body : List UInt8) :
    (encode body).length ≤ body.length + body.length / maximumRun + 1 := by
  simpa [encode] using @length_stuff_le [] body (by decide)

/-! ## Decoding -/

@[simp] theorem decode_nil : decode [] = some [] := by
  simp [decode]

/-- A whole block at the front of the wire is its run, and a zero unless it is full or last. -/
theorem decode_block {run : List UInt8} (hlen : run.length ≤ maximumRun) (wire : List UInt8) :
    decode (block run ++ wire) = (decode wire).map fun body =>
      run ++ if run.length ≠ maximumRun ∧ wire ≠ [] then 0 :: body else body := by
  have hcode := toNat_code hlen
  have hzero : UInt8.ofNat (run.length + 1) ≠ 0 := by
    intro h
    rw [h] at hcode
    simp at hcode
  have hfull : UInt8.ofNat (run.length + 1) ≠ 255 ↔ run.length ≠ maximumRun := by
    rw [not_iff_not, ← UInt8.toNat_inj, hcode]
    exact ⟨fun h => Nat.succ.inj h, fun h => by rw [h]; rfl⟩
  rw [block, List.cons_append, decode, if_neg (not_or.mpr ⟨hzero, by rw [hcode]; simp⟩)]
  simp only [hcode, Nat.add_sub_cancel, List.take_left, List.drop_left, hfull]

/-- Decoding gives the open run and the body that was stuffed behind it. -/
theorem decode_stuff {run : List UInt8} (body : List UInt8) (hlen : run.length < maximumRun) :
    decode (stuff run body) = some (run ++ body) := by
  fun_induction stuff run body with
  | case1 run =>
    simpa using decode_block (Nat.le_of_lt hlen) []
  | case2 run body ih =>
    rw [decode_block (Nat.le_of_lt hlen), ih (by decide)]
    simp [stuff_ne_nil, Nat.ne_of_lt hlen]
  | case3 run byte body hbyte hfull ih =>
    have hlen' : (run ++ [byte]).length = maximumRun := by simpa using hfull
    rw [decode_block (Nat.le_of_eq hlen'), ih (by decide)]
    simp [hlen']
  | case4 run byte body hbyte hfull ih =>
    rw [ih (by simp; omega)]
    simp

/-- Decoding what was encoded gives it back. -/
theorem decode_encode (body : List UInt8) : decode (encode body) = some body :=
  decode_stuff body (by decide)

/-- The code, the run and the rest of the first block of a wire that decodes. -/
theorem decode_cons {code : UInt8} {wire body : List UInt8} :
    decode (code :: wire) = some body ↔
      code ≠ 0 ∧ code.toNat - 1 ≤ wire.length ∧
        ∃ tail, decode (wire.drop (code.toNat - 1)) = some tail ∧
          body = wire.take (code.toNat - 1) ++
            if code ≠ 255 ∧ wire.drop (code.toNat - 1) ≠ [] then 0 :: tail else tail := by
  rw [decode]
  split
  · rename_i h
    simp only [reduceCtorEq, false_iff]
    rintro ⟨hcode, hlen, -⟩
    rcases h with h | h
    · exact hcode h
    · omega
  · rename_i h
    rw [not_or, Nat.not_lt] at h
    rw [Option.map_eq_some_iff, and_iff_right h.1, and_iff_right h.2]
    exact exists_congr fun _ => and_congr_right fun _ => eq_comm

end WaveformGenerator.Cobs
