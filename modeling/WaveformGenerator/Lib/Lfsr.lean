import Mathlib.Data.List.GetD
import Mathlib.Logic.Function.Iterate

/-!
# Feedback shift registers

A register of `w` bits that takes a bit at its low end, and is shifted down by one with its
polynomial added where a bit falls out. It is linear, and with the polynomial's highest bit set it
loses nothing: so it tells two streams apart that differ within `w` bits of one another.
-/

namespace WaveformGenerator.Lfsr

variable {w : Nat} (poly : BitVec w)

def step (x : BitVec w) : BitVec w :=
  if x.getLsbD 0 then (x >>> 1) ^^^ poly else x >>> 1

/-- A bit at the low end of a register. -/
def low (w : Nat) (bit : Bool) : BitVec w := .ofNat w bit.toNat

def feed (x : BitVec w) (bit : Bool) : BitVec w := step poly (x ^^^ low w bit)

/-- The register behind a stream of bits. -/
def run (x : BitVec w) (bits : List Bool) : BitVec w := bits.foldl (feed poly) x

/-- Bits as a register holds them, the first at its low end. -/
def ofBits (w : Nat) : List Bool → BitVec w
  | [] => 0#w
  | bit :: bits => low w bit ^^^ ofBits w bits <<< 1

/-! ## Linearity -/

theorem step_zero : step poly 0#w = 0#w := by
  simp [step]

theorem step_xor (x y : BitVec w) : step poly (x ^^^ y) = step poly x ^^^ step poly y := by
  unfold step
  rw [BitVec.getLsbD_xor, BitVec.ushiftRight_xor_distrib]
  cases x.getLsbD 0 <;> cases y.getLsbD 0
  · rfl
  · exact BitVec.xor_assoc ..
  · show (x >>> 1 ^^^ y >>> 1) ^^^ poly = (x >>> 1 ^^^ poly) ^^^ y >>> 1
    ac_rfl
  · show x >>> 1 ^^^ y >>> 1 = (x >>> 1 ^^^ poly) ^^^ (y >>> 1 ^^^ poly)
    have hsum : (x >>> 1 ^^^ poly) ^^^ (y >>> 1 ^^^ poly) =
        (x >>> 1 ^^^ y >>> 1) ^^^ (poly ^^^ poly) := by ac_rfl
    rw [hsum, BitVec.xor_self, BitVec.xor_zero]

theorem iterate_zero (n : Nat) : (step poly)^[n] 0#w = 0#w :=
  Function.iterate_fixed (step_zero poly) n

theorem iterate_xor (n : Nat) (x y : BitVec w) :
    (step poly)^[n] (x ^^^ y) = (step poly)^[n] x ^^^ (step poly)^[n] y := by
  induction n generalizing x y with
  | zero => rfl
  | succ n ih =>
    rw [Function.iterate_succ_apply, Function.iterate_succ_apply, Function.iterate_succ_apply,
      step_xor, ih]

theorem low_xor (a b : Bool) : low w (a ^^ b) = low w a ^^^ low w b := by
  cases a <;> cases b <;> simp [low]

theorem run_append (x : BitVec w) (a b : List Bool) :
    run poly x (a ++ b) = run poly (run poly x a) b := List.foldl_append

/-- Two registers over two streams, and their sum over the streams' sum. -/
theorem run_xor (x y : BitVec w) {a b : List Bool} (h : a.length = b.length) :
    run poly (x ^^^ y) (List.zipWith xor a b) = run poly x a ^^^ run poly y b := by
  induction a generalizing x y b with
  | nil =>
    rw [List.eq_nil_of_length_eq_zero h.symm]
    rfl
  | cons bit a ih =>
    cases b with
    | nil => cases h
    | cons bit' b =>
      have hfeed : feed poly (x ^^^ y) (bit ^^ bit') = feed poly x bit ^^^ feed poly y bit' := by
        rw [feed, feed, feed, ← step_xor, low_xor]
        congr 1
        rw [BitVec.xor_assoc, BitVec.xor_assoc, ← BitVec.xor_assoc y, BitVec.xor_comm y,
          BitVec.xor_assoc]
      show run poly (feed poly (x ^^^ y) (bit ^^ bit')) _ = _
      rw [hfeed, ih _ _ (Nat.succ.inj h)]
      rfl

theorem run_zeros (x : BitVec w) (n : Nat) :
    run poly x (List.replicate n false) = (step poly)^[n] x := by
  have hlow : low w false = 0#w := rfl
  induction n generalizing x with
  | zero => rfl
  | succ n ih =>
    show run poly (step poly (x ^^^ low w false)) _ = _
    rw [hlow, BitVec.xor_zero, ih, Function.iterate_succ_apply]

/-! ## Streams no longer than the register -/

theorem getLsbD_low (bit : Bool) (i : Nat) :
    (low w bit).getLsbD i = (decide (i < w) && decide (i = 0) && bit) := by
  rw [low, BitVec.getLsbD_ofNat]
  cases bit with
  | false => simp
  | true =>
    have : Nat.testBit 1 i = decide (i = 0) := by
      cases i <;> simp [Nat.testBit_succ]
    simp [this]

theorem getLsbD_ofBits (bits : List Bool) {i : Nat} (h : i < w) :
    (ofBits w bits).getLsbD i = bits.getD i false := by
  induction bits generalizing i with
  | nil => simp [ofBits]
  | cons bit bits ih =>
    rw [ofBits, BitVec.getLsbD_xor, getLsbD_low, BitVec.getLsbD_shiftLeft]
    cases i with
    | zero => simp [h]
    | succ i => simp [h, ih (Nat.lt_of_succ_lt h)]

/-- A register shifted up comes down again, as long as nothing fell out at its high end. -/
theorem step_shiftLeft {x : BitVec w} (h : ∀ i, i + 1 = w → x.getLsbD i = false) :
    step poly (x <<< 1) = x := by
  have hlow : (x <<< 1).getLsbD 0 = false := by simp
  rw [step, hlow, if_neg Bool.false_ne_true]
  apply BitVec.eq_of_getLsbD_eq
  intro i hi
  rw [BitVec.getLsbD_ushiftRight, BitVec.getLsbD_shiftLeft]
  by_cases hlast : i + 1 = w
  · rw [h i hlast]
    simp [Nat.add_comm 1, hlast]
  · simp [show 1 + i < w by omega]

/-- A stream that fits the register can be added to it at once. -/
theorem run_eq (x : BitVec w) {bits : List Bool} (h : bits.length ≤ w) :
    run poly x bits = (step poly)^[bits.length] (x ^^^ ofBits w bits) := by
  induction bits generalizing x with
  | nil => exact (BitVec.xor_zero ..).symm
  | cons bit bits ih =>
    rw [List.length_cons] at h
    have hhigh : ∀ i, i + 1 = w → (ofBits w bits).getLsbD i = false := by
      intro i hi
      rw [getLsbD_ofBits bits (by omega), List.getD_eq_default _ _ (by omega)]
    show run poly (step poly (x ^^^ low w bit)) bits = _
    rw [ih _ (by omega), List.length_cons, Function.iterate_succ_apply, ofBits,
      ← BitVec.xor_assoc, step_xor poly (x ^^^ low w bit), step_shiftLeft poly hhigh]

/-! ## Tables -/

/-- A register shifts down as long as no bit falls out of it. -/
theorem iterate_of_low_false {x : BitVec w} {n : Nat} (h : ∀ i < n, x.getLsbD i = false) :
    (step poly)^[n] x = x >>> n := by
  induction n generalizing x with
  | zero => exact (BitVec.ushiftRight_zero x).symm
  | succ n ih =>
    have hstep : step poly x = x >>> 1 := by
      rw [step, h 0 (Nat.succ_pos n), if_neg Bool.false_ne_true]
    have hshifted : ∀ i < n, (x >>> 1).getLsbD i = false := by
      intro i hi
      rw [BitVec.getLsbD_ushiftRight]
      exact h (1 + i) (by omega)
    rw [Function.iterate_succ_apply, hstep, ih hshifted, ← BitVec.shiftRight_add,
      Nat.add_comm 1 n]

/-- `n` steps at once: a table that holds them for the `n` lowest bits gives them for the rest. -/
theorem iterate_eq_table {x low : BitVec w} {n : Nat}
    (h : ∀ i, low.getLsbD i = (decide (i < n) && x.getLsbD i)) :
    (step poly)^[n] x = x >>> n ^^^ (step poly)^[n] low := by
  have hhigh : (step poly)^[n] (x ^^^ low) = (x ^^^ low) >>> n := by
    apply iterate_of_low_false
    intro i hi
    rw [BitVec.getLsbD_xor, h, decide_eq_true hi, Bool.true_and, Bool.xor_self]
  have hshift : (x ^^^ low) >>> n = x >>> n := by
    apply BitVec.eq_of_getLsbD_eq
    intro i _
    rw [BitVec.getLsbD_ushiftRight, BitVec.getLsbD_ushiftRight, BitVec.getLsbD_xor, h,
      decide_eq_false (by omega), Bool.false_and, Bool.xor_false]
  calc (step poly)^[n] x = (step poly)^[n] ((x ^^^ low) ^^^ low) := by
        rw [BitVec.xor_assoc, BitVec.xor_self, BitVec.xor_zero]
    _ = x >>> n ^^^ (step poly)^[n] low := by rw [iterate_xor, hhigh, hshift]

/-! ## Bursts -/

section
variable {poly}

/-- With the highest bit of the polynomial set nothing is lost. -/
theorem step_eq_zero (hpoly : poly.msb = true) {x : BitVec w} (h : step poly x = 0#w) : x = 0#w := by
  have hbits : ∀ i, (step poly x).getLsbD i = false := fun i => by
    rw [h]
    exact BitVec.getLsbD_zero
  unfold step at hbits
  cases hlow : x.getLsbD 0 with
  | false =>
    rw [hlow, if_neg Bool.false_ne_true] at hbits
    apply BitVec.eq_of_getLsbD_eq
    intro i hi
    cases i with
    | zero => rw [hlow, BitVec.getLsbD_zero]
    | succ i =>
      have := hbits i
      rw [BitVec.getLsbD_ushiftRight, Nat.add_comm] at this
      rw [this, BitVec.getLsbD_zero]
  | true =>
    -- the highest bit of the sum is the polynomial's
    rw [hlow, if_pos rfl] at hbits
    have htop := hbits (w - 1)
    rw [BitVec.msb_eq_getLsbD_last] at hpoly
    have hpos : 0 < w := by
      by_contra hw
      obtain rfl : w = 0 := by omega
      rw [BitVec.getLsbD_of_ge _ _ (Nat.zero_le _)] at hlow
      cases hlow
    rw [BitVec.getLsbD_xor, hpoly, BitVec.getLsbD_ushiftRight,
      BitVec.getLsbD_of_ge _ _ (show w ≤ 1 + (w - 1) by omega)] at htop
    cases htop

theorem iterate_eq_zero (hpoly : poly.msb = true) {x : BitVec w} {n : Nat}
    (h : (step poly)^[n] x = 0#w) : x = 0#w := by
  induction n generalizing x with
  | zero => exact h
  | succ n ih => exact step_eq_zero hpoly (ih h)

theorem eq_replicate_of_getD {bits : List Bool} (h : ∀ n, bits.getD n false = false) :
    bits = List.replicate bits.length false := by
  apply List.eq_replicate_of_mem
  intro bit hbit
  obtain ⟨n, hn, rfl⟩ := List.getElem_of_mem hbit
  rw [← List.getD_eq_getElem _ false hn]
  exact h n

theorem ofBits_ne_zero {bits : List Bool} (hlength : bits.length ≤ w) (h : true ∈ bits) :
    ofBits w bits ≠ 0#w := by
  intro hzero
  obtain ⟨n, hn, hbit⟩ := List.getElem_of_mem h
  have := getLsbD_ofBits (w := w) bits (Nat.lt_of_lt_of_le hn hlength)
  rw [hzero, BitVec.getLsbD_zero, List.getD_eq_getElem _ false hn, hbit] at this
  cases this

/-- A register that starts empty does not end empty over a burst no longer than itself. -/
theorem run_burst (hpoly : poly.msb = true) {bits : List Bool} {first : Nat} (hne : true ∈ bits)
    (hwithin : ∀ n, bits.getD n false = true → first ≤ n ∧ n < first + w) :
    run poly 0#w bits ≠ 0#w := by
  have hquiet : ∀ n, ¬(first ≤ n ∧ n < first + w) → bits.getD n false = false := fun n hn =>
    eq_false_of_ne_true (mt (hwithin n) hn)
  have hbefore : bits.take first = List.replicate (bits.take first).length false := by
    apply eq_replicate_of_getD
    intro n
    by_cases hn : n < first
    · rw [List.getD_eq_getElem?_getD, List.getElem?_take_of_lt hn, ← List.getD_eq_getElem?_getD]
      exact hquiet n (by omega)
    · exact List.getD_eq_default _ _ (by rw [List.length_take]; omega)
  have hafter : (bits.drop first).drop w =
      List.replicate ((bits.drop first).drop w).length false := by
    apply eq_replicate_of_getD
    intro n
    rw [List.drop_drop, List.getD_eq_getElem?_getD, List.getElem?_drop, ← List.getD_eq_getElem?_getD]
    exact hquiet _ (by omega)
  have hsplit : bits = bits.take first ++ ((bits.drop first).take w ++ (bits.drop first).drop w) := by
    rw [List.take_append_drop, List.take_append_drop]
  have hburst : true ∈ (bits.drop first).take w := by
    rw [hsplit, List.mem_append, List.mem_append, hbefore, hafter] at hne
    rcases hne with h | h | h
    · exact absurd (List.eq_of_mem_replicate h) (by decide)
    · exact h
    · exact absurd (List.eq_of_mem_replicate h) (by decide)
  have hlength : ((bits.drop first).take w).length ≤ w := List.length_take_le ..
  intro hzero
  rw [hsplit, run_append, run_append, hbefore, run_zeros, iterate_zero, hafter, run_zeros] at hzero
  have hmid := iterate_eq_zero hpoly hzero
  rw [run_eq poly 0#w hlength, BitVec.zero_xor] at hmid
  exact ofBits_ne_zero hlength hburst (iterate_eq_zero hpoly hmid)

/-- So streams that leave the same register are the same, or differ in more than a burst. -/
theorem eq_of_run_eq (hpoly : poly.msb = true) {x : BitVec w} {a b : List Bool}
    (hlength : a.length = b.length) (h : run poly x a = run poly x b) {first : Nat}
    (hwithin : ∀ n, a.getD n false ≠ b.getD n false → first ≤ n ∧ n < first + w) : a = b := by
  have hsum : run poly 0#w (List.zipWith xor a b) = 0#w := by
    have := run_xor poly x x hlength
    rwa [BitVec.xor_self, h, BitVec.xor_self] at this
  have hbit : ∀ n, (List.zipWith xor a b).getD n false = (a.getD n false ^^ b.getD n false) := by
    intro n
    by_cases hn : n < a.length
    · rw [List.getD_eq_getElem _ _ (by simpa [← hlength] using hn), List.getElem_zipWith,
        List.getD_eq_getElem _ _ hn, List.getD_eq_getElem _ _ (hlength ▸ hn)]
    · rw [List.getD_eq_default _ _ (by simp; omega), List.getD_eq_default _ _ (by omega),
        List.getD_eq_default _ _ (by omega)]
      rfl
  by_cases hne : true ∈ List.zipWith xor a b
  · refine absurd hsum (@run_burst _ _ hpoly _ first hne fun n hn => hwithin n ?_)
    rw [hbit] at hn
    intro hsame
    rw [hsame, Bool.xor_self] at hn
    cases hn
  · apply List.ext_getElem hlength
    intro n ha hb
    have hquiet : (List.zipWith xor a b).getD n false = false := by
      rw [List.getD_eq_getElem _ _ (by simpa [← hlength] using ha)]
      exact eq_false_of_ne_true fun h => hne (h ▸ List.getElem_mem _)
    rw [hbit, List.getD_eq_getElem _ _ ha, List.getD_eq_getElem _ _ hb] at hquiet
    simpa using hquiet

end

end WaveformGenerator.Lfsr
