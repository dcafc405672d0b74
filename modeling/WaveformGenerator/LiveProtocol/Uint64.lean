import WaveformGenerator.Common.Uint64Text
import WaveformGenerator.Host.CutGrammar
import WaveformGenerator.LiveProtocol.Words

/-!
# Numbers read and printed

What the printer prints is what the reader accepts, and nothing else is: the decimal of a number
below 2^64.
-/

namespace WaveformGenerator.LiveProtocol

open Host (Canonical decimalFrom_cons le_decimalFrom canonical_toDigits decimal_toDigits
  toDigits_decimal)

/-! ## Reading -/

theorem not_isDigit_iff (c : Char) : (c < '0' || '9' < c) = true ↔ ¬c.isDigit = true := by
  have hdigit : c.isDigit = true ↔ 48 ≤ c.toNat ∧ c.toNat ≤ 57 := Char.isDigit_iff_toNat
  have hlow : c < '0' ↔ c.toNat < 48 := UInt32.lt_iff_toNat_lt
  have hhigh : '9' < c ↔ 57 < c.toNat := UInt32.lt_iff_toNat_lt
  rw [hdigit, Bool.or_eq_true, decide_eq_true_iff, decide_eq_true_iff, hlow, hhigh]
  omega

/-- The guard of a digit lets through what stays below 2^64. -/
theorem guard_iff {value : UInt64} {digit : Nat} (h : digit < 10) :
    (uint64Max - .ofNat digit) / 10 < value ↔ ¬value.toNat * 10 + digit < 2 ^ 64 := by
  have hmax : uint64Max.toNat = 2 ^ 64 - 1 := rfl
  have hdigit : (UInt64.ofNat digit).toNat = digit := by
    rw [UInt64.toNat_ofNat']
    exact Nat.mod_eq_of_lt (by omega)
  have hle : UInt64.ofNat digit ≤ uint64Max := by
    rw [UInt64.le_iff_toNat_le, hdigit, hmax]
    omega
  have hten : (10 : UInt64).toNat = 10 := rfl
  rw [UInt64.lt_iff_toNat_lt, UInt64.toNat_div, UInt64.toNat_sub_of_le _ _ hle, hdigit, hmax, hten]
  omega

/-- The loop reads digits, as long as they spell a number below 2^64. -/
theorem uint64From_eq (value : UInt64) (text : List Char) :
    uint64From value text =
      if text.all Char.isDigit ∧ Host.decimalFrom value.toNat text < 2 ^ 64 then
        .ok (.ofNat (Host.decimalFrom value.toNat text))
      else .error badRequest := by
  induction text generalizing value with
  | nil =>
    have hvalue : Host.decimalFrom value.toNat [] = value.toNat := rfl
    rw [uint64From, hvalue, if_pos ⟨rfl, value.toNat_lt⟩, UInt64.ofNat_toNat]
  | cons c text ih =>
    rw [uint64From]
    by_cases hc : c.isDigit = true
    · have hrange : 48 ≤ c.toNat ∧ c.toNat ≤ 57 := Char.isDigit_iff_toNat.mp hc
      have hdigit : c.toNat - 48 < 10 := by omega
      have hplace : c.toNat - '0'.toNat = c.toNat - 48 := rfl
      rw [if_neg ((not_isDigit_iff c).not.mpr (not_not.mpr hc)), decimalFrom_cons]
      simp only [hplace, guard_iff hdigit]
      have hnext := le_decimalFrom (value.toNat * 10 + (c.toNat - 48)) text
      by_cases hsmall : value.toNat * 10 + (c.toNat - 48) < 2 ^ 64
      · have hvalue : (value * 10 + .ofNat (c.toNat - 48)).toNat =
            value.toNat * 10 + (c.toNat - 48) := by
          rw [UInt64.toNat_add, UInt64.toNat_mul, UInt64.toNat_ofNat']
          show (value.toNat * 10 % 2 ^ 64 + (c.toNat - 48) % 2 ^ 64) % 2 ^ 64 = _
          omega
        rw [if_neg (not_not.mpr hsmall), ih, hvalue, List.all_cons, hc, Bool.true_and]
      · rw [if_pos hsmall, if_neg]
        rintro ⟨-, hlt⟩
        omega
    · rw [if_pos ((not_isDigit_iff c).mpr hc), if_neg]
      rintro ⟨hall, -⟩
      rw [List.all_cons, Bool.and_eq_true] at hall
      exact hc hall.1

theorem uint64_eq (text : List Char) [Decidable (Canonical text)] :
    uint64 text =
      if Canonical text ∧ Text.decimal text < 2 ^ 64 then .ok (.ofNat (Text.decimal text))
      else .error badRequest := by
  have hloop : uint64From 0 text = if text.all Char.isDigit ∧ Text.decimal text < 2 ^ 64 then
      .ok (.ofNat (Text.decimal text)) else .error badRequest := uint64From_eq 0 text
  unfold uint64
  by_cases hshape : (text.isEmpty || (1 < text.length && text.head? = some '0')) = true
  · rw [if_pos hshape, if_neg]
    rintro ⟨⟨hne, -, hzero⟩, -⟩
    rw [Bool.or_eq_true, Bool.and_eq_true, decide_eq_true_iff, decide_eq_true_iff,
      List.isEmpty_iff] at hshape
    rcases hshape with hempty | ⟨hlength, hhead⟩
    · exact hne hempty
    · exact hzero hlength hhead
  · rw [if_neg hshape, hloop]
    rw [Bool.or_eq_true, Bool.and_eq_true, decide_eq_true_iff, decide_eq_true_iff,
      List.isEmpty_iff, not_or, not_and] at hshape
    have hcanonical : text.all Char.isDigit = true ↔ Canonical text :=
      ⟨fun hall => ⟨hshape.1, hall, hshape.2⟩, fun h => h.2.1⟩
    simp only [hcanonical]

theorem uint64_iff (text : List Char) (value : UInt64) :
    uint64 text = .ok value ↔ text = Nat.toDigits 10 value.toNat := by
  classical
  rw [uint64_eq]
  constructor
  · intro h
    split at h
    · rename_i hread
      cases h
      rw [UInt64.toNat_ofNat', Nat.mod_eq_of_lt hread.2]
      exact toDigits_decimal hread.1
    · cases h
  · rintro rfl
    rw [decimal_toDigits, if_pos ⟨canonical_toDigits _, value.toNat_lt⟩, UInt64.ofNat_toNat]

/-- There is one refusal. -/
theorem uint64_refuses {text : List Char} (h : ∀ value, uint64 text ≠ .ok value) :
    uint64 text = .error badRequest := by
  classical
  rw [uint64_eq] at h ⊢
  split
  · rename_i hread
    exact absurd (if_pos hread) (h _)
  · rfl

/-! ## Printing -/

theorem uint64Digits_getD : ∀ n < 10, uint64Digits.getD n '0' = n.digitChar := by decide

/-- The digits of the loop, from the highest, are the decimal of what is left of the number. -/
theorem reverse_uint64DigitsFrom (value : UInt64) (count : Nat) :
    (uint64DigitsFrom .decimal 1 value count).reverse = Nat.toDigits 10 value.toNat := by
  induction hvalue : value.toNat using Nat.strongRecOn generalizing value count with
  | ind n ih =>
    have hten : Uint64Base.decimal.value.toNat = 10 := rfl
    have hdiv : (value / Uint64Base.decimal.value).toNat = n / 10 := by
      rw [toNat_div_base, hvalue, hten]
    have hdigit : uint64Digits.getD (value % Uint64Base.decimal.value).toNat '0' =
        (n % 10).digitChar := by
      rw [UInt64.toNat_mod, hvalue, hten]
      exact uint64Digits_getD _ (Nat.mod_lt _ (by decide))
    have hrest : value / Uint64Base.decimal.value ≠ 0 ↔ 10 ≤ n := by
      rw [Ne, ← UInt64.toNat_inj, hdiv]
      show ¬n / 10 = 0 ↔ 10 ≤ n
      omega
    rw [uint64DigitsFrom, hdigit]
    by_cases hmore : 10 ≤ n
    · rw [if_pos (.inl (hrest.mpr hmore)), List.reverse_cons,
        ih (n / 10) (Nat.div_lt_self (by omega) (by decide)) _ _ hdiv,
        ← Nat.toDigits_of_base_le (by decide) hmore]
    · have hlast : ¬(value / Uint64Base.decimal.value ≠ 0 ∨ count + 1 < 1) := by
        rw [hrest]
        omega
      rw [if_neg hlast, Nat.mod_eq_of_lt (Nat.not_le.mp hmore),
        Nat.toDigits_of_lt_base (Nat.not_le.mp hmore)]
      rfl

theorem uint64Text_eq (value : UInt64) : uint64Text value = Nat.toDigits 10 value.toNat :=
  reverse_uint64DigitsFrom value 0

/-- The text and its NUL fit their array. -/
theorem length_uint64Text (value : UInt64) :
    (uint64Text value).length < uint64TextStorageSize := by
  have hlength := (Nat.length_toDigits_le_iff (by decide : 1 < 10) (by decide : 0 < 20)).mpr
    (Nat.lt_of_lt_of_le value.toNat_lt (by decide : 2 ^ 64 ≤ 10 ^ 20))
  rw [uint64Text_eq]
  exact Nat.lt_succ_of_le hlength

/-- **Reading and printing are inverse.** A text is accepted if and only if it is the decimal of a
number below 2^64, as which it is read; the printer prints just these. -/
theorem uint64_inverse :
    (∀ text value, uint64 text = .ok value ↔ text = Nat.toDigits 10 value.toNat) ∧
    (∀ text, (∃ value, uint64 text = .ok value) ↔ ∃ n < 2 ^ 64, text = Nat.toDigits 10 n) ∧
    (∀ text, uint64 text = .error badRequest ↔ ¬∃ n < 2 ^ 64, text = Nat.toDigits 10 n) ∧
    (∀ value, uint64Text value = Nat.toDigits 10 value.toNat ∧
      (uint64Text value).length < uint64TextStorageSize) ∧
    (∀ value, uint64 (uint64Text value) = .ok value) ∧
    ∀ text value, uint64 text = .ok value ↔ uint64Text value = text := by
  have hread : ∀ text, (∃ value, uint64 text = .ok value) ↔
      ∃ n < 2 ^ 64, text = Nat.toDigits 10 n := by
    intro text
    constructor
    · rintro ⟨value, h⟩
      exact ⟨value.toNat, value.toNat_lt, (uint64_iff text value).mp h⟩
    · rintro ⟨n, hn, rfl⟩
      refine ⟨.ofNat n, (uint64_iff _ _).mpr ?_⟩
      rw [UInt64.toNat_ofNat', Nat.mod_eq_of_lt hn]
  refine ⟨uint64_iff, hread, fun text => ?_, fun value => ?_, fun value => ?_,
    fun text value => ?_⟩
  · rw [← hread]
    constructor
    · rintro hrefused ⟨value, haccepted⟩
      cases hrefused.symm.trans haccepted
    · exact fun h => uint64_refuses fun value hvalue => h ⟨value, hvalue⟩
  · exact ⟨uint64Text_eq value, length_uint64Text value⟩
  · exact (uint64_iff _ _).mpr (uint64Text_eq value)
  · rw [uint64_iff, uint64Text_eq, eq_comm]

end WaveformGenerator.LiveProtocol
