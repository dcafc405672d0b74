import Mathlib.Data.List.Basic
import Mathlib.Tactic.IntervalCases

/-!
# Text

Text is a list of characters. `splitFirst` cuts it at the first mark, as a search for the mark and
the two parts beside what was found do; `decimal` reads digits.
-/

namespace WaveformGenerator.Text

variable {α : Type*} [DecidableEq α] {mark : α} {text : List α}

/-- What is before the first `mark`, and what is behind it when there is one. -/
def splitFirst (mark : α) : List α → List α × Option (List α)
  | [] => ([], none)
  | c :: text =>
    if c = mark then ([], some text)
    else (c :: (splitFirst mark text).1, (splitFirst mark text).2)

theorem splitFirst_append {before : List α} (hbefore : mark ∉ before) (after : List α) :
    splitFirst mark (before ++ mark :: after) = (before, some after) := by
  induction before with
  | nil => simp [splitFirst]
  | cons c before ih =>
    rw [List.mem_cons, not_or] at hbefore
    simp [splitFirst, Ne.symm hbefore.1, ih hbefore.2]

theorem splitFirst_of_not_mem (h : mark ∉ text) : splitFirst mark text = (text, none) := by
  induction text with
  | nil => rfl
  | cons c text ih =>
    rw [List.mem_cons, not_or] at h
    simp [splitFirst, Ne.symm h.1, ih h.2]

/-- The text is its first part, without a mark, alone or before a mark and the second part. -/
theorem splitFirst_spec (mark : α) (text : List α) :
    mark ∉ (splitFirst mark text).1 ∧
      (splitFirst mark text).2.elim (text = (splitFirst mark text).1)
        fun after => text = (splitFirst mark text).1 ++ mark :: after := by
  by_cases h : mark ∈ text
  · obtain ⟨before, after, rfl, hbefore⟩ := List.eq_append_cons_of_mem h
    rw [splitFirst_append hbefore]
    exact ⟨hbefore, rfl⟩
  · rw [splitFirst_of_not_mem h]
    exact ⟨h, rfl⟩

/-- What holds of all characters of a text is decided along the text. -/
instance (priority := 2000) decidableForall {p : Char → Prop} [DecidablePred p]
    (text : List Char) : Decidable (∀ c ∈ text, p c) :=
  List.decidableBAll p text

/-! ## Decimal digits -/

/-- The place of a character among the digits. -/
def digitValue (c : Char) : Option Nat := "0123456789".toList.idxOf? c

/-- The number some digits spell. -/
def decimal (digits : List Char) : Nat :=
  digits.foldl (fun value c => value * 10 + (c.toNat - 48)) 0

theorem digitValue_eq (c : Char) :
    digitValue c = if c.isDigit then some (c.toNat - 48) else none := by
  split
  · rename_i h
    obtain ⟨hlow, hhigh⟩ : 48 ≤ c.toNat ∧ c.toNat ≤ 57 := Char.isDigit_iff_toNat.mp h
    have hc : c = Char.ofNat c.toNat := (Char.ofNat_toNat c).symm
    generalize c.toNat = n at hlow hhigh hc
    subst hc
    interval_cases n <;> rfl
  · rename_i h
    have hall : ∀ digit ∈ "0123456789".toList, digit.isDigit = true := by decide
    exact List.idxOf?_eq_none_iff.mpr fun hmem => h (hall c hmem)

end WaveformGenerator.Text
