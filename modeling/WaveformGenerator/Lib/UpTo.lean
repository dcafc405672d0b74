import Mathlib.Data.List.Basic

/-!
# Prefixes by a count

`upTo p n l` is the shortest prefix of `l` that holds `n` elements satisfying `p`, or all of `l`
when it holds fewer: what of a labelled walk lies behind its `n`-th element of a kind.
-/

namespace WaveformGenerator

variable {α : Type u} (p : α → Bool)

def upTo : Nat → List α → List α
  | 0, _ => []
  | _ + 1, [] => []
  | n + 1, x :: l => x :: upTo (if p x then n else n + 1) l

@[simp] theorem upTo_zero (l : List α) : upTo p 0 l = [] := by
  cases l <;> rfl

theorem upTo_succ_cons (n : Nat) (x : α) (l : List α) :
    upTo p (n + 1) (x :: l) = x :: upTo p (if p x then n else n + 1) l := rfl

@[simp] theorem upTo_nil (n : Nat) : upTo p n [] = [] := by
  cases n <;> rfl

/-- A list with fewer than `n` such elements is taken whole. -/
theorem upTo_of_countP_lt {n : Nat} {l : List α} (h : l.countP p < n) : upTo p n l = l := by
  induction l generalizing n with
  | nil => simp
  | cons x l ih =>
    obtain ⟨n, rfl⟩ : ∃ m, n = m + 1 := ⟨n - 1, by omega⟩
    rw [List.countP_cons] at h
    rw [upTo_succ_cons, ih]
    split <;> rename_i hx <;> simp [hx] at h <;> omega

theorem upTo_append_of_le {n : Nat} {a : List α} (h : n ≤ a.countP p) (b : List α) :
    upTo p n (a ++ b) = upTo p n a := by
  induction a generalizing n with
  | nil => simp_all
  | cons x a ih =>
    cases n with
    | zero => simp
    | succ n =>
      rw [List.countP_cons] at h
      rw [List.cons_append, upTo_succ_cons, upTo_succ_cons, ih]
      split <;> rename_i hx <;> simp [hx] at h <;> omega

theorem upTo_append_of_lt {n : Nat} {a : List α} (h : a.countP p < n) (b : List α) :
    upTo p n (a ++ b) = a ++ upTo p (n - a.countP p) b := by
  induction a generalizing n with
  | nil => simp
  | cons x a ih =>
    obtain ⟨n, rfl⟩ : ∃ m, n = m + 1 := ⟨n - 1, by omega⟩
    rw [List.countP_cons] at h
    rw [List.cons_append, upTo_succ_cons,
      ih (by split <;> rename_i hx <;> simp [hx] at h <;> omega),
      List.countP_cons, List.cons_append]
    congr 3
    split <;> omega

/-- Where every element counts, the prefix is the first `n`. -/
theorem upTo_eq_take {n : Nat} {l : List α} (h : ∀ x ∈ l, p x = true) : upTo p n l = l.take n := by
  induction l generalizing n with
  | nil => simp
  | cons x l ih =>
    cases n with
    | zero => simp
    | succ n =>
      rw [upTo_succ_cons, if_pos (h x List.mem_cons_self),
        ih fun y hy => h y (List.mem_cons_of_mem _ hy), List.take_succ_cons]

theorem upTo_sublist (n : Nat) (l : List α) : (upTo p n l).Sublist l := by
  induction l generalizing n with
  | nil => simp
  | cons x l ih =>
    cases n with
    | zero => simp
    | succ n => exact (ih _).cons_cons x

/-- A list with `n` such elements has them all in the prefix. -/
theorem countP_upTo_of_le {n : Nat} {l : List α} (h : n ≤ l.countP p) :
    (upTo p n l).countP p = n := by
  induction l generalizing n with
  | nil => simp_all
  | cons x l ih =>
    cases n with
    | zero => simp
    | succ n =>
      rw [List.countP_cons] at h
      rw [upTo_succ_cons, List.countP_cons]
      split <;> rename_i hx <;> simp only [hx] at h
      · rw [ih (by simpa using h)]
      · exact ih (by simpa using h)

end WaveformGenerator
