import WaveformGenerator.Lib.Insertion

/-!
# Stable orders

A list in the order of its keys is known from what it has under each key: two orders that keep the
elements of each key as they were given are the same.
-/

namespace WaveformGenerator.StableOrder

variable {α : Type*} {key : α → Nat} {a b : List α}

/-- The elements under one key. -/
def under (key : α → Nat) (k : Nat) (l : List α) : List α := l.filter fun x => key x = k

theorem mem_under {k : Nat} {x : α} : x ∈ under key k a ↔ x ∈ a ∧ key x = k := by
  rw [under, List.mem_filter, decide_eq_true_eq]

theorem under_cons_self (x : α) (l : List α) :
    under key (key x) (x :: l) = x :: under key (key x) l :=
  List.filter_cons_of_pos (decide_eq_true rfl)

theorem under_cons_of_ne {k : Nat} {x : α} (h : key x ≠ k) (l : List α) :
    under key k (x :: l) = under key k l :=
  List.filter_cons_of_neg (by simpa using h)

theorem under_append (k : Nat) (a b : List α) :
    under key k (a ++ b) = under key k a ++ under key k b :=
  List.filter_append ..

theorem eq_of_under (ha : a.Pairwise (key · ≤ key ·)) (hb : b.Pairwise (key · ≤ key ·))
    (h : ∀ k, under key k a = under key k b) : a = b := by
  induction a generalizing b with
  | nil =>
    cases b with
    | nil => rfl
    | cons y b =>
      have hy := h (key y)
      rw [under_cons_self] at hy
      cases hy
  | cons x a ih =>
    cases b with
    | nil =>
      have hx := h (key x)
      rw [under_cons_self] at hx
      cases hx
    | cons y b =>
      obtain ⟨hafterX, hrestA⟩ := List.pairwise_cons.mp ha
      obtain ⟨hafterY, hrestB⟩ := List.pairwise_cons.mp hb
      have hxb : x ∈ y :: b :=
        (mem_under.mp (h (key x) ▸ mem_under.mpr ⟨List.mem_cons_self, rfl⟩)).1
      have hya : y ∈ x :: a :=
        (mem_under.mp (h (key y) ▸ mem_under.mpr ⟨List.mem_cons_self, rfl⟩)).1
      have hkey : key x = key y := by
        refine Nat.le_antisymm ?_ ?_
        · rcases List.mem_cons.mp hya with rfl | hya
          · exact Nat.le_refl _
          · exact hafterX y hya
        · rcases List.mem_cons.mp hxb with rfl | hxb
          · exact Nat.le_refl _
          · exact hafterY x hxb
      have hfirst := h (key x)
      rw [under_cons_self, hkey, under_cons_self] at hfirst
      obtain ⟨rfl, -⟩ := List.cons.inj hfirst
      refine congrArg (x :: ·) (ih hrestA hrestB fun k => ?_)
      have hk := h k
      rcases Decidable.em (key x = k) with rfl | hne
      · rw [under_cons_self, under_cons_self] at hk
        exact (List.cons.inj hk).2
      · rwa [under_cons_of_ne hne, under_cons_of_ne hne] at hk

/-- A list in the order of its keys, with what was given under each key as it was given. -/
structure Stable (key : α → Nat) (given sorted : List α) : Prop where
  inOrder : sorted.Pairwise (key · ≤ key ·)
  under_eq : ∀ k, under key k sorted = under key k given

variable {given : List α}

theorem Stable.nil : Stable key [] ([] : List α) := ⟨.nil, fun _ => rfl⟩

theorem Stable.unique (ha : Stable key given a) (hb : Stable key given b) : a = b :=
  eq_of_under ha.inOrder hb.inOrder fun k => (ha.under_eq k).trans (hb.under_eq k).symm

/-- Insertion from the back puts a new element behind those of its key. -/
theorem Stable.insertBack (h : Stable key given a) (x : α) :
    Stable key (given ++ [x])
      (Insertion.insertBack (fun other => decide (key x < key other)) x a) := by
  refine ⟨Insertion.pairwise_insertBack h.inOrder ?_ ?_ ?_, fun k => ?_⟩
  · intro a b hab ha
    exact decide_eq_true (Nat.lt_of_lt_of_le (of_decide_eq_true ha) hab)
  · intro a _ ha
    exact Nat.not_lt.mp (of_decide_eq_false ha)
  · intro a _ ha
    exact Nat.le_of_lt (of_decide_eq_true ha)
  · rw [under_append, ← h.under_eq]
    generalize hbehind : (fun other => decide (key x < key other)) = behind
    have hparts : a.rdropWhile behind ++ a.rtakeWhile behind = a :=
      List.rdropWhile_append_rtakeWhile
    have hall := congrArg (under key k) hparts
    rw [under_append] at hall
    rw [Insertion.insertBack, under_append, under_append]
    rcases Decidable.em (key x = k) with hkey | hother
    · have hlater : under key k (a.rtakeWhile behind) = [] := by
        refine List.filter_eq_nil_iff.mpr fun other hmem => ?_
        have hafter := List.mem_rtakeWhile_imp hmem
        rw [← hbehind, decide_eq_true_eq] at hafter
        rw [decide_eq_true_eq]
        omega
      rw [← hall, hlater, List.append_nil, List.append_nil]
    · rw [under_cons_of_ne hother, ← hall]
      simp only [under, List.filter_nil, List.append_nil]

/-- A sorted list is stable where what was given under one key was in order already. -/
theorem Stable.of_sorted {le : α → α → Prop} (hperm : a.Perm given) (hsorted : a.Pairwise le)
    (hkey : ∀ x y, le x y → key x ≤ key y) (hanti : ∀ x y, le x y → le y x → x = y)
    (hgiven : given.Pairwise fun x y => key x = key y → le x y) : Stable key given a := by
  refine ⟨hsorted.imp (hkey _ _), fun k => ?_⟩
  refine List.Perm.eq_of_pairwise (fun x y _ _ => hanti x y) (hsorted.filter _) ?_ (hperm.filter _)
  refine (hgiven.filter _).imp_of_mem fun hx hy hle => hle ?_
  rw [(mem_under.mp hx).2, (mem_under.mp hy).2]

theorem under_map {β : Type*} {keyB : β → Nat} {f : α → β} (hf : ∀ x, keyB (f x) = key x) (k : Nat)
    (l : List α) : under keyB k (l.map f) = (under key k l).map f := by
  rw [under, under, List.filter_map]
  refine congrArg (List.map f) (List.filter_congr fun x _ => ?_)
  rw [Function.comp_apply, hf]

theorem Stable.map {β : Type*} {keyB : β → Nat} {f : α → β} (h : Stable key given a)
    (hf : ∀ x, keyB (f x) = key x) : Stable keyB (given.map f) (a.map f) := by
  refine ⟨List.pairwise_map.mpr (h.inOrder.imp fun hle => ?_), fun k => ?_⟩
  · rw [hf, hf]
    exact hle
  · rw [under_map hf, under_map hf, h.under_eq]

end WaveformGenerator.StableOrder
