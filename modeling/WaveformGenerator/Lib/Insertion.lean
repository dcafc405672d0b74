import Mathlib.Data.List.DropRight
import Mathlib.Data.List.Sort

/-!
# Insertion from the back

An insertion that walks from the end of a list over the elements `later` than the new one puts it
behind `l.rdropWhile later` and in front of `l.rtakeWhile later`. On a list in order this keeps the
order, and the elements a downward closed test accepts are the first ones.
-/

namespace WaveformGenerator.Insertion

variable {α : Type*} {r : α → α → Prop} {l : List α}

def insertBack (later : α → Bool) (x : α) (l : List α) : List α :=
  l.rdropWhile later ++ [x] ++ l.rtakeWhile later

theorem not_later_of_mem_rdropWhile {later : α → Bool} (hl : l.Pairwise r)
    (hup : ∀ a b, r a b → later a = true → later b = true) :
    ∀ a ∈ l.rdropWhile later, later a = false := by
  intro a ha
  have hne : l.rdropWhile later ≠ [] := List.ne_nil_of_mem ha
  have hlast := List.rdropWhile_last_not later l hne
  rw [Bool.not_eq_true] at hlast
  have hsorted : (l.rdropWhile later).Pairwise r :=
    hl.sublist (List.rdropWhile_prefix later l).sublist
  rw [← List.dropLast_append_getLast hne] at ha hsorted
  rcases List.mem_append.mp ha with ha | ha
  · have hra := (List.pairwise_append.mp hsorted).2.2 a ha _ (List.mem_singleton_self _)
    cases hlater : later a with
    | false => rfl
    | true => rw [hup _ _ hra hlater] at hlast; cases hlast
  · rwa [List.mem_singleton.mp ha]

theorem insertBack_perm (later : α → Bool) (x : α) (l : List α) :
    (insertBack later x l).Perm (x :: l) := by
  have hmiddle : (l.rdropWhile later ++ x :: l.rtakeWhile later).Perm
      (x :: (l.rdropWhile later ++ l.rtakeWhile later)) := List.perm_middle
  rw [List.rdropWhile_append_rtakeWhile] at hmiddle
  rwa [insertBack, List.append_assoc, List.singleton_append]

theorem pairwise_insertBack {later : α → Bool} {x : α} (hl : l.Pairwise r)
    (hup : ∀ a b, r a b → later a = true → later b = true)
    (hbefore : ∀ a ∈ l, later a = false → r a x) (hafter : ∀ a ∈ l, later a = true → r x a) :
    (insertBack later x l).Pairwise r := by
  have hpre := List.rdropWhile_prefix later l
  have hsuf := List.rtakeWhile_suffix later l
  have hearly := not_later_of_mem_rdropWhile hl hup
  rw [insertBack, List.append_assoc, List.singleton_append, List.pairwise_append]
  refine ⟨hl.sublist hpre.sublist, List.pairwise_cons.mpr ⟨fun a ha => ?_, ?_⟩, fun a ha b hb => ?_⟩
  · exact hafter a (hsuf.subset ha) (List.mem_rtakeWhile_imp ha)
  · exact hl.sublist hsuf.sublist
  · rcases List.mem_cons.mp hb with rfl | hb
    · exact hbefore a (hpre.subset ha) (hearly a ha)
    · have happend : l.rdropWhile later ++ l.rtakeWhile later = l := by simp
      rw [← happend] at hl
      exact (List.pairwise_append.mp hl).2.2 a ha b hb

theorem takeWhile_eq_filter {p : α → Bool} (hl : l.Pairwise r)
    (hdown : ∀ a ∈ l, ∀ b, r a b → p b = true → p a = true) : l.takeWhile p = l.filter p := by
  induction l with
  | nil => rfl
  | cons a l ih =>
    obtain ⟨ha, hl⟩ := List.pairwise_cons.mp hl
    cases hp : p a with
    | true =>
      rw [List.takeWhile_cons_of_pos hp, List.filter_cons_of_pos hp,
        ih hl fun b hb => hdown b (List.mem_cons_of_mem a hb)]
    | false =>
      have hnone : ∀ b ∈ l, ¬p b = true := fun b hb hpb => by
        rw [hdown a List.mem_cons_self b (ha b hb) hpb] at hp; cases hp
      rw [List.takeWhile_cons_of_neg (by simp [hp]), List.filter_cons_of_neg (by simp [hp]),
        List.filter_eq_nil_iff.mpr hnone]

theorem dropWhile_eq_filter {p : α → Bool} (hl : l.Pairwise r)
    (hdown : ∀ a ∈ l, ∀ b, r a b → p b = true → p a = true) :
    l.dropWhile p = l.filter fun a => !p a := by
  induction l with
  | nil => rfl
  | cons a l ih =>
    obtain ⟨ha, hl⟩ := List.pairwise_cons.mp hl
    cases hp : p a with
    | true =>
      rw [List.dropWhile_cons_of_pos hp, List.filter_cons_of_neg (by simp [hp]),
        ih hl fun b hb => hdown b (List.mem_cons_of_mem a hb)]
    | false =>
      have hall : ∀ b ∈ a :: l, (!p b) = true := by
        rintro b (_ | ⟨_, hb⟩)
        · rw [hp]; rfl
        · cases hpb : p b with
          | false => rfl
          | true => rw [hdown a List.mem_cons_self b (ha b hb) hpb] at hp; cases hp
      rw [List.dropWhile_cons_of_neg (by simp [hp]), List.filter_eq_self.mpr hall]

end WaveformGenerator.Insertion
