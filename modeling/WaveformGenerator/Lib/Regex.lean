import Mathlib.Data.List.Basic

/-!
# Regular expressions with groups

A backtracking matcher tries the ways to match the front of a text in an order of preference:
longer runs first, left alternatives first. `run` lists them in that order, and `fullmatch` is the
first that uses the whole text. `Parses` says what a pattern matches, without the order.
-/

namespace WaveformGenerator

/-- What the groups of a match hold, by number. -/
abbrev Groups := List (Nat × List Char)

inductive Regex
  /-- A character class, `least` to `most` times. -/
  | chars (p : Char → Bool) (least : Nat) (most : Option Nat)
  | literal (t : List Char)
  | seq (a b : Regex)
  | alt (a b : Regex)
  | opt (a : Regex)
  | group (n : Nat) (a : Regex)

namespace Regex

/-- A match of the front of a text. -/
structure Front where
  groups : Groups
  matched : List Char
  rest : List Char

def run : Regex → List Char → List Front
  | chars p least most, text =>
    let longest := (text.takeWhile p).length
    let lengths := (List.range (most.elim longest (min longest) + 1)).reverse
    (lengths.filter (least ≤ ·)).map fun n => ⟨[], text.take n, text.drop n⟩
  | literal t, text => if t.isPrefixOf text then [⟨[], t, text.drop t.length⟩] else []
  | seq a b, text =>
    (a.run text).flatMap fun front =>
      (b.run front.rest).map fun next =>
        ⟨front.groups ++ next.groups, front.matched ++ next.matched, next.rest⟩
  | alt a b, text => a.run text ++ b.run text
  | opt a, text => a.run text ++ [⟨[], [], text⟩]
  | group n a, text =>
    (a.run text).map fun front => { front with groups := front.groups ++ [(n, front.matched)] }

/-- The groups of the preferred match of the whole text. -/
def fullmatch (r : Regex) (text : List Char) : Option Groups :=
  ((r.run text).find? (·.rest.isEmpty)).map (·.groups)

/-- The pattern matches the text with these groups. -/
def Parses : Regex → List Char → Groups → Prop
  | chars p least most, text, groups =>
    groups = [] ∧ least ≤ text.length ∧ (∀ n, most = some n → text.length ≤ n) ∧
      ∀ c ∈ text, p c = true
  | literal t, text, groups => groups = [] ∧ text = t
  | seq a b, text, groups =>
    ∃ front groupsA back groupsB, text = front ++ back ∧ groups = groupsA ++ groupsB ∧
      a.Parses front groupsA ∧ b.Parses back groupsB
  | alt a b, text, groups => a.Parses text groups ∨ b.Parses text groups
  | opt a, text, groups => a.Parses text groups ∨ groups = [] ∧ text = []
  | group n a, text, groups => ∃ inner, groups = inner ++ [(n, text)] ∧ a.Parses text inner

/-- The matcher tries every way to match the front of a text, and no other. -/
theorem mem_run {r : Regex} {text : List Char} {front : Front} :
    front ∈ r.run text ↔
      text = front.matched ++ front.rest ∧ r.Parses front.matched front.groups := by
  obtain ⟨groups, matched, rest⟩ := front
  induction r generalizing text groups matched rest with
  | chars p least most =>
    simp only [run, Parses, List.mem_map, List.mem_filter, List.mem_reverse, List.mem_range,
      decide_eq_true_eq, Front.mk.injEq]
    constructor
    · rintro ⟨n, ⟨hn, hleast⟩, rfl, rfl, rfl⟩
      have hlongest : n ≤ (text.takeWhile p).length := by
        cases most with
        | none => exact Nat.lt_succ_iff.mp hn
        | some most => exact Nat.le_trans (Nat.lt_succ_iff.mp hn) (Nat.min_le_left ..)
      have hlength : n ≤ text.length :=
        Nat.le_trans hlongest (List.takeWhile_prefix p).length_le
      refine ⟨(List.take_append_drop n text).symm, rfl, ?_, ?_, fun c hc => ?_⟩
      · rw [List.length_take]
        omega
      · rintro most rfl
        rw [List.length_take]
        have : n ≤ most := Nat.le_trans (Nat.lt_succ_iff.mp hn) (Nat.min_le_right ..)
        omega
      · have htake : text.take n = (text.takeWhile p).take n := by
          conv_lhs => rw [← List.takeWhile_append_dropWhile (p := p) (l := text)]
          exact List.take_append_of_le_length hlongest
        rw [htake] at hc
        exact List.all_eq_true.mp List.all_takeWhile c (List.mem_of_mem_take hc)
    · rintro ⟨rfl, rfl, hleast, hmost, hall⟩
      have hlongest : matched.length ≤ ((matched ++ rest).takeWhile p).length := by
        rw [List.takeWhile_append_of_pos hall, List.length_append]
        exact Nat.le_add_right ..
      refine ⟨matched.length, ⟨?_, hleast⟩, rfl, List.take_left, List.drop_left⟩
      cases most with
      | none => exact Nat.lt_succ_iff.mpr hlongest
      | some most => exact Nat.lt_succ_iff.mpr (Nat.le_min.mpr ⟨hlongest, hmost most rfl⟩)
  | literal t =>
    simp only [run, Parses]
    constructor
    · intro h
      split at h
      · rename_i hprefix
        obtain ⟨after, rfl⟩ := List.isPrefixOf_iff_prefix.mp hprefix
        rw [List.mem_singleton, Front.mk.injEq] at h
        obtain ⟨rfl, rfl, rfl⟩ := h
        exact ⟨by rw [List.drop_left], rfl, rfl⟩
      · cases h
    · rintro ⟨rfl, rfl, rfl⟩
      rw [if_pos (List.isPrefixOf_iff_prefix.mpr ⟨rest, rfl⟩), List.mem_singleton, List.drop_left]
  | seq a b iha ihb =>
    simp only [run, Parses, List.mem_flatMap, List.mem_map, Front.mk.injEq]
    constructor
    · rintro ⟨⟨ga, ma, ra⟩, ha, ⟨gb, mb, rb⟩, hb, rfl, rfl, rfl⟩
      obtain ⟨rfl, hpa⟩ := (iha ..).mp ha
      obtain ⟨hrest, hpb⟩ := (ihb ..).mp hb
      dsimp only at hrest hpa hpb
      refine ⟨?_, ma, ga, mb, gb, rfl, rfl, hpa, hpb⟩
      rw [hrest, List.append_assoc]
    · rintro ⟨rfl, ma, ga, mb, gb, rfl, rfl, hpa, hpb⟩
      exact ⟨⟨ga, ma, mb ++ rest⟩, (iha ..).mpr ⟨List.append_assoc .., hpa⟩, ⟨gb, mb, rest⟩,
        (ihb ..).mpr ⟨rfl, hpb⟩, rfl, rfl, rfl⟩
  | alt a b iha ihb =>
    simp only [run, Parses, List.mem_append, iha, ihb]
    tauto
  | opt a ih =>
    simp only [run, Parses, List.mem_append, List.mem_singleton, ih, Front.mk.injEq]
    constructor
    · rintro (⟨rfl, h⟩ | ⟨rfl, rfl, rfl⟩)
      · exact ⟨rfl, .inl h⟩
      · exact ⟨rfl, .inr ⟨rfl, rfl⟩⟩
    · rintro ⟨rfl, h | ⟨rfl, rfl⟩⟩
      · exact .inl ⟨rfl, h⟩
      · exact .inr ⟨rfl, rfl, rfl⟩
  | group n a ih =>
    simp only [run, Parses, List.mem_map, Front.mk.injEq]
    constructor
    · rintro ⟨⟨g, m, r⟩, h, rfl, rfl, rfl⟩
      obtain ⟨htext, hparses⟩ := (ih ..).mp h
      exact ⟨htext, g, rfl, hparses⟩
    · rintro ⟨rfl, inner, rfl, hparses⟩
      exact ⟨⟨inner, matched, rest⟩, (ih ..).mpr ⟨rfl, hparses⟩, rfl, rfl, rfl⟩

theorem fullmatch_some {r : Regex} {text : List Char} {groups : Groups}
    (h : r.fullmatch text = some groups) : r.Parses text groups := by
  unfold fullmatch at h
  obtain ⟨front, hfind, hgroups⟩ := Option.map_eq_some_iff.mp h
  obtain ⟨htext, hparses⟩ := mem_run.mp (List.mem_of_find?_eq_some hfind)
  have hempty := List.find?_some hfind
  have hrest := List.isEmpty_iff.mp hempty
  rw [hrest, List.append_nil] at htext
  rw [htext, ← hgroups]
  exact hparses

theorem fullmatch_none {r : Regex} {text : List Char} (h : r.fullmatch text = none)
    (groups : Groups) : ¬r.Parses text groups := by
  intro hparses
  have hmem : (⟨groups, text, []⟩ : Front) ∈ r.run text :=
    mem_run.mpr ⟨(List.append_nil _).symm, hparses⟩
  have hnone := List.find?_eq_none.mp (Option.map_eq_none_iff.mp h) _ hmem
  exact hnone rfl

theorem fullmatch_isSome_iff {r : Regex} {text : List Char} :
    (r.fullmatch text).isSome = true ↔ ∃ groups, r.Parses text groups := by
  cases h : r.fullmatch text with
  | none => exact ⟨fun h => (by cases h), fun ⟨groups, hp⟩ => absurd hp (fullmatch_none h groups)⟩
  | some groups => exact ⟨fun _ => ⟨groups, fullmatch_some h⟩, fun _ => rfl⟩

end Regex

end WaveformGenerator
