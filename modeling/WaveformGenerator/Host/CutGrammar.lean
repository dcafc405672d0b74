import WaveformGenerator.Host.CutAgreement

/-!
# The grammar of a CUT command

A text is accepted if and only if it is what `printCommand` prints for a list of entries, and is
then read as that list. Board and host have the same grammar.
-/

namespace WaveformGenerator.Host

open Text
open CutEntry (ofBoard)

/-! ## Canonical decimals -/

theorem digitChar_digit {c : Char} (h : c.isDigit = true) : (c.toNat - 48).digitChar = c := by
  have hrange : 48 ≤ c.toNat ∧ c.toNat ≤ 57 := Char.isDigit_iff_toNat.mp h
  apply Char.toNat_inj.mp
  rw [Nat.toNat_digitChar_of_lt_ten (by omega)]
  omega

/-- Digits behind those of a positive number. -/
theorem toDigits_append_digits {value : Nat} {text : List Char} (hvalue : 0 < value)
    (h : text.all Char.isDigit = true) :
    Nat.toDigits 10 value ++ text = Nat.toDigits 10 (decimalFrom value text) := by
  induction text generalizing value with
  | nil => exact List.append_nil _
  | cons c text ih =>
    rw [List.all_cons, Bool.and_eq_true] at h
    have hrange : 48 ≤ c.toNat ∧ c.toNat ≤ 57 := Char.isDigit_iff_toNat.mp h.1
    have hdigit : c.toNat - 48 < 10 := by omega
    have hlast := @Nat.toDigits_append_toDigits 10 value (c.toNat - 48) (by omega) hvalue hdigit
    rw [Nat.toDigits_of_lt_base hdigit, digitChar_digit h.1, Nat.mul_comm] at hlast
    calc Nat.toDigits 10 value ++ c :: text
        = (Nat.toDigits 10 value ++ [c]) ++ text := by rw [List.append_assoc]; rfl
      _ = Nat.toDigits 10 (value * 10 + (c.toNat - 48)) ++ text := by rw [hlast]
      _ = Nat.toDigits 10 (decimalFrom value (c :: text)) := by
        rw [ih (by omega) h.2, decimalFrom_cons]

theorem toDigits_decimal {text : List Char} (h : Canonical text) :
    text = Nat.toDigits 10 (decimal text) := by
  obtain ⟨hne, hdigits, hzero⟩ := h
  cases text with
  | nil => exact absurd rfl hne
  | cons c text =>
    rw [List.all_cons, Bool.and_eq_true] at hdigits
    have hrange : 48 ≤ c.toNat ∧ c.toNat ≤ 57 := Char.isDigit_iff_toNat.mp hdigits.1
    have hdigit : c.toNat - 48 < 10 := by omega
    have hfirst : Nat.toDigits 10 (c.toNat - 48) = [c] := by
      rw [Nat.toDigits_of_lt_base hdigit, digitChar_digit hdigits.1]
    have hdecimal : decimal (c :: text) = decimalFrom (c.toNat - 48) text := by
      show decimalFrom 0 (c :: text) = _
      rw [decimalFrom_cons, Nat.zero_mul, Nat.zero_add]
    rw [hdecimal]
    by_cases hc : c = '0'
    · have htext : text = [] := by
        by_contra htext
        refine hzero ?_ (congrArg some hc)
        rw [List.length_cons]
        exact Nat.lt_add_of_pos_left (List.length_pos_of_ne_nil htext)
      rw [htext]
      exact hfirst.symm
    · have hpos : 0 < c.toNat - 48 := by
        have : c.toNat ≠ 48 := fun h => hc (Char.toNat_inj.mp h)
        omega
      rw [← toDigits_append_digits hpos hdigits.2, hfirst, List.singleton_append]

theorem head_toDigits {n : Nat} (h : 0 < n) : (Nat.toDigits 10 n).head? ≠ some '0' := by
  induction n using Nat.strongRecOn with
  | _ n ih =>
    by_cases hn : n < 10
    · rw [Nat.toDigits_of_lt_base hn, List.head?_cons]
      interval_cases n <;> decide
    · have hfront := ih (n / 10) (by omega) (by omega)
      rw [Nat.toDigits_of_base_le (by omega) (Nat.not_lt.mp hn),
        List.head?_append_of_ne_nil _ Nat.toDigits_ne_nil]
      exact hfront

theorem canonical_toDigits (n : Nat) : Canonical (Nat.toDigits 10 n) := by
  refine ⟨Nat.toDigits_ne_nil, ?_, fun hlength => ?_⟩
  · exact List.all_eq_true.mpr fun c hc =>
      Nat.isDigit_of_mem_toDigits (by omega) (Nat.le_refl 10) hc
  · apply head_toDigits
    apply Nat.pos_of_ne_zero
    rintro rfl
    exact absurd hlength (by decide)

theorem decimal_toDigits (n : Nat) : decimal (Nat.toDigits 10 n) = n := by
  have hcanonical := toDigits_decimal (canonical_toDigits n)
  have hvalue := congrArg (Nat.ofDigitChars 10 · 0) hcanonical
  rw [Nat.ofDigitChars_ten_toDigits, Nat.ofDigitChars_ten_toDigits] at hvalue
  exact hvalue.symm

theorem not_mem_toDigits {n : Nat} {c : Char} (hc : c.isDigit = false) :
    c ∉ Nat.toDigits 10 n := by
  intro h
  have := Nat.isDigit_of_mem_toDigits (by omega) (Nat.le_refl 10) h
  rw [hc] at this
  cases this

/-- The board's numbers are those of 32 bits as they are printed. -/
theorem parseUInt32_iff (text : List Char) (value : UInt32) :
    Cut.parseUInt32 text = .ok value ↔ text = Nat.toDigits 10 value.toNat := by
  rw [board_parseUInt32]
  constructor
  · intro h
    split at h
    · rename_i hread
      cases h
      rw [toNat_ofNat32 (Nat.lt_of_le_of_lt hread.2 (by decide))]
      exact toDigits_decimal hread.1
    · cases h
  · rintro rfl
    have hbound : value.toNat ≤ uint32Max := by
      have := value.toNat_lt
      unfold uint32Max
      omega
    rw [decimal_toDigits, if_pos ⟨canonical_toDigits _, hbound⟩, UInt32.ofNat_toNat]

/-- What the 64-bit value of the loop of `parse_uint32` has read at any point of an accepted
number. -/
theorem decimal_take_le {text : List Char} {value : UInt32}
    (h : Cut.parseUInt32 text = .ok value) (n : Nat) : decimal (text.take n) ≤ uint32Max := by
  have hwhole : decimal text ≤ uint32Max := by
    rw [(parseUInt32_iff text value).mp h, decimal_toDigits]
    have := value.toNat_lt
    unfold uint32Max
    omega
  have hsplit : decimal text = decimalFrom (decimal (text.take n)) (text.drop n) := by
    conv_lhs => rw [← List.take_append_drop n text]
    exact List.foldl_append
  have := le_decimalFrom (decimal (text.take n)) (text.drop n)
  omega

/-! ## Entries -/

def kindName : Cut.CutKind → List Char
  | .drop => "drop".toList
  | .zero => "zero".toList

theorem spelling_toList (entry : CutEntry) :
    entry.spelling.toList = Nat.toDigits 10 entry.offset ++
      ':' :: (Nat.toDigits 10 entry.length ++ ':' :: kindName entry.kind) := by
  unfold CutEntry.spelling
  cases entry.kind <;>
    simp [toString, kindName, Nat.toList_repr]

theorem parseKind_iff (name : List Char) (kind : Cut.CutKind) :
    Cut.parseKind name = .ok kind ↔ name = kindName kind := by
  unfold Cut.parseKind
  constructor
  · intro h
    split at h
    · cases h
      assumption
    · split at h
      · cases h
        assumption
      · cases h
  · rintro rfl
    cases kind <;> rfl

theorem comma_not_mem_spelling (entry : CutEntry) : ',' ∉ entry.spelling.toList := by
  have hkind : ',' ∉ kindName entry.kind := by cases entry.kind <;> decide
  have hdigits : ∀ n, ',' ∉ Nat.toDigits 10 n := fun n => not_mem_toDigits (by decide)
  rw [spelling_toList]
  simp only [List.mem_append, List.mem_cons, hdigits, hkind]
  decide

theorem parseEntry_iff (text : List Char) (entry : Cut.CutEntry) :
    Cut.parseEntry text = .ok entry ↔ text = (ofBoard entry).spelling.toList := by
  have hcolon : ∀ n, ':' ∉ Nat.toDigits 10 n := fun n => not_mem_toDigits (by decide)
  rw [spelling_toList]
  constructor
  · intro h
    obtain ⟨-, hfirst⟩ := splitFirst_spec ':' text
    unfold Cut.parseEntry at h
    generalize splitFirst ':' text = parts at h hfirst
    obtain ⟨first, _ | rest⟩ := parts
    · cases h
    obtain ⟨-, hsecond⟩ := splitFirst_spec ':' rest
    dsimp only at h
    generalize splitFirst ':' rest = parts at h hsecond
    obtain ⟨second, _ | third⟩ := parts
    · cases h
    dsimp only [Option.elim_some] at h hfirst hsecond
    cases hoffset : Cut.parseUInt32 first with
    | error status => rw [hoffset] at h; cases h
    | ok offset =>
      cases hlength : Cut.parseUInt32 second with
      | error status => rw [hoffset, hlength] at h; cases h
      | ok length =>
        cases hkind : Cut.parseKind third with
        | error status => rw [hoffset, hlength, hkind] at h; cases h
        | ok kind =>
          rw [hoffset, hlength, hkind] at h
          cases h
          rw [hfirst, hsecond, (parseUInt32_iff _ _).mp hoffset, (parseUInt32_iff _ _).mp hlength,
            (parseKind_iff _ _).mp hkind]
          rfl
  · intro h
    have hoffset := (parseUInt32_iff _ entry.offset).mpr rfl
    have hlength := (parseUInt32_iff _ entry.length).mpr rfl
    have hkind := (parseKind_iff _ entry.kind).mpr rfl
    unfold Cut.parseEntry
    rw [h, splitFirst_append (hcolon _)]
    dsimp only
    rw [splitFirst_append (hcolon _)]
    dsimp only [ofBoard]
    rw [hoffset, hlength, hkind]

/-! ## Lists -/

/-- The entries, separated by commas. -/
def printEntries (entries : List CutEntry) : List Char :=
  [','].intercalate (entries.map (·.spelling.toList))

theorem printEntries_cons (entry : CutEntry) {entries : List CutEntry} (h : entries ≠ []) :
    printEntries (entry :: entries) = entry.spelling.toList ++ ',' :: printEntries entries := by
  unfold printEntries
  rw [List.map_cons, List.intercalate_cons_of_ne_nil (by rwa [ne_eq, List.map_eq_nil_iff]),
    List.append_assoc]
  rfl

theorem printEntries_singleton (entry : CutEntry) :
    printEntries [entry] = entry.spelling.toList := List.intercalate_singleton

/-- The first entry of a printed list, and the text behind it. -/
theorem splitFirst_printEntries (entry : CutEntry) (entries : List CutEntry) :
    splitFirst ',' (printEntries (entry :: entries)) =
      (entry.spelling.toList, if entries = [] then none else some (printEntries entries)) := by
  by_cases h : entries = []
  · rw [h, printEntries_singleton, if_pos rfl,
      splitFirst_of_not_mem (comma_not_mem_spelling entry)]
  · rw [printEntries_cons entry h, if_neg h, splitFirst_append (comma_not_mem_spelling entry)]

/-- The loop of `parse_entries` reads what is printed behind the entries it has. -/
theorem parseEntriesFrom_iff (list parsed : Cut.CutList) (rest : List Char) (passes : Nat)
    (hpasses : list.entries.length + passes = 17) :
    Cut.parseEntriesFrom list rest passes = .ok parsed ↔
      ∃ entries ≠ [], parsed.entries = list.entries ++ entries ∧
        rest = printEntries (entries.map ofBoard) := by
  induction passes generalizing list rest with
  | zero =>
    have := list.bounded
    rw [Cut.maxEntries] at this
    omega
  | succ passes ih =>
    rw [Cut.parseEntriesFrom]
    constructor
    · intro h
      obtain ⟨-, hsplit⟩ := splitFirst_spec ',' rest
      generalize splitFirst ',' rest = parts at h hsplit
      obtain ⟨first, later⟩ := parts
      dsimp only at h hsplit
      cases hentry : Cut.parseEntry first with
      | error status => rw [hentry] at h; cases h
      | ok entry =>
        have hfirst := (parseEntry_iff _ _).mp hentry
        rw [hentry] at h
        dsimp only at h
        unfold Cut.CutList.push at h
        by_cases hroom : list.entries.length < Cut.maxEntries
        · rw [dif_pos hroom] at h
          cases later with
          | none =>
            cases h
            refine ⟨[entry], List.cons_ne_nil _ _, rfl, ?_⟩
            rw [List.map_singleton, printEntries_singleton, ← hfirst]
            exact hsplit
          | some later =>
            have hnext := (ih _ _ (by
              rw [List.length_append, List.length_singleton]; omega)).mp h
            obtain ⟨entries, hne, hparsed, hlater⟩ := hnext
            refine ⟨entry :: entries, List.cons_ne_nil _ _, ?_, ?_⟩
            · rw [hparsed, List.append_assoc]
              rfl
            · rw [List.map_cons, printEntries_cons _ (by rwa [ne_eq, List.map_eq_nil_iff]),
                ← hfirst, ← hlater]
              exact hsplit
        · rw [dif_neg hroom] at h
          cases h
    · rintro ⟨entries, hne, hparsed, rfl⟩
      cases entries with
      | nil => exact absurd rfl hne
      | cons entry entries =>
        have hroom : list.entries.length < Cut.maxEntries := by
          have := parsed.bounded
          rw [hparsed, List.length_append, List.length_cons] at this
          omega
        have hentry := (parseEntry_iff _ entry).mpr rfl
        rw [List.map_cons, splitFirst_printEntries]
        dsimp only
        rw [hentry]
        dsimp only
        unfold Cut.CutList.push
        rw [dif_pos hroom]
        dsimp only
        by_cases hlast : entries = []
        · subst hlast
          rw [List.map_nil, if_pos rfl]
          obtain ⟨parsed, hbounded⟩ := parsed
          cases hparsed
          rfl
        · rw [if_neg (by rwa [List.map_eq_nil_iff])]
          dsimp only
          refine (ih _ _ (by rw [List.length_append, List.length_singleton]; omega)).mpr
            ⟨entries, hlast, ?_, rfl⟩
          rw [hparsed, List.append_assoc]
          rfl

theorem parseEntries_iff (text : List Char) (list : Cut.CutList) :
    Cut.parseEntries text = .ok list ↔
      list.entries ≠ [] ∧ text = printEntries (list.entries.map ofBoard) := by
  unfold Cut.parseEntries
  rw [parseEntriesFrom_iff _ _ _ _ rfl]
  constructor
  · rintro ⟨entries, hne, hparsed, rfl⟩
    rw [hparsed]
    exact ⟨hne, rfl⟩
  · rintro ⟨hne, rfl⟩
    exact ⟨list.entries, hne, rfl, rfl⟩

/-! ## Commands -/

/-- `CUT` for no entries, else `CUT:` and the entries. -/
def printCommand (entries : List CutEntry) : List Char :=
  if entries = [] then "CUT".toList else "CUT:".toList ++ printEntries entries

theorem parseCommand_iff (text : List Char) (list : Cut.CutList) :
    Cut.parseCommand text = .ok list ↔ text = printCommand (list.entries.map ofBoard) := by
  unfold Cut.parseCommand printCommand
  by_cases hbare : text = "CUT".toList
  · rw [if_pos hbare, hbare]
    by_cases hnil : list.entries = []
    · obtain ⟨entries, hbounded⟩ := list
      cases hnil
      exact ⟨fun _ => rfl, fun _ => rfl⟩
    · rw [if_neg (by rwa [List.map_eq_nil_iff])]
      constructor
      · rintro ⟨⟩
        exact absurd rfl hnil
      · intro h
        have := congrArg List.length h
        simp at this
  · rw [if_neg hbare]
    by_cases hstart : "CUT:".toList.isPrefixOf text = true
    · obtain ⟨rest, rfl⟩ := List.isPrefixOf_iff_prefix.mp hstart
      rw [if_neg (not_not.mpr hstart), List.drop_left, parseEntries_iff]
      constructor
      · rintro ⟨hne, rfl⟩
        rw [if_neg (by rwa [List.map_eq_nil_iff])]
      · intro h
        split at h
        · exact absurd h hbare
        · rename_i hne
          rw [List.map_eq_nil_iff] at hne
          exact ⟨hne, List.append_cancel_left h⟩
    · rw [if_pos hstart]
      constructor
      · rintro ⟨⟩
      · intro h
        split at h
        · exact absurd h hbare
        · refine absurd ?_ hstart
          rw [h]
          exact List.isPrefixOf_iff_prefix.mpr (List.prefix_append _ _)

theorem parseCommand_agrees (text : List Char) :
    match Cut.parseCommand text with
    | .ok list => parseCommand text = .ok (list.entries.map ofBoard)
    | .error _ => ∃ error, parseCommand text = .error error := by
  unfold Cut.parseCommand parseCommand
  by_cases hbare : text = "CUT".toList
  · rw [if_pos hbare, if_pos hbare]
    rfl
  · rw [if_neg hbare, if_neg hbare]
    by_cases hstart : "CUT:".toList.isPrefixOf text = true
    · rw [if_neg (not_not.mpr hstart), if_neg (not_not.mpr hstart)]
      exact parseEntries_agrees _
    · rw [if_pos hstart, if_pos hstart]
      exact ⟨_, rfl⟩

/-- **The grammar of CUT commands.** Text and list determine each other, no number of 32 bits
overflows on its way, and the host reads every text as the board does. -/
theorem cut_grammar (text : List Char) :
    (∀ list, Cut.parseEntries text = .ok list ↔
      list.entries ≠ [] ∧ text = printEntries (list.entries.map ofBoard)) ∧
    (∀ list, Cut.parseCommand text = .ok list ↔
      text = printCommand (list.entries.map ofBoard)) ∧
    (∀ value, Cut.parseUInt32 text = .ok value →
      value.toNat = decimal text ∧ ∀ n, decimal (text.take n) ≤ uint32Max) ∧
    (match Cut.parseEntries text with
      | .ok list => parseEntries text = .ok (list.entries.map ofBoard)
      | .error _ => ∃ error, parseEntries text = .error error) ∧
    match Cut.parseCommand text with
      | .ok list => parseCommand text = .ok (list.entries.map ofBoard)
      | .error _ => ∃ error, parseCommand text = .error error := by
  refine ⟨parseEntries_iff text, parseCommand_iff text, fun value h => ⟨?_, decimal_take_le h⟩,
    parseEntries_agrees text, parseCommand_agrees text⟩
  rw [(parseUInt32_iff text value).mp h, decimal_toDigits]

end WaveformGenerator.Host
