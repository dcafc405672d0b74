import Mathlib.Data.Rat.Lemmas
import Mathlib.Tactic.FieldSimp
import Mathlib.Tactic.Linarith
import Mathlib.Tactic.NormNum
import Mathlib.Tactic.Ring
import WaveformGenerator.Host.CutGrammar
import WaveformGenerator.Host.PlaylistAgreement
import WaveformGenerator.Host.PlaylistItems

/-!
# The words of JSON numbers

What a line's check reads where a JSON number was written is that number.
-/

namespace WaveformGenerator.Host

open Text

/-! ## Plain text -/

/-- Text without a separator. -/
def Plain (text : List Char) : Prop := ∀ c ∈ text, isSeparator c = false

instance (text : List Char) : Decidable (Plain text) :=
  inferInstanceAs (Decidable (∀ c ∈ text, isSeparator c = false))

theorem Plain.nil : Plain [] := nofun

theorem Plain.append {a b : List Char} (ha : Plain a) (hb : Plain b) : Plain (a ++ b) :=
  fun c hc => (List.mem_append.mp hc).elim (ha c) (hb c)

theorem Plain.cons {c : Char} {text : List Char} (hc : isSeparator c = false) (h : Plain text) :
    Plain (c :: text) := fun d hd => by
  obtain rfl | hd := List.mem_cons.mp hd
  · exact hc
  · exact h d hd

theorem plain_digits {text : List Char} (h : text.all Char.isDigit = true) : Plain text := by
  intro c hc
  have hdigit := List.all_eq_true.mp h c hc
  have hspace : ∀ mark : Char, mark.isDigit = false → (c == mark) = false := fun mark hmark =>
    beq_eq_false_iff_ne.mpr fun h => by
      rw [h, hmark] at hdigit
      cases hdigit
  rw [isSeparator, hspace ' ' rfl, hspace '\t' rfl]
  rfl

theorem plain_toDigits (n : Nat) : Plain (Nat.toDigits 10 n) :=
  plain_digits (canonical_toDigits n).2.1

theorem plain_signText (negative : Bool) : Plain (signText negative) := by
  cases negative
  · exact nofun
  · exact Plain.cons rfl nofun

theorem plain_zeros (n : Nat) : Plain (.replicate n '0') := fun c hc => by
  rw [(List.mem_replicate.mp hc).2]
  rfl

theorem Plain.take {text : List Char} (h : Plain text) (n : Nat) : Plain (text.take n) :=
  fun c hc => h c (List.mem_of_mem_take hc)

theorem Plain.drop {text : List Char} (h : Plain text) (n : Nat) : Plain (text.drop n) :=
  fun c hc => h c (List.mem_of_mem_drop hc)

theorem Decimal.plain_text (d : Decimal) : Plain d.text := by
  unfold Decimal.text
  have hdigits := plain_toDigits d.coefficient
  dsimp only
  generalize (if d.exponent ≤ 0 ∧ -6 < d.exponent + (Nat.toDigits 10 d.coefficient).length then
    d.exponent + (Nat.toDigits 10 d.coefficient).length else 1) = dotPlace
  refine ((plain_signText _).append ?_).append ?_
  · split
    · have hzero : Plain "0.".toList := by decide
      exact (hzero.append (plain_zeros _)).append hdigits
    split
    · exact hdigits.append (plain_zeros _)
    · exact (hdigits.take _).append (.cons rfl (hdigits.drop _))
  · split
    · exact .nil
    · refine .cons rfl (.cons ?_ (plain_toDigits _))
      split <;> rfl

theorem plain_digitsText (digits : List (Fin 10)) : Plain (PyFloat.digitsText digits) := by
  have hdigit : ∀ digit : Fin 10, isSeparator digit.val.digitChar = false := by decide
  intro c hc
  obtain ⟨digit, -, rfl⟩ := List.mem_map.mp hc
  exact hdigit digit

theorem PyFloat.plain_text (number : PyFloat) : Plain number.text := by
  have hdigit : ∀ digit : Fin 10, isSeparator digit.val.digitChar = false := by decide
  cases number with
  | fixed negative whole decimals =>
    exact ((plain_signText _).append (plain_toDigits _)).append
      (Plain.cons rfl (plain_digitsText _))
  | scientific negative lead decimals exponent =>
    refine (((plain_signText _).append (Plain.cons (hdigit lead) ?_)).append ?_).append
      (plain_toDigits _)
    · split
      · exact .nil
      · exact .cons rfl (plain_digitsText _)
    · refine Plain.cons rfl (Plain.cons ?_ (plain_zeros _))
      split <;> rfl
  | infinite negative =>
    have hword : Plain "inf".toList := by decide
    exact (plain_signText _).append hword
  | nan => decide

/-- The number that a JSON value is. -/
inductive IsNumber : JsonValue → Rat → Prop
  | int (number : Int) : IsNumber (.int number) number
  | float {number : PyFloat} {decimal : Decimal} (hnumber : number.decimal = some decimal) :
    IsNumber (.float number) decimal.value

theorem IsNumber.plain {value : JsonValue} {number : Rat} (h : IsNumber value number) :
    Plain value.text ∧ value.text ≠ [] := by
  cases h with
  | int number =>
    exact ⟨(plain_signText _).append (plain_toDigits _),
      List.append_ne_nil_of_right_ne_nil _ Nat.toDigits_ne_nil⟩
  | @float number decimal hnumber =>
    refine ⟨number.plain_text, ?_⟩
    cases number with
    | fixed => exact List.append_ne_nil_of_right_ne_nil _ (List.cons_ne_nil _ _)
    | scientific => exact List.append_ne_nil_of_right_ne_nil _ Nat.toDigits_ne_nil
    | infinite | nan => cases hnumber

/-! ## Seconds -/

section
variable {digits milliseconds frames line : Nat} {text : List Char}

theorem SpellsSeconds.plain (h : SpellsSeconds digits text milliseconds) : Plain text := by
  obtain ⟨hwhole, -⟩ | ⟨hwhole, -, -, -, hfraction⟩ := h
  · exact plain_digits hwhole.2.1
  · exact (plain_digits hwhole.2.1).append (.cons rfl (plain_digits hfraction))

theorem SpellsSeconds.ne_nil (h : SpellsSeconds digits text milliseconds) : text ≠ [] := by
  obtain ⟨hwhole, -⟩ | ⟨hwhole, -⟩ := h
  · exact hwhole.1
  · exact List.append_ne_nil_of_left_ne_nil hwhole.1 _

theorem SpellsSeconds.eq_parts (h : SpellsSeconds digits text milliseconds) :
    milliseconds = decimal (splitFirst '.' text).1 * 1000 +
      ((splitFirst '.' text).2.map (decimal <| ljustZeros 3 ·)).getD 0 := by
  obtain ⟨hwhole, -⟩ | ⟨hwhole, -⟩ := h
  · rw [splitFirst_of_not_mem hwhole.dot_not_mem, Option.map_none, Option.getD_none, Nat.add_zero]
  · rw [splitFirst_append hwhole.dot_not_mem, Option.map_some, Option.getD_some]

/-- The decimals of some thousandths. -/
def fractionOf (rest : Nat) : List Char :=
  let digits := Nat.toDigits 10 rest
  (.replicate (3 - digits.length) '0' ++ digits).rdropWhile (· = '0')

theorem decimal_zeros (count : Nat) (text : List Char) :
    decimal (.replicate count '0' ++ text) = decimal text := by
  induction count with
  | zero => rfl
  | succ count ih => exact ih

theorem decimal_fractionOf : ∀ rest < 1000, rest ≠ 0 →
    fractionOf rest ≠ [] ∧ (fractionOf rest).length ≤ 3 ∧
      (fractionOf rest).all Char.isDigit = true ∧
      decimal (ljustZeros 3 (fractionOf rest)) = rest := by
  intro rest hrest hne
  have hshort : (Nat.toDigits 10 rest).length ≤ 3 :=
    (Nat.length_toDigits_le_iff (by decide) (by decide)).mpr hrest
  have hvalue : decimal (.replicate (3 - (Nat.toDigits 10 rest).length) '0' ++
      Nat.toDigits 10 rest) = rest := by
    rw [decimal_zeros, decimal_toDigits]
  have hdigits : ∀ c ∈ List.replicate (3 - (Nat.toDigits 10 rest).length) '0' ++
      Nat.toDigits 10 rest, c.isDigit = true := by
    intro c hc
    rcases List.mem_append.mp hc with hzero | hdigit
    · rw [List.eq_of_mem_replicate hzero]
      rfl
    · exact List.all_eq_true.mp (canonical_toDigits rest).2.1 c hdigit
  have hlength : (List.replicate (3 - (Nat.toDigits 10 rest).length) '0' ++
      Nat.toDigits 10 rest).length = 3 := by
    rw [List.length_append, List.length_replicate]
    omega
  have hwidth : ljustZeros 3 (fractionOf rest) =
      .replicate (3 - (Nat.toDigits 10 rest).length) '0' ++ Nat.toDigits 10 rest := by
    rw [fractionOf, ljustZeros]
    generalize List.replicate _ '0' ++ Nat.toDigits 10 rest = padded at hlength
    have hparts : padded.rdropWhile (· = '0') ++ padded.rtakeWhile (· = '0') = padded :=
      List.rdropWhile_append_rtakeWhile
    have hzeros : padded.rtakeWhile (· = '0') =
        .replicate (3 - (padded.rdropWhile (· = '0')).length) '0' := by
      refine List.eq_replicate_iff.mpr ⟨?_, fun c hc => ?_⟩
      · have hall := congrArg List.length hparts
        rw [List.length_append] at hall
        omega
      · have hzero := List.mem_rtakeWhile_imp hc
        exact of_decide_eq_true hzero
    rw [← hzeros, hparts]
  have hparts := congrArg List.length hwidth
  rw [hlength, ljustZeros, List.length_append] at hparts
  refine ⟨fun hempty => hne ?_, by omega, ?_, by rw [hwidth, hvalue]⟩
  · rw [← hvalue, ← hwidth, hempty]
    rfl
  · refine List.all_eq_true.mpr fun c hc => hdigits c ?_
    rw [← hwidth]
    exact List.mem_append_left _ hc

theorem rdropWhile_decimals {whole decimals : List Char} (h : decimals.rdropWhile (· = '0') ≠ []) :
    (whole ++ '.' :: decimals).rdropWhile (· = '0') =
      whole ++ '.' :: decimals.rdropWhile (· = '0') := by
  have hsplit : whole ++ '.' :: decimals = (whole ++ ['.']) ++ decimals := by
    rw [List.append_assoc, List.singleton_append]
  rw [hsplit, rdropWhile_append, if_neg h, List.append_assoc, List.singleton_append]

/-- Whole milliseconds are spelt as themselves. -/
theorem spells_formatGap (milliseconds : Nat) : ∃ digits,
    SpellsSeconds digits (formatGap (milliseconds * framesPerMillisecond)) milliseconds := by
  refine ⟨(Nat.toDigits 10 (milliseconds / 1000)).length, ?_⟩
  have hmilliseconds : milliseconds * framesPerMillisecond / framesPerMillisecond = milliseconds :=
    Nat.mul_div_cancel _ (by decide)
  have hparts := Nat.div_add_mod' milliseconds 1000
  have hwhole := canonical_toDigits (milliseconds / 1000)
  unfold formatGap
  dsimp only
  rw [hmilliseconds]
  split
  · rename_i hrest
    have hspells := SpellsSeconds.whole hwhole (Nat.le_refl _)
    rw [decimal_toDigits] at hspells
    rw [hrest, Nat.add_zero] at hparts
    rwa [hparts] at hspells
  · rename_i hrest
    obtain ⟨hne, hlength, hdigits, hvalue⟩ :=
      decimal_fractionOf (milliseconds % 1000) (Nat.mod_lt _ (by decide)) hrest
    have hspells := SpellsSeconds.decimals hwhole (Nat.le_refl _) hne hlength hdigits
    rw [decimal_toDigits, hvalue, hparts] at hspells
    rw [rdropWhile_decimals hne]
    exact hspells

/-- What is spelt so is read as those milliseconds alone. -/
theorem eq_of_spells_formatGap
    (h : SpellsSeconds digits (formatGap (frames * framesPerMillisecond)) milliseconds) :
    milliseconds = frames := by
  obtain ⟨_, hspells⟩ := spells_formatGap frames
  exact h.eq_parts.trans hspells.eq_parts.symm

theorem of_parseGap (h : parseGap text line = .ok frames) :
    ∃ milliseconds, SpellsSeconds 4 text milliseconds ∧
      frames = milliseconds * framesPerMillisecond := by
  have hmatch := fullmatch_seconds 3 text
  unfold parseGap gapPattern at h
  split at h
  · cases h
  · rename_i groups hgroups
    rw [hgroups] at hmatch
    dsimp only at h
    split at h
    · cases h
    · cases h
      exact ⟨_, hmatch, rfl⟩

theorem of_parseDuration (h : parseDuration text line = .ok frames) :
    ∃ milliseconds, SpellsSeconds 5 text milliseconds ∧
      frames = milliseconds * framesPerMillisecond := by
  have hmatch := fullmatch_seconds 4 text
  unfold parseDuration durationPattern at h
  dsimp only at h
  split at h
  · cases h
  · rename_i milliseconds hread
    obtain ⟨hread, -⟩ := Option.filter_eq_some_iff.mp hread
    obtain ⟨groups, hgroups, rfl⟩ := Option.map_eq_some_iff.mp hread
    rw [hgroups] at hmatch
    cases h
    exact ⟨_, hmatch, rfl⟩

theorem of_secondsFromNumber {code : String} {value : JsonValue} {seconds : Rat}
    (h : secondsFromNumber code value seconds = .ok text) :
    ∃ milliseconds : Nat, (milliseconds : Rat) = seconds * 1000 ∧
      text = formatGap (milliseconds * framesPerMillisecond) := by
  unfold secondsFromNumber at h
  dsimp only at h
  split at h
  · cases h
  · rename_i hwhole
    rw [not_or, not_not, not_lt] at hwhole
    cases h
    refine ⟨(seconds * 1000).num.toNat, ?_, rfl⟩
    have hnum : ((seconds * 1000).num.toNat : Int) = (seconds * 1000).num :=
      Int.toNat_of_nonneg (Rat.num_nonneg.mpr hwhole.2)
    calc ((seconds * 1000).num.toNat : Rat)
        = ((seconds * 1000).num : Rat) := by exact_mod_cast congrArg (Int.cast (R := Rat)) hnum
      _ = seconds * 1000 := Rat.coe_int_num_of_den_eq_one hwhole.1

/-- The frames that a value's seconds are: a number's own, or what `parse` reads in a string. -/
inductive SaysSeconds (parse : List Char → Nat → Except PlaylistError Nat) (line : Nat) :
    JsonValue → Nat → Prop
  | text {text : List Char} {frames : Nat} (h : parse text line = .ok frames) :
    SaysSeconds parse line (.str text) frames
  | number {value : JsonValue} {seconds : Rat} {frames : Nat} (hvalue : IsNumber value seconds)
    (hframes : (frames : Rat) = seconds * 48000) : SaysSeconds parse line value frames

theorem of_gapFromJson {code : String} {value : JsonValue} (h : gapFromJson code value = .ok text) :
    value = .str text ∨
      ∃ seconds, IsNumber value seconds ∧ secondsFromNumber code value seconds = .ok text := by
  unfold gapFromJson at h
  cases value with
  | null | bool | composite => cases h
  | str =>
    cases h
    exact .inl rfl
  | int number => exact .inr ⟨number, .int number, h⟩
  | float number =>
    dsimp only at h
    cases hdecimal : number.decimal with
    | some decimal =>
      rw [hdecimal] at h
      exact .inr ⟨decimal.value, .float hdecimal, h⟩
    | none =>
      rw [hdecimal] at h
      dsimp only at h
      split at h <;> cases h

/-- A word of seconds is a string's own text, or spelt as seconds are. -/
theorem gapFromJson_word {code : String} {value : JsonValue}
    (h : gapFromJson code value = .ok text) : value = .str text ∨ Plain text ∧ text ≠ [] := by
  obtain hvalue | ⟨seconds, -, htext⟩ := of_gapFromJson h
  · exact .inl hvalue
  · obtain ⟨milliseconds, -, rfl⟩ := of_secondsFromNumber htext
    obtain ⟨_, hspells⟩ := spells_formatGap milliseconds
    exact .inr ⟨hspells.plain, hspells.ne_nil⟩

variable {parse : List Char → Nat → Except PlaylistError Nat} {value : JsonValue}
  (hparse : ∀ text frames, parse text line = .ok frames → ∃ milliseconds,
    SpellsSeconds digits text milliseconds ∧ frames = milliseconds * framesPerMillisecond)
include hparse

/-- What is read in the word of a value's seconds is what the value says. -/
theorem saysSeconds_of_word {code : String} (htext : gapFromJson code value = .ok text)
    (h : parse text line = .ok frames) : SaysSeconds parse line value frames := by
  obtain rfl | ⟨seconds, hvalue, htext⟩ := of_gapFromJson htext
  · exact .text h
  · obtain ⟨milliseconds, hspells, rfl⟩ := hparse _ _ h
    obtain ⟨written, hwritten, rfl⟩ := of_secondsFromNumber htext
    refine .number hvalue ?_
    rw [eq_of_spells_formatGap hspells]
    calc ((written * framesPerMillisecond : Nat) : Rat)
        = seconds * 1000 * 48 := by rw [Nat.cast_mul, hwritten]; rfl
      _ = seconds * 48000 := by ring

theorem SaysSeconds.plain (h : SaysSeconds parse line value frames) :
    Plain value.text ∧ value.text ≠ [] := by
  cases h with
  | text h =>
    obtain ⟨_, hspells, -⟩ := hparse _ _ h
    exact ⟨hspells.plain, hspells.ne_nil⟩
  | number hvalue => exact hvalue.plain

end

/-! ## Decibels -/

section
variable {negative : Bool} {tenths : Nat} {text : List Char}

theorem SpellsTenths.parts (h : SpellsTenths negative text tenths) :
    ∃ body, text = signOf negative ++ body ∧ body.head? ≠ some '-' ∧
      (∀ c ∈ body, c.isDigit = true ∨ c = '.') ∧ tenths = decimal (splitFirst '.' body).1 * 10 +
        ((splitFirst '.' body).2.map decimal).getD 0 ∧
      ∀ fraction, (splitFirst '.' body).2 = some fraction → fraction.length = 1 := by
  have hdigit : ∀ {text : List Char} {c : Char}, text.all Char.isDigit = true →
      c.isDigit = false → c ∉ text := fun htext hc hmem => by
    rw [List.all_eq_true.mp htext _ hmem] at hc
    cases hc
  have hhead : ∀ {whole : List Char} (behind : List Char), Canonical whole →
      (whole ++ behind).head? ≠ some '-' := fun behind hwhole hminus => by
    rw [List.head?_append_of_ne_nil _ hwhole.1] at hminus
    exact hdigit hwhole.2.1 rfl (List.mem_of_mem_head? hminus)
  obtain @⟨whole, hwhole, -⟩ | @⟨whole, c, hwhole, -, hc⟩ := h
  · refine ⟨whole, rfl, ?_, fun c hc => .inl (List.all_eq_true.mp hwhole.2.1 c hc), ?_,
      fun fraction hfraction => ?_⟩
    · have hminus := hhead [] hwhole
      rwa [List.append_nil] at hminus
    · rw [splitFirst_of_not_mem hwhole.dot_not_mem]
      rfl
    · rw [splitFirst_of_not_mem hwhole.dot_not_mem] at hfraction
      cases hfraction
  · refine ⟨whole ++ '.' :: [c], rfl, hhead _ hwhole, fun d hd => ?_, ?_,
      fun fraction hfraction => ?_⟩
    · obtain hd | hd := List.mem_append.mp hd
      · exact .inl (List.all_eq_true.mp hwhole.2.1 d hd)
      · obtain rfl | hd := List.mem_cons.mp hd
        · exact .inr rfl
        · rw [List.mem_singleton.mp hd]
          exact .inl hc
    · rw [splitFirst_append hwhole.dot_not_mem, Option.map_some, Option.getD_some]
    · rw [splitFirst_append hwhole.dot_not_mem] at hfraction
      cases hfraction
      rfl

theorem of_parseAttenuation (h : parseAttenuation text = .ok tenths) :
    ∃ negative, SpellsTenths negative text tenths ∧ (tenths ≠ 0 → negative = true) := by
  unfold parseAttenuation at h
  split at h
  · cases h
  · rename_i groups hgroups
    dsimp only at h
    generalize htenth : (if groupOr groups 3 = [] then ['0'] else groupOr groups 3) = tenth at h
    split at h
    · cases h
    split at h
    · cases h
    · rename_i hsign
      cases h
      have hsigned : ∀ {negative : Bool}, groupOr groups 1 = signOf negative →
          decimal (groupOr groups 2) * 10 + decimal tenth ≠ 0 → negative = true :=
        fun {negative} hgroup htenths => by
          cases negative with
          | true => rfl
          | false => exact absurd ⟨htenths, hgroup⟩ hsign
      obtain ⟨negative, whole, hwhole, hlength, ⟨rfl, rfl⟩ | ⟨c, rfl, rfl, hc⟩⟩ :=
        parses_attenuation.mp (Regex.fullmatch_some hgroups)
      · refine ⟨negative, ?_, hsigned rfl⟩
        rw [← htenth]
        exact .whole hwhole hlength
      · refine ⟨negative, ?_, hsigned rfl⟩
        rw [← htenth]
        exact .tenth hwhole hlength hc

theorem signed_inj {a b : Bool} {x y : List Char} (hx : x.head? ≠ some '-')
    (hy : y.head? ≠ some '-') (h : signOf a ++ x = signOf b ++ y) : a = b ∧ x = y := by
  cases a <;> cases b
  · exact ⟨rfl, h⟩
  · exact absurd (congrArg List.head? h) hx
  · exact absurd (congrArg List.head? h).symm hy
  · exact ⟨rfl, List.tail_eq_of_cons_eq h⟩

theorem decimal_append_digit (text : List Char) (c : Char) :
    decimal (text ++ [c]) = decimal text * 10 + decimal [c] := by
  unfold decimal
  rw [List.foldl_append]
  simp

/-- A `Decimal` that is a level's text has at most one digit behind its point. -/
theorem Decimal.of_spells {d : Decimal} (h : SpellsTenths negative d.text tenths) :
    d.negative = negative ∧ (d.exponent = 0 ∧ tenths = d.coefficient * 10 ∨
      d.exponent = -1 ∧ tenths = d.coefficient) := by
  obtain ⟨body, htext, hbody, hchars, rfl, hfraction⟩ := h.parts
  have hcanonical := canonical_toDigits d.coefficient
  have hdecimal := decimal_toDigits d.coefficient
  have hdot : '.' ∉ Nat.toDigits 10 d.coefficient := not_mem_toDigits rfl
  have hminus : '-' ∉ Nat.toDigits 10 d.coefficient := not_mem_toDigits rfl
  unfold Decimal.text at htext
  dsimp only at htext
  generalize Nat.toDigits 10 d.coefficient = digits at htext hcanonical hdecimal hdot hminus
  generalize hplace : (if d.exponent ≤ 0 ∧ -6 < d.exponent + digits.length then
    d.exponent + digits.length else 1) = dotPlace at htext
  have hpos : 0 < digits.length := List.length_pos_of_ne_nil hcanonical.1
  generalize hnumber : (if dotPlace ≤ 0 then
      "0.".toList ++ .replicate (-dotPlace).toNat '0' ++ digits
    else if digits.length ≤ dotPlace then
      digits ++ .replicate (dotPlace - digits.length).toNat '0'
    else digits.take dotPlace.toNat ++ '.' :: digits.drop dotPlace.toNat) = number at htext
  have hhead : number.head? ≠ some '-' ∧ number ≠ [] := by
    rw [← hnumber]
    split
    · exact ⟨by simp, by simp⟩
    split
    · rw [List.head?_append_of_ne_nil _ hcanonical.1]
      exact ⟨fun h => hminus (List.mem_of_mem_head? h), by simp [hcanonical.1]⟩
    · have htake : digits.take dotPlace.toNat ≠ [] := by
        rw [ne_eq, List.take_eq_nil_iff]
        exact not_or.mpr ⟨by omega, hcanonical.1⟩
      rw [List.head?_append_of_ne_nil _ htake]
      exact ⟨fun h => hminus (List.mem_of_mem_take (List.mem_of_mem_head? h)), by simp⟩
  rw [List.append_assoc] at htext
  obtain ⟨hsign, hnumberBody⟩ := signed_inj
    (by rw [List.head?_append_of_ne_nil _ hhead.2]; exact hhead.1) hbody htext
  refine ⟨hsign, ?_⟩
  -- The letter of a power is none of a level's.
  have hscale : d.exponent + digits.length - dotPlace = 0 := by
    by_contra hscale
    rw [if_neg hscale] at hnumberBody
    have hletter := hchars 'E' (hnumberBody ▸ List.mem_append_right _ List.mem_cons_self)
    exact absurd hletter (by decide)
  rw [if_pos hscale, List.append_nil] at hnumberBody
  have hexponent : d.exponent ≤ 0 := by
    split at hplace
    · rename_i h
      exact h.1
    · omega
  subst hnumberBody
  split at hnumber
  · -- All digits are behind the point.
    have hparts : splitFirst '.' number =
        (['0'], some (.replicate (-dotPlace).toNat '0' ++ digits)) := by
      have hzero : '.' ∉ ['0'] := by decide
      rw [← hnumber, List.append_assoc]
      exact splitFirst_append hzero _
    rw [hparts] at hfraction ⊢
    have hone := hfraction _ rfl
    rw [List.length_append, List.length_replicate] at hone
    have hplaces : (-dotPlace).toNat = 0 := by omega
    refine .inr ⟨by omega, ?_⟩
    rw [Option.map_some, Option.getD_some, hplaces]
    exact (Nat.zero_add _).trans hdecimal
  split at hnumber
  · -- No digit is behind it.
    have hplaces : (dotPlace - digits.length).toNat = 0 := by omega
    rw [hplaces, List.replicate_zero, List.append_nil] at hnumber
    rw [← hnumber, splitFirst_of_not_mem hdot]
    refine .inl ⟨by omega, ?_⟩
    rw [Option.map_none, Option.getD_none, Nat.add_zero, hdecimal]
  · -- One digit is.
    have hparts : splitFirst '.' number =
        (digits.take dotPlace.toNat, some (digits.drop dotPlace.toNat)) := by
      rw [← hnumber]
      exact splitFirst_append (fun h => hdot (List.mem_of_mem_take h)) _
    rw [hparts] at hfraction ⊢
    have hone := hfraction _ rfl
    obtain ⟨last, hlast⟩ := List.length_eq_one_iff.mp hone
    rw [List.length_drop] at hone
    refine .inr ⟨by omega, ?_⟩
    rw [Option.map_some, Option.getD_some, ← hdecimal]
    conv_rhs => rw [← List.take_append_drop dotPlace.toNat digits]
    rw [hlast, decimal_append_digit]

/-- The tenths of a decibel that a value's level is below full level. -/
inductive SaysTenths : JsonValue → Nat → Prop
  | text {text : List Char} {tenths : Nat} (h : parseAttenuation text = .ok tenths) :
    SaysTenths (.str text) tenths
  | number {value : JsonValue} {level : Rat} {tenths : Nat} (hvalue : IsNumber value level)
    (htenths : (tenths : Rat) = -10 * level) : SaysTenths value tenths

theorem tenths_of_text {d : Decimal} (h : parseAttenuation d.text = .ok tenths) :
    (tenths : Rat) = -10 * d.value := by
  obtain ⟨negative, hspells, hnegative⟩ := of_parseAttenuation h
  obtain ⟨hsign, hvalue⟩ := Decimal.of_spells hspells
  have hmagnitude : (tenths : Rat) = 10 * (d.coefficient * 10 ^ d.exponent) := by
    obtain ⟨hexponent, rfl⟩ | ⟨hexponent, rfl⟩ := hvalue
    · rw [hexponent, Nat.cast_mul]
      norm_num [mul_comm]
    · rw [hexponent]
      norm_num
      ring
  unfold Decimal.value
  rw [hsign]
  by_cases hzero : tenths = 0
  · rw [hzero, Nat.cast_zero] at hmagnitude ⊢
    have hcoefficient : (d.coefficient : Rat) * 10 ^ d.exponent = 0 := by linarith
    rw [mul_assoc, hcoefficient, mul_zero, mul_zero]
  · rw [hnegative hzero, hmagnitude]
    simp only [if_true]
    ring

/-- A word that is no number is no level. -/
theorem parseAttenuation_word {word : List Char} {c : Char} (hword : (c :: word).head? ≠ some '-')
    (hc : ¬(c.isDigit = true ∨ c = '.')) :
    parseAttenuation (signText negative ++ c :: word) ≠ .ok tenths := by
  intro h
  obtain ⟨_, hspells, -⟩ := of_parseAttenuation h
  obtain ⟨body, htext, hbody, hchars, -⟩ := hspells.parts
  obtain ⟨-, rfl⟩ := signed_inj hword hbody htext
  exact hc (hchars c List.mem_cons_self)

theorem Decimal.value_int (level : Int) :
    Decimal.value ⟨level < 0, level.natAbs, 0⟩ = level := by
  unfold Decimal.value
  rw [zpow_zero, mul_one]
  by_cases hlevel : level < 0
  · rw [decide_eq_true hlevel, if_pos rfl, Nat.cast_natAbs, abs_of_neg hlevel]
    push_cast
    ring
  · rw [decide_eq_false hlevel, if_neg nofun, Nat.cast_natAbs, abs_of_nonneg (not_lt.mp hlevel),
      one_mul]

theorem saysTenths_of_word {value : JsonValue} (htext : attenuationFromJson value = .ok text)
    (h : parseAttenuation text = .ok tenths) : SaysTenths value tenths := by
  cases value with
  | null | bool | composite => cases htext
  | str =>
    cases htext
    exact .text h
  | int level =>
    cases htext
    have hlevel := tenths_of_text h
    rw [Decimal.value_int] at hlevel
    exact .number (.int level) hlevel
  | float number =>
    cases number with
    | fixed | scientific =>
      cases htext
      exact .number (.float rfl) (tenths_of_text h)
    | infinite negative =>
      cases htext
      exact absurd h (parseAttenuation_word (by decide) (by decide))
    | nan =>
      cases htext
      exact absurd h (@parseAttenuation_word false _ _ _ (by decide) (by decide))

theorem SpellsTenths.plain (h : SpellsTenths negative text tenths) : Plain text := by
  obtain ⟨body, rfl, -, hchars, -⟩ := h.parts
  refine (plain_signText negative).append fun c hc => ?_
  obtain hdigit | rfl := hchars c hc
  · have hone : [c].all Char.isDigit = true := by rw [List.all_cons, hdigit, List.all_nil]; rfl
    exact plain_digits hone c List.mem_cons_self
  · rfl

theorem plain_attenuationFromJson {value : JsonValue} (hvalue : Plain value.text)
    (h : attenuationFromJson value = .ok text) : Plain text := by
  cases value with
  | null | bool | composite => cases h
  | str =>
    cases h
    exact hvalue
  | int =>
    cases h
    exact Decimal.plain_text _
  | float number =>
    cases number with
    | fixed | scientific =>
      cases h
      exact Decimal.plain_text _
    | infinite negative =>
      cases h
      have hword : Plain "Infinity".toList := by decide
      exact (plain_signText negative).append hword
    | nan =>
      cases h
      decide

theorem SaysTenths.plain {value : JsonValue} (h : SaysTenths value tenths) : Plain value.text := by
  cases h with
  | text h =>
    obtain ⟨_, hspells, -⟩ := of_parseAttenuation h
    exact hspells.plain
  | number hvalue => exact hvalue.plain.1

end

end WaveformGenerator.Host
