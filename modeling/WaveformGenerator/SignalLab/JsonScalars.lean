import Mathlib.Data.List.Basic
import WaveformGenerator.SignalLab.JsonGrammar

/-!
# Blanks, keys and scalars: the reader against the grammar

For each reader two results. What the grammar spells is read, whatever stands behind it (for a
number, when that does not go on with the number); and what is read is spelled by the grammar.
-/

namespace WaveformGenerator.SignalLab.Json

variable {rest more : Text}

/-! ## Blanks -/

theorem skipWhitespace_cons {c : UInt8} (h : isBlank c = false) :
    skipWhitespace (c :: rest) = c :: rest := by
  simp [skipWhitespace, h]

theorem skipWhitespace_blanks {gap : Text} (h : Blanks gap) :
    skipWhitespace (gap ++ rest) = skipWhitespace rest :=
  List.dropWhile_append_of_pos h

/-- What is left is the text behind some blanks. -/
theorem exists_blanks (rest : Text) : ∃ gap, Blanks gap ∧ rest = gap ++ skipWhitespace rest :=
  ⟨rest.takeWhile isBlank, fun c hc => List.all_eq_true.mp (List.all_takeWhile (l := rest)) c hc,
    List.takeWhile_append_dropWhile.symm⟩

theorem isBlank_closer (object : Bool) : isBlank (closer object) = false := by
  cases object <;> decide

theorem isBlank_opener (object : Bool) : isBlank (opener object) = false := by
  cases object <;> decide

theorem isBlank_of_isDigit {c : UInt8} (h : isDigit c = true) : isBlank c = false := by
  by_contra hblank
  have hmem : c ∈ blanks := by simpa [isBlank] using hblank
  simp only [blanks, List.mem_cons, List.not_mem_nil, or_false] at hmem
  rcases hmem with rfl | rfl | rfl | rfl <;> exact absurd h (by decide)

/-! ## Strings and keys -/

theorem closingQuote_quote : closingQuote (quote :: rest) = some 0 := by
  rw [closingQuote.eq_def]
  rfl

theorem closingQuote_plain {c : UInt8} (hquote : c ≠ quote) (hbackslash : c ≠ backslash) :
    closingQuote (c :: rest) = (closingQuote rest).map (· + 1) := by
  rw [closingQuote.eq_def]
  simp [hquote, hbackslash]

theorem closingQuote_escape (c : UInt8) :
    closingQuote (backslash :: c :: rest) = (closingQuote rest).map (· + 2) := by
  rw [closingQuote.eq_def]
  rfl

theorem closingQuote_characters {characters : Text} (h : Characters characters) :
    closingQuote (characters ++ quote :: rest) = some characters.length := by
  induction h with
  | nil => exact closingQuote_quote
  | plain hquote hbackslash _ ih =>
    rw [List.cons_append, closingQuote_plain hquote hbackslash, ih]
    rfl
  | escape c _ ih =>
    rw [List.cons_append, List.cons_append, closingQuote_escape, ih]
    rfl

theorem exists_characters : ∀ {rest : Text} {length : Nat}, closingQuote rest = some length →
    ∃ characters more, Characters characters ∧ characters.length = length ∧
      rest = characters ++ quote :: more
  | [], _, h => nomatch h
  | c :: rest, length, h => by
    rw [closingQuote.eq_def] at h
    dsimp only at h
    split at h
    · cases h
      subst c
      exact ⟨[], rest, .nil, rfl, rfl⟩
    · rename_i hquote
      split at h
      · subst c
        match rest, h with
        | c :: rest, h =>
          obtain ⟨n, hn, rfl⟩ := Option.map_eq_some_iff.mp h
          obtain ⟨characters, more, hcharacters, rfl, rfl⟩ := exists_characters hn
          exact ⟨backslash :: c :: characters, more, .escape c hcharacters, rfl, rfl⟩
      · rename_i hbackslash
        obtain ⟨n, hn, rfl⟩ := Option.map_eq_some_iff.mp h
        obtain ⟨characters, more, hcharacters, rfl, rfl⟩ := exists_characters hn
        exact ⟨c :: characters, more, .plain hquote hbackslash hcharacters, rfl, rfl⟩

theorem parseString_characters {characters : Text} (h : Characters characters) :
    parseString (quote :: (characters ++ quote :: more)) = .ok (characters, more) := by
  simp [parseString, closingQuote_characters h]

theorem exists_of_parseString {characters : Text} (h : parseString rest = .ok (characters, more)) :
    Characters characters ∧ rest = quote :: (characters ++ quote :: more) := by
  rw [parseString] at h
  split at h
  · cases h
  · rename_i hhead
    obtain _ | ⟨c, rest⟩ := rest
    · simp at hhead
    · obtain rfl : c = quote := by simpa using hhead
      dsimp only [List.drop_succ_cons, List.drop_zero] at h
      split at h
      · cases h
      · rename_i length hlength
        obtain ⟨found, behind, hfound, rfl, rfl⟩ := exists_characters hlength
        obtain ⟨rfl, rfl⟩ : found = characters ∧ behind = more := by simpa using h
        exact ⟨hfound, rfl⟩

theorem readKeyText_keyText {text key : Text} (h : KeyText true text key) :
    readKeyText (text ++ more) = .ok (key, more) := by
  obtain _ | ⟨hbefore, hkey, hbehind⟩ := h
  simp only [readKeyText, List.append_assoc, List.cons_append, List.nil_append,
    skipWhitespace_blanks hbefore, skipWhitespace_cons (show isBlank quote = false by decide),
    parseString_characters hkey, skipWhitespace_blanks hbehind, bind, Except.bind,
    skipWhitespace_cons (show isBlank colon = false by decide)]
  rfl

theorem KeyText.length_le {object : Bool} {text key : Text} (h : KeyText object text key) :
    key.length ≤ text.length := by
  cases h with
  | array => exact Nat.le_refl _
  | object => simp only [List.length_append, List.length_cons]; omega

theorem exists_of_readKeyText {key : Text} (h : readKeyText rest = .ok (key, more)) :
    ∃ text, KeyText true text key ∧ rest = text ++ more := by
  obtain ⟨before, hbefore, hrest⟩ := exists_blanks rest
  rw [readKeyText] at h
  cases hstring : parseString (skipWhitespace rest) with
  | error status => simp [hstring, bind, Except.bind] at h
  | ok read =>
    obtain ⟨found, behind⟩ := read
    obtain ⟨hfound, hskipped⟩ := exists_of_parseString hstring
    obtain ⟨gap, hgap, hbehind⟩ := exists_blanks behind
    simp only [hstring, bind, Except.bind] at h
    split at h
    · cases h
    · rename_i hhead
      cases hcons : skipWhitespace behind with
      | nil => simp [hcons] at hhead
      | cons c tail =>
        rw [hcons] at h hhead hbehind
        obtain rfl : c = colon := by simpa using hhead
        cases h
        refine ⟨_, .object hbefore hfound hgap, ?_⟩
        rw [hrest, hskipped, hbehind]
        simp

/-! ## Digits -/

theorem digitFirst_append {digits : Text} (h : Digits digits) (more : Text) :
    digitFirst (digits ++ more) = true := by
  obtain ⟨hall, hne⟩ := h
  obtain _ | ⟨c, tail⟩ := digits
  · exact absurd rfl hne
  · simpa [digitFirst] using hall c

/-- Digits are read to the first character that is none. -/
theorem readDigits_eq (fraction : Bool) (rest : Text) (decimal : Decimal) :
    readDigits fraction decimal rest =
      ((rest.takeWhile isDigit).foldl (Decimal.takeDigit fraction) decimal,
        rest.dropWhile isDigit) := by
  induction rest generalizing decimal with
  | nil => rfl
  | cons digit rest ih =>
    rw [readDigits]
    split
    · rename_i h
      rw [ih, List.takeWhile_cons_of_pos h, List.dropWhile_cons_of_pos h, List.foldl_cons]
    · rename_i h
      rw [List.takeWhile_cons_of_neg h, List.dropWhile_cons_of_neg h, List.foldl_nil]

theorem readExponentDigits_eq (rest : Text) (exponent : Int) :
    readExponentDigits exponent rest =
      ((rest.takeWhile isDigit).foldl takeExponentDigit exponent, rest.dropWhile isDigit) := by
  induction rest generalizing exponent with
  | nil => rfl
  | cons digit rest ih =>
    rw [readExponentDigits]
    split
    · rename_i h
      rw [ih, List.takeWhile_cons_of_pos h, List.dropWhile_cons_of_pos h, List.foldl_cons]
    · rename_i h
      rw [List.takeWhile_cons_of_neg h, List.dropWhile_cons_of_neg h, List.foldl_nil]

theorem dropWhile_isDigit (h : digitFirst more = false) : more.dropWhile isDigit = more := by
  obtain _ | ⟨c, tail⟩ := more
  · rfl
  · exact List.dropWhile_cons_of_neg (by simpa [digitFirst] using h)

theorem takeWhile_isDigit (h : digitFirst more = false) : more.takeWhile isDigit = [] := by
  obtain _ | ⟨c, tail⟩ := more
  · rfl
  · exact List.takeWhile_cons_of_neg (by simpa [digitFirst] using h)

theorem takeWhile_digits {digits : Text} (hdigits : Digits digits) (hmore : digitFirst more = false) :
    (digits ++ more).takeWhile isDigit = digits := by
  rw [List.takeWhile_append_of_pos hdigits.all, takeWhile_isDigit hmore, List.append_nil]

theorem dropWhile_digits {digits : Text} (hdigits : Digits digits) (hmore : digitFirst more = false) :
    (digits ++ more).dropWhile isDigit = more := by
  rw [List.dropWhile_append_of_pos hdigits.all, dropWhile_isDigit hmore]

theorem exists_digits (h : digitFirst rest = true) :
    Digits (rest.takeWhile isDigit) ∧ rest = rest.takeWhile isDigit ++ rest.dropWhile isDigit := by
  refine ⟨⟨fun c hc => List.all_eq_true.mp (List.all_takeWhile (l := rest)) c hc, ?_⟩,
    List.takeWhile_append_dropWhile.symm⟩
  obtain _ | ⟨c, tail⟩ := rest
  · simp [digitFirst] at h
  · rw [List.takeWhile_cons_of_pos (by simpa [digitFirst] using h)]
    exact List.cons_ne_nil _ _

/-! ## Numbers -/

theorem readExponent_spelled {letter : UInt8} {sign digits : Text} {negative : Bool}
    (hsign : SignText sign negative) (hdigits : Digits digits) (hmore : digitFirst more = false) :
    readExponent (letter :: (sign ++ digits) ++ more) =
      .ok (exponentOf negative digits, more) := by
  have hfirst := digitFirst_append hdigits more
  have hread := readExponentDigits_eq (digits ++ more) 0
  rw [takeWhile_digits hdigits hmore, dropWhile_digits hdigits hmore] at hread
  cases hsign with
  | none =>
    obtain ⟨c, tail, hcons⟩ := List.exists_cons_of_ne_nil hdigits.ne_nil
    have hc : isDigit c = true := hdigits.all c (by simp [hcons])
    have hplus : c ≠ plus := fun h => absurd (h ▸ hc) (by decide)
    have hminus : c ≠ minus := fun h => absurd (h ▸ hc) (by decide)
    have hhead : (digits ++ more).head? = some c := by simp [hcons]
    simp [readExponent, hhead, hplus, hminus, hfirst, hread, exponentOf]
  | plus =>
    simp [readExponent, hfirst, hread, exponentOf, show (plus == minus) = false by decide]
  | minus => simp [readExponent, hfirst, hread, exponentOf]

theorem readFraction_spelled {fraction digits : Text} (h : FractionText fraction digits)
    (hdigit : digitFirst more = false) (hpoint : more.head? ≠ some point) (decimal : Decimal) :
    readFraction decimal (fraction ++ more) =
      .ok (digits.foldl (Decimal.takeDigit true) decimal, more) := by
  cases h with
  | absent => simp [readFraction, hpoint]
  | present hdigits =>
    simp [readFraction, digitFirst_append hdigits, readDigits_eq, takeWhile_digits hdigits hdigit,
      dropWhile_digits hdigits hdigit]

theorem readPower_spelled {power : Text} {exponent : Int} (h : PowerText power exponent)
    (hdigit : digitFirst more = false) (hletter : more.head?.any isExponentLetter = false)
    (decimal : Decimal) :
    readPower decimal (power ++ more) =
      .ok ({ decimal with exponent10 := decimal.exponent10 + exponent }, more) := by
  cases h with
  | absent => simp [readPower, hletter]
  | present hl hsign hdigits =>
    rw [readPower, if_pos (by simpa using hl), readExponent_spelled hsign hdigits hdigit]
    rfl

/-- What goes on with a number: a digit, a point or the letter of an exponent. -/
def goesOn (c : UInt8) : Bool := isDigit c || c == point || isExponentLetter c

/-- What stands behind a number does not go on with it. -/
def Stops (more : Text) : Prop := more.head?.any goesOn = false

theorem Stops.digitFirst (h : Stops more) : digitFirst more = false := by
  obtain _ | ⟨c, tail⟩ := more
  · rfl
  · simp_all [Stops, goesOn, Json.digitFirst]

theorem Stops.head_ne_point (h : Stops more) : more.head? ≠ some point := by
  obtain _ | ⟨c, tail⟩ := more
  · simp
  · simp_all [Stops, goesOn]

theorem Stops.not_letter (h : Stops more) : more.head?.any isExponentLetter = false := by
  obtain _ | ⟨c, tail⟩ := more
  · rfl
  · simp_all [Stops, goesOn]

/-- An exponent starts with its letter, which is no digit and no point. -/
theorem PowerText.stops {power : Text} {exponent : Int} (h : PowerText power exponent)
    (hmore : Stops more) :
    Json.digitFirst (power ++ more) = false ∧ (power ++ more).head? ≠ some point := by
  cases h with
  | absent => exact ⟨hmore.digitFirst, hmore.head_ne_point⟩
  | @present letter _ _ _ hl =>
    obtain rfl | rfl : letter = 0x65 ∨ letter = 0x45 := by simpa [isExponentLetter] using hl
    all_goals exact ⟨rfl, by simp [point]⟩

theorem FractionText.digitFirst {fraction digits : Text} (h : FractionText fraction digits)
    (hmore : Json.digitFirst more = false) : Json.digitFirst (fraction ++ more) = false := by
  cases h with
  | absent => exact hmore
  | present => rfl

variable {R : Type} [Det R]

theorem parseNumber_numberText {text : Text} {value : R} (h : NumberText text value)
    (hmore : Stops more) : parseNumber (text ++ more) = .ok (value, more) := by
  obtain ⟨negative, hwhole, hfraction, hpower, hfinite⟩ := h
  rename_i whole fraction digits power exponent
  obtain ⟨hnodigit, hnopoint⟩ := hpower.stops hmore
  have hnext := hfraction.digitFirst hnodigit
  have hread := readDigits_eq false (whole ++ (fraction ++ (power ++ more))) {}
  rw [takeWhile_digits hwhole hnext, dropWhile_digits hwhole hnext] at hread
  have hdigits := digitFirst_append hwhole (fraction ++ (power ++ more))
  have hfractionRead := readFraction_spelled hfraction hnodigit hnopoint
  have hpowerRead := readPower_spelled hpower hmore.digitFirst hmore.not_letter
  rw [List.append_assoc, List.append_assoc, List.append_assoc]
  rw [decimalOf] at hfinite ⊢
  generalize whole ++ (fraction ++ (power ++ more)) = body at hread hdigits
  have hminus : body.head? ≠ some minus := by
    intro hhead
    simp only [digitFirst, hhead] at hdigits
    exact absurd hdigits (by decide)
  cases negative with
  | false =>
    simp [parseNumber, hminus, hdigits, hread, hfractionRead, hpowerRead, hfinite, signed, bind,
      Except.bind]
  | true =>
    simp [parseNumber, hdigits, hread, hfractionRead, hpowerRead, hfinite, signed, bind,
      Except.bind]

/-! ### What is read is spelled -/

theorem exists_of_readExponent {exponent : Int} {letter : UInt8}
    (h : readExponent (letter :: rest) = .ok (exponent, more)) :
    ∃ sign digits negative, SignText sign negative ∧ Digits digits ∧
      exponent = exponentOf negative digits ∧ rest = sign ++ (digits ++ more) := by
  simp only [readExponent, List.drop_succ_cons, List.drop_zero, readExponentDigits_eq] at h
  obtain ⟨sign, negative, body, hsign, hrest, hnegative, hbody⟩ : ∃ sign negative body,
      SignText sign negative ∧ rest = sign ++ body ∧ (rest.head? == some minus) = negative ∧
      (if rest.head? == some plus || rest.head? == some minus then rest.drop 1 else rest) = body := by
    by_cases hplus : rest.head? = some plus
    · obtain ⟨tail, rfl⟩ := List.head?_eq_some_iff.mp hplus
      exact ⟨[plus], false, tail, .plus, rfl, rfl, rfl⟩
    · by_cases hminus : rest.head? = some minus
      · obtain ⟨tail, rfl⟩ := List.head?_eq_some_iff.mp hminus
        exact ⟨[minus], true, tail, .minus, rfl, rfl, rfl⟩
      · exact ⟨[], false, rest, .none, rfl, by simp [hminus], by simp [hplus, hminus]⟩
  rw [hbody, hnegative] at h
  split at h
  · cases h
  · rename_i hfirst
    obtain ⟨hdigits, hsplit⟩ := exists_digits (by simpa using hfirst)
    cases h
    exact ⟨sign, _, negative, hsign, hdigits, rfl, by rw [hrest, ← hsplit]⟩

theorem exists_of_readFraction {decimal found : Decimal}
    (h : readFraction decimal rest = .ok (found, more)) :
    ∃ fraction digits, FractionText fraction digits ∧ rest = fraction ++ more ∧
      found = digits.foldl (Decimal.takeDigit true) decimal := by
  rw [readFraction] at h
  split at h
  · rename_i hpoint
    obtain ⟨tail, rfl⟩ := List.head?_eq_some_iff.mp (eq_of_beq hpoint)
    dsimp only [List.drop_succ_cons, List.drop_zero] at h
    split at h
    · cases h
    · rename_i hfirst
      obtain ⟨hdigits, hsplit⟩ := exists_digits (by simpa using hfirst)
      rw [readDigits_eq] at h
      cases h
      exact ⟨_, _, .present hdigits, congrArg (point :: ·) hsplit, rfl⟩
  · cases h
    exact ⟨[], [], .absent, rfl, rfl⟩

theorem exists_of_readPower {decimal found : Decimal}
    (h : readPower decimal rest = .ok (found, more)) :
    ∃ power exponent, PowerText power exponent ∧ rest = power ++ more ∧
      found = { decimal with exponent10 := decimal.exponent10 + exponent } := by
  rw [readPower] at h
  split at h
  · rename_i hletter
    obtain _ | ⟨letter, tail⟩ := rest
    · simp at hletter
    · cases hread : readExponent (letter :: tail) with
      | error status => simp [hread, bind, Except.bind] at h
      | ok read =>
        obtain ⟨exponent, behind⟩ := read
        simp only [hread, bind, Except.bind] at h
        cases h
        obtain ⟨sign, digits, negative, hsign, hdigits, rfl, rfl⟩ := exists_of_readExponent hread
        exact ⟨_, _, .present (by simpa using hletter) hsign hdigits, by simp, rfl⟩
  · cases h
    exact ⟨[], 0, .absent, rfl, by simp⟩

theorem exists_of_parseNumber {value : R} (h : parseNumber rest = .ok (value, more)) :
    ∃ text, NumberText text value ∧ rest = text ++ more := by
  rw [parseNumber] at h
  obtain ⟨negative, body, hnegative, hbody, hrest⟩ : ∃ negative body,
      (rest.head? == some minus) = negative ∧ (if negative then rest.drop 1 else rest) = body ∧
      rest = (if negative then [minus] else []) ++ body := by
    by_cases hminus : rest.head? = some minus
    · obtain ⟨tail, rfl⟩ := List.head?_eq_some_iff.mp hminus
      exact ⟨true, tail, rfl, rfl, rfl⟩
    · exact ⟨false, rest, by simp [hminus], rfl, rfl⟩
  simp only [hnegative, hbody, readDigits_eq] at h
  split at h
  · cases h
  · rename_i hfirst
    obtain ⟨hwhole, hsplit⟩ := exists_digits (by simpa using hfirst)
    cases hfraction : readFraction ((body.takeWhile isDigit).foldl (Decimal.takeDigit false) {})
        (body.dropWhile isDigit) with
    | error status => simp [hfraction, bind, Except.bind] at h
    | ok read =>
      obtain ⟨decimal, behind⟩ := read
      obtain ⟨fraction, digits, hfractionText, hbehind, rfl⟩ := exists_of_readFraction hfraction
      cases hpower : readPower (digits.foldl (Decimal.takeDigit true)
          ((body.takeWhile isDigit).foldl (Decimal.takeDigit false) {})) behind with
      | error status => simp [hfraction, hpower, bind, Except.bind] at h
      | ok read =>
        obtain ⟨decimal, left⟩ := read
        obtain ⟨power, exponent, hpowerText, hleft, rfl⟩ := exists_of_readPower hpower
        simp only [hfraction, hpower, bind, Except.bind] at h
        split at h
        · cases h
        · rename_i hfinite
          cases h
          have hwholeFinite : Det.isFinite
              (scaled (decimalOf (body.takeWhile isDigit) digits exponent) : R) = true := by
            rw [decimalOf]
            simpa using hfinite
          refine ⟨_, .mk negative hwhole hfractionText hpowerText hwholeFinite, ?_⟩
          rw [hrest, List.append_assoc, List.append_assoc, List.append_assoc, ← hleft, ← hbehind,
            ← hsplit]

/-! ## Scalars -/

theorem NumberText.head {text : Text} {value : R} (h : NumberText text value) :
    ∃ c tail, text = c :: tail ∧ (c = minus ∨ isDigit c = true) := by
  obtain ⟨negative, hwhole, _, _, _⟩ := h
  cases negative with
  | true => exact ⟨minus, _, rfl, .inl rfl⟩
  | false =>
    rename_i whole _ _ _ _ _ _ _
    obtain ⟨c, tail, rfl⟩ := List.exists_cons_of_ne_nil hwhole.ne_nil
    exact ⟨c, _, rfl, .inr (hwhole.all c List.mem_cons_self)⟩

/-- A scalar starts with no blank, and opens and closes nothing. -/
theorem ScalarText.head {text : Text} {value : Scalar R} (h : ScalarText text value) :
    ∃ c tail, text = c :: tail ∧ isBlank c = false ∧
      ∀ object, c ≠ opener object ∧ c ≠ closer object := by
  cases h with
  | null => exact ⟨_, _, rfl, by decide, by decide⟩
  | boolean value => cases value <;> exact ⟨_, _, rfl, by decide, by decide⟩
  | string => exact ⟨_, _, rfl, by decide, by decide⟩
  | number h =>
    obtain ⟨c, tail, rfl, rfl | hdigit⟩ := h.head
    · exact ⟨_, _, rfl, by decide, by decide⟩
    · refine ⟨c, tail, rfl, isBlank_of_isDigit hdigit, fun object => ⟨?_, ?_⟩⟩
      · rintro rfl
        cases object <;> exact absurd hdigit (by decide)
      · rintro rfl
        cases object <;> exact absurd hdigit (by decide)

theorem readScalar_spelled {text : Text} {value : Scalar R} (h : ScalarText text value)
    (hmore : Stops more) (node : Value R) :
    readScalar node (text ++ more) = (value.put node, .ok more) := by
  cases h with
  | null => rfl
  | boolean value => cases value <;> rfl
  | string hcharacters =>
    rw [List.cons_append, List.append_assoc, List.singleton_append]
    simp [readScalar, parseString_characters hcharacters, Scalar.put]
  | number hnumber =>
    have hread := parseNumber_numberText hnumber hmore
    obtain ⟨c, tail, rfl, hc⟩ := hnumber.head
    have hquote : c ≠ quote := by
      rintro rfl
      exact absurd hc (by decide)
    have hstart : c = minus ∨ isDigit c = true := hc
    rw [List.cons_append] at hread ⊢
    simp [readScalar, hquote, digitFirst, hstart, hread, Scalar.put]

theorem exists_of_readScalar {node left : Value R} (h : readScalar node rest = (left, .ok more)) :
    ∃ text value, ScalarText text value ∧ rest = text ++ more ∧ left = value.put node := by
  rw [readScalar] at h
  split at h
  · rename_i hquote
    dsimp only at h
    split at h
    · cases h
    · rename_i characters behind hstring
      cases h
      obtain ⟨hcharacters, hrest⟩ := exists_of_parseString hstring
      exact ⟨_, _, .string hcharacters, by simp [hrest], rfl⟩
  · split at h
    · dsimp only at h
      split at h
      · cases h
      · rename_i number behind hnumber
        cases h
        obtain ⟨text, htext, hrest⟩ := exists_of_parseNumber hnumber
        exact ⟨text, _, .number htext, hrest, rfl⟩
    · rw [readLiteral] at h
      split at h
      · rename_i hliteral
        cases h
        by_cases htrue : trueLiteral.isPrefixOf rest = true
        · obtain ⟨tail, rfl⟩ := List.isPrefixOf_iff_prefix.mp htrue
          refine ⟨trueLiteral, .boolean true, .boolean true, ?_, ?_⟩
          · rw [if_pos htrue, List.drop_left]
          · rw [htrue, Scalar.put]
        · obtain ⟨tail, rfl⟩ : falseLiteral <+: rest :=
            List.isPrefixOf_iff_prefix.mp (by simpa [htrue] using hliteral)
          refine ⟨falseLiteral, .boolean false, .boolean false, ?_, ?_⟩
          · rw [if_neg htrue, List.drop_left]
          · rw [(Bool.not_eq_true _).mp htrue, Scalar.put]
      · split at h
        · rename_i hnull
          cases h
          obtain ⟨tail, rfl⟩ := List.isPrefixOf_iff_prefix.mp hnull
          exact ⟨nullLiteral, .null, .null, by simp, rfl⟩
        · cases h

end WaveformGenerator.SignalLab.Json
