import WaveformGenerator.Host.MakePlaylist
import WaveformGenerator.PlaylistFile.Line

/-!
# Host and board read numbers alike

The host reads a number with a pattern and `int`, the board digit by digit in 32 bits. `Canonical`
is what both take for a whole number: `0`, or digits that do not start with a zero.
-/

namespace WaveformGenerator.Host

open Text

/-! ## Classes of characters -/

theorem classOf_eq (a b c : Char) : classOf [(a, b)] c = (a ≤ c && c ≤ b) := by
  simp [classOf]

theorem classOf_digit (c : Char) : classOf [('0', '9')] c = c.isDigit := by
  rw [classOf_eq]
  rfl

theorem digitClass_eq : digitClass = Char.isDigit := funext classOf_digit

/-- A digit other than `0`. -/
theorem classOf_leading (c : Char) :
    classOf [('1', '9')] c = (c.isDigit && c != '0') := by
  rw [classOf_eq, Bool.eq_iff_iff]
  simp only [Bool.and_eq_true, decide_eq_true_eq, bne_iff_ne, ne_eq, Char.isDigit_iff_toNat,
    Char.le_def, UInt32.le_iff_toNat_le, ← Char.toNat_inj]
  have h0 : '0'.toNat = 48 := rfl
  have h1 : '1'.val.toNat = 49 := rfl
  have h9 : '9'.toNat = 57 := rfl
  have h9' : '9'.val.toNat = 57 := rfl
  have hc : c.val.toNat = c.toNat := rfl
  omega

/-! ## Whole numbers -/

/-- `0`, or digits that do not start with a zero. -/
def Canonical (text : List Char) : Prop :=
  text ≠ [] ∧ text.all Char.isDigit = true ∧ (1 < text.length → text.head? ≠ some '0')

theorem Canonical.dot_not_mem {text : List Char} (h : Canonical text) : '.' ∉ text := by
  intro hdot
  have := List.all_eq_true.mp h.2.1 _ hdot
  cases this

/-- What `0|[1-9][0-9]*` matches, and the patterns that bound the digits behind the first. -/
theorem parses_whole (most : Option Nat) (text : List Char) (groups : Groups) :
    (Regex.alt (.literal ['0']) (.seq (.chars (classOf [('1', '9')]) 1 (some 1))
      (.chars digitClass 0 most))).Parses text groups ↔
      groups = [] ∧ Canonical text ∧ ∀ n, most = some n → text.length ≤ n + 1 := by
  simp only [Regex.Parses, digitClass_eq, classOf_leading]
  constructor
  · rintro (⟨rfl, rfl⟩ | ⟨front, _, back, _, rfl, rfl, ⟨rfl, hleast, hmost, hfront⟩, rfl, _, hback,
      hdigits⟩)
    · exact ⟨rfl, ⟨by decide, by decide, fun h => absurd h (by decide)⟩, fun n _ =>
        Nat.le_add_left 1 n⟩
    · obtain ⟨c, rfl⟩ := List.length_eq_one_iff.mp (Nat.le_antisymm (hmost 1 rfl) hleast)
      have hc := hfront c (List.mem_singleton_self c)
      rw [Bool.and_eq_true, bne_iff_ne] at hc
      refine ⟨rfl, ⟨List.cons_ne_nil _ _, ?_, fun _ h => hc.2 (Option.some.inj h)⟩, fun n hn => ?_⟩
      · rw [List.singleton_append, List.all_cons, hc.1, Bool.true_and]
        exact List.all_eq_true.mpr hdigits
      · have := hback n hn
        rw [List.singleton_append, List.length_cons]
        omega
  · rintro ⟨rfl, ⟨hne, hdigits, hzero⟩, hmost⟩
    cases text with
    | nil => exact absurd rfl hne
    | cons c text =>
      rw [List.all_cons, Bool.and_eq_true] at hdigits
      by_cases hc : c = '0'
      · have hnil : text = [] := by
          by_contra h
          have hlength : 1 < (c :: text).length := by
            rw [List.length_cons]
            exact Nat.lt_add_of_pos_left (List.length_pos_of_ne_nil h)
          exact hzero hlength (congrArg some hc)
        exact .inl ⟨rfl, by rw [hc, hnil]⟩
      · refine .inr ⟨[c], [], text, [], rfl, rfl, ⟨rfl, Nat.le_refl 1, fun n hn => ?_, fun d hd => ?_⟩,
          rfl, Nat.zero_le _, fun n hn => ?_, List.all_eq_true.mp hdigits.2⟩
        · cases hn
          exact Nat.le_refl 1
        · rw [List.mem_singleton.mp hd, hdigits.1, Bool.true_and, bne_iff_ne]
          exact hc
        · have := hmost n hn
          rw [List.length_cons] at this
          omega

/-! ## Thirty-two bits, digit by digit -/

/-- The number the digits before `text` and those of `text` spell. -/
def decimalFrom (value : Nat) (text : List Char) : Nat :=
  text.foldl (fun value c => value * 10 + (c.toNat - 48)) value

theorem decimalFrom_cons (value : Nat) (c : Char) (text : List Char) :
    decimalFrom value (c :: text) = decimalFrom (value * 10 + (c.toNat - 48)) text := by
  rw [decimalFrom, List.foldl_cons]
  rfl

theorem le_decimalFrom (value : Nat) (text : List Char) : value ≤ decimalFrom value text := by
  induction text generalizing value with
  | nil => exact Nat.le_refl _
  | cons c text ih =>
    have := ih (value * 10 + (c.toNat - 48))
    rw [decimalFrom_cons]
    omega

theorem parseUInt32From_eq (value : Nat) (text : List Char) (hvalue : value ≤ uint32Max) :
    Cut.parseUInt32From value text =
      if text.all Char.isDigit ∧ decimalFrom value text ≤ uint32Max then
        .ok (.ofNat (decimalFrom value text))
      else .error Cut.badSyntax := by
  induction text generalizing value with
  | nil => simp [Cut.parseUInt32From, decimalFrom, hvalue]
  | cons c text ih =>
    rw [Cut.parseUInt32From, digitValue_eq]
    by_cases hc : c.isDigit = true
    · rw [if_pos hc]
      dsimp only
      have hnext := le_decimalFrom (value * 10 + (c.toNat - 48)) text
      rw [decimalFrom_cons]
      by_cases hlarge : 2 ^ 32 - 1 < value * 10 + (c.toNat - 48)
      · have hpast : ¬decimalFrom (value * 10 + (c.toNat - 48)) text ≤ uint32Max := by
          rw [uint32Max]
          omega
        rw [if_pos hlarge, if_neg fun h => hpast h.2]
      · rw [if_neg hlarge, ih _ (Nat.not_lt.mp hlarge), List.all_cons, hc, Bool.true_and]
    · rw [if_neg hc, if_neg]
      rintro ⟨hall, -⟩
      rw [List.all_cons, Bool.and_eq_true] at hall
      exact hc hall.1

theorem not_canonical_iff (text : List Char) (h : text.all Char.isDigit = true) :
    (text.isEmpty ∨ (1 < text.length ∧ text.head? = some '0')) ↔ ¬Canonical text := by
  unfold Canonical
  rw [List.isEmpty_iff]
  tauto

open Classical in
/-- The board's 32-bit decimals. -/
theorem board_parseUInt32 (text : List Char) :
    Cut.parseUInt32 text =
      if Canonical text ∧ decimal text ≤ uint32Max then .ok (.ofNat (decimal text))
      else .error Cut.badSyntax := by
  have hfrom := parseUInt32From_eq 0 text (Nat.zero_le _)
  have hdecimal : decimalFrom 0 text = decimal text := rfl
  rw [hdecimal] at hfrom
  unfold Cut.parseUInt32
  by_cases hall : text.all Char.isDigit = true
  · by_cases hcanonical : Canonical text
    · rw [if_neg (mt (not_canonical_iff text hall).mp (not_not.mpr hcanonical)), hfrom]
      simp only [hall, hcanonical, true_and]
    · rw [if_pos ((not_canonical_iff text hall).mpr hcanonical), if_neg fun h => hcanonical h.1]
  · have hno : ¬(text.all Char.isDigit = true ∧ decimal text ≤ uint32Max) := fun h => hall h.1
    rw [hfrom, if_neg hno, ite_self, if_neg fun h => hall h.1.2.1]

theorem canonical_iff_fullmatch (text : List Char) :
    (decimalPattern.fullmatch text).isSome = true ↔ Canonical text := by
  rw [Regex.fullmatch_isSome_iff, decimalPattern]
  have hwhole := parses_whole none text
  unfold digitClass at hwhole
  simp only [hwhole]
  exact ⟨fun ⟨_, h⟩ => h.2.1, fun h => ⟨[], rfl, h, fun _ h => by cases h⟩⟩

/-- Host and board read the same 32-bit decimals. -/
theorem parseUInt32_agrees (text : List Char) :
    match Cut.parseUInt32 text with
    | .ok value => Canonical text ∧ decimal text ≤ uint32Max ∧ value.toNat = decimal text
    | .error _ => (decimalPattern.fullmatch text).isNone ∨ uint32Max < decimal text := by
  rw [board_parseUInt32]
  split
  · rename_i heq
    split at heq
    · rename_i h
      cases heq
      refine ⟨h.1, h.2, toNat_ofNat32 ?_⟩
      have := h.2
      unfold uint32Max at this
      omega
    · cases heq
  · rename_i heq
    split at heq
    · cases heq
    · rename_i h
      rw [not_and_or, Nat.not_le] at h
      refine h.imp_left fun h => ?_
      rw [← canonical_iff_fullmatch] at h
      simpa using h

/-! ## Seconds -/

theorem decimalFrom_lt {value : Nat} {text : List Char} (h : text.all Char.isDigit = true) :
    decimalFrom value text < (value + 1) * 10 ^ text.length := by
  induction text generalizing value with
  | nil => simp [decimalFrom]
  | cons c text ih =>
    rw [List.all_cons, Bool.and_eq_true] at h
    have hdigit : 48 ≤ c.toNat ∧ c.toNat ≤ 57 := Char.isDigit_iff_toNat.mp h.1
    have hrest := @ih (value * 10 + (c.toNat - 48)) h.2
    calc decimalFrom value (c :: text)
        = decimalFrom (value * 10 + (c.toNat - 48)) text := decimalFrom_cons ..
      _ < (value * 10 + (c.toNat - 48) + 1) * 10 ^ text.length := hrest
      _ ≤ ((value + 1) * 10) * 10 ^ text.length := Nat.mul_le_mul_right _ (by omega)
      _ = (value + 1) * 10 ^ (c :: text).length := by
        rw [List.length_cons, Nat.pow_succ, Nat.mul_assoc, Nat.mul_comm 10]

theorem decimal_lt {text : List Char} (h : text.all Char.isDigit = true) :
    decimal text < 10 ^ text.length := by
  have := @decimalFrom_lt 0 text h
  rw [Nat.zero_add, Nat.one_mul] at this
  exact this

/-- Digits with at most `digits` of them whole and at most three behind a point, as milliseconds. -/
inductive SpellsSeconds (digits : Nat) : List Char → Nat → Prop
  | whole {whole : List Char} : Canonical whole → whole.length ≤ digits →
    SpellsSeconds digits whole (decimal whole * 1000)
  | decimals {whole fraction : List Char} : Canonical whole → whole.length ≤ digits →
    fraction ≠ [] → fraction.length ≤ 3 → fraction.all Char.isDigit = true →
    SpellsSeconds digits (whole ++ '.' :: fraction)
      (decimal whole * 1000 + decimal (ljustZeros 3 fraction))

/-- What `secondsPattern` matches. -/
theorem parses_seconds {n : Nat} {text : List Char} {groups : Groups} :
    (secondsPattern n).Parses text groups ↔
      ∃ whole, Canonical whole ∧ whole.length ≤ n + 1 ∧
        (text = whole ∧ groups = [(1, whole)] ∨
          ∃ fraction, text = whole ++ '.' :: fraction ∧ groups = [(1, whole), (2, fraction)] ∧
            fraction ≠ [] ∧ fraction.length ≤ 3 ∧ fraction.all Char.isDigit = true) := by
  have hwhole := parses_whole (some n)
  constructor
  · rintro ⟨whole, _, back, _, rfl, rfl, ⟨_, rfl, hfront⟩, hback⟩
    obtain ⟨rfl, hcanonical, hlength⟩ := (hwhole ..).mp hfront
    refine ⟨whole, hcanonical, hlength n rfl, ?_⟩
    obtain ⟨_, _, fraction, _, rfl, rfl, ⟨rfl, rfl⟩, _, rfl, rfl, hleast, hmost, hdigits⟩ |
      ⟨rfl, rfl⟩ := hback
    · rw [digitClass_eq] at hdigits
      exact .inr ⟨fraction, rfl, rfl, List.ne_nil_of_length_pos hleast, hmost 3 rfl,
        List.all_eq_true.mpr hdigits⟩
    · exact .inl ⟨List.append_nil _, rfl⟩
  · rintro ⟨whole, hcanonical, hlength, ⟨rfl, rfl⟩ | ⟨fraction, rfl, rfl, hne, hmost, hdigits⟩⟩
    · exact ⟨text, [(1, text)], [], [], (List.append_nil _).symm, rfl,
        ⟨[], rfl, (hwhole ..).mpr ⟨rfl, hcanonical, fun m hm => Option.some.inj hm ▸ hlength⟩⟩,
        .inr ⟨rfl, rfl⟩⟩
    · refine ⟨whole, [(1, whole)], '.' :: fraction, [(2, fraction)], rfl, rfl,
        ⟨[], rfl, (hwhole ..).mpr ⟨rfl, hcanonical, fun m hm => Option.some.inj hm ▸ hlength⟩⟩,
        .inl ⟨['.'], [], fraction, [(2, fraction)], rfl, rfl, ⟨rfl, rfl⟩, [], rfl, rfl,
          List.length_pos_of_ne_nil hne, fun m hm => Option.some.inj hm ▸ hmost, ?_⟩⟩
      rw [digitClass_eq]
      exact List.all_eq_true.mp hdigits

theorem millisecondsOf_whole (whole : List Char) :
    millisecondsOf [(1, whole)] = decimal whole * 1000 := by
  have hzeros : decimal (ljustZeros 3 []) = 0 := rfl
  show decimal whole * 1000 + decimal (ljustZeros 3 []) = _
  rw [hzeros, Nat.add_zero]

theorem fullmatch_seconds (n : Nat) (text : List Char) :
    match (secondsPattern n).fullmatch text with
    | some groups => SpellsSeconds (n + 1) text (millisecondsOf groups)
    | none => ∀ milliseconds, ¬SpellsSeconds (n + 1) text milliseconds := by
  cases hmatch : (secondsPattern n).fullmatch text with
  | some groups =>
    obtain ⟨whole, hcanonical, hlength, ⟨rfl, rfl⟩ | ⟨fraction, rfl, rfl, hne, hmost, hdigits⟩⟩ :=
      parses_seconds.mp (Regex.fullmatch_some hmatch)
    · dsimp only
      rw [millisecondsOf_whole]
      exact .whole hcanonical hlength
    · exact .decimals hcanonical hlength hne hmost hdigits
  | none =>
    have hnone := Regex.fullmatch_none hmatch
    rintro _ (⟨hcanonical, hlength⟩ | ⟨hcanonical, hlength, hne, hmost, hdigits⟩)
    · exact hnone _ (parses_seconds.mpr ⟨_, hcanonical, hlength, .inl ⟨rfl, rfl⟩⟩)
    · exact hnone _ (parses_seconds.mpr
        ⟨_, hcanonical, hlength, .inr ⟨_, rfl, rfl, hne, hmost, hdigits⟩⟩)

theorem ljustZeros_cons (places : Nat) (c : Char) (text : List Char) :
    ljustZeros (places + 1) (c :: text) = c :: ljustZeros places text := by
  rw [ljustZeros, List.length_cons, Nat.add_sub_add_right]
  rfl

theorem ljustZeros_nil (places : Nat) : ljustZeros (places + 1) [] = '0' :: ljustZeros places [] :=
  rfl

theorem fractionFrom_eq (value places : Nat) (fraction : List Char)
    (hlength : fraction.length ≤ places) :
    PlaylistFile.fractionFrom (.ofNat value) places fraction =
      if fraction.all Char.isDigit then some (.ofNat (decimalFrom value (ljustZeros places fraction)))
      else none := by
  induction places generalizing value fraction with
  | zero =>
    rw [List.eq_nil_of_length_eq_zero (Nat.le_zero.mp hlength)]
    rfl
  | succ places ih =>
    cases fraction with
    | nil =>
      have hnext : UInt32.ofNat value * 10 + 0 = .ofNat (value * 10 + 0) := by
        rw [UInt32.ofNat_add, UInt32.ofNat_mul]
        rfl
      have hplace : '0'.toNat - 48 = 0 := rfl
      rw [PlaylistFile.fractionFrom, hnext, ih _ _ (Nat.zero_le _), ljustZeros_nil,
        decimalFrom_cons, hplace]
    | cons c fraction =>
      rw [PlaylistFile.fractionFrom, digitValue_eq, ljustZeros_cons, List.all_cons]
      by_cases hc : c.isDigit = true
      · have hnext : UInt32.ofNat value * 10 + .ofNat (c.toNat - 48) =
            .ofNat (value * 10 + (c.toNat - 48)) := by
          rw [UInt32.ofNat_add, UInt32.ofNat_mul]
          rfl
        rw [if_pos hc, hc, Bool.true_and]
        dsimp only
        rw [hnext, ih _ _ (Nat.le_of_succ_le_succ hlength), decimalFrom_cons]
      · have hother : c.isDigit = false := eq_false_of_ne_true hc
        rw [if_neg hc, hother, Bool.false_and]
        rfl

theorem fractionMilliseconds_eq (fraction : List Char) :
    PlaylistFile.fractionMilliseconds fraction =
      if fraction ≠ [] ∧ fraction.length ≤ 3 ∧ fraction.all Char.isDigit = true then
        some (.ofNat (decimal (ljustZeros 3 fraction)))
      else none := by
  unfold PlaylistFile.fractionMilliseconds PlaylistFile.gapMaxDecimals
  by_cases hbad : fraction.isEmpty ∨ 3 < fraction.length
  · rw [if_pos hbad, if_neg]
    rintro ⟨hne, hlength, -⟩
    obtain hempty | hlong := hbad
    · exact hne (List.isEmpty_iff.mp hempty)
    · omega
  · rw [if_neg hbad]
    rw [not_or, List.isEmpty_iff, Nat.not_lt] at hbad
    have hfrom := fractionFrom_eq 0 3 fraction hbad.2
    have hzero : UInt32.ofNat 0 = 0 := rfl
    rw [hzero] at hfrom
    have hdecimal : decimalFrom 0 (ljustZeros 3 fraction) = decimal (ljustZeros 3 fraction) := rfl
    rw [hfrom, hdecimal]
    simp only [ne_eq, hbad.1, not_false_eq_true, hbad.2, true_and]

theorem parseMilliseconds_of_spells {digits milliseconds : Nat} {text : List Char}
    (hdigits : digits ≤ 5) (h : SpellsSeconds digits text milliseconds) :
    ∃ value, PlaylistFile.parseMilliseconds text digits = some value ∧
      value.toNat = milliseconds := by
  have hparse : ∀ {whole : List Char}, Canonical whole → whole.length ≤ digits →
      Cut.parseUInt32 whole = .ok (.ofNat (decimal whole)) ∧ decimal whole < 10 ^ 5 := by
    intro whole hcanonical hlength
    have hsmall : decimal whole < 10 ^ 5 := Nat.lt_of_lt_of_le (decimal_lt hcanonical.2.1)
      (Nat.pow_le_pow_right (by decide) (Nat.le_trans hlength hdigits))
    refine ⟨?_, hsmall⟩
    rw [board_parseUInt32, if_pos ⟨hcanonical, by unfold uint32Max; omega⟩]
  cases h with
  | whole hcanonical hlength =>
    obtain ⟨hok, hsmall⟩ := hparse hcanonical hlength
    refine ⟨.ofNat (decimal text) * PlaylistFile.millisecondsPerSecond + 0, ?_, ?_⟩
    · rw [PlaylistFile.parseMilliseconds, splitFirst_of_not_mem hcanonical.dot_not_mem]
      dsimp only
      rw [hok]
      dsimp only
      rw [if_neg (Nat.not_lt.mpr hlength)]
      rfl
    · rw [UInt32.add_zero, UInt32.toNat_mul, toNat_ofNat32 (by omega)]
      show decimal text * 1000 % 2 ^ 32 = _
      omega
  | @decimals whole fraction hcanonical hlength hne hmost hall =>
    obtain ⟨hok, hsmall⟩ := hparse hcanonical hlength
    have hfraction : decimal (ljustZeros 3 fraction) < 10 ^ 3 := by
      have hlength : (ljustZeros 3 fraction).length = 3 := by
        rw [ljustZeros, List.length_append, List.length_replicate]
        omega
      have hzeros : (ljustZeros 3 fraction).all Char.isDigit = true := by
        rw [ljustZeros, List.all_append, hall, Bool.true_and, List.all_eq_true]
        intro c hc
        rw [(List.mem_replicate.mp hc).2]
        rfl
      have := decimal_lt hzeros
      rw [hlength] at this
      exact this
    refine ⟨.ofNat (decimal whole) * PlaylistFile.millisecondsPerSecond +
      .ofNat (decimal (ljustZeros 3 fraction)), ?_, ?_⟩
    · rw [PlaylistFile.parseMilliseconds, splitFirst_append hcanonical.dot_not_mem]
      dsimp only
      rw [hok]
      dsimp only
      rw [if_neg (Nat.not_lt.mpr hlength), fractionMilliseconds_eq, if_pos ⟨hne, hmost, hall⟩]
      rfl
    · rw [UInt32.toNat_add, UInt32.toNat_mul, toNat_ofNat32 (by omega), toNat_ofNat32 (by omega)]
      show (decimal whole * 1000 % 2 ^ 32 + _) % 2 ^ 32 = _
      omega

theorem spells_of_parseMilliseconds {digits : Nat} {text : List Char} {value : UInt32}
    (h : PlaylistFile.parseMilliseconds text digits = some value) :
    ∃ milliseconds, SpellsSeconds digits text milliseconds := by
  unfold PlaylistFile.parseMilliseconds at h
  have hspec := splitFirst_spec '.' text
  generalize splitFirst '.' text = parts at h hspec
  obtain ⟨whole, behind⟩ := parts
  dsimp only at h hspec
  rw [board_parseUInt32] at h
  split at h
  · cases h
  · rename_i seconds hok
    split at hok
    · rename_i hcanonical
      split at h
      · cases h
      · rename_i hlength
        rw [Nat.not_lt] at hlength
        cases behind with
        | none =>
          have htext : text = whole := hspec.2
          rw [htext]
          exact ⟨_, .whole hcanonical.1 hlength⟩
        | some fraction =>
          dsimp only at h
          rw [fractionMilliseconds_eq] at h
          split at h
          · rename_i hfraction
            have htext : text = whole ++ '.' :: fraction := hspec.2
            rw [htext]
            exact ⟨_, .decimals hcanonical.1 hlength hfraction.1 hfraction.2.1 hfraction.2.2⟩
          · cases h
    · cases hok

/-- Host and board read the same milliseconds. -/
theorem milliseconds_agree {n : Nat} (hn : n ≤ 4) (text : List Char) :
    ((secondsPattern n).fullmatch text).map millisecondsOf =
      (PlaylistFile.parseMilliseconds text (n + 1)).map (·.toNat) := by
  have hhost := fullmatch_seconds n text
  cases hmatch : (secondsPattern n).fullmatch text with
  | some groups =>
    rw [hmatch] at hhost
    obtain ⟨value, hvalue, heq⟩ := parseMilliseconds_of_spells (Nat.succ_le_succ hn) hhost
    rw [hvalue, Option.map_some, Option.map_some, heq]
  | none =>
    rw [hmatch] at hhost
    cases hboard : PlaylistFile.parseMilliseconds text (n + 1) with
    | none => rfl
    | some value =>
      obtain ⟨milliseconds, hspells⟩ := spells_of_parseMilliseconds hboard
      exact absurd hspells (hhost milliseconds)

/-- Host and board read the same gaps. -/
theorem parseGap_agrees (text : List Char) (line : Nat) :
    match PlaylistFile.parseGap text with
    | .ok frames => parseGap text line = .ok frames.toNat
    | .error status => ∃ message, parseGap text line = .error ⟨status.message, line, message⟩ := by
  have hagree := milliseconds_agree (n := 3) (by decide) text
  unfold PlaylistFile.parseGap PlaylistFile.gapMaxWholeDigits parseGap gapPattern
  cases hboard : PlaylistFile.parseMilliseconds text 4 with
  | none =>
    rw [hboard] at hagree
    rw [Option.map_eq_none_iff.mp hagree]
    exact ⟨_, rfl⟩
  | some value =>
    rw [hboard] at hagree
    obtain ⟨groups, hmatch, hvalue⟩ := Option.map_eq_some_iff.mp hagree
    rw [hmatch]
    dsimp only
    rw [hvalue]
    have hmost : PlaylistFile.maxGapMilliseconds.toNat = maxGapMilliseconds := rfl
    simp only [UInt32.lt_iff_toNat_lt, hmost]
    by_cases hlong : maxGapMilliseconds < value.toNat
    · rw [if_pos hlong, if_pos hlong]
      exact ⟨_, rfl⟩
    · have hshort : value.toNat ≤ 3600000 := Nat.not_lt.mp hlong
      rw [if_neg hlong, if_neg hlong]
      show Except.ok (value.toNat * 48) = .ok (value * 48).toNat
      rw [UInt32.toNat_mul]
      show _ = Except.ok (value.toNat * 48 % 2 ^ 32)
      rw [Nat.mod_eq_of_lt (by omega)]

/-- Host and board read the same durations. -/
theorem parseDuration_agrees (text : List Char) (line : Nat) :
    match PlaylistFile.parseDuration text with
    | .ok frames => parseDuration text line = .ok frames.toNat
    | .error status =>
      ∃ message, parseDuration text line = .error ⟨status.message, line, message⟩ := by
  have hagree := milliseconds_agree (n := 4) (by decide) text
  unfold PlaylistFile.parseDuration PlaylistFile.durationMaxWholeDigits parseDuration
    durationPattern
  rw [hagree]
  cases hboard : PlaylistFile.parseMilliseconds text 5 with
  | none => exact ⟨_, rfl⟩
  | some value =>
    dsimp only
    have hleast : PlaylistFile.minDurationMilliseconds.toNat = minDurationMilliseconds := rfl
    have hmost : PlaylistFile.maxDurationMilliseconds.toNat = maxDurationMilliseconds := rfl
    simp only [UInt32.lt_iff_toNat_lt, hleast, hmost, Option.map_some, Option.filter_some]
    by_cases hout : value.toNat < minDurationMilliseconds ∨ maxDurationMilliseconds < value.toNat
    · rw [if_pos hout, if_neg (by
        rw [Bool.and_eq_true, decide_eq_true_eq, decide_eq_true_eq]
        omega)]
      exact ⟨_, rfl⟩
    · have hshort : value.toNat ≤ 86400000 := Nat.not_lt.mp fun h => hout (.inr h)
      rw [if_neg hout, if_pos (by
        rw [Bool.and_eq_true, decide_eq_true_eq, decide_eq_true_eq]
        omega)]
      show Except.ok (value.toNat * 48) = .ok (value * 48).toNat
      rw [UInt32.toNat_mul]
      show _ = Except.ok (value.toNat * 48 % 2 ^ 32)
      rw [Nat.mod_eq_of_lt (by omega)]

/-! ## Attenuations -/

/-- The sign of an attenuation. -/
def signOf (negative : Bool) : List Char := if negative then ['-'] else []

/-- A level of at most two whole digits and one decimal, as tenths of a decibel. -/
inductive SpellsTenths (negative : Bool) : List Char → Nat → Prop
  | whole {whole : List Char} : Canonical whole → whole.length ≤ 2 →
    SpellsTenths negative (signOf negative ++ whole) (decimal whole * 10 + decimal ['0'])
  | tenth {whole : List Char} {c : Char} : Canonical whole → whole.length ≤ 2 →
    c.isDigit = true →
    SpellsTenths negative (signOf negative ++ (whole ++ '.' :: [c]))
      (decimal whole * 10 + decimal [c])

/-- What `attenuationPattern` matches. -/
theorem parses_attenuation {text : List Char} {groups : Groups} :
    attenuationPattern.Parses text groups ↔
      ∃ negative whole, Canonical whole ∧ whole.length ≤ 2 ∧
        (text = signOf negative ++ whole ∧ groups = [(1, signOf negative), (2, whole)] ∨
          ∃ c, text = signOf negative ++ (whole ++ '.' :: [c]) ∧
            groups = [(1, signOf negative), (2, whole), (3, [c])] ∧ c.isDigit = true) := by
  have hwhole := parses_whole (some 1)
  have hsign : ∀ negative, (Regex.group 1 (.opt (.literal ['-']))).Parses (signOf negative)
      [(1, signOf negative)]
    | true => ⟨[], rfl, .inl ⟨rfl, rfl⟩⟩
    | false => ⟨[], rfl, .inr ⟨rfl, rfl⟩⟩
  constructor
  · rintro ⟨sign, _, _, _, rfl, rfl, ⟨inner, rfl, hsigned⟩, whole, _, back, _, rfl, rfl,
      ⟨_, rfl, hfront⟩, hback⟩
    obtain ⟨rfl, hcanonical, hlength⟩ := (hwhole ..).mp hfront
    obtain ⟨negative, rfl, rfl⟩ : ∃ negative, sign = signOf negative ∧ inner = [] := by
      obtain ⟨rfl, rfl⟩ | ⟨rfl, rfl⟩ := hsigned
      · exact ⟨true, rfl, rfl⟩
      · exact ⟨false, rfl, rfl⟩
    refine ⟨negative, whole, hcanonical, hlength 1 rfl, ?_⟩
    obtain ⟨_, _, digits, _, rfl, rfl, ⟨rfl, rfl⟩, _, rfl, rfl, hleast, hmost, hdigits⟩ |
      ⟨rfl, rfl⟩ := hback
    · obtain ⟨c, rfl⟩ := List.length_eq_one_iff.mp (Nat.le_antisymm (hmost 1 rfl) hleast)
      rw [digitClass_eq] at hdigits
      exact .inr ⟨c, rfl, rfl, hdigits c (List.mem_singleton_self c)⟩
    · rw [List.append_nil]
      exact .inl ⟨rfl, rfl⟩
  · rintro ⟨negative, whole, hcanonical, hlength, ⟨rfl, rfl⟩ | ⟨c, rfl, rfl, hc⟩⟩
    · exact ⟨_, _, whole, [(2, whole)], rfl, rfl, hsign negative, whole, [(2, whole)], [], [],
        (List.append_nil _).symm, rfl,
        ⟨[], rfl, (hwhole ..).mpr ⟨rfl, hcanonical, fun m hm => Option.some.inj hm ▸ hlength⟩⟩,
        .inr ⟨rfl, rfl⟩⟩
    · refine ⟨_, _, whole ++ '.' :: [c], [(2, whole), (3, [c])], rfl, rfl, hsign negative, whole,
        [(2, whole)], '.' :: [c], [(3, [c])], rfl, rfl,
        ⟨[], rfl, (hwhole ..).mpr ⟨rfl, hcanonical, fun m hm => Option.some.inj hm ▸ hlength⟩⟩,
        .inl ⟨['.'], [], [c], [(3, [c])], rfl, rfl, ⟨rfl, rfl⟩, [], rfl, rfl, Nat.le_refl 1,
          fun m hm => Option.some.inj hm ▸ Nat.le_refl 1, fun d hd => ?_⟩⟩
      rw [digitClass_eq, List.mem_singleton.mp hd, hc]

theorem wholeDecibelsFrom_eq (value : Nat) (text : List Char) :
    Attenuation.wholeDecibelsFrom (.ofNat value) text =
      if text.all Char.isDigit then some (.ofNat (decimalFrom value text)) else none := by
  induction text generalizing value with
  | nil => rfl
  | cons c text ih =>
    rw [Attenuation.wholeDecibelsFrom, digitValue_eq, List.all_cons]
    by_cases hc : c.isDigit = true
    · have hnext : UInt32.ofNat value * 10 + .ofNat (c.toNat - 48) =
          .ofNat (value * 10 + (c.toNat - 48)) := by
        rw [UInt32.ofNat_add, UInt32.ofNat_mul]
        rfl
      rw [if_pos hc, hc, Bool.true_and]
      dsimp only
      rw [hnext, ih, decimalFrom_cons]
    · have hother : c.isDigit = false := eq_false_of_ne_true hc
      rw [if_neg hc, hother, Bool.false_and]
      rfl

open Classical in
theorem wholeDecibels_eq (text : List Char) :
    Attenuation.wholeDecibels text =
      if Canonical text ∧ text.length ≤ 2 then some (.ofNat (decimal text)) else none := by
  have hfrom := wholeDecibelsFrom_eq 0 text
  have hzero : UInt32.ofNat 0 = 0 := rfl
  have hdecimal : decimalFrom 0 text = decimal text := rfl
  rw [hzero, hdecimal] at hfrom
  unfold Attenuation.wholeDecibels
  by_cases hall : text.all Char.isDigit = true
  · have hcanonical := not_canonical_iff text hall
    rw [hfrom, if_pos hall]
    by_cases hgood : Canonical text ∧ text.length ≤ 2
    · rw [if_pos hgood, if_neg]
      rintro (h | h | h)
      · exact hcanonical.mp (.inl h) hgood.1
      · omega
      · exact hcanonical.mp (.inr h) hgood.1
    · rw [if_neg hgood, if_pos]
      by_contra h
      rw [not_or, not_or, Nat.not_lt] at h
      exact hgood ⟨not_not.mp (mt hcanonical.mpr (not_or.mpr ⟨h.1, h.2.2⟩)), h.2.1⟩
  · have hnot : ¬(Canonical text ∧ text.length ≤ 2) := fun h => hall h.1.2.1
    rw [hfrom, if_neg hall, ite_self, if_neg hnot]

theorem tenthDigit_digit {c : Char} (h : c.isDigit = true) :
    Attenuation.tenthDigit [c] = some (.ofNat (decimal [c])) := by
  rw [Attenuation.tenthDigit, digitValue_eq, if_pos h]
  show some (UInt32.ofNat (c.toNat - 48)) = some (.ofNat (0 * 10 + (c.toNat - 48)))
  rw [Nat.zero_mul, Nat.zero_add]

theorem tenthDigit_some {decimals : List Char} {tenth : UInt32}
    (h : Attenuation.tenthDigit decimals = some tenth) :
    ∃ c, decimals = [c] ∧ c.isDigit = true := by
  unfold Attenuation.tenthDigit at h
  split at h
  · rename_i c
    refine ⟨c, rfl, ?_⟩
    by_contra hc
    rw [digitValue_eq, if_neg hc] at h
    cases h
  · cases h

/-- What the board does behind the sign. -/
def judge (negative : Bool) (magnitude : List Char) : Result Attenuation.Tenths :=
  match Attenuation.wholeDecibels (splitFirst '.' magnitude).1,
      Attenuation.tenthDigit ((splitFirst '.' magnitude).2.getD ['0']) with
  | some whole, some tenth =>
    if whole * 10 + tenth ≠ 0 ∧ ¬negative = true then .error Attenuation.badAttenuation
    else Attenuation.Tenths.of (whole * 10 + tenth)
  | _, _ => .error Attenuation.badAttenuation

theorem parse_signed (negative : Bool) (magnitude : List Char)
    (h : negative = false → magnitude.head? ≠ some '-') :
    Attenuation.parse (signOf negative ++ magnitude) = judge negative magnitude := by
  have hmagnitude : (if (signOf negative ++ magnitude).head? = some '-' then
      (signOf negative ++ magnitude).tail else signOf negative ++ magnitude) = magnitude := by
    cases negative with
    | true => rfl
    | false => exact if_neg (h rfl)
  have hsign : (signOf negative ++ magnitude).head? = some '-' ↔ negative = true := by
    cases negative with
    | true => exact ⟨fun _ => rfl, fun _ => rfl⟩
    | false => exact ⟨fun hminus => absurd hminus (h rfl), fun hfalse => by cases hfalse⟩
  unfold Attenuation.parse judge Attenuation.tenthsPerDb
  dsimp only
  rw [hmagnitude]
  cases Attenuation.wholeDecibels (splitFirst '.' magnitude).1 with
  | none => rfl
  | some whole =>
    cases Attenuation.tenthDigit ((splitFirst '.' magnitude).2.getD ['0']) with
    | none => rfl
    | some tenth => simp only [hsign]

theorem exists_signed (text : List Char) :
    ∃ negative magnitude, text = signOf negative ++ magnitude ∧
      (negative = false → magnitude.head? ≠ some '-') := by
  by_cases h : text.head? = some '-'
  · obtain ⟨magnitude, rfl⟩ := List.head?_eq_some_iff.mp h
    exact ⟨true, magnitude, rfl, fun h => by cases h⟩
  · exact ⟨false, text, rfl, fun _ => h⟩

theorem Canonical.head_ne {whole : List Char} (h : Canonical whole) (behind : List Char) :
    (whole ++ behind).head? ≠ some '-' := by
  obtain ⟨hne, hdigits, -⟩ := h
  cases whole with
  | nil => exact absurd rfl hne
  | cons c whole =>
    rw [List.all_cons, Bool.and_eq_true] at hdigits
    intro heq
    cases heq
    cases hdigits.1

/-- The board judges the tenths a text spells. -/
theorem parse_of_spells {negative : Bool} {text : List Char} {tenths : Nat}
    (h : SpellsTenths negative text tenths) :
    tenths < 1000 ∧ Attenuation.parse text =
      if UInt32.ofNat tenths ≠ 0 ∧ ¬negative = true then .error Attenuation.badAttenuation
      else Attenuation.Tenths.of (.ofNat tenths) := by
  have hwhole : ∀ {whole : List Char}, Canonical whole → whole.length ≤ 2 →
      decimal whole < 10 ^ 2 := fun hcanonical hlength =>
    Nat.lt_of_lt_of_le (decimal_lt hcanonical.2.1) (Nat.pow_le_pow_right (by decide) hlength)
  have hsum : ∀ whole tenth : Nat,
      UInt32.ofNat whole * 10 + .ofNat tenth = .ofNat (whole * 10 + tenth) := by
    intro whole tenth
    rw [UInt32.ofNat_add, UInt32.ofNat_mul]
    rfl
  cases h with
  | @whole whole hcanonical hlength =>
    have hsmall := hwhole hcanonical hlength
    have htenth : decimal ['0'] = 0 := rfl
    have hhead := hcanonical.head_ne []
    rw [List.append_nil] at hhead
    refine ⟨by omega, ?_⟩
    rw [parse_signed negative whole fun _ => hhead, judge,
      splitFirst_of_not_mem hcanonical.dot_not_mem, wholeDecibels_eq,
      if_pos ⟨hcanonical, hlength⟩, Option.getD_none, tenthDigit_digit rfl]
    dsimp only
    rw [hsum]
  | @tenth whole c hcanonical hlength hc =>
    have hsmall := hwhole hcanonical hlength
    have htenth := @decimal_lt [c] (by rw [List.all_cons, hc]; rfl)
    rw [List.length_singleton, Nat.pow_one] at htenth
    refine ⟨by omega, ?_⟩
    rw [parse_signed negative _ fun _ => hcanonical.head_ne _, judge,
      splitFirst_append hcanonical.dot_not_mem, wholeDecibels_eq, if_pos ⟨hcanonical, hlength⟩,
      Option.getD_some, tenthDigit_digit hc]
    dsimp only
    rw [hsum]

/-- The board refuses what spells no tenths. -/
theorem parse_of_not_spells {text : List Char}
    (h : ∀ negative tenths, ¬SpellsTenths negative text tenths) :
    Attenuation.parse text = .error Attenuation.badAttenuation := by
  obtain ⟨negative, magnitude, rfl, hsign⟩ := exists_signed text
  rw [parse_signed negative magnitude hsign, judge]
  have hspec := splitFirst_spec '.' magnitude
  generalize splitFirst '.' magnitude = parts at hspec
  obtain ⟨whole, behind⟩ := parts
  dsimp only at hspec ⊢
  rw [wholeDecibels_eq]
  by_cases hcanonical : Canonical whole ∧ whole.length ≤ 2
  · cases htenth : Attenuation.tenthDigit (behind.getD ['0']) with
    | none => rw [if_pos hcanonical]
    | some tenth =>
      exfalso
      cases behind with
      | none =>
        have hmagnitude : magnitude = whole := hspec.2
        rw [hmagnitude] at h
        exact h _ _ (.whole hcanonical.1 hcanonical.2)
      | some decimals =>
        have hmagnitude : magnitude = whole ++ '.' :: decimals := hspec.2
        obtain ⟨c, rfl, hc⟩ := tenthDigit_some htenth
        rw [hmagnitude] at h
        exact h _ _ (.tenth hcanonical.1 hcanonical.2 hc)
  · rw [if_neg hcanonical]

/-- Host and board read the same attenuations. -/
theorem parseAttenuation_agrees (text : List Char) :
    match Attenuation.parse text with
    | .ok tenths => parseAttenuation text = .ok tenths.value.toNat
    | .error status => status = Attenuation.badAttenuation ∧
        ∃ message, parseAttenuation text = .error message := by
  unfold parseAttenuation
  cases hmatch : attenuationPattern.fullmatch text with
  | none =>
    rw [parse_of_not_spells]
    · exact ⟨rfl, _, rfl⟩
    · rintro negative _ (⟨hcanonical, hlength⟩ | ⟨hcanonical, hlength, hc⟩)
      · exact Regex.fullmatch_none hmatch _ (parses_attenuation.mpr
          ⟨negative, _, hcanonical, hlength, .inl ⟨rfl, rfl⟩⟩)
      · exact Regex.fullmatch_none hmatch _ (parses_attenuation.mpr
          ⟨negative, _, hcanonical, hlength, .inr ⟨_, rfl, rfl, hc⟩⟩)
  | some groups =>
    have hsign : ∀ negative, signOf negative = [] ↔ ¬negative = true := by decide
    -- the sign and the tenths of the match are those the text spells
    obtain ⟨negative, tenths, hspells, hgroup, htenths⟩ :
        ∃ negative tenths, SpellsTenths negative text tenths ∧
          (groupOr groups 1 = [] ↔ ¬negative = true) ∧
          decimal (groupOr groups 2) * 10 +
            decimal (if groupOr groups 3 = [] then ['0'] else groupOr groups 3) = tenths := by
      obtain ⟨negative, whole, hcanonical, hlength, ⟨rfl, rfl⟩ | ⟨c, rfl, rfl, hc⟩⟩ :=
        parses_attenuation.mp (Regex.fullmatch_some hmatch)
      · exact ⟨negative, _, .whole hcanonical hlength, hsign negative, rfl⟩
      · exact ⟨negative, _, .tenth hcanonical hlength hc, hsign negative, rfl⟩
    obtain ⟨hsmall, hparse⟩ := parse_of_spells hspells
    have hvalue : (UInt32.ofNat tenths).toNat = tenths := toNat_ofNat32 (by omega)
    have hzero : UInt32.ofNat tenths ≠ 0 ↔ tenths ≠ 0 := by
      rw [ne_eq, ← UInt32.toNat_inj, hvalue]
      rfl
    rw [hparse]
    simp only [hzero, htenths, hgroup]
    by_cases hpositive : tenths ≠ 0 ∧ ¬negative = true
    · rw [if_pos hpositive]
      refine ⟨rfl, ?_⟩
      by_cases hlong : maxTenths < tenths
      · exact ⟨_, if_pos hlong⟩
      · exact ⟨_, by rw [if_neg hlong, if_pos hpositive]⟩
    · rw [if_neg hpositive, Attenuation.Tenths.of]
      by_cases hlong : maxTenths < tenths
      · have hbound : ¬UInt32.ofNat tenths ≤ Attenuation.maxTenths := by
          rw [UInt32.le_iff_toNat_le, hvalue]
          exact Nat.not_le.mpr hlong
        rw [dif_neg hbound]
        exact ⟨rfl, _, if_pos hlong⟩
      · have hbound : UInt32.ofNat tenths ≤ Attenuation.maxTenths := by
          rw [UInt32.le_iff_toNat_le, hvalue]
          exact Nat.not_lt.mp hlong
        rw [dif_pos hbound, if_neg hlong, if_neg hpositive]
        exact congrArg Except.ok hvalue.symm

end WaveformGenerator.Host
