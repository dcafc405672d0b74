import WaveformGenerator.PlaylistFile.LineOptions

/-!
# `parse_line` reads just the lines of the grammar

A line has an item exactly if it writes the item and the item is in range, so neither the order of
the options nor the text around them matters.
-/

namespace WaveformGenerator.PlaylistFile

open Host (SpellsSeconds)

/-! ## The line -/

theorem OptionKey.allows_of_inRange {key : OptionKey} {item : Item} (h : key.InRange item) :
    key.Allows item := by
  cases key with
  | seed => trivial
  | label | scn | cut | att | dur => exact h

theorem OptionKey.inRange_of_absent {key : OptionKey} {item : Item} (h : key.Absent item) :
    key.InRange item := by
  cases key with
  | label =>
    have hchars : item.label.chars = [] := h
    intro c hc
    rw [hchars] at hc
    cases hc
  | scn | seed => exact .inl h
  | cut | att => trivial
  | dur =>
    have hduration : item.duration = none := h
    intro frames hframes
    rw [hduration] at hframes
    cases hframes

/-- The options that the options of a line allow, and a seed with a scenario. -/
theorem inRange_options {item : Item} {keys : List OptionKey}
    (hall : ∀ key ∈ keys, key.Allows item) (habsent : ∀ key, key ∉ keys → key.Absent item)
    (hseed : ¬(item.seed.isSome = true ∧ item.scenario.isEmpty = true)) (key : OptionKey) :
    key.InRange item := by
  by_cases hkey : key ∈ keys
  · cases key with
    | seed =>
      show item.seed = none ∨ item.scenario.chars ≠ []
      rw [not_and_or, Bool.not_eq_true, Option.isSome_eq_false_iff, Option.isNone_iff_eq_none,
        FixedText.isEmpty, List.isEmpty_iff] at hseed
      exact hseed
    | label | scn | cut | att | dur => exact hall _ hkey
  · exact OptionKey.inRange_of_absent (habsent key hkey)

theorem parseLine_iff (line : List Char) (number : LineNumber) (offered : OfferedRoutes)
    (item : Item) :
    parseLine line number offered = .ok (some item) ↔
      item.line = number ∧ InRange offered item ∧ Writes line item := by
  constructor
  · intro h
    unfold parseLine at h
    split at h
    · cases h
    rename_i hprintable
    rw [Bool.not_eq_true', Bool.not_eq_false] at hprintable
    obtain ⟨hspaced, -⟩ := spaced_tokens hprintable
    split at h
    · cases h
    · rename_i file gap route words htokens
      rw [htokens] at hspaced
      split at h
      · cases h
      rename_i start hstart
      obtain ⟨⟨rfl, hfile⟩, ⟨hgap, hframes⟩, ⟨rfl, hroute⟩, hfields⟩ :=
        (parseFields_iff ..).mp hstart
      split at h
      · cases h
      rename_i read hread
      split at h
      · cases h
      rename_i hseed
      cases h
      obtain ⟨keys, hnodup, -, hwords, hall, hresult⟩ := (parseOptions_iff ..).mp hread
      have hnone : ∀ key, OptionKey.Absent start key := by
        rw [hfields]
        intro key
        cases key <;> exact Eq.refl _
      obtain ⟨⟨hitemFile, hitemGap, hitemRoute, hitemLine⟩, habsent⟩ :=
        (eq_copyAll_iff hnone).mp hresult
      have hline : start.line = number := by rw [hfields]
      rw [← hitemFile] at hfile hspaced
      rw [← hitemGap] at hgap hframes
      rw [← hitemRoute] at hroute hspaced
      exact ⟨hitemLine.trans hline,
        ⟨hfile, hframes, hroute, inRange_options hall habsent hseed⟩,
        gap, words, keys, hspaced, hgap, hnodup, hwords, habsent⟩
    · cases h
  · rintro ⟨rfl, hrange, gap, words, keys, hspaced, hgap, hnodup, hwords, habsent⟩
    have hstart := (parseFields_iff item.file.chars gap (routeName item.route) offered
      { line := item.line }
      { file := item.file, gap := item.gap, route := item.route, line := item.line }).mpr
        ⟨⟨rfl, hrange.file⟩, ⟨hgap, hrange.gap⟩, ⟨rfl, hrange.route⟩, rfl⟩
    have hnone : ∀ key, OptionKey.Absent
        { file := item.file, gap := item.gap, route := item.route, line := item.line } key := by
      intro key
      cases key <;> exact Eq.refl _
    have hread := (parseOptions_iff words _ item []).mpr ⟨keys, hnodup, fun _ _ => List.not_mem_nil, hwords,
      fun key _ => OptionKey.allows_of_inRange (hrange.options key),
      (eq_copyAll_iff hnone).mpr ⟨⟨rfl, rfl, rfl, rfl⟩, habsent⟩⟩
    have hallWords := hrange.words hgap ⟨hnodup, hwords, habsent⟩
    unfold parseLine
    rw [hspaced.printable hallWords, hspaced.tokens_eq hallWords, if_neg (by decide)]
    dsimp only
    rw [hstart]
    dsimp only
    rw [hread]
    dsimp only
    rw [if_neg]
    rintro ⟨hseed, hscenario⟩
    obtain hnoSeed | hchars := hrange.options .seed
    · rw [hnoSeed] at hseed
      cases hseed
    · exact hchars (List.isEmpty_iff.mp hscenario)

section
variable {number : LineNumber} {offered : OfferedRoutes} {line line' : List Char}
  {file gap route : List Char} {options options' : List (List Char)}

/-- The item of a line, by the line's words. -/
theorem parseLine_words_iff {words : List (List Char)} (hspaced : Spaced words line)
    (hwords : ∀ word ∈ words, Word word) (item : Item) :
    parseLine line number offered = .ok (some item) ↔ item.line = number ∧
      InRange offered item ∧ ∃ gap options keys,
        words = item.file.chars :: gap :: routeName item.route :: options ∧
        SpellsFrames gapMaxWholeDigits gap item.gap ∧ WritesOptions item options keys := by
  rw [parseLine_iff]
  refine and_congr_right fun _ => and_congr_right fun hrange => ?_
  constructor
  · rintro ⟨gap, options, keys, hwritten, hgap, hoptions⟩
    refine ⟨gap, options, keys, ?_, hgap, hoptions⟩
    rw [← hspaced.tokens_eq hwords, hwritten.tokens_eq (hrange.words hgap hoptions)]
  · rintro ⟨gap, options, keys, rfl, hgap, hoptions⟩
    exact ⟨gap, options, keys, hspaced, hgap, hoptions⟩

theorem WritesOptions.perm {item : Item} {keys : List OptionKey}
    (h : WritesOptions item options keys) (hperm : options.Perm options') :
    ∃ keys', WritesOptions item options' keys' := by
  obtain ⟨hnodup, hwords, habsent⟩ := h
  obtain ⟨keys', hwords', hkeys⟩ := List.perm_comp_forall₂ hperm.symm hwords.flip
  exact ⟨keys', hkeys.nodup_iff.mpr hnodup, hwords'.flip,
    fun key hkey => habsent key (mt hkeys.mem_iff.mpr hkey)⟩

/-- A line of words with a file, a gap and a route is never blank. -/
theorem parseLine_ne_none (hspaced : Spaced (file :: gap :: route :: options) line)
    (hwords : ∀ word ∈ file :: gap :: route :: options, Word word) :
    parseLine line number offered ≠ .ok none := by
  intro h
  unfold parseLine at h
  rw [hspaced.printable hwords, hspaced.tokens_eq hwords, if_neg (by decide)] at h
  dsimp only at h
  split at h
  · cases h
  split at h
  · cases h
  split at h <;> cases h

theorem parseLine_perm (hspaced : Spaced (file :: gap :: route :: options) line)
    (hspaced' : Spaced (file :: gap :: route :: options') line')
    (hwords : ∀ word ∈ file :: gap :: route :: options, Word word)
    (hperm : options.Perm options') (result : Option Item)
    (h : parseLine line number offered = .ok result) :
    parseLine line' number offered = .ok result := by
  have hwords' : ∀ word ∈ file :: gap :: route :: options', Word word := fun word hword =>
    hwords word ((((hperm.cons route).cons gap).cons file).mem_iff.mpr hword)
  cases result with
  | none => exact absurd h (parseLine_ne_none hspaced hwords)
  | some item =>
    obtain ⟨hline, hrange, gap', written, keys, heq, hgap, hoptions⟩ :=
      (parseLine_words_iff hspaced hwords item).mp h
    cases heq
    obtain ⟨keys', hoptions'⟩ := hoptions.perm hperm
    exact (parseLine_words_iff hspaced' hwords' item).mpr
      ⟨hline, hrange, gap, options', keys', rfl, hgap, hoptions'⟩

theorem exists_keys_of_sublist {item : Item} {keys : List OptionKey}
    {chosen words : List (List Char)} (hchosen : chosen.Sublist words)
    (h : List.Forall₂ (WritesOption item) keys words) :
    ∃ keys', keys'.Sublist keys ∧ List.Forall₂ (WritesOption item) keys' chosen := by
  induction hchosen generalizing keys with
  | slnil =>
    cases h
    exact ⟨[], .slnil, .nil⟩
  | cons word _ ih =>
    cases h with
    | cons _ h =>
      obtain ⟨keys', hkeys, hwords⟩ := ih h
      exact ⟨keys', hkeys.cons _, hwords⟩
  | cons_cons word _ ih =>
    cases h with
    | cons hword h =>
      obtain ⟨keys', hkeys, hwords⟩ := ih h
      exact ⟨_, hkeys.cons_cons _, .cons hword hwords⟩

theorem parseLine_repeated {key : OptionKey} {a b : List Char}
    (hspaced : Spaced (file :: gap :: route :: options) line)
    (hwords : ∀ word ∈ file :: gap :: route :: options, Word word)
    (htwice : List.Sublist [key.text ++ a, key.text ++ b] options) :
    ∃ status, parseLine line number offered = .error status := by
  cases hparse : parseLine line number offered with
  | error status => exact ⟨status, rfl⟩
  | ok result =>
    cases result with
    | none => exact absurd hparse (parseLine_ne_none hspaced hwords)
    | some item =>
      obtain ⟨-, -, _, _, keys, heq, -, hnodup, hoptions, -⟩ :=
        (parseLine_words_iff hspaced hwords item).mp hparse
      cases heq
      obtain ⟨keys', hsublist, hkeys⟩ := exists_keys_of_sublist htwice hoptions
      obtain _ | ⟨⟨_, hfirst, -⟩, _ | ⟨⟨_, hsecond, -⟩, _ | _⟩⟩ := hkeys
      obtain ⟨rfl, -⟩ := OptionKey.text_append_inj hfirst
      obtain ⟨rfl, -⟩ := OptionKey.text_append_inj hsecond
      exact absurd (hnodup.sublist hsublist) (by simp)

end

theorem byteChar_toNat (byte : UInt8) : (byteChar byte).toNat = byte.toNat := by
  have hbyte := UInt8.toNat_lt byte
  have hvalid : byte.toNat.isValidChar := .inl (by omega)
  unfold byteChar Char.ofNat
  rw [dif_pos hvalid]
  rfl

/-- A byte that is not printable and no tab is refused. -/
theorem parseLine_unprintable {bytes : List UInt8} {byte : UInt8} (hbyte : byte ∈ bytes)
    (hprintable : ¬(32 ≤ byte ∧ byte ≤ 126)) (htab : byte ≠ 9) (number : LineNumber)
    (offered : OfferedRoutes) :
    parseLine (bytes.map byteChar) number offered = .error badSyntax := by
  have hchar : isLineChar (byteChar byte) = false := by
    rw [isLineChar, Bool.or_eq_false_iff, beq_eq_false_iff_ne, Bool.and_eq_false_imp]
    have hvalue := byteChar_toNat byte
    rw [UInt8.le_iff_toNat_le, UInt8.le_iff_toNat_le] at hprintable
    constructor
    · intro hfirst
      rw [decide_eq_true_eq, Char.le_def, UInt32.le_iff_toNat_le] at hfirst
      rw [decide_eq_false_iff_not, Char.le_def, UInt32.le_iff_toNat_le]
      exact fun hlast => hprintable ⟨hvalue ▸ hfirst, hvalue ▸ hlast⟩
    · intro heq
      rw [heq] at hvalue
      exact htab (UInt8.toNat_inj.mp hvalue.symm)
  unfold parseLine
  rw [if_pos]
  rw [Bool.not_eq_true', List.all_eq_false]
  exact ⟨_, List.mem_map_of_mem hbyte, by rw [hchar]; decide⟩

/-- A line of the file is refused so too, but for a CR that ends it. -/
theorem readLine_unprintable {bytes : List UInt8} {byte : UInt8}
    (hbyte : byte ∈ if bytes.getLast? = some 13 then bytes.dropLast else bytes)
    (hprintable : ¬(32 ≤ byte ∧ byte ≤ 126)) (htab : byte ≠ 9) (table : ItemTable)
    (number : LineNumber) (offered : OfferedRoutes) :
    ∃ status, readLine offered table number bytes = .error status := by
  have hline : withoutCr (bytes.map byteChar) =
      (if bytes.getLast? = some 13 then bytes.dropLast else bytes).map byteChar :=
    (Host.withoutCr_agrees bytes).symm
  unfold readLine
  split
  · exact ⟨_, rfl⟩
  · rw [hline, parseLine_unprintable hbyte hprintable htab]
    exact ⟨_, rfl⟩

/-- The grammar of a line: its item is the one in range that it writes, in whatever order, spacing
and spelling; an option given twice and a byte that is not printable are refused. -/
theorem lineGrammar (number : LineNumber) (offered : OfferedRoutes) :
    (∀ line item, parseLine line number offered = .ok (some item) ↔
      item.line = number ∧ InRange offered item ∧ Writes line item) ∧
    (∀ file gap route options options' line line',
      Spaced (file :: gap :: route :: options) line →
      Spaced (file :: gap :: route :: options') line' →
      (∀ word ∈ file :: gap :: route :: options, Word word) → options.Perm options' →
      ∀ result, parseLine line number offered = .ok result ↔
        parseLine line' number offered = .ok result) ∧
    (∀ file gap route options line (key : OptionKey) a b,
      Spaced (file :: gap :: route :: options) line →
      (∀ word ∈ file :: gap :: route :: options, Word word) →
      List.Sublist [key.text ++ a, key.text ++ b] options →
      ∃ status, parseLine line number offered = .error status) ∧
    (∀ (bytes : List UInt8), ∀ byte ∈ bytes, ¬(32 ≤ byte ∧ byte ≤ 126) → byte ≠ 9 →
      parseLine (bytes.map byteChar) number offered = .error badSyntax) ∧
    ∀ (table : ItemTable) (bytes : List UInt8),
      ∀ byte ∈ if bytes.getLast? = some 13 then bytes.dropLast else bytes,
        ¬(32 ≤ byte ∧ byte ≤ 126) → byte ≠ 9 →
        ∃ status, readLine offered table number bytes = .error status := by
  refine ⟨fun line item => parseLine_iff line number offered item, ?_,
    fun _ _ _ _ _ _ _ _ hspaced hwords htwice => parseLine_repeated hspaced hwords htwice,
    fun _ _ hbyte hprintable htab => parseLine_unprintable hbyte hprintable htab number offered,
    fun table _ _ hbyte hprintable htab =>
      readLine_unprintable hbyte hprintable htab table number offered⟩
  intro file gap route options options' line line' hspaced hspaced' hwords hperm result
  have hwords' : ∀ word ∈ file :: gap :: route :: options', Word word := fun word hword =>
    hwords word ((((hperm.cons route).cons gap).cons file).mem_iff.mpr hword)
  exact ⟨parseLine_perm hspaced hspaced' hwords hperm result,
    parseLine_perm hspaced' hspaced hwords' hperm.symm result⟩

/-- A line with its tokens written out. -/
theorem spaced_of_tokens {line : List Char} {words : List (List Char)}
    (h : line.all isLineChar = true) (htokens : tokens line = words) :
    Spaced words line ∧ ∀ word ∈ words, Word word := htokens ▸ spaced_tokens h

theorem length_noLabel : ([] : List Char).length ≤ labelMaxChars := by decide

theorem noAttenuation_le : (0 : UInt32) ≤ Attenuation.maxTenths := by decide

/-- A half-second gap behind a tab, with a scenario, its seed and a comment. -/
def seeded : Item where
  file := ⟨"A.WAV".toList, by decide⟩
  gap := 24000
  label := ⟨[], length_noLabel⟩
  attenuation := ⟨0, noAttenuation_le⟩
  scenario := ⟨"B.SCN".toList, by decide⟩
  seed := some 7
  line := 3

theorem seeded_inRange : InRange {} seeded where
  file := ⟨['A'], rfl, by decide, by decide, by decide⟩
  gap := ⟨500, by decide, by decide, by decide⟩
  route := nofun
  options
  | .label => nofun
  | .scn => .inr ⟨['B'], rfl, by decide, by decide, by decide⟩
  | .seed => .inr (by decide)
  | .cut => trivial
  | .att => trivial
  | .dur => nofun

theorem seeded_writes : Writes "A.WAV\t0.50 CODEC  seed=7 scn=B.SCN # x".toList seeded := by
  refine ⟨"0.50".toList, ["seed=7".toList, "scn=B.SCN".toList], [.seed, .scn],
    (spaced_of_tokens (by decide) (by decide +kernel)).1, ⟨500, ?_, by decide⟩, by decide, ?_, ?_⟩
  · have hzero : Host.Canonical ['0'] := ⟨by decide, by decide, by decide⟩
    exact @SpellsSeconds.decimals 4 ['0'] ['5', '0'] hzero (by decide) (by decide) (by decide)
      (by decide)
  · exact .cons ⟨['7'], rfl, 7, rfl, rfl⟩ (.cons ⟨"B.SCN".toList, rfl, by decide, rfl⟩ .nil)
  · intro key hkey
    cases key with
    | seed | scn => exact absurd hkey (by decide)
    | label | cut | att | dur => rfl

theorem lineGrammar_seeded :
    parseLine "A.WAV\t0.50 CODEC  seed=7 scn=B.SCN # x".toList 3 {} = .ok (some seeded) ∧
    (∀ result, parseLine "A.WAV 0 CODEC seed=7 scn=B.SCN".toList 3 {} = .ok result ↔
      parseLine "A.WAV 0 CODEC scn=B.SCN\tseed=7".toList 3 {} = .ok result) ∧
    (∃ status, parseLine "A.WAV 0 CODEC scn=B.SCN scn=C.SCN".toList 3 {} = .error status) ∧
    parseLine ([7].map byteChar) 3 {} = .error badSyntax ∧
    ∃ status, readLine {} {} 3 [7, 13] = .error status := by
  obtain ⟨hread, hperm, htwice, hbyte, hline⟩ := lineGrammar 3 {}
  have hfirst := @spaced_of_tokens "A.WAV 0 CODEC seed=7 scn=B.SCN".toList
    ["A.WAV".toList, ['0'], "CODEC".toList, "seed=7".toList, "scn=B.SCN".toList]
    (by decide) (by decide +kernel)
  have hsecond := @spaced_of_tokens "A.WAV 0 CODEC scn=B.SCN\tseed=7".toList
    ["A.WAV".toList, ['0'], "CODEC".toList, "scn=B.SCN".toList, "seed=7".toList]
    (by decide) (by decide +kernel)
  have hrepeated := @spaced_of_tokens "A.WAV 0 CODEC scn=B.SCN scn=C.SCN".toList
    ["A.WAV".toList, ['0'], "CODEC".toList, "scn=B.SCN".toList, "scn=C.SCN".toList]
    (by decide) (by decide +kernel)
  exact ⟨(hread _ _).mpr ⟨rfl, seeded_inRange, seeded_writes⟩,
    hperm _ _ _ _ _ _ _ hfirst.1 hsecond.1 hfirst.2 (.swap ..),
    htwice _ _ _ _ _ .scn "B.SCN".toList "C.SCN".toList hrepeated.1 hrepeated.2 (.refl _),
    hbyte [7] 7 (by decide) (by decide) (by decide),
    hline {} [7, 13] 7 (by decide) (by decide) (by decide)⟩

end WaveformGenerator.PlaylistFile
