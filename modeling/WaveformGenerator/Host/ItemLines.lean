import WaveformGenerator.Host.NumberWords

/-!
# The line of a JSON item

An object's fields come back from its line if none of them has a blank in it, the first three have
text and the line is no comment.
-/

namespace WaveformGenerator.Host

open Text

/-! ## Words -/

theorem board_tokens_nil : PlaylistFile.tokens [] = [] := by
  rw [board_tokens_eq]
  rfl

/-- Words joined with spaces are a line's tokens, up to one that starts a comment. -/
theorem tokens_words {words : List (List Char)} (hwords : ∀ word ∈ words, word ≠ [] ∧ Plain word) :
    tokens ([' '].intercalate words) = words.takeWhile fun word => word.head? ≠ some '#' := by
  rw [tokens_agree]
  induction words with
  | nil => exact board_tokens_nil
  | cons word words ih =>
    obtain ⟨hne, hplain⟩ := hwords word List.mem_cons_self
    have hrest : PlaylistFile.tokens ([' '].intercalate words) =
        words.takeWhile fun word => word.head? ≠ some '#' :=
      ih fun other hmem => hwords other (List.mem_cons_of_mem _ hmem)
    have hjoin : ∃ behind, [' '].intercalate (word :: words) = word ++ behind ∧
        (∀ c, behind.head? = some c → isSeparator c = true) ∧
        PlaylistFile.tokens behind = words.takeWhile fun word => word.head? ≠ some '#' := by
      cases words with
      | nil =>
        refine ⟨[], ?_, nofun, board_tokens_nil⟩
        rw [List.append_nil, List.intercalate_singleton]
      | cons next words =>
        refine ⟨' ' :: [' '].intercalate (next :: words), ?_, fun c hc => ?_, ?_⟩
        · rw [List.intercalate_cons_cons, List.append_assoc]
          rfl
        · cases hc
          rfl
        · rw [← hrest, ← tokens_dropWhile, List.dropWhile_cons_of_pos rfl, tokens_dropWhile]
    obtain ⟨behind, hjoin, hbehind, htokens⟩ := hjoin
    rw [hjoin, tokens_word hplain hne hbehind, htokens]
    by_cases hcomment : word.head? = some '#'
    · rw [if_pos hcomment, List.takeWhile_cons_of_neg (by simpa using hcomment)]
    · rw [if_neg hcomment, List.takeWhile_cons_of_pos (by simpa using hcomment)]

/-! ## Lines -/

/-- A line without a word, or one with an item: its tokens, and what they were read as. -/
theorem of_parseLine {text : List Char} {line : Nat} {offered : Bool} {parsed : Option Item}
    (h : parseLine text line offered = .ok parsed) :
    tokens text = [] ∧ parsed = none ∨ ∃ item gap route words options, parsed = some item ∧
      tokens text = item.file :: gap :: route :: words ∧
      (wavPattern.fullmatch item.file).isSome = true ∧ item.line = line ∧
      parseGap gap line = .ok item.gapFrames ∧ routeOf route = some item.route ∧
      parseOptions line {} words = .ok options ∧
      item.label = options.label ∧ item.scenario = options.scn ∧ item.seed = options.seed ∧
      item.cuts = options.cut.getD [] ∧ item.attenuationTenths = options.att.getD 0 ∧
      item.durationFrames = options.dur := by
  unfold parseLine at h
  split at h
  · cases h
  split at h
  case h_1 htokens =>
    cases h
    exact .inl ⟨htokens, rfl⟩
  case h_2 file gap route words htokens =>
    split at h
    · cases h
    case isFalse hfile =>
      cases hgap : parseGap gap line with
      | error error =>
        rw [hgap] at h
        cases h
      | ok frames =>
        rw [hgap] at h
        dsimp only [bind, Except.bind] at h
        cases hroute : routeOf route with
        | none =>
          rw [hroute] at h
          cases h
        | some output =>
          rw [hroute] at h
          dsimp only at h
          split at h
          · cases h
          cases hoptions : parseOptions line {} words with
          | error error =>
            rw [hoptions] at h
            cases h
          | ok options =>
            rw [hoptions] at h
            dsimp only [pure, Except.pure] at h
            split at h
            · cases h
            · cases h
              refine .inr ⟨_, gap, route, words, options, rfl, htokens, ?_, rfl, hgap, hroute,
                hoptions, rfl, rfl, rfl, rfl, rfl, rfl⟩
              rwa [Option.isNone_iff_eq_none, ← ne_eq, Option.ne_none_iff_isSome] at hfile
  · cases h

/-! ## Options -/

section
variable {line : Nat} {options result : Options} {text : List Char} {words : List (List Char)}

theorem of_parseOptions_cons {token : List Char}
    (h : parseOptions line options (token :: words) = .ok result) :
    ∃ next, parseOption token line options = .ok next ∧
      parseOptions line next words = .ok result := by
  unfold parseOptions at h
  cases hnext : parseOption token line options with
  | error error =>
    rw [hnext] at h
    cases h
  | ok next =>
    rw [hnext] at h
    exact ⟨next, rfl, h⟩

/-- An option that is read: it was not there yet, and its value is well spelt. -/
inductive Read (line : Nat) (options : Options) (text : List Char) : String → Options → Prop
  | label (hpattern : (labelPattern.fullmatch text).isSome = true) :
    Read line options text "label" { options with label := some text }
  | scn (hpattern : (scnPattern.fullmatch text).isSome = true) :
    Read line options text "scn" { options with scn := some text }
  | seed (hpattern : (decimalPattern.fullmatch text).isSome = true) :
    Read line options text "seed" { options with seed := some (decimal text) }
  | cut {cuts : List CutEntry} (hcuts : parseCuts text line = .ok cuts) :
    Read line options text "cut" { options with cut := some cuts }
  | att {tenths : Nat} (htenths : parseAttenuation text = .ok tenths) :
    Read line options text "att" { options with att := some tenths }
  | dur {frames : Nat} (hframes : parseDuration text line = .ok frames) :
    Read line options text "dur" { options with dur := some frames }

theorem of_parseOption {token : List Char} (h : parseOption token line options = .ok result) :
    ∃ key text, token = key.toList ++ '=' :: text ∧ key ∈ optionKeys ∧
      Read line options text key result := by
  have hsome : ∀ {r : Regex} {text : List Char}, ¬(r.fullmatch text).isNone = true →
      (r.fullmatch text).isSome = true := fun h => by
    rwa [Option.isNone_iff_eq_none, ← ne_eq, Option.ne_none_iff_isSome] at h
  obtain ⟨-, hsplit⟩ := splitFirst_spec '=' token
  unfold parseOption at h
  generalize splitFirst '=' token = parts at h hsplit
  obtain ⟨key, _ | text⟩ := parts
  · cases h
  rw [hsplit]
  dsimp only at h ⊢
  split at h
  · rename_i hkey
    refine ⟨"label", text, by rw [hkey], by decide, ?_⟩
    split at h
    · cases h
    split at h
    · cases h
    · rename_i hpattern
      cases h
      exact .label (hsome hpattern)
  split at h
  · rename_i hkey
    refine ⟨"scn", text, by rw [hkey], by decide, ?_⟩
    split at h
    · cases h
    split at h
    · cases h
    · rename_i hpattern
      cases h
      exact .scn (hsome hpattern)
  split at h
  · rename_i hkey
    refine ⟨"seed", text, by rw [hkey], by decide, ?_⟩
    split at h
    · cases h
    split at h
    · cases h
    · rename_i hpattern
      cases h
      exact .seed (hsome (not_or.mp hpattern).1)
  split at h
  · rename_i hkey
    refine ⟨"cut", text, by rw [hkey], by decide, ?_⟩
    split at h
    · cases h
    cases hcuts : parseCuts text line with
    | error error =>
      rw [hcuts] at h
      cases h
    | ok cuts =>
      rw [hcuts] at h
      cases h
      exact .cut hcuts
  split at h
  · rename_i hkey
    refine ⟨"att", text, by rw [hkey], by decide, ?_⟩
    split at h
    · cases h
    cases htenths : parseAttenuation text with
    | error error =>
      rw [htenths] at h
      cases h
    | ok tenths =>
      rw [htenths] at h
      cases h
      exact .att htenths
  split at h
  · rename_i hkey
    refine ⟨"dur", text, by rw [hkey], by decide, ?_⟩
    split at h
    · cases h
    cases hframes : parseDuration text line with
    | error error =>
      rw [hframes] at h
      cases h
    | ok frames =>
      rw [hframes] at h
      cases h
      exact .dur hframes
  · cases h

theorem equals_not_mem {key : String} (hkey : key ∈ optionKeys) : '=' ∉ key.toList := by
  have hall : ∀ key ∈ optionKeys, '=' ∉ key.toList := by decide
  exact hall key hkey

theorem read_of_parseOption {key : String} (hkey : key ∈ optionKeys)
    (h : parseOption (key.toList ++ '=' :: text) line options = .ok result) :
    Read line options text key result := by
  obtain ⟨key', text', htoken, hkey', hread⟩ := of_parseOption h
  have hparts := congrArg (splitFirst '=') htoken
  rw [splitFirst_append (equals_not_mem hkey), splitFirst_append (equals_not_mem hkey')] at hparts
  obtain ⟨hsame, htext⟩ := Prod.mk.inj hparts
  rw [String.toList_inj.mp hsame, Option.some.inj htext]
  exact hread

/-- Options whose names are spelt as the grammar has them. -/
structure Options.WellSpelt (options : Options) : Prop where
  label : ∀ text ∈ options.label, (labelPattern.fullmatch text).isSome = true
  scn : ∀ text ∈ options.scn, (scnPattern.fullmatch text).isSome = true

theorem Read.wellSpelt {key : String} (hread : Read line options text key result)
    (h : options.WellSpelt) : result.WellSpelt := by
  cases hread with
  | label hpattern => exact ⟨fun _ htext => Option.some.inj htext ▸ hpattern, h.scn⟩
  | scn hpattern => exact ⟨h.label, fun _ htext => Option.some.inj htext ▸ hpattern⟩
  | seed | cut | att | dur => exact ⟨h.label, h.scn⟩

theorem parseOptions_wellSpelt (h : parseOptions line options words = .ok result)
    (hoptions : options.WellSpelt) : result.WellSpelt := by
  induction words generalizing options with
  | nil =>
    cases h
    exact hoptions
  | cons token words ih =>
    obtain ⟨next, hnext, hrest⟩ := of_parseOptions_cons h
    obtain ⟨_, _, -, -, hread⟩ := of_parseOption hnext
    exact ih hrest (hread.wellSpelt hoptions)

end

/-! ## What an object asks for -/

/-- The seed a value is: an integer, or the decimal its text spells. -/
inductive SaysSeed : JsonValue → Nat → Prop
  | int (seed : Nat) : SaysSeed (.int seed) seed
  | text {value : JsonValue} (hint : ∀ number, value ≠ .int number)
    (hpattern : (decimalPattern.fullmatch value.text).isSome = true) :
    SaysSeed value (decimal value.text)

/-- Options that have the values asked for, and no others. -/
structure Asked (line : Nat) (asked : String → Option JsonValue) (options : Options) : Prop where
  label : options.label = (asked "label").map JsonValue.text
  scn : options.scn = (asked "scn").map JsonValue.text
  seed : Option.Rel SaysSeed (asked "seed") options.seed
  cut : Option.Rel (fun value cuts => parseCuts value.text line = .ok cuts) (asked "cut")
    options.cut
  att : Option.Rel SaysTenths (asked "att") options.att
  dur : Option.Rel (SaysSeconds parseDuration line) (asked "dur") options.dur

/-- An item with an object's own file, gap, route and options. -/
structure Own (members : List (String × JsonValue)) (item : Item) : Prop where
  file : item.file = (memberOf members "file").text
  gap : SaysSeconds parseGap item.line (memberOf members "gap") item.gapFrames
  route : routeOf (memberOf members "route").text = some item.route
  options : ∃ options : Options, Asked item.line (optionOf members) options ∧
    item.label = options.label ∧ item.scenario = options.scn ∧ item.seed = options.seed ∧
    item.cuts = options.cut.getD [] ∧ item.attenuationTenths = options.att.getD 0 ∧
    item.durationFrames = options.dur

/-- Fields that stay themselves on a line: none has a blank in it, the first three have text and the
first starts no comment. -/
structure Clean (members : List (String × JsonValue)) : Prop where
  plain : ∀ key ∈ "file" :: "gap" :: "route" :: optionKeys, ∀ value,
    members.lookup key = some value → Plain value.text
  file : (memberOf members "file").text ≠ [] ∧ (memberOf members "file").text.head? ≠ some '#'
  gap : (memberOf members "gap").text ≠ []
  route : (memberOf members "route").text ≠ []

section
variable {line : Nat} {asked : String → Option JsonValue} {options result : Options}
  {members : List (String × JsonValue)} {text : List Char}

theorem text_natCast (n : Nat) : (JsonValue.int n).text = Nat.toDigits 10 n := by
  show signText (decide ((n : Int) < 0)) ++ Nat.toDigits 10 n = _
  rw [decide_eq_false (Int.not_lt.mpr (Int.natCast_nonneg n))]
  rfl

theorem saysSeed_of_text {value : JsonValue}
    (hpattern : (decimalPattern.fullmatch value.text).isSome = true) :
    SaysSeed value (decimal value.text) := by
  by_cases hint : ∃ number, value = .int number
  · obtain ⟨number, rfl⟩ := hint
    cases number with
    | ofNat seed =>
      have hvalue : decimal (JsonValue.int seed).text = seed := by
        rw [text_natCast, decimal_toDigits]
      show SaysSeed (.int seed) (decimal (JsonValue.int seed).text)
      rw [hvalue]
      exact .int seed
    | negSucc number =>
      have hdigits := ((canonical_iff_fullmatch _).mp hpattern).2.1
      have hmem : '-' ∈ (JsonValue.int (.negSucc number)).text := by
        show '-' ∈ signText (decide (Int.negSucc number < 0)) ++ _
        rw [decide_eq_true (Int.negSucc_lt_zero number)]
        exact List.mem_cons_self
      exact absurd (List.all_eq_true.mp hdigits '-' hmem) (by decide)
  · exact .text (not_exists.mp hint) hpattern

/-- An option that is read is the one its value asks for. -/
theorem Asked.read {key : String} {value : JsonValue} (hasked : Asked line asked options)
    (htext : optionText key value = .ok text) (hread : Read line options text key result) :
    Asked line (Function.update asked key (some value)) result := by
  obtain ⟨hlabel, hscn, hseed, hcut, hatt, hdur⟩ := hasked
  cases hread with
  | label =>
    cases htext
    constructor <;> simp [Function.update, *]
  | scn =>
    cases htext
    constructor <;> simp [Function.update, *]
  | seed hpattern =>
    cases htext
    have hseed := saysSeed_of_text hpattern
    constructor <;> simpa [Function.update]
  | cut hcuts =>
    cases htext
    constructor <;> simpa [Function.update]
  | att htenths =>
    have hatt := saysTenths_of_word htext htenths
    constructor <;> simpa [Function.update]
  | dur hframes =>
    have hdur := saysSeconds_of_word (fun _ _ => of_parseDuration) htext hframes
    constructor <;> simpa [Function.update]

theorem Asked.congr {other : String → Option JsonValue} (hasked : Asked line asked options)
    (h : ∀ key ∈ optionKeys, asked key = other key) : Asked line other options := by
  obtain ⟨hlabel, hscn, hseed, hcut, hatt, hdur⟩ := hasked
  rw [h _ (by decide)] at hlabel hscn hseed hcut hatt hdur
  exact ⟨hlabel, hscn, hseed, hcut, hatt, hdur⟩

/-- What is asked for once the options `keys` of an object have been gone through. -/
def askedBy (members : List (String × JsonValue)) (keys : List String)
    (asked : String → Option JsonValue) : String → Option JsonValue :=
  keys.foldl (fun asked key => Function.update asked key (optionOf members key)) asked

theorem askedBy_apply (keys : List String) (key : String) :
    askedBy members keys asked key = if key ∈ keys then optionOf members key else asked key := by
  unfold askedBy
  induction keys generalizing asked with
  | nil => rfl
  | cons other keys ih =>
    rw [List.foldl_cons, ih]
    by_cases hlater : key ∈ keys
    · rw [if_pos hlater, if_pos (List.mem_cons_of_mem _ hlater)]
    rw [if_neg hlater]
    by_cases hother : key = other
    · rw [hother, Function.update_self, if_pos List.mem_cons_self]
    · rw [Function.update_of_ne hother, if_neg (by simp [hother, hlater])]

/-- An option that is left out, or its word. -/
theorem of_optionWords_cons {key : String} {keys : List String} {words : List (List Char)}
    (h : optionWords members (key :: keys) = .ok words) :
    (optionOf members key = none ∧ optionWords members keys = .ok words) ∨
      ∃ value text later, optionOf members key = some value ∧ optionText key value = .ok text ∧
        optionWords members keys = .ok later ∧ words = (key.toList ++ '=' :: text) :: later := by
  unfold optionWords at h
  cases hvalue : optionOf members key with
  | none =>
    rw [hvalue] at h
    exact .inl ⟨rfl, h⟩
  | some value =>
    rw [hvalue] at h
    dsimp only [bind, Except.bind] at h
    cases htext : optionText key value with
    | error error =>
      rw [htext] at h
      cases h
    | ok text =>
      rw [htext] at h
      dsimp only at h
      cases hlater : optionWords members keys with
      | error error =>
        rw [hlater] at h
        cases h
      | ok later =>
        rw [hlater] at h
        cases h
        exact .inr ⟨value, text, later, rfl, htext, rfl, rfl⟩

theorem asked_optionWords {keys : List String} {words : List (List Char)}
    (hkeys : ∀ key ∈ keys, key ∈ optionKeys) (hnodup : keys.Nodup)
    (hnone : ∀ key ∈ keys, asked key = none) (hwords : optionWords members keys = .ok words)
    (hparse : parseOptions line options words = .ok result) (hasked : Asked line asked options) :
    Asked line (askedBy members keys asked) result := by
  induction keys generalizing words asked options with
  | nil =>
    cases hwords
    cases hparse
    exact hasked
  | cons key keys ih =>
    rw [List.nodup_cons] at hnodup
    have hrest : ∀ {value : Option JsonValue}, ∀ other ∈ keys,
        Function.update asked key value other = none := fun other hother => by
      have hne : other ≠ key := by
        rintro rfl
        exact hnodup.1 hother
      rw [Function.update_of_ne hne]
      exact hnone other (List.mem_cons_of_mem _ hother)
    have hkeys' : ∀ other ∈ keys, other ∈ optionKeys := fun other hother =>
      hkeys other (List.mem_cons_of_mem _ hother)
    unfold askedBy
    rw [List.foldl_cons]
    obtain ⟨hvalue, hwords⟩ | ⟨value, text, later, hvalue, htext, hlater, rfl⟩ :=
      of_optionWords_cons hwords
    · rw [hvalue]
      refine ih hkeys' hnodup.2 hrest hwords hparse ?_
      rwa [Function.update_eq_self_iff.mpr (hnone key List.mem_cons_self).symm]
    · rw [hvalue]
      obtain ⟨next, hnext, hparse⟩ := of_parseOptions_cons hparse
      exact ih hkeys' hnodup.2 hrest hlater hparse
        (hasked.read htext (read_of_parseOption (hkeys key List.mem_cons_self) hnext))

theorem optionText_plain {key : String} {value : JsonValue} (hvalue : Plain value.text)
    (h : optionText key value = .ok text) : Plain text := by
  unfold optionText at h
  split at h
  · exact plain_attenuationFromJson hvalue h
  split at h
  · obtain rfl | hword := gapFromJson_word h
    · exact hvalue
    · exact hword.1
  · cases h
    exact hvalue

/-- The words of an object's options: a key, `=` and plain text. -/
theorem optionWords_plain {keys : List String} {words : List (List Char)}
    (hkeys : ∀ key ∈ keys, key ∈ optionKeys)
    (hplain : ∀ key ∈ keys, ∀ value, members.lookup key = some value → Plain value.text)
    (hwords : optionWords members keys = .ok words) :
    ∀ word ∈ words, ∃ key ∈ optionKeys, ∃ text, word = key.toList ++ '=' :: text ∧ Plain text := by
  induction keys generalizing words with
  | nil =>
    cases hwords
    exact nofun
  | cons key keys ih =>
    have hrest := fun words => @ih words (fun other h => hkeys other (List.mem_cons_of_mem _ h))
      fun other h => hplain other (List.mem_cons_of_mem _ h)
    obtain ⟨-, hwords⟩ | ⟨value, text, later, hvalue, htext, hlater, rfl⟩ :=
      of_optionWords_cons hwords
    · exact hrest words hwords
    · intro word hword
      obtain rfl | hword := List.mem_cons.mp hword
      · obtain ⟨hlookup, -⟩ := Option.filter_eq_some_iff.mp hvalue
        exact ⟨key, hkeys key List.mem_cons_self, text, rfl,
          optionText_plain (hplain key List.mem_cons_self value hlookup) htext⟩
      · exact hrest later hlater word hword

theorem optionWord_spec {key : String} (hkey : key ∈ optionKeys) (hplain : Plain text) :
    let word := key.toList ++ '=' :: text
    word ≠ [] ∧ Plain word ∧ word.head? ≠ some '#' := by
  have hall : ∀ key ∈ optionKeys, key.toList ≠ [] ∧ Plain key.toList ∧
      key.toList.head? ≠ some '#' := by decide
  obtain ⟨hne, hword, hhead⟩ := hall key hkey
  refine ⟨List.append_ne_nil_of_left_ne_nil hne _, hword.append (.cons rfl hplain), ?_⟩
  rwa [List.head?_append_of_ne_nil _ hne]

/-! ## Names and cuts -/

theorem plain_of_class {accepted : Char → Bool} (hspace : accepted ' ' = false)
    (htab : accepted '\t' = false) (h : ∀ c ∈ text, accepted c = true) : Plain text := by
  intro c hc
  have haccepted := h c hc
  rw [isSeparator, Bool.or_eq_false_iff, beq_eq_false_iff_ne, beq_eq_false_iff_ne]
  constructor
  · rintro rfl
    rw [hspace] at haccepted
    cases haccepted
  · rintro rfl
    rw [htab] at haccepted
    cases haccepted

theorem plain_name {extension : List Char} (hextension : Plain extension)
    (h : ((Regex.seq nameStem (.literal extension)).fullmatch text).isSome = true) :
    Plain text := by
  obtain ⟨_, _, _, _, _, rfl, -, hstem, -, rfl⟩ := Regex.fullmatch_isSome_iff.mp h
  exact (plain_of_class (by decide) (by decide) hstem.2.2.2).append hextension

theorem name_head {extension : List Char}
    (h : ((Regex.seq nameStem (.literal extension)).fullmatch text).isSome = true) :
    text ≠ [] ∧ text.head? ≠ some '#' := by
  obtain ⟨_, stem, _, _, _, rfl, -, ⟨-, hleast, -, hstem⟩, -⟩ := Regex.fullmatch_isSome_iff.mp h
  have hne : stem ≠ [] := List.ne_nil_of_length_pos hleast
  refine ⟨List.append_ne_nil_of_left_ne_nil hne _, fun hhead => ?_⟩
  rw [List.head?_append_of_ne_nil _ hne] at hhead
  exact absurd (hstem _ (List.mem_of_mem_head? hhead)) (by decide)

theorem plain_label (h : (labelPattern.fullmatch text).isSome = true) : Plain text := by
  obtain ⟨_, htext⟩ := Regex.fullmatch_isSome_iff.mp h
  exact plain_of_class (by decide) (by decide) htext.2.2.2

theorem plain_printEntries (entries : List CutEntry) : Plain (printEntries entries) := by
  have hentry : ∀ entry : CutEntry, Plain entry.spelling.toList := fun entry => by
    rw [spelling_toList]
    have hkind : Plain (kindName entry.kind) := by
      cases entry.kind <;> decide
    exact (plain_toDigits _).append (.cons rfl ((plain_toDigits _).append (.cons rfl hkind)))
  induction entries with
  | nil => exact .nil
  | cons entry entries ih =>
    by_cases hlast : entries = []
    · rw [hlast, printEntries_singleton]
      exact hentry entry
    · rw [printEntries_cons entry hlast]
      exact (hentry entry).append (.cons rfl ih)

theorem plain_cuts {cuts : List CutEntry} (h : parseCuts text line = .ok cuts) : Plain text := by
  have hagree := parseEntries_agrees text
  unfold parseCuts at h
  cases hboard : Cut.parseEntries text with
  | error status =>
    rw [hboard] at hagree
    obtain ⟨error, herror⟩ := hagree
    rw [herror] at h
    cases h
  | ok list =>
    rw [((parseEntries_iff text list).mp hboard).2]
    exact plain_printEntries _

theorem SaysSeed.plain {value : JsonValue} {seed : Nat} (h : SaysSeed value seed) :
    Plain value.text := by
  cases h with
  | int seed =>
    rw [text_natCast]
    exact plain_toDigits seed
  | text _ hpattern => exact plain_digits ((canonical_iff_fullmatch _).mp hpattern).2.1

/-! ## Items -/

/-- An item whose names are spelt as the grammar has them. -/
structure Item.WellSpelt (item : Item) : Prop where
  file : (wavPattern.fullmatch item.file).isSome = true
  label : ∀ text ∈ item.label, (labelPattern.fullmatch text).isSome = true
  scenario : ∀ text ∈ item.scenario, (scnPattern.fullmatch text).isSome = true

theorem parseLine_wellSpelt {offered : Bool} {item : Item}
    (h : parseLine text line offered = .ok (some item)) : item.WellSpelt := by
  obtain ⟨-, hnone⟩ | ⟨_, _, _, _, options, hsome, -, hfile, -, -, -, hoptions, hlabel, hscn, -⟩ :=
    of_parseLine h
  · cases hnone
  cases hsome
  have hspelt := parseOptions_wellSpelt hoptions ⟨nofun, nofun⟩
  exact ⟨hfile, hlabel ▸ hspelt.label, hscn ▸ hspelt.scn⟩

/-- The value of an option is plain if it is when the option is asked for. -/
theorem plain_option {key : String} (h : ∀ value, optionOf members key = some value →
    Plain value.text) (value : JsonValue) (hvalue : members.lookup key = some value) :
    Plain value.text := by
  by_cases hnull : value = .null
  · rw [hnull]
    decide
  · exact h value (Option.filter_eq_some_iff.mpr ⟨hvalue, decide_eq_true hnull⟩)

theorem memberOf_eq {key : String} {value : JsonValue} (h : members.lookup key = some value) :
    memberOf members key = value := by
  rw [memberOf, h, Option.getD_some]

theorem plain_of_rel {α : Type} {means : JsonValue → α → Prop}
    (hmeans : ∀ value result, means value result → Plain value.text) {key : String}
    {result : Option α} (h : Option.Rel means (optionOf members key) result) (value : JsonValue)
    (hvalue : optionOf members key = some value) : Plain value.text := by
  rw [hvalue] at h
  cases h with
  | some hvalue => exact hmeans _ _ hvalue

/-- An object whose fields an item has is clean. -/
theorem Own.clean {item : Item} (hown : Own members item) (hspelt : item.WellSpelt) :
    Clean members := by
  obtain ⟨hfile, hgap, hroute, options, hasked, hlabel, hscenario, -⟩ := hown
  have hwav := plain_name (by decide) hspelt.file
  have hgapText := hgap.plain (fun _ _ => of_parseGap)
  have hrouteText : Plain (memberOf members "route").text ∧
      (memberOf members "route").text ≠ [] := by
    unfold routeOf at hroute
    split at hroute
    · rename_i husb
      rw [husb]
      decide
    split at hroute
    · rename_i hcodec
      rw [hcodec]
      decide
    · cases hroute
  refine ⟨?_, ?_, hgapText.2, hrouteText.2⟩
  · intro key hkey value hvalue
    simp only [optionKeys, List.mem_cons, List.not_mem_nil, or_false] at hkey
    obtain rfl | rfl | rfl | rfl | rfl | rfl | rfl | rfl | rfl := hkey
    · rw [hfile, memberOf_eq hvalue] at hwav
      exact hwav
    · exact memberOf_eq hvalue ▸ hgapText.1
    · exact memberOf_eq hvalue ▸ hrouteText.1
    · refine plain_option (fun value hvalue => plain_label (hspelt.label _ ?_)) value hvalue
      rw [hlabel, hasked.label, hvalue]
      rfl
    · refine plain_option (fun value hvalue => ?_) value hvalue
      refine plain_name (by decide) (hspelt.scenario _ ?_)
      rw [hscenario, hasked.scn, hvalue]
      rfl
    · exact plain_option (plain_of_rel (fun _ _ h => h.plain) hasked.seed) value hvalue
    · exact plain_option (plain_of_rel (fun _ _ => plain_cuts) hasked.cut) value hvalue
    · exact plain_option (plain_of_rel (fun _ _ h => h.plain) hasked.att) value hvalue
    · exact plain_option (plain_of_rel (fun _ _ h => (h.plain fun _ _ => of_parseDuration).1)
        hasked.dur) value hvalue
  · rw [← hfile]
    exact name_head hspelt.file

theorem of_itemLine (h : itemLine line (.object members) = .ok text) :
    ∃ gap options, gapFromJson "PLAYLIST_GAP" (memberOf members "gap") = .ok gap ∧
      optionWords members optionKeys = .ok options ∧
      text = [' '].intercalate
        ((memberOf members "file").text :: gap :: (memberOf members "route").text :: options) := by
  unfold itemLine itemWords at h
  dsimp only [bind, Except.bind, pure, Except.pure] at h
  split at h
  · cases h
  cases hgap : gapFromJson "PLAYLIST_GAP" (memberOf members "gap") with
  | error error =>
    rw [hgap] at h
    cases h
  | ok gap =>
    rw [hgap] at h
    dsimp only at h
    cases hoptions : optionWords members optionKeys with
    | error error =>
      rw [hoptions] at h
      cases h
    | ok options =>
      rw [hoptions] at h
      cases h
      exact ⟨gap, options, rfl, rfl, rfl⟩

theorem Clean.member {key : String} (h : Clean members)
    (hkey : key ∈ "file" :: "gap" :: "route" :: optionKeys) :
    Plain (memberOf members key).text := by
  cases hvalue : members.lookup key with
  | none =>
    rw [memberOf, hvalue]
    decide
  | some value =>
    rw [memberOf_eq hvalue]
    exact h.plain key hkey value hvalue

theorem Clean.optionWord {words : List (List Char)} (h : Clean members)
    (hwords : optionWords members optionKeys = .ok words) :
    ∀ word ∈ words, word ≠ [] ∧ Plain word ∧ word.head? ≠ some '#' := by
  intro word hword
  obtain ⟨key, hkey, text, rfl, htext⟩ := optionWords_plain (fun _ h => h)
    (fun key hkey => h.plain key (List.mem_append_right ["file", "gap", "route"] hkey)) hwords word
    hword
  exact optionWord_spec hkey htext

/-- The tokens of a clean object's line are its words, up to a comment behind its file. -/
theorem tokens_of_clean {gap : List Char} {options : List (List Char)} (hclean : Clean members)
    (hgap : gapFromJson "PLAYLIST_GAP" (memberOf members "gap") = .ok gap)
    (hoptions : optionWords members optionKeys = .ok options) :
    tokens ([' '].intercalate
        ((memberOf members "file").text :: gap :: (memberOf members "route").text :: options)) =
      (memberOf members "file").text ::
        (gap :: (memberOf members "route").text :: options).takeWhile (·.head? ≠ some '#') := by
  have hgapWord : gap ≠ [] ∧ Plain gap := by
    obtain hvalue | hword := gapFromJson_word hgap
    · have hgap := @Clean.member _ "gap" hclean (by decide)
      have hgapNil := hclean.gap
      rw [hvalue] at hgap hgapNil
      exact ⟨hgapNil, hgap⟩
    · exact hword.symm
  rw [tokens_words, List.takeWhile_cons_of_pos (by simpa using hclean.file.2)]
  intro word hword
  obtain rfl | rfl | rfl | hword := by simpa using hword
  · exact ⟨hclean.file.1, hclean.member (by decide)⟩
  · exact hgapWord
  · exact ⟨hclean.route, hclean.member (by decide)⟩
  · obtain ⟨hne, hplain, -⟩ := hclean.optionWord hoptions word hword
    exact ⟨hne, hplain⟩

/-- An accepted line of a clean object has an item with the object's fields. -/
theorem own_of_clean {offered : Bool} {parsed : Option Item}
    (hline : itemLine line (.object members) = .ok text)
    (hparse : parseLine text line offered = .ok parsed) (hclean : Clean members) :
    ∃ item, parsed = some item ∧ Own members item := by
  obtain ⟨gap, words, hgap, hwords, rfl⟩ := of_itemLine hline
  have htokens := tokens_of_clean hclean hgap hwords
  obtain ⟨hnil, -⟩ | ⟨item, _, _, _, options, rfl, hitemTokens, -, rfl, hframes, hroute, hoptions,
    hrest⟩ := of_parseLine hparse
  · rw [hnil] at htokens
    cases htokens
  rw [hitemTokens, List.cons.injEq] at htokens
  obtain ⟨hfile, htokens⟩ := htokens
  have hgapHead : gap.head? ≠ some '#' := fun hhead => by
    rw [List.takeWhile_cons_of_neg (by simpa using hhead)] at htokens
    cases htokens
  rw [List.takeWhile_cons_of_pos (by simpa using hgapHead)] at htokens
  have hrouteHead : (memberOf members "route").text.head? ≠ some '#' := fun hhead => by
    rw [List.takeWhile_cons_of_neg (by simpa using hhead)] at htokens
    cases htokens
  rw [List.takeWhile_cons_of_pos (by simpa using hrouteHead)] at htokens
  have hoptionHeads : words.takeWhile (·.head? ≠ some '#') = words := by
    refine List.takeWhile_eq_self_iff.mpr fun word hword => ?_
    exact decide_eq_true (hclean.optionWord hwords word hword).2.2
  rw [hoptionHeads] at htokens
  cases htokens
  have hasked := @asked_optionWords _ (fun _ => none) _ _ _ _ _ (fun _ h => h) (by decide)
    (fun _ _ => rfl) hwords hoptions ⟨rfl, rfl, .none, .none, .none, .none⟩
  refine ⟨item, rfl, hfile, saysSeconds_of_word (fun _ _ => of_parseGap) hgap hframes, hroute,
    options, hasked.congr fun key hkey => ?_, hrest⟩
  rw [askedBy_apply, if_pos hkey]

end

end WaveformGenerator.Host
