import WaveformGenerator.Host.CutAgreement
import WaveformGenerator.PlaylistFile.Parser
import Mathlib.Data.List.DropRight

/-!
# Host and board agree on a playlist file

The host's checker and the board's parser take the same files, with the same items, and refuse
every other file for the same reason at the same line.
-/

namespace WaveformGenerator.Host

open Text

/-! ## Names and labels -/

theorem nameClass_eq :
    classOf [('A', 'Z'), ('0', '9'), ('_', '_')] = PlaylistFile.isNameChar := by
  funext c
  rw [classOf, PlaylistFile.isNameChar, Bool.eq_iff_iff]
  simp only [List.any_cons, List.any_nil, Bool.or_false, Bool.or_eq_true, Bool.and_eq_true,
    decide_eq_true_eq, beq_iff_eq, or_assoc]
  exact or_congr_right (or_congr_right ⟨fun h => Char.le_antisymm h.2 h.1, fun h => by
    rw [h]; exact ⟨Char.le_refl _, Char.le_refl _⟩⟩)

theorem parses_name (extension text : List Char) :
    (∃ groups, (Regex.seq nameStem (.literal ('.' :: extension))).Parses text groups) ↔
      PlaylistFile.isShortName text extension = true := by
  have hdot : PlaylistFile.isNameChar '.' = false := by decide
  have hstem : ∀ stem groups, nameStem.Parses stem groups ↔
      groups = [] ∧ PlaylistFile.isNameStem stem = true := by
    intro stem groups
    unfold nameStem PlaylistFile.isNameStem PlaylistFile.nameStemMaxChars
    simp only [Regex.Parses, nameClass_eq, Bool.and_eq_true, decide_eq_true_eq, List.all_eq_true,
      Bool.not_eq_true', List.isEmpty_eq_false_iff, ← List.length_pos_iff, Option.some.injEq,
      forall_eq', and_assoc]
    rfl
  unfold PlaylistFile.isShortName
  constructor
  · rintro ⟨_, stem, _, _, _, rfl, rfl, hfront, rfl, rfl⟩
    have hname := ((hstem ..).mp hfront).2
    have hnot : '.' ∉ stem := by
      intro hmem
      have hall := hname
      unfold PlaylistFile.isNameStem at hall
      rw [Bool.and_eq_true, List.all_eq_true] at hall
      rw [hall.2 _ hmem] at hdot
      cases hdot
    rw [splitFirst_append hnot]
    simp only [hname, beq_self_eq_true, Bool.and_self]
  · intro h
    obtain ⟨hfirst, hsecond⟩ := splitFirst_spec '.' text
    generalize splitFirst '.' text = parts at h hfirst hsecond
    obtain ⟨stem, _ | rest⟩ := parts
    · cases h
    · rw [Bool.and_eq_true, beq_iff_eq] at h
      have htext : text = stem ++ '.' :: rest := hsecond
      exact ⟨[], stem, [], '.' :: rest, [], htext, rfl, (hstem ..).mpr ⟨rfl, h.1⟩, rfl,
        congrArg _ h.2⟩

theorem wavPattern_agrees (text : List Char) :
    (wavPattern.fullmatch text).isNone = !PlaylistFile.isShortName text "WAV".toList := by
  rw [← Option.not_isSome]
  refine congrArg (! ·) (Bool.eq_iff_iff.mpr ?_)
  rw [Regex.fullmatch_isSome_iff]
  exact parses_name "WAV".toList text

theorem scnPattern_agrees (text : List Char) :
    (scnPattern.fullmatch text).isNone = !PlaylistFile.isShortName text "SCN".toList := by
  rw [← Option.not_isSome]
  refine congrArg (! ·) (Bool.eq_iff_iff.mpr ?_)
  rw [Regex.fullmatch_isSome_iff]
  exact parses_name "SCN".toList text

theorem labelPattern_agrees (text : List Char) :
    (labelPattern.fullmatch text).isNone = true ↔
      text.isEmpty ∨ PlaylistFile.labelMaxChars < text.length ∨
        (!text.all PlaylistFile.isLabelChar) = true := by
  have hclass : classOf [('A', 'Z'), ('a', 'z'), ('0', '9'), ('_', '_'), ('.', '.'), ('-', '-')] =
      PlaylistFile.isLabelChar := by
    funext c
    have hone : ∀ d : Char, (d ≤ c ∧ c ≤ d) ↔ c = d := fun d =>
      ⟨fun h => Char.le_antisymm h.2 h.1, fun h => by
        rw [h]; exact ⟨Char.le_refl _, Char.le_refl _⟩⟩
    rw [classOf, PlaylistFile.isLabelChar, PlaylistFile.isNameChar, Bool.eq_iff_iff]
    simp only [List.any_cons, List.any_nil, Bool.or_false, Bool.or_eq_true, Bool.and_eq_true,
      decide_eq_true_eq, beq_iff_eq, hone]
    tauto
  have hparses : (∃ groups, labelPattern.Parses text groups) ↔
      1 ≤ text.length ∧ text.length ≤ 24 ∧ ∀ c ∈ text, PlaylistFile.isLabelChar c = true := by
    rw [labelPattern, hclass]
    constructor
    · rintro ⟨_, _, hleast, hmost, hall⟩
      exact ⟨hleast, hmost 24 rfl, hall⟩
    · rintro ⟨hleast, hmost, hall⟩
      exact ⟨[], rfl, hleast, fun _ hn => Option.some.inj hn ▸ hmost, hall⟩
  rw [← Option.not_isSome, Bool.not_eq_true', ← Bool.not_eq_true, Regex.fullmatch_isSome_iff,
    hparses, Bool.not_eq_true', ← Bool.not_eq_true (text.all _), List.all_eq_true,
    List.isEmpty_iff, ← List.length_eq_zero_iff]
  unfold PlaylistFile.labelMaxChars
  constructor
  · intro h
    by_contra hno
    rw [not_or, not_or, not_not] at hno
    exact h ⟨by omega, by omega, hno.2.2⟩
  · rintro h ⟨hleast, hmost, hall⟩
    obtain h | h | h := h
    · omega
    · omega
    · exact h hall

/-! ## Tokens -/

theorem rdropWhile_append {α : Type*} (p : α → Bool) (a b : List α) :
    (a ++ b).rdropWhile p = if b.rdropWhile p = [] then a.rdropWhile p else a ++ b.rdropWhile p := by
  unfold List.rdropWhile
  rw [List.reverse_append, List.dropWhile_append]
  simp only [List.isEmpty_iff, List.reverse_eq_nil_iff]
  split
  · rfl
  · rw [List.reverse_append, List.reverse_reverse]

/-- Text that is empty or starts with a word. -/
def AtWord (text : List Char) : Prop := ∀ c, text.head? = some c → isSeparator c = false

theorem atWord_dropWhile (text : List Char) : AtWord (text.dropWhile isSeparator) := by
  intro c hc
  have := List.head?_dropWhile_not isSeparator text
  rw [hc] at this
  simpa using this

theorem AtWord.dropWhile_eq {text : List Char} (h : AtWord text) :
    text.dropWhile isSeparator = text := by
  cases text with
  | nil => rfl
  | cons c text => exact List.dropWhile_cons_of_neg (by rw [h c rfl]; exact Bool.false_ne_true)

theorem rdropWhile_word {word : List Char} (h : ∀ c ∈ word, isSeparator c = false) :
    word.rdropWhile isSeparator = word :=
  List.rdropWhile_eq_self_iff.mpr fun hne => by
    rw [h _ (List.getLast_mem hne)]
    exact Bool.false_ne_true

theorem splitSeparators_word {word : List Char} (h : ∀ c ∈ word, isSeparator c = false) :
    splitSeparators word = [word] := by
  have hdrop : word.dropWhile (!isSeparator ·) = [] :=
    List.dropWhile_eq_nil_iff.mpr fun c hc => by rw [h c hc]; rfl
  rw [splitSeparators]
  split
  · rfl
  · rename_i hcons
    rw [hdrop] at hcons
    cases hcons

theorem splitSeparators_append {word gap rest : List Char}
    (hword : ∀ c ∈ word, isSeparator c = false) (hgap : ∀ c ∈ gap, isSeparator c = true)
    (hne : gap ≠ []) (hrest : AtWord rest) :
    splitSeparators (word ++ (gap ++ rest)) = word :: splitSeparators rest := by
  cases gap with
  | nil => exact absurd rfl hne
  | cons s gap =>
    have hplain : ∀ c ∈ word, (!isSeparator c) = true := fun c hc => by rw [hword c hc]; rfl
    have hs : ¬(!isSeparator s) = true := by rw [hgap s List.mem_cons_self]; decide
    have hdrop : (word ++ (s :: gap ++ rest)).dropWhile (!isSeparator ·) = s :: (gap ++ rest) := by
      rw [List.dropWhile_append_of_pos hplain, List.cons_append, List.dropWhile_cons_of_neg (by exact hs)]
    have htake : (word ++ (s :: gap ++ rest)).takeWhile (!isSeparator ·) = word := by
      rw [List.takeWhile_append_of_pos hplain, List.cons_append, List.takeWhile_cons_of_neg (by exact hs),
        List.append_nil]
    have hbehind : (gap ++ rest).dropWhile isSeparator = rest := by
      rw [List.dropWhile_append_of_pos fun c hc => hgap c (List.mem_cons_of_mem _ hc),
        hrest.dropWhile_eq]
    rw [splitSeparators]
    split
    · rename_i hnil
      rw [hdrop] at hnil
      cases hnil
    · rename_i hcons
      rw [hdrop] at hcons
      cases hcons
      rw [htake, hbehind]

theorem nextToken_dropWhile (text : List Char) :
    PlaylistFile.nextToken (text.dropWhile isSeparator) = PlaylistFile.nextToken text := by
  have hdrop : (text.dropWhile PlaylistFile.isSeparator).dropWhile PlaylistFile.isSeparator =
      text.dropWhile PlaylistFile.isSeparator := (atWord_dropWhile text).dropWhile_eq
  show PlaylistFile.nextToken (text.dropWhile PlaylistFile.isSeparator) = _
  unfold PlaylistFile.nextToken
  rw [hdrop]

theorem board_tokens_eq (text : List Char) :
    PlaylistFile.tokens text = match PlaylistFile.nextToken text with
      | none => []
      | some (token, after) => token :: PlaylistFile.tokens after := by
  rw [PlaylistFile.tokens]
  split <;> rename_i h <;> rw [h]

theorem tokens_dropWhile (text : List Char) :
    PlaylistFile.tokens (text.dropWhile isSeparator) = PlaylistFile.tokens text := by
  rw [board_tokens_eq, nextToken_dropWhile, ← board_tokens_eq]

/-- The board's tokens of text that starts with a word. -/
theorem tokens_word {word behind : List Char} (hword : ∀ c ∈ word, isSeparator c = false)
    (hne : word ≠ []) (hbehind : ∀ c, behind.head? = some c → isSeparator c = true) :
    PlaylistFile.tokens (word ++ behind) =
      if word.head? = some '#' then [] else word :: PlaylistFile.tokens behind := by
  cases word with
  | nil => exact absurd rfl hne
  | cons c word =>
    have hdrop : (c :: word ++ behind).dropWhile PlaylistFile.isSeparator = c :: (word ++ behind) :=
      List.dropWhile_cons_of_neg (by
        show ¬isSeparator c = true
        rw [hword c List.mem_cons_self]
        exact Bool.false_ne_true)
    have hplain : ∀ d ∈ c :: word, (!isSeparator d) = true := fun d hd => by rw [hword d hd]; rfl
    have htake : (c :: (word ++ behind)).takeWhile (!PlaylistFile.isSeparator ·) = c :: word := by
      show (c :: (word ++ behind)).takeWhile (!isSeparator ·) = c :: word
      rw [← List.cons_append, List.takeWhile_append_of_pos hplain]
      cases behind with
      | nil => exact List.append_nil _
      | cons s behind =>
        rw [List.takeWhile_cons_of_neg (by rw [hbehind s rfl]; decide), List.append_nil]
    have hafter : (c :: (word ++ behind)).dropWhile (!PlaylistFile.isSeparator ·) = behind := by
      show (c :: (word ++ behind)).dropWhile (!isSeparator ·) = behind
      rw [← List.cons_append, List.dropWhile_append_of_pos hplain]
      cases behind with
      | nil => rfl
      | cons s behind => rw [List.dropWhile_cons_of_neg (by rw [hbehind s rfl]; decide)]
    have hnext : PlaylistFile.nextToken (c :: word ++ behind) =
        if c = '#' then none else some (c :: word, behind) := by
      rw [PlaylistFile.nextToken, hdrop]
      dsimp only
      rw [htake, hafter]
    rw [board_tokens_eq, hnext]
    by_cases hc : c = '#'
    · rw [if_pos hc, if_pos (show (c :: word).head? = some '#' from congrArg some hc)]
    · rw [if_neg hc, if_neg fun h : (c :: word).head? = some '#' => hc (Option.some.inj h)]

/-- What `_tokens` keeps: all before a token that starts a comment. -/
def isItemToken (token : List Char) : Bool := !(token.isEmpty || token.head? == some '#')

theorem tokens_rdropWhile (text : List Char) (htext : AtWord text) :
    PlaylistFile.tokens text = (splitSeparators (text.rdropWhile isSeparator)).takeWhile isItemToken := by
  induction hlength : text.length using Nat.strong_induction_on generalizing text with
  | _ length ih =>
    by_cases hnil : text = []
    · have hempty : List.rdropWhile isSeparator [] = [] := rfl
      rw [hnil, hempty, splitSeparators_word fun c hc => absurd hc List.not_mem_nil,
        board_tokens_eq]
      rfl
    -- the first word, the separators behind it and the rest
    obtain ⟨c, after, rfl⟩ := List.exists_cons_of_ne_nil hnil
    have hc : isSeparator c = false := htext c rfl
    generalize hword : (c :: after).takeWhile (!isSeparator ·) = word
    generalize hbehind : (c :: after).dropWhile (!isSeparator ·) = behind
    have hsplit : c :: after = word ++ behind := by
      rw [← hword, ← hbehind, List.takeWhile_append_dropWhile]
    have hplain : ∀ d ∈ word, isSeparator d = false := by
      intro d hd
      rw [← hword] at hd
      simpa using List.all_eq_true.mp List.all_takeWhile d hd
    have hne : word ≠ [] := by
      rw [← hword, List.takeWhile_cons_of_pos (by rw [hc]; rfl)]
      exact List.cons_ne_nil _ _
    have hseparator : ∀ d, behind.head? = some d → isSeparator d = true := by
      intro d hd
      have := List.head?_dropWhile_not (!isSeparator ·) (c :: after)
      rw [hbehind, hd] at this
      simpa using this
    have hrest : AtWord (behind.dropWhile isSeparator) := atWord_dropWhile behind
    have hgap : ∀ d ∈ behind.takeWhile isSeparator, isSeparator d = true :=
      List.all_eq_true.mp List.all_takeWhile
    have hparts : behind.takeWhile isSeparator ++ behind.dropWhile isSeparator = behind :=
      List.takeWhile_append_dropWhile
    have hshorter : (behind.dropWhile isSeparator).length < length := by
      have h₁ := (List.dropWhile_sublist isSeparator (l := behind)).length_le
      have h₂ := List.length_pos_of_ne_nil hne
      rw [← hlength, hsplit, List.length_append]
      omega
    rw [hsplit, tokens_word hplain hne hseparator]
    have hkeep : isItemToken word = true ↔ word.head? ≠ some '#' := by
      rw [isItemToken, List.isEmpty_eq_false_iff.mpr hne, Bool.false_or, Bool.not_eq_true',
        beq_eq_false_iff_ne]
    have hpieces : splitSeparators ((word ++ behind).rdropWhile isSeparator) = word ::
        if behind.dropWhile isSeparator = [] then []
        else splitSeparators ((behind.dropWhile isSeparator).rdropWhile isSeparator) := by
      by_cases hlast : behind.dropWhile isSeparator = []
      · have hbehindGap : ∀ d ∈ behind, isSeparator d = true := List.dropWhile_eq_nil_iff.mp hlast
        rw [if_pos hlast, rdropWhile_append, if_pos (List.rdropWhile_eq_nil_iff.mpr hbehindGap),
          rdropWhile_word hplain, splitSeparators_word hplain]
      · have hkept : (behind.dropWhile isSeparator).rdropWhile isSeparator ≠ [] := by
          intro hempty
          obtain ⟨first, others, hfirst⟩ := List.exists_cons_of_ne_nil hlast
          have hgapFirst := List.rdropWhile_eq_nil_iff.mp hempty first (by
            rw [hfirst]; exact List.mem_cons_self)
          rw [hrest first (by rw [hfirst]; rfl)] at hgapFirst
          cases hgapFirst
        have hgapNe : behind.takeWhile isSeparator ≠ [] := by
          cases hb : behind with
          | nil =>
            rw [hb] at hlast
            exact absurd rfl hlast
          | cons d others =>
            rw [List.takeWhile_cons_of_pos (hseparator d (by rw [hb]; rfl))]
            exact List.cons_ne_nil _ _
        have hword' : AtWord ((behind.dropWhile isSeparator).rdropWhile isSeparator) := by
          intro d hd
          obtain ⟨tail, htail⟩ := List.rdropWhile_prefix isSeparator
            (l := behind.dropWhile isSeparator)
          refine hrest d ?_
          rw [← htail, List.head?_append, hd]
          rfl
        have hbehindTrim : behind.rdropWhile isSeparator = behind.takeWhile isSeparator ++
            (behind.dropWhile isSeparator).rdropWhile isSeparator := by
          conv_lhs => rw [← hparts]
          rw [rdropWhile_append, if_neg hkept]
        rw [if_neg hlast, rdropWhile_append, hbehindTrim, if_neg (List.append_ne_nil_of_left_ne_nil
          hgapNe _), splitSeparators_append hplain hgap hgapNe hword']
    rw [hpieces]
    by_cases hcomment : word.head? = some '#'
    · rw [if_pos hcomment, List.takeWhile_cons_of_neg (mt hkeep.mp (not_not.mpr hcomment))]
    · rw [if_neg hcomment, List.takeWhile_cons_of_pos (hkeep.mpr hcomment),
        ← tokens_dropWhile behind, ih _ hshorter _ hrest rfl]
      by_cases hlast : behind.dropWhile isSeparator = []
      · rw [if_pos hlast, hlast, List.rdropWhile_nil,
          splitSeparators_word fun c hc => absurd hc List.not_mem_nil]
        rfl
      · rw [if_neg hlast]

/-- Host and board find the same tokens. -/
theorem tokens_agree (text : List Char) : tokens text = PlaylistFile.tokens text := by
  rw [← tokens_dropWhile, tokens_rdropWhile _ (atWord_dropWhile text)]
  rfl

/-! ## Options -/

open CutEntry (ofBoard)

theorem optionValue_eq {key : List Char} (hkey : '=' ∉ key) (token : List Char) :
    PlaylistFile.optionValue token (key ++ ['=']) =
      if (splitFirst '=' token).1 = key then (splitFirst '=' token).2 else none := by
  unfold PlaylistFile.optionValue
  by_cases hstart : (key ++ ['=']).isPrefixOf token = true
  · obtain ⟨value, rfl⟩ := List.isPrefixOf_iff_prefix.mp hstart
    rw [if_pos hstart, List.drop_left, List.append_assoc, List.singleton_append,
      splitFirst_append hkey, if_pos rfl]
  · rw [if_neg hstart]
    obtain ⟨-, hsecond⟩ := splitFirst_spec '=' token
    generalize splitFirst '=' token = parts at hsecond
    obtain ⟨first, _ | value⟩ := parts
    · rw [ite_self]
    · by_cases hfirst : first = key
      · have htoken : token = first ++ '=' :: value := hsecond
        refine absurd (List.isPrefixOf_iff_prefix.mpr ⟨value, ?_⟩) hstart
        rw [htoken, hfirst, List.append_assoc, List.singleton_append]
      · rw [if_neg hfirst]

/-- The board's rule `index` for an option that is its own. -/
def given (seen : List Nat) (index : Nat) (parsed : Result PlaylistFile.Item) :
    Result (PlaylistFile.Item × List Nat) :=
  if index ∈ seen then .error PlaylistFile.badSyntax else parsed.map (·, index :: seen)

/-- One step of the board's loop over the rules. -/
theorem parseOptionFrom_cons {key : List Char} (hkey : '=' ∉ key)
    (parse : List Char → PlaylistFile.Item → Result PlaylistFile.Item) (token : List Char)
    (item : PlaylistFile.Item) (seen : List Nat) (index : Nat)
    (rules : List PlaylistFile.OptionRule) :
    PlaylistFile.parseOptionFrom token item seen index (⟨key ++ ['='], parse⟩ :: rules) =
      match splitFirst '=' token with
      | (first, some value) =>
        if first = key then given seen index (parse value item)
        else PlaylistFile.parseOptionFrom token item seen (index + 1) rules
      | (_, none) => PlaylistFile.parseOptionFrom token item seen (index + 1) rules := by
  rw [PlaylistFile.parseOptionFrom, optionValue_eq hkey]
  generalize splitFirst '=' token = parts
  obtain ⟨first, _ | value⟩ := parts
  · rw [ite_self]
  · by_cases hfirst : first = key
    · simp only [if_pos hfirst]
      rfl
    · simp only [if_neg hfirst]

/-- The board's table of rules, key by key. -/
theorem board_parseOption (token : List Char) (item : PlaylistFile.Item) (seen : List Nat) :
    PlaylistFile.parseOption token item seen =
      match splitFirst '=' token with
      | (key, some value) =>
        if key = "label".toList then given seen 0 (PlaylistFile.parseLabel value item)
        else if key = "scn".toList then given seen 1 (PlaylistFile.parseScenario value item)
        else if key = "seed".toList then given seen 2 (PlaylistFile.parseSeed value item)
        else if key = "cut".toList then given seen 3 (PlaylistFile.parseCuts value item)
        else if key = "att".toList then given seen 4 (PlaylistFile.parseAttenuation value item)
        else if key = "dur".toList then given seen 5 (PlaylistFile.parseItemDuration value item)
        else .error PlaylistFile.badSyntax
      | (_, none) => .error PlaylistFile.badSyntax := by
  show PlaylistFile.parseOptionFrom token item seen 0
    [⟨"label".toList ++ ['='], PlaylistFile.parseLabel⟩,
      ⟨"scn".toList ++ ['='], PlaylistFile.parseScenario⟩,
      ⟨"seed".toList ++ ['='], PlaylistFile.parseSeed⟩,
      ⟨"cut".toList ++ ['='], PlaylistFile.parseCuts⟩,
      ⟨"att".toList ++ ['='], PlaylistFile.parseAttenuation⟩,
      ⟨"dur".toList ++ ['='], PlaylistFile.parseItemDuration⟩] = _
  rw [parseOptionFrom_cons (by decide), parseOptionFrom_cons (by decide),
    parseOptionFrom_cons (by decide), parseOptionFrom_cons (by decide),
    parseOptionFrom_cons (by decide), parseOptionFrom_cons (by decide),
    PlaylistFile.parseOptionFrom]
  generalize splitFirst '=' token = parts
  obtain ⟨key, _ | value⟩ := parts <;> rfl

/-- What the host's dict holds when the board's item has had the options at the places `seen`. -/
def optionsOf (item : PlaylistFile.Item) (seen : List Nat) : Options where
  label := if 0 ∈ seen then some item.label.chars else none
  scn := if 1 ∈ seen then some item.scenario.chars else none
  seed := if 2 ∈ seen then some (item.seed.getD 0).toNat else none
  cut := if 3 ∈ seen then some (item.cuts.entries.map ofBoard) else none
  att := if 4 ∈ seen then some item.attenuation.value.toNat else none
  dur := if 5 ∈ seen then some (item.duration.getD 0).toNat else none

/-- The board's item has the options at the places `seen`, and else what its line's fields gave. -/
structure Given (start item : PlaylistFile.Item) (seen : List Nat) : Prop where
  file : item.file = start.file
  gap : item.gap = start.gap
  route : item.route = start.route
  line : item.line = start.line
  label : 0 ∈ seen ↔ item.label.chars ≠ []
  scenario : 1 ∈ seen ↔ item.scenario.chars ≠ []
  seed : 2 ∈ seen ↔ item.seed ≠ none
  cuts : 3 ∉ seen → item.cuts.entries = []
  attenuation : 4 ∉ seen → item.attenuation.value = 0
  duration : 5 ∈ seen ↔ item.duration ≠ none

theorem mem_given {seen : List Nat} {index place : Nat} (h : index ≠ place) :
    place ∈ index :: seen ↔ place ∈ seen := by
  rw [List.mem_cons]
  exact or_iff_right (Ne.symm h)

/-- An option changes its own field alone. -/
theorem Given.give {start item next : PlaylistFile.Item} {seen : List Nat}
    (h : Given start item seen) (index : Nat) (hfile : next.file = item.file)
    (hgap : next.gap = item.gap) (hroute : next.route = item.route) (hline : next.line = item.line)
    (hlabel : if index = 0 then next.label.chars ≠ [] else next.label = item.label)
    (hscenario : if index = 1 then next.scenario.chars ≠ [] else next.scenario = item.scenario)
    (hseed : if index = 2 then next.seed ≠ none else next.seed = item.seed)
    (hcuts : index ≠ 3 → next.cuts = item.cuts)
    (hattenuation : index ≠ 4 → next.attenuation = item.attenuation)
    (hduration : if index = 5 then next.duration ≠ none else next.duration = item.duration) :
    Given start next (index :: seen) where
  file := hfile.trans h.file
  gap := hgap.trans h.gap
  route := hroute.trans h.route
  line := hline.trans h.line
  label := by
    by_cases hplace : index = 0
    · rw [if_pos hplace] at hlabel
      exact ⟨fun _ => hlabel, fun _ => hplace ▸ List.mem_cons_self⟩
    · rw [if_neg hplace] at hlabel
      rw [mem_given hplace, hlabel, h.label]
  scenario := by
    by_cases hplace : index = 1
    · rw [if_pos hplace] at hscenario
      exact ⟨fun _ => hscenario, fun _ => hplace ▸ List.mem_cons_self⟩
    · rw [if_neg hplace] at hscenario
      rw [mem_given hplace, hscenario, h.scenario]
  seed := by
    by_cases hplace : index = 2
    · rw [if_pos hplace] at hseed
      exact ⟨fun _ => hseed, fun _ => hplace ▸ List.mem_cons_self⟩
    · rw [if_neg hplace] at hseed
      rw [mem_given hplace, hseed, h.seed]
  cuts := by
    intro hnot
    rw [List.mem_cons, not_or] at hnot
    rw [hcuts (Ne.symm hnot.1), h.cuts hnot.2]
  attenuation := by
    intro hnot
    rw [List.mem_cons, not_or] at hnot
    rw [hattenuation (Ne.symm hnot.1), h.attenuation hnot.2]
  duration := by
    by_cases hplace : index = 5
    · rw [if_pos hplace] at hduration
      exact ⟨fun _ => hduration, fun _ => hplace ▸ List.mem_cons_self⟩
    · rw [if_neg hplace] at hduration
      rw [mem_given hplace, hduration, h.duration]

/-- The board's result of an option and the host's: the same options, or the same refusal. -/
def OptionAgrees (start : PlaylistFile.Item) (line : Nat)
    (board : Result (PlaylistFile.Item × List Nat)) (host : Except PlaylistError Options) : Prop :=
  match board with
  | .ok (item, seen) => host = .ok (optionsOf item seen) ∧ Given start item seen
  | .error status => ∃ message, host = .error ⟨status.message, line, message⟩

/-- An option given twice is refused by both; else its value decides. -/
theorem optionAgrees_given {start : PlaylistFile.Item} {line : Nat} {seen : List Nat} {index : Nat}
    {parsed : Result PlaylistFile.Item} {key : String} {host : Except PlaylistError Options}
    {had : Bool} (hhad : had = decide (index ∈ seen))
    (h : OptionAgrees start line (parsed.map (·, index :: seen)) host) :
    OptionAgrees start line (given seen index parsed)
      (if had then .error (givenTwice key line) else host) := by
  unfold given
  by_cases hseen : index ∈ seen
  · rw [hhad, decide_eq_true hseen, if_pos rfl, if_pos hseen]
    exact ⟨_, rfl⟩
  · rw [hhad, decide_eq_false hseen, if_neg Bool.false_ne_true, if_neg hseen]
    exact h

theorem isSome_ite {α : Type*} {p : Prop} [Decidable p] (a : α) :
    (if p then some a else none).isSome = decide p := by
  by_cases h : p <;> simp [h]

section

variable {start item : PlaylistFile.Item} {seen : List Nat}

theorem parseLabel_agrees (hgiven : Given start item seen) (value : List Char) (line : Nat) :
    OptionAgrees start line ((PlaylistFile.parseLabel value item).map (·, 0 :: seen))
      (if (labelPattern.fullmatch value).isNone then
        .error ⟨"PLAYLIST_LABEL", line,
          s!"a label is 1 to {labelMaxChars} of A-Z a-z 0-9 _ - ., not {pyRepr value}"⟩
      else .ok { optionsOf item seen with label := some value }) := by
  unfold PlaylistFile.parseLabel
  have hagree := labelPattern_agrees value
  by_cases hbad : value.isEmpty ∨ PlaylistFile.labelMaxChars < value.length ∨
      (!value.all PlaylistFile.isLabelChar) = true
  · rw [if_pos hbad, if_pos (hagree.mpr hbad)]
    exact ⟨_, rfl⟩
  · rw [if_neg hbad, if_neg (mt hagree.mp hbad)]
    rw [not_or, not_or, Nat.not_lt] at hbad
    have hchars : (PlaylistFile.FixedText.ofText PlaylistFile.labelMaxChars value).chars = value :=
      List.take_of_length_le hbad.2.1
    refine ⟨?_, hgiven.give 0 rfl rfl rfl rfl ?_ rfl rfl (fun _ => rfl) (fun _ => rfl) rfl⟩
    · simp [optionsOf, hchars]
    · rw [if_pos rfl, hchars]
      exact fun hnil => hbad.1 (List.isEmpty_iff.mpr hnil)

theorem isShortName_spec {text extension : List Char}
    (h : PlaylistFile.isShortName text extension = true) :
    text ≠ [] ∧ text.length ≤ 9 + extension.length := by
  obtain ⟨hfirst, hsecond⟩ := splitFirst_spec '.' text
  unfold PlaylistFile.isShortName at h
  generalize splitFirst '.' text = parts at h hfirst hsecond
  obtain ⟨stem, _ | rest⟩ := parts
  · cases h
  · have htext : text = stem ++ '.' :: rest := hsecond
    unfold PlaylistFile.isNameStem at h
    rw [Bool.and_eq_true, Bool.and_eq_true, Bool.and_eq_true, decide_eq_true_eq, beq_iff_eq] at h
    obtain ⟨⟨⟨-, hstem⟩, -⟩, rfl⟩ := h
    rw [htext]
    refine ⟨List.append_ne_nil_of_right_ne_nil _ (List.cons_ne_nil _ _), ?_⟩
    rw [PlaylistFile.nameStemMaxChars] at hstem
    rw [List.length_append, List.length_cons]
    omega

theorem shortName_ofText {text extension : List Char} (hextension : extension.length = 3)
    (h : PlaylistFile.isShortName text extension = true) :
    (PlaylistFile.FixedText.ofText PlaylistFile.nameMaxChars text).chars = text := by
  have hlength := (isShortName_spec h).2
  rw [hextension] at hlength
  exact List.take_of_length_le hlength

theorem parseScenario_agrees (hgiven : Given start item seen) (value : List Char) (line : Nat) :
    OptionAgrees start line ((PlaylistFile.parseScenario value item).map (·, 1 :: seen))
      (if (scnPattern.fullmatch value).isNone then
        .error ⟨"PLAYLIST_SCN", line,
          s!"scn= names an upper-case 8.3 .SCN file, not {pyRepr value}"⟩
      else .ok { optionsOf item seen with scn := some value }) := by
  unfold PlaylistFile.parseScenario
  rw [scnPattern_agrees]
  by_cases hbad : (!PlaylistFile.isShortName value "SCN".toList) = true
  · rw [if_pos hbad, if_pos hbad]
    exact ⟨_, rfl⟩
  · rw [if_neg hbad, if_neg hbad]
    rw [Bool.not_eq_true, Bool.not_eq_false'] at hbad
    have hchars := shortName_ofText rfl hbad
    refine ⟨?_, hgiven.give 1 rfl rfl rfl rfl rfl ?_ rfl (fun _ => rfl) (fun _ => rfl) rfl⟩
    · simp [optionsOf, hchars]
    · rw [if_pos rfl, hchars]
      exact (isShortName_spec hbad).1

theorem parseSeed_agrees (hgiven : Given start item seen) (value : List Char) (line : Nat) :
    OptionAgrees start line ((PlaylistFile.parseSeed value item).map (·, 2 :: seen))
      (if (decimalPattern.fullmatch value).isNone ∨ uint32Max < decimal value then
        .error ⟨"PLAYLIST_SEED", line, s!"a seed is a canonical 32-bit decimal, not {pyRepr value}"⟩
      else .ok { optionsOf item seen with seed := some (decimal value) }) := by
  unfold PlaylistFile.parseSeed
  have hagree := parseUInt32_agrees value
  cases hboard : Cut.parseUInt32 value with
  | error status =>
    rw [hboard] at hagree
    rw [if_pos hagree]
    exact ⟨_, rfl⟩
  | ok seed =>
    rw [hboard] at hagree
    obtain ⟨hcanonical, hbound, hvalue⟩ := hagree
    rw [if_neg]
    · refine ⟨?_, hgiven.give 2 rfl rfl rfl rfl rfl rfl ?_ (fun _ => rfl) (fun _ => rfl) rfl⟩
      · simp [optionsOf, hvalue]
      · exact Option.some_ne_none seed
    · rintro (hnone | hlarge)
      · rw [← canonical_iff_fullmatch, Option.isSome_iff_ne_none] at hcanonical
        exact hcanonical (Option.isNone_iff_eq_none.mp hnone)
      · omega

theorem parseCuts_agrees (hgiven : Given start item seen) (value : List Char) (line : Nat) :
    OptionAgrees start line ((PlaylistFile.parseCuts value item).map (·, 3 :: seen))
      ((parseCuts value line).map fun cut => { optionsOf item seen with cut := some cut }) := by
  unfold PlaylistFile.parseCuts parseCuts
  have hentries := parseEntries_agrees value
  cases hboard : Cut.parseEntries value with
  | error status =>
    rw [hboard] at hentries
    obtain ⟨error, herror⟩ := hentries
    rw [herror]
    exact ⟨_, rfl⟩
  | ok list =>
    rw [hboard] at hentries
    dsimp only at hentries ⊢
    rw [hentries]
    have hvalid := validate_agrees list
    cases hschedule : Cut.validate list with
    | error status =>
      rw [hschedule] at hvalid
      obtain ⟨message, hmessage⟩ := hvalid
      dsimp only
      rw [hmessage]
      exact ⟨_, rfl⟩
    | ok schedule =>
      rw [hschedule] at hvalid
      dsimp only at hvalid ⊢
      rw [hvalid]
      refine ⟨?_, hgiven.give 3 rfl rfl rfl rfl rfl rfl rfl ?_ (fun _ => rfl) rfl⟩
      · simp [optionsOf, Except.map]
      · exact fun h => absurd rfl h

theorem parseAttenuation_option_agrees (hgiven : Given start item seen) (value : List Char)
    (line : Nat) :
    OptionAgrees start line ((PlaylistFile.parseAttenuation value item).map (·, 4 :: seen))
      (match parseAttenuation value with
      | .error message => .error ⟨"PLAYLIST_ATT", line, message⟩
      | .ok att => .ok { optionsOf item seen with att := some att }) := by
  unfold PlaylistFile.parseAttenuation
  have hagree := parseAttenuation_agrees value
  cases hboard : Attenuation.parse value with
  | error status =>
    rw [hboard] at hagree
    obtain ⟨rfl, message, hmessage⟩ := hagree
    rw [hmessage]
    exact ⟨_, rfl⟩
  | ok attenuation =>
    rw [hboard] at hagree
    dsimp only at hagree ⊢
    rw [hagree]
    refine ⟨?_, hgiven.give 4 rfl rfl rfl rfl rfl rfl rfl (fun _ => rfl) ?_ rfl⟩
    · simp [optionsOf]
    · exact fun h => absurd rfl h

theorem parseItemDuration_agrees (hgiven : Given start item seen) (value : List Char)
    (line : Nat) :
    OptionAgrees start line ((PlaylistFile.parseItemDuration value item).map (·, 5 :: seen))
      ((parseDuration value line).map fun dur => { optionsOf item seen with dur := some dur }) := by
  unfold PlaylistFile.parseItemDuration
  have hagree := parseDuration_agrees value line
  cases hboard : PlaylistFile.parseDuration value with
  | error status =>
    rw [hboard] at hagree
    obtain ⟨message, hmessage⟩ := hagree
    rw [hmessage]
    exact ⟨_, rfl⟩
  | ok duration =>
    rw [hboard] at hagree
    dsimp only at hagree ⊢
    rw [hagree]
    refine ⟨?_, hgiven.give 5 rfl rfl rfl rfl rfl rfl rfl (fun _ => rfl) (fun _ => rfl) ?_⟩
    · simp [optionsOf, Except.map]
    · exact Option.some_ne_none duration

theorem parseOption_agrees (hgiven : Given start item seen) (token : List Char) (line : Nat) :
    OptionAgrees start line (PlaylistFile.parseOption token item seen)
      (parseOption token line (optionsOf item seen)) := by
  rw [board_parseOption]
  unfold parseOption
  generalize splitFirst '=' token = parts
  obtain ⟨key, _ | value⟩ := parts
  · exact ⟨_, rfl⟩
  dsimp only
  by_cases hlabel : key = "label".toList
  · rw [if_pos hlabel, if_pos hlabel]
    exact optionAgrees_given (isSome_ite _) (parseLabel_agrees hgiven value line)
  rw [if_neg hlabel, if_neg hlabel]
  by_cases hscn : key = "scn".toList
  · rw [if_pos hscn, if_pos hscn]
    exact optionAgrees_given (isSome_ite _) (parseScenario_agrees hgiven value line)
  rw [if_neg hscn, if_neg hscn]
  by_cases hseed : key = "seed".toList
  · rw [if_pos hseed, if_pos hseed]
    exact optionAgrees_given (isSome_ite _) (parseSeed_agrees hgiven value line)
  rw [if_neg hseed, if_neg hseed]
  by_cases hcut : key = "cut".toList
  · rw [if_pos hcut, if_pos hcut]
    exact optionAgrees_given (isSome_ite _) (parseCuts_agrees hgiven value line)
  rw [if_neg hcut, if_neg hcut]
  by_cases hatt : key = "att".toList
  · rw [if_pos hatt, if_pos hatt]
    exact optionAgrees_given (isSome_ite _)
      (parseAttenuation_option_agrees hgiven value line)
  rw [if_neg hatt, if_neg hatt]
  by_cases hdur : key = "dur".toList
  · rw [if_pos hdur, if_pos hdur]
    exact optionAgrees_given (isSome_ite _) (parseItemDuration_agrees hgiven value line)
  rw [if_neg hdur, if_neg hdur]
  exact ⟨_, rfl⟩

theorem parseOptions_agrees (hgiven : Given start item seen) (tokens : List (List Char))
    (line : Nat) :
    match PlaylistFile.parseOptions item seen tokens with
    | .ok last => ∃ all, parseOptions line (optionsOf item seen) tokens = .ok (optionsOf last all) ∧
        Given start last all
    | .error status => ∃ message, parseOptions line (optionsOf item seen) tokens =
        .error ⟨status.message, line, message⟩ := by
  induction tokens generalizing item seen with
  | nil => exact ⟨seen, rfl, hgiven⟩
  | cons token tokens ih =>
    have hoption := parseOption_agrees hgiven token line
    rw [PlaylistFile.parseOptions, parseOptions]
    cases hboard : PlaylistFile.parseOption token item seen with
    | error status =>
      rw [hboard] at hoption
      obtain ⟨message, hmessage⟩ := hoption
      rw [hmessage]
      exact ⟨message, rfl⟩
    | ok next =>
      rw [hboard] at hoption
      obtain ⟨hhost, hnext⟩ := hoption
      rw [hhost]
      exact ih hnext

end

/-! ## Lines -/

/-- An item of the board as the host holds it. -/
def Item.ofBoard (item : PlaylistFile.Item) : Item where
  file := item.file.chars
  gapFrames := item.gap.toNat
  route := item.route
  line := item.line.toNat
  label := if item.label.isEmpty then none else some item.label.chars
  scenario := if item.scenario.isEmpty then none else some item.scenario.chars
  seed := item.seed.map (·.toNat)
  cuts := item.cuts.entries.map CutEntry.ofBoard
  attenuationTenths := item.attenuation.value.toNat
  durationFrames := item.duration.map (·.toNat)

/-- Before its options, an item has what its fields gave. -/
theorem given_start (file : PlaylistFile.FixedText PlaylistFile.nameMaxChars) (gap : UInt32)
    (route : Playlist.Route) (line : PlaylistFile.LineNumber) :
    Given { file, gap, route, line } { file, gap, route, line } [] :=
  ⟨rfl, rfl, rfl, rfl, by simp, by simp, by simp, fun _ => rfl, fun _ => rfl, by simp⟩

/-- The host's item of the options is the board's. -/
theorem Given.item_eq {start item : PlaylistFile.Item} {seen : List Nat}
    (h : Given start item seen) :
    Item.ofBoard item =
      { file := start.file.chars, gapFrames := start.gap.toNat, route := start.route
        line := start.line.toNat, label := (optionsOf item seen).label
        scenario := (optionsOf item seen).scn, seed := (optionsOf item seen).seed
        cuts := (optionsOf item seen).cut.getD []
        attenuationTenths := (optionsOf item seen).att.getD 0
        durationFrames := (optionsOf item seen).dur } := by
  unfold Item.ofBoard optionsOf
  rw [h.file, h.gap, h.route, h.line]
  congr 1
  · simp only [h.label, PlaylistFile.FixedText.isEmpty, List.isEmpty_iff, ite_not]
  · simp only [h.scenario, PlaylistFile.FixedText.isEmpty, List.isEmpty_iff, ite_not]
  · by_cases hplace : 2 ∈ seen
    · obtain ⟨seed, hseed⟩ := Option.ne_none_iff_exists'.mp (h.seed.mp hplace)
      rw [if_pos hplace, hseed]
      rfl
    · rw [if_neg hplace, not_not.mp (mt h.seed.mpr hplace)]
      rfl
  · by_cases hplace : 3 ∈ seen
    · rw [if_pos hplace]
      rfl
    · rw [if_neg hplace, h.cuts hplace]
      rfl
  · by_cases hplace : 4 ∈ seen
    · rw [if_pos hplace]
      rfl
    · rw [if_neg hplace, h.attenuation hplace]
      rfl
  · by_cases hplace : 5 ∈ seen
    · obtain ⟨duration, hduration⟩ := Option.ne_none_iff_exists'.mp (h.duration.mp hplace)
      rw [if_pos hplace, hduration]
      rfl
    · rw [if_neg hplace, not_not.mp (mt h.duration.mpr hplace)]
      rfl

theorem lineChars_agree (text : List Char) :
    (text.any fun c => !(32 ≤ c.toNat && c.toNat ≤ 126 || c == '\t')) =
      !text.all PlaylistFile.isLineChar := by
  rw [List.not_all_eq_any_not]
  rfl

theorem parseRoute_agrees (route : List Char) (offered : PlaylistFile.OfferedRoutes) :
    PlaylistFile.parseRoute route offered = match routeOf route with
      | none => .error PlaylistFile.badRoute
      | some output =>
        if output = .usb ∧ !offered.usb then .error PlaylistFile.routeUnavailable else .ok output := by
  unfold PlaylistFile.parseRoute routeOf
  by_cases hcodec : route = "CODEC".toList
  · have husb : route ≠ "USB".toList := by rw [hcodec]; decide
    rw [if_pos hcodec, if_neg husb, if_pos hcodec]
    rfl
  · rw [if_neg hcodec]
    by_cases husb : route = "USB".toList
    · rw [if_neg (not_not.mpr husb), if_pos husb]
      cases offered.usb <;> rfl
    · rw [if_pos husb, if_neg husb, if_neg hcodec]

/-- Host and board agree on a line. -/
theorem parseLine_agrees (text : List Char) (number : PlaylistFile.LineNumber)
    (offered : PlaylistFile.OfferedRoutes) :
    match PlaylistFile.parseLine text number offered with
    | .ok item => parseLine text number.toNat offered.usb = .ok (item.map Item.ofBoard)
    | .error status => ∃ message,
        parseLine text number.toNat offered.usb = .error ⟨status.message, number.toNat, message⟩ := by
  unfold PlaylistFile.parseLine parseLine
  rw [lineChars_agree, tokens_agree]
  by_cases hbad : (!text.all PlaylistFile.isLineChar) = true
  · rw [if_pos hbad, if_pos hbad]
    exact ⟨_, rfl⟩
  rw [if_neg hbad, if_neg hbad]
  obtain _ | ⟨file, _ | ⟨gap, _ | ⟨route, options⟩⟩⟩ := PlaylistFile.tokens text
  · rfl
  · exact ⟨_, rfl⟩
  · exact ⟨_, rfl⟩
  dsimp only
  unfold PlaylistFile.parseFields
  rw [wavPattern_agrees]
  by_cases hfile : (!PlaylistFile.isShortName file "WAV".toList) = true
  · rw [if_pos hfile, if_pos hfile]
    exact ⟨_, rfl⟩
  rw [if_neg hfile, if_neg hfile]
  have hshort : PlaylistFile.isShortName file "WAV".toList = true := by simpa using hfile
  have hname := shortName_ofText rfl hshort
  have hgap := parseGap_agrees gap number.toNat
  cases hframes : PlaylistFile.parseGap gap with
  | error status =>
    rw [hframes] at hgap
    obtain ⟨message, hmessage⟩ := hgap
    rw [hmessage]
    exact ⟨_, rfl⟩
  | ok frames =>
    rw [hframes] at hgap
    dsimp only at hgap ⊢
    rw [hgap, parseRoute_agrees]
    cases hroute : routeOf route with
    | none => exact ⟨_, rfl⟩
    | some output =>
      dsimp only
      by_cases hmissing : output = .usb ∧ (!offered.usb) = true
      · simp only [if_pos hmissing]
        exact ⟨_, rfl⟩
      · simp only [if_neg hmissing]
        have hgiven := given_start (.ofText _ file) frames output number
        have hoptions := parseOptions_agrees hgiven options number.toNat
        generalize hstart : ({
            file := .ofText PlaylistFile.nameMaxChars file, gap := frames, route := output
            line := number } : PlaylistFile.Item) = start at hgiven hoptions ⊢
        have hempty : optionsOf start [] = {} := rfl
        rw [hempty] at hoptions
        cases hboard : PlaylistFile.parseOptions start [] options with
        | error status =>
          rw [hboard] at hoptions
          obtain ⟨message, hmessage⟩ := hoptions
          refine ⟨message, ?_⟩
          rw [hmessage]
          rfl
        | ok last =>
          rw [hboard] at hoptions
          obtain ⟨all, hhost, hlast⟩ := hoptions
          have hitem := hlast.item_eq
          have hseed : (last.seed.isSome ∧ last.scenario.isEmpty = true) ↔
              (optionsOf last all).seed.isSome ∧ (optionsOf last all).scn.isNone := by
            have h₁ : (optionsOf last all).seed.isSome = last.seed.isSome := by
              rw [optionsOf, isSome_ite, Bool.eq_iff_iff, decide_eq_true_eq, hlast.seed,
                Option.isSome_iff_ne_none]
            have h₂ : (optionsOf last all).scn.isNone = last.scenario.isEmpty := by
              rw [← Option.not_isSome, optionsOf, isSome_ite, PlaylistFile.FixedText.isEmpty,
                Bool.eq_iff_iff, Bool.not_eq_true', decide_eq_false_iff_not, hlast.scenario,
                List.isEmpty_iff, not_not]
            rw [h₁, h₂]
          dsimp only
          rw [hhost]
          by_cases hmissing : last.seed.isSome ∧ last.scenario.isEmpty = true
          · rw [if_pos hmissing]
            dsimp only [bind, Except.bind]
            rw [if_pos (hseed.mp hmissing)]
            exact ⟨_, rfl⟩
          · rw [if_neg hmissing]
            dsimp only [bind, Except.bind, Option.map_some]
            rw [if_neg (mt hseed.mpr hmissing), hitem, ← hstart, hname]
            rfl

/-! ## Files -/

theorem byteChar_cr (byte : UInt8) : PlaylistFile.byteChar byte = '\r' ↔ byte = 13 := by
  constructor
  · intro h
    have hbyte := UInt8.toNat_lt byte
    have hvalid : byte.toNat.isValidChar := .inl (by omega)
    have hvalue := congrArg Char.toNat h
    unfold PlaylistFile.byteChar Char.ofNat at hvalue
    rw [dif_pos hvalid] at hvalue
    exact UInt8.toNat_inj.mp hvalue
  · rintro rfl
    rfl

theorem withoutCr_agrees (raw : List UInt8) :
    (if raw.getLast? = some 13 then raw.dropLast else raw).map
        (fun byte => Char.ofNat byte.toNat) =
      PlaylistFile.withoutCr (raw.map PlaylistFile.byteChar) := by
  have hlast : (raw.map PlaylistFile.byteChar).getLast? = some '\r' ↔ raw.getLast? = some 13 := by
    rw [List.getLast?_map, Option.map_eq_some_iff]
    simp only [byteChar_cr, exists_eq_right]
  unfold PlaylistFile.withoutCr
  by_cases hcr : raw.getLast? = some 13
  · rw [if_pos hcr, if_pos (hlast.mpr hcr), List.map_dropLast]
    rfl
  · rw [if_neg hcr, if_neg (mt hlast.mp hcr)]
    rfl

variable (offered : PlaylistFile.OfferedRoutes)

theorem fixedText_ext {capacity : Nat} {a b : PlaylistFile.FixedText capacity}
    (h : a.chars = b.chars) : a = b := by
  cases a
  cases b
  cases h
  rfl

/-- Another item has the label, for both. -/
theorem labels_agree (items : List PlaylistFile.Item) {item : PlaylistFile.Item}
    (hlabel : item.label.isEmpty = false) :
    ((items.map Item.ofBoard).any fun other => other.label == some item.label.chars) =
      items.any (·.label == item.label) := by
  rw [List.any_map]
  refine congrArg items.any (funext fun other => ?_)
  rw [Bool.eq_iff_iff]
  show ((if other.label.isEmpty then none else some other.label.chars) == some item.label.chars) =
    true ↔ (other.label == item.label) = true
  rw [beq_iff_eq, beq_iff_eq]
  constructor
  · intro h
    split at h
    · cases h
    · exact fixedText_ext (Option.some.inj h)
  · intro h
    rw [h, hlabel]
    rfl

/-- Host and board agree on a line of the file. -/
theorem readLine_agrees (table : PlaylistFile.ItemTable) (number : PlaylistFile.LineNumber)
    (line : List UInt8) :
    match PlaylistFile.readLine offered table number line with
    | .ok kept => readLine offered.usb (table.items.map Item.ofBoard) number.toNat line =
        .ok (kept.items.map Item.ofBoard)
    | .error status => ∃ message,
        readLine offered.usb (table.items.map Item.ofBoard) number.toNat line =
          .error ⟨status.message, number.toNat, message⟩ := by
  unfold PlaylistFile.readLine readLine
  by_cases hlong : PlaylistFile.maxLineChars < line.length
  · rw [if_pos hlong, if_pos (show maxLineChars < line.length from hlong)]
    exact ⟨_, rfl⟩
  rw [if_neg hlong, if_neg (show ¬maxLineChars < line.length from hlong)]
  dsimp only
  rw [withoutCr_agrees]
  have hline := parseLine_agrees (PlaylistFile.withoutCr (line.map PlaylistFile.byteChar)) number
    offered
  cases hboard : PlaylistFile.parseLine
      (PlaylistFile.withoutCr (line.map PlaylistFile.byteChar)) number offered with
  | error status =>
    rw [hboard] at hline
    obtain ⟨message, hmessage⟩ := hline
    rw [hmessage]
    exact ⟨message, rfl⟩
  | ok item =>
    rw [hboard] at hline
    dsimp only at hline
    rw [hline]
    cases item with
    | none => rfl
    | some item =>
      unfold PlaylistFile.keep PlaylistFile.ItemTable.push
      dsimp only [Option.map_some, bind, Except.bind]
      rw [List.length_map]
      by_cases hfull : table.items.length = PlaylistFile.maxItems
      · rw [dif_pos hfull, if_pos (show table.items.length = maxItems from hfull)]
        exact ⟨_, rfl⟩
      rw [dif_neg hfull, if_neg (show ¬table.items.length = maxItems from hfull)]
      have hpushed : table.items.map Item.ofBoard ++ [Item.ofBoard item] =
          (table.items ++ [item]).map Item.ofBoard := by
        rw [List.map_append]
        rfl
      by_cases hempty : item.label.isEmpty = true
      · have hlabel : (Item.ofBoard item).label = none := by
          show (if item.label.isEmpty then none else some item.label.chars) = none
          rw [hempty, if_pos rfl]
        rw [dif_neg (by rw [hempty]; exact Bool.false_ne_true), hlabel]
        exact congrArg Except.ok hpushed
      · rw [Bool.not_eq_true] at hempty
        have hlabel : (Item.ofBoard item).label = some item.label.chars := by
          show (if item.label.isEmpty then none else some item.label.chars) = _
          rw [hempty, if_neg Bool.false_ne_true]
        rw [hlabel]
        dsimp only
        rw [labels_agree table.items hempty]
        by_cases hother : table.items.any (·.label == item.label) = true
        · rw [if_pos hother, dif_pos (by rw [hempty, hother]; rfl)]
          exact ⟨_, rfl⟩
        · rw [if_neg hother, dif_neg (by rw [hempty, eq_false_of_ne_true hother]; decide)]
          exact congrArg Except.ok hpushed

theorem readLines_agrees (table : PlaylistFile.ItemTable) (number : PlaylistFile.LineNumber)
    (lines : List (List UInt8)) (hlines : number.toNat + lines.length < 2 ^ 32) :
    match PlaylistFile.readLines offered table number lines with
    | .ok kept => readLines offered.usb (table.items.map Item.ofBoard) number.toNat lines =
        .ok (kept.items.map Item.ofBoard)
    | .error (status, refused) => ∃ message,
        readLines offered.usb (table.items.map Item.ofBoard) number.toNat lines =
          .error ⟨status.message, refused.toNat, message⟩ := by
  induction lines generalizing table number with
  | nil =>
    rw [PlaylistFile.readLines, readLines]
    by_cases hnone : table.items = []
    · rw [if_pos hnone, hnone]
      exact ⟨_, rfl⟩
    · rw [if_neg hnone, if_neg (by rw [List.isEmpty_iff, List.map_eq_nil_iff]; exact hnone)]
  | cons line lines ih =>
    rw [List.length_cons] at hlines
    have hline := readLine_agrees offered table number line
    rw [PlaylistFile.readLines, readLines]
    cases hboard : PlaylistFile.readLine offered table number line with
    | error status =>
      rw [hboard] at hline
      obtain ⟨message, hmessage⟩ := hline
      rw [hmessage]
      exact ⟨message, rfl⟩
    | ok kept =>
      rw [hboard] at hline
      dsimp only at hline ⊢
      rw [hline]
      have hnumber : (number + 1).toNat = number.toNat + 1 := by
        rw [UInt32.toNat_add]
        exact Nat.mod_eq_of_lt (by show number.toNat + 1 < 2 ^ 32; omega)
      have hrest := ih kept (number + 1) (by rw [hnumber]; omega)
      rw [hnumber] at hrest
      exact hrest

theorem length_splitOn_le {α : Type*} [DecidableEq α] (mark : α) (text : List α) :
    (text.splitOn mark).length ≤ text.length + 1 := by
  induction hlength : text.length using Nat.strong_induction_on generalizing text with
  | _ length ih =>
    rw [splitOn_eq]
    obtain ⟨-, hsecond⟩ := splitFirst_spec mark text
    generalize splitFirst mark text = parts at hsecond
    obtain ⟨first, _ | rest⟩ := parts
    · exact Nat.le_add_left 1 length
    · have htext : text = first ++ mark :: rest := hsecond
      rw [htext, List.length_append, List.length_cons] at hlength
      have := ih rest.length (by omega) rest rfl
      show ((rest.splitOn mark).length + 1) ≤ _
      omega

/-- The host's checker and the board's parser agree on every file the host takes: the same items,
or the same refusal at the same line, however the board's file is cut into chunks. -/
theorem parseBytes_agrees (chunks : List (List UInt8))
    (hlength : chunks.flatten.length ≤ maxFileBytes) :
    match PlaylistFile.parseFile offered chunks with
    | .ok table => parseBytes chunks.flatten offered.usb = .ok (table.items.map Item.ofBoard)
    | .error (status, line) => ∃ message,
        parseBytes chunks.flatten offered.usb = .error ⟨status.message, line.toNat, message⟩ := by
  have hlines : (PlaylistFile.fileLines chunks.flatten).length ≤ maxFileBytes + 1 := by
    have hsplit := length_splitOn_le PlaylistFile.lineFeed chunks.flatten
    unfold PlaylistFile.fileLines
    dsimp only
    split
    · rw [List.length_dropLast]
      omega
    · omega
  have hread := readLines_agrees offered {} 1 (PlaylistFile.fileLines chunks.flatten) (by
    show 1 + _ < 2 ^ 32
    rw [maxFileBytes] at hlines
    omega)
  rw [PlaylistFile.parseFile_eq, PlaylistFile.readFile]
  unfold parseBytes
  rw [if_neg (Nat.not_lt.mpr hlength)]
  exact hread

/-- `A.WAV 1 CODEC`, cut in the middle of the route. -/
theorem parseBytes_agrees_item :
    let chunks : List (List UInt8) := [[65, 46, 87, 65, 86, 32, 49, 32, 67, 79], [68, 69, 67, 10]]
    match PlaylistFile.parseFile {} chunks with
    | .ok table => parseBytes chunks.flatten false = .ok (table.items.map Item.ofBoard)
    | .error (status, line) => ∃ message,
        parseBytes chunks.flatten false = .error ⟨status.message, line.toNat, message⟩ :=
  parseBytes_agrees {} [[65, 46, 87, 65, 86, 32, 49, 32, 67, 79], [68, 69, 67, 10]] (by decide)

end WaveformGenerator.Host
