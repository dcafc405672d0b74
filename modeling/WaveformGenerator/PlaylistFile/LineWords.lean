import WaveformGenerator.PlaylistFile.Grammar

/-!
# The words of a playlist line

A printable line has its tokens for words, and words with separators between them are a line's
tokens. Whatever writes an item in range is a word.
-/

namespace WaveformGenerator.PlaylistFile

open Playlist (Route)
open Host (SpellsSeconds SpellsTenths printEntries)

/-! ## Lines -/

theorem isLineChar_separator {c : Char} (h : isSeparator c = true) : isLineChar c = true := by
  rw [isSeparator, Bool.or_eq_true, beq_iff_eq, beq_iff_eq] at h
  obtain rfl | rfl := h <;> rfl

theorem nextToken_gap {gap : List Char} (hgap : ∀ c ∈ gap, isSeparator c = true)
    (behind : List Char) : nextToken (gap ++ behind) = nextToken behind := by
  have hdrop : (gap ++ behind).dropWhile isSeparator = behind.dropWhile isSeparator :=
    List.dropWhile_append_of_pos hgap
  unfold nextToken
  rw [hdrop]

theorem tokens_gap {gap : List Char} (hgap : ∀ c ∈ gap, isSeparator c = true)
    (behind : List Char) : tokens (gap ++ behind) = tokens behind := by
  rw [Host.board_tokens_eq, nextToken_gap hgap, ← Host.board_tokens_eq]

theorem Spaced.tokens_eq {words : List (List Char)} {line : List Char} (h : Spaced words line)
    (hwords : ∀ word ∈ words, Word word) : tokens line = words := by
  induction h with
  | @blank gap hgap =>
    rw [← List.append_nil gap, tokens_gap hgap, Host.board_tokens_eq]
    rfl
  | @comment gap comment hgap =>
    rw [tokens_gap hgap, Host.board_tokens_eq]
    rfl
  | word hgap hbehind _ ih =>
    rw [List.forall_mem_cons] at hwords
    obtain ⟨hword, hwords⟩ := hwords
    rw [tokens_gap hgap, Host.tokens_word hword.plain hword.ne_nil hbehind, if_neg hword.head,
      ih hwords]

theorem Spaced.printable {words : List (List Char)} {line : List Char} (h : Spaced words line)
    (hwords : ∀ word ∈ words, Word word) : line.all isLineChar = true := by
  rw [List.all_eq_true]
  induction h with
  | blank hgap => exact fun c hc => isLineChar_separator (hgap c hc)
  | comment hgap hcomment =>
    intro c hc
    obtain hc | hc := List.mem_append.mp hc
    · exact isLineChar_separator (hgap c hc)
    obtain rfl | hc := List.mem_cons.mp hc
    · rfl
    · exact hcomment c hc
  | word hgap _ _ ih =>
    rw [List.forall_mem_cons] at hwords
    intro c hc
    obtain hc | hc := List.mem_append.mp hc
    · exact isLineChar_separator (hgap c hc)
    obtain hc | hc := List.mem_append.mp hc
    · exact hwords.1.printable c hc
    · exact ih hwords.2 c hc

/-- A printable line has its tokens for words. -/
theorem spaced_tokens {line : List Char} (h : line.all isLineChar = true) :
    Spaced (tokens line) line ∧ ∀ word ∈ tokens line, Word word := by
  induction hlength : line.length using Nat.strong_induction_on generalizing line with
  | _ length ih =>
    rw [List.all_eq_true] at h
    have hgap : ∀ c ∈ line.takeWhile isSeparator, isSeparator c = true :=
      List.all_eq_true.mp List.all_takeWhile
    have hline : line.takeWhile isSeparator ++ line.dropWhile isSeparator = line :=
      List.takeWhile_append_dropWhile
    have htokens := tokens_gap hgap (line.dropWhile isSeparator)
    have hfirst := List.head?_dropWhile_not isSeparator line
    rw [hline] at htokens
    generalize line.takeWhile isSeparator = gap at hgap hline
    generalize line.dropWhile isSeparator = rest at hline htokens hfirst
    subst hline
    rw [htokens]
    cases rest with
    | nil =>
      rw [List.append_nil, Host.board_tokens_eq]
      exact ⟨.blank hgap, nofun⟩
    | cons c text =>
      have hc : isSeparator c = false := by simpa using hfirst
      by_cases hcomment : c = '#'
      · subst hcomment
        have hnone : tokens ('#' :: text) = [] := by
          rw [Host.board_tokens_eq]
          rfl
        rw [hnone]
        exact ⟨.comment hgap fun d hd =>
          h d (List.mem_append_right _ (List.mem_cons_of_mem _ hd)), nofun⟩
      -- the first word, and the text behind it
      have hparts := List.takeWhile_append_dropWhile (p := (!isSeparator ·)) (l := c :: text)
      have hplain : ∀ d ∈ (c :: text).takeWhile (!isSeparator ·), isSeparator d = false := by
        intro d hd
        simpa using List.all_eq_true.mp List.all_takeWhile d hd
      have hbehind : ∀ d, ((c :: text).dropWhile (!isSeparator ·)).head? = some d →
          isSeparator d = true := by
        intro d hd
        have hnot := List.head?_dropWhile_not (!isSeparator ·) (c :: text)
        rw [hd] at hnot
        simpa using hnot
      have hstart : (c :: text).takeWhile (!isSeparator ·) =
          c :: text.takeWhile (!isSeparator ·) :=
        List.takeWhile_cons_of_pos (by rw [hc]; rfl)
      generalize (c :: text).takeWhile (!isSeparator ·) = word at hparts hplain hstart
      generalize (c :: text).dropWhile (!isSeparator ·) = behind at hparts hbehind
      have hne : word ≠ [] := by
        rw [hstart]
        exact List.cons_ne_nil _ _
      have hhead : word.head? ≠ some '#' := by
        rw [hstart]
        exact fun h => hcomment (Option.some.inj h)
      rw [← hparts] at h hlength ⊢
      rw [Host.tokens_word hplain hne hbehind, if_neg hhead]
      have hword := List.length_pos_of_ne_nil hne
      rw [List.length_append, List.length_append] at hlength
      obtain ⟨hspaced, hwords⟩ := ih behind.length (by omega) (List.all_eq_true.mpr fun d hd =>
        h d (List.mem_append_right _ (List.mem_append_right _ hd))) rfl
      exact ⟨.word hgap hbehind hspaced, List.forall_mem_cons.mpr ⟨⟨hne, hplain, hhead,
        fun d hd => h d (List.mem_append_right _ (List.mem_append_left _ hd))⟩, hwords⟩⟩

/-! ## Words -/

/-- A printable character that is no separator and starts no comment. -/
def isWordChar (c : Char) : Bool := '!' ≤ c && c ≤ '~' && c != '#'

theorem word_of_chars {word : List Char} (hne : word ≠ [])
    (h : ∀ c ∈ word, isWordChar c = true) : Word word := by
  have hchar : ∀ c ∈ word, isLineChar c = true ∧ isSeparator c = false ∧ c ≠ '#' := by
    intro c hc
    have hword := h c hc
    rw [isWordChar, Bool.and_eq_true, Bool.and_eq_true, decide_eq_true_eq, decide_eq_true_eq,
      bne_iff_ne] at hword
    obtain ⟨⟨hfirst, hlast⟩, hcomment⟩ := hword
    refine ⟨?_, ?_, hcomment⟩
    · rw [isLineChar, Bool.or_eq_true, Bool.and_eq_true, decide_eq_true_eq, decide_eq_true_eq]
      exact .inl ⟨Char.le_trans (by decide) hfirst, hlast⟩
    · rw [isSeparator, Bool.or_eq_false_iff, beq_eq_false_iff_ne, beq_eq_false_iff_ne]
      constructor <;>
      · rintro rfl
        exact absurd hfirst (by decide)
  exact ⟨hne, fun c hc => (hchar c hc).2.1,
    fun hhead => (hchar _ (List.mem_of_mem_head? hhead)).2.2 rfl, fun c hc => (hchar c hc).1⟩

theorem isWordChar_between {low high c : Char} (hlow : '$' ≤ low) (hhigh : high ≤ '~')
    (h : low ≤ c ∧ c ≤ high) : isWordChar c = true := by
  have hfirst := Char.le_trans hlow h.1
  rw [isWordChar, Bool.and_eq_true, Bool.and_eq_true, decide_eq_true_eq, decide_eq_true_eq,
    bne_iff_ne]
  refine ⟨⟨Char.le_trans (by decide) hfirst, Char.le_trans h.2 hhigh⟩, ?_⟩
  rintro rfl
  exact absurd hfirst (by decide)

theorem isWordChar_digit {c : Char} (h : c.isDigit = true) : isWordChar c = true := by
  rw [← Host.classOf_digit, Host.classOf_eq, Bool.and_eq_true, decide_eq_true_eq,
    decide_eq_true_eq] at h
  exact isWordChar_between (by decide) (by decide) h

theorem isWordChar_name {c : Char} (h : isNameChar c = true) : isWordChar c = true := by
  rw [isNameChar, Bool.or_eq_true, Bool.or_eq_true, Bool.and_eq_true, Bool.and_eq_true,
    decide_eq_true_eq, decide_eq_true_eq, decide_eq_true_eq, decide_eq_true_eq, beq_iff_eq] at h
  obtain (h | h) | rfl := h
  · exact isWordChar_between (by decide) (by decide) h
  · exact isWordChar_between (by decide) (by decide) h
  · rfl

theorem isWordChar_label {c : Char} (h : isLabelChar c = true) : isWordChar c = true := by
  rw [isLabelChar, Bool.or_eq_true, Bool.or_eq_true, Bool.or_eq_true, Bool.and_eq_true,
    decide_eq_true_eq, decide_eq_true_eq, beq_iff_eq, beq_iff_eq] at h
  obtain ((h | h) | rfl) | rfl := h
  · exact isWordChar_name h
  · exact isWordChar_between (by decide) (by decide) h
  · rfl
  · rfl

/-- Text of word characters alone. -/
def WordText (text : List Char) : Prop := ∀ c ∈ text, isWordChar c = true

instance (text : List Char) : Decidable (WordText text) :=
  inferInstanceAs (Decidable (∀ c ∈ text, isWordChar c = true))

theorem WordText.append {a b : List Char} (ha : WordText a) (hb : WordText b) :
    WordText (a ++ b) := fun c hc => (List.mem_append.mp hc).elim (ha c) (hb c)

theorem WordText.cons {c : Char} {text : List Char} (hc : isWordChar c = true)
    (h : WordText text) : WordText (c :: text) := List.forall_mem_cons.mpr ⟨hc, h⟩

theorem wordText_digits {text : List Char} (h : text.all Char.isDigit = true) : WordText text :=
  fun c hc => isWordChar_digit (List.all_eq_true.mp h c hc)

theorem wordText_toDigits (n : Nat) : WordText (Nat.toDigits 10 n) :=
  wordText_digits (Host.canonical_toDigits n).2.1

theorem ShortName.wordText {text extension : List Char} (hextension : WordText extension)
    (h : ShortName text extension) : WordText text := by
  obtain ⟨stem, rfl, -, -, hstem⟩ := h
  exact WordText.append (fun c hc => isWordChar_name (hstem c hc)) (.cons rfl hextension)

theorem wordText_seconds {digits milliseconds : Nat} {text : List Char}
    (h : SpellsSeconds digits text milliseconds) : WordText text ∧ text ≠ [] := by
  obtain ⟨hwhole, -⟩ | ⟨hwhole, -, -, -, hfraction⟩ := h
  · exact ⟨wordText_digits hwhole.2.1, hwhole.1⟩
  · exact ⟨(wordText_digits hwhole.2.1).append (.cons rfl (wordText_digits hfraction)),
      List.append_ne_nil_of_left_ne_nil hwhole.1 _⟩

theorem wordText_tenths {negative : Bool} {tenths : Nat} {text : List Char}
    (h : SpellsTenths negative text tenths) : WordText text := by
  have hsign : WordText (Host.signOf negative) := by cases negative <;> decide
  obtain ⟨hwhole, -⟩ | ⟨hwhole, -, hc⟩ := h
  · exact hsign.append (wordText_digits hwhole.2.1)
  · exact hsign.append ((wordText_digits hwhole.2.1).append (.cons rfl (.cons
      (isWordChar_digit hc) nofun)))

theorem wordText_printEntries (entries : List Host.CutEntry) :
    WordText (printEntries entries) := by
  have hentry : ∀ entry : Host.CutEntry, WordText entry.spelling.toList := fun entry => by
    have hkind : WordText (Host.kindName entry.kind) := by cases entry.kind <;> decide
    rw [Host.spelling_toList]
    exact (wordText_toDigits _).append (.cons rfl ((wordText_toDigits _).append (.cons rfl hkind)))
  induction entries with
  | nil => exact nofun
  | cons entry entries ih =>
    by_cases hlast : entries = []
    · rw [hlast, Host.printEntries_singleton]
      exact hentry entry
    · rw [Host.printEntries_cons entry hlast]
      exact (hentry entry).append (.cons rfl ih)

/-- An option of an item in range is a word. -/
theorem WritesOption.word {item : Item} {key : OptionKey} {word : List Char}
    (h : WritesOption item key word) (hrange : key.InRange item) : Word word := by
  obtain ⟨value, rfl, hspells⟩ := h
  have hkey : WordText key.text ∧ key.text ≠ [] := by cases key <;> decide
  refine word_of_chars (List.append_ne_nil_of_left_ne_nil hkey.2 _) (hkey.1.append ?_)
  cases key with
  | label =>
    obtain ⟨-, rfl⟩ := hspells
    exact fun c hc => isWordChar_label (hrange c hc)
  | scn =>
    obtain ⟨hne, rfl⟩ := hspells
    exact ShortName.wordText (by decide) (hrange.resolve_left hne)
  | seed =>
    obtain ⟨seed, -, rfl⟩ := hspells
    exact wordText_toDigits _
  | cut =>
    obtain ⟨-, rfl⟩ := hspells
    exact wordText_printEntries _
  | att =>
    obtain ⟨_, hspells, -⟩ := hspells
    exact wordText_tenths hspells
  | dur =>
    obtain ⟨_, -, _, hspells, -⟩ := hspells
    exact (wordText_seconds hspells).1

theorem exists_key {item : Item} {keys : List OptionKey} {words : List (List Char)}
    {word : List Char} (h : List.Forall₂ (WritesOption item) keys words) (hword : word ∈ words) :
    ∃ key ∈ keys, WritesOption item key word := by
  induction h with
  | nil => cases hword
  | cons hfirst _ ih =>
    obtain rfl | hword := List.mem_cons.mp hword
    · exact ⟨_, List.mem_cons_self, hfirst⟩
    · obtain ⟨key, hkey, hwrites⟩ := ih hword
      exact ⟨key, List.mem_cons_of_mem _ hkey, hwrites⟩

/-- The words that write an item in range. -/
theorem InRange.words {offered : OfferedRoutes} {item : Item} (hrange : InRange offered item)
    {gap : List Char} {words : List (List Char)} {keys : List OptionKey}
    (hgap : SpellsFrames gapMaxWholeDigits gap item.gap)
    (hoptions : WritesOptions item words keys) :
    ∀ word ∈ item.file.chars :: gap :: routeName item.route :: words, Word word := by
  intro word hword
  obtain rfl | rfl | rfl | hword := by simpa using hword
  · obtain ⟨stem, hstem, -⟩ := hrange.file
    refine word_of_chars ?_ (hrange.file.wordText (by decide))
    rw [hstem]
    exact List.append_ne_nil_of_right_ne_nil _ (List.cons_ne_nil _ _)
  · obtain ⟨_, hspells, -⟩ := hgap
    exact word_of_chars (wordText_seconds hspells).2 (wordText_seconds hspells).1
  · have hroute : routeName item.route ≠ [] ∧ WordText (routeName item.route) := by
      cases item.route <;> decide
    exact word_of_chars hroute.1 hroute.2
  · obtain ⟨key, -, hkey⟩ := exists_key hoptions.words hword
    exact hkey.word (hrange.options key)

end WaveformGenerator.PlaylistFile
