import Mathlib.Data.List.TakeDrop
import WaveformGenerator.Tx.CommandParser

/-!
# The TX commands as a language

What each command is written as and what it asks for, and what the parser makes of a text that is
one, or is none.
-/

namespace WaveformGenerator.Tx

inductive Command
  | info
  | send
  | reset
  | modeQuery
  | mode (token : String) (rate : UInt16) (interleave : UInt8)
  | select (name : Path)
  | generateFile (input name : Path)
  | query
  deriving DecidableEq, Repr

/-- What a caller takes from a parser that is ready. -/
structure Taken where
  valid : Bool
  modeQuery : Bool := false
  request : Request
  deriving DecidableEq, Repr

namespace Command

def text : Command → List Char
  | info => CommandParser.info
  | send => CommandParser.send
  | reset => CommandParser.resetCommand
  | modeQuery => CommandParser.rate ++ ['?']
  | mode token _ _ => CommandParser.rate ++ token.toList
  | select name => CommandParser.select ++ name
  | generateFile input name => CommandParser.generate ++ (input ++ ':' :: name)
  | query => CommandParser.status

/-- The commands that are complete only with their line. -/
def delimited : Command → Bool
  | select _ | generateFile _ _ | query => true
  | _ => false

def Valid : Command → Prop
  | mode token rate interleave => (token, rate, interleave) ∈ modes
  | select name => validFilename name "WAV".toList = true
  | generateFile input name =>
    validFilename input "BIN".toList = true ∧ validFilename name "WAV".toList = true
  | _ => True

def taken : Command → Taken
  | info => { valid := true, request := { kind := .info } }
  | send => { valid := true, request := { kind := .send } }
  | reset => { valid := true, request := { kind := .reset } }
  | modeQuery => { valid := true, modeQuery := true, request := { kind := .query } }
  | mode _ rate interleave => { valid := true, request := { kind := .mode, rate, interleave } }
  | select name => { valid := true, request := { kind := .select, name } }
  | generateFile inputName name =>
    { valid := true, request := { kind := .generateFile, inputName, name } }
  | query => { valid := true, request := { kind := .query } }

/-! ## The commands without a delimiter -/

/-- Their texts. -/
def freeTexts : List (List Char) :=
  [CommandParser.info, CommandParser.send, CommandParser.resetCommand,
    CommandParser.rate ++ ['?']] ++ modes.map fun mode => CommandParser.rate ++ mode.1.toList

theorem text_mem_freeTexts {c : Command} (hvalid : c.Valid) (hfree : c.delimited = false) :
    c.text ∈ freeTexts := by
  cases c with
  | mode token rate interleave =>
    exact List.mem_append_right _ (List.mem_map.mpr ⟨(token, rate, interleave), hvalid, rfl⟩)
  | select | generateFile | query => cases hfree
  | _ => decide +kernel

/-- No text of these is the beginning of another. -/
theorem eq_of_prefix_freeTexts : ∀ a ∈ freeTexts, ∀ b ∈ freeTexts, a <+: b → a = b := by
  decide +kernel

theorem not_begins_append {a head : List Char} (hapart : ¬a <+: head ∧ ¬head <+: a)
    (tail : List Char) : ¬a <+: head ++ tail := by
  intro hbegins
  rcases List.prefix_or_prefix_of_prefix hbegins (List.prefix_append head tail) with h | h
  · exact hapart.1 h
  · exact hapart.2 h

/-- No command that needs its line begins with one of these. -/
theorem not_prefix_of_delimited {c : Command} (h : c.delimited = true) {a : List Char}
    (ha : a ∈ freeTexts) : ¬a <+: c.text := by
  cases c with
  | select name =>
    have hapart : ∀ a ∈ freeTexts, ¬a <+: CommandParser.select ∧ ¬CommandParser.select <+: a := by
      decide +kernel
    exact not_begins_append (hapart a ha) name
  | generateFile input name =>
    have hapart : ∀ a ∈ freeTexts,
        ¬a <+: CommandParser.generate ∧ ¬CommandParser.generate <+: a := by
      decide +kernel
    exact not_begins_append (hapart a ha) (input ++ ':' :: name)
  | query =>
    have hapart : ∀ a ∈ freeTexts, ¬a <+: CommandParser.status := by decide +kernel
    exact hapart a ha
  | _ => cases h

/-! ## File names -/

def IsStemChar (ch : Char) : Prop := ('A' ≤ ch ∧ ch ≤ 'Z') ∨ ('0' ≤ ch ∧ ch ≤ '9') ∨ ch = '_'

theorem stem_of_skipStem {fuel : Nat} {text rest : List Char}
    (h : skipStem fuel text = some rest) :
    ∃ stem, text = stem ++ rest ∧ ∀ ch ∈ stem, IsStemChar ch := by
  induction fuel generalizing text with
  | zero =>
    cases h
    exact ⟨[], rfl, fun ch hch => absurd hch List.not_mem_nil⟩
  | succ fuel ih =>
    cases text with
    | nil =>
      cases h
      exact ⟨[], rfl, fun ch hch => absurd hch List.not_mem_nil⟩
    | cons ch text =>
      rw [skipStem] at h
      split at h
      · cases h
        exact ⟨[], rfl, fun ch hch => absurd hch List.not_mem_nil⟩
      split at h
      · rename_i hstem
        obtain ⟨stem, rfl, hall⟩ := ih h
        refine ⟨ch :: stem, rfl, fun c hc => ?_⟩
        rcases List.mem_cons.mp hc with rfl | hc
        · simp only [Bool.or_eq_true, Bool.and_eq_true, decide_eq_true_eq] at hstem
          exact or_assoc.mp hstem
        · exact hall c hc
      · cases h

/-- A valid name is a stem of one to eight characters, the dot and the extension. -/
theorem stem_of_validFilename {name : Path} {extension : List Char}
    (h : validFilename name extension = true) :
    ∃ stem, name = stem ++ '.' :: extension ∧ stem.length ≤ 8 ∧ ∀ ch ∈ stem, IsStemChar ch := by
  rw [validFilename] at h
  split at h
  · cases h
  · rename_i rest hrest
    obtain ⟨stem, rfl, hall⟩ := stem_of_skipStem hrest
    simp only [Bool.and_eq_true, decide_eq_true_eq, List.length_append,
      Nat.add_sub_cancel] at h
    exact ⟨stem, by rw [h.2], h.1.2, hall⟩

example : validFilename "TONE_01.WAV".toList "WAV".toList = true ∧
    validFilename "tone.WAV".toList "WAV".toList = false := by decide +kernel

theorem length_of_validFilename {name extension : List Char}
    (h : validFilename name extension = true) : name.length ≤ 9 + extension.length := by
  obtain ⟨stem, rfl, hlength, -⟩ := stem_of_validFilename h
  rw [List.length_append, List.length_cons]
  omega

theorem copyName_of_valid {name output extension : List Char} (hextension : extension.length = 3)
    (h : validFilename name extension = true) : copyName name output extension = (true, name) := by
  have hlength := length_of_validFilename h
  have hcapacity : ¬nameCapacity ≤ name.length := by
    rw [nameCapacity]
    omega
  simp [copyName, hcapacity, h]

theorem valid_of_copyName {name output extension : List Char}
    (h : (copyName name output extension).1 = true) : validFilename name extension = true := by
  rw [copyName] at h
  split at h
  · cases h
  split at h
  · cases h
  · rename_i hvalid
    rwa [Bool.not_eq_true', Bool.not_eq_false] at hvalid

theorem colon_not_mem {name extension : List Char} (h : validFilename name extension = true)
    (hextension : ':' ∉ extension) : ':' ∉ name := by
  obtain ⟨stem, rfl, -, hall⟩ := stem_of_validFilename h
  intro hcolon
  rcases List.mem_append.mp hcolon with hstem | hrest
  · have hbad : ¬IsStemChar ':' := by
      unfold IsStemChar
      decide
    exact hbad (hall _ hstem)
  · rcases List.mem_cons.mp hrest with hdot | hrest
    · cases hdot
    · exact hextension hrest

/-! ## What the parser makes of a text -/

/-- A parser that holds a text. -/
def holding (text : List Char) : CommandParser := { text }

/-- What a caller takes from it when it is ready. -/
def takenOf (parser : CommandParser) : Taken :=
  { valid := parser.valid, modeQuery := parser.modeQuery, request := parser.request }

theorem parse_free {c : Command} (hvalid : c.Valid) (hfree : c.delimited = false) :
    ((holding c.text).parse false).ready = true ∧
      takenOf ((holding c.text).parse false) = c.taken := by
  cases c with
  | mode token rate interleave =>
    have hall : ∀ m ∈ modes, ((holding (CommandParser.rate ++ m.1.toList)).parse false).ready = true ∧
        takenOf ((holding (CommandParser.rate ++ m.1.toList)).parse false) =
          taken (.mode m.1 m.2.1 m.2.2) := by
      decide +kernel
    have hmode := hall (token, rate, interleave) hvalid
    dsimp only at hmode
    simpa only [text] using hmode
  | select | generateFile | query => cases hfree
  | _ => decide +kernel

/-- A text that begins the rate command and is none of its spellings. -/
theorem parseRate_of_not_free {parser : CommandParser} {token : List Char}
    (h : CommandParser.rate ++ token ∉ freeTexts) : parser.parseRate token = parser := by
  rw [CommandParser.parseRate, if_neg]
  · split
    · rename_i rate interleave hfound
      have hmem := List.mem_of_find?_eq_some hfound
      have htoken := List.find?_some hfound
      rw [decide_eq_true_iff] at htoken
      refine absurd (List.mem_append_right _ (List.mem_map.mpr ⟨_, hmem, ?_⟩)) h
      rw [htoken]
    · rfl
  · rintro rfl
    exact h (by decide +kernel)

theorem eq_append_of_isPrefixOf {head text : List Char} (h : head.isPrefixOf text = true) :
    text = head ++ text.drop head.length := by
  obtain ⟨tail, rfl⟩ := List.isPrefixOf_iff_prefix.mp h
  rw [List.drop_left]

/-- A text that no command without a delimiter is: what is left to compare it with. -/
theorem parseCommand_of_not_free {text : List Char} (h : text ∉ freeTexts) (terminated : Bool) :
    (holding text).parseCommand terminated =
      if CommandParser.rate.isPrefixOf text then holding text
      else if terminated && CommandParser.select.isPrefixOf text then
        (holding text).parseSelect (text.drop CommandParser.select.length)
      else if terminated && CommandParser.generate.isPrefixOf text then
        (holding text).parseGenerate (text.drop CommandParser.generate.length)
      else if terminated && text = CommandParser.status then (holding text).complete .query
      else holding text := by
  have hinfo : text ≠ CommandParser.info := by
    rintro rfl
    exact h (by decide +kernel)
  have hsend : text ≠ CommandParser.send := by
    rintro rfl
    exact h (by decide +kernel)
  have hreset : text ≠ CommandParser.resetCommand := by
    rintro rfl
    exact h (by decide +kernel)
  have htext : (holding text).text = text := rfl
  rw [CommandParser.parseCommand, htext, if_neg hinfo, if_neg hsend, if_neg hreset]
  split
  · rename_i hrate
    refine parseRate_of_not_free ?_
    rw [← eq_append_of_isPrefixOf hrate]
    exact h
  · rfl

/-- Without its line such a text is only held. -/
theorem parse_of_not_free {text : List Char} (h : text ∉ freeTexts) :
    (holding text).parse false = holding text := by
  have hcommand : (holding text).parseCommand false = holding text := by
    rw [parseCommand_of_not_free h]
    simp
  rw [CommandParser.parse, hcommand]
  rfl

/-- With its line a text is ready, with what its command made of it. -/
theorem parse_line (text : List Char) :
    ((holding text).parse true).ready = true ∧
      (((holding text).parseCommand true).ready = true →
        (holding text).parse true = (holding text).parseCommand true) ∧
      (((holding text).parseCommand true).ready = false →
        (takenOf ((holding text).parse true)).valid = false) := by
  have hoverflow : (holding text).overflow = false := rfl
  rw [CommandParser.parse, hoverflow]
  simp only [Bool.false_eq_true, if_false, Bool.true_and]
  cases hready : ((holding text).parseCommand true).ready with
  | false => simp [takenOf]
  | true => simp [hready]

theorem not_isPrefixOf_append {a head : List Char} (hapart : ¬a <+: head ∧ ¬head <+: a)
    (tail : List Char) : a.isPrefixOf (head ++ tail) = false := by
  rw [Bool.eq_false_iff]
  exact fun h => not_begins_append hapart tail (List.isPrefixOf_iff_prefix.mp h)

theorem isPrefixOf_append (head tail : List Char) : head.isPrefixOf (head ++ tail) = true :=
  List.isPrefixOf_iff_prefix.mpr (List.prefix_append head tail)

theorem parseSelect_valid {name : List Char} (h : validFilename name "WAV".toList = true)
    (text : List Char) :
    ((holding text).parseSelect name).ready = true ∧
      takenOf ((holding text).parseSelect name) = (select name).taken := by
  rw [CommandParser.parseSelect, copyName_of_valid rfl h]
  exact ⟨rfl, rfl⟩

theorem span_colon {input : List Char} (h : ':' ∉ input) (name : List Char) :
    (input ++ ':' :: name).span (· ≠ ':') = (input, ':' :: name) := by
  have hall : ∀ ch ∈ input, decide (ch ≠ ':') = true := fun ch hch =>
    decide_eq_true fun heq => h (heq ▸ hch)
  rw [List.span_eq_takeWhile_dropWhile, List.takeWhile_append_of_pos hall,
    List.dropWhile_append_of_pos hall]
  simp

theorem parseGenerate_valid {input name : List Char}
    (hinput : validFilename input "BIN".toList = true)
    (hname : validFilename name "WAV".toList = true) (text : List Char) :
    ((holding text).parseGenerate (input ++ ':' :: name)).ready = true ∧
      takenOf ((holding text).parseGenerate (input ++ ':' :: name)) =
        (generateFile input name).taken := by
  rw [CommandParser.parseGenerate, span_colon (colon_not_mem hinput (by decide))]
  dsimp only
  rw [copyName_of_valid rfl hinput]
  simp only [Bool.not_true, Bool.false_eq_true, if_false]
  rw [copyName_of_valid rfl hname]
  exact ⟨trivial, rfl⟩

/-- Two names that are taken are valid, with a colon between them. -/
theorem names_of_parseGenerate {parser : CommandParser} {names : List Char}
    (h : (parser.parseGenerate names).valid = true) :
    ∃ input name, names = input ++ ':' :: name ∧ validFilename input "BIN".toList = true ∧
      validFilename name "WAV".toList = true := by
  have hsplit : names.takeWhile (· ≠ ':') ++ names.dropWhile (· ≠ ':') = names :=
    List.takeWhile_append_dropWhile
  rw [CommandParser.parseGenerate, List.span_eq_takeWhile_dropWhile] at h
  cases hrest : names.dropWhile (· ≠ ':') with
  | nil =>
    rw [hrest] at h
    cases h
  | cons colon name =>
    have hcolon : colon = ':' := by
      have := List.head?_dropWhile_not (p := (· ≠ ':')) (l := names)
      rw [hrest] at this
      simpa using this
    rw [hrest] at h hsplit
    subst hcolon
    dsimp only at h
    split at h
    · cases h
    · rename_i hinput
      rw [Bool.not_eq_true', Bool.not_eq_false] at hinput
      exact ⟨_, _, hsplit.symm, valid_of_copyName hinput, valid_of_copyName h⟩

theorem text_not_mem_freeTexts {c : Command} (h : c.delimited = true) : c.text ∉ freeTexts :=
  fun hmem => not_prefix_of_delimited h hmem (List.prefix_refl _)

/-- The line of a command that needs one gives it. -/
theorem parse_delimited {c : Command} (hvalid : c.Valid) (h : c.delimited = true) :
    ((holding c.text).parse true).ready = true ∧
      takenOf ((holding c.text).parse true) = c.taken := by
  have hcommand : ((holding c.text).parseCommand true).ready = true ∧
      takenOf ((holding c.text).parseCommand true) = c.taken := by
    rw [parseCommand_of_not_free (text_not_mem_freeTexts h)]
    cases c with
    | select name =>
      rw [text, not_isPrefixOf_append (by decide +kernel), isPrefixOf_append, List.drop_left]
      exact parseSelect_valid hvalid _
    | generateFile input name =>
      rw [text, not_isPrefixOf_append (by decide +kernel), not_isPrefixOf_append (by decide +kernel),
        isPrefixOf_append, List.drop_left]
      exact parseGenerate_valid hvalid.1 hvalid.2 _
    | query => decide +kernel
    | _ => cases h
  obtain ⟨hready, hsame, -⟩ := parse_line c.text
  refine ⟨hready, ?_⟩
  rw [hsame hcommand.1]
  exact hcommand.2

/-- A line that is no valid command is refused. -/
theorem parse_refused {text : List Char} (hfree : text ∉ freeTexts)
    (h : ∀ c : Command, c.Valid → c.text ≠ text) :
    ((holding text).parse true).ready = true ∧
      (takenOf ((holding text).parse true)).valid = false := by
  obtain ⟨hready, hsame, hnone⟩ := parse_line text
  refine ⟨hready, ?_⟩
  cases hcommand : ((holding text).parseCommand true).ready with
  | false => exact hnone hcommand
  | true =>
    rw [hsame hcommand]
    rw [parseCommand_of_not_free hfree] at hcommand ⊢
    split
    · rfl
    simp only [Bool.true_and]
    split
    · rename_i hselect
      rw [Bool.eq_false_iff]
      intro hvalid
      refine h (.select _) (valid_of_copyName hvalid) (eq_append_of_isPrefixOf hselect).symm
    split
    · rename_i hgenerate
      rw [Bool.eq_false_iff]
      intro hvalid
      obtain ⟨input, name, hnames, hinput, hname⟩ := names_of_parseGenerate hvalid
      have htext := eq_append_of_isPrefixOf hgenerate
      rw [hnames] at htext
      exact h (.generateFile input name) ⟨hinput, hname⟩ htext.symm
    split
    · rename_i hstatus
      rw [decide_eq_true_iff] at hstatus
      exact absurd hstatus.symm (h .query trivial)
    · rfl

end Command

end WaveformGenerator.Tx
