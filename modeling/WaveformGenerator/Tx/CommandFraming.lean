import Mathlib.Data.List.Induction
import WaveformGenerator.Lib.Bytes
import WaveformGenerator.Lib.Text
import WaveformGenerator.Tx.CommandGrammar

/-!
# Framing of the TX commands

A caller feeds the parser a byte at a time and consumes each command when it is ready. What it takes
is the sequence of commands that was written, and a line that is none is refused as a whole.
-/

namespace WaveformGenerator.Tx

namespace CommandParser

open Command (holding takenOf freeTexts)

/-! ## Feeding -/

/-- One byte, and what is consumed behind it. -/
def feedNext (parser : CommandParser) (byte : UInt8) : List Taken × CommandParser :=
  let parser := parser.feed byte
  if parser.ready then ([takenOf parser], parser.reset) else ([], parser)

def feedAll (parser : CommandParser) : List UInt8 → List Taken × CommandParser
  | [] => ([], parser)
  | byte :: bytes =>
    let first := parser.feedNext byte
    let rest := first.2.feedAll bytes
    (first.1 ++ rest.1, rest.2)

/-- The bytes as they come, in pieces of any size. -/
def feedChunks (parser : CommandParser) : List (List UInt8) → List Taken × CommandParser
  | [] => ([], parser)
  | chunk :: chunks =>
    let first := parser.feedAll chunk
    let rest := first.2.feedChunks chunks
    (first.1 ++ rest.1, rest.2)

theorem feedAll_append (parser : CommandParser) (front back : List UInt8) :
    parser.feedAll (front ++ back) =
      ((parser.feedAll front).1 ++ ((parser.feedAll front).2.feedAll back).1,
        ((parser.feedAll front).2.feedAll back).2) := by
  induction front generalizing parser with
  | nil => rfl
  | cons byte front ih =>
    rw [List.cons_append, feedAll, ih]
    simp only [feedAll, List.append_assoc]

theorem feedChunks_eq (parser : CommandParser) (chunks : List (List UInt8)) :
    parser.feedChunks chunks = parser.feedAll chunks.flatten := by
  induction chunks generalizing parser with
  | nil => rfl
  | cons chunk chunks ih =>
    rw [List.flatten_cons, feedAll_append, feedChunks, ih]

/-! ## What is held of a line -/

def IsNewline (byte : UInt8) : Prop := byte = 13 ∨ byte = 10

instance : DecidablePred IsNewline := fun byte => inferInstanceAs (Decidable (byte = 13 ∨ byte = 10))

def Printable (byte : UInt8) : Prop := 32 ≤ byte.toNat ∧ byte.toNat ≤ 126

instance : DecidablePred Printable := fun byte =>
  inferInstanceAs (Decidable (32 ≤ byte.toNat ∧ byte.toNat ≤ 126))

/-- The bytes as the characters of `text_`. -/
def charsOf (bytes : List UInt8) : List Char := bytes.map fun byte => .ofNat byte.toNat

/-- A parser behind bytes that completed no command since the last line: it holds a text, whole or
given up. -/
structure Pending (parser : CommandParser) : Prop where
  shape : parser = { text := parser.text, overflow := parser.overflow }

theorem Pending.initial : Pending {} := ⟨rfl⟩

theorem ready_of_free : ∀ text ∈ freeTexts, ((holding text).parse false).ready = true := by
  decide +kernel

/-- A byte of a line: what the parser makes of it. -/
theorem feedNext_byte {parser : CommandParser} (h : parser.Pending) {byte : UInt8}
    (hbyte : ¬IsNewline byte) :
    parser.feedNext byte =
      if parser.overflow = true then ([], parser)
      else if parser.text.length = textCapacity ∨ ¬Printable byte then
        ([], { parser with overflow := true })
      else
        let text := parser.text ++ [.ofNat byte.toNat]
        if text ∈ freeTexts then ([takenOf ((holding text).parse false)], {})
        else ([], holding text) := by
  obtain ⟨text, request, ready, valid, modeQuery, overflow⟩ := parser
  cases h.shape
  have hnewline : ¬(decide (byte = 13) || decide (byte = 10)) = true := by
    simpa [IsNewline] using hbyte
  have hprintable : (decide (text.length = textCapacity) || decide (byte < 32) ||
      decide (126 < byte)) = true ↔ text.length = textCapacity ∨ ¬Printable byte := by
    simp only [Bool.or_eq_true, decide_eq_true_iff, Printable, UInt8.lt_iff_toNat_lt]
    show (_ ∨ byte.toNat < 32) ∨ 126 < byte.toNat ↔ _
    omega
  rw [feedNext, feed]
  simp only [Bool.false_eq_true, if_false, if_neg hnewline]
  cases overflow with
  | true => simp
  | false =>
    simp only [Bool.false_eq_true, if_false]
    by_cases hbad : text.length = textCapacity ∨ ¬Printable byte
    · rw [if_pos (hprintable.mpr hbad), if_pos hbad]
      rfl
    · rw [if_neg (mt hprintable.mp hbad), if_neg hbad]
      by_cases hfree : text ++ [Char.ofNat byte.toNat] ∈ freeTexts
      · rw [if_pos hfree]
        have hready := ready_of_free _ hfree
        rw [holding] at hready
        rw [if_pos hready]
        rfl
      · rw [if_neg hfree]
        have hparse := Command.parse_of_not_free hfree
        rw [holding] at hparse
        rw [hparse]
        rfl

/-- What a parser holds behind the bytes of a line that completed no command. -/
structure Held (line : List UInt8) (parser : CommandParser) : Prop extends Pending parser where
  whole : parser.overflow = false →
    parser.text = charsOf line ∧ ∀ byte ∈ line, Printable byte
  lost : parser.overflow = true → textCapacity < line.length ∨ ∃ byte ∈ line, ¬Printable byte
  some : line ≠ [] → parser.text ≠ [] ∨ parser.overflow = true

theorem Held.initial : Held [] {} where
  toPending := .initial
  whole _ := ⟨rfl, fun _ hbyte => absurd hbyte List.not_mem_nil⟩
  lost := nofun
  some h := absurd rfl h

theorem feedAll_singleton (parser : CommandParser) (byte : UInt8) :
    parser.feedAll [byte] = parser.feedNext byte := by
  rw [feedAll, feedAll, List.append_nil]

/-- A line that begins with no command without a delimiter is held to its end. -/
theorem held_line {line : List UInt8} (hnewline : ∀ byte ∈ line, ¬IsNewline byte)
    (hfree : ∀ front, front <+: line → charsOf front ∉ freeTexts) :
    (feedAll {} line).1 = [] ∧ Held line (feedAll {} line).2 := by
  induction line using List.reverseRecOn with
  | nil => exact ⟨rfl, .initial⟩
  | append_singleton line byte ih =>
    obtain ⟨htaken, hheld⟩ := ih (fun b hb => hnewline b (List.mem_append_left _ hb))
      fun front hfront => hfree front (hfront.trans (List.prefix_append _ _))
    rw [feedAll_append, feedAll_singleton, htaken, List.nil_append]
    generalize (feedAll {} line).2 = parser at hheld
    have hbyte : ¬IsNewline byte := hnewline byte (List.mem_append_right _ List.mem_cons_self)
    rw [feedNext_byte hheld.toPending hbyte]
    split
    · rename_i hoverflow
      refine ⟨rfl, hheld.toPending, ?_, fun _ => ?_, fun _ => .inr hoverflow⟩
      · intro hnot
        rw [hoverflow] at hnot
        cases hnot
      · rcases hheld.lost hoverflow with hlong | ⟨bad, hmem, hbad⟩
        · exact .inl (by rw [List.length_append]; omega)
        · exact .inr ⟨bad, List.mem_append_left _ hmem, hbad⟩
    rename_i hoverflow
    rw [Bool.not_eq_true] at hoverflow
    obtain ⟨htext, hall⟩ := hheld.whole hoverflow
    have hlength : parser.text.length = line.length := by rw [htext, charsOf, List.length_map]
    split
    · rename_i hbad
      refine ⟨rfl, ⟨?_⟩, nofun, fun _ => ?_, fun _ => .inr rfl⟩
      · rw [hheld.shape]
      · rcases hbad with hfull | hbad
        · exact .inl (by rw [List.length_append, List.length_singleton]; omega)
        · exact .inr ⟨byte, List.mem_append_right _ List.mem_cons_self, hbad⟩
    rename_i hgood
    rw [not_or, not_not] at hgood
    have hchars : parser.text ++ [Char.ofNat byte.toNat] = charsOf (line ++ [byte]) := by
      rw [htext, charsOf, charsOf, List.map_append]
      rfl
    have hnot := hfree (line ++ [byte]) (List.prefix_refl _)
    dsimp only
    rw [hchars, if_neg hnot]
    refine ⟨rfl, ⟨rfl⟩, fun _ => ⟨rfl, fun b hb => ?_⟩, nofun, fun _ => .inl ?_⟩
    · rcases List.mem_append.mp hb with hb | hb
      · exact hall b hb
      · exact List.mem_singleton.mp hb ▸ hgood.2
    · simp [holding, charsOf]

/-! ## A line's end -/

theorem feedNext_newline_empty {newline : UInt8} (h : IsNewline newline) :
    feedNext {} newline = ([], {}) := by
  rcases h with rfl | rfl <;> rfl

theorem feedAll_newlines {newlines : List UInt8} (h : ∀ byte ∈ newlines, IsNewline byte) :
    feedAll {} newlines = ([], {}) := by
  induction newlines with
  | nil => rfl
  | cons newline newlines ih =>
    rw [feedAll, feedNext_newline_empty (h newline List.mem_cons_self),
      ih fun byte hbyte => h byte (List.mem_cons_of_mem _ hbyte)]
    rfl

theorem feed_newline {parser : CommandParser} (hready : parser.ready = false) {newline : UInt8}
    (h : IsNewline newline) (hsome : parser.text ≠ [] ∨ parser.overflow = true) :
    parser.feed newline = parser.parse true := by
  have hnewline : (decide (newline = 13) || decide (newline = 10)) = true := by
    simpa [IsNewline] using h
  have hheld : (decide (parser.text ≠ []) || parser.overflow) = true := by
    simpa using hsome
  rw [feed, hready]
  simp only [Bool.false_eq_true, if_false, if_pos hnewline, if_pos hheld]

/-- The end of a line of which something is held: it is done with. -/
theorem Pending.newline {parser : CommandParser} (h : parser.Pending)
    (hsome : parser.text ≠ [] ∨ parser.overflow = true) {newline : UInt8}
    (hnewline : IsNewline newline) :
    parser.feedNext newline = ([takenOf (parser.parse true)], {}) := by
  have hready : (parser.parse true).ready = true := by
    rw [CommandParser.parse]
    split
    · rfl
    · dsimp only
      split
      · rfl
      · rename_i hready
        simpa using hready
  have hnot : parser.ready = false := by rw [h.shape]
  rw [feedNext, feed_newline hnot hnewline hsome, if_pos hready]
  rfl

theorem Pending.feedNext {parser : CommandParser} (h : parser.Pending) {byte : UInt8}
    (hbyte : ¬IsNewline byte) : (parser.feedNext byte).2.Pending := by
  rw [feedNext_byte h hbyte]
  split
  · exact h
  split
  · refine ⟨?_⟩
    rw [h.shape]
  dsimp only
  split
  · exact .initial
  · exact ⟨rfl⟩

theorem Pending.feedAll {line : List UInt8} (hline : ∀ byte ∈ line, ¬IsNewline byte)
    {parser : CommandParser} (h : parser.Pending) : (parser.feedAll line).2.Pending := by
  induction line generalizing parser with
  | nil => exact h
  | cons byte line ih =>
    rw [CommandParser.feedAll]
    exact ih (fun b hb => hline b (List.mem_cons_of_mem _ hb))
      (h.feedNext (hline byte List.mem_cons_self))

/-- Behind every line the parser is as it began. -/
theorem feedAll_line {line : List UInt8} (hline : ∀ byte ∈ line, ¬IsNewline byte) {newline : UInt8}
    (hnewline : IsNewline newline) : (feedAll {} (line ++ [newline])).2 = {} := by
  have hpending := Pending.feedAll hline .initial
  rw [feedAll_append, feedAll_singleton]
  generalize (feedAll {} line).2 = parser at hpending
  by_cases hsome : parser.text ≠ [] ∨ parser.overflow = true
  · rw [hpending.newline hsome hnewline]
  · rw [not_or, not_not, Bool.not_eq_true] at hsome
    have hempty : parser = {} := by rw [hpending.shape, hsome.1, hsome.2]
    rw [hempty, feedNext_newline_empty hnewline]

theorem parse_lost {parser : CommandParser} (h : parser.overflow = true) :
    (takenOf (parser.parse true)).valid = false := by
  rw [CommandParser.parse, if_pos h]
  rfl

theorem Held.eq_holding {line : List UInt8} {parser : CommandParser} (h : Held line parser)
    (hwhole : parser.overflow = false) : parser = holding (charsOf line) := by
  rw [h.shape, hwhole, (h.whole hwhole).1]
  rfl

end CommandParser

/-! ## What is written -/

namespace Command

open CommandParser (charsOf Printable IsNewline Held feedAll)

def bytes (c : Command) : List UInt8 := c.text.map fun ch => .ofNat ch.toNat

def PrintableChar (ch : Char) : Prop := 32 ≤ ch.toNat ∧ ch.toNat ≤ 126

instance : DecidablePred PrintableChar := fun ch =>
  inferInstanceAs (Decidable (32 ≤ ch.toNat ∧ ch.toNat ≤ 126))

theorem printable_stem {ch : Char} (h : IsStemChar ch) : PrintableChar ch := by
  have hval : ch.val.toNat = ch.toNat := rfl
  rcases h with ⟨hlow, hhigh⟩ | ⟨hlow, hhigh⟩ | rfl
  · have h1 : 65 ≤ ch.toNat := UInt32.le_iff_toNat_le.mp hlow
    have h2 : ch.toNat ≤ 90 := UInt32.le_iff_toNat_le.mp hhigh
    exact ⟨by omega, by omega⟩
  · have h1 : 48 ≤ ch.toNat := UInt32.le_iff_toNat_le.mp hlow
    have h2 : ch.toNat ≤ 57 := UInt32.le_iff_toNat_le.mp hhigh
    exact ⟨by omega, by omega⟩
  · decide

theorem printable_name {name extension : List Char} (h : validFilename name extension = true)
    (hextension : ∀ ch ∈ extension, PrintableChar ch) : ∀ ch ∈ name, PrintableChar ch := by
  obtain ⟨stem, rfl, -, hall⟩ := stem_of_validFilename h
  intro ch hch
  rcases List.mem_append.mp hch with hch | hch
  · exact printable_stem (hall ch hch)
  · rcases List.mem_cons.mp hch with rfl | hch
    · decide
    · exact hextension ch hch

theorem printable_text {c : Command} (h : c.Valid) : ∀ ch ∈ c.text, PrintableChar ch := by
  cases c with
  | mode token rate interleave =>
    have hall : ∀ m ∈ modes, ∀ ch ∈ CommandParser.rate ++ m.1.toList, PrintableChar ch := by
      decide +kernel
    simpa only [text] using hall (token, rate, interleave) h
  | select name =>
    intro ch hch
    rcases List.mem_append.mp hch with hch | hch
    · exact (by decide +kernel : ∀ ch ∈ CommandParser.select, PrintableChar ch) ch hch
    · exact printable_name h (by decide +kernel) ch hch
  | generateFile input name =>
    intro ch hch
    rcases List.mem_append.mp hch with hch | hch
    · exact (by decide +kernel : ∀ ch ∈ CommandParser.generate, PrintableChar ch) ch hch
    rcases List.mem_append.mp hch with hch | hch
    · exact printable_name h.1 (by decide +kernel) ch hch
    rcases List.mem_cons.mp hch with rfl | hch
    · decide
    · exact printable_name h.2 (by decide +kernel) ch hch
  | _ => decide +kernel

theorem length_text_le {c : Command} (h : c.Valid) : c.text.length ≤ CommandParser.textCapacity := by
  have hcapacity : CommandParser.textCapacity = 256 := rfl
  cases c with
  | mode token rate interleave =>
    have hall : ∀ m ∈ modes, (CommandParser.rate ++ m.1.toList).length ≤ 256 := by decide +kernel
    rw [text, hcapacity]
    exact hall (token, rate, interleave) h
  | select name =>
    have hname := length_of_validFilename h
    have hextension : "WAV".toList.length = 3 := rfl
    have hhead : CommandParser.select.length = 13 := rfl
    rw [text, List.length_append]
    omega
  | generateFile input name =>
    have hinput := length_of_validFilename h.1
    have hname := length_of_validFilename h.2
    have hbin : "BIN".toList.length = 3 := rfl
    have hwav : "WAV".toList.length = 3 := rfl
    have hhead : CommandParser.generate.length = 12 := rfl
    rw [text, List.length_append, List.length_append, List.length_cons]
    omega
  | _ => decide +kernel

theorem text_ne_nil (c : Command) : c.text ≠ [] := by
  cases c <;> exact List.cons_ne_nil _ _

theorem charsOf_bytes {c : Command} (h : c.Valid) : charsOf c.bytes = c.text := by
  rw [charsOf, bytes, List.map_map]
  refine (List.map_congr_left fun ch hch => ?_).trans (List.map_id _)
  have hprintable := printable_text h ch hch
  have hbyte : (UInt8.ofNat ch.toNat).toNat = ch.toNat := by
    rw [UInt8.toNat_ofNat']
    exact Nat.mod_eq_of_lt (Nat.lt_of_le_of_lt hprintable.2 (by decide))
  rw [Function.comp_apply, hbyte, Char.ofNat_toNat]
  rfl

theorem printable_bytes {c : Command} (h : c.Valid) : ∀ byte ∈ c.bytes, Printable byte := by
  intro byte hbyte
  obtain ⟨ch, hch, rfl⟩ := List.mem_map.mp hbyte
  have hprintable := printable_text h ch hch
  rw [Printable, UInt8.toNat_ofNat', Nat.mod_eq_of_lt (Nat.lt_of_le_of_lt hprintable.2 (by decide))]
  exact hprintable

theorem not_newline_of_printable {byte : UInt8} (h : Printable byte) : ¬IsNewline byte := by
  rintro (rfl | rfl)
  · exact absurd h.1 (by decide)
  · exact absurd h.1 (by decide)

theorem length_bytes (c : Command) : c.bytes.length = c.text.length := List.length_map _

theorem length_charsOf (bytes : List UInt8) : (charsOf bytes).length = bytes.length :=
  List.length_map _

/-- The beginnings of a command's bytes are those of its text. -/
theorem charsOf_begins {c : Command} (h : c.Valid) {front : List UInt8} (hfront : front <+: c.bytes) :
    charsOf front <+: c.text := by
  rw [← charsOf_bytes h]
  exact hfront.map _

/-- Before its end no command is taken for another without a delimiter. -/
theorem not_free_of_begins {c : Command} (h : c.Valid) {front : List UInt8}
    (hfront : front <+: c.bytes) (hproper : c.delimited = true ∨ front.length < c.bytes.length) :
    charsOf front ∉ freeTexts := by
  intro hmem
  have hbegins := charsOf_begins h hfront
  cases hdelimited : c.delimited with
  | true => exact not_prefix_of_delimited hdelimited hmem hbegins
  | false =>
    have hsame := eq_of_prefix_freeTexts _ hmem _ (text_mem_freeTexts h hdelimited) hbegins
    have hlength := congrArg List.length hsame
    rw [length_charsOf, ← length_bytes] at hlength
    rcases hproper with hdelim | hshort
    · rw [hdelimited] at hdelim
      cases hdelim
    · omega

/-- The bytes of a command, or a part of them, are held as they are. -/
theorem held_whole {c : Command} (h : c.Valid) {front : List UInt8} (hfront : front <+: c.bytes)
    {parser : CommandParser} (hheld : Held front parser) :
    parser = holding (charsOf front) := by
  refine hheld.eq_holding ?_
  rw [Bool.eq_false_iff]
  intro hoverflow
  have hlength := hfront.length_le
  rw [length_bytes] at hlength
  have hcapacity := length_text_le h
  rcases hheld.lost hoverflow with hlong | ⟨byte, hmem, hbad⟩
  · omega
  · exact hbad (printable_bytes h byte (hfront.subset hmem))

theorem feedAll_free {c : Command} (h : c.Valid) (hfree : c.delimited = false) :
    feedAll {} c.bytes = ([c.taken], {}) := by
  have hne : c.bytes ≠ [] := fun hnil => text_ne_nil c (List.map_eq_nil_iff.mp hnil)
  have hsplit := List.dropLast_append_getLast hne
  generalize c.bytes.dropLast = front at hsplit
  generalize c.bytes.getLast hne = byte at hsplit
  have hfront : front <+: c.bytes := hsplit ▸ List.prefix_append _ _
  have hlength : c.bytes.length = front.length + 1 := by rw [← hsplit, List.length_append]; rfl
  have hprintable := printable_bytes h
  obtain ⟨htaken, hheld⟩ := CommandParser.held_line
    (fun b hb => not_newline_of_printable (hprintable b (hfront.subset hb)))
    fun part hpart => not_free_of_begins h (hpart.trans hfront)
      (.inr (by have := hpart.length_le; omega))
  have hbyte : Printable byte := hprintable byte (hsplit ▸ List.mem_append_right _ List.mem_cons_self)
  have htext : charsOf front ++ [Char.ofNat byte.toNat] = c.text := by
    rw [← charsOf_bytes h, ← hsplit, charsOf, charsOf, List.map_append]
    rfl
  have hroom : ¬((holding (charsOf front)).text.length = CommandParser.textCapacity ∨
      ¬Printable byte) := by
    have hcapacity := length_text_le h
    rw [← length_bytes] at hcapacity
    rw [not_or, not_not]
    refine ⟨?_, hbyte⟩
    show ¬(charsOf front).length = _
    rw [length_charsOf]
    omega
  rw [← hsplit, CommandParser.feedAll_append, htaken, CommandParser.feedAll_singleton,
    held_whole h hfront hheld,
    CommandParser.feedNext_byte ⟨rfl⟩ (not_newline_of_printable hbyte), if_neg hroom]
  have hnot : ¬(holding (charsOf front)).overflow = true := Bool.false_ne_true
  rw [if_neg hnot]
  dsimp only [holding]
  rw [htext, if_pos (text_mem_freeTexts h hfree), List.nil_append]
  rw [← (parse_free h hfree).2]
  rfl

theorem feedAll_delimited {c : Command} (h : c.Valid) (hdelimited : c.delimited = true)
    {newline : UInt8} (hnewline : IsNewline newline) :
    feedAll {} (c.bytes ++ [newline]) = ([c.taken], {}) := by
  have hne : c.bytes ≠ [] := fun hnil => text_ne_nil c (List.map_eq_nil_iff.mp hnil)
  obtain ⟨htaken, hheld⟩ := CommandParser.held_line
    (fun b hb => not_newline_of_printable (printable_bytes h b hb))
    fun part hpart => not_free_of_begins h hpart (.inl hdelimited)
  rw [CommandParser.feedAll_append, CommandParser.feedAll_singleton, htaken,
    hheld.toPending.newline (hheld.some hne) hnewline, held_whole h (List.prefix_refl _) hheld, charsOf_bytes h,
    (parse_delimited h hdelimited).2]
  rfl

end Command

/-- A command as it is written: with the newlines behind it. -/
structure Written where
  command : Command
  newlines : List UInt8

namespace Written

def bytes (w : Written) : List UInt8 := w.command.bytes ++ w.newlines

/-- The newlines are optional where the command needs no delimiter. -/
structure WellFormed (w : Written) : Prop where
  valid : w.command.Valid
  newlines : ∀ byte ∈ w.newlines, CommandParser.IsNewline byte
  delimiter : w.command.delimited = true → w.newlines ≠ []

theorem feedAll_bytes {w : Written} (h : w.WellFormed) :
    CommandParser.feedAll {} w.bytes = ([w.command.taken], {}) := by
  obtain ⟨command, newlines⟩ := w
  obtain ⟨hvalid, hnewlines, hdelimiter⟩ := h
  dsimp only at hvalid hnewlines hdelimiter
  cases hdelimited : command.delimited with
  | false =>
    rw [bytes, CommandParser.feedAll_append, Command.feedAll_free hvalid hdelimited]
    dsimp only
    rw [CommandParser.feedAll_newlines hnewlines, List.append_nil]
  | true =>
    obtain ⟨newline, more, rfl⟩ := List.exists_cons_of_ne_nil (hdelimiter hdelimited)
    have hsplit : command.bytes ++ newline :: more = command.bytes ++ [newline] ++ more := by
      rw [List.append_assoc]
      rfl
    rw [bytes, hsplit, CommandParser.feedAll_append, Command.feedAll_delimited hvalid hdelimited
      (hnewlines newline List.mem_cons_self)]
    dsimp only
    rw [CommandParser.feedAll_newlines fun byte hbyte =>
      hnewlines byte (List.mem_cons_of_mem _ hbyte), List.append_nil]

theorem feedAll_written {written : List Written} (h : ∀ w ∈ written, w.WellFormed) :
    CommandParser.feedAll {} (written.flatMap bytes) =
      (written.map (·.command.taken), {}) := by
  induction written with
  | nil => rfl
  | cons w written ih =>
    rw [List.flatMap_cons, CommandParser.feedAll_append, feedAll_bytes (h w List.mem_cons_self)]
    dsimp only
    rw [ih fun v hv => h v (List.mem_cons_of_mem _ hv)]
    rfl

end Written

/-- A line of bytes that no command is. -/
structure Refused (line : List UInt8) : Prop where
  nonempty : line ≠ []
  oneLine : ∀ byte ∈ line, ¬CommandParser.IsNewline byte
  begins : ∀ c : Command, c.Valid → c.delimited = false → ¬c.bytes <+: line
  invalid : CommandParser.textCapacity < line.length ∨ ∀ c : Command, c.Valid → c.bytes ≠ line

namespace Command

/-- A text without a delimiter is a valid command's. -/
theorem exists_of_mem_freeTexts {text : List Char} (h : text ∈ freeTexts) :
    ∃ c : Command, c.Valid ∧ c.delimited = false ∧ c.text = text := by
  rcases List.mem_append.mp h with hfixed | hmode
  · simp only [List.mem_cons, List.not_mem_nil, or_false] at hfixed
    rcases hfixed with rfl | rfl | rfl | rfl
    · exact ⟨.info, trivial, rfl, rfl⟩
    · exact ⟨.send, trivial, rfl, rfl⟩
    · exact ⟨.reset, trivial, rfl, rfl⟩
    · exact ⟨.modeQuery, trivial, rfl, rfl⟩
  · obtain ⟨⟨token, rate, interleave⟩, hmem, rfl⟩ := List.mem_map.mp hmode
    exact ⟨.mode token rate interleave, hmem, rfl, rfl⟩

end Command

namespace CommandParser

open Command (holding takenOf freeTexts)

theorem bytes_charsOf (line : List UInt8) :
    (charsOf line).map (fun ch => UInt8.ofNat ch.toNat) = line := by
  rw [charsOf, List.map_map]
  refine (List.map_congr_left fun byte _ => ?_).trans (List.map_id _)
  have hlt := byte.toNat_lt
  have hvalid : byte.toNat.isValidChar := .inl (by omega)
  have hchar : (Char.ofNat byte.toNat).toNat = byte.toNat := by
    rw [Char.ofNat, dif_pos hvalid]
    rfl
  rw [Function.comp_apply, hchar, UInt8.ofNat_toNat]
  rfl

theorem bytes_eq {c : Command} {line : List UInt8} (h : charsOf line = c.text) : c.bytes = line := by
  rw [Command.bytes, ← h]
  exact bytes_charsOf line

/-- A line that is no command gives one refusal. -/
theorem feedAll_refused {line : List UInt8} (h : Refused line) {newline : UInt8}
    (hnewline : IsNewline newline) :
    ∃ taken, taken.valid = false ∧ feedAll {} (line ++ [newline]) = ([taken], {}) := by
  have hfree (front : List UInt8) (hfront : front <+: line) : charsOf front ∉ freeTexts := by
    intro hmem
    obtain ⟨c, hvalid, hdelimited, htext⟩ := Command.exists_of_mem_freeTexts hmem
    have hsame := bytes_eq htext.symm
    exact h.begins c hvalid hdelimited (hsame.symm ▸ hfront)
  obtain ⟨htaken, hheld⟩ := held_line h.oneLine hfree
  rw [feedAll_append, feedAll_singleton, htaken]
  generalize (feedAll {} line).2 = parser at hheld
  rw [hheld.toPending.newline (hheld.some h.nonempty) hnewline]
  refine ⟨_, ?_, rfl⟩
  cases hoverflow : parser.overflow with
  | true => exact parse_lost hoverflow
  | false =>
    rw [hheld.eq_holding hoverflow]
    refine (Command.parse_refused (hfree line (List.prefix_refl _)) fun c hvalid htext => ?_).2
    have hsame := bytes_eq htext.symm
    rcases h.invalid with hlong | hnone
    · have hlength := Command.length_text_le hvalid
      rw [← Command.length_bytes, hsame] at hlength
      omega
    · exact hnone c hvalid hsame

end CommandParser

/-- The commands that are written are the ones that are taken, however their bytes are cut; a line
that is no command is refused as a whole, and what follows any line's end is taken as if it came
first. -/
theorem commands_framed :
    (∀ c c' : Command, c.Valid → c'.Valid → c.delimited = false → c'.delimited = false →
      c.text <+: c'.text → c.text = c'.text) ∧
    (∀ (written : List Written) (chunks : List (List UInt8)), (∀ w ∈ written, w.WellFormed) →
      chunks.flatten = written.flatMap Written.bytes →
      CommandParser.feedChunks {} chunks = (written.map (·.command.taken), {})) ∧
    (∀ (line rest : List UInt8) (newline : UInt8), Refused line → CommandParser.IsNewline newline →
      ∃ taken : Taken, taken.valid = false ∧ CommandParser.feedAll {} (line ++ newline :: rest) =
        (taken :: (CommandParser.feedAll {} rest).1, (CommandParser.feedAll {} rest).2)) ∧
    ∀ (line : List UInt8) (newline : UInt8), (∀ byte ∈ line, ¬CommandParser.IsNewline byte) →
      CommandParser.IsNewline newline → (CommandParser.feedAll {} (line ++ [newline])).2 = {} := by
  refine ⟨fun c c' hc hc' hfree hfree' hbegins => ?_, fun written chunks hwritten hchunks => ?_,
    fun line rest newline hline hnewline => ?_, fun line newline hline hnewline => ?_⟩
  · exact Command.eq_of_prefix_freeTexts _ (Command.text_mem_freeTexts hc hfree) _
      (Command.text_mem_freeTexts hc' hfree') hbegins
  · rw [CommandParser.feedChunks_eq, hchunks, Written.feedAll_written hwritten]
  · obtain ⟨taken, hinvalid, hfeed⟩ := CommandParser.feedAll_refused hline hnewline
    refine ⟨taken, hinvalid, ?_⟩
    have hsplit : line ++ newline :: rest = line ++ [newline] ++ rest := by
      rw [List.append_assoc]
      rfl
    rw [hsplit, CommandParser.feedAll_append, hfeed]
    rfl
  · exact CommandParser.feedAll_line hline hnewline

/-- Three commands in five pieces, the last with its line. -/
theorem commands_framed_threeCommands :
    CommandParser.feedChunks {}
        [textBytes "CMD:MODE", textBytes "M INFO:?CMD:DATA RA", textBytes "TE:600L", [13, 10],
          textBytes "CMD:STATUS:?\n"] =
      ([Command.info.taken, (Command.mode "600L" 600 1).taken, Command.query.taken], {}) := by
  refine commands_framed.2.1 [⟨.info, []⟩, ⟨.mode "600L" 600 1, [13, 10]⟩, ⟨.query, [10]⟩] _ ?_
    (by decide +kernel)
  intro w hw
  simp only [List.mem_cons, List.not_mem_nil, or_false] at hw
  rcases hw with rfl | rfl | rfl
  · exact ⟨trivial, by simp, nofun⟩
  · have hmode : ("600L", 600, 1) ∈ modes := by decide
    exact ⟨hmode, by simp [CommandParser.IsNewline], nofun⟩
  · exact ⟨trivial, by simp [CommandParser.IsNewline], fun _ => List.cons_ne_nil _ _⟩

end WaveformGenerator.Tx
