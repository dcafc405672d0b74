import WaveformGenerator.PlaylistFile.Line

/-!
# The file parser (`common/playlist.hpp`, `FileParser`)

The parser is fed the file's bytes in any split, keeps the line it is in and puts the items of the
lines that ended into a table. `readLines` is what it is for: the rule of a line applied to the
lines of the whole file in turn.
-/

namespace WaveformGenerator.PlaylistFile

def lineFeed : UInt8 := 10

/-- The items of one playlist file, in its order. -/
structure ItemTable where
  items : List Item := []
  bounded : items.length ≤ maxItems := by decide
  distinct : items.Pairwise fun a b => a.label ≠ b.label ∨ b.label.isEmpty = true := by decide

/-- Appends `item`, or says why not. -/
def ItemTable.push (table : ItemTable) (item : Item) : Result ItemTable :=
  if hcount : table.items.length = maxItems then .error tooManyItems
  else if hlabel : !item.label.isEmpty && table.items.any (·.label == item.label) then
    .error duplicateLabel
  else
    .ok
      { items := table.items ++ [item]
        bounded := by
          have := table.bounded
          rw [List.length_append, List.length_singleton]
          omega
        distinct := by
          refine List.pairwise_append.mpr
            ⟨table.distinct, List.pairwise_singleton .., fun a ha b hb => ?_⟩
          rw [List.mem_singleton.mp hb]
          by_cases hempty : item.label.isEmpty = true
          · exact .inr hempty
          · refine .inl fun heq => hlabel ?_
            rw [Bool.and_eq_true, Bool.not_eq_true', List.any_eq_true]
            exact ⟨Bool.not_eq_true _ ▸ hempty, a, ha, beq_iff_eq.mpr heq⟩ }

structure FileParser where
  text : List Char := []
  overflow : Bool := false
  line : LineNumber := 1

/-- `std::bit_cast<char>`; the parser only looks for ASCII characters. -/
def byteChar (byte : UInt8) : Char := Char.ofNat byte.toNat

/-- The text without the CR that may end it. -/
def withoutCr (text : List Char) : List Char :=
  if text.getLast? = some '\r' then text.dropLast else text

/-- An item a line gave goes into the table. -/
def keep (parsed : Result (Option Item)) (table : ItemTable) : Result ItemTable :=
  match parsed with
  | .error status => .error status
  | .ok none => .ok table
  | .ok (some item) => table.push item

namespace FileParser

def append (parser : FileParser) (c : Char) : FileParser :=
  if parser.text.length = maxLineChars then { parser with overflow := true }
  else { parser with text := parser.text ++ [c] }

def endLine (parser : FileParser) (table : ItemTable) (offered : OfferedRoutes) :
    Status × FileParser × ItemTable :=
  let kept := if parser.overflow then .error lineTooLong
    else keep (parseLine (withoutCr parser.text) parser.line offered) table
  match kept with
  | .error status => (status, parser, table)
  | .ok table => (.success, { parser with line := parser.line + 1, text := [] }, table)

def feed (offered : OfferedRoutes) :
    List UInt8 → FileParser → ItemTable → Status × FileParser × ItemTable
  | [], parser, table => (.success, parser, table)
  | byte :: bytes, parser, table =>
    if byte ≠ lineFeed then feed offered bytes (parser.append (byteChar byte)) table
    else
      let ended := parser.endLine table offered
      if !ended.1.isOk then ended else feed offered bytes ended.2.1 ended.2.2

def finish (offered : OfferedRoutes) (parser : FileParser) (table : ItemTable) :
    Status × FileParser × ItemTable :=
  let ended := if parser.text ≠ [] ∨ parser.overflow then parser.endLine table offered
    else (.success, parser, table)
  if !ended.1.isOk then ended
  else if ended.2.2.items = [] then (noItems, { ended.2.1 with line := 0 }, ended.2.2)
  else (.success, ended.2)

/-- The chunks of a file through the parser, until one is refused. -/
def feedAll (offered : OfferedRoutes) :
    List (List UInt8) → FileParser → ItemTable → Status × FileParser × ItemTable
  | [], parser, table => (.success, parser, table)
  | chunk :: chunks, parser, table =>
    let fed := feed offered chunk parser table
    if !fed.1.isOk then fed else feedAll offered chunks fed.2.1 fed.2.2

end FileParser

/-- A file's items, or the status of the refusal and the line it names. -/
abbrev Parsed := Except (Status × LineNumber) ItemTable

def parsed (result : Status × FileParser × ItemTable) : Parsed :=
  if result.1.isOk then .ok result.2.2 else .error (result.1, result.2.1.line)

/-- `parse_playlist_file`: every chunk of the file, and its end. -/
def parseFile (offered : OfferedRoutes) (chunks : List (List UInt8)) : Parsed :=
  let fed := FileParser.feedAll offered chunks {} {}
  parsed (if !fed.1.isOk then fed else FileParser.finish offered fed.2.1 fed.2.2)

/-! ## The file as a whole -/

/-- The lines of a file: what its LFs end, and what is behind the last one unless that is empty. -/
def fileLines (bytes : List UInt8) : List (List UInt8) :=
  let lines := bytes.splitOn lineFeed
  if lines.getLast? = some [] then lines.dropLast else lines

def readLine (offered : OfferedRoutes) (table : ItemTable) (number : LineNumber)
    (line : List UInt8) : Result ItemTable :=
  if maxLineChars < line.length then .error lineTooLong
  else keep (parseLine (withoutCr (line.map byteChar)) number offered) table

/-- The lines in turn, from line `number` on. -/
def readLines (offered : OfferedRoutes) (table : ItemTable) (number : LineNumber) :
    List (List UInt8) → Parsed
  | [] => if table.items = [] then .error (noItems, 0) else .ok table
  | line :: lines =>
    match readLine offered table number line with
    | .error status => .error (status, number)
    | .ok table => readLines offered table (number + 1) lines

/-- A whole file. -/
def readFile (offered : OfferedRoutes) (bytes : List UInt8) : Parsed :=
  readLines offered {} 1 (fileLines bytes)

/-! ## Any split is the whole file -/

theorem fileLines_cons_feed {line : List UInt8} (hline : lineFeed ∉ line) (bytes : List UInt8) :
    fileLines (line ++ lineFeed :: bytes) = line :: fileLines bytes := by
  have hne := List.splitOn_ne_nil lineFeed bytes
  rw [fileLines, List.splitOn_append_cons_self_of_not_mem hline, fileLines]
  simp only [List.getLast?_cons_of_ne_nil hne, List.dropLast_cons_of_ne_nil hne]
  split <;> rfl

theorem fileLines_last {line : List UInt8} (hline : lineFeed ∉ line) :
    fileLines line = if line = [] then [] else [line] := by
  rw [fileLines, List.splitOn_eq_singleton hline]
  simp only [List.getLast?_singleton, Option.some.injEq, List.dropLast_singleton]

namespace FileParser

theorem feed_append (offered : OfferedRoutes) (a b : List UInt8) (parser : FileParser)
    (table : ItemTable) :
    feed offered (a ++ b) parser table =
      let fed := feed offered a parser table
      if !fed.1.isOk then fed else feed offered b fed.2.1 fed.2.2 := by
  induction a generalizing parser table with
  | nil => rfl
  | cons byte a ih =>
    rw [List.cons_append, feed, feed]
    split
    · exact ih ..
    · dsimp only
      split
      · rfl
      · exact ih ..

theorem feedAll_eq (offered : OfferedRoutes) (chunks : List (List UInt8)) (parser : FileParser)
    (table : ItemTable) :
    feedAll offered chunks parser table = feed offered chunks.flatten parser table := by
  induction chunks generalizing parser table with
  | nil => rfl
  | cons chunk chunks ih =>
    rw [List.flatten_cons, feed_append, feedAll]
    dsimp only
    split
    · rfl
    · exact ih ..

/-- The parser in the middle of line `number`, after the bytes `line` of it. -/
structure Reads (parser : FileParser) (line : List UInt8) (number : LineNumber) : Prop where
  text : parser.text = (line.map byteChar).take maxLineChars
  overflow : parser.overflow = decide (maxLineChars < line.length)
  number : parser.line = number

theorem Reads.append {parser : FileParser} {line : List UInt8} {number : LineNumber}
    (h : parser.Reads line number) (byte : UInt8) :
    (parser.append (byteChar byte)).Reads (line ++ [byte]) number := by
  have hlength : parser.text.length = min maxLineChars line.length := by
    rw [h.text, List.length_take, List.length_map]
  unfold FileParser.append
  split
  · rename_i hfull
    refine ⟨?_, ?_, h.number⟩
    · rw [List.map_append, List.take_append_of_le_length (by rw [List.length_map]; omega)]
      exact h.text
    · rw [List.length_append, List.length_singleton, eq_comm, decide_eq_true_eq]
      omega
  · rename_i hroom
    have hshort : line.length < maxLineChars := by omega
    refine ⟨?_, ?_, h.number⟩
    · rw [h.text, List.map_append, List.take_of_length_le (by rw [List.length_map]; omega),
        List.take_of_length_le (by rw [List.length_append, List.length_map]; exact hshort)]
      rfl
    · rw [h.overflow, List.length_append, List.length_singleton, decide_eq_decide]
      omega

end FileParser

/-! ## A refusal is never a success -/

/-- `result` holds no successful status as its error. -/
def Refuses {α : Type} (result : Result α) : Prop :=
  ∀ status, result = .error status → status.isOk = false

theorem Refuses.ok {α : Type} (a : α) : Refuses (.ok a : Result α) := fun _ h => by cases h

theorem Refuses.error {α : Type} {status : Status} (h : status.isOk = false) :
    Refuses (.error status : Result α) := fun _ herror => by cases herror; exact h

theorem refuses_parseGap (text : List Char) : Refuses (parseGap text) := by
  unfold parseGap
  split
  · exact .error rfl
  · split
    · exact .error rfl
    · exact .ok _

theorem refuses_parseDuration (text : List Char) : Refuses (parseDuration text) := by
  unfold parseDuration
  split
  · exact .error rfl
  · split
    · exact .error rfl
    · exact .ok _

theorem refuses_parseRoute (text : List Char) (offered : OfferedRoutes) :
    Refuses (parseRoute text offered) := by
  unfold parseRoute
  split
  · exact .ok _
  · split
    · exact .error rfl
    · split
      · exact .error rfl
      · exact .ok _

theorem refuses_validate (list : Cut.CutList) : Refuses (Cut.validate list) := by
  unfold Cut.validate
  split
  · exact .ok _
  · rename_i h
    exact .error (Bool.not_eq_true _ ▸ h)

theorem refuses_attenuation (text : List Char) : Refuses (Attenuation.parse text) := by
  unfold Attenuation.parse
  dsimp only
  split
  · split
    · exact .error rfl
    · unfold Attenuation.Tenths.of
      split
      · exact .ok _
      · exact .error rfl
  · exact .error rfl

theorem refuses_rule {rule : OptionRule} (h : rule ∈ optionRules) (value : List Char)
    (item : Item) : Refuses (rule.parse value item) := by
  simp only [optionRules, List.mem_cons, List.not_mem_nil, or_false] at h
  obtain rfl | rfl | rfl | rfl | rfl | rfl := h
  · show Refuses (parseLabel value item)
    unfold parseLabel
    split
    · exact .error rfl
    · exact .ok _
  · show Refuses (parseScenario value item)
    unfold parseScenario
    split
    · exact .error rfl
    · exact .ok _
  · show Refuses (parseSeed value item)
    unfold parseSeed
    split
    · exact .error rfl
    · exact .ok _
  · show Refuses (parseCuts value item)
    unfold parseCuts
    split
    · exact .error rfl
    · split
      · rename_i hvalidate
        exact .error (refuses_validate _ _ hvalidate)
      · exact .ok _
  · show Refuses (parseAttenuation value item)
    unfold parseAttenuation
    split
    · rename_i hparse
      exact .error (refuses_attenuation _ _ hparse)
    · exact .ok _
  · show Refuses (parseItemDuration value item)
    unfold parseItemDuration
    split
    · rename_i hparse
      exact .error (refuses_parseDuration _ _ hparse)
    · exact .ok _

theorem refuses_parseOption (token : List Char) (item : Item) (seen : List Nat) :
    Refuses (parseOption token item seen) := by
  have hfrom : ∀ (rules : List OptionRule) (index : Nat), (∀ rule ∈ rules, rule ∈ optionRules) →
      Refuses (parseOptionFrom token item seen index rules) := by
    intro rules
    induction rules with
    | nil => exact fun index _ => .error rfl
    | cons rule rules ih =>
      intro index hrules
      rw [parseOptionFrom]
      split
      · exact ih _ fun r hr => hrules r (List.mem_cons_of_mem _ hr)
      · rename_i value _
        split
        · exact .error rfl
        · have hrule := refuses_rule (hrules rule List.mem_cons_self) value item
          cases hparse : rule.parse value item with
          | error status => exact .error (hrule status hparse)
          | ok item => exact .ok _
  exact hfrom optionRules 0 fun rule h => h

theorem refuses_parseOptions (item : Item) (seen : List Nat) (tokens : List (List Char)) :
    Refuses (parseOptions item seen tokens) := by
  induction tokens generalizing item seen with
  | nil => exact .ok _
  | cons token tokens ih =>
    rw [parseOptions]
    split
    · rename_i hoption
      exact .error (refuses_parseOption _ _ _ _ hoption)
    · exact ih _ _

theorem refuses_parseFields (file gap route : List Char) (offered : OfferedRoutes) (item : Item) :
    Refuses (parseFields file gap route offered item) := by
  unfold parseFields
  split
  · exact .error rfl
  · split
    · rename_i hgap
      exact .error (refuses_parseGap _ _ hgap)
    · split
      · rename_i hroute
        exact .error (refuses_parseRoute _ _ _ hroute)
      · exact .ok _

theorem refuses_parseLine (line : List Char) (number : LineNumber) (offered : OfferedRoutes) :
    Refuses (parseLine line number offered) := by
  unfold parseLine
  split
  · exact .error rfl
  · split
    · exact .ok _
    · split
      · rename_i hfields
        exact .error (refuses_parseFields _ _ _ _ _ _ hfields)
      · split
        · rename_i hoptions
          exact .error (refuses_parseOptions _ _ _ _ hoptions)
        · split
          · exact .error rfl
          · exact .ok _
    · exact .error rfl

theorem refuses_readLine (offered : OfferedRoutes) (table : ItemTable) (number : LineNumber)
    (line : List UInt8) : Refuses (readLine offered table number line) := by
  unfold readLine
  split
  · exact .error rfl
  · have hline := refuses_parseLine (withoutCr (line.map byteChar)) number offered
    cases hparse : parseLine (withoutCr (line.map byteChar)) number offered with
    | error status => exact .error (hline status hparse)
    | ok item =>
      cases item with
      | none => exact .ok _
      | some item =>
        unfold keep ItemTable.push
        dsimp only
        split
        · exact .error rfl
        · split
          · exact .error rfl
          · exact .ok _

/-! ## The parser reads the file -/

/-- A line that ends is read as `readLine` reads it: refused, or the next line is begun. -/
theorem FileParser.Reads.endLine {parser : FileParser} {line : List UInt8} {number : LineNumber}
    (h : parser.Reads line number) (table : ItemTable) (offered : OfferedRoutes) :
    (∃ status, readLine offered table number line = .error status ∧ status.isOk = false ∧
        parser.endLine table offered = (status, parser, table)) ∨
      ∃ kept next, readLine offered table number line = .ok kept ∧
        parser.endLine table offered = (.success, next, kept) ∧ next.Reads [] (number + 1) := by
  have hkept : (if parser.overflow = true then .error lineTooLong
      else keep (parseLine (withoutCr parser.text) parser.line offered) table) =
      readLine offered table number line := by
    rw [h.overflow, h.number, readLine]
    by_cases hlong : maxLineChars < line.length
    · rw [if_pos (decide_eq_true hlong), if_pos hlong]
    · rw [if_neg (by rw [decide_eq_true_eq]; exact hlong), if_neg hlong, h.text,
        List.take_of_length_le (by rw [List.length_map]; omega)]
  unfold FileParser.endLine
  dsimp only
  rw [hkept]
  cases hread : readLine offered table number line with
  | error status => exact .inl ⟨status, rfl, refuses_readLine _ _ _ _ _ hread, rfl⟩
  | ok kept =>
    refine .inr ⟨kept, _, rfl, rfl, rfl, ?_, congrArg (· + 1) h.number⟩
    show parser.overflow = false
    rw [h.overflow, decide_eq_false_iff_not]
    intro hlong
    rw [readLine, if_pos hlong] at hread
    cases hread

/-- The rest of a file through the parser, from the middle of a line on. -/
theorem feed_finish (offered : OfferedRoutes) (bytes : List UInt8) {parser : FileParser}
    {line : List UInt8} {number : LineNumber} (h : parser.Reads line number)
    (hline : lineFeed ∉ line) (table : ItemTable) :
    let fed := FileParser.feed offered bytes parser table
    parsed (if !fed.1.isOk then fed else FileParser.finish offered fed.2.1 fed.2.2) =
      readLines offered table number (fileLines (line ++ bytes)) := by
  induction bytes generalizing parser line number table with
  | nil =>
    have hpending : (parser.text ≠ [] ∨ parser.overflow = true) ↔ line ≠ [] := by
      rw [h.text, h.overflow, decide_eq_true_eq]
      cases line with
      | nil => simp [maxLineChars]
      | cons byte line => simp [maxLineChars]
    have hnoItems : noItems.isOk = false := rfl
    rw [List.append_nil, fileLines_last hline]
    show parsed (FileParser.finish offered parser table) = _
    unfold FileParser.finish
    by_cases hempty : line = []
    · rw [if_neg (mt hpending.mp (not_not.mpr hempty)), if_pos hempty, readLines]
      by_cases hnone : table.items = []
      · simp [hnone, parsed, hnoItems]
      · simp [hnone, parsed]
    · rw [if_pos (hpending.mpr hempty), if_neg hempty, readLines]
      obtain ⟨status, hread, hbad, hend⟩ | ⟨kept, next, hread, hend, hnext⟩ :=
        h.endLine table offered
      · simp [hread, hend, hbad, parsed, h.number]
      · rw [hread, hend]
        by_cases hnone : kept.items = []
        · simp [hnone, parsed, hnoItems, readLines]
        · simp [hnone, parsed, readLines]
  | cons byte bytes ih =>
    by_cases hfeed : byte = lineFeed
    · rw [hfeed, fileLines_cons_feed hline, readLines, FileParser.feed, if_neg (not_not.mpr rfl)]
      obtain ⟨status, hread, hbad, hend⟩ | ⟨kept, next, hread, hend, hnext⟩ :=
        h.endLine table offered
      · simp [hread, hend, hbad, parsed, h.number]
      · rw [hread, hend]
        exact ih hnext List.not_mem_nil kept
    · have hnext := ih (h.append byte) (by
        rw [List.mem_append, List.mem_singleton, not_or]
        exact ⟨hline, fun h => hfeed h.symm⟩) table
      rw [List.append_assoc, List.singleton_append] at hnext
      rw [FileParser.feed, if_pos hfeed]
      exact hnext

/-- However a file is cut into chunks, it is read line by line. -/
theorem parseFile_eq (offered : OfferedRoutes) (chunks : List (List UInt8)) :
    parseFile offered chunks = readFile offered chunks.flatten := by
  unfold parseFile
  rw [FileParser.feedAll_eq]
  exact feed_finish offered chunks.flatten ⟨rfl, rfl, rfl⟩ List.not_mem_nil {}

/-! ## What a file's lines give -/

/-- The item of line `number`. -/
def itemOf (offered : OfferedRoutes) (number : LineNumber) (line : List UInt8) : Option Item :=
  ((parseLine (withoutCr (line.map byteChar)) number offered).toOption).join

/-- The items of the lines from line `number` on, in order. -/
def itemsOf (offered : OfferedRoutes) (number : LineNumber) : List (List UInt8) → List Item
  | [] => []
  | line :: lines => (itemOf offered number line).toList ++ itemsOf offered (number + 1) lines

theorem readLine_ok {offered : OfferedRoutes} {table kept : ItemTable} {number : LineNumber}
    {line : List UInt8} (h : readLine offered table number line = .ok kept) :
    line.length ≤ maxLineChars ∧ kept.items = table.items ++ (itemOf offered number line).toList := by
  unfold readLine at h
  split at h
  · cases h
  · rename_i hshort
    refine ⟨Nat.not_lt.mp hshort, ?_⟩
    unfold itemOf
    cases hparse : parseLine (withoutCr (line.map byteChar)) number offered with
    | error status =>
      rw [hparse] at h
      cases h
    | ok item =>
      rw [hparse] at h
      cases item with
      | none =>
        cases h
        exact (List.append_nil _).symm
      | some item =>
        unfold keep ItemTable.push at h
        dsimp only at h
        split at h
        · cases h
        · split at h
          · cases h
          · cases h
            rfl

/-- What reading lines gives: every line's item, or the first line refused. -/
theorem readLines_spec (offered : OfferedRoutes) (table : ItemTable) (number : LineNumber)
    (lines : List (List UInt8)) :
    match readLines offered table number lines with
    | .ok kept => (∀ line ∈ lines, line.length ≤ maxLineChars) ∧
        kept.items = table.items ++ itemsOf offered number lines ∧ kept.items ≠ []
    | .error (status, refused) =>
      (status = noItems ∧ refused = 0 ∧ table.items ++ itemsOf offered number lines = []) ∨
        ∃ before line after kept, lines = before ++ line :: after ∧
          refused = number + .ofNat before.length ∧
          kept.items = table.items ++ itemsOf offered number before ∧
          readLine offered kept refused line = .error status := by
  induction lines generalizing table number with
  | nil =>
    rw [readLines]
    by_cases hnone : table.items = []
    · rw [if_pos hnone]
      exact .inl ⟨rfl, rfl, by rw [hnone]; rfl⟩
    · rw [if_neg hnone]
      exact ⟨fun line hline => absurd hline List.not_mem_nil, (List.append_nil _).symm, hnone⟩
  | cons line lines ih =>
    rw [readLines]
    cases hread : readLine offered table number line with
    | error status =>
      refine .inr ⟨[], line, lines, table, rfl, ?_, (List.append_nil _).symm, hread⟩
      exact (UInt32.add_zero number).symm
    | ok kept =>
      obtain ⟨hlength, hkept⟩ := readLine_ok hread
      have hrest := ih kept (number + 1)
      have hitems : table.items ++ itemsOf offered number (line :: lines) =
          kept.items ++ itemsOf offered (number + 1) lines := by
        rw [hkept, itemsOf, List.append_assoc]
      dsimp only
      rw [hitems]
      split at hrest
      · rename_i final _
        obtain ⟨hlengths, hfinal, hsome⟩ := hrest
        refine ⟨?_, hfinal, hsome⟩
        rintro l (_ | ⟨_, hl⟩)
        · exact hlength
        · exact hlengths l hl
      · obtain ⟨hstatus, hrefused, hnone⟩ |
          ⟨before, refusedLine, after, last, hlines, hrefused, hlast, hbad⟩ := hrest
        · exact .inl ⟨hstatus, hrefused, hnone⟩
        · refine .inr ⟨line :: before, refusedLine, after, last, by rw [hlines]; rfl, ?_, ?_, hbad⟩
          · rw [hrefused, List.length_cons, UInt32.ofNat_add, UInt32.add_assoc,
              UInt32.add_comm 1]
            rfl
          · rw [hlast, hkept, itemsOf, List.append_assoc]

theorem readLine_blank (offered : OfferedRoutes) (table : ItemTable) (number : LineNumber) :
    readLine offered table number [] = .ok table := by
  have htokens : tokens [] = [] := by
    rw [tokens]
    rfl
  have hparse : parseLine [] number offered = .ok none := by
    unfold parseLine
    rw [if_neg (by simp), htokens]
  show keep (parseLine [] number offered) table = _
  rw [hparse]
  rfl

theorem readLines_append_blank (offered : OfferedRoutes) (table : ItemTable) (number : LineNumber)
    (lines : List (List UInt8)) :
    readLines offered table number (lines ++ [[]]) = readLines offered table number lines := by
  induction lines generalizing table number with
  | nil => simp only [List.nil_append, readLines, readLine_blank]
  | cons line lines ih =>
    rw [List.cons_append, readLines, readLines]
    split
    · rfl
    · exact ih ..

/-- A last line without LF is read like one with it. -/
theorem readFile_append_feed (offered : OfferedRoutes) (bytes : List UInt8) :
    readFile offered (bytes ++ [lineFeed]) = readFile offered bytes := by
  have hsplit : (bytes ++ [lineFeed]).splitOn lineFeed = bytes.splitOn lineFeed ++ [[]] := by
    rw [List.splitOn_append_cons_self, List.splitOn_nil]
  have hlines : fileLines (bytes ++ [lineFeed]) = bytes.splitOn lineFeed := by
    unfold fileLines
    rw [hsplit]
    simp
  rw [readFile, readFile, hlines]
  unfold fileLines
  dsimp only
  split
  · rename_i hlast
    obtain ⟨lines, hlines⟩ := List.getLast?_eq_some_iff.mp hlast
    rw [hlines, List.dropLast_concat, readLines_append_blank]
  · rfl

/-- A playlist file gives the same result in any split: the items of its lines in order, or the
first line that is refused. -/
theorem parseFile_wholeFile (offered : OfferedRoutes) (chunks : List (List UInt8)) :
    let lines := fileLines chunks.flatten
    parseFile offered chunks = readLines offered {} 1 lines ∧
      parseFile offered [chunks.flatten ++ [lineFeed]] = parseFile offered chunks ∧
      match parseFile offered chunks with
      | .ok table => (∀ line ∈ lines, line.length ≤ maxLineChars) ∧
          table.items = itemsOf offered 1 lines ∧ table.items ≠ [] ∧
          table.items.length ≤ 256 ∧
          table.items.Pairwise fun a b => a.label ≠ b.label ∨ b.label.isEmpty = true
      | .error (status, refused) =>
        (status = noItems ∧ refused = 0 ∧ itemsOf offered 1 lines = []) ∨
          ∃ before line after kept, lines = before ++ line :: after ∧
            refused = .ofNat (before.length + 1) ∧ kept.items = itemsOf offered 1 before ∧
            (if maxLineChars < line.length then .error lineTooLong
              else keep (parseLine (withoutCr (line.map byteChar)) refused offered) kept) =
              .error status := by
  intro lines
  have hread : parseFile offered chunks = readLines offered {} 1 lines := parseFile_eq ..
  refine ⟨hread, ?_, ?_⟩
  · rw [parseFile_eq, parseFile_eq, List.flatten_singleton, readFile_append_feed]
  · have hspec := readLines_spec offered {} 1 lines
    rw [hread]
    split
    · rename_i table htable
      rw [htable] at hspec
      obtain ⟨hlengths, hitems, hsome⟩ := hspec
      exact ⟨hlengths, hitems, hsome, table.bounded, table.distinct⟩
    · rename_i status refused herror
      rw [herror] at hspec
      obtain hnone | ⟨before, line, after, kept, hlines, hrefused, hkept, hbad⟩ := hspec
      · exact .inl hnone
      · refine .inr ⟨before, line, after, kept, hlines, ?_, hkept, hbad⟩
        rw [hrefused, Nat.add_comm, UInt32.ofNat_add]
        rfl

end WaveformGenerator.PlaylistFile
