import WaveformGenerator.SignalLab.DetLaws
import WaveformGenerator.SignalLab.JsonDocument

/-!
# `parse` is exact

Every run of the reader ends, it ends with success just when the grammar spells the text and the
value fits, and then the document is that value. A node's lengths are 32 bits wide, and a string of
2^32 characters is read as an empty one.
-/

namespace WaveformGenerator.SignalLab.Json

variable {R : Type} [Det R] {rest : Text}

/-! ## Refusals -/

/-- Every refusal is an invalid argument. -/
def Refuses (status : Status) : Prop := status.code = .invalidArgument

theorem parseString_refuses {status : Status} (h : parseString rest = .error status) :
    Refuses status := by
  rw [parseString] at h
  split at h
  · cases h
    rfl
  · dsimp only at h
    split at h
    · cases h
      rfl
    · cases h

theorem readKeyText_refuses {status : Status} (h : readKeyText rest = .error status) :
    Refuses status := by
  rw [readKeyText] at h
  cases hstring : parseString (skipWhitespace rest) with
  | error found =>
    simp only [hstring, bind, Except.bind] at h
    cases h
    exact parseString_refuses hstring
  | ok read =>
    simp only [hstring, bind, Except.bind] at h
    split at h
    · cases h
      rfl
    · cases h

theorem readFraction_refuses {decimal : Decimal} {status : Status}
    (h : readFraction decimal rest = .error status) : Refuses status := by
  rw [readFraction] at h
  split at h
  · dsimp only at h
    split at h
    · cases h
      rfl
    · cases h
  · cases h

theorem readPower_refuses {decimal : Decimal} {status : Status}
    (h : readPower decimal rest = .error status) : Refuses status := by
  rw [readPower] at h
  split at h
  · cases hread : readExponent rest with
    | error found =>
      simp only [hread, bind, Except.bind] at h
      cases h
      rw [readExponent] at hread
      dsimp only at hread
      generalize digitFirst _ = first at hread
      cases first with
      | false =>
        cases hread
        rfl
      | true => cases hread
    | ok read =>
      simp only [hread, bind, Except.bind] at h
      cases h
  · cases h

theorem parseNumber_refuses {status : Status}
    (h : (parseNumber rest : Result (R × Text)) = .error status) : Refuses status := by
  rw [parseNumber] at h
  dsimp only at h
  generalize digitFirst _ = first at h
  cases first with
  | false =>
    cases h
    rfl
  | true =>
    simp only [Bool.not_true, Bool.false_eq_true, if_false] at h
    generalize readDigits false {} _ = digits at h
    cases hfraction : readFraction digits.1 digits.2 with
    | error found =>
      simp only [hfraction, bind, Except.bind] at h
      cases h
      exact readFraction_refuses hfraction
    | ok fraction =>
      cases hpower : readPower fraction.1 fraction.2 with
      | error found =>
        simp only [hfraction, hpower, bind, Except.bind] at h
        cases h
        exact readPower_refuses hpower
      | ok power =>
        simp only [hfraction, hpower, bind, Except.bind] at h
        generalize Det.isFinite (scaled power.1 : R) = finite at h
        cases finite with
        | false =>
          cases h
          rfl
        | true => cases h

theorem readScalar_refuses {node left : Value R} {status : Status}
    (h : readScalar node rest = (left, .error status)) : Refuses status := by
  rw [readScalar] at h
  split at h
  · dsimp only at h
    split at h
    · rename_i hstring
      cases h
      exact parseString_refuses hstring
    · cases h
  · split at h
    · dsimp only at h
      split at h
      · rename_i hnumber
        cases h
        exact parseNumber_refuses hnumber
      · cases h
    · rw [readLiteral] at h
      split at h
      · cases h
      · split at h
        · cases h
        · cases h
          rfl

namespace Reader

variable {reader : Reader R} {refusal : Refusal R}

omit [Det R] in
theorem readMemberKey_refuses {object : Bool} (h : readMemberKey reader object = .error refusal) :
    Refuses refusal.status := by
  cases object with
  | false => cases h
  | true =>
    rw [readMemberKey, if_pos rfl, readKey] at h
    split at h
    · rename_i hkey
      cases h
      exact readKeyText_refuses hkey
    · cases h

theorem beginValue_refuses (h : reader.beginValue = .error refusal) : Refuses refusal.status := by
  cases hskip : skipWhitespace reader.rest with
  | nil =>
    simp only [beginValue, hskip, List.isEmpty_nil, if_true] at h
    cases h
    rfl
  | cons c tail =>
    by_cases hcapacity : reader.nodes.length < documentCapacity
    · have hbegin : reader.beginValue = _ := beginValue_eq hskip hcapacity
      rw [hbegin] at h
      split at h
      · rename_i hopens
        obtain ⟨object, rfl⟩ : ∃ object, c = opener object := by
          obtain rfl | rfl := hopens
          exacts [⟨true, rfl⟩, ⟨false, rfl⟩]
        rw [openContainer_eq] at h
        split at h
        · cases h
          rfl
        · split at h
          · cases h
          · cases hkey : readMemberKey { reader.openNode object with rest := skipWhitespace tail }
              object with
            | error found =>
              rw [hkey] at h
              cases h
              exact readMemberKey_refuses hkey
            | ok keyed =>
              rw [hkey] at h
              cases h
      · split at h
        · rename_i hread
          cases h
          exact readScalar_refuses hread
        · cases h
    · simp only [beginValue, hskip, allocate, Nat.not_lt.mp hcapacity, if_true, refuse, bind,
        Except.bind, List.isEmpty_cons, Bool.false_eq_true, if_false] at h
      cases h
      rfl

theorem endWithin_refuses : ∀ {opens : List Open} {rest : Text},
    endWithin reader opens rest = .error refusal → Refuses refusal.status
  | [], _, h => by cases h
  | innermost :: outer, rest, h => by
    cases hskip : skipWhitespace rest with
    | nil =>
      simp only [endWithin, hskip, List.isEmpty_nil, if_true] at h
      cases h
      rfl
    | cons c tail =>
      rw [endWithin_cons innermost outer hskip] at h
      split at h
      · cases hkey : readMemberKey { reader with rest := tail, opens := innermost :: outer }
          (isObject reader.nodes innermost) with
        | error found =>
          rw [hkey] at h
          cases h
          exact readMemberKey_refuses hkey
        | ok keyed =>
          rw [hkey] at h
          cases h
      · split at h
        · exact endWithin_refuses h
        · cases h
          rfl

theorem parseWithin_refuses {passes : Nat} (h : parseWithin passes reader = some (.error refusal)) :
    Refuses refusal.status := by
  induction passes generalizing reader with
  | zero => cases h
  | succ passes ih =>
    rw [parseWithin] at h
    split at h
    · rename_i hbegin
      cases h
      exact beginValue_refuses hbegin
    · exact ih h
    · split at h
      · rename_i hend
        cases h
        exact endWithin_refuses hend
      · exact ih h
      · cases h

/-! ## Every run ends -/

theorem length_place (reader : Reader R) :
    reader.place.nodes.length = reader.nodes.length + 1 := by
  rw [place, addMember.eq_def]
  dsimp only
  cases reader.opens with
  | nil => simp
  | cons innermost outer =>
    dsimp only
    rw [length_appendChild]
    split <;> simp

/-- Each pass takes a node. -/
theorem length_beginValue {begun : Begun} {next : Reader R}
    (h : reader.beginValue = .ok (begun, next)) :
    reader.nodes.length < documentCapacity ∧ next.nodes.length = reader.nodes.length + 1 := by
  have hbegin : beginValue { reader with rest := reader.rest } = .ok (begun, next) := h
  obtain ⟨hcapacity, gap, _, hscalar | ⟨object, text, _, hopen⟩⟩ := exists_of_beginValue hbegin
  · obtain ⟨_, value, more, _, _, _, rfl⟩ := hscalar
    refine ⟨hcapacity, ?_⟩
    dsimp only
    rw [take]
    dsimp only
    rw [List.length_modify, length_place]
  · have hlength : (reader.openNode object).nodes.length = reader.nodes.length + 1 := by
      rw [openNode]
      dsimp only
      rw [List.length_modify, length_place]
    obtain ⟨_, _, _, hempty | hmember⟩ := exists_of_openContainer hopen
    · obtain ⟨_, _, _, rfl⟩ := hempty
      exact ⟨hcapacity, hlength⟩
    · obtain ⟨_, key, _, _, _, _, rfl⟩ := hmember
      refine ⟨hcapacity, ?_⟩
      dsimp only
      rw [withKey_nodes, hlength]

theorem nodes_endWithin {next : Reader R} {found : Next} :
    ∀ {opens : List Open} {rest : Text}, endWithin reader opens rest = .ok (found, next) →
      next.nodes = reader.nodes
  | [], _, h => by
    cases h
    rfl
  | innermost :: outer, rest, h => by
    cases hskip : skipWhitespace rest with
    | nil =>
      simp only [endWithin, hskip, List.isEmpty_nil, if_true] at h
      cases h
    | cons c tail =>
      rw [endWithin_cons innermost outer hskip] at h
      split at h
      · cases hkey : readMemberKey { reader with rest := tail, opens := innermost :: outer }
          (isObject reader.nodes innermost) with
        | error refusal =>
          rw [hkey] at h
          cases h
        | ok keyed =>
          rw [hkey] at h
          cases h
          have hread : readMemberKey
              { ({ reader with opens := innermost :: outer } : Reader R) with rest := tail }
              (isObject reader.nodes innermost) = .ok next := hkey
          obtain ⟨_, key, more, _, _, rfl⟩ := exists_of_readMemberKey hread
          exact withKey_nodes ..
      · split at h
        · exact nodes_endWithin h
        · cases h

theorem parseWithin_ends {passes : Nat} (hnodes : reader.nodes.length ≤ documentCapacity)
    (hpasses : documentCapacity < reader.nodes.length + passes) :
    ∃ result, parseWithin passes reader = some result := by
  induction passes generalizing reader with
  | zero => exact absurd hpasses (Nat.not_lt.mpr hnodes)
  | succ passes ih =>
    rw [parseWithin]
    split
    · exact ⟨_, rfl⟩
    · rename_i next hbegin
      obtain ⟨hcapacity, hnext⟩ := length_beginValue hbegin
      exact ih (by omega) (by omega)
    · rename_i next hbegin
      obtain ⟨hcapacity, hnext⟩ := length_beginValue hbegin
      split
      · exact ⟨_, rfl⟩
      · rename_i member hend
        have hmember := congrArg List.length (nodes_endWithin hend)
        exact ih (by omega) (by omega)
      · exact ⟨_, rfl⟩

end Reader

/-! ## What `parse` does -/

/-- Shorter texts leave the reader's `int` counters in their range. -/
def textLimit : Nat := 2 ^ 31 - 100000

/-! ### The power of ten -/

theorem natAbs_takeDigit_le (fraction : Bool) (decimal : Decimal) (digit : UInt8) :
    (decimal.takeDigit fraction digit).exponent10.natAbs ≤ decimal.exponent10.natAbs + 1 := by
  rw [Decimal.takeDigit]
  split
  · dsimp only
    split <;> omega
  · split
    · dsimp only
      omega
    · omega

theorem natAbs_takeDigits_le (fraction : Bool) (digits : Text) (decimal : Decimal) :
    (digits.foldl (Decimal.takeDigit fraction) decimal).exponent10.natAbs ≤
      decimal.exponent10.natAbs + digits.length := by
  induction digits generalizing decimal with
  | nil => exact Nat.le_refl _
  | cons digit digits ih =>
    have hdigit := natAbs_takeDigit_le fraction decimal digit
    have hdigits := ih (decimal.takeDigit fraction digit)
    rw [List.foldl_cons, List.length_cons]
    omega

theorem takeExponentDigits_lt {digits : Text} (hdigits : ∀ digit ∈ digits, isDigit digit = true)
    {exponent : Int} (hexponent : 0 ≤ exponent ∧ exponent < 100000) :
    0 ≤ digits.foldl takeExponentDigit exponent ∧
      digits.foldl takeExponentDigit exponent < 100000 := by
  induction digits generalizing exponent with
  | nil => exact hexponent
  | cons digit digits ih =>
    refine ih (fun other hother => hdigits other (List.mem_cons_of_mem _ hother)) ?_
    have hdigit := hdigits digit List.mem_cons_self
    rw [isDigit, Bool.and_eq_true, decide_eq_true_eq, decide_eq_true_eq] at hdigit
    have hvalue : (digitValue digit).toNat ≤ 9 := by
      have hlast : digit.toNat ≤ 0x39 := UInt8.le_iff_toNat_le.mp hdigit.2
      rw [digitValue, UInt8.toNat_sub_of_le _ _ hdigit.1]
      exact Nat.sub_le_sub_right hlast 0x30
    rw [takeExponentDigit, exponentLimit]
    split <;> omega

/-- In every number of a text the power of ten is an `int`. -/
def IntPowers (text : Text) : Prop :=
  ∀ (sign whole fraction digits power : Text) (exponent : Int),
    FractionText fraction digits → PowerText power exponent →
    sign ++ (whole ++ (fraction ++ power)) <:+: text →
    (decimalOf whole digits exponent).exponent10.natAbs < 2 ^ 31

theorem intPowers {text : Text} (htext : text.length < textLimit) : IntPowers text := by
  intro sign whole fraction digits power exponent hfraction hpower hinfix
  have hnumber := hinfix.length_le
  have hdigits : digits.length ≤ fraction.length := by
    cases hfraction with
    | absent => exact Nat.le_refl _
    | present => exact Nat.le_succ _
  have hexponent : exponent.natAbs < 100000 := by
    cases hpower with
    | absent => decide
    | @present _ _ digits negative _ _ hdigits =>
      have hlt := @takeExponentDigits_lt digits hdigits.all 0 (by decide)
      cases negative
      · rw [exponentOf, if_neg Bool.false_ne_true]
        omega
      · rw [exponentOf, if_pos rfl]
        omega
  have hwhole := natAbs_takeDigits_le false whole {}
  have hboth := natAbs_takeDigits_le true digits (whole.foldl (Decimal.takeDigit false) {})
  have hzero : ({} : Decimal).exponent10.natAbs = 0 := rfl
  rw [List.length_append, List.length_append, List.length_append] at hnumber
  rw [textLimit] at htext
  rw [decimalOf]
  dsimp only
  omega

/-! ### Exactness -/

/-- A document's value fits: its nodes in the table, its containers in the nesting. -/
def Fits (value : Tree R) : Prop :=
  value.size ≤ documentCapacity ∧ value.depth ≤ documentMaxDepth

/-- The reader is exact on a text: it ends, succeeds just when the text spells a value that fits, has
that value for its document then, and no document otherwise. -/
def Exact (R : Type) [Det R] (text : Text) : Prop :=
  ∃ (status : Status) (document : Document R), parse (some text) = some (status, document) ∧
    (status.isOk = true ↔ ∃ value : Tree R, DocumentText text value ∧ Fits value) ∧
    (∀ value : Tree R, DocumentText text value → Fits value → document.Represents value) ∧
    (status.isOk = false → document.root = none)

theorem stops_of_blanks {gap : Text} (h : Blanks gap) : Stops gap := by
  cases gap with
  | nil => rfl
  | cons c gap =>
    exact Reader.goesOn_of_isBlank (h c List.mem_cons_self)

theorem skipWhitespace_of_blanks {gap : Text} (h : Blanks gap) : skipWhitespace gap = [] := by
  have hskip : skipWhitespace (gap ++ []) = skipWhitespace [] := skipWhitespace_blanks h
  rwa [List.append_nil] at hskip

omit [Det R] in
theorem root_valid (text : Text) : Reader.Valid ({ rest := text } : Reader R) :=
  fun _ h => nomatch h

theorem continueFrom_root (text : Text) (value : Tree R) (passes : Nat) (rest : Text) :
    Reader.continueFrom passes { Reader.take ({ rest := text } : Reader R) value with rest } =
      some (.ok { Reader.take ({ rest := text } : Reader R) value with rest, opens := [] }) := by
  have hopens : (Reader.take ({ rest := text } : Reader R) value).opens = [] := by
    rw [Reader.take_opens, Reader.place_opens]
    rfl
  rw [Reader.continueFrom, Reader.endValue]
  dsimp only
  rw [hopens]
  rfl

theorem nodes_root (text : Text) (value : Tree R) :
    (Reader.take ({ rest := text } : Reader R) value).nodes = value.layout 0 [] none :=
  Reader.take_nodes (root_valid text) value

/-- A text that spells a value that fits is read to the value's table. -/
theorem parse_spelled {text : Text} {value : Tree R} (h : DocumentText text value)
    (hfits : Fits value) :
    parse (some text) = some (.success, { nodes := value.layout 0 [] none, error := none }) := by
  obtain ⟨hbefore, hbody, hbehind⟩ := h
  obtain ⟨hsize, hdepth⟩ := hfits
  rename_i before body behind
  have hread := Reader.parseWithin_spelled (root_valid (before ++ (body ++ behind))) hbody
    (stops_of_blanks hbehind) (documentCapacity + 1 - value.size) (by simpa using hsize)
    (by simpa using hdepth)
  have hpasses : documentCapacity + 1 - value.size + value.size = documentCapacity + 1 :=
    Nat.sub_add_cancel (Nat.le_succ_of_le hsize)
  rw [hpasses, continueFrom_root] at hread
  have hrun := (Reader.parseWithin_blanks hbefore (documentCapacity + 1)
    ({ rest := before ++ (body ++ behind) } : Reader R) (body ++ behind)).trans hread
  dsimp only at hrun
  have hdocument : parseDocument (before ++ (body ++ behind)) =
      some (.success, (value.layout 0 [] none : List (Value R))) := by
    rw [parseDocument, hrun, Option.map_some]
    dsimp only
    rw [nodes_root, skipWhitespace_of_blanks hbehind]
    rfl
  rw [parse, hdocument]
  rfl

/-- What is read without a refusal is a text that spells a value that fits. -/
theorem exists_of_parse {text : Text} {status : Status} {document : Document R}
    (h : parse (some text) = some (status, document)) (hok : status.isOk = true) :
    ∃ value : Tree R, DocumentText text value ∧ Fits value := by
  rw [parse, parseDocument] at h
  cases hrun : Reader.parseWithin (documentCapacity + 1) ({ rest := text } : Reader R) with
  | none =>
    rw [hrun] at h
    cases h
  | some result =>
    rw [hrun] at h
    cases result with
    | error refusal =>
      obtain rfl : refusal.status = status := congrArg Prod.fst (Option.some.inj h)
      have hrefuses : refusal.status.code = .invalidArgument := Reader.parseWithin_refuses hrun
      rw [Status.isOk, hrefuses] at hok
      cases hok
    | ok final =>
      obtain ⟨before, body, behind, value, left, hbefore, hbody, htext, _, hsize, hdepth, hfinal⟩ :=
        Reader.readsValue _ ({ rest := text } : Reader R) text (root_valid text) (Nat.zero_le _) hrun
      rw [continueFrom_root] at hfinal
      obtain rfl := Except.ok.inj (Option.some.inj hfinal)
      obtain ⟨gap, hgap, hrest⟩ := exists_blanks behind
      have hstatus := congrArg Prod.fst (Option.some.inj h)
      dsimp only at hstatus
      have hend : skipWhitespace behind = [] := by
        by_contra hne
        rw [if_neg (by simpa using hne)] at hstatus
        subst hstatus
        cases hok
      rw [hend, List.append_nil] at hrest
      subst hrest
      have hfits : Fits value := ⟨by simpa using hsize, by simpa using hdepth⟩
      exact ⟨value, htext ▸ .mk hbefore hbody hgap, hfits⟩

theorem parse_ends (text : Text) :
    ∃ (status : Status) (document : Document R), parse (some text) = some (status, document) ∧
      (status.isOk = false → document.root = none) := by
  obtain ⟨result, hrun⟩ := @Reader.parseWithin_ends R _ { rest := text } (documentCapacity + 1)
    (Nat.zero_le _) (by simp)
  rw [parse, parseDocument, hrun]
  refine ⟨_, _, rfl, fun hstatus => ?_⟩
  rw [Document.root, if_neg (Bool.eq_false_iff.mp hstatus), if_pos (by simp)]

/-- The reader is exact on every text below the limit, and no number of the text leaves the range of
its counters. -/
theorem parse_exact (text : Text) (htext : text.length < textLimit) :
    Exact R text ∧ IntPowers text := by
  refine ⟨?_, intPowers htext⟩
  obtain ⟨status, document, hparse, hroot⟩ := @parse_ends R _ text
  refine ⟨status, document, hparse, ⟨exists_of_parse hparse, ?_⟩, ?_, hroot⟩
  · rintro ⟨value, hvalue, hfits⟩
    rw [parse_spelled hvalue hfits] at hparse
    cases hparse
    rfl
  · intro value hvalue hfits
    rw [parse_spelled hvalue hfits] at hparse
    cases hparse
    have hshort : value.Short lengthLimit := by
      obtain ⟨_, hbody, _⟩ := hvalue
      refine hbody.short ?_
      rw [List.length_append, List.length_append] at htext
      rw [textLimit] at htext
      rw [lengthLimit]
      omega
    exact represents rfl rfl hshort hfits.1

/-! ### A text that is read, and one that is not read exactly -/

/-- `{"a": [true]}` -/
def scenarioText : Text :=
  [0x7B, 0x22, 0x61, 0x22, 0x3A, 0x20, 0x5B, 0x74, 0x72, 0x75, 0x65, 0x5D, 0x7D]

theorem parse_exact_scenario : Exact Rat scenarioText ∧
    ∃ document : Document Rat, parse (some scenarioText) = some (.success, document) ∧
      document.nodeCount = 3 :=
  ⟨(parse_exact scenarioText (by decide)).1, _, rfl, rfl⟩

/-- An object whose only key is `key`. -/
def keyedText (key : Text) : Text :=
  opener true :: (([] ++ (quote :: (key ++ (quote :: ([] ++ [colon]))))) ++
    ([] ++ (nullLiteral ++ ([] ++ [closer true]))))

def keyedTree (key : Text) : Tree R := .container true (.cons key (.scalar .null) .nil)

theorem keyedText_spells {key : Text} (h : Characters key) :
    DocumentText (keyedText key) (keyedTree key : Tree R) := by
  have hnil : Blanks [] := fun _ h => absurd h List.not_mem_nil
  have hbody : Spells (keyedText key) (keyedTree key : Tree R) :=
    .container (.object hnil h hnil) hnil (.scalar .null) (.close true hnil)
  have htext : keyedText key = [] ++ (keyedText key ++ []) := by simp
  rw [htext]
  exact .mk hnil hbody hnil

omit [Det R] in
theorem keyedTree_fits (key : Text) : Fits (keyedTree key : Tree R) :=
  ⟨Nat.le_of_ble_eq_true rfl, Nat.le_of_ble_eq_true rfl⟩

/-- A key of 2^32 characters has the length of the empty key in its node, and is found by it. -/
theorem not_exact_of_length {key : Text} (hkey : Characters key) (hlength : key.length = 2 ^ 32) :
    ¬Exact R (keyedText key) := by
  rintro ⟨status, document, hparse, -, hrepresents, -⟩
  have hfits := keyedTree_fits (R := R) key
  have hrepresents := hrepresents _ (keyedText_spells hkey) hfits
  rw [parse_spelled (keyedText_spells hkey) hfits] at hparse
  cases hparse
  obtain ⟨_, hshows⟩ := hrepresents.shows 0 _ .root
  have hfind := hshows.find [] List.not_mem_nil
  have hne : key ≠ [] := by
    rintro rfl
    cases hlength
  have hzero : UInt32.ofNat key.length = 0 := by
    rw [hlength]
    rfl
  have hsame : sameBytes [] key (.ofNat key.length) = true := by
    rw [hzero]
    rfl
  have hfound : ∀ other : Option (Option Nat),
      (if sameBytes [] key (.ofNat key.length) = true then some (some 1) else other) =
        some (some 1) := fun _ => if_pos hsame
  rw [Members.located, Members.located, if_pos rfl,
    List.find?_cons_of_neg (by simpa using hne)] at hfind
  cases (hfound _).symm.trans hfind

/-- A key of 2^32 letters. -/
def longKey : Text := List.replicate lengthLimit 0x61

theorem not_exact_longKey : ¬Exact Rat (keyedText longKey) := by
  refine not_exact_of_length ?_ List.length_replicate
  rw [longKey]
  generalize lengthLimit = n
  induction n with
  | zero => exact .nil
  | succ n ih => exact .plain (by decide) (by decide) ih

end WaveformGenerator.SignalLab.Json
