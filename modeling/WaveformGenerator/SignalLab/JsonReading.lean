import WaveformGenerator.SignalLab.JsonScalars
import WaveformGenerator.SignalLab.JsonTable

/-!
# The reader against the grammar

What the grammar spells and the table and the depth have room for is read, and it leaves the reader
as `take` says, before the text behind the value. And what is read the grammar spells. A run of the
reader is cut where a value is whole: `continueFrom` is what it does from there.
-/

namespace WaveformGenerator.SignalLab.Json.Reader

variable {R : Type} [Det R] {reader : Reader R} {more : Text}

/-- The passes that remain once a value is whole. -/
def continueFrom (passes : Nat) (reader : Reader R) : Option (Except (Refusal R) (Reader R)) :=
  match reader.endValue with
  | .error refusal => some (.error refusal)
  | .ok (.member, reader) => parseWithin passes reader
  | .ok (.done, reader) => some (.ok reader)

theorem parseWithin_whole {taken : Reader R} (h : reader.beginValue = .ok (.whole, taken))
    (passes : Nat) : parseWithin (passes + 1) reader = continueFrom passes taken := by
  rw [parseWithin, h]
  rfl

theorem parseWithin_opened {opened : Reader R} (h : reader.beginValue = .ok (.opened, opened))
    (passes : Nat) : parseWithin (passes + 1) reader = parseWithin passes opened := by
  rw [parseWithin, h]

/-! ## The steps -/

theorem addMember_rest (reader : Reader R) (rest : Text) (child : Nat) :
    addMember { reader with rest } child = { addMember reader child with rest } := by
  obtain ⟨nodes, _, opens, key⟩ := reader
  cases opens <;> rfl

section
variable {rest tail : Text} {c : UInt8}

/-- A value with its first character found and its node placed. -/
theorem beginValue_eq (hskip : skipWhitespace rest = c :: tail)
    (hcapacity : reader.nodes.length < documentCapacity) :
    beginValue { reader with rest } =
      if c = opener true ∨ c = opener false then
        openContainer { reader.place with rest := c :: tail } reader.nodes.length
      else
        match readScalar (reader.place.nodes.getD reader.nodes.length default) (c :: tail) with
        | (node, .error status) =>
          .error { status, nodes := reader.place.nodes.set reader.nodes.length node }
        | (node, .ok rest) =>
          .ok (.whole, { reader.place with
            nodes := reader.place.nodes.set reader.nodes.length node, rest }) := by
  have hplace : addMember { reader with nodes := reader.nodes ++ [default], rest := c :: tail }
      reader.nodes.length = { reader.place with rest := c :: tail } :=
    addMember_rest { reader with nodes := reader.nodes ++ [default] } (c :: tail)
      reader.nodes.length
  simp only [beginValue, hskip, allocate, Nat.not_le.mpr hcapacity, if_false, bind, Except.bind,
    List.isEmpty_cons, Bool.false_eq_true, hplace, List.head?_cons, Bool.or_eq_true, beq_iff_eq,
    Option.some.injEq]
  obtain ⟨node, read⟩ :=
    readScalar (reader.place.nodes.getD reader.nodes.length default) (c :: tail)
  cases read <;> rfl

theorem openContainer_eq (reader : Reader R) (object : Bool) (text : Text) :
    openContainer { reader.place with rest := opener object :: text } reader.nodes.length =
      if reader.opens.length = documentMaxDepth then
        .error { status := refused "document nests too deeply", nodes := reader.place.nodes }
      else if (skipWhitespace text).head? = some (closer object) then
        .ok (.whole, { reader.take (.container object .nil) with
          rest := (skipWhitespace text).drop 1 })
      else
        (readMemberKey { reader.openNode object with rest := skipWhitespace text } object).map
          (.opened, ·) := by
  have hobject : (some (opener object) == some (opener true)) = object := by
    cases object <;> decide
  have hdepth : reader.place.opens.length = reader.opens.length := by
    rw [place_opens, List.length_modifyHead]
  simp only [openContainer, List.head?_cons, hobject, List.drop_succ_cons, List.drop_zero, hdepth,
    beq_iff_eq]
  split
  · rfl
  · split
    · rw [take, takeMembers]
      rfl
    · simp only [openNode, containerType]
      cases readMemberKey _ object <;> rfl

theorem endWithin_cons (innermost : Open) (outer : List Open)
    (hskip : skipWhitespace rest = c :: tail) :
    endWithin reader (innermost :: outer) rest =
      if c = comma then
        (readMemberKey { reader with rest := tail, opens := innermost :: outer }
          (isObject reader.nodes innermost)).map (.member, ·)
      else if c = closer (isObject reader.nodes innermost) then endWithin reader outer tail
      else
        reader.refuse (refused (if isObject reader.nodes innermost
          then "expected ',' or '\x7d' in an object" else "expected ',' or ']' in an array")) := by
  simp only [endWithin, hskip, List.isEmpty_cons, List.head?_cons, beq_iff_eq, Option.some.injEq,
    bne_iff_ne, ne_eq, List.drop_succ_cons, List.drop_zero, Bool.false_eq_true, if_false]
  split
  · cases readMemberKey _ (isObject reader.nodes innermost) <;> rfl
  · rw [ite_not]

theorem endWithin_congr (reader : Reader R) (before : Text) (opens : List Open) :
    ∀ (within : List Open) (rest : Text),
      endWithin { reader with rest := before, opens } within rest = endWithin reader within rest
  | [], _ => rfl
  | innermost :: outer, rest => by
    rw [endWithin, endWithin]
    dsimp only
    rw [endWithin_congr reader before opens outer]
    rfl

end

/-! ## What is spelled is read -/

omit [Det R] in
theorem readMemberKey_spelled {object : Bool} {keyText key : Text} (h : KeyText object keyText key)
    (reader : Reader R) :
    readMemberKey { reader with rest := keyText ++ more } object =
      .ok { reader.withKey object key with rest := more } := by
  cases object with
  | true =>
    rw [readMemberKey, if_pos rfl, readKey]
    dsimp only
    rw [readKeyText_keyText h]
    rfl
  | false =>
    cases h
    rfl

/-- Blanks in front of a value do not change how it is read. -/
theorem parseWithin_blanks {gap : Text} (hgap : Blanks gap) (passes : Nat) (reader : Reader R)
    (rest : Text) :
    parseWithin passes { reader with rest := gap ++ rest } =
      parseWithin passes { reader with rest } := by
  have hbegin : beginValue { reader with rest := gap ++ rest } =
      beginValue { reader with rest } := by
    rw [beginValue, beginValue]
    dsimp only
    rw [skipWhitespace_blanks hgap]
  cases passes with
  | zero => rfl
  | succ passes => rw [parseWithin, parseWithin, hbegin]

section
variable {object : Bool} {gap : Text}

theorem continueFrom_comma (h : reader.Inside object) (hgap : Blanks gap)
    {keyText key : Text} (hkey : KeyText object keyText key) (text : Text) (passes : Nat) :
    continueFrom passes { reader with rest := gap ++ comma :: (keyText ++ text) } =
      parseWithin passes { reader.withKey object key with rest := text } := by
  obtain ⟨innermost, outer, hopens, hobject⟩ := h.container
  have hskip : skipWhitespace (gap ++ comma :: (keyText ++ text)) = comma :: (keyText ++ text) := by
    rw [skipWhitespace_blanks hgap, skipWhitespace_cons (by decide)]
  have hend : endValue { reader with rest := gap ++ comma :: (keyText ++ text) } =
      .ok (.member, { reader.withKey object key with rest := text }) := by
    rw [endValue]
    dsimp only
    rw [hopens, endWithin_cons innermost outer hskip, if_pos rfl]
    dsimp only
    rw [← hopens, hobject, readMemberKey_spelled hkey]
    rfl
  rw [continueFrom, hend]

theorem continueFrom_closer (h : reader.Inside object) (hgap : Blanks gap) (passes : Nat) :
    continueFrom passes { reader with rest := gap ++ closer object :: more } =
      continueFrom passes { reader.close with rest := more } := by
  obtain ⟨innermost, outer, hopens, hobject⟩ := h.container
  have hskip : skipWhitespace (gap ++ closer object :: more) = closer object :: more := by
    rw [skipWhitespace_blanks hgap, skipWhitespace_cons (isBlank_closer object)]
  have hcomma : closer object ≠ comma := by cases object <;> decide
  have hend : endValue { reader with rest := gap ++ closer object :: more } =
      endValue { reader.close with rest := more } := by
    rw [endValue, endValue, close]
    dsimp only
    rw [hopens, endWithin_cons innermost outer hskip, if_neg hcomma]
    dsimp only
    rw [hobject, if_pos rfl, endWithin_congr]
    exact (endWithin_congr reader more outer outer more).symm
  rw [continueFrom, continueFrom, hend]

end

/-! ### Values -/

/-- A value starts with no blank and closes nothing. -/
theorem spells_head {body : Text} {value : Tree R} (h : Spells body value) :
    ∃ c tail, body = c :: tail ∧ isBlank c = false ∧ ∀ object, c ≠ closer object := by
  have hclose : ∀ object other, opener object ≠ closer other := by decide
  cases h with
  | scalar h =>
    obtain ⟨c, tail, rfl, hblank, hc⟩ := h.head
    exact ⟨c, tail, rfl, hblank, fun object => (hc object).2⟩
  | empty object hgap => exact ⟨_, _, rfl, isBlank_opener object, hclose object⟩
  | @container object => exact ⟨_, _, rfl, isBlank_opener object, hclose object⟩

/-- No blank goes on with a number. -/
theorem goesOn_of_isBlank {c : UInt8} (h : isBlank c = true) : goesOn c = false := by
  have hall : (blanks.all fun c => !goesOn c) = true := by decide
  have hmem : c ∈ blanks := List.contains_iff_mem.mp h
  simpa using List.all_eq_true.mp hall c hmem

theorem stops_blanks {gap rest : Text} {c : UInt8} (hgap : Blanks gap) (hc : goesOn c = false) :
    Stops (gap ++ c :: rest) := by
  obtain _ | ⟨b, gap⟩ := gap
  · exact hc
  · exact goesOn_of_isBlank (hgap b List.mem_cons_self)

theorem spellsTail_stops {object : Bool} {tail : Text} {members : Members R}
    (h : SpellsTail object tail members) (more : Text) : Stops (tail ++ more) := by
  cases h with
  | close _ hgap =>
    rw [List.append_assoc]
    exact stops_blanks hgap (by cases object <;> decide)
  | member hgap =>
    rw [List.append_assoc]
    exact stops_blanks hgap (by decide)

section
variable {body gap : Text} {object : Bool}

theorem beginValue_scalar {value : Scalar R} (h : ScalarText body value) (hmore : Stops more)
    (hcapacity : reader.nodes.length < documentCapacity) :
    beginValue { reader with rest := body ++ more } =
      .ok (.whole, { reader.take (.scalar value) with rest := more }) := by
  have hread := readScalar_spelled h hmore (reader.place.nodes.getD reader.nodes.length default)
  obtain ⟨c, tail, rfl, hblank, hc⟩ := h.head
  have hopens : ¬(c = opener true ∨ c = opener false) := by
    rintro (h | h)
    exacts [(hc true).1 h, (hc false).1 h]
  rw [List.cons_append] at hread ⊢
  rw [beginValue_eq (skipWhitespace_cons hblank) hcapacity, if_neg hopens, hread]
  dsimp only
  rw [take, List.modify_eq_set, ← List.getD_eq_getElem?_getD]

theorem beginValue_empty (hgap : Blanks gap) (hcapacity : reader.nodes.length < documentCapacity)
    (hdepth : reader.opens.length < documentMaxDepth) :
    beginValue { reader with rest := opener object :: (gap ++ closer object :: more) } =
      .ok (.whole, { reader.take (.container object .nil) with rest := more }) := by
  have hskip : skipWhitespace (gap ++ closer object :: more) = closer object :: more := by
    rw [skipWhitespace_blanks hgap, skipWhitespace_cons (isBlank_closer object)]
  rw [beginValue_eq (skipWhitespace_cons (isBlank_opener object)) hcapacity,
    if_pos (by cases object <;> simp), openContainer_eq, if_neg (Nat.ne_of_lt hdepth), hskip,
    List.head?_cons, if_pos rfl]
  rfl

/-- An opened container is left before the blanks, if any, in front of its first member's value. -/
theorem beginValue_member (reader : Reader R) (text : Text) {keyText key : Text} {c : UInt8} (hkey : KeyText object keyText key)
    (hgap : Blanks gap) (hblank : isBlank c = false) (hc : ∀ object, c ≠ closer object)
    (hcapacity : reader.nodes.length < documentCapacity)
    (hdepth : reader.opens.length < documentMaxDepth) :
    ∃ gap', Blanks gap' ∧
      beginValue { reader with rest := opener object :: (keyText ++ (gap ++ c :: text)) } =
        .ok (.opened,
          { (reader.openNode object).withKey object key with rest := gap' ++ c :: text }) := by
  rw [beginValue_eq (skipWhitespace_cons (isBlank_opener object)) hcapacity,
    if_pos (by cases object <;> simp), openContainer_eq, if_neg (Nat.ne_of_lt hdepth)]
  cases hkey with
  | array =>
    rw [List.nil_append, skipWhitespace_blanks hgap, skipWhitespace_cons hblank,
      if_neg (by simpa using hc false)]
    exact ⟨[], by simp [Blanks], rfl⟩
  | @object before _ behind hbefore hcharacters hbehind =>
    have hkey : KeyText true ([] ++ quote :: (key ++ quote :: (behind ++ [colon]))) key :=
      .object (by simp [Blanks]) hcharacters hbehind
    rw [List.append_assoc, skipWhitespace_blanks hbefore, List.cons_append,
      skipWhitespace_cons (by decide), if_neg (by simp [quote, closer])]
    refine ⟨gap, hgap, ?_⟩
    rw [← List.cons_append, ← List.nil_append (quote :: _), readMemberKey_spelled hkey]
    rfl

end

mutual

theorem parseWithin_spelled {reader : Reader R} (hvalid : reader.Valid) {body more : Text}
    {value : Tree R} (h : Spells body value) (hmore : Stops more) (passes : Nat)
    (hcapacity : reader.nodes.length + value.size ≤ documentCapacity)
    (hdepth : reader.opens.length + value.depth ≤ documentMaxDepth) :
    parseWithin (passes + value.size) { reader with rest := body ++ more } =
      continueFrom passes { reader.take value with rest := more } :=
  match h with
  | .scalar hscalar =>
    parseWithin_whole (beginValue_scalar hscalar hmore hcapacity) passes
  | .empty object hgap => by
    rw [List.cons_append, List.append_assoc]
    rw [Tree.depth] at hdepth
    exact parseWithin_whole (beginValue_empty hgap (by rw [Tree.size] at hcapacity; omega)
      (by omega)) passes
  | @Spells.container _ _ object keyText key gap _ tail value rest hkey hgap hbody htail => by
    rw [Tree.size, Members.size] at hcapacity
    rw [Tree.depth, Members.depth] at hdepth
    have hopened := openNode_inside hvalid object
    have hlength := length_openNode hvalid object
    have hopens : (reader.openNode object).opens.length = reader.opens.length + 1 :=
      length_openNode_opens reader object
    have hvalue := parseWithin_spelled (withKey_valid hopened.valid object key) hbody
      (spellsTail_stops htail more) (passes + rest.size) (by rw [withKey_nodes]; omega)
      (by rw [withKey_opens]; omega)
    have hrest := continueFrom_spelled (hopened.take key value) htail more passes
      (by rw [take_length (withKey_valid hopened.valid object key), withKey_nodes]; omega)
      (by rw [take_depth, withKey_opens]; omega)
    obtain ⟨c, text, hbodyText, hblank, hc⟩ := spells_head hbody
    rw [hbodyText] at hvalue ⊢
    obtain ⟨gap', hgap', hbegin⟩ := beginValue_member reader (text ++ (tail ++ more)) hkey hgap
      hblank hc (by omega) (by omega)
    have htext : opener object :: (keyText ++ (gap ++ (c :: text ++ tail))) ++ more =
        opener object :: (keyText ++ (gap ++ c :: (text ++ (tail ++ more)))) := by simp
    have hpasses : passes + (value.size + rest.size) = passes + rest.size + value.size := by omega
    rw [htext, take, takeMembers, ← hrest, ← hvalue, ← hpasses, List.cons_append]
    exact (parseWithin_opened hbegin _).trans (parseWithin_blanks hgap' _ _ _)

theorem continueFrom_spelled {reader : Reader R} {object : Bool} (hinside : reader.Inside object)
    {tail : Text} {members : Members R} (h : SpellsTail object tail members) (more : Text)
    (passes : Nat)
    (hcapacity : reader.nodes.length + members.size ≤ documentCapacity)
    (hdepth : reader.opens.length + members.depth ≤ documentMaxDepth) :
    continueFrom (passes + members.size) { reader with rest := tail ++ more } =
      continueFrom passes { (reader.takeMembers object members).close with rest := more } :=
  match h with
  | .close _ hgap => by
    rw [List.append_assoc, takeMembers]
    exact continueFrom_closer hinside hgap passes
  | @SpellsTail.member _ _ object before keyText key gap body tail value rest hbefore hkey hgap hbody
      htail => by
    rw [Members.size] at hcapacity
    rw [Members.depth] at hdepth
    have hvalid := withKey_valid hinside.valid object key
    have hvalue := parseWithin_spelled hvalid hbody (spellsTail_stops htail more)
      (passes + rest.size) (by rw [withKey_nodes]; omega) (by rw [withKey_opens]; omega)
    have hrest := continueFrom_spelled (hinside.take key value) htail more passes
      (by rw [take_length hvalid, withKey_nodes]; omega) (by rw [take_depth, withKey_opens]; omega)
    have htext : before ++ (comma :: (keyText ++ (gap ++ (body ++ tail)))) ++ more =
        before ++ comma :: (keyText ++ (gap ++ (body ++ (tail ++ more)))) := by simp
    have hpasses : passes + (value.size + rest.size) = passes + rest.size + value.size := by omega
    rw [htext, Members.size, continueFrom_comma hinside hbefore hkey, parseWithin_blanks hgap,
      hpasses, hvalue, hrest, takeMembers]

end

/-! ## What is read is spelled -/

section
variable {rest : Text}

omit [Det R] in
theorem exists_of_readMemberKey {object : Bool} {next : Reader R}
    (h : readMemberKey { reader with rest } object = .ok next) :
    ∃ keyText key more, KeyText object keyText key ∧ rest = keyText ++ more ∧
      next = { reader.withKey object key with rest := more } := by
  cases object with
  | false =>
    cases h
    exact ⟨[], [], _, .array, rfl, rfl⟩
  | true =>
    rw [readMemberKey, if_pos rfl, readKey] at h
    split at h
    · cases h
    · rename_i key behind hkey
      cases h
      obtain ⟨text, htext, hrest⟩ := exists_of_readKeyText hkey
      exact ⟨text, key, behind, htext, hrest, rfl⟩

/-- A value that is begun is a whole scalar, or opens a container. -/
theorem exists_of_beginValue {begun : Begun} {next : Reader R}
    (h : beginValue { reader with rest } = .ok (begun, next)) :
    reader.nodes.length < documentCapacity ∧ ∃ gap, Blanks gap ∧
      ((∃ body value more, ScalarText body value ∧ rest = gap ++ (body ++ more) ∧
          begun = .whole ∧ next = { reader.take (.scalar value) with rest := more }) ∨
        ∃ object text, rest = gap ++ opener object :: text ∧
          openContainer { reader.place with rest := opener object :: text } reader.nodes.length =
            .ok (begun, next)) := by
  obtain ⟨gap, hgap, hrest⟩ := exists_blanks rest
  cases hskip : skipWhitespace rest with
  | nil =>
    simp [beginValue, hskip, refuse] at h
  | cons c tail =>
    rw [hskip] at hrest
    by_cases hcapacity : reader.nodes.length < documentCapacity
    · refine ⟨hcapacity, gap, hgap, ?_⟩
      rw [beginValue_eq hskip hcapacity] at h
      split at h
      · rename_i hopens
        obtain rfl | rfl := hopens
        · exact .inr ⟨true, tail, hrest, h⟩
        · exact .inr ⟨false, tail, hrest, h⟩
      · cases hread : readScalar (reader.place.nodes.getD reader.nodes.length default) (c :: tail) with
        | mk node read =>
          rw [hread] at h
          cases read with
          | error status => cases h
          | ok more =>
            cases h
            obtain ⟨body, value, hscalar, hbody, rfl⟩ := exists_of_readScalar hread
            refine .inl ⟨body, value, more, hscalar, by rw [hrest, hbody], rfl, ?_⟩
            rw [take, List.modify_eq_set, ← List.getD_eq_getElem?_getD]
    · simp [beginValue, hskip, allocate, refuse, Nat.not_lt.mp hcapacity, bind, Except.bind] at h

theorem exists_of_openContainer {object : Bool} {text : Text} {begun : Begun} {next : Reader R}
    (h : openContainer { reader.place with rest := opener object :: text } reader.nodes.length =
      .ok (begun, next)) :
    reader.opens.length ≠ documentMaxDepth ∧ ∃ gap, Blanks gap ∧
      ((∃ more, text = gap ++ closer object :: more ∧ begun = .whole ∧
          next = { reader.take (.container object .nil) with rest := more }) ∨
        ∃ keyText key more, KeyText object keyText key ∧ text = gap ++ (keyText ++ more) ∧
          begun = .opened ∧
          next = { (reader.openNode object).withKey object key with rest := more }) := by
  obtain ⟨gap, hgap, htext⟩ := exists_blanks text
  rw [openContainer_eq] at h
  split at h
  · cases h
  · rename_i hdepth
    refine ⟨hdepth, gap, hgap, ?_⟩
    split at h
    · rename_i hclose
      obtain ⟨more, hmore⟩ := List.head?_eq_some_iff.mp hclose
      rw [hmore] at h htext
      cases h
      exact .inl ⟨more, htext, rfl, rfl⟩
    · cases hkey : readMemberKey { reader.openNode object with rest := skipWhitespace text } object with
      | error refusal => simp [hkey, Except.map] at h
      | ok keyed =>
        rw [hkey] at h
        cases h
        obtain ⟨keyText, key, more, hkeyText, hrest, rfl⟩ := exists_of_readMemberKey hkey
        refine .inr ⟨keyText, key, more, hkeyText, ?_, rfl, ?_⟩
        · rw [← hrest]
          exact htext
        · cases object <;> rfl

/-- After a whole value within a container the container is closed, or its next member follows. -/
theorem exists_of_continueFrom {object : Bool} (hinside : reader.Inside object) {passes : Nat}
    {final : Reader R} (h : continueFrom passes { reader with rest } = some (.ok final)) :
    ∃ gap, Blanks gap ∧
      ((∃ more, rest = gap ++ closer object :: more ∧
          continueFrom passes { reader.close with rest := more } = some (.ok final)) ∨
        ∃ keyText key more, KeyText object keyText key ∧
          rest = gap ++ comma :: (keyText ++ more) ∧
          parseWithin passes { reader.withKey object key with rest := more } =
            some (.ok final)) := by
  obtain ⟨innermost, outer, hopens, hobject⟩ := hinside.container
  obtain ⟨gap, hgap, hrest⟩ := exists_blanks rest
  refine ⟨gap, hgap, ?_⟩
  cases hskip : skipWhitespace rest with
  | nil =>
    have hend : endValue { reader with rest } = reader.refuse
        (refused (if object then "unterminated object" else "unterminated array")) := by
      simp [endValue, hopens, endWithin, hskip, hobject, refuse]
    rw [continueFrom, hend] at h
    cases h
  | cons c tail =>
    rw [hskip] at hrest
    have hend : endValue { reader with rest } = endWithin reader (innermost :: outer) rest := by
      rw [endValue]
      dsimp only
      rw [endWithin_congr, hopens]
    rw [endWithin_cons innermost outer hskip, hobject, ← hopens] at hend
    by_cases hcomma : c = comma
    · subst hcomma
      rw [if_pos rfl] at hend
      cases hkey : readMemberKey { reader with rest := tail } object with
      | error refusal =>
        rw [hkey] at hend
        rw [continueFrom, hend] at h
        cases h
      | ok keyed =>
        rw [hkey] at hend
        rw [continueFrom, hend] at h
        obtain ⟨keyText, key, more, hkeyText, htail, rfl⟩ := exists_of_readMemberKey hkey
        refine .inr ⟨keyText, key, more, hkeyText, by rw [hrest, ← htail], ?_⟩
        cases object <;> exact h
    · by_cases hclose : c = closer object
      · subst hclose
        rw [hrest, continueFrom_closer hinside hgap] at h
        exact .inl ⟨tail, hrest, h⟩
      · rw [if_neg hcomma, if_neg hclose] at hend
        rw [continueFrom, hend] at h
        cases h

/-- The blanks around a key, or between an opener and an array's element, are the grammar's. -/
theorem exists_keyText {object : Bool} {before keyText key gap : Text} (hbefore : Blanks before)
    (hkey : KeyText object keyText key) (hgap : Blanks gap) :
    ∃ keyText' gap', KeyText object keyText' key ∧ Blanks gap' ∧
      before ++ (keyText ++ gap) = keyText' ++ gap' := by
  have happend {left right : Text} (hleft : Blanks left) (hright : Blanks right) :
      Blanks (left ++ right) := fun c hc => (List.mem_append.mp hc).elim (hleft c) (hright c)
  cases hkey with
  | array => exact ⟨[], before ++ gap, .array, happend hbefore hgap, rfl⟩
  | object hblanks hcharacters hbehind =>
    exact ⟨_, gap, .object (happend hbefore hblanks) hcharacters hbehind, hgap, by simp⟩

end

/-- The text is a value that the grammar spells and that fits, and `final` is how the reader goes on
behind it. -/
def ReadsValue (passes : Nat) (reader : Reader R) (text : Text) (final : Reader R) : Prop :=
  ∃ gap body more value left, Blanks gap ∧ Spells body value ∧ text = gap ++ (body ++ more) ∧
    left < passes ∧ reader.nodes.length + value.size ≤ documentCapacity ∧
    reader.opens.length + value.depth ≤ documentMaxDepth ∧
    continueFrom left { reader.take value with rest := more } = some (.ok final)

/-- The same of the members that are left in a container, and its closer. -/
def ReadsTail (object : Bool) (passes : Nat) (reader : Reader R) (text : Text) (final : Reader R) :
    Prop :=
  ∃ tail more members left, SpellsTail object tail members ∧ text = tail ++ more ∧
    left ≤ passes ∧ reader.nodes.length + members.size ≤ documentCapacity ∧
    reader.opens.length + members.depth ≤ documentMaxDepth ∧
    continueFrom left { (reader.takeMembers object members).close with rest := more } =
      some (.ok final)

section
variable {final : Reader R} {text : Text}

/-- The members that are left, when each value that the passes begin is read. -/
theorem readsTail {object : Bool} (passes : Nat)
    (hvalues : ∀ left ≤ passes, ∀ (reader : Reader R) (text : Text), reader.Valid →
      reader.opens.length ≤ documentMaxDepth →
      parseWithin left { reader with rest := text } = some (.ok final) →
      ReadsValue left reader text final) :
    ∀ (reader : Reader R) (text : Text), reader.Inside object →
      reader.nodes.length ≤ documentCapacity → reader.opens.length ≤ documentMaxDepth →
      continueFrom passes { reader with rest := text } = some (.ok final) →
      ReadsTail object passes reader text final := by
  induction passes using Nat.strong_induction_on with
  | _ passes ih =>
    intro reader text hinside hcapacity hdepth h
    obtain ⟨before, hbefore, ⟨more, rfl, hclosed⟩ | ⟨keyText, key, more, hkey, rfl, hmember⟩⟩ :=
      exists_of_continueFrom hinside h
    · exact ⟨_, more, .nil, passes, .close object hbefore, by simp, Nat.le_refl _, hcapacity, hdepth,
        hclosed⟩
    · have hvalid := withKey_valid hinside.valid object key
      obtain ⟨gap, body, behind, value, left, hgap, hbody, rfl, hleft, hsize, hdeep, hbehind⟩ :=
        hvalues passes (Nat.le_refl _) (reader.withKey object key) more hvalid
          (by rwa [withKey_opens]) hmember
      rw [withKey_nodes] at hsize
      rw [withKey_opens] at hdeep
      have htaken := take_length hvalid value
      rw [withKey_nodes] at htaken
      have htakenDepth := take_depth (reader.withKey object key) value
      rw [withKey_opens] at htakenDepth
      obtain ⟨tail, more, members, last, htail, rfl, hlast, hsizes, hdeeps, hfinal⟩ :=
        ih left hleft (fun last hlast => hvalues last (by omega)) _ behind
          (hinside.take key value) (by omega) (by omega) hbehind
      refine ⟨_, more, .cons key value members, last, .member hbefore hkey hgap hbody htail,
        by simp, by omega, ?_, ?_, hfinal⟩
      · rw [Members.size]
        omega
      · rw [Members.depth]
        omega

theorem readsValue (passes : Nat) : ∀ (reader : Reader R) (text : Text), reader.Valid →
    reader.opens.length ≤ documentMaxDepth →
    parseWithin passes { reader with rest := text } = some (.ok final) →
    ReadsValue passes reader text final := by
  induction passes using Nat.strong_induction_on with
  | _ passes ih =>
    intro reader text hvalid hdepth h
    cases passes with
    | zero => cases h
    | succ passes =>
      cases hbegin : beginValue { reader with rest := text } with
      | error refusal =>
        rw [parseWithin, hbegin] at h
        cases h
      | ok begun =>
        obtain ⟨begun, next⟩ := begun
        obtain ⟨hcapacity, gap, hgap, hscalar | ⟨object, behind, rfl, hopen⟩⟩ :=
          exists_of_beginValue hbegin
        · obtain ⟨body, value, more, hbody, rfl, rfl, rfl⟩ := hscalar
          rw [parseWithin_whole hbegin] at h
          exact ⟨gap, body, more, .scalar value, passes, hgap, .scalar hbody, rfl, by omega,
            hcapacity, hdepth, h⟩
        · obtain ⟨hroom, before, hbefore, hempty | hmember⟩ := exists_of_openContainer hopen
          · obtain ⟨more, rfl, rfl, rfl⟩ := hempty
            rw [parseWithin_whole hbegin] at h
            refine ⟨gap, _, more, .container object .nil, passes, hgap, .empty object hbefore,
              by simp, by omega, hcapacity, ?_, h⟩
            rw [Tree.depth, Members.depth]
            omega
          · obtain ⟨keyText, key, more, hkey, rfl, rfl, rfl⟩ := hmember
            rw [parseWithin_opened hbegin] at h
            have hinside := openNode_inside hvalid object
            have hnodes := length_openNode hvalid object
            have hopens := length_openNode_opens reader object
            have hkeyed := withKey_valid hinside.valid object key
            obtain ⟨space, body, behind, value, left, hspace, hbody, rfl, hleft, hsize, hdeep,
              hbehind⟩ := ih passes (by omega) _ more hkeyed (by rw [withKey_opens]; omega) h
            have htaken := take_length hkeyed value
            have htakenDepth := take_depth ((reader.openNode object).withKey object key) value
            rw [withKey_nodes] at hsize htaken
            rw [withKey_opens] at hdeep htakenDepth
            obtain ⟨tail, more, members, last, htail, rfl, hlast, hsizes, hdeeps, hfinal⟩ :=
              readsTail left (fun last hlast => ih last (by omega)) _ behind
                (hinside.take key value) (by omega) (by omega) hbehind
            obtain ⟨keyText', space', hkey', hspace', htext⟩ := exists_keyText hbefore hkey hspace
            refine ⟨gap, _, more, .container object (.cons key value members), last, hgap,
              .container hkey' hspace' hbody htail, ?_, by omega, ?_, ?_, hfinal⟩
            · have hfront : before ++ (keyText ++ (space ++ (body ++ (tail ++ more)))) =
                  keyText' ++ (space' ++ (body ++ (tail ++ more))) := by
                simpa only [List.append_assoc] using congrArg (· ++ (body ++ (tail ++ more))) htext
              simp [hfront]
            · rw [Tree.size, Members.size]
              omega
            · rw [Tree.depth, Members.depth]
              omega

end

end WaveformGenerator.SignalLab.Json.Reader
