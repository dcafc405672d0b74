import Mathlib.Data.List.Forall2
import Mathlib.Data.List.ReduceOption
import WaveformGenerator.Host.ItemLines

/-!
# A written playlist holds the items it was asked for

The items that `parseBytes` reads in what `render` writes are the objects' own exactly if every
object is clean.
-/

namespace WaveformGenerator.Host

/-! ## Bytes -/

/-- `text.encode("ascii")` of characters that are ASCII. -/
def encode (text : List Char) : List UInt8 := text.map fun c => .ofNat c.toNat

/-- What a checked line's characters are. -/
def Printable (text : List Char) : Prop :=
  ∀ c ∈ text, 32 ≤ c.toNat ∧ c.toNat ≤ 126 ∨ c = '\t'

section
variable {text : List Char} {line : Nat} {offered : Bool}

theorem printable_of_parseLine {parsed : Option Item}
    (h : parseLine text line offered = .ok parsed) : Printable text := by
  unfold parseLine at h
  split at h
  · cases h
  · rename_i hprintable
    intro c hc
    by_contra hother
    refine hprintable (List.any_eq_true.mpr ⟨c, hc, ?_⟩)
    obtain ⟨hrange, htab⟩ := not_or.mp hother
    simpa [htab, imp_iff_not_or] using hrange

theorem Printable.lt (h : Printable text) : ∀ c ∈ text, c.toNat < 128 ∧ c.toNat ≠ 10 ∧
    c.toNat ≠ 13 := by
  intro c hc
  obtain hrange | rfl := h c hc
  · omega
  · decide

theorem toNat_encode {c : Char} (h : c.toNat < 128) : (UInt8.ofNat c.toNat).toNat = c.toNat := by
  rw [UInt8.toNat_ofNat', Nat.mod_eq_of_lt (by omega)]

theorem not_mem_encode (h : Printable text) {mark : UInt8} (hmark : mark = 10 ∨ mark = 13) :
    mark ∉ encode text := by
  intro hmem
  obtain ⟨c, hc, rfl⟩ := List.mem_map.mp hmem
  obtain ⟨hascii, hlf, hcr⟩ := h.lt c hc
  obtain hmark | hmark := hmark
  · have := congrArg UInt8.toNat hmark
    rw [toNat_encode hascii] at this
    exact hlf this
  · have := congrArg UInt8.toNat hmark
    rw [toNat_encode hascii] at this
    exact hcr this

theorem decode_encode (h : Printable text) :
    (encode text).map (fun byte => Char.ofNat byte.toNat) = text := by
  unfold encode
  rw [List.map_map]
  calc text.map ((fun byte : UInt8 => Char.ofNat byte.toNat) ∘ fun c => .ofNat c.toNat)
      = text.map id := List.map_congr_left fun c hc => by
        show Char.ofNat (UInt8.ofNat c.toNat).toNat = c
        rw [toNat_encode (h.lt c hc).1, Char.ofNat_toNat]
    _ = text := List.map_id text

theorem readLine_encode {items result : List Item} (htext : Printable text)
    (h : readLine offered items line (encode text) = .ok result) :
    ∃ parsed, parseLine text line offered = .ok parsed ∧ result = items ++ parsed.toList := by
  unfold readLine at h
  split at h
  · cases h
  dsimp only [bind, Except.bind, pure, Except.pure] at h
  rw [if_neg (fun hcr => not_mem_encode htext (.inr rfl) (List.mem_of_getLast? hcr)),
    decode_encode htext] at h
  cases hparse : parseLine text line offered with
  | error error =>
    rw [hparse] at h
    cases h
  | ok parsed =>
    rw [hparse] at h
    refine ⟨parsed, rfl, ?_⟩
    cases parsed with
    | none =>
      cases h
      exact (List.append_nil _).symm
    | some item =>
      dsimp only at h
      split at h
      · cases h
      split at h
      · cases h
        rfl
      split at h
      · cases h
      · cases h
        rfl

end

/-! ## Files -/

/-- What the line of an entry is read as. -/
def ReadAs (offered : Bool) (entry : Entry) (parsed : Option Item) : Prop :=
  ∃ number text, itemLine number entry = .ok text ∧ parseLine text number offered = .ok parsed

theorem of_itemLines_cons {number : Nat} {entry : Entry} {entries : List Entry}
    {lines : List (List Char)} (h : itemLines number (entry :: entries) = .ok lines) :
    ∃ text later, itemLine number entry = .ok text ∧ Printable text ∧
      itemLines (number + 1) entries = .ok later ∧ lines = text :: later := by
  unfold itemLines at h
  dsimp only [bind, Except.bind, pure, Except.pure] at h
  cases hline : itemLine number entry with
  | error error =>
    rw [hline] at h
    cases h
  | ok text =>
    rw [hline] at h
    dsimp only at h
    cases hparse : parseLine text number true with
    | error error =>
      rw [hparse] at h
      cases h
    | ok parsed =>
      rw [hparse] at h
      dsimp only [Except.mapError] at h
      cases hlater : itemLines (number + 1) entries with
      | error error =>
        rw [hlater] at h
        cases h
      | ok later =>
        rw [hlater] at h
        cases h
        exact ⟨text, later, rfl, printable_of_parseLine hparse, rfl, rfl⟩

theorem printable_itemLines {number : Nat} {entries : List Entry} {lines : List (List Char)}
    (h : itemLines number entries = .ok lines) : ∀ text ∈ lines, Printable text := by
  induction entries generalizing number lines with
  | nil =>
    cases h
    exact nofun
  | cons entry entries ih =>
    obtain ⟨text, later, -, htext, hlater, rfl⟩ := of_itemLines_cons h
    exact List.forall_mem_cons.mpr ⟨htext, ih hlater⟩

/-- The lines of some entries, read on: each adds the item it was read as, if any. -/
theorem readLines_itemLines {offered : Bool} {number : Nat} {entries : List Entry}
    {lines : List (List Char)} {items result : List Item}
    (hlines : itemLines number entries = .ok lines)
    (h : readLines offered items number (lines.map encode) = .ok result) :
    ∃ parsed, result = items ++ List.reduceOption parsed ∧
      List.Forall₂ (ReadAs offered) entries parsed := by
  induction entries generalizing number lines items with
  | nil =>
    cases hlines
    unfold readLines at h
    rw [List.map_nil] at h
    dsimp only at h
    split at h
    · cases h
    · cases h
      exact ⟨[], (List.append_nil _).symm, .nil⟩
  | cons entry entries ih =>
    obtain ⟨text, later, hline, htext, hlater, rfl⟩ := of_itemLines_cons hlines
    rw [List.map_cons] at h
    unfold readLines at h
    dsimp only [bind, Except.bind] at h
    cases hread : readLine offered items number (encode text) with
    | error error =>
      rw [hread] at h
      cases h
    | ok next =>
      rw [hread] at h
      obtain ⟨first, hparse, rfl⟩ := readLine_encode htext hread
      obtain ⟨parsed, rfl, hall⟩ := ih hlater h
      refine ⟨first :: parsed, ?_, .cons ⟨number, text, hline, hparse⟩ hall⟩
      rw [List.append_assoc]
      cases first <;> rfl

theorem encode_lines {lines : List (List Char)} (hne : lines ≠ []) :
    (['\n'].intercalate lines ++ ['\n']).map (fun c => UInt8.ofNat c.toNat) =
      [10].intercalate (lines.map encode ++ [[]]) := by
  have hnewline : UInt8.ofNat '\n'.toNat = 10 := rfl
  induction lines with
  | nil => exact absurd rfl hne
  | cons text lines ih =>
    cases lines with
    | nil =>
      rw [List.intercalate_singleton, List.map_append, List.map_singleton, hnewline,
        List.map_singleton, List.singleton_append, List.intercalate_cons_cons,
        List.intercalate_singleton, List.append_nil]
      rfl
    | cons next lines =>
      have hrest := ih (List.cons_ne_nil _ _)
      rw [List.map_cons, List.cons_append] at hrest
      rw [List.intercalate_cons_cons, List.append_assoc, List.map_append, hrest, List.map_append,
        List.map_singleton, hnewline, List.map_cons, List.map_cons, List.cons_append,
        List.cons_append, List.intercalate_cons_cons]
      rfl

/-- A rendered file has the lines, each before its LF. -/
theorem lines_render {lines : List (List Char)} {data : List UInt8} (hne : lines ≠ [])
    (hprintable : ∀ text ∈ lines, Printable text) (h : render lines none = some data) :
    (if (data.splitOn 10).getLast? = some [] then (data.splitOn 10).dropLast
      else data.splitOn 10) = lines.map encode := by
  unfold render at h
  dsimp only at h
  split at h
  · obtain rfl := Option.some.inj h
    rw [List.nil_append, encode_lines hne, List.splitOn_intercalate, List.getLast?_concat,
      if_pos rfl, List.dropLast_concat]
    · intro raw hraw
      obtain hraw | hraw := List.mem_append.mp hraw
      · obtain ⟨text, htext, rfl⟩ := List.mem_map.mp hraw
        exact not_mem_encode (hprintable text htext) (.inl rfl)
      · rw [List.mem_singleton.mp hraw]
        exact List.not_mem_nil
    · exact List.append_ne_nil_of_right_ne_nil _ (List.cons_ne_nil _ _)
  · cases h

/-- An item with the fields of an entry. -/
def ItemOf (entry : Entry) (item : Item) : Prop :=
  ∃ members, entry = .object members ∧ Own members item

variable {offered : Bool} {entries : List Entry}

theorem itemOf_of_clean {parsed : List (Option Item)}
    (hread : List.Forall₂ (ReadAs offered) entries parsed)
    (hclean : ∀ members, .object members ∈ entries → Clean members) :
    List.Forall₂ ItemOf entries (List.reduceOption parsed) := by
  induction hread with
  | nil => exact .nil
  | @cons entry first entries parsed hfirst _ ih =>
    obtain ⟨number, text, hline, hparse⟩ := hfirst
    cases entry with
    | other => cases hline
    | object members =>
      obtain ⟨item, rfl, hown⟩ := own_of_clean hline hparse (hclean members List.mem_cons_self)
      rw [List.reduceOption_cons_of_some]
      exact .cons ⟨members, rfl, hown⟩ (ih fun members hmem =>
        hclean members (List.mem_cons_of_mem _ hmem))

theorem wellSpelt_of_readAs {parsed : List (Option Item)}
    (hread : List.Forall₂ (ReadAs offered) entries parsed) :
    ∀ item ∈ List.reduceOption parsed, item.WellSpelt := by
  induction hread with
  | nil => exact nofun
  | @cons _ first _ _ hfirst _ ih =>
    obtain ⟨_, _, -, hparse⟩ := hfirst
    cases first with
    | none => exact ih
    | some item =>
      rw [List.reduceOption_cons_of_some]
      exact List.forall_mem_cons.mpr ⟨parseLine_wellSpelt hparse, ih⟩

/-- Objects whose items have their fields are clean. -/
theorem clean_of_itemOf {items : List Item} (h : List.Forall₂ ItemOf entries items)
    (hspelt : ∀ item ∈ items, item.WellSpelt) :
    ∀ members, .object members ∈ entries → Clean members := by
  induction h with
  | nil => exact nofun
  | cons hfirst _ ih =>
    rw [List.forall_mem_cons] at hspelt
    obtain ⟨own, rfl, hown⟩ := hfirst
    intro members hmem
    obtain heq | hmem := List.mem_cons.mp hmem
    · cases heq
      exact hown.clean hspelt.1
    · exact ih hspelt.2 members hmem

/-- The playlist that is written for a list of objects holds just their items, in order, exactly if
every object is clean. -/
theorem holdsItems_iff {lines : List (List Char)} {data : List UInt8} {items : List Item}
    (hlines : itemsFromJson (some entries) = .ok lines) (hdata : render lines none = some data)
    (hitems : parseBytes data offered = .ok items) :
    List.Forall₂ ItemOf entries items ↔ ∀ members, .object members ∈ entries → Clean members := by
  cases entries with
  | nil => cases hlines
  | cons entry entries =>
    have hlines : itemLines 1 (entry :: entries) = .ok lines := hlines
    have hne : lines ≠ [] := by
      obtain ⟨_, _, -, -, -, rfl⟩ := of_itemLines_cons hlines
      exact List.cons_ne_nil _ _
    unfold parseBytes at hitems
    split at hitems
    · cases hitems
    dsimp only at hitems
    rw [lines_render hne (printable_itemLines hlines) hdata] at hitems
    obtain ⟨parsed, rfl, hread⟩ := readLines_itemLines hlines hitems
    rw [List.nil_append]
    exact ⟨fun h => clean_of_itemOf h (wellSpelt_of_readAs hread), itemOf_of_clean hread⟩

/-- `A.WAV 0.5 CODEC scn=B.SCN seed=7 att=-6.5`, asked for with numbers. -/
theorem holdsItems_iff_numbers :
    List.Forall₂ ItemOf
      [.object [("file", .str "A.WAV".toList), ("gap", .float (.fixed false 0 [5])),
        ("route", .str "CODEC".toList), ("scn", .str "B.SCN".toList), ("seed", .int 7),
        ("att", .float (.fixed true 6 [5]))]]
      [{ file := "A.WAV".toList, gapFrames := 24000, route := .codec, line := 1,
         scenario := some "B.SCN".toList, seed := some 7, attenuationTenths := 65 }] := by
  refine (@holdsItems_iff true _ ["A.WAV 0.5 CODEC scn=B.SCN seed=7 att=-6.5".toList]
    (encode "A.WAV 0.5 CODEC scn=B.SCN seed=7 att=-6.5\n".toList) _ (by decide +kernel)
    (by decide +kernel) (by decide +kernel)).mpr fun members hmem => ?_
  cases List.mem_singleton.mp hmem
  refine ⟨?_, by decide, by decide, by decide⟩
  decide +kernel

/-- A label with a blank in it gives the item a scenario. -/
theorem not_holdsItems_label :
    let entries : List Entry := [.object [("file", .str "A.WAV".toList), ("gap", .int 0),
      ("route", .str "CODEC".toList), ("label", .str "X scn=B.SCN".toList)]]
    ∃ lines data items, itemsFromJson (some entries) = .ok lines ∧ render lines none = some data ∧
      parseBytes data true = .ok items ∧ ¬List.Forall₂ ItemOf entries items := by
  refine ⟨["A.WAV 0 CODEC label=X scn=B.SCN".toList],
    encode "A.WAV 0 CODEC label=X scn=B.SCN\n".toList,
    [{ file := "A.WAV".toList, gapFrames := 0, route := .codec, line := 1,
       label := some ['X'], scenario := some "B.SCN".toList }],
    by decide +kernel, by decide +kernel, by decide +kernel, fun h => ?_⟩
  cases h with
  | cons hown =>
    obtain ⟨_, hmembers, -, -, -, options, hasked, -, hscenario, -⟩ := hown
    cases hmembers
    rw [hasked.scn] at hscenario
    cases hscenario

end WaveformGenerator.Host
