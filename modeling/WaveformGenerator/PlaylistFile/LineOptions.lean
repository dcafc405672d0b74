import WaveformGenerator.PlaylistFile.LineWords

/-!
# The fields and options of a playlist line

What `parse_line` reads in a word is the field or option that the word spells. The options of a line
set a field each, so their order does not matter.
-/

namespace WaveformGenerator.PlaylistFile

open Text
open Playlist (Route)
open Host (SpellsSeconds SpellsTenths)

/-! ## Fields -/

theorem isShortName_iff (text extension : List Char) :
    isShortName text extension = true ↔ ShortName text extension := by
  have hstem : ∀ stem, isNameStem stem = true ↔
      stem ≠ [] ∧ stem.length ≤ nameStemMaxChars ∧ ∀ c ∈ stem, isNameChar c = true := by
    intro stem
    rw [isNameStem, Bool.and_eq_true, Bool.and_eq_true, Bool.not_eq_true', decide_eq_true_eq,
      List.all_eq_true, List.isEmpty_eq_false_iff, and_assoc]
  unfold isShortName
  constructor
  · intro h
    obtain ⟨-, htext⟩ := splitFirst_spec '.' text
    generalize splitFirst '.' text = parts at h htext
    obtain ⟨stem, _ | rest⟩ := parts
    · cases h
    · rw [Bool.and_eq_true, beq_iff_eq, hstem] at h
      obtain ⟨hname, rfl⟩ := h
      exact ⟨stem, htext, hname⟩
  · rintro ⟨stem, rfl, hname⟩
    have hdot : '.' ∉ stem := fun hmem => absurd (hname.2.2 _ hmem) (by decide)
    rw [splitFirst_append hdot, Bool.and_eq_true, hstem]
    exact ⟨hname, beq_self_eq_true extension⟩

theorem ShortName.chars_ofText {text extension : List Char} (hextension : extension.length = 3)
    (h : ShortName text extension) : (FixedText.ofText nameMaxChars text).chars = text :=
  Host.shortName_ofText hextension ((isShortName_iff ..).mpr h)

theorem parseMilliseconds_iff {digits : Nat} (hdigits : digits ≤ 5) (text : List Char)
    (value : UInt32) :
    parseMilliseconds text digits = some value ↔ SpellsSeconds digits text value.toNat := by
  constructor
  · intro h
    obtain ⟨milliseconds, hspells⟩ := Host.spells_of_parseMilliseconds h
    obtain ⟨value', hvalue, rfl⟩ := Host.parseMilliseconds_of_spells hdigits hspells
    rw [h] at hvalue
    cases hvalue
    exact hspells
  · intro h
    obtain ⟨value', hvalue, heq⟩ := Host.parseMilliseconds_of_spells hdigits h
    rw [hvalue, UInt32.toNat_inj.mp heq]

theorem toNat_frames {milliseconds : UInt32} (h : milliseconds.toNat ≤ 86400000) :
    (milliseconds * framesPerMillisecond).toNat = milliseconds.toNat * 48 := by
  rw [UInt32.toNat_mul]
  exact Nat.mod_eq_of_lt (by show milliseconds.toNat * 48 < 2 ^ 32; omega)

/-- Milliseconds in a range, as frames: what `parse_gap` and `parse_duration` check. -/
theorem frames_iff {digits least most : Nat} (hdigits : digits ≤ 5) (hmost : most ≤ 86400000)
    (text : List Char) (frames : UInt32) :
    (∃ value : UInt32, parseMilliseconds text digits = some value ∧ least ≤ value.toNat ∧
      value.toNat ≤ most ∧ frames = value * framesPerMillisecond) ↔
      SpellsFrames digits text frames ∧ FramesBetween least most frames := by
  constructor
  · rintro ⟨value, hparse, hleast, hvalue, rfl⟩
    have hframes := toNat_frames (Nat.le_trans hvalue hmost)
    exact ⟨⟨_, (parseMilliseconds_iff hdigits ..).mp hparse, hframes⟩, _, hleast, hvalue, hframes⟩
  · rintro ⟨⟨milliseconds, hspells, hframes⟩, bounded, hleast, hbound, hsame⟩
    have heq : bounded = milliseconds := by omega
    subst heq
    have hvalue : (UInt32.ofNat bounded).toNat = bounded := toNat_ofNat32 (by omega)
    refine ⟨.ofNat bounded, ?_, by omega, by omega, ?_⟩
    · rw [parseMilliseconds_iff hdigits, hvalue]
      exact hspells
    · apply UInt32.toNat_inj.mp
      rw [toNat_frames (by omega), hvalue, hframes]

theorem parseGap_iff (text : List Char) (frames : UInt32) :
    parseGap text = .ok frames ↔
      SpellsFrames gapMaxWholeDigits text frames ∧ FramesBetween 0 3600000 frames := by
  rw [← frames_iff (by decide) (by decide)]
  have hmost : maxGapMilliseconds.toNat = 3600000 := rfl
  unfold parseGap
  cases parseMilliseconds text gapMaxWholeDigits with
  | none => exact ⟨nofun, fun ⟨_, h, _⟩ => nomatch h⟩
  | some value =>
    dsimp only
    simp only [UInt32.lt_iff_toNat_lt, hmost]
    constructor
    · intro h
      split at h
      · cases h
      · cases h
        exact ⟨value, rfl, Nat.zero_le _, by omega, rfl⟩
    · rintro ⟨_, hvalue, -, hbound, rfl⟩
      cases hvalue
      rw [if_neg (by omega)]

theorem parseDuration_iff (text : List Char) (frames : UInt32) :
    parseDuration text = .ok frames ↔
      SpellsFrames durationMaxWholeDigits text frames ∧ FramesBetween 1000 86400000 frames := by
  rw [← frames_iff (by decide) (by decide)]
  have hleast : minDurationMilliseconds.toNat = 1000 := rfl
  have hmost : maxDurationMilliseconds.toNat = 86400000 := rfl
  unfold parseDuration
  cases parseMilliseconds text durationMaxWholeDigits with
  | none => exact ⟨nofun, fun ⟨_, h, _⟩ => nomatch h⟩
  | some value =>
    dsimp only
    simp only [UInt32.lt_iff_toNat_lt, hleast, hmost]
    constructor
    · intro h
      split at h
      · cases h
      · cases h
        exact ⟨value, rfl, by omega, by omega, rfl⟩
    · rintro ⟨_, hvalue, hshort, hlong, rfl⟩
      cases hvalue
      rw [if_neg (by omega)]

theorem parseRoute_iff (text : List Char) (offered : OfferedRoutes) (route : Route) :
    parseRoute text offered = .ok route ↔
      text = routeName route ∧ (route = .usb → offered.usb = true) := by
  unfold parseRoute
  constructor
  · intro h
    split at h
    · cases h
      exact ⟨‹_›, nofun⟩
    split at h
    · cases h
    split at h
    · cases h
    · rename_i hname hoffered
      cases h
      rw [Bool.not_eq_true', Bool.not_eq_false] at hoffered
      exact ⟨not_not.mp hname, fun _ => hoffered⟩
  · rintro ⟨rfl, hoffered⟩
    cases route with
    | codec => rfl
    | usb =>
      rw [hoffered rfl]
      rfl

theorem ofText_chars {capacity : Nat} (text : FixedText capacity) :
    FixedText.ofText capacity text.chars = text :=
  Host.fixedText_ext (List.take_of_length_le text.bounded)

theorem parseFields_iff (file gap route : List Char) (offered : OfferedRoutes)
    (item result : Item) :
    parseFields file gap route offered item = .ok result ↔
      (file = result.file.chars ∧ ShortName result.file.chars "WAV".toList) ∧
        (SpellsFrames gapMaxWholeDigits gap result.gap ∧ FramesBetween 0 3600000 result.gap) ∧
        (route = routeName result.route ∧ (result.route = .usb → offered.usb = true)) ∧
        result = { item with file := result.file, gap := result.gap, route := result.route } := by
  rw [← parseGap_iff, ← parseRoute_iff]
  unfold parseFields
  constructor
  · intro h
    split at h
    · cases h
    rename_i hname
    rw [Bool.not_eq_true', Bool.not_eq_false] at hname
    have hname := (isShortName_iff ..).mp hname
    split at h
    · cases h
    rename_i hgap
    split at h
    · cases h
    rename_i hroute
    cases h
    have hchars := hname.chars_ofText rfl
    refine ⟨⟨hchars.symm, ?_⟩, hgap, hroute, rfl⟩
    rw [hchars]
    exact hname
  · rintro ⟨⟨rfl, hname⟩, hgap, hroute, hresult⟩
    rw [if_neg (by rw [(isShortName_iff ..).mpr hname]; decide), hgap]
    dsimp only
    rw [hroute]
    dsimp only
    rw [ofText_chars, ← hresult]

/-! ## Options -/

namespace OptionKey

def name : OptionKey → List Char
  | label => "label".toList
  | scn => "scn".toList
  | seed => "seed".toList
  | cut => "cut".toList
  | att => "att".toList
  | dur => "dur".toList

def index : OptionKey → Nat
  | label => 0
  | scn => 1
  | seed => 2
  | cut => 3
  | att => 4
  | dur => 5

def parse : OptionKey → List Char → Item → Result Item
  | label => parseLabel
  | scn => parseScenario
  | seed => parseSeed
  | cut => parseCuts
  | att => parseAttenuation
  | dur => parseItemDuration

/-- `target` with the option as `source` has it. -/
def copy (source target : Item) : OptionKey → Item
  | label => { target with label := source.label }
  | scn => { target with scenario := source.scenario }
  | seed => { target with seed := source.seed }
  | cut => { target with cuts := source.cuts }
  | att => { target with attenuation := source.attenuation }
  | dur => { target with duration := source.duration }

/-- What a value may say alone: whether there is a scenario for a seed is judged behind the last
option. -/
def Allows (item : Item) : OptionKey → Prop
  | seed => True
  | key => key.InRange item

end OptionKey

theorem parseLabel_iff (value : List Char) (item result : Item) :
    parseLabel value item = .ok result ↔ OptionKey.label.Spells result value ∧
      OptionKey.label.Allows result ∧ result = OptionKey.label.copy result item := by
  unfold parseLabel
  constructor
  · intro h
    split at h
    · cases h
    · rename_i hbad
      rw [not_or, not_or, Bool.not_eq_true', Bool.not_eq_false, List.isEmpty_iff, Nat.not_lt,
        List.all_eq_true] at hbad
      obtain ⟨hne, hlength, hchars⟩ := hbad
      cases h
      have htext : (FixedText.ofText labelMaxChars value).chars = value :=
        List.take_of_length_le hlength
      refine ⟨⟨hne, htext.symm⟩, ?_, rfl⟩
      show ∀ c ∈ (FixedText.ofText labelMaxChars value).chars, isLabelChar c = true
      rwa [htext]
  · rintro ⟨⟨hne, rfl⟩, hchars, hresult⟩
    rw [if_neg, ofText_chars]
    · exact congrArg _ hresult.symm
    · rw [not_or, not_or, Bool.not_eq_true', Bool.not_eq_false, List.isEmpty_iff, Nat.not_lt,
        List.all_eq_true]
      exact ⟨hne, result.label.bounded, hchars⟩

theorem parseScenario_iff (value : List Char) (item result : Item) :
    parseScenario value item = .ok result ↔ OptionKey.scn.Spells result value ∧
      OptionKey.scn.Allows result ∧ result = OptionKey.scn.copy result item := by
  unfold parseScenario
  constructor
  · intro h
    split at h
    · cases h
    · rename_i hname
      rw [Bool.not_eq_true', Bool.not_eq_false] at hname
      have hname := (isShortName_iff ..).mp hname
      cases h
      have htext := hname.chars_ofText rfl
      refine ⟨⟨?_, htext.symm⟩, .inr (htext.symm ▸ hname), rfl⟩
      obtain ⟨stem, rfl, -⟩ := hname
      exact List.append_ne_nil_of_right_ne_nil _ (List.cons_ne_nil _ _)
  · rintro ⟨⟨hne, rfl⟩, hname, hresult⟩
    have hname := hname.resolve_left hne
    rw [(isShortName_iff ..).mpr hname, ofText_chars, if_neg (by decide)]
    exact congrArg _ hresult.symm

theorem parseSeed_iff (value : List Char) (item result : Item) :
    parseSeed value item = .ok result ↔ OptionKey.seed.Spells result value ∧
      OptionKey.seed.Allows result ∧ result = OptionKey.seed.copy result item := by
  unfold parseSeed
  constructor
  · intro h
    split at h
    · cases h
    · rename_i seed hseed
      cases h
      exact ⟨⟨seed, rfl, (Host.parseUInt32_iff ..).mp hseed⟩, trivial, rfl⟩
  · rintro ⟨⟨seed, hseed, rfl⟩, -, hresult⟩
    rw [(Host.parseUInt32_iff ..).mpr rfl]
    dsimp only
    rw [← hseed]
    exact congrArg _ hresult.symm

theorem parseCuts_iff (value : List Char) (item result : Item) :
    parseCuts value item = .ok result ↔ OptionKey.cut.Spells result value ∧
      OptionKey.cut.Allows result ∧ result = OptionKey.cut.copy result item := by
  unfold parseCuts
  constructor
  · intro h
    split at h
    · cases h
    rename_i list hlist
    split at h
    · cases h
    rename_i cuts hcuts
    cases h
    unfold Cut.validate at hcuts
    split at hcuts
    · cases hcuts
      exact ⟨(Host.parseEntries_iff ..).mp hlist, trivial, rfl⟩
    · cases hcuts
  · rintro ⟨hentries, -, hresult⟩
    rw [(Host.parseEntries_iff value result.cuts.list).mpr hentries]
    dsimp only
    rw [Cut.validate, dif_pos result.cuts.valid]
    exact congrArg _ hresult.symm

theorem parseAttenuation_iff (value : List Char) (item result : Item) :
    parseAttenuation value item = .ok result ↔ OptionKey.att.Spells result value ∧
      OptionKey.att.Allows result ∧ result = OptionKey.att.copy result item := by
  unfold parseAttenuation
  constructor
  · intro h
    by_cases hspells : ∃ negative tenths, SpellsTenths negative value tenths
    · obtain ⟨negative, tenths, hspells⟩ := hspells
      obtain ⟨hsmall, hparse⟩ := Host.parse_of_spells hspells
      have hvalue : (UInt32.ofNat tenths).toNat = tenths := toNat_ofNat32 (by omega)
      rw [hparse, Attenuation.Tenths.of] at h
      split at h
      · cases h
      rename_i attenuation hattenuation
      split at hattenuation
      · cases hattenuation
      rename_i hsign
      split at hattenuation
      · cases hattenuation
        cases h
        refine ⟨⟨negative, ?_, fun hne => ?_⟩, trivial, rfl⟩
        · show SpellsTenths negative value (UInt32.ofNat tenths).toNat
          rwa [hvalue]
        · by_contra hpositive
          exact hsign ⟨hne, hpositive⟩
      · cases hattenuation
    · rw [not_exists] at hspells
      rw [Host.parse_of_not_spells fun negative tenths hspelt =>
        hspells negative ⟨tenths, hspelt⟩] at h
      cases h
  · rintro ⟨⟨negative, hspells, hsign⟩, -, hresult⟩
    obtain ⟨-, hparse⟩ := Host.parse_of_spells hspells
    rw [hparse, UInt32.ofNat_toNat, if_neg (fun h => h.2 (hsign h.1)), Attenuation.Tenths.of,
      dif_pos result.attenuation.bounded]
    exact congrArg _ hresult.symm

theorem parseItemDuration_iff (value : List Char) (item result : Item) :
    parseItemDuration value item = .ok result ↔ OptionKey.dur.Spells result value ∧
      OptionKey.dur.Allows result ∧ result = OptionKey.dur.copy result item := by
  unfold parseItemDuration
  constructor
  · intro h
    split at h
    · cases h
    · rename_i frames hframes
      cases h
      obtain ⟨hspells, hrange⟩ := (parseDuration_iff ..).mp hframes
      exact ⟨⟨frames, rfl, hspells⟩, fun _ heq => Option.some.inj heq ▸ hrange, rfl⟩
  · rintro ⟨⟨frames, hframes, hspells⟩, hrange, hresult⟩
    rw [(parseDuration_iff ..).mpr ⟨hspells, hrange frames hframes⟩]
    dsimp only
    rw [← hframes]
    exact congrArg _ hresult.symm

namespace OptionKey

/-- An option's value is read as the option's own field alone. -/
theorem parse_iff (key : OptionKey) (value : List Char) (item result : Item) :
    key.parse value item = .ok result ↔
      key.Spells result value ∧ key.Allows result ∧ result = key.copy result item := by
  cases key with
  | label => exact parseLabel_iff ..
  | scn => exact parseScenario_iff ..
  | seed => exact parseSeed_iff ..
  | cut => exact parseCuts_iff ..
  | att => exact parseAttenuation_iff ..
  | dur => exact parseItemDuration_iff ..

theorem text_append (key : OptionKey) (value : List Char) :
    key.text ++ value = key.name ++ '=' :: value := by
  cases key <;> rfl

theorem index_inj {key other : OptionKey} (h : key.index = other.index) : key = other := by
  cases key <;> cases other <;> first | rfl | cases h

theorem splitFirst_text (key : OptionKey) (value : List Char) :
    splitFirst '=' (key.text ++ value) = (key.name, some value) := by
  have hname : '=' ∉ key.name := by cases key <;> decide
  rw [text_append, splitFirst_append hname]

/-- No key starts another's option. -/
theorem text_append_inj {key other : OptionKey} {value value' : List Char}
    (h : key.text ++ value = other.text ++ value') : key = other ∧ value = value' := by
  have hparts := congrArg (splitFirst '=') h
  rw [splitFirst_text, splitFirst_text] at hparts
  obtain ⟨hname, hvalue⟩ := Prod.mk.inj hparts
  refine ⟨?_, Option.some.inj hvalue⟩
  cases key <;> cases other <;> first | rfl | exact absurd hname (by decide)

end OptionKey

theorem given_iff {seen seen' : List Nat} {index : Nat} {parsed : Result Item} {result : Item} :
    Host.given seen index parsed = .ok (result, seen') ↔
      index ∉ seen ∧ parsed = .ok result ∧ seen' = index :: seen := by
  unfold Host.given
  constructor
  · intro h
    split at h
    · cases h
    · cases parsed with
      | error status => cases h
      | ok item =>
        cases h
        exact ⟨‹_›, rfl, rfl⟩
  · rintro ⟨hnew, rfl, rfl⟩
    rw [if_neg hnew]
    rfl

theorem parseOption_iff (token : List Char) (item result : Item) (seen seen' : List Nat) :
    parseOption token item seen = .ok (result, seen') ↔
      ∃ key value, token = OptionKey.text key ++ value ∧ key.index ∉ seen ∧
        key.parse value item = .ok result ∧ seen' = key.index :: seen := by
  rw [Host.board_parseOption]
  constructor
  · intro h
    obtain ⟨-, htext⟩ := splitFirst_spec '=' token
    generalize splitFirst '=' token = parts at h htext
    obtain ⟨name, _ | value⟩ := parts
    · cases h
    have hkey : ∀ key : OptionKey, name = key.name →
        Host.given seen key.index (key.parse value item) = .ok (result, seen') →
        ∃ key value, token = OptionKey.text key ++ value ∧ key.index ∉ seen ∧
          key.parse value item = .ok result ∧ seen' = key.index :: seen := by
      rintro key rfl hgiven
      exact ⟨key, value, by rw [OptionKey.text_append]; exact htext, given_iff.mp hgiven⟩
    dsimp only at h
    split at h
    · exact hkey .label ‹_› h
    split at h
    · exact hkey .scn ‹_› h
    split at h
    · exact hkey .seed ‹_› h
    split at h
    · exact hkey .cut ‹_› h
    split at h
    · exact hkey .att ‹_› h
    split at h
    · exact hkey .dur ‹_› h
    · cases h
  · rintro ⟨key, value, rfl, hnew, hparse, rfl⟩
    rw [OptionKey.splitFirst_text]
    have hgiven := given_iff.mpr ⟨hnew, hparse, rfl⟩
    cases key <;> exact hgiven

/-! ## All options -/

namespace OptionKey

/-- `target` with the options `keys` as `source` has them. -/
def copyAll (keys : List OptionKey) (source target : Item) : Item :=
  keys.foldl (fun target key => key.copy source target) target

/-- Two items have the same for an option. -/
def Same (a b : Item) : OptionKey → Prop
  | label => a.label = b.label
  | scn => a.scenario = b.scenario
  | seed => a.seed = b.seed
  | cut => a.cuts = b.cuts
  | att => a.attenuation = b.attenuation
  | dur => a.duration = b.duration

section
variable {key other : OptionKey} {keys : List OptionKey} {a b c : Item}

theorem Same.rfl : key.Same a a := by
  cases key <;> exact Eq.refl _

theorem Same.symm (h : key.Same a b) : key.Same b a := by
  cases key <;> exact Eq.symm h

theorem Same.trans (h : key.Same a b) (h' : key.Same b c) : key.Same a c := by
  cases key <;> exact Eq.trans h h'

theorem Same.spells {value : List Char} (h : key.Same a b) :
    key.Spells a value ↔ key.Spells b value := by
  cases key <;> (unfold Same at h; unfold Spells; rw [h])

theorem Same.allows (h : key.Same a b) : key.Allows a ↔ key.Allows b := by
  cases key with
  | seed => exact Iff.rfl
  | label | scn | cut | att | dur =>
    unfold Same at h
    unfold Allows InRange
    dsimp only
    first | exact Iff.rfl | rw [h]

theorem Same.copy (h : key.Same a b) (target : Item) : key.copy a target = key.copy b target := by
  cases key <;> (unfold Same at h; unfold OptionKey.copy; dsimp only; rw [h])

theorem same_of_absent (ha : key.Absent a) (hb : key.Absent b) : key.Same a b := by
  cases key with
  | label => exact Host.fixedText_ext (ha.trans hb.symm)
  | scn => exact Host.fixedText_ext (ha.trans hb.symm)
  | seed => exact ha.trans hb.symm
  | cut =>
    unfold Same
    obtain ⟨_, _, _, _, _, _, ⟨⟨_, _⟩, _⟩, _⟩ := a
    obtain ⟨_, _, _, _, _, _, ⟨⟨_, _⟩, _⟩, _⟩ := b
    cases ha
    cases hb
    rfl
  | att =>
    unfold Same
    obtain ⟨_, _, _, _, _, _, _, ⟨_, _⟩, _⟩ := a
    obtain ⟨_, _, _, _, _, _, _, ⟨_, _⟩, _⟩ := b
    cases ha
    cases hb
    rfl
  | dur => exact ha.trans hb.symm

theorem Same.absent (h : key.Same a b) (hb : key.Absent b) : key.Absent a := by
  cases key <;> (unfold Same at h; unfold Absent at hb ⊢; rwa [h])

theorem copy_self (source target : Item) : key.Same (key.copy source target) source := by
  cases key <;> exact Eq.refl _

theorem copy_of_ne (h : key ≠ other) (source target : Item) :
    key.Same (other.copy source target) target := by
  cases key <;> cases other <;> first | exact absurd (Eq.refl _) h | exact Eq.refl _

theorem copyAll_of_not_mem (h : key ∉ keys) (source target : Item) :
    key.Same (copyAll keys source target) target := by
  induction keys generalizing target with
  | nil => exact .rfl
  | cons other keys ih =>
    rw [List.mem_cons, not_or] at h
    exact (ih h.2 _).trans (copy_of_ne h.1 source target)

theorem copyAll_of_mem (h : key ∈ keys) (source target : Item) :
    key.Same (copyAll keys source target) source := by
  induction keys generalizing target with
  | nil => cases h
  | cons other keys ih =>
    by_cases hlater : key ∈ keys
    · exact ih hlater _
    · obtain rfl := (List.mem_cons.mp h).resolve_right hlater
      exact (copyAll_of_not_mem hlater source _).trans (copy_self source target)

theorem copyAll_fields (keys : List OptionKey) (source target : Item) :
    (copyAll keys source target).file = target.file ∧
      (copyAll keys source target).gap = target.gap ∧
      (copyAll keys source target).route = target.route ∧
      (copyAll keys source target).line = target.line := by
  induction keys generalizing target with
  | nil => exact ⟨Eq.refl _, Eq.refl _, Eq.refl _, Eq.refl _⟩
  | cons key keys ih =>
    have hkey : (key.copy source target).file = target.file ∧
        (key.copy source target).gap = target.gap ∧
        (key.copy source target).route = target.route ∧
        (key.copy source target).line = target.line := by
      cases key <;> exact ⟨Eq.refl _, Eq.refl _, Eq.refl _, Eq.refl _⟩
    obtain ⟨hfile, hgap, hroute, hline⟩ := ih (key.copy source target)
    exact ⟨hfile.trans hkey.1, hgap.trans hkey.2.1, hroute.trans hkey.2.2.1,
      hline.trans hkey.2.2.2⟩

end

end OptionKey

/-- The words of some options are read as those options' fields, each once. -/
theorem parseOptions_iff (words : List (List Char)) (start result : Item) (seen : List Nat) :
    parseOptions start seen words = .ok result ↔
      ∃ keys : List OptionKey, keys.Nodup ∧ (∀ key ∈ keys, key.index ∉ seen) ∧
        List.Forall₂ (WritesOption result) keys words ∧ (∀ key ∈ keys, key.Allows result) ∧
        result = OptionKey.copyAll keys result start := by
  induction words generalizing start seen with
  | nil =>
    unfold parseOptions
    constructor
    · intro h
      cases h
      exact ⟨[], List.nodup_nil, List.forall_mem_nil _, .nil, List.forall_mem_nil _, rfl⟩
    · rintro ⟨keys, -, -, hwords, -, hresult⟩
      cases hwords
      exact congrArg _ hresult.symm
  | cons word words ih =>
    unfold parseOptions
    constructor
    · intro h
      split at h
      · cases h
      rename_i next later hnext
      obtain ⟨key, value, rfl, hnew, hparse, rfl⟩ := (parseOption_iff ..).mp hnext
      obtain ⟨hspells, hallows, hcopy⟩ := (OptionKey.parse_iff ..).mp hparse
      obtain ⟨keys, hnodup, hunseen, hwords, hall, hresult⟩ := (ih next _).mp h
      have hkey : key ∉ keys := fun hmem => hunseen key hmem List.mem_cons_self
      have hsame : key.Same result next := by
        rw [hresult]
        exact OptionKey.copyAll_of_not_mem hkey result next
      refine ⟨key :: keys, List.nodup_cons.mpr ⟨hkey, hnodup⟩,
        List.forall_mem_cons.mpr ⟨hnew, fun other hother hmem => ?_⟩,
        .cons ⟨value, rfl, hsame.spells.mpr hspells⟩ hwords,
        List.forall_mem_cons.mpr ⟨hsame.allows.mpr hallows, hall⟩, ?_⟩
      · exact hunseen other hother (List.mem_cons_of_mem _ hmem)
      · show result = OptionKey.copyAll keys result (key.copy result start)
        rw [hsame.copy, ← hcopy]
        exact hresult
    · rintro ⟨keys, hnodup, hunseen, hwords, hall, hresult⟩
      cases hwords with
      | @cons key _ keys _ hword hwords =>
        obtain ⟨value, rfl, hspells⟩ := hword
        rw [List.nodup_cons] at hnodup
        rw [List.forall_mem_cons] at hunseen hall
        have hsame := @OptionKey.copy_self key result start
        have hparse : key.parse value start = .ok (key.copy result start) :=
          (OptionKey.parse_iff ..).mpr
            ⟨hsame.spells.mpr hspells, hsame.allows.mpr hall.1, (hsame.copy start).symm⟩
        rw [(parseOption_iff ..).mpr ⟨key, value, rfl, hunseen.1, hparse, rfl⟩]
        refine (ih _ _).mpr ⟨keys, hnodup.2, fun other hother hmem => ?_, hwords, hall.2, hresult⟩
        obtain hindex | hmem := List.mem_cons.mp hmem
        · exact hnodup.1 (OptionKey.index_inj hindex ▸ hother)
        · exact hunseen.2 other hother hmem

/-- An item and what it is without options differ by the options it has. -/
theorem eq_copyAll_iff {keys : List OptionKey} {start item : Item}
    (hstart : ∀ key, OptionKey.Absent start key) :
    item = OptionKey.copyAll keys item start ↔
      (item.file = start.file ∧ item.gap = start.gap ∧ item.route = start.route ∧
        item.line = start.line) ∧ ∀ key, key ∉ keys → key.Absent item := by
  constructor
  · intro h
    refine ⟨?_, fun key hkey => ?_⟩
    · have hfields := OptionKey.copyAll_fields keys item start
      rwa [← h] at hfields
    · have hsame := OptionKey.copyAll_of_not_mem hkey item start
      rw [← h] at hsame
      exact hsame.absent (hstart key)
  · rintro ⟨hfields, habsent⟩
    have hsame : ∀ key : OptionKey, key.Same item (OptionKey.copyAll keys item start) := by
      intro key
      by_cases hkey : key ∈ keys
      · exact (OptionKey.copyAll_of_mem hkey item start).symm
      · exact (OptionKey.same_of_absent (habsent key hkey) (hstart key)).trans
          (OptionKey.copyAll_of_not_mem hkey item start).symm
    obtain ⟨hfile, hgap, hroute, hline⟩ := OptionKey.copyAll_fields keys item start
    rw [← hfields.1] at hfile
    rw [← hfields.2.1] at hgap
    rw [← hfields.2.2.1] at hroute
    rw [← hfields.2.2.2] at hline
    generalize OptionKey.copyAll keys item start = copied at hsame hfile hgap hroute hline
    have hlabel := hsame .label
    have hscenario := hsame .scn
    have hseed := hsame .seed
    have hcuts := hsame .cut
    have hattenuation := hsame .att
    have hduration := hsame .dur
    cases item
    cases copied
    unfold OptionKey.Same at *
    simp_all

end WaveformGenerator.PlaylistFile
