import WaveformGenerator.Host.CutGrammar
import WaveformGenerator.Host.PlaylistAgreement
import WaveformGenerator.PlaylistFile.Parser

/-!
# What a playlist line may say

The grammar of a line apart from its reader: words with separators between them and a comment behind
them, the spellings of an item's fields, and the items that have one.
-/

namespace WaveformGenerator.PlaylistFile

open Playlist (Route)
open Host (SpellsSeconds SpellsTenths printEntries)

/-! ## Words on a line -/

/-- The words `words` on a line, with any separators around them and any comment behind. -/
inductive Spaced : List (List Char) → List Char → Prop
  | blank {gap : List Char} (hgap : ∀ c ∈ gap, isSeparator c = true) : Spaced [] gap
  | comment {gap comment : List Char} (hgap : ∀ c ∈ gap, isSeparator c = true)
    (hcomment : ∀ c ∈ comment, isLineChar c = true) : Spaced [] (gap ++ '#' :: comment)
  | word {gap word behind : List Char} {words : List (List Char)}
    (hgap : ∀ c ∈ gap, isSeparator c = true)
    (hbehind : ∀ c, behind.head? = some c → isSeparator c = true) (hwords : Spaced words behind) :
    Spaced (word :: words) (gap ++ (word ++ behind))

/-- Printable text that a line has whole. -/
structure Word (word : List Char) : Prop where
  ne_nil : word ≠ []
  plain : ∀ c ∈ word, isSeparator c = false
  head : word.head? ≠ some '#'
  printable : ∀ c ∈ word, isLineChar c = true

/-! ## Spellings -/

/-- An upper-case 8.3 name. -/
def ShortName (text extension : List Char) : Prop :=
  ∃ stem, text = stem ++ '.' :: extension ∧ stem ≠ [] ∧ stem.length ≤ nameStemMaxChars ∧
    ∀ c ∈ stem, isNameChar c = true

/-- A text of so many whole digits that says what is `frames` long. -/
def SpellsFrames (digits : Nat) (text : List Char) (frames : UInt32) : Prop :=
  ∃ milliseconds, SpellsSeconds digits text milliseconds ∧ frames.toNat = milliseconds * 48

/-- Whole milliseconds from `least` to `most`, in frames. -/
def FramesBetween (least most : Nat) (frames : UInt32) : Prop :=
  ∃ milliseconds, least ≤ milliseconds ∧ milliseconds ≤ most ∧ frames.toNat = milliseconds * 48

def routeName : Route → List Char
  | .codec => "CODEC".toList
  | .usb => "USB".toList

/-- The options, in the order of `option_rules`. -/
inductive OptionKey
  | label
  | scn
  | seed
  | cut
  | att
  | dur
  deriving DecidableEq

namespace OptionKey

def text : OptionKey → List Char
  | label => "label=".toList
  | scn => "scn=".toList
  | seed => "seed=".toList
  | cut => "cut=".toList
  | att => "att=".toList
  | dur => "dur=".toList

/-- `value` spells what the item has for the option. -/
def Spells (item : Item) (value : List Char) : OptionKey → Prop
  | label => value ≠ [] ∧ value = item.label.chars
  | scn => value ≠ [] ∧ value = item.scenario.chars
  | seed => ∃ seed, item.seed = some seed ∧ value = Nat.toDigits 10 seed.toNat
  | cut => item.cuts.entries ≠ [] ∧
      value = printEntries (item.cuts.entries.map Host.CutEntry.ofBoard)
  | att => ∃ negative, SpellsTenths negative value item.attenuation.value.toNat ∧
      (item.attenuation.value ≠ 0 → negative = true)
  | dur => ∃ frames, item.duration = some frames ∧ SpellsFrames durationMaxWholeDigits value frames

/-- The item has what it has without the option. -/
def Absent (item : Item) : OptionKey → Prop
  | label => item.label.chars = []
  | scn => item.scenario.chars = []
  | seed => item.seed = none
  | cut => item.cuts.entries = []
  | att => item.attenuation.value = 0
  | dur => item.duration = none

def InRange (item : Item) : OptionKey → Prop
  | label => ∀ c ∈ item.label.chars, isLabelChar c = true
  | scn => item.scenario.chars = [] ∨ ShortName item.scenario.chars "SCN".toList
  | seed => item.seed = none ∨ item.scenario.chars ≠ []
  | cut => True
  | att => True
  | dur => ∀ frames, item.duration = some frames → FramesBetween 1000 86400000 frames

end OptionKey

/-- An item that a playlist may ask for where `offered` are the routes. -/
structure InRange (offered : OfferedRoutes) (item : Item) : Prop where
  file : ShortName item.file.chars "WAV".toList
  gap : FramesBetween 0 3600000 item.gap
  route : item.route = .usb → offered.usb = true
  options : ∀ key : OptionKey, key.InRange item

/-- An option of an item, as a word. -/
def WritesOption (item : Item) (key : OptionKey) (word : List Char) : Prop :=
  ∃ value, word = key.text ++ value ∧ key.Spells item value

/-- Options of an item, each as a word: every one the item has, and none twice. -/
structure WritesOptions (item : Item) (words : List (List Char)) (keys : List OptionKey) :
    Prop where
  nodup : keys.Nodup
  words : List.Forall₂ (WritesOption item) keys words
  absent : ∀ key, key ∉ keys → key.Absent item

/-- A line that writes an item: its file, gap and route, and its options in some order. -/
def Writes (line : List Char) (item : Item) : Prop :=
  ∃ gap words keys, Spaced (item.file.chars :: gap :: routeName item.route :: words) line ∧
    SpellsFrames gapMaxWholeDigits gap item.gap ∧ WritesOptions item words keys

end WaveformGenerator.PlaylistFile
