import WaveformGenerator.SignalLab.Json

/-!
# The grammar of the JSON reader

What a document may look like, and the value it spells. The grammar is JSON's, wider in three
places: the digits of a number may start with zeros, a string may hold any byte, and a backslash in
it any byte behind it. Escapes are part of the characters. A number is a value only when its
conversion to a double is finite.
-/

namespace WaveformGenerator.SignalLab.Json

/-! ## Values -/

inductive Scalar (R : Type)
  | null
  | boolean (value : Bool)
  | number (value : R)
  | string (characters : Text)

mutual

/-- A value as a document spells it. -/
inductive Tree (R : Type)
  | scalar (value : Scalar R)
  | container (object : Bool) (members : Members R)

/-- The members of an object with their keys, or of an array with no keys. -/
inductive Members (R : Type)
  | nil
  | cons (key : Text) (value : Tree R) (rest : Members R)

end

variable {R : Type}

mutual

/-- How many values there are, containers included. -/
def Tree.size : Tree R → Nat
  | .scalar _ => 1
  | .container _ members => members.size + 1

def Members.size : Members R → Nat
  | .nil => 0
  | .cons _ value rest => value.size + rest.size

end

mutual

def Tree.depth : Tree R → Nat
  | .scalar _ => 0
  | .container _ members => members.depth + 1

def Members.depth : Members R → Nat
  | .nil => 0
  | .cons _ value rest => max value.depth rest.depth

end

/-- What a scalar leaves in its node. -/
def Scalar.put (node : Value R) : Scalar R → Value R
  | .null => { node with type := .null }
  | .boolean value => { node with type := .boolean, boolean := value }
  | .number value => { node with type := .number, number := value }
  | .string characters =>
    { node with type := .string, text := characters, textLength := .ofNat characters.length }

theorem Tree.size_pos : ∀ value : Tree R, 0 < value.size
  | .scalar _ => Nat.one_pos
  | .container _ _ => Nat.succ_pos _

/-! ## What spells them -/

def Blanks (gap : Text) : Prop := ∀ c ∈ gap, isBlank c = true

/-- The characters of a string, up to its closing quote. -/
inductive Characters : Text → Prop
  | nil : Characters []
  | plain {c : UInt8} {rest : Text} : c ≠ quote → c ≠ backslash → Characters rest →
      Characters (c :: rest)
  | escape (c : UInt8) {rest : Text} : Characters rest → Characters (backslash :: c :: rest)

structure Digits (text : Text) : Prop where
  all : ∀ c ∈ text, isDigit c = true
  ne_nil : text ≠ []

/-- A sign, or none, and whether it is a minus. -/
inductive SignText : Text → Bool → Prop
  | none : SignText [] false
  | plus : SignText [plus] false
  | minus : SignText [minus] true

/-- A fraction, or none, and its digits. -/
inductive FractionText : Text → Text → Prop
  | absent : FractionText [] []
  | present {digits : Text} : Digits digits → FractionText (point :: digits) digits

/-- The exponent that digits spell. -/
def exponentOf (negative : Bool) (digits : Text) : Int :=
  if negative then -digits.foldl takeExponentDigit 0 else digits.foldl takeExponentDigit 0

/-- An exponent with its letter, or none, and its value. -/
inductive PowerText : Text → Int → Prop
  | absent : PowerText [] 0
  | present {letter : UInt8} {sign digits : Text} {negative : Bool} :
      isExponentLetter letter = true → SignText sign negative → Digits digits →
      PowerText (letter :: (sign ++ digits)) (exponentOf negative digits)

/-- A number's digits and exponent, with no more digits than the mantissa keeps. -/
def decimalOf (whole fraction : Text) (exponent : Int) : Decimal :=
  let decimal := fraction.foldl (Decimal.takeDigit true) (whole.foldl (Decimal.takeDigit false) {})
  { decimal with exponent10 := decimal.exponent10 + exponent }

section
variable [Det R]

def signed (negative : Bool) (number : R) : R := if negative then -number else number

inductive NumberText : Text → R → Prop
  | mk (negative : Bool) {whole fraction digits power : Text} {exponent : Int} :
      Digits whole → FractionText fraction digits → PowerText power exponent →
      Det.isFinite (scaled (decimalOf whole digits exponent) : R) = true →
      NumberText ((if negative then [minus] else []) ++ (whole ++ (fraction ++ power)))
        (signed negative (scaled (decimalOf whole digits exponent)))

inductive ScalarText : Text → Scalar R → Prop
  | null : ScalarText nullLiteral .null
  | boolean (value : Bool) : ScalarText (if value then trueLiteral else falseLiteral) (.boolean value)
  | number {text : Text} {value : R} : NumberText text value → ScalarText text (.number value)
  | string {characters : Text} : Characters characters →
      ScalarText (quote :: (characters ++ [quote])) (.string characters)

/-- What stands before a member's value: in an object its key and a colon, in an array nothing. -/
inductive KeyText : Bool → Text → Text → Prop
  | array : KeyText false [] []
  | object {before key behind : Text} : Blanks before → Characters key → Blanks behind →
      KeyText true (before ++ (quote :: (key ++ (quote :: (behind ++ [colon]))))) key

mutual

inductive Spells : Text → Tree R → Prop
  | scalar {text : Text} {value : Scalar R} : ScalarText text value → Spells text (.scalar value)
  | empty (object : Bool) {gap : Text} : Blanks gap →
      Spells (opener object :: (gap ++ [closer object])) (.container object .nil)
  | container {object : Bool} {keyText key gap body tail : Text} {value : Tree R}
      {rest : Members R} : KeyText object keyText key → Blanks gap → Spells body value →
      SpellsTail object tail rest →
      Spells (opener object :: (keyText ++ (gap ++ (body ++ tail))))
        (.container object (.cons key value rest))

/-- What stands behind a member: the members after it and the closer. -/
inductive SpellsTail : Bool → Text → Members R → Prop
  | close (object : Bool) {gap : Text} : Blanks gap → SpellsTail object (gap ++ [closer object]) .nil
  | member {object : Bool} {before keyText key gap body tail : Text} {value : Tree R}
      {rest : Members R} : Blanks before → KeyText object keyText key → Blanks gap →
      Spells body value → SpellsTail object tail rest →
      SpellsTail object (before ++ (comma :: (keyText ++ (gap ++ (body ++ tail)))))
        (.cons key value rest)

end

/-- A whole document: one value between blanks. -/
inductive DocumentText : Text → Tree R → Prop
  | mk {before body behind : Text} {value : Tree R} : Blanks before → Spells body value →
      Blanks behind → DocumentText (before ++ (body ++ behind)) value

end

end WaveformGenerator.SignalLab.Json
