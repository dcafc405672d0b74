import WaveformGenerator.Common.Status
import WaveformGenerator.SignalLab.Det

/-!
# The bounded JSON reader (`signal_lab/json.hpp`, `json.cpp`)

Text is a list of bytes, and a view into it what is left of the list. A pointer into the node table
is the index of its node, and `none` stands for 0xFFFFFFFF, the link to no node. The table of a
document is the nodes it has allocated. The arrays and objects being read are a list with the
innermost first, so its length is the depth.

The power of ten of a number is an `int` in the source and an integer here: one step of a digit
moves it by one and an exponent by less than 10^5, so the two agree on texts of fewer than
2^31 - 10^5 bytes.
-/

namespace WaveformGenerator.SignalLab.Json

abbrev Text := List UInt8

inductive ValueType
  | null | boolean | number | string | array | object
  deriving DecidableEq, Repr

structure Value (R : Type) where
  type : ValueType
  boolean : Bool
  number : R
  text : Text
  textLength : UInt32
  key : Text
  keyLength : UInt32
  firstChild : Option Nat
  nextSibling : Option Nat
  childCount : Nat
  deriving DecidableEq

def documentCapacity : Nat := 256
def documentMaxDepth : Nat := 32

variable {R : Type} [Det R]

/-- `Value{}`. -/
instance : Inhabited (Value R) where
  default := ⟨.null, false, 0.0, [], 0, [], 0, none, none, 0⟩

/-- Whether the C string `literal` is the `length` bytes of `view`. -/
def sameBytes (literal view : Text) (length : UInt32) : Bool :=
  (List.range length.toNat).all (fun index =>
    literal.getD index 0 != 0 && literal.getD index 0 == view.getD index 0) &&
    literal.getD length.toNat 0 == 0

/-! ## Characters -/

def quote : UInt8 := 0x22
def backslash : UInt8 := 0x5C
def comma : UInt8 := 0x2C
def colon : UInt8 := 0x3A
def plus : UInt8 := 0x2B
def minus : UInt8 := 0x2D
def point : UInt8 := 0x2E

def isDigit (c : UInt8) : Bool := 0x30 ≤ c && c ≤ 0x39

def blanks : Text := [0x20, 0x09, 0x0A, 0x0D]

def isBlank (c : UInt8) : Bool := blanks.contains c

def trueLiteral : Text := [0x74, 0x72, 0x75, 0x65]
def falseLiteral : Text := [0x66, 0x61, 0x6C, 0x73, 0x65]
def nullLiteral : Text := [0x6E, 0x75, 0x6C, 0x6C]

/-- The character that opens an object, or an array. -/
def opener (object : Bool) : UInt8 := if object then 0x7B else 0x5B

/-- The character that closes an object, or an array. -/
def closer (object : Bool) : UInt8 := if object then 0x7D else 0x5D

def refused (message : String) : Status := { code := .invalidArgument, message }

def skipWhitespace (rest : Text) : Text := rest.dropWhile isBlank

def digitFirst (rest : Text) : Bool := rest.head?.any isDigit

/-! ## Numbers -/

def mantissaDigitsMax : Nat := 19
def exponentLimit : Int := 10000

/-- A number as its decimal digits and a power of ten. -/
structure Decimal where
  mantissa : UInt64 := 0
  digits : Nat := 0
  exponent10 : Int := 0
  deriving DecidableEq, Repr

def digitValue (digit : UInt8) : UInt8 := digit - 0x30

/-- One pass of the loop of `read_digits`: past the digits that the mantissa keeps, an integer digit
raises the exponent and a fraction digit is dropped. -/
def Decimal.takeDigit (fraction : Bool) (decimal : Decimal) (digit : UInt8) : Decimal :=
  if decimal.digits < mantissaDigitsMax then
    let mantissa := decimal.mantissa * 10 + (digitValue digit).toUInt64
    { mantissa
      digits := if mantissa != 0 then decimal.digits + 1 else decimal.digits
      exponent10 := if fraction then decimal.exponent10 - 1 else decimal.exponent10 }
  else if !fraction then { decimal with exponent10 := decimal.exponent10 + 1 }
  else decimal

def readDigits (fraction : Bool) (decimal : Decimal) : Text → Decimal × Text
  | [] => (decimal, [])
  | digit :: rest =>
    if isDigit digit then readDigits fraction (decimal.takeDigit fraction digit) rest
    else (decimal, digit :: rest)

def takeExponentDigit (exponent : Int) (digit : UInt8) : Int :=
  if exponent < exponentLimit then exponent * 10 + (digitValue digit).toNat else exponent

def readExponentDigits (exponent : Int) : Text → Int × Text
  | [] => (exponent, [])
  | digit :: rest =>
    if isDigit digit then readExponentDigits (takeExponentDigit exponent digit) rest
    else (exponent, digit :: rest)

/-- The exponent at the front of `rest`: the letter, a sign, digits. -/
def readExponent (rest : Text) : Result (Int × Text) :=
  let rest := rest.drop 1
  let negative := rest.head? == some minus
  let rest := if rest.head? == some plus || rest.head? == some minus then rest.drop 1 else rest
  if !digitFirst rest then .error (refused "expected an exponent digit")
  else
    let (exponent, rest) := readExponentDigits 0 rest
    .ok (if negative then -exponent else exponent, rest)

/-- The powers of ten a double holds exactly. -/
def exactPowersOfTen : List R :=
  [1e0, 1e1, 1e2, 1e3, 1e4, 1e5, 1e6, 1e7, 1e8, 1e9, 1e10, 1e11, 1e12, 1e13, 1e14, 1e15, 1e16,
    1e17, 1e18, 1e19, 1e20, 1e21, 1e22]

def exactPowerMax : Nat := 22

def scaleUp (result : R) (remaining : Nat) : R :=
  if exactPowerMax < remaining then
    scaleUp (result * exactPowersOfTen.getD exactPowerMax 0.0) (remaining - exactPowerMax)
  else result * exactPowersOfTen.getD remaining 0.0
termination_by remaining
decreasing_by
  rw [exactPowerMax] at *
  omega

def scaleDown (result : R) (remaining : Nat) : R :=
  if exactPowerMax < remaining then
    scaleDown (result / exactPowersOfTen.getD exactPowerMax 0.0) (remaining - exactPowerMax)
  else result / exactPowersOfTen.getD remaining 0.0
termination_by remaining
decreasing_by
  rw [exactPowerMax] at *
  omega

def scaled (decimal : Decimal) : R :=
  let result := Det.ofInt decimal.mantissa.toNat
  if 0 < decimal.exponent10 then scaleUp result decimal.exponent10.toNat
  else if decimal.exponent10 < 0 then scaleDown result (-decimal.exponent10).toNat
  else result

/-- The fraction at the front of `rest`, when a point stands there. -/
def readFraction (decimal : Decimal) (rest : Text) : Result (Decimal × Text) :=
  if rest.head? == some point then
    let rest := rest.drop 1
    if !digitFirst rest then .error (refused "expected a fraction digit")
    else .ok (readDigits true decimal rest)
  else .ok (decimal, rest)

def isExponentLetter (c : UInt8) : Bool := c == 0x65 || c == 0x45

/-- The exponent at the front of `rest`, when its letter stands there. -/
def readPower (decimal : Decimal) (rest : Text) : Result (Decimal × Text) :=
  if rest.head?.any isExponentLetter then do
    let (exponent, rest) ← readExponent rest
    .ok ({ decimal with exponent10 := decimal.exponent10 + exponent }, rest)
  else .ok (decimal, rest)

def parseNumber (rest : Text) : Result (R × Text) := do
  let negative := rest.head? == some minus
  let rest := if negative then rest.drop 1 else rest
  if !digitFirst rest then .error (refused "expected a digit")
  else
    let (decimal, rest) := readDigits false {} rest
    let (decimal, rest) ← readFraction decimal rest
    let (decimal, rest) ← readPower decimal rest
    let result : R := scaled decimal
    if !Det.isFinite result then .error (refused "JSON number is outside the finite range")
    else .ok (if negative then -result else result, rest)

/-! ## Strings -/

/-- How many characters stand before the closing quote, if the text has one. A backslash escapes
the character after it, a quote too. -/
def closingQuote : Text → Option Nat
  | [] => none
  | c :: rest =>
    if c = quote then some 0
    else if c = backslash then
      match rest with
      | [] => none
      | _ :: rest => (closingQuote rest).map (· + 2)
    else (closingQuote rest).map (· + 1)

def parseString (rest : Text) : Result (Text × Text) :=
  if rest.head? != some quote then .error (refused "expected a string")
  else
    let rest := rest.drop 1
    match closingQuote rest with
    | none => .error (refused "unterminated string")
    | some length => .ok (rest.take length, rest.drop (length + 1))

/-- An object member's key, with the colon behind it read as well. -/
def readKeyText (rest : Text) : Result (Text × Text) := do
  let (key, rest) ← parseString (skipWhitespace rest)
  let rest := skipWhitespace rest
  if rest.head? != some colon then .error (refused "expected ':' after an object key")
  else .ok (key, rest.drop 1)

/-! ## Scalars -/

def readLiteral (node : Value R) (rest : Text) : Value R × Result Text :=
  if trueLiteral.isPrefixOf rest || falseLiteral.isPrefixOf rest then
    let boolean := trueLiteral.isPrefixOf rest
    ({ node with type := .boolean, boolean },
      .ok (rest.drop (if boolean then trueLiteral.length else falseLiteral.length)))
  else if nullLiteral.isPrefixOf rest then
    ({ node with type := .null }, .ok (rest.drop nullLiteral.length))
  else (node, .error (refused "unexpected character"))

/-- The scalar at the front of `rest`, into `node`. -/
def readScalar (node : Value R) (rest : Text) : Value R × Result Text :=
  if rest.head? == some quote then
    let node := { node with type := .string }
    match parseString rest with
    | .error status => (node, .error status)
    | .ok (characters, rest) =>
      ({ node with text := characters, textLength := .ofNat characters.length }, .ok rest)
  else if rest.head? == some minus || digitFirst rest then
    let node := { node with type := .number }
    match parseNumber rest with
    | .error status => (node, .error status)
    | .ok (number, rest) => ({ node with number }, .ok rest)
  else readLiteral node rest

/-! ## The reader -/

/-- An array or object being read: its node, and its last member so far. -/
structure Open where
  node : Nat
  lastChild : Option Nat
  deriving DecidableEq, Repr

/-- The document's table and unread text, with the source's `Nesting`. -/
structure Reader (R : Type) where
  nodes : List (Value R) := []
  rest : Text
  opens : List Open := []
  key : Text := []

/-- What the first refusal leaves: its status, and the table as far as it was filled. -/
structure Refusal (R : Type) where
  status : Status
  nodes : List (Value R)

inductive Begun
  | whole | opened
  deriving DecidableEq, Repr

inductive Next
  | member | done
  deriving DecidableEq, Repr

namespace Reader

def refuse {α : Type} (reader : Reader R) (status : Status) : Except (Refusal R) α :=
  .error { status, nodes := reader.nodes }

def allocate (reader : Reader R) : Except (Refusal R) (Nat × Reader R) :=
  if documentCapacity ≤ reader.nodes.length then
    reader.refuse (refused "document has too many values")
  else .ok (reader.nodes.length, { reader with nodes := reader.nodes ++ [default] })

/-- Links `child` after `lastChild` under `parent`. -/
def appendChild (nodes : List (Value R)) (parent : Nat) (lastChild : Option Nat) (child : Nat) :
    List (Value R) :=
  let nodes := match lastChild with
    | none => nodes.modify parent fun node => { node with firstChild := some child }
    | some last => nodes.modify last fun node => { node with nextSibling := some child }
  nodes.modify parent fun node => { node with childCount := node.childCount + 1 }

def isObject (nodes : List (Value R)) (container : Open) : Bool :=
  (nodes.getD container.node default).type == .object

/-- Links `child` into the innermost open container; the root has none. -/
def addMember (reader : Reader R) (child : Nat) : Reader R :=
  match reader.opens with
  | [] => reader
  | innermost :: outer =>
    let nodes :=
      if isObject reader.nodes innermost then
        reader.nodes.modify child fun member =>
          { member with key := reader.key, keyLength := .ofNat reader.key.length }
      else reader.nodes
    { reader with
      nodes := appendChild nodes innermost.node innermost.lastChild child
      opens := { innermost with lastChild := some child } :: outer }

def readKey (reader : Reader R) : Except (Refusal R) (Reader R) :=
  match readKeyText reader.rest with
  | .error status => reader.refuse status
  | .ok (key, rest) => .ok { reader with key, rest }

/-- The key that stands before a member of an object; an array's members have none. -/
def readMemberKey (reader : Reader R) (object : Bool) : Except (Refusal R) (Reader R) :=
  if object then reader.readKey else .ok reader

def openContainer (reader : Reader R) (index : Nat) : Except (Refusal R) (Begun × Reader R) :=
  if reader.opens.length = documentMaxDepth then
    reader.refuse (refused "document nests too deeply")
  else
    let object := reader.rest.head? == some (opener true)
    let nodes := reader.nodes.modify index fun node =>
      { node with type := if object then .object else .array }
    let rest := skipWhitespace (reader.rest.drop 1)
    if rest.head? == some (closer object) then
      .ok (.whole, { reader with nodes, rest := rest.drop 1 })
    else
      let opens := { node := index, lastChild := none } :: reader.opens
      do
        let reader ← readMemberKey { reader with nodes, rest, opens } object
        .ok (.opened, reader)

/-- The value at the front: allocated, linked under the innermost open container, then read whole or
opened. -/
def beginValue (reader : Reader R) : Except (Refusal R) (Begun × Reader R) := do
  let reader := { reader with rest := skipWhitespace reader.rest }
  if reader.rest.isEmpty then reader.refuse (refused "unexpected end of document")
  else
    let (index, reader) ← reader.allocate
    let reader := reader.addMember index
    if reader.rest.head? == some (opener true) || reader.rest.head? == some (opener false) then
      reader.openContainer index
    else
      let (node, read) := readScalar (reader.nodes.getD index default) reader.rest
      let reader := { reader with nodes := reader.nodes.set index node }
      match read with
      | .error status => reader.refuse status
      | .ok rest => .ok (.whole, { reader with rest })

/-- The loop of `end_value` over the containers that are open. -/
def endWithin (reader : Reader R) : List Open → Text → Except (Refusal R) (Next × Reader R)
  | [], rest => .ok (.done, { reader with rest, opens := [] })
  | innermost :: outer, rest =>
    let object := isObject reader.nodes innermost
    let rest := skipWhitespace rest
    if rest.isEmpty then
      reader.refuse (refused (if object then "unterminated object" else "unterminated array"))
    else if rest.head? == some comma then
      do
        let reader ← readMemberKey { reader with rest := rest.drop 1, opens := innermost :: outer }
          object
        .ok (.member, reader)
    else if rest.head? != some (closer object) then
      reader.refuse (refused (if object then "expected ',' or '\x7d' in an object"
        else "expected ',' or ']' in an array"))
    else endWithin reader outer (rest.drop 1)

/-- The closes after a whole value, then its comma and in an object the next key, or the end of the
root. -/
def endValue (reader : Reader R) : Except (Refusal R) (Next × Reader R) :=
  endWithin reader reader.opens reader.rest

/-- The loop of `parse_document`, given as many passes as `passes`; each begins one value. -/
def parseWithin : Nat → Reader R → Option (Except (Refusal R) (Reader R))
  | 0, _ => none
  | passes + 1, reader =>
    match reader.beginValue with
    | .error refusal => some (.error refusal)
    | .ok (.opened, reader) => parseWithin passes reader
    | .ok (.whole, reader) =>
      match reader.endValue with
      | .error refusal => some (.error refusal)
      | .ok (.member, reader) => parseWithin passes reader
      | .ok (.done, reader) => some (.ok reader)

end Reader

/-! ## The document -/

structure Document (R : Type) where
  nodes : List (Value R) := []
  error : Option String := some "not parsed"

/-- Every pass allocates a node, so one pass more than there are nodes is never used up. -/
def parseDocument (text : Text) : Option (Status × List (Value R)) :=
  (Reader.parseWithin (documentCapacity + 1) { rest := text }).map fun
    | .error refusal => (refusal.status, refusal.nodes)
    | .ok reader =>
      (if (skipWhitespace reader.rest).isEmpty then .success
        else refused "trailing characters after the document", reader.nodes)

/-- `none` is a null pointer, and a result of `none` that the passes ran out. -/
def parse (text : Option Text) : Option (Status × Document R) :=
  match text with
  | none => some (refused "null text", { nodes := [], error := some "null text" })
  | some text =>
    (parseDocument text).map fun (status, nodes) =>
      (status, { nodes, error := if status.isOk then none else some status.message })

namespace Document

def nodeCount (document : Document R) : Nat := document.nodes.length

def root (document : Document R) : Option Nat :=
  if document.nodes.length = 0 || document.error.isSome then none else some 0

def child (document : Document R) (index : Nat) : Option Nat :=
  if index < document.nodes.length then some index else none

/-- What a pointer into the table points to. -/
def node (document : Document R) (index : Nat) : Value R := document.nodes.getD index default

/-- The loop of `find` from `index` on, following at most as many links as `links`. -/
def findFrom (document : Document R) (key : Text) : Nat → Option Nat → Option (Option Nat)
  | _, none => some none
  | 0, some _ => none
  | links + 1, some index =>
    if sameBytes key (document.node index).key (document.node index).keyLength then
      some (some index)
    else findFrom document key links (document.node index).nextSibling

def find (document : Document R) (object : Value R) (key : Option Text) : Option (Option Nat) :=
  match key with
  | none => some none
  | some key =>
    if object.type != .object then some none
    else document.findFrom key documentCapacity object.firstChild

/-- The loop of `at` from `index` on, `wanted` members before the one it looks for. -/
def atFrom (document : Document R) : Nat → Nat → Option Nat → Option (Option Nat)
  | _, _, none => some none
  | 0, _, some _ => none
  | links + 1, wanted, some index =>
    if wanted = 0 then some (some index)
    else atFrom document links (wanted - 1) (document.node index).nextSibling

/-- `at`: the element of an array by its index. -/
def atIndex (document : Document R) (array : Value R) (wanted : Nat) : Option (Option Nat) :=
  if array.type != .array then some none
  else document.atFrom documentCapacity wanted array.firstChild

end Document

end WaveformGenerator.SignalLab.Json
