import Scenarist.Text.Blank
import Scenarist.Text.Digit
import Scenarist.Yaml.Node
import Scenarist.Yaml.Value

set_option autoImplicit false

/-! # Reading YAML values

The value that a text writes. Merged entries take their places in front of a mapping's own (`flatten?`),
scalars are read after their kinds, and the keys of a mapping must not be collections. There is no bound on
how deep collections may be nested.

Main definition: `Value.ofText`. -/

namespace Scenarist

/-- Why a scalar has no value although the text around it is well formed. -/
inductive ScalarFault where
  /-- An escape names a code point beyond the last one. -/
  | codePoint (code : Nat)
  /-- It is none of the kind that it is said to be. -/
  | badScalar (message : Text)
  /-- It is none of the words for its kind. -/
  | unknownWord (word : Text)
  /-- It is said to be a number and has no characters. -/
  | noNumber
  /-- It is said to be a time and does not look like one. -/
  | noTime
  deriving DecidableEq, Repr

namespace ScalarFault

def shown (text : Text) : Text :=
  let mark := if '\'' ∈ text ∧ '"' ∉ text then '"' else '\''
  let letter := fun c : Char =>
    if c = mark || c = '\\' then ['\\', c]
    else if c = '\n' then "\\n".toList
    else if c = '\r' then "\\r".toList
    else if c = '\t' then "\\t".toList
    else [c]
  mark :: text.flatMap letter ++ [mark]

/-- The word for the kind of a fault: codes that fit a machine word are values out of range. -/
def kind : ScalarFault → Text
  | codePoint code => if code < 0x80000000 then "ValueError".toList else "OverflowError".toList
  | badScalar _ => "ValueError".toList
  | unknownWord _ => "KeyError".toList
  | noNumber => "IndexError".toList
  | noTime => "AttributeError".toList

/-- What a fault says. What is said of codes beyond a machine word is not kept apart. -/
def message : ScalarFault → Text
  | codePoint _ => "chr() arg not in range(0x110000)".toList
  | badScalar message => message
  | unknownWord word => shown word
  | noNumber => "string index out of range".toList
  | noTime => "'NoneType' object has no attribute 'groupdict'".toList

end ScalarFault

namespace Yaml

/-- Why a text writes no value. -/
inductive ReadError where
  /-- It is not well formed, or a tag does not fit what it stands in front of. -/
  | malformed
  /-- A scalar has no value. -/
  | scalar (fault : ScalarFault)
  deriving DecidableEq, Repr

/-- A fault among the tokens. -/
def ReadError.ofFault : Quoted.Fault → ReadError
  | .malformed => .malformed
  | .codePoint code => .scalar (.codePoint code)

/-! ## Merged entries -/

namespace Node

def entries? : Node → Option (List (Node × Node))
  | .map _ entries => some entries
  | _ => none

/-- The entries that are merged for the value of a merging key: those of a mapping, or of several, the
last one first. -/
def mergedEntries? : Node → Option (List (Node × Node))
  | .map _ entries => some entries
  | .list _ items => (items.reverse.mapM entries?).map List.flatten
  | .scalar _ _ => none

def isMerge : Node → Bool
  | .scalar .merge _ => true
  | _ => false

mutual

def flatten? : Node → Option Node
  | .scalar kind value => some (.scalar kind value)
  | .list kind items => (flattenAll? items).map (.list kind)
  | .map kind entries => (flattenEntries? entries).map fun (merged, own) => .map kind (merged ++ own)

def flattenAll? : List Node → Option (List Node)
  | [] => some []
  | node :: nodes => do
    let node ← flatten? node
    let nodes ← flattenAll? nodes
    return node :: nodes

/-- The merged entries of a mapping and its own, with merged entries in them written out. -/
def flattenEntries? : List (Node × Node) → Option (List (Node × Node) × List (Node × Node))
  | [] => some ([], [])
  | (key, value) :: entries => do
    let key ← flatten? key
    let value ← flatten? value
    let (merged, own) ← flattenEntries? entries
    if key.isMerge then return ((← value.mergedEntries?) ++ merged, own)
    else return (merged, (key, value) :: own)

end

end Node

/-! ## Scalars -/

namespace Scalar

/-- The sign of a number, and what follows it. -/
def signed (text : Text) : Bool × Text :=
  match text with
  | '-' :: rest => (true, rest)
  | '+' :: rest => (false, rest)
  | text => (false, text)

/-- The value of a digit: hexadecimal, or a decimal digit of any script. -/
def digit? (c : Char) : Option Nat := (hexValue? c).or (Text.digitValue? c)

/-- The number that digits write to a base; none if there are no digits, or others. -/
def nat? (base : Nat) (text : Text) : Option Nat :=
  if text.isEmpty then none
  else text.foldlM (fun n c => ((digit? c).filter (· < base)).map (base * n + ·)) 0

/-- The letters that may announce a base behind a zero. -/
def baseMarks : List (Nat × Char) := [(2, 'b'), (8, 'o'), (16, 'x')]

/-- The most digits of a number to base ten. -/
def digitLimit : Nat := 4300

/-- The number that digits write to a base, with blanks around them and a sign in front. -/
def whole (base : Nat) (text : Text) : Except ScalarFault Int :=
  let (negative, digits) := signed (Text.strip text)
  let digits := match digits with
    | '0' :: mark :: rest => if (base, mark.toLower) ∈ baseMarks then rest else digits
    | _ => digits
  match nat? base digits with
  | none => .error (.badScalar ("invalid literal for int() with base ".toList ++ Text.ofNat base ++
      ": ".toList ++ ScalarFault.shown text))
  | some size =>
    if base = 10 && digitLimit < digits.length then
      .error (.badScalar ("Exceeds the limit (".toList ++ Text.ofNat digitLimit ++
        " digits) for integer string conversion: value has ".toList ++ Text.ofNat digits.length ++
        " digits; use sys.set_int_max_str_digits() to increase the limit".toList))
    else .ok (if negative then -(size : Int) else size)

def sexagesimal {α : Type} (place : Text → Except ScalarFault α) (text : Text) :
    Except ScalarFault (List α) := (Text.splitOn ':' text).mapM place

/-- A whole number: to base two, sixteen, eight, or ten, or in places to base sixty. -/
def int (text : Text) : Except ScalarFault Int := do
  let text := text.filter (· ≠ '_')
  let (negative, digits) := signed text
  let size ← match digits with
    | [] => throw .noNumber
    | ['0'] => .ok 0
    | '0' :: 'b' :: rest => whole 2 rest
    | '0' :: 'x' :: rest => whole 16 rest
    | '0' :: _ => whole 8 digits
    | _ =>
      if ':' ∈ digits then do
        let places ← sexagesimal (whole 10) digits
        .ok (places.foldl (fun n place => 60 * n + place) 0)
      else whole 10 digits
  return if negative then -size else size

/-- What is said of a text that writes no number. -/
def noFloat (text : Text) : ScalarFault :=
  .badScalar ("could not convert string to float: ".toList ++ ScalarFault.shown text)

def exponent? (text : Text) : Option Int :=
  let (negative, digits) := signed text
  (nat? 10 digits).map fun size => if negative then -(size : Int) else size

/-- The number that digits with at most one point and an exponent write. -/
def decimal? (text : Text) : Option Float := do
  let (mantissa, tail) := (Text.cutAt? ['e'] text).getD (text, ['0'])
  let exponent ← exponent? tail
  let (front, places) := (Text.cutAt? ['.'] mantissa).getD (mantissa, [])
  let digits ← nat? 10 (front ++ places)
  -- beyond these bounds the number is zero or infinite
  let bound : Int := mantissa.length + 400
  let shift := max (-bound) (min bound (exponent - places.length))
  return Float.ofScientific digits (shift < 0) shift.natAbs

/-- The number that a text writes, with blanks around it and a sign in front, or in words. -/
def real (text : Text) : Except ScalarFault Float :=
  let (negative, digits) := signed (Text.strip text)
  let size? :=
    if digits = "inf".toList || digits = "infinity".toList then some (1.0 / 0.0)
    else if digits = "nan".toList then some (0.0 / 0.0)
    else decimal? digits
  match size? with
  | none => .error (noFloat text)
  | some size => .ok (if negative then -size else size)

/-- A number with a point: decimal, in places to base sixty, infinite, or no number at all. -/
def float (text : Text) : Except ScalarFault Float := do
  let text := (text.filter (· ≠ '_')).map Char.toLower
  let (negative, digits) := signed text
  let size ←
    if text = [] then throw .noNumber
    else if digits = ".inf".toList then .ok (1.0 / 0.0)
    else if digits = ".nan".toList then .ok (0.0 / 0.0)
    else if ':' ∈ digits then do
      let places ← sexagesimal real digits
      let weighted := places.reverse.zipIdx.map fun (place, i) => place * Float.ofNat (Nat.pow 60 i)
      .ok (weighted.foldl (· + ·) 0.0)
    else real digits
  return if negative then -size else size

def bool (text : Text) : Except ScalarFault Bool :=
  match Look.bools.find? fun (word, _) => word.toList == text.map Char.toLower with
  | some (_, value) => .ok value
  | none => .error (.unknownWord (text.map Char.toLower))

def timestamp (text : Text) : Except ScalarFault Value :=
  match Timestamp.ofText? text with
  | none => .error .noTime
  | some stamp => match stamp.fault? with
    | some message => .error (.badScalar message)
    | none => .ok (if stamp.time.isSome then .dateTime else .date)

/-- Bytes, four characters for every three of them, filled up with equals signs. -/
def bytes (text : Text) : Except ReadError Value :=
  let isDigit := fun c : Char => c.isAlphanum || c = '+' || c = '/'
  let digits := (text.filter isDigit).length
  let filling := (text.filter (· = '=')).length
  if text.any (fun c => 0x80 ≤ c.toNat) || digits % 4 = 1 || (digits % 4 = 2 && filling < 2) ||
      (digits % 4 = 3 && filling < 1) then .error .malformed
  else .ok .bytes

def value (kind : Kind) (text : Text) : Except ReadError Value :=
  match kind with
  | .null => .ok .null
  | .bool => ((bool text).map .bool).mapError .scalar
  | .int => ((int text).map .int).mapError .scalar
  | .float => ((float text).map .float).mapError .scalar
  | .timestamp => (timestamp text).mapError .scalar
  | .text => .ok (.text text)
  | .bytes => bytes text
  | _ => .error .malformed

end Scalar

/-! ## Nodes -/

namespace Node

def isPair : Node → Bool
  | .map _ [_] => true
  | _ => false

/-- The value of a key, which is no collection. The key of a default value is a text as well. -/
def keyValue : Node → Except ReadError Value
  | .scalar .default text => .ok (.text text)
  | .scalar kind text => Scalar.value kind text
  | _ => .error .malformed

mutual

def value : Node → Except ReadError Value
  | .scalar kind text => Scalar.value kind text
  | .list kind items => do
    let values ← valuesOf items
    match kind with
    | .list => return .list values
    | .orderedMap | .pairs =>
      if items.all isPair then return .list (values.map fun _ => .pair) else .error .malformed
    | _ => .error .malformed
  | .map kind entries => do
    let table ← tableOf entries []
    match kind with
    | .map => return .map table
    | .set => return .set
    | _ => .error .malformed

def valuesOf : List Node → Except ReadError (List Value)
  | [] => .ok []
  | node :: nodes => do
    let value ← value node
    let values ← valuesOf nodes
    return value :: values

/-- The entries of a mapping whose keys are texts, put into a table. -/
def tableOf : List (Node × Node) → List (Text × Value) → Except ReadError (List (Text × Value))
  | [], table => .ok table
  | (key, value) :: entries, table => do
    let key ← key.keyValue
    let value ← Node.value value
    tableOf entries (match key with
      | .text key => Table.put key value table
      | _ => table)

end

end Node

/-- The value that a text writes; null if it writes none. -/
def Value.ofText (text : Text) : Except ReadError Value :=
  match Node.ofText? text with
  | .error fault => .error (.ofFault fault)
  | .ok none => .ok .null
  | .ok (some node) => match node.flatten? with
    | none => .error .malformed
    | some node => node.value

end Yaml

end Scenarist
