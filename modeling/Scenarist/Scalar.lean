import Scenarist.Text.Blank
import Scenarist.Text.Case
import Scenarist.Yaml.Read

set_option autoImplicit false

/-! # Scalars of a document

The values of a document stand in its lines as scalars: plain, or in quotes. `unquote` reads a scalar
of a declaration, `unquotePlainly` one of the extended metadata, which knows fewer escapes, and
`escape` is what a value goes through before it is written between double quotes.

Some scalars have no value at all: an escape may name no character, and what only begins and ends with
quotes is read as YAML and may hold a part that is not what it is said to be. `fault?` tells which ones
these are; everything that reads scalars can list those it reads, so that a reading either takes place
or is refused as a whole (`guardScalars`).

A scalar may also write half of a surrogate pair, which is no character and has no place in a text.
`namesHalf` tells which ones do; `unquote` gives them a value with U+FFFE in its place. -/

namespace Scenarist

/-! ## Identifiers -/

/-- Whether a character may stand in the name of a parameter. -/
def isNameLetter (c : Char) : Bool := Text.isKeyLetter c || c = '-'

/-- Whether a text is a parameter name: name letters only, at least one. -/
def isIdentifier (text : Text) : Bool := !text.isEmpty && text.all isNameLetter

/-- Whether a text is a reference to a parameter: a parameter name in brackets. -/
def isReference (text : Text) : Bool :=
  text.head? == some '[' && text.getLast? == some ']' && isIdentifier (text.drop 1).dropLast

namespace Scalar

/-! ## Quotes -/

/-- Whether a text stands between two of the same quotes. -/
def isQuoted (text : Text) : Bool :=
  2 ≤ text.length && (text.head? == some '"' || text.head? == some '\'') &&
    text.getLast? == text.head?

/-- A text without its first and last characters. -/
def inner (text : Text) : Text := (text.drop 1).dropLast

/-- The value of a scalar: what its quotes hold, or the text itself. Quotes around what is no scalar
are taken off and the rest is left as it is. -/
def unquote (raw : Text) : Text :=
  let text := Text.strip raw
  if isQuoted text then match Yaml.Quoted.readDocument text with
    | .ok (some value) => value
    | _ => inner text
  else text

/-- What one character of a value is written as between double quotes. -/
def escapeLetter (c : Char) : Text := if c = '\\' || c = '"' then ['\\', c] else [c]

def escape (value : Text) : Text := value.flatMap escapeLetter

theorem escape_nil : escape [] = [] := rfl

theorem escape_cons (c : Char) (value : Text) :
    escape (c :: value) = escapeLetter c ++ escape value := rfl

def quote (value : Text) : Text := '"' :: escape value ++ ['"']

/-- The value of a scalar of the extended metadata: between double quotes a backslash protects a quote
and a backslash, between single quotes a quote is written twice, and nothing else is special. -/
def unquotePlainly (raw : Text) : Text :=
  let text := Text.strip raw
  if isQuoted text then
    if text.head? = some '"' then
      Text.replacePair '\\' '\\' '\\' (Text.replacePair '\\' '"' '"' (inner text))
    else Text.replacePair '\'' '\'' '\'' (inner text)
  else text

/-! ## Names and values of parameters -/

/-- A text without a bracket at its start and one at its end, each if it is there, and without the
blanks around what is left. -/
def dropBrackets (text : Text) : Text :=
  let text := if text.head? = some '[' then text.drop 1 else text
  let text := if text.getLast? = some ']' then text.dropLast else text
  Text.strip text

/-- The parameter name that a scalar holds, with or without brackets. -/
def parameterName (raw : Text) : Text := dropBrackets (Text.strip (unquote raw))

/-- A declared value as a call line writes it: quoted values and references stay as they are, others
are put in double quotes, and for a missing value the name of the parameter stands in. -/
def callValue (raw : Option Text) (name : Text) : Text :=
  let text := Text.strip (raw.getD [])
  if text.isEmpty then quote name
  else if isReference text || isQuoted text then text
  else quote text

/-- Whether an assignment's value is one literal or one reference. -/
def isCallValue (value : Text) : Bool :=
  let text := Text.strip value
  isQuoted text || isReference text

/-! ## Scalars without a value -/

/-- Why a scalar has no value, if it has none. What is not well formed counts as it stands, and what is no
text as well, but a fault in it counts. -/
def fault? (raw : Text) : Option ScalarFault :=
  let text := Text.strip raw
  if isQuoted text then match Yaml.Quoted.readDocument text with
    | .error (.codePoint code) => some (.codePoint code)
    | .error .malformed | .ok (some _) => none
    -- the scalar is the key of a mapping, or nothing that could be read
    | .ok none => match Yaml.Value.ofText text with
      | .error (.scalar fault) => some fault
      | _ => none
  else none

/-- Whether an escape in a scalar names half of a surrogate pair. -/
def namesHalf (raw : Text) : Bool :=
  match Text.strip raw with
  | '"' :: rest => Yaml.Quoted.namesHalf rest
  | _ => false

end Scalar

/-- A reading that takes in some scalars is refused if one of them has no value. -/
def guardScalars {α : Type} (raws : List Text) (reading : α) : Except ScalarFault α :=
  match raws.findSome? Scalar.fault? with
  | some fault => .error fault
  | none => .ok reading

end Scenarist
