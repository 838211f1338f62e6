import Scenarist.Yaml.Char

set_option autoImplicit false

/-! # Kinds of scalars

What a scalar is said to be by its tag, and what a plain one is by its look: an empty one is null, `yes`
is a truth value, `0x10` a whole number, `2001-02-03` a date. What looks like nothing else is a text. -/

namespace Scenarist.Yaml

/-- What a node is, after its tag or its look. -/
inductive Kind where
  | null
  | bool
  | int
  | float
  | timestamp
  | text
  | bytes
  | list
  | map
  | set
  | orderedMap
  | pairs
  /-- The key of entries that are merged into a mapping. -/
  | merge
  /-- The key of a default value. -/
  | default
  /-- A tag that nothing is known about. -/
  | unknown
  deriving DecidableEq, Repr

namespace Kind

/-- The kinds that tags of the standard name. -/
def words : List (String × Kind) := [
  ("null", null), ("bool", bool), ("int", int), ("float", float), ("timestamp", timestamp),
  ("str", text), ("binary", bytes), ("seq", list), ("map", map), ("set", set), ("omap", orderedMap),
  ("pairs", pairs), ("merge", merge), ("value", default)]

/-- What the tags of the standard begin with. -/
def standard : Text := "tag:yaml.org,2002:".toList

def ofTag (tag : Text) : Kind :=
  match Text.after? standard tag with
  | none => unknown
  | some word => ((words.find? fun (name, _) => name.toList == word).map (·.2)).getD unknown

end Kind

/-! ## Looks -/

namespace Look

def nulls : List String := ["", "~", "null", "Null", "NULL"]

def bools : List (String × Bool) := [
  ("yes", true), ("Yes", true), ("YES", true), ("no", false), ("No", false), ("NO", false),
  ("true", true), ("True", true), ("TRUE", true), ("false", false), ("False", false), ("FALSE", false),
  ("on", true), ("On", true), ("ON", true), ("off", false), ("Off", false), ("OFF", false)]

/-- A text without the sign in front. -/
def unsigned (text : Text) : Text :=
  match text with
  | '+' :: rest => rest
  | '-' :: rest => rest
  | text => text

/-- Whether a character is a digit or an underscore. -/
def isLoose (c : Char) : Bool := c.isDigit || c = '_'

/-- Whether a text is a digit with digits and underscores behind it. -/
def isDigits : Text → Bool
  | [] => false
  | c :: rest => c.isDigit && rest.all isLoose

/-- Whether a text is one or two digits below sixty, the first of two being at most five. -/
def isSixtieth : Text → Bool
  | [a] => a.isDigit
  | [a, b] => '0' ≤ a && a ≤ '5' && b.isDigit
  | _ => false

/-- Whether a text looks like a whole number: to base two, eight, ten, sixteen, or sixty with colons
between the places. -/
def isInt (text : Text) : Bool :=
  match unsigned text with
  | '0' :: 'b' :: rest => !rest.isEmpty && rest.all fun c => c = '0' || c = '1' || c = '_'
  | '0' :: 'x' :: rest => !rest.isEmpty && rest.all fun c => (hexValue? c).isSome || c = '_'
  | '0' :: rest => rest.all fun c => ('0' ≤ c && c ≤ '7') || c = '_'
  | rest => match Text.splitOn ':' rest with
    | first :: places => isDigits first && places.all isSixtieth
    | [] => false

/-- Whether a text is an exponent with its sign. -/
def isExponent : Text → Bool
  | 'e' :: s :: rest | 'E' :: s :: rest =>
    (s = '+' || s = '-') && !rest.isEmpty && rest.all Char.isDigit
  | _ => false

/-- Whether a text is empty or an exponent with its sign. -/
def isTail (text : Text) : Bool := text.isEmpty || isExponent text

/-- Whether a text looks like a number with a point: an infinity, no number at all, places behind the
point with an exponent or without, or places to base sixty in front of it. -/
def isFloat (text : Text) : Bool :=
  let rest := unsigned text
  rest ∈ [".inf".toList, ".Inf".toList, ".INF".toList] ||
  text ∈ [".nan".toList, ".NaN".toList, ".NAN".toList] ||
  match Text.cutAt? ['.'] rest with
  | none => false
  | some (whole, tail) =>
    if whole.isEmpty then
      text.head? = some '.' && tail.head?.any Char.isDigit && isTail (tail.dropWhile isLoose)
    else if ':' ∈ whole then
      match Text.splitOn ':' whole with
      | first :: places => isDigits first && places.all isSixtieth && tail.all isLoose
      | [] => false
    else isDigits whole && isTail (tail.dropWhile isLoose)

end Look

end Scenarist.Yaml
