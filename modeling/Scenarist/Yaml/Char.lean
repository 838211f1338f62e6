import Scenarist.Text.Basic

set_option autoImplicit false

/-! # The characters of YAML

Which characters may stand in a stream, which of them break a line, and what ends a word of the
syntax. -/

namespace Scenarist.Yaml

/-- Whether a character may stand in a stream at all: control characters, the delete character and
the two non-characters of the first plane may not. -/
def isPrintable (c : Char) : Bool :=
  let n := c.toNat
  n = 0x9 || n = 0xa || n = 0xd || (0x20 ≤ n && n ≤ 0x7e) || n = 0x85 ||
    (0xa0 ≤ n && n ≤ 0xd7ff) || (0xe000 ≤ n && n ≤ 0xfffd) || 0x10000 ≤ n

def isLineBreak (c : Char) : Bool :=
  c = '\n' || c = '\r' || c = '\u0085' || c = '\u2028' || c = '\u2029'

def isSpace (c : Char) : Bool := c = ' ' || c = '\t'

/-- What a line break stands for in a value: the breaks of other scripts stand for themselves, all
others for a line feed. -/
def breakValue (c : Char) : Char := if c = '\u2028' || c = '\u2029' then c else '\n'

/-- Whether a word of the syntax ends here: at the end, a space, a tab or a line break. -/
def atWordEnd : Text → Bool
  | [] => true
  | c :: _ => isSpace c || isLineBreak c

/-- Whether a line that begins here separates documents: three dashes or three dots that are a word. -/
def isSeparator : Text → Bool
  | '-' :: '-' :: '-' :: rest => atWordEnd rest
  | '.' :: '.' :: '.' :: rest => atWordEnd rest
  | _ => false

def hexValue? (c : Char) : Option Nat :=
  if '0' ≤ c && c ≤ '9' then some (c.toNat - '0'.toNat)
  else if 'a' ≤ c && c ≤ 'f' then some (c.toNat - 'a'.toNat + 10)
  else if 'A' ≤ c && c ≤ 'F' then some (c.toNat - 'A'.toNat + 10)
  else none

end Scenarist.Yaml
