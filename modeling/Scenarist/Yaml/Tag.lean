import Scenarist.Text.Utf8
import Scenarist.Yaml.Cursor

set_option autoImplicit false

/-! # Tags, anchors and directives

The words of YAML that name things: anchors and aliases, tags with their handles, and the directives in
front of a document. Each is read off a place in the text; what is not well formed has no value. -/

namespace Scenarist.Yaml

/-- Whether a character may stand in an anchor, a handle or a directive's name. -/
def isWordChar (c : Char) : Bool := c.isAlphanum || c = '-' || c = '_'

/-- Whether a character may stand in the body of a tag. -/
def isTagChar (c : Char) : Bool := c.isAlphanum || c ∈ "-;/?:@&=+$,_.!~*'()[]%".toList

/-- Whether a word of the syntax without tabs ends at a place: at the end, a space or a line break. -/
def Cursor.atGap (c : Cursor) : Bool := c.rest.head?.all fun char => char = ' ' || isLineBreak char

/-- The name of an anchor or alias at a place behind its mark, and the place behind it. -/
def anchorName? (c : Cursor) : Option (Text × Cursor) :=
  let (name, c) := c.span isWordChar
  let closed := atWordEnd c.rest || c.rest.head?.any (· ∈ "?:,]\x7d%@\x60".toList)
  if name.isEmpty || !closed then none else some (name, c)

namespace Tag

/-- The bytes that percent signs and two digits each write at the start of a text, and what follows. -/
def percentBytes? : Text → Option (List UInt8 × Text)
  | '%' :: a :: b :: rest => do
    let high ← hexValue? a
    let low ← hexValue? b
    let (more, rest) ← percentBytes? rest
    return (UInt8.ofNat (16 * high + low) :: more, rest)
  | '%' :: _ => none
  | rest => some ([], rest)

/-- The body of a tag that a text begins with, and what follows. Percent signs write the bytes of a text;
`fuel` bounds the number of pieces. -/
def bodyWithin? : (fuel : Nat) → Text → Option (Text × Text)
  | 0, rest => some ([], rest)
  | fuel + 1, rest =>
    match rest.takeWhile fun c => isTagChar c && c ≠ '%', rest.dropWhile fun c => isTagChar c && c ≠ '%' with
    | plain, '%' :: rest => do
      let (bytes, rest) ← percentBytes? ('%' :: rest)
      let text ← Text.Utf8.decode bytes
      let (more, rest) ← bodyWithin? fuel rest
      return (plain ++ text ++ more, rest)
    | plain, rest => some (plain, rest)

/-- The body of a tag at a place, and the place behind it. It is not empty. -/
def body? (c : Cursor) : Option (Text × Cursor) := do
  let (text, rest) ← bodyWithin? (c.rest.length + 1) c.rest
  if rest.length = c.rest.length then none
  else return (text, c.skip (c.rest.length - rest.length))

/-- The handle at a place, and the place behind it: a mark alone in front of a space, or a word between
two marks. -/
def handle? (c : Cursor) : Option (Text × Cursor) :=
  match c.rest with
  | '!' :: rest =>
    if rest.head? = some ' ' then some (['!'], c.step)
    else
      let word := rest.takeWhile isWordChar
      if (rest.drop word.length).head? = some '!' then
        some ('!' :: word ++ ['!'], c.skip (word.length + 2))
      else none
  | _ => none

/-- A tag as it is written: a handle, unless it is written in full, and a body. -/
structure Written where
  handle : Option Text
  body : Text
  deriving DecidableEq, Repr

def read? (c : Cursor) : Option (Written × Cursor) := do
  let (tag, c) ← match c.rest.drop 1 with
    | '<' :: _ => do
      let (body, c) ← body? (c.skip 2)
      if c.rest.head? = some '>' then some (⟨none, body⟩, c.step) else none
    | rest =>
      if atWordEnd rest then some (⟨none, ['!']⟩, c.step)
      else
        let word := rest.takeWhile fun char => !(char = ' ' || isLineBreak char)
        if '!' ∈ word then do
          let (handle, c) ← handle? c
          let (body, c) ← body? c
          return (⟨some handle, body⟩, c)
        else do
          let (body, c) ← body? c.step
          return (⟨some ['!'], body⟩, c)
  if c.atGap then return (tag, c) else none

end Tag

/-- What stands in front of a document. -/
inductive Directive where
  /-- The version of the syntax. -/
  | version (major minor : Nat)
  /-- A handle of tags and what it stands for. -/
  | handle (name meaning : Text)
  /-- Anything else. -/
  | other
  deriving DecidableEq, Repr

namespace Directive

def number? (c : Cursor) : Option (Nat × Cursor) :=
  let (digits, c) := c.span Char.isDigit
  if digits.isEmpty then none
  else some (digits.foldl (fun n d => 10 * n + (d.toNat - '0'.toNat)) 0, c)

def version? (c : Cursor) : Option (Directive × Cursor) := do
  let (major, c) ← number? c.skipSpaces
  if c.rest.head? ≠ some '.' then none
  else
    let (minor, c) ← number? c.step
    if c.atGap then return (.version major minor, c) else none

/-- The handle with its meaning at a place, and the place behind them. -/
def handleMeaning? (c : Cursor) : Option (Directive × Cursor) := do
  let (name, c) ← Tag.handle? c.skipSpaces
  if c.rest.head? ≠ some ' ' then none
  else
    let (meaning, c) ← Tag.body? c.skipSpaces
    if c.atGap then return (.handle name meaning, c) else none

/-- The directive at a place behind its mark, and the place below it. -/
def read? (c : Cursor) : Option (Directive × Cursor) := do
  let (name, c) := c.span isWordChar
  if name.isEmpty || !c.atGap then none
  else
    let (directive, c) ←
      if name = "YAML".toList then version? c
      else if name = "TAG".toList then handleMeaning? c
      else some (.other, c.skipLine)
    let c := c.skipComment
    if c.atLineEnd then return (directive, c.lineBreak.2) else none

end Directive

end Scenarist.Yaml
