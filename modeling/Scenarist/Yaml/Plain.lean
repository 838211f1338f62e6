import Scenarist.Yaml.Cursor

set_option autoImplicit false

/-! # Plain scalars

A scalar without quotes goes on until something that cannot belong to it: a comment, the colon of a key,
in a flow collection a mark of that collection, or a line that is not indented deeply enough. Line breaks
inside it are folded. -/

namespace Scenarist.Yaml.Plain

/-- The characters that end a plain scalar in a flow collection. -/
def flowMarks : Text := [',', '?', '[', ']', '{', '}']

/-- Whether a colon in front of this text is that of a key. -/
def isKeyEnd (flow : Bool) (rest : Text) : Bool :=
  atWordEnd rest || (flow && rest.head?.any (· ∈ [',', '[', ']', '{', '}']))

def word (flow : Bool) : Text → Text
  | [] => []
  | c :: rest =>
    if isSpace c || isLineBreak c || (c = ':' && isKeyEnd flow rest) || (flow && c ∈ flowMarks) then []
    else c :: word flow rest

/-- What further line breaks stand for, with the spaces between them left out, and the place behind
them; no value if a line that separates documents follows. `fuel` bounds the characters. -/
def furtherBreaks : (fuel : Nat) → Cursor → Option Text × Cursor
  | 0, c => (some [], c)
  | fuel + 1, c =>
    if c.rest.head? = some ' ' then furtherBreaks fuel c.step
    else match c.lineBreak with
      | ([], c) => (some [], c)
      | (value, c) =>
        if isSeparator c.rest then (none, c)
        else
          let (more, c) := furtherBreaks fuel c
          (more.map (value ++ ·), c)

/-- What the spaces and line breaks at a place stand for between two words, the place behind them, and
whether there was a line break. Nothing stands in front of a line that separates documents. -/
def gap (c : Cursor) : Text × Cursor × Bool :=
  let (spaces, c) := c.span (· = ' ')
  match c.lineBreak with
  | ([], c) => (spaces, c, false)
  | (first, c) =>
    if isSeparator c.rest then ([], c, true)
    else match furtherBreaks c.rest.length c with
      | (none, c) => ([], c, true)
      | (some further, c) =>
        let value :=
          if first ≠ ['\n'] then first ++ further else if further.isEmpty then [' '] else further
        (value, c, true)

/-- The words from a place on, `before` standing in front of the first, with the place behind them and
whether a line break follows the last. Lines outside flow collections are indented by `indent` at least.
`fuel` bounds the number of words. -/
def readFrom (flow : Bool) (indent : Int) : (fuel : Nat) → (before : Text) → (broken : Bool) → Cursor →
    Text × Cursor × Bool
  | 0, _, broken, c => ([], c, broken)
  | fuel + 1, before, broken, c =>
    match word flow c.rest with
    | [] => ([], c, broken)
    | word =>
      let (next, c, broken) := gap (c.skip word.length)
      if next.isEmpty || c.rest.head? = some '#' || (!flow && c.column < indent) then
        (before ++ word, c, broken)
      else
        let (more, c, broken) := readFrom flow indent fuel next broken c
        (before ++ word ++ more, c, broken)

/-- The plain scalar at a place, the place behind it, and whether a line break follows it. -/
def read (flow : Bool) (indent : Int) (c : Cursor) : Text × Cursor × Bool :=
  readFrom flow indent c.rest.length [] false c

/-- Whether a plain scalar can begin with this text. -/
def canBegin (flow : Bool) : Text → Bool
  | [] => false
  | c :: rest =>
    !(isSpace c || isLineBreak c || c ∈ "-?:,[]\x7b\x7d#&*!|>'\"%@\x60".toList) ||
      (!atWordEnd rest && (c = '-' || (!flow && (c = '?' || c = ':'))))

end Scenarist.Yaml.Plain
