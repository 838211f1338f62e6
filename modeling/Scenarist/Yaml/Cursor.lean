import Scenarist.Yaml.Char

set_option autoImplicit false

/-! # Places in a YAML text

A cursor stands in a text: it knows what follows, and the line and the column where it stands. Columns
matter because the structure of a block is in its indentation. -/

namespace Scenarist.Yaml

/-- A place in a text. -/
structure Cursor where
  /-- What follows. -/
  rest : Text
  /-- The number of characters before the place. -/
  index : Nat := 0
  line : Nat := 0
  column : Nat := 0
  deriving DecidableEq, Repr

namespace Cursor

/-- The place behind the next character. A line ends with the line feed of a carriage return and line
feed, and a byte-order mark takes up no column. -/
def step (c : Cursor) : Cursor :=
  match c.rest with
  | [] => c
  | char :: rest =>
    let c := { c with rest, index := c.index + 1 }
    if isLineBreak char && !(char = '\r' && rest.head? = some '\n') then
      { c with line := c.line + 1, column := 0 }
    else if char = '\ufeff' then c
    else { c with column := c.column + 1 }

/-- The place behind so many characters. -/
def skip : Nat → Cursor → Cursor
  | 0, c => c
  | n + 1, c => skip n c.step

/-- The characters from the place on that a test accepts, and the place behind them. -/
def span (test : Char → Bool) (c : Cursor) : Text × Cursor :=
  let taken := c.rest.takeWhile test
  (taken, c.skip taken.length)

def skipSpaces (c : Cursor) : Cursor := (c.span (· = ' ')).2

def skipLine (c : Cursor) : Cursor := (c.span (!isLineBreak ·)).2

def skipComment (c : Cursor) : Cursor :=
  let c := c.skipSpaces
  if c.rest.head? = some '#' then c.skipLine else c

/-- Whether a line or the text ends at the place. -/
def atLineEnd (c : Cursor) : Bool := c.rest.head?.all isLineBreak

def atSpace (c : Cursor) : Bool := c.rest.head?.any isSpace

/-- What the line break at the place stands for, and the place behind it; nothing if there is none. -/
def lineBreak (c : Cursor) : Text × Cursor :=
  match c.rest with
  | '\r' :: '\n' :: _ => (['\n'], c.skip 2)
  | char :: _ => if isLineBreak char then ([breakValue char], c.step) else ([], c)
  | [] => ([], c)

end Cursor

end Scenarist.Yaml
