import Scenarist.Yaml.Cursor

set_option autoImplicit false

/-! # Block scalars

A block scalar is the lines below its header that are indented more deeply than what is around it. Its
header says whether line breaks are kept or folded, what becomes of those at its end, and how deep it is
indented if its first line does not show it. -/

namespace Scenarist.Yaml.Block

/-- What becomes of the line breaks at the end. -/
inductive Chomping where
  /-- One is kept. -/
  | clip
  /-- All are kept. -/
  | keep
  /-- None is kept. -/
  | strip
  deriving DecidableEq, Repr

/-- What the header says. -/
structure Header where
  chomping : Chomping
  /-- How much deeper than what is around it the scalar is indented, if the header says so. -/
  depth : Option Nat
  deriving DecidableEq, Repr

def chomping (c : Cursor) : Option Chomping × Cursor :=
  match c.rest with
  | '+' :: _ => (some .keep, c.step)
  | '-' :: _ => (some .strip, c.step)
  | _ => (none, c)

def depth (c : Cursor) : Option Nat × Cursor :=
  match c.rest.head?.filter Char.isDigit with
  | some d => (some (d.toNat - '0'.toNat), c.step)
  | none => (none, c)

/-- The header at a place, and the place below it. Nothing but a comment may follow it on its line. -/
def header? (c : Cursor) : Option (Header × Cursor) :=
  let (before, c) := chomping c
  let (depth, c) := depth c
  let (after, c) := if before.isNone && depth.isSome then chomping c else (none, c)
  let closed := c.rest.head?.all fun char => char = ' ' || isLineBreak char
  let c := c.skipComment
  if depth = some 0 || !closed || !c.atLineEnd then none
  else some (⟨(before.or after).getD .clip, depth⟩, c.lineBreak.2)

/-- The place behind spaces that lead up to a column. -/
def indentTo (column : Nat) (c : Cursor) : Cursor :=
  c.skip (min (column - c.column) (c.rest.takeWhile (· = ' ')).length)

/-- What the line breaks of empty lines stand for, and the place behind them and behind the indentation
of the line that follows. `fuel` bounds the number of lines. -/
def emptyLines (column : Nat) : (fuel : Nat) → Cursor → Text × Cursor
  | 0, c => ([], c)
  | fuel + 1, c =>
    match (indentTo column c).lineBreak with
    | ([], c) => ([], c)
    | (value, c) =>
      let (more, c) := emptyLines column fuel c
      (value ++ more, c)

/-- The empty lines above the first line, with the deepest column that their spaces or those of the
first line reach. -/
def findIndent : (fuel : Nat) → (deepest : Nat) → Cursor → Text × Nat × Cursor
  | 0, deepest, c => ([], deepest, c)
  | fuel + 1, deepest, c =>
    let c := c.skipSpaces
    let deepest := max deepest c.column
    match c.lineBreak with
    | ([], c) => ([], deepest, c)
    | (value, c) =>
      let (more, deepest, c) := findIndent fuel deepest c
      (value ++ more, deepest, c)

/-- The lines of a scalar from a place on. -/
structure Lines where
  /-- The lines, without the breaks behind the last one. -/
  text : Text
  /-- What the break behind the last line stands for. -/
  last : Text
  /-- What the breaks of the empty lines at the end stand for. -/
  further : Text
  /-- The place behind them. -/
  next : Cursor

/-- The lines at a column, `before` being the empty lines above the first. `fuel` bounds their number. -/
def readLines (folded : Bool) (column : Nat) : (fuel : Nat) → (before : Text) → Cursor → Lines
  | 0, before, c => ⟨[], [], before, c⟩
  | fuel + 1, before, c =>
    if c.column ≠ column || c.rest.isEmpty then ⟨[], [], before, c⟩
    else
      let deeper := c.atSpace
      let (line, c) := c.span (!isLineBreak ·)
      let (last, c) := c.lineBreak
      let (empty, c) := emptyLines column fuel c
      if c.column ≠ column || c.rest.isEmpty then ⟨before ++ line, last, empty, c⟩
      else
        let joint :=
          if folded && last = ['\n'] && !deeper && !c.atSpace then
            if empty.isEmpty then [' '] else []
          else last
        let lines := readLines folded column fuel empty c
        { lines with text := before ++ line ++ joint ++ lines.text }

/-- The value of the block scalar at a place behind its mark, and the place behind it; `indent` is the
indentation of what is around it. -/
def read? (folded : Bool) (indent : Int) (c : Cursor) : Option (Text × Cursor) :=
  (header? c).map fun (header, c) =>
    let least := (max (indent + 1) 1).toNat
    let fuel := c.rest.length + 1
    let lines := match header.depth with
      | some depth =>
        let column := least + depth - 1
        let (before, c) := emptyLines column fuel c
        readLines folded column fuel before c
      | none =>
        let (before, deepest, c) := findIndent fuel 0 c
        readLines folded (max least deepest) fuel before c
    let tail := match header.chomping with
      | .strip => []
      | .clip => lines.last
      | .keep => lines.last ++ lines.further
    (lines.text ++ tail, lines.next)

end Scenarist.Yaml.Block
