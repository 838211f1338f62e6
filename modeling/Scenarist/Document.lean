import Scenarist.Diagnostic
import Scenarist.Path
import Scenarist.Text.Blank

set_option autoImplicit false

/-! # Documents

A document is a text under a path, addressed by offsets or by lines and columns. Lines end with line
feeds; a carriage return at the end of a line is no part of it but stays in the text. -/

namespace Scenarist

/-- The replacement of a part of a text, from offset `start` up to offset `stop`. -/
structure TextEdit where
  start : Nat
  stop : Nat
  replacement : Text
  deriving DecidableEq, Repr

namespace TextEdit

/-- Whether an edit begins before another one, or at the same offset and ends no later. -/
def precedes (a b : TextEdit) : Bool :=
  a.start < b.start || (a.start = b.start && a.stop ≤ b.stop)

def applyTo (text : Text) (edit : TextEdit) : Text :=
  text.take edit.start ++ edit.replacement ++ text.drop edit.stop

/-- A text with parts replaced, the last part first, so that the offsets of the others stay right. -/
def applyAll (edits : List TextEdit) (text : Text) : Text :=
  (edits.mergeSort fun a b => precedes b a).foldl applyTo text

end TextEdit

/-- A text under a path; the version counts its changes. -/
structure Document where
  uri : Text
  text : Text
  version : Nat := 0
  deriving DecidableEq, Repr

namespace Document

/-! ## Changes -/

/-- The document with another text. The version grows if the text differs. -/
def setText (document : Document) (text : Text) : Document :=
  if text = document.text then document
  else { document with text, version := document.version + 1 }

/-- The document with edits made that do not overlap. -/
def applyEdits (document : Document) (edits : List TextEdit) : Document :=
  document.setText (TextEdit.applyAll edits document.text)

def lineEnd (document : Document) : LineEnd := LineEnd.ofText document.text

/-! ## Lines by their starts -/

/-- The offsets at which the lines after this offset begin. -/
def startsFrom : (offset : Nat) → Text → List Nat
  | _, [] => []
  | offset, c :: cs =>
    if c = '\n' then (offset + 1) :: startsFrom (offset + 1) cs else startsFrom (offset + 1) cs

/-- The last line that begins no later than an offset, found by halving the lines from `low` up to
`stop`; `found` if none of these does. -/
def lastBegun (starts : List Nat) (offset found low stop : Nat) : Nat :=
  if low < stop then
    let middle := (low + (stop - 1)) / 2
    if starts.getD middle 0 ≤ offset then lastBegun starts offset middle (middle + 1) stop
    else lastBegun starts offset found low middle
  else found
termination_by stop - low

section

/-! What is asked about lines is answered from a table of the offsets at which they begin. -/

variable (starts : List Nat) (text : Text)

/-- The line of a number, if there is one. -/
def lineBy? (line : Nat) : Option Text :=
  (starts[line]?).map fun start =>
    let stop := ((starts[line + 1]?).map (· - 1)).getD text.length
    Text.trimReturns (Text.slice start stop text)

/-- The offset of a column on a line: columns outside the line are taken to its nearest end, and a line
behind the last one to the end of the text. -/
def offsetBy (line : Nat) (column : Int) : Nat :=
  match starts[line]? with
  | none => text.length
  | some start => start + min column.toNat ((lineBy? starts text line).getD []).length

/-- The line and column of an offset: the last line that begins no later. Offsets outside the text are
taken to its nearest end. -/
def positionBy (offset : Int) : Nat × Nat :=
  let offset := min offset.toNat text.length
  let line := lastBegun starts offset 0 0 starts.length
  (line, offset - starts.getD line 0)

end

/-- The range of a line from its first character that is not blank; all of a blank line. -/
def contentRange (line : Nat) (text : Text) : TextRange :=
  let start := (Text.leadingBlanks text).length
  ⟨line, if start = text.length then 0 else start, line, text.length⟩

def wholeRange (line : Nat) (text : Text) : TextRange := ⟨line, 0, line, text.length⟩

/-! ## Lines and offsets of a document -/

def lines (document : Document) : List Text := (Text.lines document.text).map Text.trimReturns

def lineStarts (document : Document) : List Nat := 0 :: startsFrom 0 document.text

def lineCount (document : Document) : Nat := document.lineStarts.length

def lineAt? (document : Document) (line : Nat) : Option Text :=
  lineBy? document.lineStarts document.text line

/-- A line of the document; empty if there is none of that number. -/
def lineAt (document : Document) (line : Nat) : Text := (document.lineAt? line).getD []

def offsetAt (document : Document) (line : Nat) (column : Int) : Nat :=
  offsetBy document.lineStarts document.text line column

def positionAt (document : Document) (offset : Int) : Nat × Nat :=
  positionBy document.lineStarts document.text offset

/-- The range of a line from its first character that is not blank; all of a blank line. -/
def lineRange (document : Document) (line : Nat) : TextRange := contentRange line (document.lineAt line)

def fullLineRange (document : Document) (line : Nat) : TextRange := wholeRange line (document.lineAt line)

def replaceLine (document : Document) (line : Nat) (text : Text) : TextEdit :=
  let start := document.offsetAt line 0
  ⟨start, start + (document.lineAt line).length, text⟩

def path (document : Document) : Path := Path.ofText document.uri

end Document

end Scenarist
