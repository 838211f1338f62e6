import Scenarist.Document

set_option autoImplicit false

/-! # Documents at work

A document that is worked on keeps the table of its line starts: it is made when a question needs it, and
given up when the text changes. Changes tell whether the text became another one. -/

namespace Scenarist

/-! ## Questions -/

/-- What is asked about the lines of a document. -/
inductive DocumentQuestion where
  /-- All lines. -/
  | lines
  /-- How many lines there are. -/
  | lineCount
  /-- The line of a number. -/
  | line (number : Nat)
  /-- The offset of a column on a line. -/
  | offset (line : Nat) (column : Int)
  /-- The line and column of an offset. -/
  | position (offset : Int)
  /-- The range of a line behind its indentation. -/
  | range (line : Nat)
  /-- The range of a whole line. -/
  | fullRange (line : Nat)
  deriving DecidableEq, Repr

/-- What is answered; a line that is not there has no text and no range. -/
inductive DocumentAnswer where
  | lines (lines : List Text)
  | number (n : Nat)
  | line (text : Option Text)
  | position (line column : Nat)
  | range (range : Option TextRange)
  deriving DecidableEq, Repr

/-- The answer about a text whose lines begin at these offsets. -/
def DocumentQuestion.answerBy (starts : List Nat) (text : Text) : DocumentQuestion → DocumentAnswer
  | .lines => .lines ((Text.lines text).map Text.trimReturns)
  | .lineCount => .number starts.length
  | .line n => .line (Document.lineBy? starts text n)
  | .offset n column => .number (Document.offsetBy starts text n column)
  | .position place =>
    let (n, column) := Document.positionBy starts text place
    .position n column
  | .range n => .range ((Document.lineBy? starts text n).map (Document.contentRange n))
  | .fullRange n => .range ((Document.lineBy? starts text n).map (Document.wholeRange n))

/-- Whether the answer is taken from the line starts. -/
def DocumentQuestion.needsStarts : DocumentQuestion → Bool
  | .lines => false
  | _ => true

/-! ## The document and its line starts -/

/-- A document that is worked on. -/
structure OpenDocument extends Document where
  /-- The line starts, if they were made since the text last changed. -/
  starts? : Option (List Nat) := none
  deriving DecidableEq, Repr

def Document.opened (document : Document) : OpenDocument := { toDocument := document }

namespace OpenDocument

/-- The line starts: those that are kept, or else they are made and kept. -/
def takeStarts (document : OpenDocument) : List Nat × OpenDocument :=
  match document.starts? with
  | some starts => (starts, document)
  | none =>
    let starts := document.lineStarts
    (starts, { document with starts? := some starts })

/-- The answer to a question, and the document afterwards. -/
def ask (document : OpenDocument) (question : DocumentQuestion) : DocumentAnswer × OpenDocument :=
  if question.needsStarts then
    let (starts, next) := document.takeStarts
    (question.answerBy starts document.text, next)
  else (question.answerBy [] document.text, document)

/-! ## Changes -/

/-- The document with another text. If the text differs the line starts are given up and the version
grows. -/
def assign (document : OpenDocument) (text : Text) : OpenDocument :=
  if text = document.text then document else (document.setText text).opened

/-- The document with edits made that do not overlap, and whether its text became another one. -/
def edit (document : OpenDocument) (edits : List TextEdit) : Bool × OpenDocument :=
  let text := TextEdit.applyAll edits document.text
  if text = document.text then (false, document) else (true, document.assign text)

/-- The document with the part between two offsets replaced, and whether its text became another one. -/
def replace (document : OpenDocument) (start stop : Nat) (replacement : Text) : Bool × OpenDocument :=
  document.edit [⟨start, stop, replacement⟩]

end OpenDocument

end Scenarist
