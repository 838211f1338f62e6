import Scenarist.Body

set_option autoImplicit false

/-! # Alignment of the script body

Two ways to lay lines out in columns: the assignments below a call get their equals signs into one
column, and the cells of neighbouring table rows get common widths. Both go through the lines once and
keep the run of lines that belong together until it ends. -/

namespace Scenarist

/-! ## Assignments -/

namespace AssignmentRun

/-- The assignment that a line adds to a run below a call whose line has `callIndent` blanks in front:
no blank or comment line, and more blanks in front than the call has. -/
def member? (callIndent : Nat) (line : Text) : Option AssignmentLine :=
  if CallBlock.isSilent line then none
  else (AssignmentLine.parse? line).filter fun assignment => callIndent < assignment.indent.length

/-- The number of blanks in front of a call line without a double quote in its wording. -/
def opening? (line : Text) : Option Nat :=
  ((StepLine.ofCall? line).filter fun parts => !parts.content.elem '"').map (·.indent.length)

/-- The lines of a run, each a raw line and its assignment, the last one first: if there are at least
two, their names are padded to one width. -/
def render (run : List (Text × AssignmentLine)) : List Text :=
  let run := run.reverse
  if run.length ≤ 1 then run.map (·.1)
  else
    let width := ((run.map (·.2.name.length)).max?).getD 0
    run.map fun (_, line) => line.indent ++ Text.padRight width line.name ++ " = ".toList ++ line.value

/-- The aligned lines; `call` is the call that a run can go on below, and `run` the run so far. -/
def alignFrom : (call : Option Nat) → (run : List (Text × AssignmentLine)) → List Text → List Text
  | _, run, [] => render run
  | call, run, line :: rest => match call.bind fun indent => member? indent line with
    | some assignment => alignFrom call ((line, assignment) :: run) rest
    | none => render run ++ line :: alignFrom (opening? line) [] rest

end AssignmentRun

def alignAssignments (lines : List Text) : List Text := AssignmentRun.alignFrom none [] lines

/-! ## Tables -/

/-- A row of a table. -/
structure TableRow where
  /-- The blanks in front of the first bar. -/
  indent : Text
  /-- What stands between the bars, stripped. -/
  cells : List Text
  deriving DecidableEq, Repr

namespace TableRow

/-- The row that a line is: bars around cells with blanks outside only, and no line feed inside. -/
def parse? (line : Text) : Option TableRow :=
  match Text.strip line with
  | '|' :: rest =>
    let middle := rest.dropLast
    if rest.getLast? = some '|' && !middle.elem '\n' then
      some ⟨Text.leadingBlanks line, (Text.splitOn '|' middle).map Text.strip⟩
    else none
  | _ => none

/-- The cell in a column; empty behind the last one. -/
def cell (row : TableRow) (column : Nat) : Text := (row.cells[column]?).getD []

/-- A row with cells as wide as the columns. -/
def render (widths : List Nat) (row : TableRow) : Text :=
  let padded := widths.zipIdx.map fun (width, column) => Text.padRight width (row.cell column)
  row.indent ++ "| ".toList ++ Text.joinWith " | ".toList padded ++ " |".toList

def widths (rows : List TableRow) : List Nat :=
  let columns := ((rows.map (·.cells.length)).max?).getD 0
  (List.range columns).map fun column => ((rows.map (·.cell column |>.length)).max?).getD 0

/-- The lines of neighbouring rows, the last one first. -/
def renderAll (rows : List TableRow) : List Text :=
  rows.reverse.map (render (widths rows))

/-- The aligned lines; `rows` holds the rows just passed, the last one first. -/
def alignFrom : (rows : List TableRow) → List Text → List Text
  | rows, [] => renderAll rows
  | rows, line :: rest => match parse? line with
    | some row => alignFrom (row :: rows) rest
    | none => renderAll rows ++ line :: alignFrom [] rest

end TableRow

def alignTables (lines : List Text) : List Text := TableRow.alignFrom [] lines

/-! ## In a document -/

/-- A document with the lines of its script body changed. The line end of the body is the one that cuts
and joins them. -/
def mapScript (change : List Text → List Text) (text : Text) : Text :=
  match SectionKey.script.find? text with
  | none => text
  | some s =>
    if s.body.isEmpty then text
    else
      let body := Text.unlines s.body
      let lineEnd := LineEnd.ofText body
      let changed := Text.joinWith lineEnd.text (change (lineEnd.split body))
      s.withContent (s.rest ++ '\n' :: changed)

def alignScriptAssignments (text : Text) : Text := mapScript alignAssignments text

def alignScriptTables (text : Text) : Text := mapScript alignTables text

end Scenarist
