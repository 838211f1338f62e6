import Scenarist.Scalar
import Scenarist.Section
import Scenarist.StepLine
import Scenarist.Table

set_option autoImplicit false

/-! # The script body

The body calls other scenarios: a call line names the scenario, and the lines below it that are indented
deeper assign its parameters. Lines refer to parameters of their own scenario in brackets. -/

namespace Scenarist

/-! ## Assignments -/

/-- A line `name = value`. -/
structure AssignmentLine where
  /-- The blanks before the name. -/
  indent : Text
  name : Text
  /-- The value, without the blanks before it. -/
  value : Text
  deriving DecidableEq, Repr

/-- The assignment on a line: a parameter name and an equals sign with blanks around them, and a value
without a line feed in it. -/
def AssignmentLine.parse? (line : Text) : Option AssignmentLine :=
  let body := Text.stripLeft line
  let name := body.takeWhile isNameLetter
  match Text.after? ['='] (Text.stripLeft (body.dropWhile isNameLetter)) with
  | none => none
  | some rest =>
    let (value, _) := StepLine.cutTail (Text.stripLeft rest)
    if name.isEmpty || value.elem '\n' then none else some ⟨Text.leadingBlanks line, name, value⟩

/-- A parameter that a call assigns, with the line that does it. -/
structure CallParameter where
  line : Nat
  name : Text
  value : Text
  deriving DecidableEq, Repr

/-! ## Calls -/

/-- A call line and its assignments. -/
structure CallBlock where
  /-- The number of the call line. -/
  line : Nat
  /-- The keyword as it is written. -/
  keyword : Text
  /-- The name of the called scenario. -/
  name : Text
  /-- The width of the call line's indentation. -/
  indent : Nat
  /-- The column at which the name begins. -/
  nameStart : Nat
  parameters : List CallParameter
  deriving DecidableEq, Repr

namespace CallBlock

def nameEnd (block : CallBlock) : Nat := block.nameStart + block.name.length

def parameterNames (block : CallBlock) : List Text := block.parameters.map (·.name)

/-- The number of the last assignment line, or of the call line if there is none. -/
def lastLine (block : CallBlock) : Nat := (block.parameters.getLast?.map (·.line)).getD block.line

/-- Whether a line says nothing: it is blank or a comment. -/
def isSilent (line : Text) : Bool :=
  let text := Text.strip line
  text.isEmpty || text.head? == some '#'

/-- The call without assignments that a call-shaped line makes. -/
def ofLine? (number : Nat) (line : Text) : Option CallBlock :=
  (StepLine.ofCall? line).map fun parts => {
    line := number
    keyword := parts.keyword
    name := Text.strip parts.content
    indent := Text.indentWidth line
    nameStart := parts.contentStart
    parameters := [] }

/-- The call that a line opens: its name is not empty and holds no double quote. -/
def openedBy? (number : Nat) (line : Text) : Option CallBlock :=
  (ofLine? number line).filter fun block => !block.name.isEmpty && !block.name.elem '"'

/-- The parameter that a line assigns to a call: the line is an assignment, no comment, and indented
deeper than the call. -/
def assignedBy? (block : CallBlock) (number : Nat) (line : Text) : Option CallParameter :=
  if isSilent line then none
  else match AssignmentLine.parse? line with
    | none => none
    | some assignment =>
      if Text.indentWidth line ≤ block.indent then none
      else some ⟨number, assignment.name, assignment.value⟩

def assign (block : CallBlock) (parameter : CallParameter) : CallBlock :=
  { block with parameters := block.parameters ++ [parameter] }

/-- The calls among numbered lines, `current` being open before the first of them. A line that does not
assign to the open call ends it and may open another. -/
def readFrom : (current : Option CallBlock) → List (Nat × Text) → List CallBlock
  | current, [] => current.toList
  | none, (number, line) :: rest => readFrom (openedBy? number line) rest
  | some block, (number, line) :: rest => match block.assignedBy? number line with
    | some parameter => readFrom (some (block.assign parameter)) rest
    | none => block :: readFrom (openedBy? number line) rest

def readAll (lines : List (Nat × Text)) : List CallBlock := readFrom none lines

/-- The calls of a document's script. -/
def ofText (text : Text) : List CallBlock := readAll (scriptLines text)

def onLine? (text : Text) (number : Nat) : Option CallBlock :=
  (ofText text).find? fun block => block.line == number

/-! ## The call around a line -/

/-- The open calls after one more line, the innermost first. A call closes those that are not indented
less than it; any other line that says something closes those that it is not indented deeper than. -/
def enclosingStep (stack : List CallBlock) (number : Nat) (line : Text) : List CallBlock :=
  let call := (StepLine.ofCall? line).filter fun parts => !parts.content.elem '"'
  match call.bind fun _ => ofLine? number line with
  | some block => block :: stack.dropWhile fun outer => block.indent ≤ outer.indent
  | none =>
    if isSilent line then stack
    else stack.dropWhile fun outer => Text.indentWidth line ≤ outer.indent

/-- The innermost call that a line of a document belongs to. -/
def enclosing? (text : Text) (number : Nat) : Option CallBlock :=
  (((scriptLines text).takeWhile fun (n, _) => n ≤ number).foldl
    (fun stack (n, line) => enclosingStep stack n line) []).head?

end CallBlock

/-! ## The names that a script calls -/

/-- A call's name without the inline parameters `<<…>>` at its end. -/
def dropInlineParameters (name : Text) : Text :=
  match Text.cutAt? ['<', '<'] name with
  | some (before, rest) =>
    if 3 ≤ rest.length && Text.endsWith ['>', '>'] rest then Text.strip before else name
  | none => name

/-- The name that a line calls. Lines with double quotes are steps with literal arguments; rows of
tables and the marks of quoted blocks call nothing. -/
def calledName? (line : Text) : Option Text :=
  let text := Text.strip line
  if text.head? = some '|' || text.elem '"' then none
  else match StepLine.ofCall? text with
    | none => none
    | some parts =>
      let name := dropInlineParameters (Text.strip parts.content)
      if name.isEmpty then none else some name

/-- The names that a script calls, each once, in order. -/
def calledNames (text : Text) : List Text :=
  distinct ((scriptLines text).filterMap fun (_, line) => calledName? line)

/-! ## References to parameters -/

/-- Where the search for references is. -/
inductive ReferenceScan where
  /-- Outside brackets; whether the last character was a backslash. -/
  | outside (escaped : Bool)
  /-- Behind an opening bracket and name letters, the last one first. -/
  | inside (name : Text)
  deriving DecidableEq, Repr

/-- The names in brackets from here on. A bracket behind a backslash is no reference. -/
def referencesFrom : ReferenceScan → Text → List Text
  | _, [] => []
  | .outside escaped, c :: cs =>
    if c = '[' ∧ !escaped then referencesFrom (.inside []) cs
    else referencesFrom (.outside (c == '\\')) cs
  | .inside name, c :: cs =>
    if isNameLetter c then referencesFrom (.inside (c :: name)) cs
    else if c = ']' ∧ name ≠ [] then name.reverse :: referencesFrom (.outside false) cs
    else if c = '[' then referencesFrom (.inside []) cs
    else referencesFrom (.outside (c == '\\')) cs

def references (line : Text) : List Text := referencesFrom (.outside false) line

/-- The names that a list of exclusions excludes: without brackets and blanks. -/
def excludedNames (exclusions : List Text) : List Text :=
  (exclusions.map fun item => Scalar.dropBrackets (Text.strip item)).filter (!·.isEmpty)

/-- The parameters that a script refers to and that are not excluded, each once, in order. -/
def usedParameters (text : Text) (exclusions : List Text) : List Text :=
  distinct (((scriptLines text).flatMap fun (_, line) => references line).filter
    (· ∉ excludedNames exclusions))

end Scenarist
