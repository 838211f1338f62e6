import Scenarist.Regeneration
import Scenarist.Validation

set_option autoImplicit false

/-! # Quick fixes

What can be done about a finding: edits of the document, under a title. A finding may have several
fixes, one of which may be preferred, or none. -/

namespace Scenarist

/-- Edits that settle a finding. -/
structure QuickFix where
  title : Text
  edits : List TextEdit
  preferred : Bool := false
  deriving DecidableEq, Repr

namespace QuickFix

/-- The fixes for an unknown step: the line replaced by each template that is like it, with the line's
arguments and under the line's keyword. -/
def forStep (document : Document) (line : Nat) (catalog : StepCatalog) (config : Config) :
    List QuickFix :=
  let text := document.lineAt line
  let wording := Text.strip text
  let keyword := (StepLine.splitKeyword wording).1
  let replacements := (catalog.suggest wording config.maxSuggestions).map fun template =>
    let filled := Template.fill wording template
    match keyword, (StepLine.splitKeyword filled).1 with
    | some keyword, none => keyword ++ ' ' :: filled
    | _, _ => filled
  (distinct replacements).filter (· ≠ wording) |>.map fun replacement => {
    title := "Replace with: ".toList ++ replacement
    edits := [document.replaceLine line (Text.leadingBlanks text ++ replacement)] }

/-- The fixes for a call of an unknown scenario: the name replaced by each that is like it, under the
keyword of the document's language. -/
def forCall (document : Document) (line : Nat) (index : Index) (config : Config) : List QuickFix :=
  match StepLine.ofCall? (document.lineAt line) with
  | none => []
  | some parts =>
    let keyword := callKeyword (some (Language.resolve document.text config.language))
    (closest (Text.strip parts.content) index.names config.maxSuggestions
        config.suggestionThreshold).map fun name => {
      title := "Replace with scenario: ".toList ++ name
      edits := [document.replaceLine line (parts.indent ++ keyword ++ ' ' :: name)] }

/-- The call that a line is part of: the one on it, or the one around it. -/
def callAround? (text : Text) (line : Nat) : Option CallBlock :=
  (CallBlock.onLine? text line).or <|
    (CallBlock.enclosing? text line).bind fun outer => CallBlock.onLine? text outer.line

/-- The fixes for missing parameters: all of them assigned below the last assignment of the call and in
its columns, and each one alone if there are several. Values are the called scenario's defaults, else
the document's own, else the names. -/
def forParameters (document : Document) (line : Nat) (index : Index) : List QuickFix :=
  match (callAround? document.text line).bind fun block =>
      (index.lookup? block.name).map (block, ·) with
  | none => []
  | some (block, record) =>
    let missing := (distinct record.parameters).filter fun name =>
      !Text.allBlank name && name ∉ block.parameterNames
    if missing.isEmpty then []
    else
      let ownIndent := (block.parameters.head?.map fun parameter =>
        Text.indentWidth (document.lineAt parameter.line)).getD 0
      let indent := if block.indent < ownIndent then ownIndent else block.indent + 4
      let width := (((block.parameterNames ++ missing).map List.length).max?).getD 0
      let own := Declaration.parameterDefaults document.text
      let value := fun name =>
        ((record.defaults.get? name).or (own.get? name)).getD (Scalar.quote name)
      let assignment := fun name => document.lineEnd.text ++ List.replicate indent ' ' ++
        Text.padRight width name ++ " = ".toList ++ value name
      let anchor := document.offsetAt block.lastLine (document.lineAt block.lastLine).length
      { title := "Add all missing parameters".toList
        edits := [⟨anchor, anchor, missing.flatMap assignment⟩], preferred := true } ::
      if missing.length ≤ 1 then []
      else missing.map fun name => {
        title := "Add parameter: ".toList ++ name
        edits := [⟨anchor, anchor, assignment name⟩] }

/-- The fix for incomplete declarations: both sections written anew, the calls only if the index has
records. -/
def forSections (document : Document) (index : Index) (config : Config) (session : Session)
    (supply : UidSupply) : List QuickFix × Session × UidSupply :=
  let (text, supply) :=
    if index.records.isEmpty then (document.text, supply)
    else
      let (nested, supply) := regenerateNested index supply document.text
      (nested.text, supply)
  let (parameters, session) := regenerateParameters session document.uri text config.exclusions
  (if parameters.text = document.text then []
    else [{ title := "Fill declaration sections".toList
            edits := [⟨0, document.text.length, parameters.text⟩], preferred := true }],
    session, supply)

/-- The fixes for a finding, and what is remembered and used up by making them. Without a catalog there
are none for steps. -/
def all (document : Document) (code : DiagnosticCode) (line : Nat) (index : Index)
    (catalog : Option StepCatalog) (config : Config) (session : Session) (supply : UidSupply) :
    List QuickFix × Session × UidSupply :=
  match code, catalog with
  | .unknownStep, some catalog => (forStep document line catalog config, session, supply)
  | .unknownScenario, _ => (forCall document line index config, session, supply)
  | .missingScenarioParameter, _ => (forParameters document line index, session, supply)
  | .incompleteBlock, _ => forSections document index config session supply
  | _, _ => ([], session, supply)

/-- Whether the fixes for a finding need its line to exist. -/
def needsLine (code : DiagnosticCode) (hasCatalog : Bool) : Bool :=
  (code = .unknownStep && hasCatalog) || code = .unknownScenario

def scalarsOf (document : Document) (code : DiagnosticCode) (line : Nat) (index : Index) : List Text :=
  match code with
  | .missingScenarioParameter =>
    if (forParameters document line index).isEmpty then []
    else Declaration.scalarsOfParameterNames document.text
  | .incompleteBlock =>
    (if index.records.isEmpty then [] else Declaration.scalarsOfNestedUids document.text) ++
      Declaration.scalarsOfParameterData document.text
  | _ => []

end QuickFix

end Scenarist
