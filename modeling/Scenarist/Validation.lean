import Scenarist.Body
import Scenarist.CallGraph
import Scenarist.Document
import Scenarist.Step.Catalog
import Scenarist.Wording

set_option autoImplicit false

/-! # Validation

One document is checked against the records of the index, a step catalog and settings: balance of blocks
and quotes, calls and their parameters, steps, completeness of the declarations, and the description.
Scenario codes that several documents share are found in the index alone.

Each check is a function of its own; `validate` puts their findings together in order. -/

namespace Scenarist

/-! ## Options -/

/-- Which checks and proposals a validation includes. -/
structure ValidationOptions where
  /-- Whether findings come with proposals, unless something else is said below. -/
  suggestions : Bool
  /-- Whether steps are checked. -/
  stepChecks : Bool
  stepSuggestions : Option Bool := none
  scenarioSuggestions : Option Bool := none
  deriving DecidableEq, Repr

namespace ValidationOptions

def proposesSteps (options : ValidationOptions) : Bool :=
  options.stepSuggestions.getD options.suggestions

def proposesScenarios (options : ValidationOptions) : Bool :=
  options.scenarioSuggestions.getD options.suggestions

def full : ValidationOptions := ⟨true, true, none, none⟩

/-- For a document that is being edited. -/
def change : ValidationOptions := ⟨true, true, none, none⟩

/-- For all documents at once. -/
def everywhere : ValidationOptions := ⟨false, true, none, none⟩

/-- For a document that is being saved. -/
def save : ValidationOptions := ⟨false, true, some true, some true⟩

/-- For documents that another one concerns. -/
def related : ValidationOptions := ⟨false, false, none, none⟩

end ValidationOptions

/-- What documents are checked against. -/
structure Checker where
  /-- The known scenarios. -/
  records : Table Record
  catalog : StepCatalog
  config : Config

namespace Checker

def finding (document : Document) (line : Nat) (severity : Severity) (code : DiagnosticCode)
    (message : Text) : Diagnostic :=
  ⟨document.lineRange line, message, severity, code⟩

/-! ## Balance -/

/-- Whether the double quotes of a line pair up; one behind a backslash does not count. `escaped` says
that the last character was a backslash, `open` that a quote is open. -/
def quotesPair : (escaped isOpen : Bool) → Text → Bool
  | _, isOpen, [] => !isOpen
  | escaped, isOpen, c :: cs => quotesPair (c = '\\') (if c = '"' && !escaped then !isOpen else isOpen) cs

/-- The open blocks and the findings so far. -/
structure Balance where
  /-- The lines of the open `If`s, the last one first. -/
  ifs : List Nat := []
  /-- The lines of the open `Do`s, the last one first. -/
  dos : List Nat := []
  /-- The findings: line, code and message, the last one first. -/
  found : List (Nat × DiagnosticCode × Text) := []

def Balance.step (balance : Balance) (number : Nat) (line : Text) : Balance :=
  let balance := match BlockKeyword.ofLine? line with
    | some .beginIf => { balance with ifs := number :: balance.ifs }
    | some .beginDo => { balance with dos := number :: balance.dos }
    -- an end without a beginning is reported where it stands, a beginning without an end only after the last line
    | some .endIf => match balance.ifs with
      | _ :: ifs => { balance with ifs }
      | [] => { balance with found := (number, .unclosedIf, Message.extraEndIf) :: balance.found }
    | some .endDo => match balance.dos with
      | _ :: dos => { balance with dos }
      | [] => { balance with found := (number, .unclosedDo, Message.extraEndDo) :: balance.found }
    | none => balance
  if quotesPair false false line then balance
  else { balance with found := (number, .unclosedQuote, Message.unmatchedQuote) :: balance.found }

/-- The lines with unmatched block keywords or quotes: first those met on the way, then those of blocks
that are never closed. -/
def checkBalance (document : Document) (body : List (Nat × Text)) : List Diagnostic :=
  let balance := body.foldl (fun balance (number, line) => balance.step number line) ({} : Balance)
  (balance.found.reverse ++
    balance.ifs.reverse.map (·, DiagnosticCode.unclosedIf, Message.unmatchedIf) ++
    balance.dos.reverse.map (·, DiagnosticCode.unclosedDo, Message.unmatchedDo)).map
      fun (number, code, message) => finding document number .error code message

/-! ## Calls and steps -/

/-- The finding about an unknown step: that its arguments lack quotes, if that would make it one of the
hints, or that it is unknown. -/
def stepFinding (document : Document) (number : Nat) (line : Text) (hints : List Text) : Diagnostic :=
  let suffix := suggestionSuffix (distinct (hints.map (Template.fill line)))
  if Template.lacksQuotes line hints then
    finding document number .warning .unknownStep (Message.missingQuotes ++ suffix)
  else finding document number .error .unknownStep (Message.unknownStep ++ suffix)

/-- The assignments of a call whose values are neither quoted nor references. -/
def checkQuoting (document : Document) (block : CallBlock) : List Diagnostic :=
  (block.parameters.filter fun parameter =>
      !Text.allBlank parameter.value && !Scalar.isCallValue parameter.value).map fun parameter =>
    finding document parameter.line .warning .missingQuotes Message.valueNotQuoted

def expectedParameters (record : Record) : List Text :=
  (record.parameters.map Text.strip).filter (!·.isEmpty)

def checkParameters (document : Document) (record : Record) (block : CallBlock) : List Diagnostic :=
  let expected := expectedParameters record
  let missing := (distinct expected).filter (· ∉ block.parameterNames)
  ((block.parameters.filter (·.name ∉ expected)).map fun parameter =>
      finding document parameter.line .error .extraScenarioParameter
        (Message.extraParameter parameter.name)) ++
    checkQuoting document block ++
    if missing.isEmpty then []
    else [finding document block.line .warning .missingScenarioParameter
      (Message.missingParameters missing)]

/-- What a call-shaped line turns out to be. -/
inductive Verdict where
  /-- A step; it may have been reported. -/
  | step (reported : Option Diagnostic)
  /-- A call, with the findings about it. -/
  | call (findings : List Diagnostic)

/-- The scenarios that are proposed instead of a name. -/
def proposals (checker : Checker) (name : Text) : List Text :=
  closest name checker.records.keys checker.config.maxSuggestions checker.config.suggestionThreshold

def checksSteps (checker : Checker) (options : ValidationOptions) : Bool :=
  options.stepChecks && checker.catalog.isAvailable

/-- The verdict on a call-shaped line that names no known scenario, has no assignments and is not
like the name of a scenario, if it is a step. -/
def stepVerdict? (checker : Checker) (options : ValidationOptions) (document : Document)
    (block : CallBlock) : Option Verdict :=
  let line := Text.strip (document.lineAt block.line)
  let stepLike := looksLikeStep block.name
  let stepChecks := checker.checksSteps options
  if (stepChecks || stepLike) && checker.catalog.isKnown line then some (.step none)
  -- what is close to a known step is left to the check of all steps
  else if stepChecks && !(checker.catalog.suggest line 1).isEmpty then some (.step none)
  else if stepLike then
    if checker.catalog.isAvailable then
      some (.step (some (stepFinding document block.line line
        (checker.catalog.suggest line checker.config.maxSuggestions))))
    else some (.step none)
  else none

/-- What a call-shaped line is, and the findings about it. -/
def judge (checker : Checker) (options : ValidationOptions) (document : Document) (block : CallBlock) :
    Verdict :=
  match checker.records.get? block.name with
  | some record => .call (checkParameters document record block)
  | none =>
    let suggestions := if options.proposesScenarios then checker.proposals block.name else []
    let isLikeScenario := suggestions.head?.any fun best =>
      meets checker.config.strongMatch (looseSimilarity block.name best)
    -- assignments, or a name that is like a known one, make the line a call
    let asStep := if block.parameters.isEmpty && !isLikeScenario
      then checker.stepVerdict? options document block else none
    match asStep with
    | some verdict => verdict
    | none =>
      if block.parameters.isEmpty && !isLikeScenario && isLikelyStep block.name then .step none
      else if checker.records.isEmpty then .call (checkQuoting document block)
      else .call [finding document block.line .error .unknownScenario
        (Message.unknownScenario ++ suggestionSuffix suggestions)]

def Verdict.findings : Verdict → List Diagnostic
  | .step reported => reported.toList
  | .call findings => findings

/-- The lines of a call-shaped line and its assignments that need no further check as steps. -/
def Verdict.settled (block : CallBlock) : Verdict → List Nat
  | .step reported => if reported.isSome then [block.line] else []
  | .call _ => block.line :: block.parameters.map (·.line)

def Verdict.isCall : Verdict → Bool
  | .step _ => false
  | .call _ => true

/-- The lines with a keyword that are no known step, those apart that were settled before. -/
def checkSteps (checker : Checker) (options : ValidationOptions) (document : Document)
    (body : List (Nat × Text)) (settled : List Nat) : List Diagnostic :=
  body.filterMap fun (number, line) =>
    let text := Text.strip line
    if number ∈ settled || text.head? = some '|' || (StepLine.ofStep? text).isNone ||
        checker.catalog.isKnown text then none
    else
      let hints := if options.proposesSteps
        then checker.catalog.suggest text checker.config.maxSuggestions else []
      some (stepFinding document number text hints)

/-! ## Declarations -/

/-- Calls and parameters of the script that the document does not declare. -/
def checkCompleteness (checker : Checker) (document : Document) (headerLine : Nat)
    (calls : List Text) : List Diagnostic :=
  let warn := fun message => finding document headerLine .warning .incompleteBlock message
  let undeclaredCalls := (distinct calls).filter (· ∉ Declaration.nestedNames document.text)
  let undeclared := (usedParameters document.text checker.config.exclusions).filter
    (· ∉ Declaration.declaredParameters document.text)
  (if checker.records.isEmpty || undeclaredCalls.isEmpty then []
    else [warn (Message.missingNestedEntries undeclaredCalls)]) ++
  if undeclared.isEmpty then [] else [warn (Message.missingParameterEntries undeclared)]

def checkDescription (document : Document) : List Diagnostic :=
  if Description.ofText? document.text ≠ some [] then []
  else ((SectionKey.extended.linesOf document.text).find? fun (_, line) =>
      Text.startsWith Description.word (Text.strip line)).toList.map fun (number, _) =>
    finding document number .warning .defaultDescription Message.defaultDescription

/-! ## A document -/

/-- The findings about a document, in the order of the checks; none about a document without a script. -/
def validate (checker : Checker) (document : Document) (options : ValidationOptions) :
    List Diagnostic :=
  match SectionKey.script.find? document.text with
  | none => []
  | some script =>
    let body := script.numberedLines
    let verdicts := (CallBlock.readAll body).map fun block =>
      (block, checker.judge options document block)
    let settled := verdicts.flatMap fun (block, verdict) => verdict.settled block
    let calls := (verdicts.filter fun (_, verdict) => verdict.isCall).map fun (block, _) => block.name
    checkBalance document body ++
      verdicts.flatMap (fun (_, verdict) => verdict.findings) ++
      (if checker.checksSteps options then checker.checkSteps options document body settled else []) ++
      checker.checkCompleteness document script.headerLine calls ++
      checkDescription document

def scalarsOf (checker : Checker) (text : Text) : List Text :=
  if SectionKey.script.isIn text then
    (if checker.records.isEmpty then [] else Declaration.scalarsOfNestedNames text) ++
      Declaration.scalarsOfParameterNames text
  else []

/-- `validate`, refused if the document has a scalar without a value. -/
def tryValidate (checker : Checker) (document : Document) (options : ValidationOptions) :
    Except ScalarFault (List Diagnostic) :=
  guardScalars (checker.scalarsOf document.text) (checker.validate document options)

end Checker

/-! ## Codes that several scenarios share -/

namespace DuplicateCodes

/-- The code that a scenario is not meant to keep. -/
def placeholder : Text := "Code_Placeholder".toList

/-- The code of a record that counts: not blank, and not the placeholder in any case. -/
def codeOf? (record : Record) : Option Text :=
  let code := Text.strip (record.code.getD [])
  if code.isEmpty || Text.afterLetters? placeholder code = some [] then none else some code

def groups (records : List Record) : Table (List Record) :=
  records.foldl (fun groups record => match codeOf? record with
    | none => groups
    | some code => groups.put code (((groups.get? code).getD []) ++ [record])) []

/-- The warning that a record shares its code with these scenarios. -/
def warning (code : Text) (record : Record) (others : List Text) : Diagnostic :=
  let line := (record.codeSpan.map (·.line)).getD 0
  let start := (record.codeSpan.map (·.start)).getD 0
  let stop := max (start + 1) ((record.codeSpan.map (·.stop)).getD 1)
  ⟨⟨line, start, line, stop⟩, Message.duplicateCode code others, .warning, .duplicateScenarioCode⟩

/-- The warnings about a group of records with one code, each with the path of its document. -/
def warningsOf (code : Text) (records : List Record) : List (Text × Diagnostic) :=
  records.filterMap fun record =>
    let others := Text.sortLower ((records.filter (·.uri ≠ record.uri)).map (·.name))
    if others.isEmpty then none else some (record.uri, warning code record others)

/-- The warnings about shared codes, by document. -/
def all (records : List Record) : Table (List Diagnostic) :=
  ((groups records).flatMap fun (code, records) => warningsOf code records).foldl
    (fun found (uri, diagnostic) => found.put uri (((found.get? uri).getD []) ++ [diagnostic])) []

end DuplicateCodes

/-- Warnings about shared codes that are computed anew only when the index has changed. -/
structure DuplicateCache where
  /-- The warnings and the generation of the index that they are about. -/
  kept : Option (Nat × Table (List Diagnostic)) := none

/-- The warnings about an index, and the cache that keeps them. -/
def DuplicateCache.get (cache : DuplicateCache) (index : Index) :
    Table (List Diagnostic) × DuplicateCache :=
  match cache.kept.filter fun (generation, _) => generation = index.generation with
  | some (_, found) => (found, cache)
  | none =>
    let found := DuplicateCodes.all index.allRecords
    (found, { kept := some (index.generation, found) })

/-! ## Documents that another one concerns -/

/-- The documents that call the scenario of a document, directly or through others. The scenario is
the one that the document declares, or else the one that the graph has for its path. -/
def relatedDocuments (graph : CallGraph) (config : Config) (document : Document) : List Source :=
  match (Declaration.scenarioName? document.text).or (graph.namesByUri.get? document.uri) with
  | some name => graph.related name config.maxRelated (some document.uri)
  | none => []

end Scenarist
