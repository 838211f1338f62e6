import Scenarist.Text.Basic

set_option autoImplicit false

/-! # Diagnostics

A diagnostic is one finding about a document: where it is, what it says, how grave it is and which
check made it. The codes are stable and the texts are for people. -/

namespace Scenarist

/-- A part of a document: lines and columns from zero, the end not included. -/
structure TextRange where
  startLine : Nat
  startColumn : Nat
  endLine : Nat
  endColumn : Nat
  deriving DecidableEq, Repr

/-- How grave a finding is. -/
inductive Severity where
  | error
  | warning
  deriving DecidableEq, Repr

def Severity.word : Severity → Text
  | .error => "error".toList
  | .warning => "warning".toList

/-- What a check looks for. -/
inductive DiagnosticCode where
  | unclosedIf
  | unclosedDo
  | unclosedQuote
  | unknownStep
  | unknownScenario
  | extraScenarioParameter
  | missingScenarioParameter
  | missingQuotes
  | incompleteBlock
  | defaultDescription
  | duplicateScenarioCode
  deriving DecidableEq, Repr

namespace DiagnosticCode

def all : List DiagnosticCode :=
  [unclosedIf, unclosedDo, unclosedQuote, unknownStep, unknownScenario, extraScenarioParameter,
    missingScenarioParameter, missingQuotes, incompleteBlock, defaultDescription,
    duplicateScenarioCode]

def word : DiagnosticCode → Text
  | unclosedIf => "unclosedIf".toList
  | unclosedDo => "unclosedDo".toList
  | unclosedQuote => "unclosedQuote".toList
  | unknownStep => "unknownStep".toList
  | unknownScenario => "unknownScenario".toList
  | extraScenarioParameter => "extraScenarioParameter".toList
  | missingScenarioParameter => "missingScenarioParameter".toList
  | missingQuotes => "missingQuotes".toList
  | incompleteBlock => "incompleteBlock".toList
  | defaultDescription => "defaultDescription".toList
  | duplicateScenarioCode => "duplicateScenarioCode".toList

/-- A code as it is shown, with the name of the checker in front. -/
def text (code : DiagnosticCode) : Text := "scenarioEngine.".toList ++ code.word

def ofWord? (word : Text) : Option DiagnosticCode := all.find? fun code => code.word == word

end DiagnosticCode

/-- A finding. -/
structure Diagnostic where
  range : TextRange
  message : Text
  severity : Severity
  code : DiagnosticCode
  deriving DecidableEq, Repr

namespace Diagnostic

def line (diagnostic : Diagnostic) : Nat := diagnostic.range.startLine

/-- The checker that makes the findings. -/
def checker : Text := "scenario-engine".toList

end Diagnostic

/-! ## Texts -/

/-- A header and a list below it, one item to a line; the header alone if there is none. -/
def listMessage (header : Text) (items : List Text) : Text :=
  if items.isEmpty then header
  else header ++ items.flatMap ("\n- ".toList ++ ·) ++ ['\n']

/-- What is added to a message to propose something instead. -/
def suggestionSuffix (suggestions : List Text) : Text :=
  if suggestions.isEmpty then [] else listMessage "\nMaybe you meant:".toList suggestions

namespace Message

def unknownStep : Text := "Unknown Gherkin step.".toList

def unknownScenario : Text := "Unknown nested scenario call.".toList

def extraParameter (name : Text) : Text :=
  "Extra parameter for called scenario: ".toList ++ name ++ ['.']

def missingParameters (names : List Text) : Text :=
  listMessage "Missing parameters for called scenario:".toList names

def valueNotQuoted : Text :=
  "Parameter value should be in quotes or square brackets ([Parameter]).".toList

def missingNestedEntries (names : List Text) : Text :=
  "Section is incomplete and can be auto-filled. Missing NestedScenarios entries: ".toList ++
    Text.joinWith ", ".toList names

def missingParameterEntries (names : List Text) : Text :=
  "Section is incomplete and can be auto-filled. Missing ScenarioParameters entries: ".toList ++
    Text.joinWith ", ".toList names

def unmatchedIf : Text := "If block is not closed with EndIf.".toList

def extraEndIf : Text := "EndIf without matching If.".toList

def unmatchedDo : Text := "Do block is not closed with EndDo.".toList

def extraEndDo : Text := "EndDo without matching Do.".toList

def unmatchedQuote : Text := "Unclosed double quote in line.".toList

def missingQuotes : Text := "Likely missing quotes in step/call arguments.".toList

def defaultDescription : Text := "Scenario description is empty.".toList

def duplicateCode (code : Text) (others : List Text) : Text :=
  listMessage ("Duplicate scenario code \"".toList ++ code ++ "\" found in other scenarios:".toList)
    others

end Message

end Scenarist
