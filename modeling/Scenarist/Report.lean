import Scenarist.Diagnostic
import Scenarist.Json
import Scenarist.Repair
import Scenarist.Text.Case
import Scenarist.Text.Order

set_option autoImplicit false

/-! # Reports

What a run over many documents found or changed, and the short answer that a command gives about it. A
run has passed if it found no errors, or repaired every document, and nothing else went wrong.

Main statement: `FindingsReport.files_ne_nil` (only documents with findings are listed). -/

namespace Scenarist

/-! ## Findings -/

namespace Diagnostic

/-- A finding in a report; lines are counted from one. -/
def toJson (diagnostic : Diagnostic) : Json := .object [
  ("line".toList, .number (diagnostic.range.startLine + 1)),
  ("start".toList, .number diagnostic.range.startColumn),
  ("end".toList, .number diagnostic.range.endColumn),
  ("severity".toList, .text diagnostic.severity.word),
  ("code".toList, .text diagnostic.code.text),
  ("message".toList, .text diagnostic.message),
  ("source".toList, .text checker)]

def beginsBefore (a b : Diagnostic) : Bool :=
  a.range.startLine < b.range.startLine ||
    a.range.startLine = b.range.startLine && a.range.startColumn ≤ b.range.startColumn

end Diagnostic

/-- The findings by document. -/
structure FindingsReport where
  found : Table (List Diagnostic)

namespace FindingsReport

def count (report : FindingsReport) (severity : Severity) : Nat :=
  (report.found.values.flatten.filter (·.severity = severity)).length

/-- The documents with findings, sorted by their paths in lower case; the findings about each in the
order of their places. -/
def files (report : FindingsReport) : Table (List Diagnostic) :=
  (Text.sortBy (fun entry => Text.lower entry.1) (report.found.filter (!·.2.isEmpty))).map
    fun (uri, found) => (uri, found.mergeSort Diagnostic.beginsBefore)

def filesJson (report : FindingsReport) : Json :=
  .list <| report.files.map fun (uri, found) => .object [
    ("path".toList, .text uri),
    ("diagnostics".toList, .list (found.map Diagnostic.toJson))]

/-- Only documents with findings are listed. -/
theorem files_ne_nil (report : FindingsReport) {entry : Text × List Diagnostic}
    (h : entry ∈ report.files) : entry.2 ≠ [] := by
  simp only [files, Text.sortBy, List.mem_map, List.mem_mergeSort, List.mem_filter] at h
  obtain ⟨⟨uri, found⟩, ⟨-, filled⟩, rfl⟩ := h
  intro empty
  have size : (found.mergeSort Diagnostic.beginsBefore).length = found.length :=
    List.length_mergeSort found
  simp only at empty
  rw [empty] at size
  cases found with
  | nil => simp at filled
  | cons _ _ => simp at size

end FindingsReport

/-! ## Reports -/

/-- What a run was about. -/
inductive RunResult where
  | findings (report : FindingsReport)
  | repairs (batch : BatchResult)

/-- A run over many documents. -/
structure Report where
  result : RunResult
  /-- How long it took, in milliseconds. -/
  duration : Nat := 0
  /-- What went wrong with the run as a whole. -/
  error : Option Text := none

namespace Report

/-- The word for what a run was about. -/
def kind (report : Report) : Text :=
  match report.result with
  | .findings _ => "diagnostics".toList
  | .repairs _ => "repair".toList

def passed (report : Report) : Bool :=
  report.error.isNone && match report.result with
  | .findings findings => findings.count .error = 0
  | .repairs batch => !batch.hasErrors

/-- The numbers of a run. -/
def summary (report : Report) : List (Text × Json) :=
  match report.result with
  | .findings findings => [
      ("files".toList, .number findings.found.length),
      ("files_with_findings".toList, .number (findings.found.filter (!·.2.isEmpty)).length),
      ("errors".toList, .number (findings.count .error)),
      ("warnings".toList, .number (findings.count .warning)),
      ("duration_ms".toList, .number report.duration)]
  | .repairs batch => [
      ("total".toList, .number batch.total),
      ("changed".toList, .number batch.changed.length),
      ("unchanged".toList, .number batch.unchanged.length),
      ("skipped".toList, .number batch.skipped.length),
      ("failed".toList, .number batch.failures.length),
      ("duration_ms".toList, .number report.duration)]

def failuresJson (batch : BatchResult) : Json :=
  .list <| batch.failures.map fun (uri, reason) => .object [
    ("path".toList, .text uri),
    ("reason".toList, .text reason)]

def listed (report : Report) : List (Text × Json) :=
  match report.result with
  | .findings findings => [("files".toList, findings.filesJson)]
  | .repairs batch => [
      ("changed".toList, .texts batch.changed),
      ("failures".toList, failuresJson batch)]

def toJson (report : Report) (madeAt : Option Text) : Json :=
  .object <| (madeAt.map fun time => ("timestamp".toList, .text time)).toList ++ [
    ("kind".toList, .text report.kind),
    ("status".toList, .text (if report.passed then "passed".toList else "failed".toList)),
    ("summary".toList, .object report.summary)] ++
    report.listed ++ [("error".toList, .optional report.error)]

end Report

/-! ## Answers -/

/-- What a command says about what it did. -/
structure Answer where
  success : Bool
  command : Text
  /-- What is to be known in particular. -/
  details : Option (List (Text × Json))
  message : Text

namespace Answer

def toJson (answer : Answer) : Json := .object [
  ("success".toList, .bool answer.success),
  ("command".toList, .text answer.command),
  ("data".toList, (answer.details.map Json.object).getD .null),
  ("message".toList, .text answer.message)]

/-- The answer of a command that could not be carried out. -/
def failure (command message : Text) : Answer := { success := false, command, details := none, message }

end Answer

namespace Report

/-- What an answer tells in particular: the numbers, and the documents that matter, which stand in the
place of their number if there was one under their key. -/
def details (report : Report) : List (Text × Json) :=
  match report.result with
  | .findings findings => Table.put "files".toList findings.filesJson report.summary
  | .repairs batch => report.summary ++ [
      ("changed_files".toList, .texts batch.changed),
      ("failures".toList, failuresJson batch)]

def outcome (report : Report) : Text :=
  match report.result with
  | .findings findings =>
    Text.ofNat (findings.count .error) ++ " error(s), ".toList ++
      Text.ofNat (findings.count .warning) ++ " warning(s) in ".toList ++
      Text.ofNat findings.found.length ++ " file(s)".toList
  | .repairs batch =>
    if report.passed then
      Text.ofNat batch.changed.length ++ " of ".toList ++ Text.ofNat batch.total ++
        " files repaired".toList
    else
      Text.ofNat batch.failures.length ++ " of ".toList ++ Text.ofNat batch.total ++
        " files could not be repaired".toList

/-- The answer of the command that made a report, which may have been saved. An error without a text
is not told, and neither is a path without one. -/
def answer (report : Report) (command : Text) (savedAs : Option Text) : Answer where
  success := report.passed
  command
  details := some <| report.details ++
    ((savedAs.filter (!·.isEmpty)).map fun path => ("report_path".toList, .text path)).toList
  message := match report.error.filter (!·.isEmpty) with
    | some error => Text.capitalize command ++ " failed: ".toList ++ error
    | none => report.outcome

end Report

end Scenarist
