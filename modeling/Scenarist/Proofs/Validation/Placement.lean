import Scenarist.Proofs.Document.Position
import Scenarist.Proofs.Validation.Steps

set_option autoImplicit false

/-! # Where findings are

A section numbers its lines by counting the lines above it, a document by the table of the offsets at which lines begin.
Both cut the text at the same places, so a numbered line of a section is the line of the document under its number. Every
check takes the numbers of its findings from such lines or from a header, so a finding is about one line of the document.

Main statements: `Document.hasLine_of_mem_linesOf` (one number, one line), `Checker.judge_congr` (which lines are looked
up), `Checker.exists_range_eq_of_mem_validate` (every finding is about a line that the document has) and
`Checker.validate_withinLines`. -/

namespace Scenarist

open Text

/-! ## The lines of a document -/

namespace Document

variable {document : Document}

/-- Whether a numbered line is the document's line of this number: the table of line starts has an entry for it and cuts
it out of the text, and so does cutting the text into all its lines. -/
structure HasLine (document : Document) (entry : Nat × Text) : Prop where
  lt : entry.1 < document.lineCount
  lineAt? : document.lineAt? entry.1 = some entry.2
  lines : document.lines[entry.1]? = some entry.2

theorem hasLine_of_lineAt? {entry : Nat × Text} (h : document.lineAt? entry.1 = some entry.2) :
    document.HasLine entry := by
  have hline : document.lines[entry.1]? = some entry.2 := by rw [← lineAt?_eq, h]
  have hlt : entry.1 < document.lines.length := (List.getElem?_eq_some_iff.1 hline).1
  rw [lines, List.length_map, ← lineCount_eq] at hlt
  exact ⟨hlt, h, hline⟩

theorem hasLine_of_mem_linesOf {key : SectionKey} {entry : Nat × Text} (h : entry ∈ key.linesOf document.text) :
    document.HasLine entry :=
  hasLine_of_lineAt? (lineAt?_of_mem_linesOf h)

theorem headerLine_lt_lineCount {name : Text} {s : Section} (h : Section.find? name document.text = some s) :
    s.headerLine < document.lineCount := by
  rw [lineCount_eq, SectionKey.lines_of_find? h, Section.headerLine, List.length_append, List.length_cons]
  omega

/-- The range of a line from its first character on lies inside the line. -/
theorem contentRange_bounds (number : Nat) (line : Text) :
    (contentRange number line).startLine = number ∧ (contentRange number line).endLine = number ∧
      (contentRange number line).startColumn ≤ (contentRange number line).endColumn ∧
      (contentRange number line).endColumn = line.length := by
  have hblanks : (leadingBlanks line).length ≤ line.length := by
    conv_rhs => rw [← leadingBlanks_append_stripLeft line, List.length_append]
    omega
  refine ⟨rfl, rfl, ?_, rfl⟩
  unfold contentRange
  dsimp only
  split
  · exact Nat.zero_le _
  · exact hblanks

end Document

namespace Checker

variable {checker : Checker} {options : ValidationOptions} {document : Document} {block : CallBlock}
  {diagnostic : Diagnostic} {body : List (Nat × Text)}

/-! ## Balance -/

namespace Balance

def numbers (balance : Balance) : List Nat := balance.ifs ++ balance.dos ++ balance.found.map (·.1)

/-- A line adds its own number, if any. -/
theorem numbers_step_subset (balance : Balance) (number : Nat) (line : Text) :
    (balance.step number line).numbers ⊆ number :: balance.numbers := by
  intro n hn
  unfold step at hn
  -- a keyword opens a block, closes one or is found to close none, and then the quotes may be found
  cases hkeyword : BlockKeyword.ofLine? line with
  | none => grind [numbers]
  | some keyword => cases keyword <;> grind [numbers]

theorem numbers_foldl_subset (balance : Balance) (body : List (Nat × Text)) :
    (body.foldl (fun balance entry => balance.step entry.1 entry.2) balance).numbers ⊆
      body.map Prod.fst ++ balance.numbers := by
  induction body generalizing balance with
  | nil => exact List.Subset.refl _
  | cons entry body ih =>
      intro n hn
      rcases List.mem_append.1 (ih _ hn) with hn | hn
      · simp [hn]
      · rcases List.mem_cons.1 (numbers_step_subset balance entry.1 entry.2 hn) with rfl | hn
        · simp
        · simp [hn]

end Balance

theorem range_of_mem_checkBalance (h : diagnostic ∈ checkBalance document body) :
    ∃ number ∈ body.map Prod.fst, diagnostic.range = document.lineRange number := by
  obtain ⟨⟨number, code, message⟩, hentry, rfl⟩ := List.mem_map.1 h
  have hnumber : number ∈ (body.foldl (fun balance entry => balance.step entry.1 entry.2) ({} : Balance)).numbers := by
    simp only [List.mem_append, List.mem_map, List.mem_reverse, Prod.mk.injEq] at hentry
    simp only [Balance.numbers, List.mem_append, List.mem_map]
    rcases hentry with (hfound | ⟨n, hn, rfl, -⟩) | ⟨n, hn, rfl, -⟩
    · exact Or.inr ⟨_, hfound, rfl⟩
    · exact Or.inl (Or.inl hn)
    · exact Or.inl (Or.inr hn)
  refine ⟨number, ?_, rfl⟩
  simpa [Balance.numbers] using Balance.numbers_foldl_subset {} body hnumber

/-! ## Calls and steps -/

theorem range_stepFinding (number : Nat) (line : Text) (hints : List Text) :
    (stepFinding document number line hints).range = document.lineRange number := by
  unfold stepFinding
  dsimp only
  split <;> rfl

theorem range_of_mem_checkQuoting (h : diagnostic ∈ checkQuoting document block) :
    ∃ number ∈ block.lineNumbers, diagnostic.range = document.lineRange number := by
  obtain ⟨parameter, hparameter, rfl⟩ := List.mem_map.1 h
  exact ⟨parameter.line, CallBlock.line_mem_lineNumbers_of_mem (List.mem_filter.1 hparameter).1, rfl⟩

theorem range_of_mem_checkParameters {record : Record} (h : diagnostic ∈ checkParameters document record block) :
    ∃ number ∈ block.lineNumbers, diagnostic.range = document.lineRange number := by
  unfold checkParameters at h
  simp only [List.mem_append] at h
  rcases h with (h | h) | h
  · obtain ⟨parameter, hparameter, rfl⟩ := List.mem_map.1 h
    exact ⟨parameter.line, CallBlock.line_mem_lineNumbers_of_mem (List.mem_filter.1 hparameter).1, rfl⟩
  · exact range_of_mem_checkQuoting h
  · split at h
    · exact absurd h List.not_mem_nil
    · rw [List.mem_singleton.1 h]
      exact ⟨block.line, block.line_mem_lineNumbers, rfl⟩

/-- What is found about a call-shaped line is about this line or one that assigns to the call. -/
theorem range_of_mem_judge (h : diagnostic ∈ (checker.judge options document block).findings) :
    ∃ number ∈ block.lineNumbers, diagnostic.range = document.lineRange number := by
  rcases checker.judge_cases options document block with
    ⟨record, -, hjudge⟩ | hjudge | ⟨-, hints, hjudge⟩ | ⟨-, hjudge⟩ <;> rw [hjudge] at h
  · exact range_of_mem_checkParameters h
  · exact absurd h List.not_mem_nil
  · rw [List.mem_singleton.1 h]
    exact ⟨block.line, block.line_mem_lineNumbers, range_stepFinding _ _ _⟩
  · unfold unknownCall at h
    split at h
    · exact range_of_mem_checkQuoting h
    · rw [List.mem_singleton.1 h]
      exact ⟨block.line, block.line_mem_lineNumbers, rfl⟩

theorem range_of_mem_checkSteps {settled : List Nat}
    (h : diagnostic ∈ checker.checkSteps options document body settled) :
    ∃ number ∈ body.map Prod.fst, diagnostic.range = document.lineRange number := by
  obtain ⟨⟨number, line⟩, hentry, hfound⟩ := List.mem_filterMap.1 h
  dsimp only at hfound
  split at hfound
  · exact absurd hfound (by simp)
  · rw [← Option.some.inj hfound]
    exact ⟨number, List.mem_map_of_mem hentry, range_stepFinding _ _ _⟩

/-! ## Looking lines up -/

section Congruence

variable {other : Document}

/-- A finding looks up the line that it is about. -/
theorem finding_congr {number : Nat} (h : other.lineAt number = document.lineAt number) (severity : Severity)
    (code : DiagnosticCode) (message : Text) :
    finding other number severity code message = finding document number severity code message := by
  unfold finding Document.lineRange
  rw [h]

theorem stepFinding_congr {number : Nat} (h : other.lineAt number = document.lineAt number) (line : Text)
    (hints : List Text) : stepFinding other number line hints = stepFinding document number line hints := by
  unfold stepFinding
  simp only [finding_congr h]

theorem checkQuoting_congr (h : ∀ number ∈ block.lineNumbers, other.lineAt number = document.lineAt number) :
    checkQuoting other block = checkQuoting document block := by
  apply List.map_congr_left
  intro parameter hparameter
  exact finding_congr (h _ (CallBlock.line_mem_lineNumbers_of_mem (List.mem_filter.1 hparameter).1)) _ _ _

theorem checkParameters_congr (record : Record)
    (h : ∀ number ∈ block.lineNumbers, other.lineAt number = document.lineAt number) :
    checkParameters other record block = checkParameters document record block := by
  have hextra : ∀ parameter ∈ block.parameters.filter (·.name ∉ expectedParameters record),
      finding other parameter.line .error .extraScenarioParameter (Message.extraParameter parameter.name) =
        finding document parameter.line .error .extraScenarioParameter (Message.extraParameter parameter.name) := by
    intro parameter hparameter
    exact finding_congr (h _ (CallBlock.line_mem_lineNumbers_of_mem (List.mem_filter.1 hparameter).1)) _ _ _
  unfold checkParameters
  simp only [List.map_congr_left hextra, checkQuoting_congr h, finding_congr (h _ block.line_mem_lineNumbers)]

/-- To judge a call-shaped line, only this line and those that assign to it are looked up. -/
theorem judge_congr (checker : Checker) (options : ValidationOptions)
    (h : ∀ number ∈ block.lineNumbers, other.lineAt number = document.lineAt number) :
    checker.judge options other block = checker.judge options document block := by
  have hline := h _ block.line_mem_lineNumbers
  have hstep : checker.stepVerdict? options other block = checker.stepVerdict? options document block := by
    unfold stepVerdict?
    simp only [hline, stepFinding_congr hline]
  unfold judge
  simp only [checkParameters_congr _ h, hstep, checkQuoting_congr h, finding_congr hline]

end Congruence

/-! ## Declarations -/

theorem range_of_mem_checkCompleteness {headerLine : Nat} {calls : List Text}
    (h : diagnostic ∈ checker.checkCompleteness document headerLine calls) :
    diagnostic.range = document.lineRange headerLine := by
  obtain ⟨message, rfl⟩ := exists_finding_of_mem_checkCompleteness h
  rfl

theorem range_of_mem_checkDescription (h : diagnostic ∈ checkDescription document) :
    ∃ entry ∈ SectionKey.extended.linesOf document.text, diagnostic.range = document.lineRange entry.1 := by
  unfold checkDescription at h
  split at h
  · exact absurd h List.not_mem_nil
  · obtain ⟨entry, hentry, rfl⟩ := List.mem_map.1 h
    exact ⟨entry, List.mem_of_find?_eq_some (Option.mem_toList.1 hentry), rfl⟩

/-! ## A document -/

theorem lt_lineCount_of_mem_body {number : Nat} (h : number ∈ (bodyOf document).map Prod.fst) :
    number < document.lineCount := by
  obtain ⟨entry, hentry, rfl⟩ := List.mem_map.1 h
  exact (Document.hasLine_of_mem_linesOf hentry).lt

/-- The lines of the calls are lines of the document. -/
theorem lt_lineCount_of_mem_lineNumbers (hblock : block ∈ blocksOf document) {number : Nat}
    (h : number ∈ block.lineNumbers) : number < document.lineCount := by
  apply lt_lineCount_of_mem_body
  exact (CallBlock.lineNumbers_readFrom_sublist none (bodyOf document)).subset (List.mem_flatMap.2 ⟨block, hblock, h⟩)

/-- Every finding is about a line that the document has. -/
theorem exists_range_eq_of_mem_validate (h : diagnostic ∈ checker.validate document options) :
    ∃ number < document.lineCount, diagnostic.range = document.lineRange number := by
  cases hscript : SectionKey.script.find? document.text with
  | none =>
      rw [(validate_of_scriptless hscript options).2] at h
      exact absurd h List.not_mem_nil
  | some script =>
      rw [validate_eq hscript] at h
      simp only [List.mem_append] at h
      rcases h with (((h | h) | h) | h) | h
      · obtain ⟨number, hnumber, hrange⟩ := range_of_mem_checkBalance h
        exact ⟨number, lt_lineCount_of_mem_body hnumber, hrange⟩
      · obtain ⟨block, hblock, hfound⟩ := List.mem_flatMap.1 h
        obtain ⟨number, hnumber, hrange⟩ := range_of_mem_judge hfound
        exact ⟨number, lt_lineCount_of_mem_lineNumbers hblock hnumber, hrange⟩
      · unfold stepFindings at h
        split at h
        · obtain ⟨number, hnumber, hrange⟩ := range_of_mem_checkSteps h
          exact ⟨number, lt_lineCount_of_mem_body hnumber, hrange⟩
        · exact absurd h List.not_mem_nil
      · exact ⟨script.headerLine, Document.headerLine_lt_lineCount hscript, range_of_mem_checkCompleteness h⟩
      · obtain ⟨entry, hentry, hrange⟩ := range_of_mem_checkDescription h
        exact ⟨entry.1, (Document.hasLine_of_mem_linesOf hentry).lt, hrange⟩

/-- A number means the same line in every section and in the document, and a validation looks up no others: the calls and
their assignments stand on lines of the document, a call is judged alike whatever a look-up gives beyond these, and each
finding is about one of them, its columns inside the line. -/
theorem validate_withinLines (checker : Checker) (document : Document) (options : ValidationOptions) :
    (∀ key : SectionKey, ∀ entry ∈ key.linesOf document.text, document.HasLine entry) ∧
      (∀ name s, Section.find? name document.text = some s → ∀ entry ∈ s.numberedLines, document.HasLine entry) ∧
      (∀ block ∈ blocksOf document, (∀ number ∈ block.lineNumbers, number < document.lineCount) ∧
        ∀ other : Document, (∀ number < document.lineCount, other.lineAt number = document.lineAt number) →
          checker.judge options other block = checker.judge options document block) ∧
      ∀ diagnostic ∈ checker.validate document options,
        diagnostic.range.startLine < document.lineCount ∧
          diagnostic.range.endLine = diagnostic.range.startLine ∧
          diagnostic.range.startColumn ≤ diagnostic.range.endColumn ∧
          diagnostic.range.endColumn ≤ (document.lineAt diagnostic.range.startLine).length := by
  refine ⟨fun key entry hentry => Document.hasLine_of_mem_linesOf hentry,
    fun name s hfind entry hentry => Document.hasLine_of_lineAt? (Document.lineAt?_of_mem_numberedLines hfind hentry),
    ?_, ?_⟩
  · intro block hblock
    have hlines : ∀ number ∈ block.lineNumbers, number < document.lineCount :=
      fun number hnumber => lt_lineCount_of_mem_lineNumbers hblock hnumber
    refine ⟨hlines, ?_⟩
    intro other hsame
    exact judge_congr checker options fun number hnumber => hsame number (hlines number hnumber)
  · intro diagnostic hfound
    obtain ⟨number, hlt, hrange⟩ := exists_range_eq_of_mem_validate hfound
    obtain ⟨hstart, hend, hcolumns, hlength⟩ := Document.contentRange_bounds number (document.lineAt number)
    rw [hrange, Document.lineRange, hstart, hend]
    exact ⟨hlt, rfl, hcolumns, hlength.le⟩

def openLoop : Document :=
  { uri := "/a".toList, text := "ТекстСценария: |\r\n    If \"a\r\r\n    И Войти\r\n\t Do\r".toList }

def closedLoop : Document := { openLoop with text := openLoop.text ++ "\nEndDo".toList }

theorem validate_withinLines_openLoop :
    (∃ block ∈ blocksOf openLoop, block.line = 2 ∧ 2 < openLoop.lineCount ∧
        buttonChecker.judge .full closedLoop block = buttonChecker.judge .full openLoop block) ∧
      ∃ diagnostic ∈ buttonChecker.validate openLoop .full, diagnostic.code = .unclosedDo ∧
        diagnostic.range = ⟨3, 2, 3, 4⟩ ∧ 3 < openLoop.lineCount ∧ 4 ≤ (openLoop.lineAt 3).length := by
  obtain ⟨-, -, hcalls, hfindings⟩ := validate_withinLines buttonChecker openLoop .full
  have hblock : ⟨2, "И".toList, "Войти".toList, 4, 6, []⟩ ∈ blocksOf openLoop := by decide +kernel
  have hsame : ∀ number < openLoop.lineCount, closedLoop.lineAt number = openLoop.lineAt number := by decide +kernel
  have hfound : ⟨⟨3, 2, 3, 4⟩, Message.unmatchedDo, .error, .unclosedDo⟩ ∈ buttonChecker.validate openLoop .full := by
    decide +kernel
  obtain ⟨hlines, hjudge⟩ := hcalls _ hblock
  obtain ⟨hlt, -, -, hcolumns⟩ := hfindings _ hfound
  exact ⟨⟨_, hblock, rfl, hlines 2 (CallBlock.line_mem_lineNumbers _), hjudge closedLoop hsame⟩,
    _, hfound, rfl, rfl, hlt, hcolumns⟩

end Checker

end Scenarist
