import Scenarist.Proofs.Body
import Scenarist.Proofs.Validation
import Mathlib.Data.List.Nodup

set_option autoImplicit false

/-! # Unknown steps are reported once

Two passes look for unknown steps: the pass over the calls reports a call-shaped line that reads like a
step, and the pass over the steps reports what is left. The first pass settles the lines that it has dealt
with. Every line of a script belongs to one call at most, so the lines that the two passes report are
different; together they are the lines with a keyword that are no known step and no part of a call.

Main statements: `judge_cases` (what a call-shaped line can turn out to be), `mem_unknownStepLines_iff` (the
lines that are reported) and `unknownStep_once`. -/

namespace Scenarist

open Text

/-! ## Lines of findings -/

def linesWith (code : DiagnosticCode) (findings : List Diagnostic) : List Nat :=
  (findings.filter (·.code = code)).map (·.line)

theorem linesWith_append (code : DiagnosticCode) (findings others : List Diagnostic) :
    linesWith code (findings ++ others) = linesWith code findings ++ linesWith code others := by
  rw [linesWith, List.filter_append, List.map_append]
  rfl

theorem linesWith_flatMap {α : Type} (code : DiagnosticCode) (findingsOf : α → List Diagnostic)
    (items : List α) :
    linesWith code (items.flatMap findingsOf) = items.flatMap fun item => linesWith code (findingsOf item) := by
  rw [linesWith, List.filter_flatMap, List.map_flatMap]
  rfl

theorem linesWith_eq_nil {code : DiagnosticCode} {findings : List Diagnostic}
    (h : ∀ diagnostic ∈ findings, diagnostic.code ≠ code) : linesWith code findings = [] := by
  rw [linesWith, List.filter_eq_nil_iff.2 fun diagnostic hmem => by simpa using h diagnostic hmem]
  rfl

namespace Checker

variable {checker : Checker} {options : ValidationOptions} {document : Document} {block : CallBlock}

/-! ## A call-shaped line -/

/-- A step that the pass over the calls reports is not known. -/
theorem stepVerdict?_cases {verdict : Verdict}
    (h : checker.stepVerdict? options document block = some verdict) :
    verdict = .step none ∨
      checker.catalog.isKnown (strip (document.lineAt block.line)) = false ∧
        ∃ hints, verdict = .step (some (stepFinding document block.line
          (strip (document.lineAt block.line)) hints)) := by
  unfold stepVerdict? at h
  dsimp only at h
  split at h
  · exact Or.inl (Option.some.inj h).symm
  next hknown =>
  split at h
  · exact Or.inl (Option.some.inj h).symm
  split at h
  · next hlike =>
    split at h
    · refine Or.inr ⟨?_, _, (Option.some.inj h).symm⟩
      simpa [hlike] using hknown
    · exact Or.inl (Option.some.inj h).symm
  · cases h

/-- What a call-shaped line can turn out to be: a call of a known scenario, a step that is not reported or
one that is, or a call of an unknown scenario. -/
theorem judge_cases (checker : Checker) (options : ValidationOptions) (document : Document)
    (block : CallBlock) :
    (∃ record, checker.records.get? block.name = some record ∧
        checker.judge options document block = .call (checkParameters document record block)) ∨
      checker.judge options document block = .step none ∨
      (checker.catalog.isKnown (strip (document.lineAt block.line)) = false ∧
        ∃ hints, checker.judge options document block = .step (some (stepFinding document block.line
          (strip (document.lineAt block.line)) hints))) ∨
      checker.records.get? block.name = none ∧
        checker.judge options document block = checker.unknownCall options document block := by
  cases hname : checker.records.get? block.name with
  | some record => exact Or.inl ⟨record, rfl, judge_of_known hname⟩
  | none =>
      refine Or.inr ?_
      by_cases hparameters : block.parameters = []
      · rw [judge_of_no_parameters hname hparameters]
        split
        · exact Or.inr (Or.inr ⟨rfl, rfl⟩)
        · cases hverdict : checker.stepVerdict? options document block with
          | some verdict =>
              rcases stepVerdict?_cases hverdict with rfl | ⟨hknown, hints, rfl⟩
              · exact Or.inl rfl
              · exact Or.inr (Or.inl ⟨hknown, hints, rfl⟩)
          | none =>
              rw [Option.getD_none]
              split
              · exact Or.inl rfl
              · exact Or.inr (Or.inr ⟨rfl, rfl⟩)
      · exact Or.inr (Or.inr ⟨rfl, judge_of_parameters hname hparameters⟩)

theorem exists_unknownCall (checker : Checker) (options : ValidationOptions) (document : Document)
    (block : CallBlock) : ∃ findings, checker.unknownCall options document block = .call findings := by
  unfold unknownCall
  split <;> exact ⟨_, rfl⟩

/-- Whether the pass over the calls reports a line as an unknown step. -/
def isReported (checker : Checker) (options : ValidationOptions) (document : Document)
    (block : CallBlock) : Bool :=
  match checker.judge options document block with
  | .step reported => reported.isSome
  | .call _ => false

/-- Whether the pass over the calls reports a line as a call of an unknown scenario. -/
def isUnknownCall (checker : Checker) (options : ValidationOptions) (document : Document)
    (block : CallBlock) : Bool :=
  (checker.judge options document block).isCall && (checker.records.get? block.name).isNone &&
    !checker.records.isEmpty

theorem code_checkQuoting {diagnostic : Diagnostic} (h : diagnostic ∈ checkQuoting document block) :
    diagnostic.code = .missingQuotes := by
  obtain ⟨parameter, -, rfl⟩ := List.mem_map.1 h
  rfl

theorem code_checkParameters {record : Record} {diagnostic : Diagnostic}
    (h : diagnostic ∈ checkParameters document record block) :
    diagnostic.code = .extraScenarioParameter ∨ diagnostic.code = .missingQuotes ∨
      diagnostic.code = .missingScenarioParameter := by
  unfold checkParameters at h
  simp only [List.mem_append] at h
  rcases h with (h | h) | h
  · obtain ⟨parameter, -, rfl⟩ := List.mem_map.1 h
    exact Or.inl rfl
  · exact Or.inr (Or.inl (code_checkQuoting h))
  · split at h
    · exact absurd h List.not_mem_nil
    · rw [List.mem_singleton.1 h]
      exact Or.inr (Or.inr rfl)

theorem line_stepFinding (number : Nat) (line : Text) (hints : List Text) :
    (stepFinding document number line hints).line = number := by
  unfold stepFinding
  dsimp only
  split <;> rfl

/-- A call-shaped line is reported as an unknown step at most once, and on its own line. -/
theorem linesWith_unknownStep_judge (checker : Checker) (options : ValidationOptions)
    (document : Document) (block : CallBlock) :
    linesWith .unknownStep (checker.judge options document block).findings =
      if checker.isReported options document block then [block.line] else [] := by
  unfold isReported
  rcases checker.judge_cases options document block with
    ⟨record, -, hjudge⟩ | hjudge | ⟨-, hints, hjudge⟩ | ⟨-, hjudge⟩
  · rw [hjudge]
    refine linesWith_eq_nil fun diagnostic hmem => ?_
    rcases code_checkParameters hmem with h | h | h <;> rw [h] <;> decide
  · rw [hjudge]
    rfl
  · rw [hjudge]
    simp [linesWith, Verdict.findings, code_stepFinding, line_stepFinding]
  · rw [hjudge]
    unfold unknownCall
    split
    · refine linesWith_eq_nil fun diagnostic hmem => ?_
      rw [code_checkQuoting hmem]
      decide
    · rfl

theorem linesWith_unknownScenario_judge (checker : Checker) (options : ValidationOptions)
    (document : Document) (block : CallBlock) :
    linesWith .unknownScenario (checker.judge options document block).findings =
      if checker.isUnknownCall options document block then [block.line] else [] := by
  unfold isUnknownCall
  rcases checker.judge_cases options document block with
    ⟨record, hname, hjudge⟩ | hjudge | ⟨-, hints, hjudge⟩ | ⟨hname, hjudge⟩
  · rw [hjudge, hname]
    simp only [Verdict.isCall, Option.isNone_some, Bool.and_false, Bool.false_and, Bool.false_eq_true,
      if_false]
    refine linesWith_eq_nil fun diagnostic hmem => ?_
    rcases code_checkParameters hmem with h | h | h <;> rw [h] <;> decide
  · rw [hjudge]
    rfl
  · rw [hjudge]
    simp [linesWith, Verdict.findings, code_stepFinding, Verdict.isCall]
  · rw [hjudge, hname]
    unfold unknownCall
    cases hempty : checker.records.isEmpty with
    | true =>
        simp only [if_true, Verdict.isCall, Bool.not_true, Bool.and_false, Bool.false_eq_true, if_false]
        refine linesWith_eq_nil fun diagnostic hmem => ?_
        rw [code_checkQuoting hmem]
        decide
    | false => rfl

/-! ## The lines of a script -/

/-- No line belongs to two calls. -/
theorem nodup_lineNumbers (document : Document) :
    ((blocksOf document).flatMap CallBlock.lineNumbers).Nodup :=
  (SectionKey.nodup_linesOf .script document.text).sublist
    (CallBlock.lineNumbers_readFrom_sublist none (bodyOf document))

theorem eq_of_mem_lineNumbers {other : CallBlock} {number : Nat} (hblock : block ∈ blocksOf document)
    (hother : other ∈ blocksOf document) (h : number ∈ block.lineNumbers)
    (h' : number ∈ other.lineNumbers) : block = other := by
  have hnodup := nodup_lineNumbers document
  generalize blocksOf document = blocks at hblock hother hnodup
  induction blocks with
  | nil => exact absurd hblock List.not_mem_nil
  | cons first blocks ih =>
      rw [List.flatMap_cons] at hnodup
      obtain ⟨-, hrest, hdisjoint⟩ := List.nodup_append.1 hnodup
      have hlater : ∀ found ∈ blocks, number ∈ found.lineNumbers → number ∉ first.lineNumbers :=
        fun found hfound hmem hfirst =>
          hdisjoint number hfirst number (List.mem_flatMap.2 ⟨found, hfound, hmem⟩) rfl
      rcases List.mem_cons.1 hblock with rfl | hin <;> rcases List.mem_cons.1 hother with rfl | hin'
      · rfl
      · exact absurd h (hlater other hin' h')
      · exact absurd h' (hlater block hin h)
      · exact ih hin hin' hrest

/-- A call stands on a line of the script that opens it. -/
theorem exists_line_of_mem_blocksOf (hblock : block ∈ blocksOf document) :
    ∃ line, (block.line, line) ∈ bodyOf document ∧
      CallBlock.openedBy? block.line line = some block.bare := by
  have hbare : block.bare ∈ (CallBlock.ofText document.text).map CallBlock.bare :=
    List.mem_map_of_mem hblock
  rw [bare_ofText] at hbare
  obtain ⟨⟨number, line⟩, hentry, hopen⟩ := List.mem_filterMap.1 hbare
  obtain ⟨hnumber, -⟩ := CallBlock.line_of_openedBy? hopen
  obtain rfl : block.line = number := hnumber
  exact ⟨line, (List.mem_filter.1 hentry).1, hopen⟩

/-- A line that opens a call has the shape of a step. -/
theorem isSome_ofStep?_of_openedBy? {number : Nat} {line : Text} {opened : CallBlock}
    (hfeed : '\n' ∉ line) (h : CallBlock.openedBy? number line = some opened) :
    (StepLine.ofStep? (strip line)).isSome = true := by
  obtain ⟨hline, hkept⟩ := Option.filter_eq_some_iff.1 h
  obtain ⟨parts, hparts, rfl⟩ := Option.map_eq_some_iff.1 hline
  have hstrip := StepLine.ofCall?_strip hfeed
  have hne : (strip parts.content).isEmpty = false := by
    simp only [Bool.and_eq_true, Bool.not_eq_true'] at hkept
    exact hkept.1
  rw [hparts, Option.map_some, Option.filter_some, hne] at hstrip
  cases hcall : StepLine.ofCall? (strip line) with
  | none =>
      rw [hcall] at hstrip
      exact absurd hstrip (by simp)
  | some found => rw [StepLine.ofStep?_of_ofCall? hcall]; rfl

/-! ## The lines that are settled -/

/-- The lines of the calls that were accepted as calls: their own and those of their assignments. -/
def acceptedLines (checker : Checker) (options : ValidationOptions) (document : Document) : List Nat :=
  ((blocksOf document).filter fun block => (checker.judge options document block).isCall).flatMap
    CallBlock.lineNumbers

/-- The lines that the pass over the calls reports as unknown steps. -/
def reportedLines (checker : Checker) (options : ValidationOptions) (document : Document) : List Nat :=
  ((blocksOf document).filter (checker.isReported options document)).map (·.line)

theorem mem_settledIn_iff {number : Nat} :
    number ∈ checker.settledIn options document ↔
      number ∈ checker.acceptedLines options document ∨
        number ∈ checker.reportedLines options document := by
  unfold settledIn acceptedLines reportedLines isReported
  simp only [List.mem_flatMap, List.mem_map, List.mem_filter]
  constructor
  · rintro ⟨block, hblock, hmem⟩
    cases hjudge : checker.judge options document block with
    | call findings =>
        rw [hjudge] at hmem
        exact Or.inl ⟨block, ⟨hblock, by rw [hjudge]; rfl⟩, hmem⟩
    | step reported =>
        rw [hjudge, Verdict.settled] at hmem
        split at hmem
        · next hreported =>
          exact Or.inr ⟨block, ⟨hblock, by rw [hjudge]; exact hreported⟩, (List.mem_singleton.1 hmem).symm⟩
        · exact absurd hmem List.not_mem_nil
  · rintro (⟨block, ⟨hblock, hcall⟩, hmem⟩ | ⟨block, ⟨hblock, hreported⟩, rfl⟩)
    · refine ⟨block, hblock, ?_⟩
      cases hjudge : checker.judge options document block with
      | call findings => exact hmem
      | step reported =>
          rw [hjudge] at hcall
          exact absurd hcall Bool.false_ne_true
    · refine ⟨block, hblock, ?_⟩
      cases hjudge : checker.judge options document block with
      | call findings => exact List.mem_cons_self
      | step reported =>
          rw [hjudge] at hreported
          rw [Verdict.settled, if_pos hreported]
          exact List.mem_singleton_self _

/-- A line that the pass over the calls reports is no part of an accepted call. -/
theorem not_mem_acceptedLines_of_isReported (hblock : block ∈ blocksOf document)
    (h : checker.isReported options document block = true) :
    block.line ∉ checker.acceptedLines options document := by
  intro hmem
  obtain ⟨other, hother, hline⟩ := List.mem_flatMap.1 hmem
  obtain ⟨hother, hcall⟩ := List.mem_filter.1 hother
  obtain rfl := eq_of_mem_lineNumbers hblock hother List.mem_cons_self hline
  unfold isReported at h
  cases hjudge : checker.judge options document block with
  | call findings =>
      rw [hjudge] at h
      exact Bool.noConfusion h
  | step reported =>
      rw [hjudge] at hcall
      exact Bool.noConfusion hcall

/-! ## The findings of the other checks -/

/-- Whether a code is one of unbalanced blocks and quotes. -/
def isBalanceCode (code : DiagnosticCode) : Bool :=
  code = .unclosedIf || code = .unclosedDo || code = .unclosedQuote

theorem code_found_step {balance : Balance} (number : Nat) (line : Text)
    (h : ∀ entry ∈ balance.found, isBalanceCode entry.2.1 = true) :
    ∀ entry ∈ (balance.step number line).found, isBalanceCode entry.2.1 = true := by
  have hadd : ∀ (entry : Nat × DiagnosticCode × Text) (found : List (Nat × DiagnosticCode × Text)),
      isBalanceCode entry.2.1 = true → (∀ e ∈ found, isBalanceCode e.2.1 = true) →
        ∀ e ∈ entry :: found, isBalanceCode e.2.1 = true :=
    fun entry found hentry hfound => List.forall_mem_cons.2 ⟨hentry, hfound⟩
  unfold Balance.step
  extract_lets middle
  have hmiddle : ∀ entry ∈ middle.found, isBalanceCode entry.2.1 = true := by
    unfold middle
    split
    · exact h
    · exact h
    · split
      · exact h
      · exact hadd _ _ rfl h
    · split
      · exact h
      · exact hadd _ _ rfl h
    · exact h
  split
  · exact hmiddle
  · exact hadd _ _ rfl hmiddle

theorem code_checkBalance {body : List (Nat × Text)} {diagnostic : Diagnostic}
    (h : diagnostic ∈ checkBalance document body) : isBalanceCode diagnostic.code = true := by
  have hfound : ∀ balance : Balance, (∀ entry ∈ balance.found, isBalanceCode entry.2.1 = true) →
      ∀ entry ∈ (body.foldl (fun balance entry => balance.step entry.1 entry.2) balance).found,
        isBalanceCode entry.2.1 = true := by
    clear h
    induction body with
    | nil => exact fun _ h => h
    | cons entry body ih => exact fun _ h => ih _ (code_found_step entry.1 entry.2 h)
  obtain ⟨⟨number, code, message⟩, hentry, rfl⟩ := List.mem_map.1 h
  show isBalanceCode code = true
  simp only [List.mem_append, List.mem_map, Prod.mk.injEq] at hentry
  rcases hentry with (hentry | ⟨-, -, -, rfl, -⟩) | ⟨-, -, -, rfl, -⟩
  · exact hfound {} (List.forall_mem_nil _) _ (List.mem_reverse.1 hentry)
  · rfl
  · rfl

theorem exists_finding_of_mem_checkCompleteness {headerLine : Nat} {calls : List Text} {diagnostic : Diagnostic}
    (h : diagnostic ∈ checker.checkCompleteness document headerLine calls) :
    ∃ message, diagnostic = finding document headerLine .warning .incompleteBlock message := by
  unfold checkCompleteness at h
  dsimp only at h
  rcases List.mem_append.1 h with h | h <;> split at h
  · exact absurd h List.not_mem_nil
  · exact ⟨_, List.mem_singleton.1 h⟩
  · exact absurd h List.not_mem_nil
  · exact ⟨_, List.mem_singleton.1 h⟩

theorem code_checkCompleteness {headerLine : Nat} {calls : List Text} {diagnostic : Diagnostic}
    (h : diagnostic ∈ checker.checkCompleteness document headerLine calls) :
    diagnostic.code = .incompleteBlock := by
  obtain ⟨message, rfl⟩ := exists_finding_of_mem_checkCompleteness h
  rfl

theorem code_checkDescription {diagnostic : Diagnostic} (h : diagnostic ∈ checkDescription document) :
    diagnostic.code = .defaultDescription := by
  unfold checkDescription at h
  split at h
  · exact absurd h List.not_mem_nil
  · obtain ⟨entry, -, rfl⟩ := List.mem_map.1 h
    rfl

theorem code_stepFindings {diagnostic : Diagnostic}
    (h : diagnostic ∈ checker.stepFindings options document) : diagnostic.code = .unknownStep := by
  unfold stepFindings at h
  split at h
  · rw [checkSteps_eq] at h
    obtain ⟨step, -, rfl⟩ := List.mem_map.1 h
    exact code_stepFinding _ _ _
  · exact absurd h List.not_mem_nil

/-- Whether a code is one that the passes over the calls and over the steps report. -/
def isCallCode : DiagnosticCode → Bool
  | .unknownStep | .unknownScenario | .extraScenarioParameter | .missingScenarioParameter | .missingQuotes => true
  | _ => false

/-- What is found about a call-shaped line is about steps or calls. -/
theorem isCallCode_judge {diagnostic : Diagnostic}
    (h : diagnostic ∈ (checker.judge options document block).findings) : isCallCode diagnostic.code = true := by
  rcases checker.judge_cases options document block with
    ⟨record, -, hjudge⟩ | hjudge | ⟨-, hints, hjudge⟩ | ⟨-, hjudge⟩ <;> rw [hjudge] at h
  · rcases code_checkParameters h with hcode | hcode | hcode <;> rw [hcode] <;> rfl
  · exact absurd h List.not_mem_nil
  · rw [List.mem_singleton.1 h, code_stepFinding]
    rfl
  · unfold unknownCall at h
    split at h
    · rw [code_checkQuoting h]
      rfl
    · rw [List.mem_singleton.1 h]
      rfl

/-- The checks of balance, declarations and description report neither steps nor calls. -/
theorem code_ne_of_mem_others (checker : Checker) (document : Document) (script : Section)
    (calls : List Text) {code : DiagnosticCode} (hcode : isCallCode code = true) {diagnostic : Diagnostic}
    (h : diagnostic ∈ checkBalance document (bodyOf document) ∨
      diagnostic ∈ checker.checkCompleteness document script.headerLine calls ∨
      diagnostic ∈ checkDescription document) : diagnostic.code ≠ code := by
  have hclosed : ∀ found : DiagnosticCode,
      isBalanceCode found = true ∨ found = .incompleteBlock ∨ found = .defaultDescription →
        found ≠ code := by
    rintro found hfound rfl
    cases found <;> simp_all [isBalanceCode, isCallCode]
  rcases h with h | h | h
  · exact hclosed _ (Or.inl (code_checkBalance h))
  · exact hclosed _ (Or.inr (Or.inl (code_checkCompleteness h)))
  · exact hclosed _ (Or.inr (Or.inr (code_checkDescription h)))

theorem flatMap_ite_singleton {α β : Type} (keep : α → Bool) (f : α → β) (items : List α) :
    (items.flatMap fun item => if keep item then [f item] else []) = (items.filter keep).map f := by
  induction items with
  | nil => rfl
  | cons item items ih =>
      rw [List.flatMap_cons, ih, List.filter_cons]
      split <;> rfl

/-! ## The lines that are reported -/

/-- The lines that are reported as unknown steps, by one pass and by the other. -/
def unknownStepLines (checker : Checker) (options : ValidationOptions) (document : Document) : List Nat :=
  checker.reportedLines options document ++
    (checker.unknownSteps options document).map Prod.fst

/-- The lines that are reported as calls of unknown scenarios. -/
def unknownCallLines (checker : Checker) (options : ValidationOptions) (document : Document) : List Nat :=
  ((blocksOf document).filter (checker.isUnknownCall options document)).map (·.line)

theorem linesWith_callFindings {code : DiagnosticCode} {keep : CallBlock → Bool}
    (h : ∀ block, linesWith code (checker.judge options document block).findings =
      if keep block then [block.line] else []) :
    linesWith code (checker.callFindings options document) =
      ((blocksOf document).filter keep).map (·.line) := by
  unfold callFindings
  rw [linesWith_flatMap, ← flatMap_ite_singleton]
  exact List.flatMap_congr fun block _ => h block

/-- Steps and calls are reported by the passes over the calls and over the steps alone. -/
theorem linesWith_validate {code : DiagnosticCode} (hcode : isCallCode code = true) :
    linesWith code (checker.validate document options) =
      linesWith code (checker.callFindings options document) ++
        linesWith code (checker.stepFindings options document) := by
  cases hscript : SectionKey.script.find? document.text with
  | none =>
      obtain ⟨hbody, hvalidate⟩ := @validate_of_scriptless checker document hscript options
      have hblocks : blocksOf document = [] := by rw [blocksOf, hbody]; rfl
      unfold callFindings stepFindings
      rw [hvalidate, hblocks, hbody]
      cases checker.checksSteps options <;> rfl
  | some script =>
      rw [validate_eq hscript]
      have hothers := fun (diagnostic : Diagnostic) =>
        @code_ne_of_mem_others checker document script (checker.callsIn options document) code hcode
          diagnostic
      simp only [linesWith_append]
      rw [linesWith_eq_nil fun diagnostic h => hothers diagnostic (Or.inl h),
        linesWith_eq_nil fun diagnostic h => hothers diagnostic (Or.inr (Or.inl h)),
        linesWith_eq_nil fun diagnostic h => hothers diagnostic (Or.inr (Or.inr h))]
      simp

theorem linesWith_unknownStep_validate (checker : Checker) (options : ValidationOptions)
    (document : Document) :
    linesWith .unknownStep (checker.validate document options) =
      checker.unknownStepLines options document := by
  rw [linesWith_validate rfl,
    linesWith_callFindings fun block => checker.linesWith_unknownStep_judge options document block]
  unfold unknownStepLines reportedLines
  refine congrArg _ ?_
  unfold stepFindings unknownSteps
  split
  · rw [checkSteps_eq, linesWith, List.filter_eq_self.2, List.map_map]
    · exact List.map_congr_left fun step _ => line_stepFinding _ _ _
    · intro diagnostic hmem
      obtain ⟨step, -, rfl⟩ := List.mem_map.1 hmem
      simp [code_stepFinding]
  · rfl

theorem linesWith_unknownScenario_validate (checker : Checker) (options : ValidationOptions)
    (document : Document) :
    linesWith .unknownScenario (checker.validate document options) =
      checker.unknownCallLines options document := by
  have hsteps : linesWith .unknownScenario (checker.stepFindings options document) = [] := by
    refine linesWith_eq_nil fun diagnostic hmem => ?_
    rw [code_stepFindings hmem]
    decide
  rw [linesWith_validate rfl, hsteps, List.append_nil,
    linesWith_callFindings fun block => checker.linesWith_unknownScenario_judge options document block]
  rfl

/-! ## Which lines these are -/

/-- Whether a line of a script is an unknown step: it has the shape of a step, is no remark, row of a table
or mark of a quoted block, is not known, and is no part of a call that was accepted. -/
def IsUnknownStepLine (checker : Checker) (options : ValidationOptions) (document : Document)
    (number : Nat) : Prop :=
  ∃ line, (number, line) ∈ bodyOf document ∧ (StepLine.ofStep? (strip line)).isSome = true ∧
    startsWith ['#'] (strip line) = false ∧ startsWith ['|'] (strip line) = false ∧
    startsWith ['"', '"', '"'] (strip line) = false ∧
    checker.catalog.isKnown (strip line) = false ∧
    number ∉ checker.acceptedLines options document

/-- What has the shape of a step is no remark, row of a table or mark of a quoted block. -/
theorem startsWith_of_ofStep? {line : Text} (h : (StepLine.ofStep? (strip line)).isSome = true) :
    startsWith ['#'] (strip line) = false ∧ startsWith ['|'] (strip line) = false ∧
      startsWith ['"', '"', '"'] (strip line) = false ∧ (strip line).head? ≠ some '|' := by
  obtain ⟨parts, hparts⟩ := Option.isSome_iff_exists.1 h
  obtain ⟨word, hword, w, hw, c, hc, hkey⟩ := StepLine.exists_head_of_parse? hparts (by decide)
  rw [stripLeft_strip] at hc
  have hne : ∀ d ∈ ['#', '|', '"'], c ≠ d := by
    rintro d hd rfl
    exact letterKey_ne_mark hword (List.mem_of_mem_head? hw) hd hkey
  obtain ⟨rest, hrest⟩ : ∃ rest, strip line = c :: rest := by
    cases hline : strip line with
    | nil => simp [hline] at hc
    | cons d rest =>
        rw [hline] at hc
        exact ⟨rest, by rw [Option.some.inj hc]⟩
  have hhash := (hne '#' (by simp)).symm
  have hbar := hne '|' (by simp)
  have hquote := (hne '"' (by simp)).symm
  rw [hrest]
  simp [startsWith, after?, hhash, hbar, hbar.symm, hquote]

theorem mem_unknownIn_iff {settled : List Nat} {number : Nat} :
    number ∈ (checker.unknownIn (bodyOf document) settled).map Prod.fst ↔
      ∃ line, (number, line) ∈ bodyOf document ∧
        checker.isUnknownStep settled number (strip line) = true := by
  unfold unknownIn
  simp only [List.mem_map, List.mem_filter, Prod.exists, Prod.mk.injEq, exists_and_right, exists_eq_right]
  constructor
  · rintro ⟨text, ⟨n, line, hline, rfl, rfl⟩, hunknown⟩
    exact ⟨line, hline, hunknown⟩
  · rintro ⟨line, hline, hunknown⟩
    exact ⟨strip line, ⟨number, line, hline, rfl, rfl⟩, hunknown⟩

theorem isUnknownStep_iff {settled : List Nat} {number : Nat} {text : Text} :
    checker.isUnknownStep settled number text = true ↔
      number ∉ settled ∧ text.head? ≠ some '|' ∧ (StepLine.ofStep? text).isSome = true ∧
        checker.catalog.isKnown text = false := by
  unfold isUnknownStep
  simp only [Bool.not_eq_true', Bool.or_eq_false_iff, decide_eq_false_iff_not, and_assoc,
    Option.isNone_eq_false_iff]

theorem isKnown_of_isReported (h : checker.isReported options document block = true) :
    checker.catalog.isKnown (strip (document.lineAt block.line)) = false := by
  unfold isReported at h
  rcases checker.judge_cases options document block with
    ⟨record, -, hjudge⟩ | hjudge | ⟨hknown, -⟩ | ⟨-, hjudge⟩
  · simp [hjudge] at h
  · simp [hjudge] at h
  · exact hknown
  · obtain ⟨findings, hcall⟩ := checker.exists_unknownCall options document block
    simp [hjudge, hcall] at h

/-- The lines that are reported are the unknown steps. -/
theorem mem_unknownStepLines_iff (hchecks : checker.checksSteps options = true) {number : Nat} :
    number ∈ checker.unknownStepLines options document ↔
      checker.IsUnknownStepLine options document number := by
  unfold unknownStepLines unknownSteps
  -- a call-shaped line is reported when it is judged, every other one by the check of the steps
  rw [if_pos hchecks, List.mem_append, mem_unknownIn_iff]
  constructor
  · rintro (hreported | ⟨line, hline, hunknown⟩)
    · obtain ⟨block, hmem, rfl⟩ := List.mem_map.1 hreported
      obtain ⟨hblock, hreported⟩ := List.mem_filter.1 hmem
      obtain ⟨line, hline, hopen⟩ := exists_line_of_mem_blocksOf hblock
      have hstep := isSome_ofStep?_of_openedBy? (SectionKey.lineFeed_not_mem_of_mem_linesOf hline) hopen
      obtain ⟨hhash, hbar, hquote, -⟩ := startsWith_of_ofStep? hstep
      refine ⟨line, hline, hstep, hhash, hbar, hquote, ?_,
        not_mem_acceptedLines_of_isReported hblock hreported⟩
      have hknown := isKnown_of_isReported hreported
      rwa [Document.lineAt_of_mem_linesOf hline] at hknown
    · obtain ⟨hsettled, -, hstep, hknown⟩ := isUnknownStep_iff.1 hunknown
      obtain ⟨hhash, hbar, hquote, -⟩ := startsWith_of_ofStep? hstep
      exact ⟨line, hline, hstep, hhash, hbar, hquote, hknown,
        fun hmem => hsettled (mem_settledIn_iff.2 (Or.inl hmem))⟩
  · rintro ⟨line, hline, hstep, -, -, -, hknown, hnot⟩
    by_cases hreported : number ∈ checker.reportedLines options document
    · exact Or.inl hreported
    · obtain ⟨-, -, -, hrow⟩ := startsWith_of_ofStep? hstep
      exact Or.inr ⟨line, hline, isUnknownStep_iff.2
        ⟨fun hmem => (mem_settledIn_iff.1 hmem).elim hnot hreported, hrow, hstep, hknown⟩⟩

theorem nodup_lines_blocksOf (document : Document) : ((blocksOf document).map (·.line)).Nodup := by
  have hsublist : ∀ blocks : List CallBlock,
      (blocks.map (·.line)).Sublist (blocks.flatMap CallBlock.lineNumbers) := by
    intro blocks
    induction blocks with
    | nil => exact List.Sublist.refl _
    | cons block blocks ih =>
        rw [List.map_cons, List.flatMap_cons, ← List.singleton_append]
        exact List.Sublist.append (by simp [CallBlock.lineNumbers]) ih
  exact (nodup_lineNumbers document).sublist (hsublist _)

theorem nodup_unknownStepLines (checker : Checker) (options : ValidationOptions) (document : Document) :
    (checker.unknownStepLines options document).Nodup := by
  unfold unknownStepLines unknownSteps
  refine List.nodup_append.2 ⟨(nodup_lines_blocksOf document).sublist (List.filter_sublist.map _), ?_, ?_⟩
  · split
    · have hbody : ((bodyOf document).map fun entry => (entry.1, strip entry.2)).map Prod.fst =
          (bodyOf document).map Prod.fst := by
        rw [List.map_map]
        rfl
      refine (SectionKey.nodup_linesOf .script document.text).sublist ?_
      exact hbody ▸ List.filter_sublist.map Prod.fst
    · exact List.nodup_nil
  · -- The pass over the steps leaves out what the other one has settled.
    rintro number hreported other hother rfl
    split at hother
    · obtain ⟨line, -, hunknown⟩ := mem_unknownIn_iff.1 hother
      exact (isUnknownStep_iff.1 hunknown).1 (mem_settledIn_iff.2 (Or.inr hreported))
    · exact List.not_mem_nil hother

theorem mem_acceptedLines_of_mem_unknownCallLines {number : Nat}
    (h : number ∈ checker.unknownCallLines options document) :
    number ∈ checker.acceptedLines options document := by
  obtain ⟨block, hmem, rfl⟩ := List.mem_map.1 h
  obtain ⟨hblock, hunknown⟩ := List.mem_filter.1 hmem
  unfold isUnknownCall at hunknown
  simp only [Bool.and_eq_true] at hunknown
  exact List.mem_flatMap.2
    ⟨block, List.mem_filter.2 ⟨hblock, hunknown.1.1⟩, List.mem_cons_self⟩

/-- With steps checked, every unknown step is reported once and no other line as a step; no line is
reported twice as a call of an unknown scenario, and none both ways. -/
theorem unknownStep_once (checker : Checker) (document : Document) {options : ValidationOptions}
    (hchecks : options.stepChecks = true) (havailable : checker.catalog.isAvailable = true)
    (number : Nat) :
    (checker.IsUnknownStepLine options document number →
        (linesWith .unknownStep (checker.validate document options)).count number = 1) ∧
      (¬ checker.IsUnknownStepLine options document number →
        (linesWith .unknownStep (checker.validate document options)).count number = 0) ∧
      (linesWith .unknownScenario (checker.validate document options)).count number ≤ 1 ∧
      ¬ (number ∈ linesWith .unknownStep (checker.validate document options) ∧
        number ∈ linesWith .unknownScenario (checker.validate document options)) := by
  have hsteps : checker.checksSteps options = true := by
    unfold checksSteps
    rw [hchecks, havailable]
    rfl
  rw [linesWith_unknownStep_validate, linesWith_unknownScenario_validate, ← mem_unknownStepLines_iff hsteps]
  refine ⟨fun hmem => ?_, List.count_eq_zero_of_not_mem, ?_, ?_⟩
  · exact List.count_eq_one_of_mem (checker.nodup_unknownStepLines options document) hmem
  · exact List.nodup_iff_count_le_one.1
      ((nodup_lines_blocksOf document).sublist (List.filter_sublist.map _)) number
  · rintro ⟨hstep, hcall⟩
    obtain ⟨-, -, -, -, -, -, -, hnot⟩ := (mem_unknownStepLines_iff hsteps).1 hstep
    exact hnot (mem_acceptedLines_of_mem_unknownCallLines hcall)

/-- A script with a step that the pass over the steps reports, a call-shaped one that the pass over the
calls reports, and a call. -/
def mixedScript : Document :=
  { uri := "/a".toList
    text := "ТекстСценария: |\n    When nobody knows\n    И I know\n    И A\n        P = \"1\"\n".toList }

theorem unknownStep_once_mixedScript :
    (linesWith .unknownStep (buttonChecker.validate mixedScript .full)).count 1 = 1 ∧
      (linesWith .unknownStep (buttonChecker.validate mixedScript .full)).count 2 = 1 ∧
      (linesWith .unknownStep (buttonChecker.validate mixedScript .full)).count 3 = 0 := by
  have hlines : buttonChecker.unknownStepLines .full mixedScript = [2, 1] := by decide +kernel
  have hunknown : ∀ number, buttonChecker.IsUnknownStepLine .full mixedScript number ↔
      number = 2 ∨ number = 1 := by
    intro number
    rw [← mem_unknownStepLines_iff (by decide), hlines]
    simp
  exact ⟨(unknownStep_once buttonChecker mixedScript rfl rfl 1).1 ((hunknown 1).2 (Or.inr rfl)),
    (unknownStep_once buttonChecker mixedScript rfl rfl 2).1 ((hunknown 2).2 (Or.inl rfl)),
    (unknownStep_once buttonChecker mixedScript rfl rfl 3).2.1 (by simp [hunknown])⟩

end Checker

end Scenarist
