import Scenarist.Validation
import Mathlib.Algebra.Order.BigOperators.Group.List
import Mathlib.Algebra.Order.Ring.Nat

set_option autoImplicit false

/-! # What proposals change

Options say whether a validation proposes steps and scenarios. A proposal is a text in the message of a
finding, but it is looked at before that: a line is a call rather than a step if it is like the first
scenario proposed, and an unknown step is a warning rather than an error if its arguments lack quotes as
in the steps proposed. So findings under options that check the same are the same but for their messages
exactly if neither matters: no line is contested between a step and a call, and no unknown step lacks
quotes.

Main statements: `judge_agrees` (one call-shaped line under two options), `marks_checkSteps_eq_iff` (the
steps) and `marks_validate_eq_iff` (a document). -/

namespace Scenarist

def Diagnostic.mark (diagnostic : Diagnostic) : TextRange × Severity × DiagnosticCode :=
  (diagnostic.range, diagnostic.severity, diagnostic.code)

def marks (findings : List Diagnostic) : List (TextRange × Severity × DiagnosticCode) :=
  findings.map Diagnostic.mark

theorem marks_append (findings others : List Diagnostic) :
    marks (findings ++ others) = marks findings ++ marks others := List.map_append

namespace Checker

variable {checker : Checker} {document : Document} {o o' : ValidationOptions} {block : CallBlock}

/-! ## A call-shaped line -/

/-- Whether a name is like the first scenario that is proposed instead. -/
def isLikeScenario (checker : Checker) (name : Text) : Bool :=
  (checker.proposals name).head?.any fun best =>
    meets checker.config.strongMatch (looseSimilarity name best)

/-- Whether a line would be a step if its name were not like the name of a scenario. -/
def IsContested (checker : Checker) (options : ValidationOptions) (document : Document)
    (block : CallBlock) : Prop :=
  checker.records.get? block.name = none ∧ block.parameters = [] ∧
    checker.isLikeScenario block.name = true ∧
    ((checker.stepVerdict? options document block).isSome = true ∨ isLikelyStep block.name = true)

def unknownCall (checker : Checker) (options : ValidationOptions) (document : Document)
    (block : CallBlock) : Verdict :=
  if checker.records.isEmpty then .call (checkQuoting document block)
  else .call [finding document block.line .error .unknownScenario (Message.unknownScenario ++
    suggestionSuffix (if options.proposesScenarios then checker.proposals block.name else []))]

theorem judge_of_known {record : Record} (hname : checker.records.get? block.name = some record) :
    checker.judge o document block = .call (checkParameters document record block) := by
  unfold judge
  rw [hname]

theorem judge_of_parameters (hname : checker.records.get? block.name = none)
    (hparameters : block.parameters ≠ []) :
    checker.judge o document block = checker.unknownCall o document block := by
  have hsome : block.parameters.isEmpty = false := by simpa using hparameters
  unfold judge unknownCall
  simp [hname, hsome]

theorem judge_of_no_parameters (hname : checker.records.get? block.name = none)
    (hparameters : block.parameters = []) :
    checker.judge o document block =
      if (o.proposesScenarios && checker.isLikeScenario block.name) = true then
        checker.unknownCall o document block
      else (checker.stepVerdict? o document block).getD
        (if isLikelyStep block.name then .step none else checker.unknownCall o document block) := by
  have hlike : ((if o.proposesScenarios then checker.proposals block.name else []).head?.any fun best =>
      meets checker.config.strongMatch (looseSimilarity block.name best)) =
      (o.proposesScenarios && checker.isLikeScenario block.name) := by
    cases o.proposesScenarios <;> rfl
  have hempty : block.parameters.isEmpty = true := by simp [hparameters]
  unfold judge unknownCall
  simp only [hname, hlike, hempty, Bool.true_and]
  cases o.proposesScenarios && checker.isLikeScenario block.name
  · cases checker.stepVerdict? o document block <;> simp
  · simp

/-! ## Verdicts that agree -/

/-- Whether two verdicts differ in the messages alone. -/
def Verdict.Agrees (verdict verdict' : Verdict) : Prop :=
  verdict.isCall = verdict'.isCall ∧ marks verdict.findings = marks verdict'.findings

theorem Verdict.Agrees.refl (verdict : Verdict) : verdict.Agrees verdict := ⟨rfl, rfl⟩

theorem Verdict.Agrees.settled_eq {verdict verdict' : Verdict} (h : verdict.Agrees verdict') :
    verdict.settled block = verdict'.settled block := by
  obtain ⟨hcall, hmarks⟩ := h
  have hlength := congrArg List.length hmarks
  cases verdict with
  | call findings => cases verdict' with
    | call findings' => rfl
    | step reported' => exact absurd hcall (by simp [Verdict.isCall])
  | step reported => cases verdict' with
    | call findings' => exact absurd hcall (by simp [Verdict.isCall])
    | step reported' =>
        cases reported <;> cases reported' <;> simp [marks, Verdict.findings] at hlength <;> rfl

theorem unknownCall_agrees (o o' : ValidationOptions) (document : Document) (block : CallBlock) :
    (checker.unknownCall o document block).Agrees (checker.unknownCall o' document block) := by
  unfold unknownCall
  split
  · exact .refl _
  · exact ⟨rfl, rfl⟩

theorem checksSteps_congr (h : o.stepChecks = o'.stepChecks) :
    checker.checksSteps o = checker.checksSteps o' := by
  unfold checksSteps
  rw [h]

theorem stepVerdict?_congr (h : o.stepChecks = o'.stepChecks) :
    checker.stepVerdict? o document block = checker.stepVerdict? o' document block := by
  unfold stepVerdict?
  rw [checksSteps_congr h]

/-- Proposals change nothing about a line that is not contested but the messages. -/
theorem judge_agrees (h : o.stepChecks = o'.stepChecks)
    (hsame : o.proposesScenarios = o'.proposesScenarios ∨ ¬ checker.IsContested o document block) :
    (checker.judge o document block).Agrees (checker.judge o' document block) := by
  have hcalls := checker.unknownCall_agrees o o' document block
  cases hname : checker.records.get? block.name with
  | some record =>
      rw [judge_of_known hname, judge_of_known hname]
      exact .refl _
  | none =>
      by_cases hparameters : block.parameters = []
      · have hsteps : ((checker.stepVerdict? o' document block).getD
            (if isLikelyStep block.name then .step none else checker.unknownCall o document block)).Agrees
            ((checker.stepVerdict? o' document block).getD
              (if isLikelyStep block.name then .step none else checker.unknownCall o' document block)) := by
          cases checker.stepVerdict? o' document block with
          | some verdict => exact .refl verdict
          | none =>
              simp only [Option.getD_none]
              split
              · exact .refl _
              · exact hcalls
        rw [judge_of_no_parameters hname hparameters, judge_of_no_parameters hname hparameters,
          stepVerdict?_congr h]
        rcases hsame with hsame | hsame
        · rw [hsame]
          split
          · exact hcalls
          · exact hsteps
        · cases hlike : checker.isLikeScenario block.name with
          | false => simpa using hsteps
          | true =>
              -- without a step to fall back on the line is a call under any options
              have hnone : checker.stepVerdict? o' document block = none ∧
                  isLikelyStep block.name = false := by
                unfold IsContested at hsame
                simpa [hname, hparameters, hlike, stepVerdict?_congr h] using hsame
              simp only [hnone.1, hnone.2]
              cases o.proposesScenarios <;> cases o'.proposesScenarios <;> exact hcalls
      · rw [judge_of_parameters hname hparameters, judge_of_parameters hname hparameters]
        exact hcalls

/-! ## A contested line -/

theorem IsContested.congr (hcontested : checker.IsContested o document block)
    (h : o.stepChecks = o'.stepChecks) : checker.IsContested o' document block := by
  unfold IsContested at hcontested ⊢
  rwa [← stepVerdict?_congr h]

theorem IsContested.records_ne_nil (h : checker.IsContested o document block) :
    checker.records.isEmpty = false := by
  obtain ⟨-, -, hlike, -⟩ := h
  cases hrecords : checker.records with
  | cons => rfl
  | nil =>
      have hproposals : checker.proposals block.name = [] := by
        unfold proposals closest
        simp [hrecords, Table.keys, bestOf]
      simp [isLikeScenario, hproposals] at hlike

/-- A contested line is an unknown scenario if scenarios are proposed. -/
theorem IsContested.judge_of_proposed (h : checker.IsContested o document block)
    (hproposed : o.proposesScenarios = true) :
    (checker.judge o document block).findings.countP (·.code = .unknownScenario) = 1 := by
  obtain ⟨hname, hparameters, hlike, -⟩ := id h
  rw [judge_of_no_parameters hname hparameters, hproposed, hlike]
  unfold unknownCall
  simp [h.records_ne_nil, Verdict.findings, finding]

theorem code_stepFinding (number : Nat) (line : Text) (hints : List Text) :
    (stepFinding document number line hints).code = .unknownStep := by
  unfold stepFinding
  dsimp only
  split <;> rfl

theorem findings_stepVerdict? {verdict : Verdict}
    (h : checker.stepVerdict? o document block = some verdict) :
    verdict.findings.countP (·.code = .unknownScenario) = 0 := by
  have hcode : ∀ diagnostic ∈ verdict.findings, diagnostic.code = .unknownStep := by
    unfold stepVerdict? at h
    dsimp only at h
    split at h
    · cases h; simp [Verdict.findings]
    split at h
    · cases h; simp [Verdict.findings]
    split at h
    · split at h
      · cases h; simp [Verdict.findings, code_stepFinding]
      · cases h; simp [Verdict.findings]
    · cases h
  rw [List.countP_eq_zero]
  intro diagnostic hmem
  simp [hcode diagnostic hmem]

/-- A contested line is a step if no scenarios are proposed. -/
theorem IsContested.judge_of_not_proposed (h : checker.IsContested o document block)
    (hproposed : o.proposesScenarios = false) :
    (checker.judge o document block).findings.countP (·.code = .unknownScenario) = 0 := by
  obtain ⟨hname, hparameters, -, hstep⟩ := h
  rw [judge_of_no_parameters hname hparameters, hproposed]
  cases hverdict : checker.stepVerdict? o document block with
  | some verdict => exact findings_stepVerdict? hverdict
  | none =>
      have hlikely : isLikelyStep block.name = true := by simpa [hverdict] using hstep
      simp [hlikely, Verdict.findings]

/-! ## Unknown steps -/

/-- Whether a line has a keyword and is no known step, and is not settled. -/
def isUnknownStep (checker : Checker) (settled : List Nat) (number : Nat) (text : Text) : Bool :=
  !(number ∈ settled || text.head? = some '|' || (StepLine.ofStep? text).isNone ||
    checker.catalog.isKnown text)

def hints (checker : Checker) (options : ValidationOptions) (text : Text) : List Text :=
  if options.proposesSteps then checker.catalog.suggest text checker.config.maxSuggestions else []

def unknownIn (checker : Checker) (body : List (Nat × Text)) (settled : List Nat) : List (Nat × Text) :=
  (body.map fun (number, line) => (number, Text.strip line)).filter fun (number, text) =>
    checker.isUnknownStep settled number text

theorem checkSteps_eq (options : ValidationOptions) (body : List (Nat × Text)) (settled : List Nat) :
    checker.checkSteps options document body settled =
      (checker.unknownIn body settled).map fun (number, text) =>
        stepFinding document number text (checker.hints options text) := by
  induction body with
  | nil => rfl
  | cons entry body ih =>
      obtain ⟨number, line⟩ := entry
      unfold checkSteps unknownIn at ih ⊢
      rw [List.map_cons, List.filterMap_cons, List.filter_cons]
      dsimp only
      unfold isUnknownStep
      split
      · next hnone =>
        split at hnone
        · next hknown => simpa [hknown, isUnknownStep] using ih
        · exact absurd hnone (by simp)
      · next found hsome =>
        split at hsome
        · exact absurd hsome (by simp)
        · next hunknown =>
          cases hsome
          simp only [hunknown, Bool.not_false, if_true, List.map_cons, ih]
          simp [hints, isUnknownStep]

theorem lacksQuotes_nil (text : Text) : Template.lacksQuotes text [] = false := by
  simp [Template.lacksQuotes]

theorem mark_stepFinding (number : Nat) (text : Text) (hints : List Text) :
    (stepFinding document number text hints).mark =
      (document.lineRange number, if Template.lacksQuotes text hints then .warning else .error,
        .unknownStep) := by
  unfold stepFinding
  dsimp only
  split <;> rfl

/-- The quotes that an unknown step lacks are seen only if steps are proposed. -/
theorem marks_checkSteps_eq_iff (o o' : ValidationOptions) (body : List (Nat × Text))
    (settled : List Nat) :
    marks (checker.checkSteps o document body settled) =
        marks (checker.checkSteps o' document body settled) ↔
      o.proposesSteps = o'.proposesSteps ∨
        ∀ step ∈ checker.unknownIn body settled, Template.lacksQuotes step.2
          (checker.catalog.suggest step.2 checker.config.maxSuggestions) = false := by
  simp only [checkSteps_eq, marks, List.map_map, List.map_inj_left, Function.comp_apply, mark_stepFinding,
    Prod.mk.injEq, true_and, and_true]
  unfold hints
  cases o.proposesSteps <;> cases o'.proposesSteps <;> simp [lacksQuotes_nil]

/-! ## A document -/

/-- The lines of a document's script with their numbers. -/
def bodyOf (document : Document) : List (Nat × Text) := SectionKey.script.linesOf document.text

def blocksOf (document : Document) : List CallBlock := CallBlock.readAll (bodyOf document)

def settledIn (checker : Checker) (options : ValidationOptions) (document : Document) : List Nat :=
  (blocksOf document).flatMap fun block => (checker.judge options document block).settled block

def callsIn (checker : Checker) (options : ValidationOptions) (document : Document) : List Text :=
  ((blocksOf document).filter fun block => (checker.judge options document block).isCall).map (·.name)

def callFindings (checker : Checker) (options : ValidationOptions) (document : Document) :
    List Diagnostic :=
  (blocksOf document).flatMap fun block => (checker.judge options document block).findings

def stepFindings (checker : Checker) (options : ValidationOptions) (document : Document) :
    List Diagnostic :=
  if checker.checksSteps options then
    checker.checkSteps options document (bodyOf document) (checker.settledIn options document)
  else []

def unknownSteps (checker : Checker) (options : ValidationOptions) (document : Document) :
    List (Nat × Text) :=
  if checker.checksSteps options then
    checker.unknownIn (bodyOf document) (checker.settledIn options document)
  else []

theorem validate_eq {script : Section} (hscript : SectionKey.script.find? document.text = some script)
    (options : ValidationOptions) :
    checker.validate document options =
      checkBalance document (bodyOf document) ++ checker.callFindings options document ++
        checker.stepFindings options document ++
        checker.checkCompleteness document script.headerLine (checker.callsIn options document) ++
        checkDescription document := by
  have hbody : bodyOf document = script.numberedLines := by simp [bodyOf, SectionKey.linesOf, hscript]
  unfold validate callFindings callsIn stepFindings settledIn blocksOf
  rw [hbody]
  simp [hscript, List.filter_map, Function.comp_def, List.flatMap_map]

/-- Nothing is found in a document without a script. -/
theorem validate_of_scriptless (hscript : SectionKey.script.find? document.text = none)
    (options : ValidationOptions) : bodyOf document = [] ∧ checker.validate document options = [] := by
  constructor
  · simp [bodyOf, SectionKey.linesOf, hscript]
  · unfold validate
    rw [hscript]

/-- Verdicts that agree line by line settle the same lines, take the same ones as calls and find the same. -/
theorem calls_congr (hagrees : ∀ block ∈ blocksOf document,
    (checker.judge o document block).Agrees (checker.judge o' document block)) :
    checker.settledIn o document = checker.settledIn o' document ∧
      checker.callsIn o document = checker.callsIn o' document ∧
      marks (checker.callFindings o document) = marks (checker.callFindings o' document) := by
  refine ⟨?_, ?_, ?_⟩
  · unfold settledIn
    exact List.flatMap_congr fun block hblock => (hagrees block hblock).settled_eq
  · unfold callsIn
    rw [List.filter_congr fun block hblock => (hagrees block hblock).1]
  · unfold marks callFindings
    rw [List.map_flatMap, List.map_flatMap]
    exact List.flatMap_congr fun block hblock => (hagrees block hblock).2

theorem marks_stepFindings_eq_iff (h : o.stepChecks = o'.stepChecks)
    (hsettled : checker.settledIn o document = checker.settledIn o' document) :
    marks (checker.stepFindings o document) = marks (checker.stepFindings o' document) ↔
      o.proposesSteps = o'.proposesSteps ∨ ∀ step ∈ checker.unknownSteps o document,
        Template.lacksQuotes step.2
          (checker.catalog.suggest step.2 checker.config.maxSuggestions) = false := by
  unfold stepFindings unknownSteps
  rw [checksSteps_congr h, hsettled]
  split
  · exact marks_checkSteps_eq_iff o o' _ _
  · simp [marks]

/-- How many findings of a document are about unknown scenarios. -/
theorem countP_validate {script : Section} (hscript : SectionKey.script.find? document.text = some script)
    (options : ValidationOptions) :
    (checker.validate document options).countP (·.code = .unknownScenario) =
      (checkBalance document (bodyOf document) ++ checkDescription document).countP
          (·.code = .unknownScenario) +
        ((blocksOf document).map fun block =>
          (checker.judge options document block).findings.countP (·.code = .unknownScenario)).sum := by
  -- unknown steps and declarations that are missing have codes of their own
  have hsteps : (checker.stepFindings options document).countP (·.code = .unknownScenario) = 0 := by
    unfold stepFindings
    split
    · rw [checkSteps_eq, List.countP_eq_zero]
      intro diagnostic hmem
      obtain ⟨step, -, rfl⟩ := List.mem_map.1 hmem
      simp [code_stepFinding]
    · rfl
  have hcomplete : (checker.checkCompleteness document script.headerLine
      (checker.callsIn options document)).countP (·.code = .unknownScenario) = 0 := by
    unfold checkCompleteness
    rw [List.countP_append]
    dsimp only
    split <;> split <;> simp [finding]
  rw [validate_eq hscript]
  simp only [List.countP_append, hsteps, hcomplete, callFindings, List.countP_flatMap]
  simp only [Function.comp_def]
  omega

theorem countP_eq_of_marks_eq {findings findings' : List Diagnostic}
    (h : marks findings = marks findings') :
    findings.countP (·.code = .unknownScenario) = findings'.countP (·.code = .unknownScenario) := by
  have hcount : ∀ findings : List Diagnostic, findings.countP (·.code = .unknownScenario) =
      (marks findings).countP (·.2.2 = .unknownScenario) := by
    intro findings
    rw [marks, List.countP_map]
    rfl
  rw [hcount, hcount, h]

/-- A contested line tells options that propose scenarios from options that do not. -/
theorem marks_validate_ne {script : Section}
    (hscript : SectionKey.script.find? document.text = some script)
    (h : o.stepChecks = o'.stepChecks) (hproposed : o.proposesScenarios = true)
    (hnot : o'.proposesScenarios = false) (hblock : block ∈ blocksOf document)
    (hcontested : checker.IsContested o document block) :
    marks (checker.validate document o) ≠ marks (checker.validate document o') := by
  -- every line has at least as many unknown scenarios if they are proposed, and a contested one has more
  intro hmarks
  have hcounts := countP_eq_of_marks_eq hmarks
  rw [countP_validate hscript, countP_validate hscript] at hcounts
  have hlt : ((blocksOf document).map fun block =>
      (checker.judge o' document block).findings.countP (·.code = .unknownScenario)).sum <
      ((blocksOf document).map fun block =>
        (checker.judge o document block).findings.countP (·.code = .unknownScenario)).sum := by
    refine List.sum_lt_sum _ _ (fun block _ => ?_) ⟨block, hblock, ?_⟩
    · by_cases hcontested : checker.IsContested o document block
      · rw [(hcontested.congr h).judge_of_not_proposed hnot]
        exact Nat.zero_le _
      · exact (countP_eq_of_marks_eq (judge_agrees h (Or.inr hcontested)).2).ge
    · rw [(hcontested.congr h).judge_of_not_proposed hnot, hcontested.judge_of_proposed hproposed]
      exact Nat.one_pos
  omega

/-- Two validations that check the same make the same findings but for their messages exactly if proposed
scenarios or steps are looked at in both or do not matter: no line is contested between a step and a call,
and no unknown step lacks quotes as in the steps to propose. -/
theorem marks_validate_eq_iff (checker : Checker) (document : Document) (o o' : ValidationOptions)
    (h : o.stepChecks = o'.stepChecks) :
    marks (checker.validate document o) = marks (checker.validate document o') ↔
      (o.proposesScenarios = o'.proposesScenarios ∨
        ∀ block ∈ blocksOf document, ¬ checker.IsContested o document block) ∧
      (o.proposesSteps = o'.proposesSteps ∨ ∀ step ∈ checker.unknownSteps o document,
        Template.lacksQuotes step.2
          (checker.catalog.suggest step.2 checker.config.maxSuggestions) = false) := by
  cases hscript : SectionKey.script.find? document.text with
  | none =>
      have hbody : bodyOf document = [] := by simp [bodyOf, SectionKey.linesOf, hscript]
      have hblocks : blocksOf document = [] := by rw [blocksOf, hbody]; rfl
      have hsteps : checker.unknownSteps o document = [] := by
        unfold unknownSteps unknownIn
        rw [hbody]
        exact ite_self _
      rw [hblocks, hsteps]
      simp [validate, hscript]
  | some script =>
      by_cases hsame : o.proposesScenarios = o'.proposesScenarios ∨
          ∀ block ∈ blocksOf document, ¬ checker.IsContested o document block
      · have hagrees : ∀ block ∈ blocksOf document,
            (checker.judge o document block).Agrees (checker.judge o' document block) :=
          fun block hblock => judge_agrees h (hsame.imp_right fun hnone => hnone block hblock)
        obtain ⟨hsettled, hcalls, hfindings⟩ := calls_congr hagrees
        rw [validate_eq hscript, validate_eq hscript]
        simp only [marks_append, hcalls, hfindings, List.append_cancel_right_eq,
          List.append_cancel_left_eq, marks_stepFindings_eq_iff h hsettled, hsame, true_and]
      · -- one of the options proposes scenarios and the other does not, and some line is contested
        refine iff_of_false ?_ fun hboth => hsame hboth.1
        rw [not_or] at hsame
        obtain ⟨hne, hcontested⟩ := hsame
        simp only [not_forall, not_not] at hcontested
        obtain ⟨block, hblock, hcontested⟩ := hcontested
        cases ho : o.proposesScenarios <;> cases ho' : o'.proposesScenarios
        · exact absurd (ho.trans ho'.symm) hne
        · exact (marks_validate_ne hscript h.symm ho' ho hblock (hcontested.congr h)).symm
        · exact marks_validate_ne hscript h ho ho' hblock hcontested
        · exact absurd (ho.trans ho'.symm) hne

def buttonChecker : Checker where
  records := []
  catalog := {
    steps := [⟨"I click the button \"%1 Button\"".toList, none⟩]
    threshold := StepCatalog.defaultThreshold }
  config := {}

def unquotedButton : Document :=
  { uri := "/a".toList, text := "ТекстСценария: |\n    When I click the button OK\n".toList }

/-- A validation of the script in full and one without proposals. -/
theorem marks_validate_eq_iff_unquotedButton :
    ValidationOptions.full.stepChecks = ValidationOptions.everywhere.stepChecks ∧
      (marks (buttonChecker.validate unquotedButton .full) =
          marks (buttonChecker.validate unquotedButton .everywhere) ↔
        (ValidationOptions.full.proposesScenarios = ValidationOptions.everywhere.proposesScenarios ∨
          ∀ block ∈ blocksOf unquotedButton, ¬ buttonChecker.IsContested .full unquotedButton block) ∧
        (ValidationOptions.full.proposesSteps = ValidationOptions.everywhere.proposesSteps ∨
          ∀ step ∈ buttonChecker.unknownSteps .full unquotedButton,
            Template.lacksQuotes step.2
              (buttonChecker.catalog.suggest step.2 buttonChecker.config.maxSuggestions) = false)) :=
  ⟨rfl, marks_validate_eq_iff buttonChecker unquotedButton .full .everywhere rfl⟩

/-- With proposals the step is a warning, and without them it is an error. -/
theorem marks_validate_unquotedButton :
    marks (buttonChecker.validate unquotedButton .full) ≠
      marks (buttonChecker.validate unquotedButton .everywhere) := by
  decide +kernel

end Checker

end Scenarist
