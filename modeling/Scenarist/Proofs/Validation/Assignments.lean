import Scenarist.Proofs.Validation.Steps

set_option autoImplicit false

/-! # What is reported about the assignments of calls

A call of a known scenario is reported if it does not assign all parameters of the scenario, an assignment if the
scenario has no such parameter, and one if its value is neither a literal nor a reference. Each of these findings is
about one call: no other check makes it, and no line belongs to two calls or to two assignments of one.

Main statements: `Checker.exists_hasFault` (what such a finding is about), and for each of the three that it is not
made without cause, as `Checker.not_mem_linesWith_missingScenarioParameter`. -/

namespace Scenarist

open Text

theorem mem_linesWith {code : DiagnosticCode} {findings : List Diagnostic} {number : Nat} :
    number ∈ linesWith code findings ↔
      ∃ diagnostic ∈ findings, diagnostic.code = code ∧ diagnostic.line = number := by
  simp [linesWith, and_assoc]

namespace Checker

/-- Whether a line of a call gives cause for a finding about its assignments. -/
inductive HasFault (checker : Checker) (block : CallBlock) : DiagnosticCode → Nat → Prop where
  /-- The scenario has no parameter that an assignment names. -/
  | extra {record : Record} {parameter : CallParameter} (hrecord : checker.records.get? block.name = some record)
      (hparameter : parameter ∈ block.parameters) (hname : parameter.name ∉ expectedParameters record) :
      HasFault checker block .extraScenarioParameter parameter.line
  /-- The value of an assignment is neither a literal nor a reference. -/
  | unquoted {parameter : CallParameter} (hparameter : parameter ∈ block.parameters)
      (hvalue : Scalar.isCallValue parameter.value = false) : HasFault checker block .missingQuotes parameter.line
  /-- The scenario has a parameter that no assignment names. -/
  | missing {record : Record} {name : Text} (hrecord : checker.records.get? block.name = some record)
      (hname : name ∈ expectedParameters record) (hparameters : name ∉ block.parameterNames) :
      HasFault checker block .missingScenarioParameter block.line

variable {checker : Checker} {options : ValidationOptions} {document : Document} {block other : CallBlock}
  {record : Record} {diagnostic : Diagnostic}

/-! ## One call -/

theorem hasFault_checkQuoting (checker : Checker) (h : diagnostic ∈ checkQuoting document block) :
    checker.HasFault block diagnostic.code diagnostic.line := by
  obtain ⟨parameter, hparameter, rfl⟩ := List.mem_map.1 h
  obtain ⟨hparameter, hvalue⟩ := List.mem_filter.1 hparameter
  rw [Bool.and_eq_true, Bool.not_eq_true', Bool.not_eq_true'] at hvalue
  exact .unquoted hparameter hvalue.2

theorem hasFault_checkParameters (hrecord : checker.records.get? block.name = some record)
    (h : diagnostic ∈ checkParameters document record block) :
    checker.HasFault block diagnostic.code diagnostic.line := by
  unfold checkParameters at h
  simp only [List.mem_append] at h
  rcases h with (h | h) | h
  · obtain ⟨parameter, hparameter, rfl⟩ := List.mem_map.1 h
    obtain ⟨hparameter, hname⟩ := List.mem_filter.1 hparameter
    exact .extra hrecord hparameter (of_decide_eq_true hname)
  · exact checker.hasFault_checkQuoting h
  · split at h
    · exact absurd h List.not_mem_nil
    · next hsome =>
      obtain rfl := List.mem_singleton.1 h
      obtain ⟨name, hname⟩ := List.exists_mem_of_ne_nil _ (mt List.isEmpty_iff.2 hsome)
      obtain ⟨hname, hparameters⟩ := List.mem_filter.1 hname
      exact .missing hrecord (mem_distinct.1 hname) (of_decide_eq_true hparameters)

/-- A finding about a call-shaped line has its cause in the call, unless it is that the line is unknown. -/
theorem hasFault_judge (h : diagnostic ∈ (checker.judge options document block).findings) :
    checker.HasFault block diagnostic.code diagnostic.line ∨
      diagnostic.code = .unknownStep ∨ diagnostic.code = .unknownScenario := by
  rcases checker.judge_cases options document block with
    ⟨record, hrecord, hjudge⟩ | hjudge | ⟨-, hints, hjudge⟩ | ⟨-, hjudge⟩ <;> rw [hjudge] at h
  · exact Or.inl (hasFault_checkParameters hrecord h)
  · exact absurd h List.not_mem_nil
  · rw [List.mem_singleton.1 h]
    exact Or.inr (Or.inl (code_stepFinding _ _ _))
  · unfold unknownCall at h
    split at h
    · exact Or.inl (checker.hasFault_checkQuoting h)
    · rw [List.mem_singleton.1 h]
      exact Or.inr (Or.inr rfl)

/-! ## The calls of a document -/

/-- A finding about the assignments of a call has its cause in a call of the script. -/
theorem exists_hasFault {code : DiagnosticCode} {number : Nat} (hcode : isCallCode code = true)
    (hstep : code ≠ .unknownStep) (hscenario : code ≠ .unknownScenario)
    (h : number ∈ linesWith code (checker.validate document options)) :
    ∃ block ∈ blocksOf document, checker.HasFault block code number := by
  rw [linesWith_validate hcode] at h
  rcases List.mem_append.1 h with h | h <;> obtain ⟨diagnostic, hfound, rfl, rfl⟩ := mem_linesWith.1 h
  · obtain ⟨block, hblock, hjudge⟩ := List.mem_flatMap.1 hfound
    rcases hasFault_judge hjudge with hfault | hunknown | hunknown
    · exact ⟨block, hblock, hfault⟩
    · exact absurd hunknown hstep
    · exact absurd hunknown hscenario
  · exact absurd (code_stepFindings hfound) hstep

/-- A line has one assignment, of one call. -/
theorem eq_of_line_eq {parameter another : CallParameter} (hblock : block ∈ blocksOf document)
    (hother : other ∈ blocksOf document) (hparameter : parameter ∈ block.parameters)
    (hanother : another ∈ other.parameters) (h : parameter.line = another.line) :
    block = other ∧ parameter = another := by
  have hlines : parameter.line ∈ block.lineNumbers := List.mem_cons_of_mem _ (List.mem_map_of_mem hparameter)
  have hlines' : parameter.line ∈ other.lineNumbers := by
    rw [h]
    exact List.mem_cons_of_mem _ (List.mem_map_of_mem hanother)
  obtain rfl := eq_of_mem_lineNumbers hblock hother hlines hlines'
  have hnodup : block.lineNumbers.Nodup := (List.nodup_flatMap.1 (nodup_lineNumbers document)).1 block hblock
  exact ⟨rfl, List.inj_on_of_nodup_map (List.nodup_cons.1 hnodup).2 hparameter hanother h⟩

/-! ## Calls that nothing is wrong with -/

/-- A call that assigns all parameters of its scenario is not reported for missing ones. -/
theorem not_mem_linesWith_missingScenarioParameter (hblock : block ∈ blocksOf document)
    (hrecord : checker.records.get? block.name = some record)
    (hnames : ∀ name ∈ expectedParameters record, name ∈ block.parameterNames) :
    block.line ∉ linesWith .missingScenarioParameter (checker.validate document options) := by
  intro hmem
  obtain ⟨other, hother, hfault⟩ := exists_hasFault rfl (by decide) (by decide) hmem
  generalize hnumber : block.line = number at hfault
  cases hfault with
  | missing hrecord' hname hparameters =>
      obtain rfl := eq_of_mem_lineNumbers hblock hother List.mem_cons_self (hnumber ▸ List.mem_cons_self)
      rw [hrecord] at hrecord'
      obtain rfl := Option.some.inj hrecord'
      exact hparameters (hnames _ hname)

/-- An assignment of a literal or a reference is not reported for its value. -/
theorem not_mem_linesWith_missingQuotes {parameter : CallParameter} (hblock : block ∈ blocksOf document)
    (hparameter : parameter ∈ block.parameters) (hvalue : Scalar.isCallValue parameter.value = true) :
    parameter.line ∉ linesWith .missingQuotes (checker.validate document options) := by
  intro hmem
  obtain ⟨other, hother, hfault⟩ := exists_hasFault rfl (by decide) (by decide) hmem
  generalize hnumber : parameter.line = number at hfault
  cases hfault with
  | unquoted hanother hbare =>
      obtain ⟨-, rfl⟩ := eq_of_line_eq hblock hother hparameter hanother hnumber
      rw [hvalue] at hbare
      exact Bool.noConfusion hbare

/-- An assignment of a parameter that the scenario has is not reported as one too many. -/
theorem not_mem_linesWith_extraScenarioParameter {parameter : CallParameter} (hblock : block ∈ blocksOf document)
    (hparameter : parameter ∈ block.parameters) (hrecord : checker.records.get? block.name = some record)
    (hname : parameter.name ∈ expectedParameters record) :
    parameter.line ∉ linesWith .extraScenarioParameter (checker.validate document options) := by
  intro hmem
  obtain ⟨other, hother, hfault⟩ := exists_hasFault rfl (by decide) (by decide) hmem
  generalize hnumber : parameter.line = number at hfault
  cases hfault with
  | extra hrecord' hanother hextra =>
      obtain ⟨rfl, rfl⟩ := eq_of_line_eq hblock hother hparameter hanother hnumber
      rw [hrecord] at hrecord'
      obtain rfl := Option.some.inj hrecord'
      exact hextra hname

end Checker

end Scenarist
