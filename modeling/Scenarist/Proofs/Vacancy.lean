import Scenarist.Proofs.Frame

set_option autoImplicit false

/-! # Documents without a script

The script of a document is read through its lines, and a document without a script has as many of them as
one whose script is empty: none. So nothing that writes declarations anew can tell whether a script has
nothing to declare or is missing, and with the script go the declarations of calls and parameters, save the
calls as long as no scenario is known.

Main statement: `Executor.declarations_repairText_scriptless`. -/

namespace Scenarist

open Text

/-! ## Sections that are emptied -/

namespace SectionKey

/-- A document whose section under a key is written anew without items, if asked for. -/
def vacate (key : SectionKey) (flag : Bool) (text : Text) : Text :=
  if flag then (key.refill [] [] text).text else text

/-- Whether a section, if it is there, is written as one without items. -/
def IsVacant (key : SectionKey) (text : Text) : Prop :=
  ∀ s ∈ key.find? text, s.content = sectionContent (LineEnd.ofText text) s.hasFollowing []

variable {key : SectionKey} {text : Text}

theorem bodyIn_eq_nil_of_isIn_eq_false (hin : isIn text key = false) : key.bodyIn (lines text) = [] := by
  have hnone : key.find? text = none := by simpa [isIn] using hin
  unfold bodyIn
  rw [← find?_map_block, hnone]
  rfl

theorem tablesIn_eq_nil_of_isIn_eq_false (hin : isIn text key = false) : key.tablesIn (lines text) = [] := by
  unfold tablesIn
  rw [bodyIn_eq_nil_of_isIn_eq_false hin]
  rfl

/-- A section is emptied without a change exactly if it is empty. -/
theorem refill_nil_iff (key : SectionKey) (text : Text) :
    (key.refill [] [] text).changed = false ∧ (key.refill [] [] text).text = text ↔ key.IsVacant text := by
  have htext : (key.refill [] [] text).text = text ↔ key.IsVacant text := by
    unfold IsVacant refill
    cases hfind : key.find? text with
    | none => simp
    | some s =>
        have hwritten : s.withContent s.content = text := by
          rw [← Section.text_eq_withContent]
          exact Section.text_of_find? hfind
        simp only [Option.mem_some, forall_eq']
        conv_lhs => rhs; rw [← hwritten]
        simp [Section.withContent, eq_comm]
  rw [changed_refill, ← htext]
  simp

theorem keepLines_nil : KeepLines [] := fun _ hfields => absurd hfields List.not_mem_nil

/-- Nothing is read of a section that is emptied. -/
theorem tablesIn_vacate (key : SectionKey) (flag : Bool) (text : Text) :
    key.tablesIn (lines (key.vacate flag text)) = if flag then [] else key.tablesIn (lines text) := by
  cases flag with
  | false => rfl
  | true =>
      unfold vacate
      rw [if_pos rfl, if_pos rfl]
      cases hin : isIn text key with
      | true => exact tablesIn_refill keepLines_nil hin []
      | false =>
          rw [text_refill_of_isIn_eq_false hin]
          exact tablesIn_eq_nil_of_isIn_eq_false hin

theorem keepsOthers_vacate (key : SectionKey) (flag : Bool) (text : Text) :
    key.KeepsOthers (lines text) (lines (key.vacate flag text)) := by
  cases flag with
  | false => exact KeepsOthers.refl key (lines text)
  | true => exact keepsOthers_refill keepLines_nil key [] text

end SectionKey

/-! ## Nothing to declare -/

section

variable {text : Text}

theorem scriptLines_eq_nil (h : SectionKey.script.bodyIn (lines text) = []) : scriptLines text = [] := by
  have hlines := SectionKey.linesOf_map_snd .script text
  rw [h, List.map_nil, List.map_eq_nil_iff] at hlines
  exact hlines

/-- Without a script the calls are written anew without items, whatever the index knows. -/
theorem regenerateNested_scriptless (h : SectionKey.script.bodyIn (lines text) = []) (index : Index)
    (supply : UidSupply) :
    regenerateNested index supply text = (SectionKey.nested.refill [] [] text, supply) := by
  have hcalls : expectedCalls index text = [] := by
    unfold expectedCalls calledNames
    rw [scriptLines_eq_nil h]
    rfl
  unfold regenerateNested
  rw [hcalls]
  rfl

/-- Without a script the parameters are written anew without items, whatever the session knows. -/
theorem regenerateParameters_scriptless (h : SectionKey.script.bodyIn (lines text) = []) (session : Session)
    (uri : Text) (exclusions : List Text) :
    (regenerateParameters session uri text exclusions).1 = SectionKey.parameters.refill [] [] text := by
  have hused : usedParameters text exclusions = [] := by
    unfold usedParameters
    rw [scriptLines_eq_nil h]
    rfl
  unfold regenerateParameters
  rw [hused]
  rfl

/-- A text that is laid out has no lines in its script if it had none before. -/
theorem RepairConfig.bodyIn_script_laidOut (config : RepairConfig)
    (h : SectionKey.script.bodyIn (lines text) = []) :
    SectionKey.script.bodyIn (lines (config.laidOut text)) = [] := by
  have hmap : ∀ {change : List Text → List Text}, Aligns change → ∀ t,
      SectionKey.script.bodyIn (lines t) = [] → SectionKey.script.bodyIn (lines (mapScript change t)) = [] := by
    intro change hchange t ht
    rcases exists_mapScript hchange t with ⟨heq, -⟩ | ⟨s, _, -, hbody, hne, -⟩
    · rw [heq, ht]
    · exact absurd (hbody.symm.trans ht) hne
  refine config.laidOut_induction (motive := fun t => SectionKey.script.bodyIn (lines t) = []) text h
    (fun t ht => ?_) (hmap aligns_alignTables) (hmap aligns_alignAssignments)
  rw [lines_expandLeadingTabs, SectionKey.bodyIn_map_expandTabs, ht]
  rfl

end

namespace Executor

variable {executor : Executor} {uri text final : Text} {desk desk' : Desk} {flag : Bool}

/-! ## A pass -/

theorem runIf_nested_scriptless (h : SectionKey.script.bodyIn (lines text) = [])
    (hrun : StepAction.nested.runIf flag executor uri text desk = (.ok final, desk')) :
    final = SectionKey.nested.vacate (flag && !desk.index.records.isEmpty) text := by
  rcases StepAction.runIf_iff.1 hrun with ⟨rfl, rfl, -⟩ | ⟨rfl, hnested⟩
  · rfl
  · rcases run_nested_iff.1 hnested with ⟨hempty, rfl, -⟩ | ⟨hempty, -, rfl, -⟩
    · rw [hempty]
      rfl
    · rw [hempty, regenerateNested_scriptless h]
      rfl

theorem runIf_parameters_scriptless (h : SectionKey.script.bodyIn (lines text) = [])
    (hrun : StepAction.parameters.runIf flag executor uri text desk = (.ok final, desk')) :
    final = SectionKey.parameters.vacate flag text := by
  rcases StepAction.runIf_iff.1 hrun with ⟨rfl, rfl, -⟩ | ⟨rfl, hparameters⟩
  · rfl
  · obtain ⟨-, rfl, -⟩ := run_parameters_iff.1 hparameters
    rw [regenerateParameters_scriptless h]
    rfl

/-- What a pass with the default steps makes of a document without a script: it is laid out, and the
sections of calls and of parameters are emptied. -/
theorem text_repairText_scriptless {config : RepairConfig} {exclusions : List Text} {result : RepairResult}
    (h : SectionKey.script.bodyIn (lines text) = [])
    (hrepair : (config.executor exclusions).repairText uri text desk = (.ok result, desk')) :
    result.text = SectionKey.parameters.vacate config.regenerateParameters
      (SectionKey.nested.vacate (config.regenerateNested && !desk'.index.records.isEmpty)
        (config.laidOut text)) := by
  obtain ⟨-, middle, between, hnested, hparameters, -⟩ :=
    runSteps_ofConfig_iff.1 (repairText_eq_ok hrepair)
  have hindex : desk'.index = (entered uri (config.laidOut text) desk).index := by
    rw [index_eq_of_run (Or.inr rfl) hparameters, index_eq_of_run (Or.inl rfl) hnested]
  have hlaid := config.bodyIn_script_laidOut h
  have hmiddle := runIf_nested_scriptless hlaid hnested
  have hscript : SectionKey.script.bodyIn (lines middle) = [] := by
    rw [hmiddle, (SectionKey.keepsOthers_vacate .nested _ _).bodyIn (by decide), hlaid]
  rw [runIf_parameters_scriptless hscript hparameters, hmiddle, hindex]

/-- A document without a script is left as it is by what writes its calls anew exactly if its section of
calls is empty, whatever index there is, and by what writes its parameters anew exactly if its section of
parameters is. A pass leaves it without declared parameters, and without declared calls if any scenario is
known. -/
theorem declarations_repairText_scriptless (h : SectionKey.isIn text .script = false) :
    (∀ index supply, (regenerateNested index supply text).1.changed = false ∧
        (regenerateNested index supply text).1.text = text ↔ SectionKey.nested.IsVacant text) ∧
      (∀ session uri exclusions, (regenerateParameters session uri text exclusions).1.changed = false ∧
        (regenerateParameters session uri text exclusions).1.text = text ↔
          SectionKey.parameters.IsVacant text) ∧
      ∀ (config : RepairConfig) exclusions uri desk result desk',
        (config.executor exclusions).repairText uri text desk = (.ok result, desk') →
          Declaration.nestedNames result.text =
              (if config.regenerateNested && !desk'.index.records.isEmpty then []
                else Declaration.nestedNames text) ∧
            Declaration.nestedUids result.text =
              (if config.regenerateNested && !desk'.index.records.isEmpty then []
                else Declaration.nestedUids text) ∧
            Declaration.parameterData result.text =
              (if config.regenerateParameters then [] else Declaration.parameterData text) := by
  have hbody := SectionKey.bodyIn_eq_nil_of_isIn_eq_false h
  refine ⟨fun index supply => ?_, fun session uri exclusions => ?_,
    fun config exclusions uri desk result desk' hrepair => ?_⟩
  · rw [regenerateNested_scriptless hbody]
    exact SectionKey.refill_nil_iff .nested text
  · rw [regenerateParameters_scriptless hbody]
    exact SectionKey.refill_nil_iff .parameters text
  · have htext := text_repairText_scriptless hbody hrepair
    generalize (config.regenerateNested && !desk'.index.records.isEmpty) = calls at htext ⊢
    have hnested : SectionKey.nested.tablesIn (lines result.text) =
        if calls then [] else SectionKey.nested.tablesIn (lines text) := by
      rw [htext, (SectionKey.keepsOthers_vacate .parameters _ _).tablesIn (by decide),
        SectionKey.tablesIn_vacate, config.tablesIn_laidOut (by decide)]
    have hparameters : SectionKey.parameters.tablesIn (lines result.text) =
        if config.regenerateParameters then [] else SectionKey.parameters.tablesIn (lines text) := by
      rw [htext, SectionKey.tablesIn_vacate,
        (SectionKey.keepsOthers_vacate .nested _ _).tablesIn (by decide), config.tablesIn_laidOut (by decide)]
    refine ⟨?_, ?_, ?_⟩
    · rw [Declaration.nestedNames_eq, Declaration.nestedNames_eq, hnested]
      cases calls <;> rfl
    · rw [Declaration.nestedUids_eq, Declaration.nestedUids_eq, Declaration.nestedEntries,
        Declaration.nestedEntries, hnested]
      cases calls <;> rfl
    · rw [Declaration.parameterData_eq, Declaration.parameterData_eq, Declaration.parameterEntries,
        Declaration.parameterEntries, hparameters]
      cases config.regenerateParameters <;> rfl

/-! ## A document that declares a parameter and a call -/

def scriptlessDocument : Text :=
  unlines ["ДанныеСценария:".toList, "    Имя: \"A\"".toList, "ПараметрыСценария:".toList,
    "    - ПараметрыСценария1:".toList, "        Имя: \"P\"".toList, "        Значение: \"v\"".toList,
    "ВложенныеСценарии:".toList, "    - ВложенныеСценарии1:".toList,
    "        UIDВложенныйСценарий: \"u\"".toList, "        ИмяСценария: \"B\"".toList, []]

theorem isIn_script_scriptlessDocument : SectionKey.isIn scriptlessDocument .script = false := by
  decide +kernel

theorem declarations_repairText_scriptless_twoItems :
    ∃ final, SectionKey.isIn scriptlessDocument .script = false ∧
      repaired scriptlessDocument = some final ∧ Declaration.parameterData final = [] := by
  have hended : (repaired scriptlessDocument).isSome = true := by decide +kernel
  rcases hrun : (RepairConfig.executor {} []).repairText "/a".toList scriptlessDocument bareDesk with
    ⟨_ | result, desk⟩
  · rw [repaired, hrun] at hended
    exact absurd hended (by simp [Except.toOption])
  · have hdeclared := (declarations_repairText_scriptless isIn_script_scriptlessDocument).2.2 {} []
      "/a".toList bareDesk result desk hrun
    exact ⟨result.text, isIn_script_scriptlessDocument, by rw [repaired, hrun]; rfl, hdeclared.2.2⟩

/-- The parameter and the call of the document are gone after a pass, and each of the two functions that
write a section anew has reported a change. -/
theorem declarations_lost_scriptless :
    SectionKey.isIn scriptlessDocument .script = false ∧
      (regenerateNested bareDesk.index bareDesk.supply scriptlessDocument).1.changed = true ∧
      (regenerateParameters {} "/a".toList scriptlessDocument []).1.changed = true ∧
      Declaration.nestedNames scriptlessDocument = ["B".toList] ∧
      (Declaration.parameterData scriptlessDocument).keys = ["P".toList] ∧
      (repaired scriptlessDocument).map (fun final =>
        (Declaration.nestedNames final, Declaration.parameterData final)) = some ([], []) := by
  refine ⟨isIn_script_scriptlessDocument, ?_⟩
  decide +kernel

end Executor

end Scenarist
