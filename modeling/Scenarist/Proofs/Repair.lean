import Scenarist.Proofs.Index
import Scenarist.Proofs.Pass

set_option autoImplicit false

/-! # Runs of a repair pass

A pass with the default steps puts the layout of the text in order, enters the result into the index, and
then writes the declarations anew. The index is not touched again, so it holds the record of the text in
between.

Main statements: `Executor.runSteps_ofConfig_iff` (what the default steps do, one after the other) and
`Executor.recordOf?_repair` (which record the index holds after a pass). -/

namespace Scenarist

open Text

/-! ## Steps one after the other -/

def RepairStep.nameIfChanged (step : RepairStep) (old new : Text) : List Text :=
  if new = old then [] else [step.name]

/-- An action that is taken or left out. -/
def StepAction.runIf (flag : Bool) (executor : Executor) (uri text : Text) (desk : Desk)
    (action : StepAction) : Except StepError Text × Desk :=
  if flag then action.run executor uri text desk else (.ok text, desk)

theorem StepAction.runIf_iff {flag : Bool} {executor : Executor} {uri text final : Text}
    {desk desk' : Desk} {action : StepAction} :
    action.runIf flag executor uri text desk = (.ok final, desk') ↔
      flag = false ∧ final = text ∧ desk' = desk ∨
        flag = true ∧ action.run executor uri text desk = (.ok final, desk') := by
  cases flag with
  | false =>
      simp only [runIf, Bool.false_eq_true, if_false, Prod.mk.injEq, Except.ok.injEq, true_and,
        false_and, or_false]
      exact ⟨fun h => ⟨h.1.symm, h.2.symm⟩, fun h => ⟨h.1.symm, h.2.symm⟩⟩
  | true => simp [runIf]

namespace Executor

variable {executor : Executor} {uri text final : Text} {desk desk' : Desk} {applied : List Text}

theorem runSteps_cons_iff {step : RepairStep} {steps : List RepairStep} :
    executor.runSteps uri (step :: steps) text desk = (.ok (final, applied), desk') ↔
      ∃ updated between rest, step.action.run executor uri text desk = (.ok updated, between) ∧
        executor.runSteps uri steps updated between = (.ok (final, rest), desk') ∧
        applied = step.nameIfChanged text updated ++ rest := by
  rw [runSteps]
  rcases hrun : step.action.run executor uri text desk with ⟨_ | updated, between⟩
  · simp
  · rcases hrest : executor.runSteps uri steps updated between with ⟨_ | ⟨found, rest⟩, last⟩
    · constructor
      · intro h
        simp [hrest] at h
      · rintro ⟨_, _, _, heq, h, -⟩
        obtain ⟨rfl, rfl⟩ : updated = _ ∧ between = _ := by simpa using heq
        rw [hrest] at h
        simp at h
    · constructor
      · intro h
        simp only [hrest, Prod.mk.injEq, Except.ok.injEq] at h
        obtain ⟨⟨rfl, rfl⟩, rfl⟩ := h
        refine ⟨updated, between, rest, rfl, hrest, ?_⟩
        unfold RepairStep.nameIfChanged
        split <;> rfl
      · rintro ⟨_, _, _, heq, h, rfl⟩
        obtain ⟨rfl, rfl⟩ : updated = _ ∧ between = _ := by simpa using heq
        rw [hrest] at h
        obtain ⟨⟨rfl, rfl⟩, rfl⟩ : (found = final ∧ rest = _) ∧ last = desk' := by simpa using h
        simp only [hrest]
        unfold RepairStep.nameIfChanged
        split <;> rfl

theorem runSteps_append_iff {front back : List RepairStep} :
    executor.runSteps uri (front ++ back) text desk = (.ok (final, applied), desk') ↔
      ∃ middle between first second,
        executor.runSteps uri front text desk = (.ok (middle, first), between) ∧
          executor.runSteps uri back middle between = (.ok (final, second), desk') ∧
          applied = first ++ second := by
  induction front generalizing text desk applied with
  | nil => simp [runSteps]
  | cons step front ih =>
      rw [List.cons_append, runSteps_cons_iff]
      constructor
      · rintro ⟨updated, between, rest, hrun, hrest, rfl⟩
        obtain ⟨middle, next, first, second, hfirst, hsecond, rfl⟩ := ih.1 hrest
        exact ⟨middle, next, _, second, runSteps_cons_iff.2 ⟨updated, between, first, hrun, hfirst, rfl⟩,
          hsecond, by simp⟩
      · rintro ⟨middle, next, first, second, hfirst, hsecond, rfl⟩
        obtain ⟨updated, between, rest, hrun, hrest, rfl⟩ := runSteps_cons_iff.1 hfirst
        exact ⟨updated, between, rest ++ second, hrun, ih.2 ⟨middle, next, rest, second, hrest, hsecond, rfl⟩,
          by simp⟩

theorem runSteps_singleton_iff {step : RepairStep} :
    executor.runSteps uri [step] text desk = (.ok (final, applied), desk') ↔
      step.action.run executor uri text desk = (.ok final, desk') ∧ applied = step.nameIfChanged text final := by
  rw [runSteps_cons_iff]
  constructor
  · rintro ⟨updated, between, rest, hrun, hrest, rfl⟩
    obtain ⟨⟨rfl, rfl⟩, rfl⟩ : (updated = final ∧ [] = rest) ∧ between = desk' := by
      simpa [runSteps] using hrest
    exact ⟨hrun, by simp⟩
  · rintro ⟨hrun, rfl⟩
    exact ⟨final, desk', [], hrun, rfl, by simp⟩

theorem runSteps_optional_iff (flag : Bool) {step : RepairStep} :
    executor.runSteps uri (if flag then [step] else []) text desk = (.ok (final, applied), desk') ↔
      step.action.runIf flag executor uri text desk = (.ok final, desk') ∧
        applied = step.nameIfChanged text final := by
  cases flag with
  | false =>
      simp only [Bool.false_eq_true, if_false, runSteps, StepAction.runIf, Prod.mk.injEq,
        Except.ok.injEq]
      constructor
      · rintro ⟨⟨rfl, rfl⟩, rfl⟩
        exact ⟨⟨rfl, rfl⟩, by simp [RepairStep.nameIfChanged]⟩
      · rintro ⟨⟨rfl, rfl⟩, rfl⟩
        exact ⟨⟨rfl, by simp [RepairStep.nameIfChanged]⟩, rfl⟩
  | true => exact runSteps_singleton_iff

end Executor

/-- A pass that is not rolled back took all of its steps. -/
theorem Executor.repairText_eq_ok {executor : Executor} {uri text : Text} {desk desk' : Desk}
    {result : RepairResult} (h : executor.repairText uri text desk = (.ok result, desk')) :
    executor.runSteps uri executor.steps text desk = (.ok (result.text, result.applied), desk') := by
  obtain ⟨final, applied, hsteps, -, rfl⟩ := repairText_eq_ok_iff.1 (congrArg Prod.fst h)
  have hdesk := executor.snd_repairText uri text desk
  rw [h] at hdesk
  exact Prod.ext hsteps hdesk.symm

/-! ## The default steps -/

namespace RepairConfig

/-- The text after each of the steps that only put its layout in order. -/
def normalized (config : RepairConfig) (text : Text) : Text :=
  if config.normalizeTabs then expandLeadingTabs text else text

def withTables (config : RepairConfig) (text : Text) : Text :=
  if config.alignTables then alignScriptTables (config.normalized text) else config.normalized text

/-- The text after the steps that only put its layout in order. -/
def laidOut (config : RepairConfig) (text : Text) : Text :=
  if config.alignAssignments then alignScriptAssignments (config.withTables text)
  else config.withTables text

def layoutNames (config : RepairConfig) (text : Text) : List Text :=
  RepairStep.normalizeTabs.nameIfChanged text (config.normalized text) ++
    RepairStep.alignTables.nameIfChanged (config.normalized text) (config.withTables text) ++
    RepairStep.alignAssignments.nameIfChanged (config.withTables text) (config.laidOut text)

def executor (config : RepairConfig) (exclusions : List Text) : Executor where
  steps := RepairStep.ofConfig config
  exclusions := exclusions
  writeChanges := config.writeChanges

end RepairConfig

/-- The default steps are those that put the layout in order, the one that enters the document, and those
that write the declarations anew. -/
theorem RepairStep.exists_ofConfig_eq (config : RepairConfig) :
    ∃ back, ofConfig config = (if config.normalizeTabs then [normalizeTabs] else []) ++
        ((if config.alignTables then [alignTables] else []) ++
          ((if config.alignAssignments then [alignAssignments] else []) ++ index :: back)) ∧
      ∀ step ∈ back, step.action = .nested ∨ step.action = .parameters := by
  refine ⟨(if config.regenerateNested then [regenerateNested] else []) ++
    (if config.regenerateParameters then [regenerateParameters] else []), ?_, fun step hstep => ?_⟩
  · simp only [ofConfig, List.append_assoc, List.cons_append, List.nil_append]
  · have hoptional : ∀ {flag : Bool} {optional : RepairStep},
        step ∈ (if flag then [optional] else []) → step = optional := by
      rintro (_ | _) optional hstep
      · simp at hstep
      · exact List.mem_singleton.1 hstep
    rcases List.mem_append.1 hstep with hstep | hstep
    · exact Or.inl (congrArg RepairStep.action (hoptional hstep))
    · exact Or.inr (congrArg RepairStep.action (hoptional hstep))

namespace Executor

variable {executor : Executor} {config : RepairConfig} {uri text final : Text} {desk desk' : Desk}
  {applied : List Text}

theorem runIf_ofFunction (flag : Bool) (name : String) (change : Text → Text) :
    (RepairStep.ofFunction name change).action.runIf flag executor uri text desk =
      (.ok (if flag then change text else text), desk) := by
  cases flag <;> rfl

def entered (uri text : Text) (desk : Desk) : Desk :=
  { desk with index := (desk.index.upsert uri text).2 }

theorem run_index (executor : Executor) (uri text : Text) (desk : Desk) :
    StepAction.index.run executor uri text desk =
      match guardScalars (Record.scalarsOf text) () with
      | .error fault => (.error (.ofFault fault), desk)
      | .ok _ => (.ok text, entered uri text desk) := by
  simp only [StepAction.run, Index.tryUpsert, guardScalars]
  cases (Record.scalarsOf text).findSome? Scalar.fault? <;> rfl

theorem run_index_iff :
    StepAction.index.run executor uri text desk = (.ok final, desk') ↔
      guardScalars (Record.scalarsOf text) () = .ok () ∧ final = text ∧ desk' = entered uri text desk := by
  rw [run_index]
  cases guardScalars (Record.scalarsOf text) () with
  | error fault => simp
  | ok _ =>
      simp only [Prod.mk.injEq, Except.ok.injEq, true_and]
      exact ⟨fun h => ⟨h.1.symm, h.2.symm⟩, fun h => ⟨h.1.symm, h.2.symm⟩⟩

theorem runSteps_ofFunction_iff (flag : Bool) {name : String} {change : Text → Text} :
    executor.runSteps uri (if flag then [RepairStep.ofFunction name change] else []) text desk =
        (.ok (final, applied), desk') ↔
      final = (if flag then change text else text) ∧ desk' = desk ∧
        applied = (RepairStep.ofFunction name change).nameIfChanged text final := by
  rw [runSteps_optional_iff, runIf_ofFunction, Prod.mk.injEq, Except.ok.injEq]
  exact ⟨fun ⟨⟨h, h'⟩, h''⟩ => ⟨h.symm, h'.symm, h''⟩, fun ⟨h, h', h''⟩ => ⟨⟨h.symm, h'.symm⟩, h''⟩⟩

theorem runSteps_index_iff :
    executor.runSteps uri [RepairStep.index] text desk = (.ok (final, applied), desk') ↔
      guardScalars (Record.scalarsOf text) () = .ok () ∧ final = text ∧ desk' = entered uri text desk ∧
        applied = [] := by
  rw [runSteps_singleton_iff]
  constructor
  · rintro ⟨hrun, rfl⟩
    obtain ⟨hguard, rfl, rfl⟩ := run_index_iff.1 hrun
    exact ⟨hguard, rfl, rfl, by simp [RepairStep.nameIfChanged]⟩
  · rintro ⟨hguard, rfl, rfl, rfl⟩
    exact ⟨run_index_iff.2 ⟨hguard, rfl, rfl⟩, by simp [RepairStep.nameIfChanged]⟩

/-- What the default steps do: the layout is put in order, the text is entered into the index, and the
declarations are written anew. -/
theorem runSteps_ofConfig_iff :
    executor.runSteps uri (RepairStep.ofConfig config) text desk = (.ok (final, applied), desk') ↔
      guardScalars (Record.scalarsOf (config.laidOut text)) () = .ok () ∧
      ∃ middle between,
        StepAction.nested.runIf config.regenerateNested executor uri (config.laidOut text)
          (entered uri (config.laidOut text) desk) = (.ok middle, between) ∧
        StepAction.parameters.runIf config.regenerateParameters executor uri middle between =
          (.ok final, desk') ∧
        applied = config.layoutNames text ++
          RepairStep.regenerateNested.nameIfChanged (config.laidOut text) middle ++
          RepairStep.regenerateParameters.nameIfChanged middle final := by
  constructor
  · intro h
    obtain ⟨middle, between, _, _, h₅, hparameters, rfl⟩ := runSteps_append_iff.1 h
    obtain ⟨_, _, _, _, h₄, hnested, rfl⟩ := runSteps_append_iff.1 h₅
    obtain ⟨_, _, _, _, h₃, hindex, rfl⟩ := runSteps_append_iff.1 h₄
    obtain ⟨_, _, _, _, h₂, hassignments, rfl⟩ := runSteps_append_iff.1 h₃
    obtain ⟨_, _, _, _, htabs, htables, rfl⟩ := runSteps_append_iff.1 h₂
    obtain ⟨rfl, rfl, rfl⟩ := (runSteps_ofFunction_iff _).1 htabs
    obtain ⟨rfl, rfl, rfl⟩ := (runSteps_ofFunction_iff _).1 htables
    obtain ⟨rfl, rfl, rfl⟩ := (runSteps_ofFunction_iff _).1 hassignments
    obtain ⟨hguard, rfl, rfl, rfl⟩ := runSteps_index_iff.1 hindex
    obtain ⟨hnested', rfl⟩ := (runSteps_optional_iff _).1 hnested
    obtain ⟨hparameters', rfl⟩ := (runSteps_optional_iff _).1 hparameters
    refine ⟨hguard, middle, between, hnested', hparameters', ?_⟩
    rw [List.append_nil]
    rfl
  · rintro ⟨hguard, middle, between, hnested, hparameters, rfl⟩
    refine runSteps_append_iff.2 ⟨middle, between, _, _, ?_,
      (runSteps_optional_iff _).2 ⟨hparameters, rfl⟩, rfl⟩
    refine runSteps_append_iff.2 ⟨config.laidOut text, entered uri (config.laidOut text) desk,
      config.layoutNames text, _, ?_, (runSteps_optional_iff _).2 ⟨hnested, rfl⟩, rfl⟩
    refine runSteps_append_iff.2 ⟨config.laidOut text, desk, config.layoutNames text, [], ?_,
      runSteps_index_iff.2 ⟨hguard, rfl, rfl, rfl⟩, by simp⟩
    refine runSteps_append_iff.2 ⟨config.withTables text, desk, _, _, ?_,
      (runSteps_ofFunction_iff _).2 ⟨rfl, rfl, rfl⟩, rfl⟩
    exact runSteps_append_iff.2 ⟨config.normalized text, desk, _, _,
      (runSteps_ofFunction_iff _).2 ⟨rfl, rfl, rfl⟩, (runSteps_ofFunction_iff _).2 ⟨rfl, rfl, rfl⟩, rfl⟩

theorem run_nested_iff :
    StepAction.nested.run executor uri text desk = (.ok final, desk') ↔
      (desk.index.records.isEmpty = true ∧ final = text ∧ desk' = desk) ∨
        desk.index.records.isEmpty = false ∧
          guardScalars (Declaration.scalarsOfNestedUids text) () = .ok () ∧
          final = (regenerateNested desk.index desk.supply text).1.text ∧
          desk' = { desk with supply := (regenerateNested desk.index desk.supply text).2 } := by
  rw [StepAction.run]
  cases desk.index.records.isEmpty with
  | true =>
      simp only [if_true, Prod.mk.injEq, Except.ok.injEq, true_and, Bool.true_eq_false, false_and, or_false]
      exact ⟨fun h => ⟨h.1.symm, h.2.symm⟩, fun h => ⟨h.1.symm, h.2.symm⟩⟩
  | false =>
      cases guardScalars (Declaration.scalarsOfNestedUids text) () with
      | error fault => simp
      | ok _ =>
          simp only [Bool.false_eq_true, if_false, Prod.mk.injEq, Except.ok.injEq, true_and, false_and,
            false_or]
          exact ⟨fun h => ⟨h.1.symm, h.2.symm⟩, fun h => ⟨h.1.symm, h.2.symm⟩⟩

theorem run_parameters_iff :
    StepAction.parameters.run executor uri text desk = (.ok final, desk') ↔
      guardScalars (Declaration.scalarsOfParameterData text) () = .ok () ∧
        final = (regenerateParameters desk.session uri text executor.exclusions).1.text ∧
        desk' = { desk with
          session := (regenerateParameters desk.session uri text executor.exclusions).2 } := by
  rw [StepAction.run]
  cases guardScalars (Declaration.scalarsOfParameterData text) () with
  | error fault => simp
  | ok _ =>
      simp only [Prod.mk.injEq, Except.ok.injEq, true_and]
      exact ⟨fun h => ⟨h.1.symm, h.2.symm⟩, fun h => ⟨h.1.symm, h.2.symm⟩⟩

/-- Only the step that enters the document changes the index. -/
theorem index_eq_of_run {action : StepAction} (haction : action = .nested ∨ action = .parameters)
    {flag : Bool} (h : action.runIf flag executor uri text desk = (.ok final, desk')) :
    desk'.index = desk.index := by
  rcases StepAction.runIf_iff.1 h with ⟨-, -, rfl⟩ | ⟨-, hrun⟩
  · rfl
  · rcases haction with rfl | rfl
    · rcases run_nested_iff.1 hrun with ⟨-, -, rfl⟩ | ⟨-, -, -, rfl⟩ <;> rfl
    · obtain ⟨-, -, rfl⟩ := run_parameters_iff.1 hrun
      rfl

/-! ## The index after a pass -/

/-- A pass with the default steps leaves the index with the text entered that was laid out. -/
theorem index_of_runSteps
    (h : executor.runSteps uri (RepairStep.ofConfig config) text desk = (.ok (final, applied), desk')) :
    desk'.index = (desk.index.upsert uri (config.laidOut text)).2 ∧
      (RepairStep.regenerateNested.name ∉ applied → RepairStep.regenerateParameters.name ∉ applied →
        final = config.laidOut text) := by
  obtain ⟨-, middle, between, hnested, hparameters, rfl⟩ := runSteps_ofConfig_iff.1 h
  constructor
  · rw [index_eq_of_run (Or.inr rfl) hparameters, index_eq_of_run (Or.inl rfl) hnested]
    rfl
  · intro hkept hkept'
    have hmiddle : middle = config.laidOut text := by
      by_contra hne
      exact hkept (by simp [RepairStep.nameIfChanged, hne])
    have hfinal : final = middle := by
      by_contra hne
      exact hkept' (by simp [RepairStep.nameIfChanged, hne])
    rw [hfinal, hmiddle]

section

variable {σ : Type} [DocumentStore σ] {store store' : σ} {result : RepairResult}

/-- A pass that came to an end without an error took the steps over the stored text, and stored the result
if it differs and is to be written. -/
theorem exists_runSteps_of_repair (h : executor.repair uri store desk = (.ok result, store', desk'))
    (hskipped : result.skipped = false) (herror : result.error = none) :
    ∃ before session between, DocumentStore.read store uri = .ok before ∧
      executor.runSteps uri executor.steps before { desk with session } =
        (.ok (result.text, result.applied), between) ∧ desk'.index = between.index ∧
      (executor.writeChanges = true → result.text = before ∧ store' = store ∨
        DocumentStore.write store uri result.text = .ok store') := by
  unfold repair at h
  rcases hbegin : desk.session.begin uri with ⟨_ | _, session⟩
  · rw [hbegin] at h
    obtain ⟨hresult, -⟩ := Prod.mk.inj h
    rw [← Except.ok.inj hresult] at hskipped
    simp at hskipped
  rw [hbegin] at h
  rcases hended : executor.handle uri (desk.session.overridesOf uri) (DocumentStore.read store uri) store
    { desk with session } with ⟨outcome, left, last⟩
  simp only [hended] at h
  obtain ⟨rfl, rfl, rfl⟩ : outcome = .ok result ∧ left = store' ∧ release uri last = desk' := by simpa using h
  have hends := ends_of_handle hended
  generalize DocumentStore.read store uri = fetched at hends
  -- all other ends leave an error
  cases hends with
  | written htext _ hwrite => exact ⟨_, session, _, rfl, repairText_eq_ok htext, rfl, fun _ => Or.inr hwrite⟩
  | kept htext hkept =>
      refine ⟨_, session, _, rfl, repairText_eq_ok htext, rfl, fun hwrites => Or.inl ⟨?_, rfl⟩⟩
      obtain ⟨final, applied, -, -, rfl⟩ := repairText_eq_ok_iff.1 (congrArg Prod.fst htext)
      simpa [hwrites] using hkept
  | unread | rolledBack | refused | reported | unwritten => simp at herror

/-- After a pass the index holds the record of the text that was laid out, before the declarations were
written anew. It is that of the result, which is the stored text now, if and only if both texts make the
same one; they do if neither declaration changed. -/
theorem recordOf?_repair {exclusions : List Text} (huri : (Path.ofText uri).toText = uri)
    (hwrite : config.writeChanges = true)
    (h : (config.executor exclusions).repair uri store desk = (.ok result, store', desk'))
    (hskipped : result.skipped = false) (herror : result.error = none) :
    ∃ before, DocumentStore.read store uri = .ok before ∧
      (result.text = before ∧ store' = store ∨ DocumentStore.write store uri result.text = .ok store') ∧
      desk'.index.recordOf? uri =
        Record.ofText? (desk'.index.sourceOf uri) (config.laidOut before) ∧
      (desk'.index.recordOf? uri = Record.ofText? (desk'.index.sourceOf uri) result.text ↔
        Record.ofText? (desk'.index.sourceOf uri) result.text =
          Record.ofText? (desk'.index.sourceOf uri) (config.laidOut before)) ∧
      (RepairStep.regenerateNested.name ∉ result.applied →
        RepairStep.regenerateParameters.name ∉ result.applied →
          desk'.index.recordOf? uri = Record.ofText? (desk'.index.sourceOf uri) result.text) := by
  obtain ⟨before, session, between, hread, hrun, hindex, hstored⟩ :=
    exists_runSteps_of_repair h hskipped herror
  obtain ⟨hentered, hkept⟩ := index_of_runSteps hrun
  have hsource : desk'.index.sourceOf uri = desk.index.sourceOf uri := by
    rw [hindex, hentered]
    unfold Index.sourceOf
    rw [Index.scanRoot_upsert]
  have hrecord : desk'.index.recordOf? uri =
      Record.ofText? (desk'.index.sourceOf uri) (config.laidOut before) := by
    rw [hsource, hindex, hentered]
    exact Index.recordOf?_upsert desk.index huri (config.laidOut before)
  refine ⟨before, hread, hstored hwrite, hrecord, ?_, fun hnested hparameters => ?_⟩
  · rw [hrecord]
    exact eq_comm
  · rw [hkept hnested hparameters, hrecord]

end

/-! ## A pass over a document that declares nothing -/

def bareDesk : Desk where
  index := { scanRoot := none, patterns := [], scanYield := 1, refresher := { debounce := 0 } }
  session := {}
  supply := { make := fun n => 'u' :: ofNat n }

def undeclaringDocument : Text :=
  unlines ["ДанныеСценария:".toList, "    Имя: \"A\"".toList, "ПараметрыСценария:".toList, [],
    "ТекстСценария: |".toList, "    И я ввожу \"[P]\"".toList, []]

def passOverUndeclaring : Except StepError RepairResult × MemoryStore × Desk :=
  (RepairConfig.executor {} []).repair "/a".toList
    (MemoryStore.mk [("/a".toList, undeclaringDocument)]) bareDesk

theorem recordOf?_passOverUndeclaring :
    ∃ result, passOverUndeclaring.1 = .ok result ∧ result.skipped = false ∧ result.error = none ∧
      passOverUndeclaring.2.2.index.recordOf? "/a".toList =
        Record.ofText? (passOverUndeclaring.2.2.index.sourceOf "/a".toList)
          (RepairConfig.laidOut {} undeclaringDocument) := by
  have hended : passOverUndeclaring.1.toOption.map (fun result => (result.skipped, result.error)) =
      some (false, none) := by decide +kernel
  rcases hrun : passOverUndeclaring with ⟨_ | result, store, desk⟩
  · rw [hrun] at hended
    exact absurd hended (by simp [Except.toOption])
  · rw [hrun] at hended
    obtain ⟨hskipped, herror⟩ : result.skipped = false ∧ result.error = none := by
      simpa [Except.toOption] using hended
    obtain ⟨before, hread, -, hrecord, -, -⟩ :=
      recordOf?_repair (by decide +kernel) rfl hrun hskipped herror
    have hbefore : before = undeclaringDocument :=
      Except.ok.inj (hread.symm.trans (by decide +kernel))
    rw [hbefore] at hrecord
    exact ⟨result, rfl, hskipped, herror, hrecord⟩

/-- The parameter that the pass declares is in the stored text and not in the index. -/
theorem parameters_of_passOverUndeclaring :
    passOverUndeclaring.1.toOption.map (fun result => (result.skipped, result.error)) =
        some (false, none) ∧
      (passOverUndeclaring.2.2.index.recordOf? "/a".toList).map (·.parameters) = some [] ∧
      (DocumentStore.read passOverUndeclaring.2.1 "/a".toList).toOption.bind (fun now =>
        (Record.ofText? (passOverUndeclaring.2.2.index.sourceOf "/a".toList) now).map (·.parameters)) =
          some ["P".toList] := by
  decide +kernel

end Executor

end Scenarist
