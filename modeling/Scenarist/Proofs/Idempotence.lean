import Scenarist.Proofs.Frame
import Scenarist.Proofs.Guard
import Scenarist.Proofs.Presence

set_option autoImplicit false

/-! # A pass over its own result

The layout of a text that a pass made is in order, the index looks up what it looked up before, and both
sections are filled with the items that would be written again. So a second pass finds nothing to do, if
what the first one wrote is read back: that is where a line feed in the identifier of a scenario that
calls itself does harm.

Main statements: `Executor.laidOut_again`, `Executor.nested_again`, `Executor.parameters_again` (the steps
one by one) and `Executor.repairText_again` (the second pass). -/

namespace Scenarist

open Text

theorem LineEnd.IsThroughout.isEven_bodyIn {text : Text} (h : LineEnd.IsThroughout text)
    (key : SectionKey) : LineEnd.IsEven (key.bodyIn (lines text)) := by
  cases hfind : key.find? text with
  | none =>
      rw [SectionKey.bodyIn, ← SectionKey.find?_map_block, hfind]
      exact Or.inl (fun l hl => absurd hl List.not_mem_nil)
  | some s =>
      rw [SectionKey.bodyIn_eq_of_find? hfind]
      have hlines := (SectionKey.found_of_find? hfind).lines_eq
      rcases h with h | h
      · refine Or.inr fun l hl hlast => ?_
        have hline : l ∈ lines text := by
          rw [hlines]
          simp [List.dropLast_subset _ hl]
        exact h (mem_of_mem_splitOn hline (List.mem_of_mem_getLast? hlast))
      · refine Or.inl fun l hl => h l ?_
        have hassoc : s.above ++ (key.name ++ ':' :: s.rest) :: (s.body ++ s.below) =
            (s.above ++ [key.name ++ ':' :: s.rest]) ++ (s.body ++ s.below) := by simp
        rw [hlines, hassoc]
        rcases List.eq_nil_or_concat' s.below with hbelow | ⟨front, last, hbelow⟩
        · have hne : s.body ≠ [] := by
            rintro hnil
            rw [hnil] at hl
            exact absurd hl List.not_mem_nil
          rw [hbelow, List.append_nil, List.dropLast_append_of_ne_nil hne]
          exact List.mem_append_right _ hl
        · have hconcat : (s.above ++ [key.name ++ ':' :: s.rest]) ++ (s.body ++ (front ++ [last])) =
              ((s.above ++ [key.name ++ ':' :: s.rest]) ++ (s.body ++ front)) ++ [last] := by simp
          rw [hbelow, hconcat, List.dropLast_concat]
          simp [List.dropLast_subset _ hl]

theorem missingSections_self (text : Text) : missingSections text text = [] :=
  KeepsSections.missingSections_eq_nil_iff.2 (.refl text)

namespace Executor

variable {executor : Executor} {config : RepairConfig} {uri text middle final : Text}
  {desk between desk' : Desk} {result : RepairResult}

/-! ## What the steps keep -/

section

variable {exclusions : List Text} (hsupplies : Supplies (fun value => '\n' ∉ value) uri text desk)
  (hself : IfSelfCalled config uri text desk fun record => ∀ uid ∈ record.uid, '\n' ∉ uid)
  (hnested : StepAction.nested.runIf config.regenerateNested executor uri (config.laidOut text)
    (entered uri (config.laidOut text) desk) = (.ok middle, between))
  (hparameters : StepAction.parameters.runIf config.regenerateParameters executor uri middle between =
    (.ok final, desk'))

include hsupplies hself hnested hparameters

/-- Whatever sections keep that are written anew holds after each step if it held of the text that was
laid out. -/
theorem steps_induction {motive : Text → Prop} (hlaidOut : motive (config.laidOut text))
    (hrefill : ∀ (key : SectionKey) (items : List (List (Field × Text))) (names : List Text) (t : Text),
      key = .nested ∨ key = .parameters → KeepLines items →
      (key.render items ≠ [] → 2 ≤ (lines t).length) → motive t →
        motive (key.refill names (key.render items) t).text) :
    motive middle ∧ motive final := by
  have hkeeps := keeps_nested hsupplies hself hnested
  have hmiddle : motive middle := by
    rcases StepAction.runIf_iff.1 hnested with ⟨-, rfl, -⟩ | ⟨-, hrun⟩
    · exact hlaidOut
    · rcases run_nested_iff.1 hrun with ⟨-, rfl, -⟩ | ⟨-, -, rfl, -⟩
      · exact hlaidOut
      · rw [regenerateNested_eq]
        refine hrefill _ _ _ _ (Or.inl rfl) (hsupplies.keepLines_nestedFields hself) (fun hne => ?_) hlaidOut
        exact SectionKey.two_le_length_of_bodyIn_ne_nil (bodyIn_ne_nil_of_render_nestedFields hne)
  refine ⟨hmiddle, ?_⟩
  rcases StepAction.runIf_iff.1 hparameters with ⟨-, rfl, -⟩ | ⟨-, hrun⟩
  · exact hmiddle
  · obtain ⟨-, rfl, -⟩ := run_parameters_iff.1 hrun
    have hsession : between.session = (entered uri (config.laidOut text) desk).session :=
      session_of_nested hnested
    rw [regenerateParameters_eq, hsession]
    refine hrefill _ _ _ _ (Or.inr rfl) (hsupplies.keepLines_parameterItems
      (parameterData_of_nested hkeeps) _) (fun hne => ?_) hmiddle
    exact SectionKey.two_le_length_of_bodyIn_ne_nil (bodyIn_ne_nil_of_render_parameterItems hne)

theorem bodyIn_script_steps :
    SectionKey.script.bodyIn (lines middle) = SectionKey.script.bodyIn (lines (config.laidOut text)) ∧
      SectionKey.script.bodyIn (lines final) = SectionKey.script.bodyIn (lines (config.laidOut text)) := by
  refine steps_induction hsupplies hself hnested hparameters
    (motive := fun t =>
      SectionKey.script.bodyIn (lines t) = SectionKey.script.bodyIn (lines (config.laidOut text)))
    rfl fun key items names t hkey hitems _ ht => ?_
  refine ((keepsOthers_refill hitems key names t).bodyIn ?_).trans ht
  rcases hkey with rfl | rfl <;> decide

theorem sameIdentity_steps :
    SameIdentity (unmarkedLines (lines final)) (unmarkedLines (lines (config.laidOut text))) := by
  have hsteps := steps_induction hsupplies hself hnested hparameters
    (motive := fun t => SameIdentity (unmarkedLines (lines t)) (unmarkedLines (lines (config.laidOut text))))
    ⟨rfl, rfl⟩ fun key items names t hkey hitems _ ht => ?_
  · exact hsteps.2
  · refine (SameIdentity.of_keepsOthers (keepsOthers_refill hitems key names t) ?_ ?_).trans ht
    · rcases hkey with rfl | rfl <;> decide
    · rcases hkey with rfl | rfl <;> decide

theorem guard_scalarsOf_steps
    (hguard : guardScalars (Record.scalarsOf (config.laidOut text)) () = .ok ()) :
    guardScalars (Record.scalarsOf final) () = .ok () := by
  refine (steps_induction hsupplies hself hnested hparameters
    (motive := fun t => guardScalars (Record.scalarsOf t) () = .ok ()) hguard
    fun key items names t hkey hitems _ ht => ?_).2
  refine Record.guard_scalarsOf_refill hitems ?_ ?_ names ht
  · rcases hkey with rfl | rfl <;> decide
  · rcases hkey with rfl | rfl <;> decide

theorem isUsedIn_steps {lineEnd : LineEnd} (hend : lineEnd.IsUsedIn (lines (config.laidOut text))) :
    lineEnd.IsUsedIn (lines middle) ∧ lineEnd.IsUsedIn (lines final) :=
  steps_induction hsupplies hself hnested hparameters (motive := fun t => lineEnd.IsUsedIn (lines t)) hend
    fun _ _ names _ _ hitems hlength ht => isUsedIn_refill hitems ht hlength names

/-! ## The steps once more -/

/-- The layout of the result is in order. -/
theorem laidOut_again (heven : LineEnd.IsEven (SectionKey.script.bodyIn (lines text))) :
    config.laidOut final = final ∧ config.layoutNames final = [] := by
  have hscript := (bodyIn_script_steps hsupplies hself hnested hparameters).2
  obtain ⟨htables, hassignments⟩ := config.realign_laidOut heven
  refine config.laidOut_eq_self (fun htabs => ?_) (fun h => ?_) fun h => ?_
  · exact (steps_induction hsupplies hself hnested hparameters
      (motive := fun t => ∀ l ∈ lines t, expandTabs l = l) (config.expandTabs_laidOut heven htabs)
      fun _ _ names _ _ hitems _ ht => expandTabs_refill hitems names ht).2
  · rw [hscript]
    exact htables h
  · rw [hscript]
    exact hassignments h

/-- The index looks up what it looked up before. -/
theorem uidOf?_again :
    (∀ name, (entered uri final desk').index.uidOf? name =
      (entered uri (config.laidOut text) desk).index.uidOf? name) ∧
      (entered uri final desk').index.records.isEmpty =
        (entered uri (config.laidOut text) desk).index.records.isEmpty := by
  have hidentity := Record.identity_ofText?_congr (desk.index.sourceOf uri)
    (sameIdentity_steps hsupplies hself hnested hparameters)
  have hindex : desk'.index = (desk.index.upsert uri (config.laidOut text)).2 := by
    rw [index_eq_of_run (Or.inr rfl) hparameters, index_eq_of_run (Or.inl rfl) hnested]
    rfl
  show (∀ name, (desk'.index.upsert uri final).2.uidOf? name =
    (desk.index.upsert uri (config.laidOut text)).2.uidOf? name) ∧
      (desk'.index.upsert uri final).2.records.isEmpty =
        (desk.index.upsert uri (config.laidOut text)).2.records.isEmpty
  rw [hindex]
  exact Index.uidOf?_upsert_upsert desk.index uri hidentity

end

/-! ## The second pass -/

theorem isLiteral_of_mem_resolvedCalls
    (hnames : ∀ entry ∈ desk.index.records, Scalar.IsLiteral entry.1)
    (hself : IfSelfCalled config uri text desk fun record => Scalar.IsLiteral record.name) :
    ∀ entry ∈ resolvedCalls (entered uri (config.laidOut text) desk).index desk.supply
      (config.laidOut text), Scalar.IsLiteral entry.1 := by
  intro entry hentry
  obtain ⟨hcalled, record, hrecord⟩ := mem_expectedCalls (mem_expectedCalls_of_mem_resolvedCalls hentry)
  rcases mem_records_or_selfCalled config (Table.mem_of_get?_eq_some hrecord) hcalled with hold | hown
  · exact hnames _ hold
  · obtain ⟨own, hliteral, heq, -⟩ := hown hself
    exact heq ▸ hliteral

/-- The identifiers that are written are found again in the index or in the document. -/
theorem found_of_mem_resolvedCalls (hsupplies : Supplies Scalar.IsLiteral uri text desk)
    (hfresh : ∀ n, strip (desk.supply.make n) = desk.supply.make n ∧ desk.supply.make n ≠ []) :
    ∀ entry ∈ resolvedCalls (entered uri (config.laidOut text) desk).index desk.supply
        (config.laidOut text),
      recordUid? (entered uri (config.laidOut text) desk).index entry.1 = some entry.2 ∨
        Scalar.IsLiteral entry.2 ∧ strip entry.2 = entry.2 ∧ entry.2 ≠ [] := by
  intro entry hentry
  rcases resolvedCalls_cases hentry with hindex | hdeclared | ⟨n, hnew⟩
  · exact Or.inl hindex
  · obtain ⟨hstrip, hne⟩ := Declaration.strip_of_get?_nestedUids hdeclared
    rw [config.nestedUids_laidOut] at hdeclared
    exact Or.inr ⟨hsupplies.nested _ _ hdeclared, hstrip, hne⟩
  · rw [hnew]
    exact Or.inr ⟨hsupplies.fresh n, hfresh n⟩

section

variable {lineEnd : LineEnd} (hsupplies : Supplies Scalar.IsLiteral uri text desk)
  (hself : IfSelfCalled config uri text desk fun record =>
    Scalar.IsLiteral record.name ∧ ∀ uid ∈ record.uid, '\n' ∉ uid)
  (hnested : StepAction.nested.runIf config.regenerateNested executor uri (config.laidOut text)
    (entered uri (config.laidOut text) desk) = (.ok middle, between))
  (hparameters : StepAction.parameters.runIf config.regenerateParameters executor uri middle between =
    (.ok final, desk'))
  (hend : lineEnd.IsUsedIn (lines (config.laidOut text)))

include hsupplies hself hnested hparameters hend

/-- The declared calls of the result are those that would be written. -/
theorem nested_again (hnames : ∀ entry ∈ desk.index.records, Scalar.IsLiteral entry.1)
    (hfresh : ∀ n, strip (desk.supply.make n) = desk.supply.make n ∧ desk.supply.make n ≠ []) :
    ∃ between', StepAction.nested.runIf config.regenerateNested executor uri final
      (entered uri final desk') = (.ok final, between') := by
  have hfree : Supplies (fun value => '\n' ∉ value) uri text desk :=
    hsupplies.mono fun value hvalue => hvalue.not_mem (by decide)
  have huid : IfSelfCalled config uri text desk fun record => ∀ uid ∈ record.uid, '\n' ∉ uid :=
    hself.mono fun record h => h.2
  obtain ⟨hindex, hempty⟩ := uidOf?_again hfree huid hnested hparameters
  have hends := isUsedIn_steps hfree huid hnested hparameters hend
  rcases StepAction.runIf_iff.1 hnested with ⟨hflag, -, -⟩ | ⟨hflag, hrun⟩
  · exact ⟨_, StepAction.runIf_iff.2 (Or.inl ⟨hflag, rfl, rfl⟩)⟩
  · rcases run_nested_iff.1 hrun with ⟨hnone, -, -⟩ | ⟨hsome, -, hmiddle, -⟩
    · exact ⟨_, StepAction.runIf_iff.2
        (Or.inr ⟨hflag, run_nested_iff.2 (Or.inl ⟨hempty.trans hnone, rfl, rfl⟩)⟩)⟩
    · have hitems := hfree.keepLines_nestedFields huid
      have hsession : between.session = (entered uri (config.laidOut text) desk).session :=
        session_of_nested hnested
      have hothers := (keeps_parameters hfree hsession
        (parameterData_of_nested (keeps_nested hfree huid hnested)) hparameters).others
      -- what the first pass has written is read without refusal
      have hguard : guardScalars (Declaration.scalarsOfNestedUids final) () = .ok () := by
        refine Declaration.guard_scalarsOfNestedUids ?_
        rw [hothers.tablesIn (by decide), hmiddle, regenerateNested_eq]
        exact areWritten_tablesIn_refill hitems _ _
      have hagain : (regenerateNested (entered uri final desk').index desk'.supply final).1.text =
          final := by
        refine regenerateNested_again hindex hitems
          (isLiteral_of_mem_resolvedCalls hnames (hself.mono fun record h => h.1))
          (found_of_mem_resolvedCalls hsupplies hfresh) _ ?_ hend hends.2
        rw [hmiddle] at hothers
        exact hothers
      exact ⟨_, StepAction.runIf_iff.2 (Or.inr ⟨hflag,
        run_nested_iff.2 (Or.inr ⟨hempty.trans hsome, hguard, hagain.symm, rfl⟩)⟩)⟩

/-- The declared parameters of the result are those that would be written. -/
theorem parameters_again (between' : Desk) :
    ∃ last, StepAction.parameters.runIf config.regenerateParameters executor uri final between' =
      (.ok final, last) := by
  have hfree : Supplies (fun value => '\n' ∉ value) uri text desk :=
    hsupplies.mono fun value hvalue => hvalue.not_mem (by decide)
  have huid : IfSelfCalled config uri text desk fun record => ∀ uid ∈ record.uid, '\n' ∉ uid :=
    hself.mono fun record h => h.2
  have hends := isUsedIn_steps hfree huid hnested hparameters hend
  have hmiddle := parameterData_of_nested (keeps_nested hfree huid hnested)
  have hsession : between.session = (entered uri (config.laidOut text) desk).session :=
    session_of_nested hnested
  rcases StepAction.runIf_iff.1 hparameters with ⟨hflag, -, -⟩ | ⟨hflag, hrun⟩
  · exact ⟨_, StepAction.runIf_iff.2 (Or.inl ⟨hflag, rfl, rfl⟩)⟩
  · obtain ⟨-, hfinal, -⟩ := run_parameters_iff.1 hrun
    -- what the first pass has written is read without refusal, and read as it was meant
    have hguard : guardScalars (Declaration.scalarsOfParameterData final) () = .ok () := by
      refine Declaration.guard_scalarsOfParameterData ?_
      rw [hfinal, regenerateParameters_eq, hsession]
      exact areWritten_tablesIn_refill (hfree.keepLines_parameterItems hmiddle _) _ _
    have hfaithful : ∀ name ∈ usedParameters middle executor.exclusions,
        (writtenData between.session uri middle name).IsFaithful := by
      intro name hname
      obtain ⟨hvalue, htype, houtgoing⟩ := hsupplies.written (fun _ hliteral => hliteral) hmiddle
        (isIdentifier_of_mem_usedParameters hname)
      rw [hsession]
      exact ⟨hvalue.isFaithful, htype.isFaithful, houtgoing.isFaithful⟩
    have hagain := regenerateParameters_regenerateParameters between'.session hends.1 hfaithful hfinal
    exact ⟨_, StepAction.runIf_iff.2
      (Or.inr ⟨hflag, run_parameters_iff.2 ⟨hguard, hagain.symm, rfl⟩⟩)⟩

end

/-- A pass over the result of a pass applies no step, whatever both passes are configured to do: if the
text keeps to one line end, if what the first pass may write is literal, if new identifiers are stripped
and not empty, and if no line feed is in the identifier of a scenario that calls itself. -/
theorem repairText_again {exclusions : List Text}
    (h : (config.executor exclusions).repairText uri text desk = (.ok result, desk'))
    (hends : LineEnd.IsThroughout text) (hsupplies : Supplies Scalar.IsLiteral uri text desk)
    (hnames : ∀ entry ∈ desk.index.records, Scalar.IsLiteral entry.1)
    (hfresh : ∀ n, strip (desk.supply.make n) = desk.supply.make n ∧ desk.supply.make n ≠ [])
    (hself : IfSelfCalled config uri text desk fun record =>
      Scalar.IsLiteral record.name ∧ ∀ uid ∈ record.uid, '\n' ∉ uid) :
    ((config.executor exclusions).repairText uri result.text desk').1 =
      .ok { path := uri, changed := false, text := result.text, applied := [] } := by
  have hfree : Supplies (fun value => '\n' ∉ value) uri text desk :=
    hsupplies.mono fun value hvalue => hvalue.not_mem (by decide)
  have huid : IfSelfCalled config uri text desk fun record => ∀ uid ∈ record.uid, '\n' ∉ uid :=
    hself.mono fun record hrecord => hrecord.2
  obtain ⟨hguard, middle, between, hnested, hparameters, -⟩ :=
    runSteps_ofConfig_iff.1 (repairText_eq_ok h)
  obtain ⟨lineEnd, hend⟩ := config.exists_isUsedIn_laidOut hends
  obtain ⟨hlaidOut, hlayoutNames⟩ :=
    laidOut_again hfree huid hnested hparameters (hends.isEven_bodyIn .script)
  have hguard' := guard_scalarsOf_steps hfree huid hnested hparameters hguard
  obtain ⟨between', hnested'⟩ := nested_again hsupplies hself hnested hparameters hend hnames hfresh
  obtain ⟨last, hparameters'⟩ := parameters_again hsupplies hself hnested hparameters hend between'
  have hrun : (config.executor exclusions).runSteps uri (RepairStep.ofConfig config) result.text desk' =
      (.ok (result.text, []), last) := by
    rw [runSteps_ofConfig_iff, hlaidOut, hlayoutNames]
    refine ⟨hguard', result.text, between', hnested', hparameters', ?_⟩
    simp [RepairStep.nameIfChanged]
  have hsteps : (config.executor exclusions).steps = RepairStep.ofConfig config := rfl
  unfold repairText
  rw [hsteps, hrun]
  simp [missingSections_self]

/-! ## Scenarios that call themselves -/

def selfCallingDocument (raw : Text) : Text :=
  unlines ["ДанныеСценария:".toList, "    Имя: \"A\"".toList, "    UID: ".toList ++ raw,
    "ВложенныеСценарии:".toList, "ТекстСценария: |".toList, "    И A".toList, []]

def repairedTwice (text : Text) : Option (RepairResult × RepairResult) :=
  match (RepairConfig.executor {} []).repairText "/a".toList text bareDesk with
  | (.ok first, desk) =>
    ((RepairConfig.executor {} []).repairText "/a".toList first.text desk).1.toOption.map (first, ·)
  | _ => none

theorem repairText_again_selfCalling :
    ∃ first, repairedTwice (selfCallingDocument "\"x\"".toList) =
        some (first, { path := "/a".toList, text := first.text }) ∧
      first.applied = ["regenerate_nested".toList] := by
  have hended : (repairedTwice (selfCallingDocument "\"x\"".toList)).map (·.1.applied) =
      some ["regenerate_nested".toList] := by
    decide +kernel
  unfold repairedTwice at hended ⊢
  rcases hrun : (RepairConfig.executor {} []).repairText "/a".toList
    (selfCallingDocument "\"x\"".toList) bareDesk with ⟨_ | first, desk⟩
  · rw [hrun] at hended
    exact absurd hended (by simp)
  · have hsupplies : Supplies Scalar.IsLiteral "/a".toList (selfCallingDocument "\"x\"".toList) bareDesk :=
      supplies_bareDesk (by decide +kernel) (by decide +kernel)
    have hself : IfSelfCalled {} "/a".toList (selfCallingDocument "\"x\"".toList) bareDesk
        fun record => Scalar.IsLiteral record.name ∧ ∀ uid ∈ record.uid, '\n' ∉ uid := by
      have hall : (Record.ofText? (bareDesk.index.sourceOf "/a".toList)
          (selfCallingDocument "\"x\"".toList)).all (fun record => decide (Scalar.IsLiteral record.name) &&
            record.uid.all fun uid => decide ('\n' ∉ uid)) = true := by
        decide +kernel
      intro record hrecord _
      rw [hrecord] at hall
      simpa [Option.all_eq_true] using hall
    have hfresh : ∀ n, strip (bareDesk.supply.make n) = bareDesk.supply.make n ∧
        bareDesk.supply.make n ≠ [] := by
      intro n
      refine ⟨strip_of_not_blank fun c hc => ?_, List.cons_ne_nil _ _⟩
      rcases List.mem_cons.1 hc with rfl | hc
      · decide
      · exact Scalar.isBlank_of_isNameLetter (ListItem.isNameLetter_of_mem_ofNat hc)
    have hagain := repairText_again hrun (by decide +kernel) hsupplies
      (fun entry hentry => absurd hentry List.not_mem_nil) hfresh hself
    rw [hrun] at hended
    simp only [hagain] at hended ⊢
    exact ⟨first, rfl, by simpa [Except.toOption] using hended⟩

/-- The identifier that an escape cuts in two makes a key at the top level, and the section is written
anew in front of it once more. -/
theorem repairText_again_lineFeed :
    LineEnd.IsThroughout (selfCallingDocument "\"x\\nk:\"".toList) ∧
      (repairedTwice (selfCallingDocument "\"x\\nk:\"".toList)).map
          (fun passes => (passes.1.applied, passes.2.applied, passes.2.changed)) =
        some (["regenerate_nested".toList], ["regenerate_nested".toList], true) := by
  decide +kernel

end Executor

end Scenarist
