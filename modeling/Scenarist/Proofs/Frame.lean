import Scenarist.Proofs.Layout
import Scenarist.Proofs.Nested
import Scenarist.Proofs.Parameters

set_option autoImplicit false

/-! # What a pass leaves of a document

A pass writes two sections anew, with values that come from the document, the session, the index and the
supply of identifiers. As long as none of them holds a line feed, nothing reaches the sections from which
a document's record takes the identity of its scenario. Remarks may stand anywhere, so those in a section
that is written anew get lost with it.

Main statements: `Supplies.resolved`, `Supplies.written` (where written values come from) and
`Executor.identity_repairText` (what stays of a document). -/

namespace Scenarist

open Text

/-- The record of a document that is laid out has the identity of the document's own. -/
theorem RepairConfig.identity_laidOut (config : RepairConfig) (source : Source) (text : Text) :
    (Record.ofText? source (config.laidOut text)).map Record.identity =
      (Record.ofText? source text).map Record.identity :=
  Record.identity_ofText?_congr source (config.sameIdentity_laidOut text)

/-! ## The values that a pass may write -/

/-- Whether the value, the type and the flag of a parameter are all of a kind. -/
def ParameterData.All (ok : Text → Prop) (data : ParameterData) : Prop :=
  ok data.value ∧ ok data.type ∧ ok data.outgoing

/-- If no data that are written hold a line feed, the items of parameters keep to their lines. -/
theorem keepLines_writtenData {session : Session} {uri text : Text} {names : List Text}
    (hnames : ∀ name ∈ names, isIdentifier name = true)
    (hdata : ∀ name ∈ names, (writtenData session uri text name).All ('\n' ∉ ·)) :
    KeepLines (parameterItems (writtenData session uri text) names) :=
  Declaration.not_mem_of_mem_parameterItems (by decide) hnames hdata

/-- Whether all that a pass may write into a document is of a kind: the data of its parameters, those
that the session remembers, the identifiers of the index and of declared calls, and new identifiers. -/
structure Supplies (ok : Text → Prop) (uri text : Text) (desk : Desk) : Prop where
  declared : ∀ name data, (Declaration.parameterData text).get? name = some data → data.All ok
  remembered : ∀ name data, (desk.session.overridesOf uri).get? name = some data → data.All ok
  indexed : ∀ entry ∈ desk.index.records, ∀ uid ∈ entry.2.uid, ok uid
  nested : ∀ name uid, (Declaration.nestedUids text).get? name = some uid → ok uid
  fresh : ∀ n, ok (desk.supply.make n)

/-- What holds of a document's own record if its script calls its own scenario. A pass enters that record
into the index, so it may write what the record holds. -/
def IfSelfCalled (config : RepairConfig) (uri text : Text) (desk : Desk) (holds : Record → Prop) : Prop :=
  ∀ record ∈ Record.ofText? (desk.index.sourceOf uri) text,
    record.name ∈ calledNames (config.laidOut text) → holds record

theorem IfSelfCalled.mono {config : RepairConfig} {uri text : Text} {desk : Desk}
    {holds holds' : Record → Prop} (h : IfSelfCalled config uri text desk holds)
    (himp : ∀ record, holds record → holds' record) : IfSelfCalled config uri text desk holds' :=
  fun record hrecord hcalled => himp record (h record hrecord hcalled)

theorem ifSelfCalled_of_calledNames {config : RepairConfig} {uri text : Text} {desk : Desk}
    {holds : Record → Prop} (h : calledNames (config.laidOut text) = []) :
    IfSelfCalled config uri text desk holds := by
  intro record _ hcalled
  rw [h] at hcalled
  exact absurd hcalled List.not_mem_nil

namespace Supplies

variable {ok : Text → Prop} {uri text : Text} {desk : Desk}

theorem mono {ok' : Text → Prop} (h : Supplies ok uri text desk) (hok : ∀ value, ok value → ok' value) :
    Supplies ok' uri text desk where
  declared name data hdata :=
    ⟨hok _ (h.declared name data hdata).1, hok _ (h.declared name data hdata).2.1,
      hok _ (h.declared name data hdata).2.2⟩
  remembered name data hdata :=
    ⟨hok _ (h.remembered name data hdata).1, hok _ (h.remembered name data hdata).2.1,
      hok _ (h.remembered name data hdata).2.2⟩
  indexed entry hentry uid huid := hok _ (h.indexed entry hentry uid huid)
  nested name uid huid := hok _ (h.nested name uid huid)
  fresh n := hok _ (h.fresh n)

end Supplies

/-- What is under a called name in the index that the document was entered into was there before, or it
is the record of the document, which calls itself then. -/
theorem mem_records_or_selfCalled (config : RepairConfig) {uri text : Text} {desk : Desk}
    {entry : Text × Record}
    (hentry : entry ∈ (Executor.entered uri (config.laidOut text) desk).index.records)
    (hcalled : entry.1 ∈ calledNames (config.laidOut text)) :
    entry ∈ desk.index.records ∨
      ∀ {holds : Record → Prop}, IfSelfCalled config uri text desk holds →
        ∃ own : Record, holds own ∧ entry.1 = own.name ∧ entry.2.uid = own.uid := by
  rcases Index.mem_records_upsert hentry with hentry | ⟨record, hrecord, rfl⟩
  · exact Or.inl hentry
  · refine Or.inr fun hself => ?_
    have hidentity := config.identity_laidOut (desk.index.sourceOf uri) text
    rw [hrecord, Option.map_some] at hidentity
    obtain ⟨own, hown, heq⟩ := Option.map_eq_some_iff.1 hidentity.symm
    have hname : own.name = record.name := congrArg Identity.name heq
    have huid : own.uid = record.uid := congrArg Identity.uid heq
    exact ⟨own, hself own hown (hname ▸ hcalled), hname.symm, huid.symm⟩

namespace Supplies

variable {ok : Text → Prop} {uri text : Text} {desk : Desk}

/-- The identifiers that are written come from the index, from the document, or from the supply. -/
theorem resolved {config : RepairConfig} (h : Supplies ok uri text desk)
    (hself : IfSelfCalled config uri text desk fun record => ∀ uid ∈ record.uid, ok uid) :
    ∀ entry ∈ resolvedCalls (Executor.entered uri (config.laidOut text) desk).index desk.supply
      (config.laidOut text), ok entry.2 := by
  intro entry hentry
  rcases resolvedCalls_cases hentry with hindex | hdeclared | ⟨n, hnew⟩
  · obtain ⟨huid, -⟩ := Option.filter_eq_some_iff.1 hindex
    obtain ⟨record, hrecord, hrecorduid⟩ := Option.bind_eq_some_iff.1 huid
    rcases mem_records_or_selfCalled config (Table.mem_of_get?_eq_some hrecord)
      (mem_expectedCalls (mem_expectedCalls_of_mem_resolvedCalls hentry)).1 with hold | hown
    · exact h.indexed _ hold _ hrecorduid
    · obtain ⟨own, hok, -, heq⟩ := hown hself
      exact hok _ (heq ▸ hrecorduid)
  · rw [config.nestedUids_laidOut] at hdeclared
    exact h.nested _ _ hdeclared
  · rw [hnew]
    exact h.fresh n

/-- The data that are written come from the document, from the session, or from the name. -/
theorem written (h : Supplies ok uri text desk) (hliteral : ∀ value, Scalar.IsLiteral value → ok value)
    {document : Text} (hdocument : Declaration.parameterData document = Declaration.parameterData text)
    {name : Text} (hname : isIdentifier name = true) :
    (writtenData desk.session uri document name).All ok := by
  have horElse : ∀ value otherwise, ok value → Scalar.IsLiteral otherwise →
      ok (Declaration.orElse value otherwise) := by
    intro value otherwise hvalue hotherwise
    unfold Declaration.orElse
    split
    · exact hliteral otherwise hotherwise
    · exact hvalue
  -- what stands for an empty type or flag is literal
  have hfilled : ∀ data : ParameterData, data.All ok → data.filled.All ok :=
    fun data hdata => ⟨hdata.1, horElse _ _ hdata.2.1 (by decide), horElse _ _ hdata.2.2 (by decide)⟩
  refine hfilled _ ?_
  have htype : Scalar.IsLiteral ParameterData.defaultType := by decide
  have houtgoing : Scalar.IsLiteral ParameterData.defaultOutgoing := by decide
  rw [get?_overridesOf_merge desk.session uri (Declaration.nodup_keys_parameterData document), hdocument]
  cases hdeclared : (Declaration.parameterData text).get? name with
  | some data => exact h.declared name data hdeclared
  | none =>
      cases hremembered : (desk.session.overridesOf uri).get? name with
      | some data => exact h.remembered name data hremembered
      | none =>
          exact ⟨hliteral _ (Scalar.isLiteral_of_isIdentifier hname), hliteral _ htype,
            hliteral _ houtgoing⟩

/-- If no value holds a line feed, the items of both sections keep to their lines. -/
theorem keepLines_nestedFields {config : RepairConfig}
    (h : Supplies (fun value => '\n' ∉ value) uri text desk)
    (hself : IfSelfCalled config uri text desk fun record => ∀ uid ∈ record.uid, '\n' ∉ uid) :
    KeepLines ((resolvedCalls (Executor.entered uri (config.laidOut text) desk).index desk.supply
      (config.laidOut text)).map nestedFields) :=
  keepLines_resolvedCalls (h.resolved hself)

theorem keepLines_parameterItems (h : Supplies (fun value => '\n' ∉ value) uri text desk)
    {document : Text} (hdocument : Declaration.parameterData document = Declaration.parameterData text)
    (exclusions : List Text) :
    KeepLines (parameterItems (writtenData desk.session uri document)
      (usedParameters document exclusions)) := by
  have hnames : ∀ name ∈ usedParameters document exclusions, isIdentifier name = true :=
    fun name hname => isIdentifier_of_mem_usedParameters hname
  exact keepLines_writtenData hnames fun name hname =>
    h.written (fun value hvalue => hvalue.not_mem (by decide)) hdocument (hnames name hname)

end Supplies

namespace Executor

variable {executor : Executor} {config : RepairConfig} {uri text middle final : Text}
  {desk between desk' : Desk} {result : RepairResult}

/-! ## The steps that write sections anew -/

/-- What stays of a document if the section under a key is written anew. -/
structure Keeps (key : SectionKey) (old new : Text) : Prop where
  others : key.KeepsOthers (lines old) (lines new)
  remarks : remarksIn (key.bodyIn (lines old)) = [] →
    remarksIn (lines new) = remarksIn (lines old) ∧
      remarksIn (unmarkedLines (lines new)) = remarksIn (unmarkedLines (lines old))

theorem Keeps.refl (key : SectionKey) (text : Text) : Keeps key text text :=
  ⟨SectionKey.KeepsOthers.refl key (lines text), fun _ => ⟨rfl, rfl⟩⟩

theorem keeps_refill {items : List (List (Field × Text))} (hitems : KeepLines items) (key : SectionKey)
    (names : List Text) (text : Text) :
    Keeps key text (key.refill names (key.render items) text).text :=
  ⟨keepsOthers_refill hitems key names text, fun hremarks => remarksIn_refill hitems names hremarks⟩

theorem keeps_nested (h : Supplies (fun value => '\n' ∉ value) uri text desk)
    (hself : IfSelfCalled config uri text desk fun record => ∀ uid ∈ record.uid, '\n' ∉ uid) {flag : Bool}
    (hrun : StepAction.nested.runIf flag executor uri (config.laidOut text)
      (entered uri (config.laidOut text) desk) = (.ok middle, between)) :
    Keeps .nested (config.laidOut text) middle := by
  rcases StepAction.runIf_iff.1 hrun with ⟨-, rfl, -⟩ | ⟨-, hrun⟩
  · exact Keeps.refl _ _
  · rcases run_nested_iff.1 hrun with ⟨-, rfl, -⟩ | ⟨-, -, rfl, -⟩
    · exact Keeps.refl _ _
    · rw [regenerateNested_eq]
      exact keeps_refill (h.keepLines_nestedFields hself) _ _ _

theorem session_of_nested {flag : Bool} {start : Desk}
    (hrun : StepAction.nested.runIf flag executor uri text start = (.ok middle, between)) :
    between.session = start.session := by
  rcases StepAction.runIf_iff.1 hrun with ⟨-, -, rfl⟩ | ⟨-, hrun⟩
  · rfl
  · rcases run_nested_iff.1 hrun with ⟨-, -, rfl⟩ | ⟨-, -, -, rfl⟩ <;> rfl

theorem parameterData_of_nested (h : Keeps .nested (config.laidOut text) middle) :
    Declaration.parameterData middle = Declaration.parameterData text := by
  refine Eq.trans ?_ (config.parameterData_laidOut text)
  rw [Declaration.parameterData_eq, Declaration.parameterData_eq, Declaration.parameterEntries,
    Declaration.parameterEntries, h.others.tablesIn (by decide)]

theorem keeps_parameters (h : Supplies (fun value => '\n' ∉ value) uri text desk)
    (hsession : between.session = desk.session)
    (hmiddle : Declaration.parameterData middle = Declaration.parameterData text) {flag : Bool}
    (hrun : StepAction.parameters.runIf flag executor uri middle between = (.ok final, desk')) :
    Keeps .parameters middle final := by
  rcases StepAction.runIf_iff.1 hrun with ⟨-, rfl, -⟩ | ⟨-, hrun⟩
  · exact Keeps.refl _ _
  · obtain ⟨-, rfl, -⟩ := run_parameters_iff.1 hrun
    rw [regenerateParameters_eq, hsession]
    exact keeps_refill (h.keepLines_parameterItems hmiddle _) _ _ _

/-! ## A whole pass -/

/-- A pass leaves name, identifier, code and description of the scenario. If the line ends of the script
body are even and no remark stands in a section that is written anew, it also leaves the tab of the
scenario and the language of the document. -/
theorem identity_repairText {exclusions : List Text}
    (h : (config.executor exclusions).repairText uri text desk = (.ok result, desk'))
    (hsupplies : Supplies (fun value => '\n' ∉ value) uri text desk)
    (hself : IfSelfCalled config uri text desk fun record => ∀ uid ∈ record.uid, '\n' ∉ uid)
    (source : Source) :
    (Record.ofText? source result.text).map Record.identity =
        (Record.ofText? source text).map Record.identity ∧
      (LineEnd.IsEven (SectionKey.script.bodyIn (lines text)) →
        (config.regenerateNested = true → remarksIn (SectionKey.nested.bodyIn (lines text)) = []) →
        (config.regenerateParameters = true →
          remarksIn (SectionKey.parameters.bodyIn (lines text)) = []) →
        (Record.ofText? source result.text).map (·.tab) = (Record.ofText? source text).map (·.tab) ∧
          Language.detect? result.text = Language.detect? text) := by
  obtain ⟨-, middle, between, hnested, hparameters, -⟩ :=
    runSteps_ofConfig_iff.1 (repairText_eq_ok h)
  have hfirst := keeps_nested hsupplies hself hnested
  have hsession : between.session = (entered uri (config.laidOut text) desk).session :=
    session_of_nested hnested
  have hsecond := keeps_parameters hsupplies hsession (parameterData_of_nested hfirst) hparameters
  have hidentity := ((SameIdentity.of_keepsOthers hsecond.others (by decide) (by decide)).trans
    (SameIdentity.of_keepsOthers hfirst.others (by decide) (by decide))).trans
      (config.sameIdentity_laidOut text)
  refine ⟨Record.identity_ofText?_congr source hidentity, fun heven hmarks hmarks' => ?_⟩
  have hlaidOut := config.remarksIn_laidOut heven
  have hremarks : remarksIn (lines middle) = remarksIn (lines text) ∧
      remarksIn (unmarkedLines (lines middle)) = remarksIn (unmarkedLines (lines text)) := by
    by_cases hflag : config.regenerateNested = true
    · have hbody := config.remarksIn_bodyIn_laidOut SectionKey.nested (by decide) text
      have hkept := hfirst.remarks (hbody.trans (hmarks hflag))
      exact ⟨hkept.1.trans hlaidOut.1, hkept.2.trans hlaidOut.2⟩
    · rcases StepAction.runIf_iff.1 hnested with ⟨-, rfl, -⟩ | ⟨htrue, -⟩
      · exact hlaidOut
      · exact absurd htrue hflag
  have hall : remarksIn (lines result.text) = remarksIn (lines text) ∧
      remarksIn (unmarkedLines (lines result.text)) = remarksIn (unmarkedLines (lines text)) := by
    by_cases hflag : config.regenerateParameters = true
    · have hbody := config.remarksIn_bodyIn_laidOut SectionKey.parameters (by decide) text
      rw [← hfirst.others.bodyIn (by decide)] at hbody
      have hkept := hsecond.remarks (hbody.trans (hmarks' hflag))
      exact ⟨hkept.1.trans hremarks.1, hkept.2.trans hremarks.2⟩
    · rcases StepAction.runIf_iff.1 hparameters with ⟨-, heq, -⟩ | ⟨htrue, -⟩
      · rw [heq]
        exact hremarks
      · exact absurd htrue hflag
  exact ⟨Record.tab_ofText?_congr source hidentity hall.2, Language.detect?_congr hall.1⟩

/-! ## Remarks that get lost -/

/-- Whatever a bare desk supplies is literal if the document itself brings in nothing. -/
theorem supplies_bareDesk {uri text : Text} (hdata : Declaration.parameterData text = [])
    (huids : Declaration.nestedUids text = []) :
    Supplies Scalar.IsLiteral uri text bareDesk where
  declared name data h := by
    rw [hdata] at h
    exact absurd h (by simp [Table.get?])
  remembered name data h := absurd h (by simp [bareDesk, Session.overridesOf, Table.get?])
  indexed entry h := absurd h List.not_mem_nil
  nested name uid h := by
    rw [huids] at h
    exact absurd h (by simp [Table.get?])
  fresh n := (show Scalar.IsLiteral ['u'] by decide).append (ListItem.isLiteral_ofNat n)

/-- A document with these lines above its sections and in the section of its parameters. -/
def documentWithLines (above inside : List Text) : Text :=
  unlines (above ++ ["ДанныеСценария:".toList, "    Имя: \"A\"".toList, "ПараметрыСценария:".toList] ++
    inside ++ ["ТекстСценария: |".toList, "    И я ввожу \"[P]\"".toList, []])

/-- A document with a remark between two carriage returns that stand behind the lines around it. -/
def unevenDocument : Text :=
  unlines ["ДанныеСценария:".toList, "    Имя: \"A\"".toList, "ТекстСценария: |".toList,
    "    И A\r".toList, "        x =".toList, "        # PhaseSwitcher_Tab: Main\r".toList,
    "        yy = 2\r".toList, []]

def repaired (text : Text) : Option Text :=
  ((RepairConfig.executor {} []).repairText "/a".toList text bareDesk).1.toOption.map (·.text)

/-- The tab that a document is grouped under, if it declares a scenario. -/
def tabOf (text : Text) : Option (Option Tab) :=
  (Record.ofText? (bareDesk.index.sourceOf "/a".toList) text).map (·.tab)

theorem tab_repairText_remarkAbove :
    ∃ final, repaired (documentWithLines ["# PhaseSwitcher_Tab: Main".toList] []) = some final ∧
      tabOf final = some (some ⟨"Main".toList, false, none⟩) := by
  have hended : (repaired (documentWithLines ["# PhaseSwitcher_Tab: Main".toList] [])).isSome = true := by
    decide +kernel
  rcases hrun : (RepairConfig.executor {} []).repairText "/a".toList
    (documentWithLines ["# PhaseSwitcher_Tab: Main".toList] []) bareDesk with ⟨_ | result, desk⟩
  · rw [repaired, hrun] at hended
    exact absurd hended (by simp [Except.toOption])
  · have hsupplies : Supplies Scalar.IsLiteral "/a".toList
        (documentWithLines ["# PhaseSwitcher_Tab: Main".toList] []) bareDesk :=
      supplies_bareDesk (by decide +kernel) (by decide +kernel)
    have hself : IfSelfCalled {} "/a".toList
        (documentWithLines ["# PhaseSwitcher_Tab: Main".toList] []) bareDesk
        fun record => ∀ uid ∈ record.uid, '\n' ∉ uid :=
      ifSelfCalled_of_calledNames (by decide +kernel)
    have hkept := identity_repairText hrun
      (hsupplies.mono fun value hvalue => hvalue.not_mem (by decide)) hself
      (bareDesk.index.sourceOf "/a".toList)
    have htab := (hkept.2 (by decide +kernel) (by decide +kernel) (by decide +kernel)).1
    refine ⟨result.text, by rw [repaired, hrun]; rfl, ?_⟩
    exact htab.trans (by decide +kernel)

/-- A remark in a section that is written anew gets lost, and so does one that uneven line ends make a
part of another line. -/
theorem tab_repairText_lost :
    (tabOf (documentWithLines [] ["    # PhaseSwitcher_Tab: Main".toList]) =
        some (some ⟨"Main".toList, false, none⟩) ∧
      (repaired (documentWithLines [] ["    # PhaseSwitcher_Tab: Main".toList])).map tabOf =
        some (some none)) ∧
    tabOf unevenDocument = some (some ⟨"Main".toList, false, none⟩) ∧
      (repaired unevenDocument).map tabOf = some (some none) := by
  decide +kernel

end Executor

end Scenarist
