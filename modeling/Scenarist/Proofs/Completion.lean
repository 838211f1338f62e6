import Scenarist.Proofs.Calls
import Scenarist.Proofs.Document.Edits
import Scenarist.Proofs.Frame
import Scenarist.Proofs.Validation.Steps
import Scenarist.QuickFix

set_option autoImplicit false

/-! # Diagnosis and filling

The check of the declarations reports the calls and parameters of a script that the document does not
declare, and the fix for it writes both sections anew. The check asks for every line that it has judged to
be a call; the fix declares the calls of the other reading, without inline parameters, and of these the ones
that the index knows. So the fix settles the finding exactly if every judged call is among them.

Main statements: `Checker.callsIn_congr` (what is a call depends on the script alone),
`Checker.linesWith_incompleteBlock_eq_nil_iff` (when nothing is reported),
`Checker.exists_expectedCall_iff` (which calls the fix declares) and `Checker.forSections_completes_iff`. -/

namespace Scenarist

open Text

namespace Checker

variable {checker : Checker} {options : ValidationOptions} {document document' : Document}
  {block block' : CallBlock}

/-! ## The script alone -/

theorem isCall_unknownCall (checker : Checker) (options : ValidationOptions) (document : Document)
    (block : CallBlock) : (checker.unknownCall options document block).isCall = true := by
  obtain ⟨findings, hcall⟩ := checker.exists_unknownCall options document block
  rw [hcall]
  rfl

/-- Whether a line is a call depends on the line, on its name and on whether anything is assigned below. -/
theorem isCall_judge_congr (hname : block'.name = block.name)
    (hparameters : block'.parameters = [] ↔ block.parameters = [])
    (hline : document'.lineAt block'.line = document.lineAt block.line) :
    (checker.judge options document' block').isCall = (checker.judge options document block).isCall := by
  -- The findings name lines of their documents, so the verdicts agree in kind alone.
  have hverdict : (checker.stepVerdict? options document' block').map Verdict.isCall =
      (checker.stepVerdict? options document block).map Verdict.isCall := by
    unfold stepVerdict?
    simp only [hname, hline]
    split
    · rfl
    split
    · rfl
    split
    · split <;> rfl
    · rfl
  cases hget : checker.records.get? block.name with
  | some record =>
      have hget' : checker.records.get? block'.name = some record := by rw [hname, hget]
      rw [judge_of_known hget, judge_of_known hget']
      rfl
  | none =>
      have hget' : checker.records.get? block'.name = none := by rw [hname, hget]
      by_cases hempty : block.parameters = []
      · rw [judge_of_no_parameters hget hempty, judge_of_no_parameters hget' (hparameters.2 hempty), hname]
        split
        · rw [isCall_unknownCall, isCall_unknownCall]
        · cases hstep : checker.stepVerdict? options document block <;>
            cases hstep' : checker.stepVerdict? options document' block' <;>
            rw [hstep, hstep'] at hverdict
          · simp only [Option.getD_none]
            split
            · rfl
            · rw [isCall_unknownCall, isCall_unknownCall]
          · exact absurd hverdict (by simp)
          · exact absurd hverdict (by simp)
          · exact Option.some.inj hverdict
      · rw [judge_of_parameters hget hempty, judge_of_parameters hget' (mt hparameters.1 hempty),
          isCall_unknownCall, isCall_unknownCall]

def scriptBody (text : Text) : List (Nat × Text) :=
  (SectionKey.script.bodyIn (lines text)).zipIdx.map fun entry => (entry.2, trimReturns entry.1)

/-- The blocks of a document are those of its script, moved down by what stands above. -/
theorem exists_blocksOf_eq (document : Document) :
    ∃ above, blocksOf document =
        (CallBlock.readAll (scriptBody document.text)).map (CallBlock.renumber (above + ·)) ∧
      ∀ entry ∈ scriptBody document.text, document.lineAt (above + entry.1) = entry.2 := by
  obtain ⟨above, hlines⟩ := SectionKey.exists_linesOf_eq .script document.text
  refine ⟨above, ?_, fun entry hentry => ?_⟩
  · rw [blocksOf, bodyOf, hlines]
    exact CallBlock.readAll_renumber (above + ·) (scriptBody document.text)
  · refine @Document.lineAt_of_mem_linesOf document .script (above + entry.1, entry.2) ?_
    rw [hlines]
    exact List.mem_map_of_mem hentry

/-- Whatever stands above a script, the same lines of it are calls. -/
theorem callsIn_congr (h : SectionKey.script.bodyIn (lines document'.text) =
      SectionKey.script.bodyIn (lines document.text)) :
    checker.callsIn options document' = checker.callsIn options document := by
  obtain ⟨above, hblocks, hlines⟩ := exists_blocksOf_eq document
  obtain ⟨above', hblocks', hlines'⟩ := exists_blocksOf_eq document'
  have hbody : scriptBody document'.text = scriptBody document.text := by
    unfold scriptBody
    rw [h]
  rw [hbody] at hblocks' hlines'
  -- what stands above moves the numbers of the lines, and the lines are the same
  have hjudge : ∀ block ∈ CallBlock.readAll (scriptBody document.text),
      (checker.judge options document' (block.renumber (above' + ·))).isCall =
        (checker.judge options document (block.renumber (above + ·))).isCall := by
    intro block hblock
    have hmem : block.line ∈ (scriptBody document.text).map Prod.fst :=
      (CallBlock.lineNumbers_readFrom_sublist none _).subset
        (List.mem_flatMap.2 ⟨block, hblock, List.mem_cons_self⟩)
    obtain ⟨entry, hentry, hnumber⟩ := List.mem_map.1 hmem
    refine isCall_judge_congr rfl (by simp [CallBlock.renumber]) ?_
    show document'.lineAt (above' + block.line) = document.lineAt (above + block.line)
    rw [← hnumber, hlines entry hentry, hlines' entry hentry]
  unfold callsIn
  rw [hblocks, hblocks', List.filter_map, List.filter_map, List.map_map, List.map_map]
  exact congrArg _ (List.filter_congr hjudge)

/-! ## When nothing is reported -/

/-- A finding about a call-shaped line is no finding about the declarations. -/
theorem code_ne_incompleteBlock_judge {diagnostic : Diagnostic}
    (h : diagnostic ∈ (checker.judge options document block).findings) :
    diagnostic.code ≠ .incompleteBlock := by
  intro hcode
  have hcall := isCallCode_judge h
  rw [hcode] at hcall
  exact Bool.noConfusion hcall

/-- Whether a document declares all that its script calls and uses. Without records no call is missed. -/
structure DeclaresAll (checker : Checker) (options : ValidationOptions) (document : Document) : Prop where
  calls : checker.records ≠ [] →
    ∀ name ∈ checker.callsIn options document, name ∈ Declaration.nestedNames document.text
  parameters : ∀ name ∈ usedParameters document.text checker.config.exclusions,
    name ∈ Declaration.declaredParameters document.text

/-- The check of the declarations finds nothing exactly if all is declared. -/
theorem checkCompleteness_eq_nil_iff (headerLine : Nat) :
    checker.checkCompleteness document headerLine (checker.callsIn options document) = [] ↔
      checker.DeclaresAll options document := by
  have hmissing : ∀ names declared : List Text,
      (names.filter (· ∉ declared)).isEmpty = true ↔ ∀ name ∈ names, name ∈ declared := by
    intro names declared
    simp [List.isEmpty_iff, List.filter_eq_nil_iff]
  unfold checkCompleteness
  dsimp only
  rw [List.append_eq_nil_iff]
  constructor
  · rintro ⟨hcalls, hparameters⟩
    refine ⟨fun hrecords name hname => ?_, ?_⟩
    · have hempty : checker.records.isEmpty = false := by simpa using hrecords
      rw [hempty, Bool.false_or] at hcalls
      split at hcalls
      · next hnone => exact (hmissing _ _).1 hnone name (mem_distinct.2 hname)
      · exact absurd hcalls (List.cons_ne_nil _ _)
    · split at hparameters
      · next hnone => exact (hmissing _ _).1 hnone
      · exact absurd hparameters (List.cons_ne_nil _ _)
  · rintro ⟨hcalls, hparameters⟩
    refine ⟨if_pos ?_, if_pos ((hmissing _ _).2 hparameters)⟩
    rw [Bool.or_eq_true]
    by_cases hrecords : checker.records = []
    · exact Or.inl (by simp [hrecords])
    · exact Or.inr ((hmissing _ _).2 fun name hname => hcalls hrecords name (mem_distinct.1 hname))

theorem linesWith_incompleteBlock_eq_nil_iff (hin : SectionKey.isIn document.text .script = true) :
    linesWith .incompleteBlock (checker.validate document options) = [] ↔
      checker.DeclaresAll options document := by
  obtain ⟨script, hscript⟩ := Option.isSome_iff_exists.1 hin
  have hbalance : linesWith .incompleteBlock (checkBalance document (bodyOf document)) = [] := by
    refine linesWith_eq_nil fun diagnostic hmem hcode => ?_
    have hbalanced := code_checkBalance hmem
    rw [hcode] at hbalanced
    exact absurd hbalanced (by decide)
  have hcalls : linesWith .incompleteBlock (checker.callFindings options document) = [] := by
    refine linesWith_eq_nil fun diagnostic hmem => ?_
    obtain ⟨block, -, hfound⟩ := List.mem_flatMap.1 hmem
    exact code_ne_incompleteBlock_judge hfound
  have hsteps : linesWith .incompleteBlock (checker.stepFindings options document) = [] := by
    refine linesWith_eq_nil fun diagnostic hmem => ?_
    rw [code_stepFindings hmem]
    decide
  have hdescription : linesWith .incompleteBlock (checkDescription document) = [] := by
    refine linesWith_eq_nil fun diagnostic hmem => ?_
    rw [code_checkDescription hmem]
    decide
  -- Only the check of the declarations is left, and it reports nothing else.
  have hall : ∀ findings : List Diagnostic, (∀ diagnostic ∈ findings, diagnostic.code = .incompleteBlock) →
      (linesWith .incompleteBlock findings = [] ↔ findings = []) := by
    intro findings hcodes
    rw [linesWith, List.map_eq_nil_iff, List.filter_eq_self.2 fun diagnostic hmem => by
      simpa using hcodes diagnostic hmem]
  rw [validate_eq hscript, linesWith_append, linesWith_append, linesWith_append, linesWith_append,
    hbalance, hcalls, hsteps, hdescription, List.append_nil, List.nil_append, List.nil_append,
    List.nil_append, ← checkCompleteness_eq_nil_iff script.headerLine]
  exact hall _ fun diagnostic hmem => code_checkCompleteness hmem

end Checker

/-! ## What the fix writes -/

namespace QuickFix

/-- The text that the fix for incomplete declarations puts in the place of a document's. -/
def filled (document : Document) (index : Index) (config : Config) (session : Session)
    (supply : UidSupply) : Text :=
  (regenerateParameters session document.uri (regenerateNested index supply document.text).1.text
    config.exclusions).1.text

def filling (document : Document) (text : Text) : QuickFix where
  title := "Fill declaration sections".toList
  edits := [⟨0, document.text.length, text⟩]
  preferred := true

theorem text_applyEdits_filling (document : Document) (text : Text) :
    (document.applyEdits (filling document text).edits).text = text := by
  show (document.applyEdits [⟨0, document.text.length, text⟩]).text = text
  rw [Document.text_applyEdits_singleton, TextEdit.applyTo]
  simp

/-- The fix is offered if it changes anything. -/
theorem exists_forSections_eq (document : Document) {index : Index} (config : Config) (session : Session)
    (supply : UidSupply) (hrecords : index.records ≠ []) :
    ∃ session' supply', forSections document index config session supply =
      (if filled document index config session supply = document.text then []
        else [filling document (filled document index config session supply)], session', supply') := by
  have hempty : index.records.isEmpty = false := by simpa using hrecords
  unfold forSections filled
  simp only [hempty, Bool.false_eq_true, if_false]
  exact ⟨_, _, rfl⟩

/-- Whether nothing that the fix would write into a document holds a line feed: no identifier of a call
and no data of a parameter. -/
structure KeepsToLines (document : Document) (index : Index) (config : Config) (session : Session)
    (supply : UidSupply) : Prop where
  calls : ∀ entry ∈ resolvedCalls index supply document.text, '\n' ∉ entry.2
  parameters : ∀ name ∈ usedParameters document.text config.exclusions,
    (writtenData session document.uri document.text name).All ('\n' ∉ ·)

/-- How a document with both sections reads after the fix. -/
structure IsFilled (document : Document) (index : Index) (config : Config) (text : Text) : Prop where
  script : SectionKey.script.bodyIn (lines text) = SectionKey.script.bodyIn (lines document.text)
  sections : KeepsSections document.text text
  calls : Declaration.nestedNames text =
    ((expectedCalls index document.text).map Declaration.rereadName).filter (!·.isEmpty)
  parameters : Declaration.declaredParameters text = usedParameters document.text config.exclusions
  writtenCalls : AreWritten (SectionKey.nested.tablesIn (lines text))
  writtenParameters : AreWritten (SectionKey.parameters.tablesIn (lines text))

theorem isFilled_filled {document : Document} {index : Index} {config : Config} {session : Session}
    {supply : UidSupply} (hnested : SectionKey.isIn document.text .nested = true)
    (hparameters : SectionKey.isIn document.text .parameters = true)
    (hkeeps : KeepsToLines document index config session supply) :
    IsFilled document index config (filled document index config session supply) := by
  have hcalls := keepLines_resolvedCalls hkeeps.calls
  -- First the section of calls.
  have hmiddle := regenerateNested_eq index supply document.text
  have hothers := keepsOthers_refill hcalls .nested (expectedCalls index document.text) document.text
  have hsections := KeepsSections.refill .nested (expectedCalls index document.text)
    (SectionKey.nested.render ((resolvedCalls index supply document.text).map nestedFields)) document.text
  have hread := Declaration.nestedNames_refill_eq_filter hnested hcalls (expectedCalls index document.text)
  have hwritten := @areWritten_tablesIn_refill .nested _ hcalls (expectedCalls index document.text)
    document.text
  rw [← hmiddle] at hothers hsections hread hwritten
  -- Then the section of parameters, from the same script and the same data.
  unfold filled
  rw [regenerateParameters_eq]
  generalize (regenerateNested index supply document.text).1.text = middle at *
  have hused : usedParameters middle config.exclusions = usedParameters document.text config.exclusions :=
    usedParameters_congr (hothers.bodyIn (by decide)) config.exclusions
  have hdata : Declaration.parameterData middle = Declaration.parameterData document.text := by
    rw [Declaration.parameterData_eq, Declaration.parameterData_eq, Declaration.parameterEntries,
      Declaration.parameterEntries, hothers.tablesIn (by decide)]
  have hidentifiers : ∀ name ∈ usedParameters middle config.exclusions, isIdentifier name = true :=
    fun name hname => isIdentifier_of_mem_usedParameters hname
  have hitems : KeepLines (parameterItems (writtenData session document.uri middle)
      (usedParameters middle config.exclusions)) := by
    refine keepLines_writtenData hidentifiers fun name hname => ?_
    rw [writtenData, hdata]
    exact hkeeps.parameters name (hused ▸ hname)
  have hin : SectionKey.isIn middle .parameters = true :=
    SectionKey.mem_presentIn.1 (hsections _ (SectionKey.mem_presentIn.2 hparameters))
  have hothers' := keepsOthers_refill hitems .parameters (usedParameters middle config.exclusions) middle
  exact {
    script := (hothers'.bodyIn (by decide)).trans (hothers.bodyIn (by decide))
    sections := hsections.trans (KeepsSections.refill .parameters _ _ middle)
    calls := by
      rw [Declaration.nestedNames_eq, hothers'.tablesIn (by decide), ← Declaration.nestedNames_eq, hread,
        ← map_fst_resolvedCalls index supply, List.map_map]
      rfl
    parameters := (Declaration.declaredParameters_refill hin hidentifiers hitems _).trans hused
    writtenCalls := by
      rw [hothers'.tablesIn (by decide)]
      exact hwritten
    writtenParameters := areWritten_tablesIn_refill hitems _ middle }

end QuickFix

namespace Checker

variable {checker : Checker} {options : ValidationOptions} {document : Document}

/-! ## After the fix -/

theorem tryValidate_eq_ok_iff {findings : List Diagnostic} :
    checker.tryValidate document options = .ok findings ↔
      guardScalars (checker.scalarsOf document.text) () = .ok () ∧
        checker.validate document options = findings := by
  unfold tryValidate
  constructor
  · intro h
    exact ⟨guardScalars_eq_ok_of_eq_ok h (), (eq_of_guardScalars_eq_ok h).symm⟩
  · rintro ⟨hguard, rfl⟩
    exact guardScalars_eq_ok_of_eq_ok hguard _

/-- Names and identifiers that were written are read without refusal. -/
theorem guard_scalarsOf {text : Text} (hcalls : AreWritten (SectionKey.nested.tablesIn (lines text)))
    (hparameters : AreWritten (SectionKey.parameters.tablesIn (lines text))) :
    guardScalars (checker.scalarsOf text) () = .ok () := by
  rw [guardScalars_eq_ok_iff]
  intro raw hraw
  unfold scalarsOf at hraw
  split at hraw
  · rcases List.mem_append.1 hraw with hraw | hraw
    · split at hraw
      · exact absurd hraw List.not_mem_nil
      · exact Declaration.fault?_of_areWritten_nested hcalls hraw
    · exact Declaration.fault?_of_areWritten_parameters hparameters hraw
  · exact absurd hraw List.not_mem_nil

/-- What is called has a name. -/
theorem ne_nil_of_mem_callsIn {name : Text} (h : name ∈ checker.callsIn options document) : name ≠ [] := by
  obtain ⟨block, hblock, rfl⟩ := List.mem_map.1 h
  obtain ⟨line, -, hopen⟩ := exists_line_of_mem_blocksOf (List.mem_filter.1 hblock).1
  have hkept := (Option.filter_eq_some_iff.1 hopen).2
  simp only [Bool.and_eq_true, Bool.not_eq_true', List.isEmpty_eq_false_iff] at hkept
  exact hkept.1

/-- A document that the fix has filled is read without refusal, and all is declared in it if every call is
read back from an expected one. -/
theorem tryValidate_of_isFilled {index : Index} {filled : Document} (hrecords : checker.records ≠ [])
    (hscript : SectionKey.isIn document.text .script = true)
    (hfilled : QuickFix.IsFilled document index checker.config filled.text) :
    ∃ findings, checker.tryValidate filled options = .ok findings ∧
      (linesWith .incompleteBlock findings = [] ↔ ∀ name ∈ checker.callsIn options document,
        ∃ called ∈ expectedCalls index document.text, Declaration.rereadName called = name) := by
  have hin : SectionKey.isIn filled.text .script = true :=
    SectionKey.mem_presentIn.1 (hfilled.sections _ (SectionKey.mem_presentIn.2 hscript))
  refine ⟨_, tryValidate_eq_ok_iff.2
    ⟨guard_scalarsOf hfilled.writtenCalls hfilled.writtenParameters, rfl⟩, ?_⟩
  have hmem : ∀ name ∈ checker.callsIn options document, name ∈ Declaration.nestedNames filled.text ↔
      ∃ called ∈ expectedCalls index document.text, Declaration.rereadName called = name := by
    intro name hname
    have hne : (!name.isEmpty) = true := by simpa using ne_nil_of_mem_callsIn hname
    rw [hfilled.calls, List.mem_filter, and_iff_left hne, List.mem_map]
  have hcalls : checker.callsIn options filled = checker.callsIn options document :=
    callsIn_congr hfilled.script
  rw [linesWith_incompleteBlock_eq_nil_iff hin]
  constructor
  · intro hall name hname
    exact (hmem name hname).1 (hall.calls hrecords name (hcalls ▸ hname))
  · intro hread
    refine ⟨fun _ name hname => ?_, fun name hname => ?_⟩
    · rw [hcalls] at hname
      exact (hmem name hname).2 (hread name hname)
    · rw [hfilled.parameters, ← usedParameters_congr hfilled.script]
      exact hname

/-- If the names of the index are literal, a call is read back exactly if its scenario is known and its name
has no inline parameters. -/
theorem exists_expectedCall_iff {index : Index}
    (hliteral : ∀ entry ∈ index.records, Scalar.IsLiteral entry.1) {name : Text}
    (hname : name ∈ checker.callsIn options document) :
    (∃ called ∈ expectedCalls index document.text, Declaration.rereadName called = name) ↔
      (index.lookup? name).isSome = true ∧ dropInlineParameters name = name := by
  have hread : ∀ called ∈ expectedCalls index document.text, Declaration.rereadName called = called := by
    intro called hcalled
    obtain ⟨hin, record, hrecord⟩ := mem_expectedCalls hcalled
    exact Declaration.rereadName_eq (hliteral _ (Table.mem_of_get?_eq_some hrecord)).isFaithful
      (calledName_spec hin).1
  constructor
  · rintro ⟨called, hcalled, rfl⟩
    rw [hread called hcalled]
    obtain ⟨hin, hknown⟩ := List.mem_filter.1 hcalled
    exact ⟨hknown, dropInlineParameters_of_mem_calledNames hin⟩
  · rintro ⟨hknown, hplain⟩
    -- Without inline parameters, the line that opens the call also calls its name.
    have hcalled : name ∈ calledNames document.text := by
      obtain ⟨block, hblock, rfl⟩ := List.mem_map.1 hname
      obtain ⟨line, hline, hopen⟩ := exists_line_of_mem_blocksOf (List.mem_filter.1 hblock).1
      have hne : block.name.isEmpty = false := by simpa using ne_nil_of_mem_callsIn hname
      refine mem_distinct.2 (List.mem_filterMap.2 ⟨(block.line, line), hline, ?_⟩)
      show calledName? line = some block.name
      rw [@calledName?_of_mem document.text (block.line, line) hline, hopen, Option.map_some]
      show (some (dropInlineParameters block.name)).filter (!·.isEmpty) = some block.name
      rw [hplain, Option.filter_some, hne]
      rfl
    have hexpected : name ∈ expectedCalls index document.text := List.mem_filter.2 ⟨hcalled, hknown⟩
    exact ⟨name, hexpected, hread name hexpected⟩

/-- If a document is reported to be incomplete, the fix is offered and settles the finding exactly if the
scalars that the fix reads have values and every line that was judged to be a call is read back from a call
that the fix declares. -/
theorem forSections_completes_iff {index : Index} {session : Session} {supply : UidSupply}
    {findings : List Diagnostic} (line : Nat) (hindex : checker.records = index.records)
    (hrecords : index.records ≠ [])
    (hsections : ∀ key ∈ [SectionKey.script, .parameters, .nested],
      SectionKey.isIn document.text key = true)
    (hkeeps : QuickFix.KeepsToLines document index checker.config session supply)
    (hvalidate : checker.tryValidate document options = .ok findings)
    (hincomplete : linesWith .incompleteBlock findings ≠ []) :
    (∃ fix session' supply' findings',
        guardScalars (QuickFix.scalarsOf document .incompleteBlock line index)
            (QuickFix.forSections document index checker.config session supply) =
          .ok ([fix], session', supply') ∧
        checker.tryValidate (document.applyEdits fix.edits) options = .ok findings' ∧
        linesWith .incompleteBlock findings' = []) ↔
      guardScalars (QuickFix.scalarsOf document .incompleteBlock line index) () = .ok () ∧
        ∀ name ∈ checker.callsIn options document,
          ∃ called ∈ expectedCalls index document.text, Declaration.rereadName called = name := by
  obtain ⟨hscript, hparameters, hnested⟩ : SectionKey.isIn document.text .script = true ∧
      SectionKey.isIn document.text .parameters = true ∧
      SectionKey.isIn document.text .nested = true := by simpa using hsections
  have hfilled := QuickFix.isFilled_filled hnested hparameters hkeeps
  obtain ⟨session', supply', hoffered⟩ :=
    QuickFix.exists_forSections_eq document checker.config session supply hrecords
  generalize QuickFix.filled document index checker.config session supply = text at *
  -- Any document with the new text is read like this, be it the old one or the edited one.
  have hafter := fun (filled : Document) (htext : filled.text = text) =>
    @tryValidate_of_isFilled checker options document index filled (hindex ▸ hrecords) hscript
      (htext ▸ hfilled)
  rw [hoffered]
  constructor
  · rintro ⟨fix, _, _, found, hfix, hfound, hnone⟩
    refine ⟨guardScalars_eq_ok_of_eq_ok hfix (), ?_⟩
    have hfixes := congrArg Prod.fst (eq_of_guardScalars_eq_ok hfix)
    split at hfixes
    · exact absurd hfixes (List.cons_ne_nil _ _)
    · obtain rfl := (List.cons.inj hfixes).1
      obtain ⟨found', hread, hiff⟩ := hafter _ (QuickFix.text_applyEdits_filling document text)
      rw [hfound] at hread
      obtain rfl := Except.ok.inj hread
      exact hiff.1 hnone
  · rintro ⟨hguard, hcalls⟩
    -- Otherwise the document itself would have been reported as complete.
    have hchanged : text ≠ document.text := by
      intro hsame
      obtain ⟨found, hread, hiff⟩ := hafter document hsame.symm
      rw [hvalidate] at hread
      obtain rfl := Except.ok.inj hread
      exact hincomplete (hiff.2 hcalls)
    obtain ⟨found, hread, hiff⟩ := hafter _ (QuickFix.text_applyEdits_filling document text)
    refine ⟨QuickFix.filling document text, session', supply', found, ?_, hread, hiff.2 hcalls⟩
    rw [if_neg hchanged]
    exact guardScalars_eq_ok_of_eq_ok hguard _

/-! ## A known call and an unknown one -/

def oneScenario : Index :=
  (Executor.bareDesk.index.upsert "/b".toList (namingDocument "A".toList "u-A".toList)).2

def callChecker : Checker where
  records := oneScenario.records
  catalog := { steps := [], threshold := StepCatalog.defaultThreshold }
  config := {}

def undeclared (script : List Text) : Document where
  uri := "/a".toList
  text := unlines (["ПараметрыСценария:".toList, "ВложенныеСценарии:".toList,
    "ТекстСценария: |".toList] ++ script)

def knownCall : Document := undeclared ["    И A".toList, "        x = \"[P]\"".toList]

def unknownCallToo : Document := undeclared ["    И A".toList, "    И Z".toList]

/-- The fix settles the finding if the only call is known: it declares the call and the parameter. -/
theorem forSections_completes_knownCall :
    ∃ fix session supply findings,
      guardScalars (QuickFix.scalarsOf knownCall .incompleteBlock 2 oneScenario)
          (QuickFix.forSections knownCall oneScenario {} {} Executor.bareDesk.supply) =
        .ok ([fix], session, supply) ∧
      callChecker.tryValidate (knownCall.applyEdits fix.edits) .everywhere = .ok findings ∧
      linesWith .incompleteBlock findings = [] := by
  have hlines : linesWith .incompleteBlock (callChecker.validate knownCall .everywhere) = [2, 2] := by
    decide +kernel
  have hcalls : callChecker.callsIn .everywhere knownCall = ["A".toList] := by decide +kernel
  have hexpected : expectedCalls oneScenario knownCall.text = ["A".toList] := by decide +kernel
  have hused : usedParameters knownCall.text [] = ["P".toList] := by decide +kernel
  have hkeeps : QuickFix.KeepsToLines knownCall oneScenario {} {} Executor.bareDesk.supply := by
    refine ⟨by decide +kernel, fun name hname => ?_⟩
    rw [show ({} : Config).exclusions = [] from rfl, hused] at hname
    rw [List.mem_singleton.1 hname]
    unfold ParameterData.All
    decide +kernel
  refine (@forSections_completes_iff callChecker .everywhere knownCall oneScenario {}
    Executor.bareDesk.supply (callChecker.validate knownCall .everywhere) 2 rfl (by decide +kernel)
    (by decide +kernel) hkeeps (tryValidate_eq_ok_iff.2 ⟨by decide +kernel, rfl⟩) (by simp [hlines])).2
    ⟨by decide +kernel, ?_⟩
  rw [hcalls, hexpected]
  decide +kernel

/-- The fix leaves the finding if a scenario that is called is unknown. -/
theorem linesWith_incompleteBlock_unknownCall :
    linesWith .incompleteBlock (callChecker.validate unknownCallToo .everywhere) = [2] ∧
      ((QuickFix.forSections unknownCallToo oneScenario {} {} Executor.bareDesk.supply).1.map fun fix =>
        linesWith .incompleteBlock
          (callChecker.validate (unknownCallToo.applyEdits fix.edits) .everywhere)) = [[7]] := by
  decide +kernel

end Checker

end Scenarist
