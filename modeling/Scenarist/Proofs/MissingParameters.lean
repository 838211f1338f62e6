import Scenarist.Proofs.CallValue
import Scenarist.Proofs.Completion
import Scenarist.Proofs.Index.Made
import Scenarist.Proofs.Supplement
import Scenarist.Proofs.Validation.Assignments

set_option autoImplicit false

/-! # Missing parameters

A call of a known scenario that does not assign all of its parameters is reported, and the fix for it writes the
missing assignments below the last line of the call. They are read as assignments of this call, with values that
calls can assign, so nothing is reported about them, and the other calls stay as they are.

Main statements: `QuickFix.forParameters_eq` (the fixes), `QuickFix.isExtended_supplying` (what one of them does to
the calls), `Checker.isCompleted_supplying` (nothing is reported afterwards) and `Checker.forParameters_completes`. -/

namespace Scenarist

open Text

/-! ## What the fixes write -/

namespace QuickFix

variable {document : Document} {index : Index} {block : CallBlock} {record : Record}

/-- The parameters of a scenario that a call does not assign, each once. -/
def missingParameters (record : Record) (block : CallBlock) : List Text :=
  (distinct record.parameters).filter (· ∉ block.parameterNames)

theorem mem_missingParameters {name : Text} :
    name ∈ missingParameters record block ↔ name ∈ record.parameters ∧ name ∉ block.parameterNames := by
  simp [missingParameters, mem_distinct]

/-- The value that the fixes assign to a parameter: the default that the called scenario has for it, else the one
that the document has, else its name. -/
def suppliedValue (document : Document) (record : Record) (name : Text) : Text :=
  ((record.defaults.get? name).or ((Declaration.parameterDefaults document.text).get? name)).getD
    (Scalar.quote name)

/-- The columns that the fixes indent by: those of the first assignment of the call. -/
def suppliedIndent (document : Document) (block : CallBlock) : Nat :=
  let ownIndent := (block.parameters.head?.map fun parameter =>
    indentWidth (document.lineAt parameter.line)).getD 0
  if block.indent < ownIndent then ownIndent else block.indent + 4

/-- The width of the longest name in the call when nothing is missing from it. -/
def suppliedWidth (record : Record) (block : CallBlock) : Nat :=
  (((block.parameterNames ++ missingParameters record block).map List.length).max?).getD 0

/-- The assignment of a parameter that the fixes write. -/
def supplied (document : Document) (record : Record) (block : CallBlock) (name : Text) : AssignmentLine :=
  .spaced (suppliedIndent document block) name (suppliedValue document record name)

/-- The edit that writes the assignments of these parameters. -/
def supplying (document : Document) (record : Record) (block : CallBlock) (names : List Text) : TextEdit :=
  document.insertion block.lastLine
    ((names.map (supplied document record block)).map (AssignmentLine.render (suppliedWidth record block)))

def entriesOf (document : Document) (record : Record) (names : List Text) : List (Text × Text) :=
  names.map fun name => (name, suppliedValue document record name)

theorem map_fst_entriesOf (document : Document) (record : Record) (names : List Text) :
    (entriesOf document record names).map Prod.fst = names := by
  rw [entriesOf, List.map_map]
  exact List.map_id' names

def supplyingAll (document : Document) (record : Record) (block : CallBlock) : QuickFix where
  title := "Add all missing parameters".toList
  edits := [supplying document record block (missingParameters record block)]
  preferred := true

def supplyingOne (document : Document) (record : Record) (block : CallBlock) (name : Text) : QuickFix where
  title := "Add parameter: ".toList ++ name
  edits := [supplying document record block [name]]

/-- The edit writes a line for each parameter behind the last line of the call. -/
theorem supplying_eq (document : Document) (record : Record) (block : CallBlock) (names : List Text) :
    supplying document record block names =
      let anchor := document.offsetAt block.lastLine (document.lineAt block.lastLine).length
      ⟨anchor, anchor, names.flatMap fun name =>
        document.lineEnd.text ++ List.replicate (suppliedIndent document block) ' ' ++
          padRight (suppliedWidth record block) name ++ " = ".toList ++ suppliedValue document record name⟩ := by
  have hwritten : ((names.map (supplied document record block)).map
      (AssignmentLine.render (suppliedWidth record block))).flatMap (document.lineEnd.text ++ ·) =
      names.flatMap fun name =>
        document.lineEnd.text ++ List.replicate (suppliedIndent document block) ' ' ++
          padRight (suppliedWidth record block) name ++ " = ".toList ++ suppliedValue document record name := by
    rw [List.map_map, List.flatMap_map]
    refine List.flatMap_congr fun name _ => ?_
    simp only [Function.comp_apply, supplied, AssignmentLine.spaced, AssignmentLine.render, List.append_assoc]
  rw [supplying, Document.insertion, hwritten]

theorem filter_allBlank_eq (hnames : ∀ name ∈ record.parameters, isIdentifier name = true) :
    ((distinct record.parameters).filter fun name => !allBlank name && decide (name ∉ block.parameterNames)) =
      missingParameters record block := by
  refine List.filter_congr fun name hname => ?_
  have hidentifier := hnames name (mem_distinct.1 hname)
  have hblank : allBlank name = false := by
    rw [Bool.eq_false_iff, ne_eq, allBlank_iff, Scalar.strip_of_isIdentifier hidentifier]
    rintro rfl
    exact absurd hidentifier (by decide)
  rw [hblank, Bool.not_false, Bool.true_and]

/-- The fixes for a call whose scenario has parameters that are missing. -/
theorem forParameters_eq {line : Nat} (hblock : CallBlock.onLine? document.text line = some block)
    (hrecord : index.lookup? block.name = some record)
    (hnames : ∀ name ∈ record.parameters, isIdentifier name = true)
    (hmissing : missingParameters record block ≠ []) :
    forParameters document line index = supplyingAll document record block ::
      if (missingParameters record block).length ≤ 1 then []
      else (missingParameters record block).map (supplyingOne document record block) := by
  have haround : callAround? document.text line = some block := by rw [callAround?, hblock, Option.some_or]
  have hempty : (missingParameters record block).isEmpty = false := by simpa using hmissing
  unfold forParameters
  simp only [haround, Option.bind_some, hrecord, Option.map_some, filter_allBlank_eq hnames, hempty,
    Bool.false_eq_true, if_false]
  unfold supplyingAll supplyingOne
  -- the titles are the same on both sides, whatever they are
  generalize "Add all missing parameters".toList = title, "Add parameter: ".toList = titleOf
  simp only [supplying_eq, List.flatMap_singleton, suppliedWidth, suppliedIndent, suppliedValue]

/-! ## What is read of it -/

theorem lt_suppliedIndent (document : Document) (block : CallBlock) :
    block.indent < suppliedIndent document block := by
  unfold suppliedIndent
  dsimp only
  split
  · next hdeeper => exact hdeeper
  · omega

/-- The value is one that a call can assign, whichever of the three it is. -/
theorem isCallWritten_suppliedValue (document : Document) (hmade : record.IsMade) {name : Text}
    (hname : isIdentifier name = true) : Scalar.IsCallWritten (suppliedValue document record name) := by
  obtain ⟨source, text, hrecord⟩ := hmade
  obtain ⟨declared, -, rfl⟩ := Option.map_eq_some_iff.1 hrecord
  unfold suppliedValue
  dsimp only
  cases htheirs : (Declaration.parameterDefaults (Record.dropMark text)).get? name with
  | some value => exact Declaration.isCallWritten_of_get?_parameterDefaults htheirs
  | none =>
      cases hown : (Declaration.parameterDefaults document.text).get? name with
      | some value => exact Declaration.isCallWritten_of_get?_parameterDefaults hown
      | none => exact Scalar.isCallWritten_quote (Scalar.lineFeed_not_mem_of_isIdentifier hname)

theorem isWritten_supplied (document : Document) (block : CallBlock) (hmade : record.IsMade) {name : Text}
    (hname : isIdentifier name = true) : (supplied document record block name).IsWritten where
  indent := ⟨suppliedIndent document block, rfl⟩
  name := hname
  value := (isCallWritten_suppliedValue document hmade hname).stripLeft_eq
  value_free := (isCallWritten_suppliedValue document hmade hname).lineFeed_not_mem
  ends := (isCallWritten_suppliedValue document hmade hname).exists_eq_concat

/-- The edit adds the assignments to the call, and changes nothing else about the calls. -/
theorem isExtended_supplying (hblock : block ∈ CallBlock.ofText document.text) (hmade : record.IsMade)
    {names : List Text} (hnames : ∀ name ∈ names, isIdentifier name = true) :
    let fixed := document.applyEdits [supplying document record block names]
    SectionKey.script.Rewritten (lines document.text) (lines fixed.text) ∧
      SectionKey.isIn fixed.text .script = true ∧
      CallBlock.IsExtended document.text fixed.text block (entriesOf document record names) := by
  intro fixed
  have hassignments : ∀ line ∈ names.map (supplied document record block),
      line.IsWritten ∧ block.indent < line.indent.length := by
    intro line hline
    obtain ⟨name, hname, rfl⟩ := List.mem_map.1 hline
    refine ⟨isWritten_supplied document block hmade (hnames name hname), ?_⟩
    rw [supplied, AssignmentLine.spaced, List.length_replicate]
    exact lt_suppliedIndent document block
  have hextended := CallBlock.isExtended_insertion hblock hassignments (suppliedWidth record block)
  have hentries : ((names.map (supplied document record block)).map fun line => (line.name, line.value)) =
      entriesOf document record names := by
    rw [List.map_map]
    rfl
  rw [hentries] at hextended
  rw [show fixed.text = (supplying document record block names).applyTo document.text from
    Document.text_applyEdits_singleton document _]
  exact hextended

end QuickFix

/-! ## A document and its fixes -/

namespace Checker

variable {checker : Checker} {options : ValidationOptions} {document : Document} {block : CallBlock}
  {record : Record} {index : Index} {findings : List Diagnostic} {line : Nat}

theorem onLine?_eq_some_iff :
    CallBlock.onLine? document.text line = some block ↔ block ∈ blocksOf document ∧ block.line = line := by
  constructor
  · intro h
    exact ⟨List.mem_of_find?_eq_some h, by simpa using List.find?_some h⟩
  · rintro ⟨hblock, rfl⟩
    cases hfound : CallBlock.onLine? document.text block.line with
    | none => simpa using List.find?_eq_none.1 hfound block hblock
    | some other =>
        have hline : other.line = block.line := by simpa using List.find?_some hfound
        have hsame := eq_of_mem_lineNumbers hblock (List.mem_of_find?_eq_some hfound) List.mem_cons_self
          (hline ▸ List.mem_cons_self)
        rw [hsame]

/-- If every parameter of a scenario is an identifier, a call should assign them all. -/
theorem expectedParameters_eq (hnames : ∀ name ∈ record.parameters, isIdentifier name = true) :
    expectedParameters record = record.parameters := by
  unfold expectedParameters
  rw [List.map_congr_left fun name hname => Scalar.strip_of_isIdentifier (hnames name hname), List.map_id']
  refine List.filter_eq_self.2 fun name hname => ?_
  have hidentifier := hnames name hname
  rw [isIdentifier, Bool.and_eq_true] at hidentifier
  exact hidentifier.1

/-- Nothing is reported about a document without a script. -/
theorem isIn_of_mem_linesWith {code : DiagnosticCode}
    (h : line ∈ linesWith code (checker.validate document options)) :
    SectionKey.isIn document.text .script = true := by
  cases hscript : SectionKey.script.find? document.text with
  | none =>
      unfold validate at h
      rw [hscript] at h
      exact absurd h List.not_mem_nil
  | some script => rw [SectionKey.isIn, hscript]; rfl

/-- Another script makes a validation read the same scalars. -/
theorem scalarsOf_congr (checker : Checker) {text text' : Text}
    (h : SectionKey.script.Rewritten (lines text) (lines text')) (hin : SectionKey.isIn text .script = true)
    (hin' : SectionKey.isIn text' .script = true) : checker.scalarsOf text' = checker.scalarsOf text := by
  unfold scalarsOf
  rw [hin, hin', Declaration.scalarsOfNestedNames_eq, Declaration.scalarsOfNestedNames_eq,
    Declaration.scalarsOfParameterNames_eq, Declaration.scalarsOfParameterNames_eq,
    h.keepsOthers.tablesIn (by decide), h.keepsOthers.tablesIn (by decide)]

/-- The fixes read no scalar that the validation has not read. -/
theorem guard_scalarsOf_missingScenarioParameter (line : Nat) (index : Index)
    (hin : SectionKey.isIn document.text .script = true)
    (hguard : guardScalars (checker.scalarsOf document.text) () = .ok ()) :
    guardScalars (QuickFix.scalarsOf document .missingScenarioParameter line index) () = .ok () := by
  rw [guardScalars_eq_ok_iff] at hguard ⊢
  intro raw hraw
  refine hguard raw ?_
  rw [scalarsOf, if_pos hin]
  unfold QuickFix.scalarsOf at hraw
  dsimp only at hraw
  split at hraw
  · exact absurd hraw List.not_mem_nil
  · exact List.mem_append_right _ hraw

/-- Whether a document is another one in which a call assigns more parameters, and nothing is reported about these:
the call is not reported for missing ones, and no line that was added for its value or its name. -/
structure IsCompleted (checker : Checker) (options : ValidationOptions) (before after : Document)
    (block : CallBlock) (entries : List (Text × Text)) : Prop where
  calls : CallBlock.IsExtended before.text after.text block entries
  call : CallBlock.onLine? after.text block.line = some (block.extend entries)
  findings : ∃ findings, checker.tryValidate after options = .ok findings ∧
    block.line ∉ linesWith .missingScenarioParameter findings ∧
    ∀ number ∈ List.range' (block.lastLine + 1) entries.length,
      number ∉ linesWith .missingQuotes findings ∧ number ∉ linesWith .extraScenarioParameter findings

/-- A call that assigns every parameter of its scenario in the end is completed if what was added are assignments of
such parameters to values that calls can assign. -/
theorem isCompleted_of_isExtended {after : Document} {entries : List (Text × Text)}
    (hextended : CallBlock.IsExtended document.text after.text block entries)
    (hguard : guardScalars (checker.scalarsOf after.text) () = .ok ())
    (hrecord : checker.records.get? block.name = some record)
    (hnames : ∀ name ∈ expectedParameters record, name ∈ block.parameterNames ∨ name ∈ entries.map Prod.fst)
    (hentries : ∀ entry ∈ entries, entry.1 ∈ expectedParameters record ∧ Scalar.isCallValue entry.2 = true) :
    checker.IsCompleted options document after block entries := by
  have hcall : block.extend entries ∈ blocksOf after := by
    obtain ⟨above, below, -, hafter⟩ := hextended
    show block.extend entries ∈ CallBlock.ofText after.text
    rw [hafter]
    exact List.mem_append_right _ List.mem_cons_self
  refine ⟨hextended, onLine?_eq_some_iff.2 ⟨hcall, rfl⟩, checker.validate after options,
    tryValidate_eq_ok_iff.2 ⟨hguard, rfl⟩, ?_, fun number hnumber => ?_⟩
  · show (block.extend entries).line ∉ linesWith .missingScenarioParameter (checker.validate after options)
    refine not_mem_linesWith_missingScenarioParameter hcall hrecord fun name hname => ?_
    rw [CallBlock.parameterNames_extend]
    exact List.mem_append.2 (hnames name hname)
  · -- the line is that of an assignment that was added
    rw [← List.zipIdx_map_snd] at hnumber
    obtain ⟨⟨entry, number⟩, hentry, rfl⟩ := List.mem_map.1 hnumber
    have hparameter : ⟨number, entry.1, entry.2⟩ ∈ (block.extend entries).parameters :=
      List.mem_append_right _ (List.mem_map_of_mem hentry)
    obtain ⟨hname, hvalue⟩ := hentries entry (List.fst_mem_of_mem_zipIdx hentry)
    exact ⟨not_mem_linesWith_missingQuotes hcall hparameter hvalue,
      not_mem_linesWith_extraScenarioParameter hcall hparameter hrecord hname⟩

theorem isCompleted_supplying (hmade : record.IsMade)
    (hnames : ∀ name ∈ record.parameters, isIdentifier name = true)
    (hrecord : checker.records.get? block.name = some record) (hblock : block ∈ blocksOf document)
    (hin : SectionKey.isIn document.text .script = true)
    (hguard : guardScalars (checker.scalarsOf document.text) () = .ok ()) :
    checker.IsCompleted options document
      (document.applyEdits [QuickFix.supplying document record block (QuickFix.missingParameters record block)])
      block (QuickFix.entriesOf document record (QuickFix.missingParameters record block)) := by
  have hmissing : ∀ name ∈ QuickFix.missingParameters record block, name ∈ record.parameters :=
    fun name hname => (QuickFix.mem_missingParameters.1 hname).1
  obtain ⟨hrewritten, hin', hextended⟩ :=
    QuickFix.isExtended_supplying hblock hmade fun name hname => hnames name (hmissing name hname)
  refine isCompleted_of_isExtended hextended ?_ hrecord ?_ ?_
  · rwa [checker.scalarsOf_congr hrewritten hin hin']
  · rw [expectedParameters_eq hnames, QuickFix.map_fst_entriesOf]
    intro name hname
    rw [QuickFix.mem_missingParameters]
    exact (Classical.em (name ∈ block.parameterNames)).imp_right fun hnot => ⟨hname, hnot⟩
  · rw [expectedParameters_eq hnames]
    intro entry hentry
    obtain ⟨name, hname, rfl⟩ := List.mem_map.1 hentry
    have hparameter := hmissing name hname
    exact ⟨hparameter, (QuickFix.isCallWritten_suppliedValue document hmade (hnames name hparameter)).isCallValue⟩

/-- The fixes for a call that is reported for missing parameters, when the records of the index were made of documents,
as they are after any events. The preferred fix completes the call, and changes nothing else about the calls; if
several parameters are missing, each of the others assigns one of them. -/
theorem forParameters_completes (hrecords : checker.records = index.records) (hmade : index.IsMade)
    (hread : checker.tryValidate document options = .ok findings)
    (hline : line ∈ linesWith .missingScenarioParameter findings)
    (hnames : ∀ block ∈ CallBlock.onLine? document.text line, ∀ record ∈ index.lookup? block.name,
      ∀ name ∈ record.parameters, isIdentifier name = true) :
    ∃ block record fix singles, CallBlock.onLine? document.text line = some block ∧
      index.lookup? block.name = some record ∧
      guardScalars (QuickFix.scalarsOf document .missingScenarioParameter line index)
        (QuickFix.forParameters document line index) = .ok (fix :: singles) ∧
      fix.preferred = true ∧ (∀ single ∈ singles, single.preferred = false) ∧
      checker.IsCompleted options document (document.applyEdits fix.edits) block
        (QuickFix.entriesOf document record (QuickFix.missingParameters record block)) ∧
      List.Forall₂ (fun name single => single.title = "Add parameter: ".toList ++ name ∧
          CallBlock.IsExtended document.text (document.applyEdits single.edits).text block
            (QuickFix.entriesOf document record [name]))
        (if (QuickFix.missingParameters record block).length ≤ 1 then []
          else QuickFix.missingParameters record block) singles := by
  obtain ⟨hguard, rfl⟩ := tryValidate_eq_ok_iff.1 hread
  have hin := isIn_of_mem_linesWith hline
  obtain ⟨block, hblock, hfault⟩ := exists_hasFault rfl (by decide) (by decide) hline
  cases hfault with
  | @missing record name hrecord hname hparameters =>
      have honLine := onLine?_eq_some_iff.2 ⟨hblock, rfl⟩
      have hlookup : index.lookup? block.name = some record := by rw [Index.lookup?, ← hrecords, hrecord]
      have hidentifiers := hnames block honLine record hlookup
      have hrecordMade := hmade.of_lookup? hlookup
      rw [expectedParameters_eq hidentifiers] at hname
      have hmissing : QuickFix.missingParameters record block ≠ [] :=
        List.ne_nil_of_mem (QuickFix.mem_missingParameters.2 ⟨hname, hparameters⟩)
      have hfixes := QuickFix.forParameters_eq honLine hlookup hidentifiers hmissing
      have hread := guardScalars_eq_ok_of_eq_ok
        (guard_scalarsOf_missingScenarioParameter block.line index hin hguard)
        (QuickFix.forParameters document block.line index)
      refine ⟨block, record, _, _, honLine, hlookup, hread.trans (congrArg Except.ok hfixes), rfl, ?_,
        isCompleted_supplying hrecordMade hidentifiers hrecord hblock hin hguard, ?_⟩
      · intro single hsingle
        split at hsingle
        · exact absurd hsingle List.not_mem_nil
        · obtain ⟨missing, -, rfl⟩ := List.mem_map.1 hsingle
          rfl
      · split
        · exact List.Forall₂.nil
        · rw [List.forall₂_map_right_iff, List.forall₂_same]
          intro missing hmem
          refine ⟨rfl, (QuickFix.isExtended_supplying hblock hrecordMade fun other hother => ?_).2.2⟩
          rw [List.mem_singleton.1 hother]
          exact hidentifiers missing (QuickFix.mem_missingParameters.1 hmem).1

/-! ## A call that lacks two parameters -/

/-- A scenario with a default for the last of its three parameters. -/
def threeParameters : Text :=
  unlines ["ДанныеСценария:".toList, "    Имя: \"A\"".toList, "ПараметрыСценария:".toList,
    "    - ПараметрыСценария1:".toList, "        Имя: \"P\"".toList,
    "    - ПараметрыСценария2:".toList, "        Имя: \"Q\"".toList,
    "    - ПараметрыСценария3:".toList, "        Имя: \"R\"".toList, "        Значение: \"1\"".toList]

def parameterIndex : Index := (Executor.bareDesk.index.upsert "/b".toList threeParameters).2

def parameterChecker : Checker where
  records := parameterIndex.records
  catalog := { steps := [], threshold := StepCatalog.defaultThreshold }
  config := {}

/-- A document with a call that assigns one parameter, and a call behind it; its lines end with carriage returns. -/
def partialCall : Document where
  uri := "/a".toList
  text := joinWith "\r\n".toList ["ТекстСценария: |".toList, "    И A".toList, "        Q = \"2\"".toList,
    "    И A".toList, []]

/-- The first call is reported, and both missing parameters of it are assigned. -/
theorem forParameters_completes_partialCall :
    parameterIndex.IsMade ∧
      1 ∈ linesWith .missingScenarioParameter (parameterChecker.validate partialCall .full) ∧
      ∃ block record fix singles, CallBlock.onLine? partialCall.text 1 = some block ∧
        parameterIndex.lookup? block.name = some record ∧
        guardScalars (QuickFix.scalarsOf partialCall .missingScenarioParameter 1 parameterIndex)
          (QuickFix.forParameters partialCall 1 parameterIndex) = .ok (fix :: singles) ∧
        fix.preferred = true ∧
        parameterChecker.IsCompleted .full partialCall (partialCall.applyEdits fix.edits) block
          (QuickFix.entriesOf partialCall record (QuickFix.missingParameters record block)) := by
  have hmade : parameterIndex.IsMade := (Index.isMade_of_empty rfl).upsert _ _
  have hread : parameterChecker.tryValidate partialCall .full =
      .ok (parameterChecker.validate partialCall .full) := tryValidate_eq_ok_iff.2 ⟨by decide +kernel, rfl⟩
  have hline : 1 ∈ linesWith .missingScenarioParameter (parameterChecker.validate partialCall .full) := by
    decide +kernel
  have hnames : ∀ block ∈ CallBlock.onLine? partialCall.text 1, ∀ record ∈ parameterIndex.lookup? block.name,
      ∀ name ∈ record.parameters, isIdentifier name = true := by decide +kernel
  obtain ⟨block, record, fix, singles, hblock, hrecord, hfixes, hpreferred, -, hcompleted, -⟩ :=
    forParameters_completes rfl hmade hread hline hnames
  exact ⟨hmade, hline, block, record, fix, singles, hblock, hrecord, hfixes, hpreferred, hcompleted⟩

example : (QuickFix.forParameters partialCall 1 parameterIndex).map (fun fix =>
      (partialCall.applyEdits fix.edits).lines) =
    [["ТекстСценария: |".toList, "    И A".toList, "        Q = \"2\"".toList, "        P = \"P\"".toList,
        "        R = \"1\"".toList, "    И A".toList, []],
      ["ТекстСценария: |".toList, "    И A".toList, "        Q = \"2\"".toList, "        P = \"P\"".toList,
        "    И A".toList, []],
      ["ТекстСценария: |".toList, "    И A".toList, "        Q = \"2\"".toList, "        R = \"1\"".toList,
        "    И A".toList, []]] := by decide +kernel

end Checker

end Scenarist
