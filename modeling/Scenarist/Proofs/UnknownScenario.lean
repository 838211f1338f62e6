import Scenarist.Proofs.MissingParameters
import Scenarist.Proofs.Renaming
import Scenarist.Proofs.Validation.History

set_option autoImplicit false

/-! # Calls of unknown scenarios

A call of a scenario that is not known is reported with the scenarios whose names come closest, and the fixes are one
for each of these, in the same order. A fix writes the call line anew, so the line is a call of the proposed scenario
with the assignments that it had, and nothing else changes about the calls. Only a name that begins with an equals sign
may be lost: directly below a call that is indented less, such a line is an assignment.

Main statements: `Checker.exists_unknownCall_of_mem_validate` (what is reported), `QuickFix.forCall_eq` (the fixes),
`CallBlock.isRenamed_callLine_iff` (what a fix does to the calls) and `Checker.forCall_resolves_iff`. -/

namespace Scenarist

open Text

/-! ## Names that are proposed -/

theorem mem_closest {text name : Text} {candidates : List Text} {count : Int} {threshold : Float}
    (h : name ∈ closest text candidates count threshold) : name ∈ candidates := by
  unfold closest bestOf at h
  dsimp only at h
  split at h
  · exact absurd h List.not_mem_nil
  · obtain ⟨scored, hscored, rfl⟩ := List.mem_map.1 (List.mem_of_mem_take h)
    obtain ⟨candidate, hcandidate, rfl⟩ := List.mem_map.1 (List.mem_filter.1 (List.mem_mergeSort.1 hscored)).1
    exact hcandidate

theorem bestOf_singleton (count : Int) (scored : Rat × Text) : bestOf count [scored] = [scored.2] := by
  obtain ⟨n, hn⟩ := Nat.exists_eq_succ_of_ne_zero (show (max 1 count).toNat ≠ 0 by omega)
  rw [bestOf, List.mergeSort_singleton, List.map_singleton, hn, List.take_succ_cons, List.take_nil]

theorem callKeyword_mem (language : Option Language) : callKeyword language ∈ callKeywords := by
  rcases language with _ | _ | _ <;> decide

/-- The names of an index can be called unless a line feed or a double quote is in the way. -/
theorem Index.IsMade.isCallable {index : Index} (h : index.IsMade) {name : Text} (hname : name ∈ index.names)
    (hfeed : '\n' ∉ name) (hquote : '"' ∉ name) : IsCallable name where
  strip := h.isTrimmed name hname
  ne_nil := by
    obtain ⟨entry, hentry, rfl⟩ := List.mem_map.1 hname
    obtain ⟨hkey, source, document, hmade⟩ := h entry hentry
    obtain ⟨name, hname, hrecord⟩ := Option.map_eq_some_iff.1 hmade
    obtain ⟨found, hfound, rfl⟩ := Option.map_eq_some_iff.1 hname
    rw [hkey, ← hrecord]
    exact (Declaration.strip_of_metadataField? hfound).2
  lineFeed := hfeed
  quote := hquote

/-! ## The fixes -/

namespace CallBlock

variable {document : Document} {block : CallBlock} {keyword name : Text}

/-- The line of a call is cut at its keyword, behind which is the name. -/
theorem exists_parts_of_mem_ofText (h : block ∈ ofText document.text) :
    ∃ parts, StepLine.ofCall? (document.lineAt block.line) = some parts ∧ strip parts.content = block.name ∧
      block.indent = indentWidth (leadingBlanks (document.lineAt block.line)) ∧
      '\n' ∉ document.lineAt block.line := by
  obtain ⟨line, hline, hopened⟩ := Checker.exists_line_of_mem_blocksOf h
  rw [Document.lineAt_of_mem_linesOf hline]
  obtain ⟨hcall, -⟩ := Option.filter_eq_some_iff.1 hopened
  obtain ⟨parts, hparts, heq⟩ := Option.map_eq_some_iff.1 hcall
  refine ⟨parts, hparts, congrArg CallBlock.name heq, ?_, SectionKey.lineFeed_not_mem_of_mem_linesOf hline⟩
  rw [indentWidth_leadingBlanks]
  exact (congrArg CallBlock.indent heq).symm

/-- Whether a call of a name would be taken for an assignment on the line of this call: the name begins with an equals
sign, and the line stands directly below a call that is indented less. -/
def ReadsAsAssignment (text : Text) (block : CallBlock) (name : Text) : Prop :=
  name.head? = some '=' ∧ ∃ outer ∈ ofText text, outer.lastLine + 1 = block.line ∧ outer.indent < block.indent

instance (text : Text) (block : CallBlock) (name : Text) : Decidable (block.ReadsAsAssignment text name) :=
  inferInstanceAs (Decidable (_ ∧ ∃ outer ∈ ofText text, _ ∧ _))

/-- The line of a call that is written anew with another name can only be a call of that name, and renames the call
unless it is taken for an assignment. -/
theorem isRenamed_callLine_iff (hblock : block ∈ ofText document.text) (hkeyword : keyword ∈ callKeywords)
    (hname : IsCallable name) :
    let line := callLine (leadingBlanks (document.lineAt block.line)) keyword name
    let text := (document.replaceLine block.line line).applyTo document.text
    SectionKey.script.Rewritten (lines document.text) (lines text) ∧ SectionKey.isIn text .script = true ∧
      (block.line, line) ∈ scriptLines text ∧ (openedBy? block.line line).map CallBlock.name = some name ∧
      (IsRenamed document.text text block name ↔ ¬ block.ReadsAsAssignment document.text name) := by
  intro line text
  obtain ⟨-, -, -, hindent, hfree⟩ := exists_parts_of_mem_ofText hblock
  have hblank : ∀ c ∈ leadingBlanks (document.lineAt block.line), isBlank c = true :=
    fun _ => isBlank_of_mem_leadingBlanks
  have hfree' : '\n' ∉ leadingBlanks (document.lineAt block.line) :=
    fun hmem => hfree ((List.takeWhile_sublist isBlank).subset hmem)
  obtain ⟨opened, hopened, rfl, hwidth⟩ := CallLine.openedBy?_callLine hblank hkeyword hname block.line
  obtain ⟨hrewritten, hin, hmem, hiff⟩ := isRenamed_replaceLine_iff hblock hopened (hwidth.trans hindent.symm)
    (CallLine.lineFeed_not_mem_callLine hfree' hkeyword hname) (CallLine.trimReturns_callLine _ _ hname)
    (CallLine.isTopLevelKey_callLine hblank hkeyword)
  refine ⟨hrewritten, hin, hmem, by rw [hopened, Option.map_some], hiff.trans ?_⟩
  simp only [CallLine.assignedBy?_callLine_eq_none_iff hblank hkeyword hname, ← hindent, ReadsAsAssignment]
  constructor
  · rintro h ⟨hequals, outer, houter, hbelow, hlt⟩
    exact h outer houter hbelow ⟨hequals, hlt⟩
  · rintro h outer houter hbelow ⟨hequals, hlt⟩
    exact h ⟨hequals, outer, houter, hbelow, hlt⟩

end CallBlock

namespace QuickFix

def calling (document : Document) (config : Config) (line : Nat) (name : Text) : QuickFix where
  title := "Replace with scenario: ".toList ++ name
  edits := [document.replaceLine line (callLine (leadingBlanks (document.lineAt line))
    (callKeyword (some (Language.resolve document.text config.language))) name)]

theorem text_applyEdits_calling (document : Document) (config : Config) (line : Nat) (name : Text) :
    (document.applyEdits (calling document config line name).edits).text =
      (document.replaceLine line (callLine (leadingBlanks (document.lineAt line))
        (callKeyword (some (Language.resolve document.text config.language))) name)).applyTo document.text :=
  Document.text_applyEdits_singleton document _

/-- The fixes for a call are those that make its line a call of one of the scenarios closest to its name. -/
theorem forCall_eq {document : Document} {block : CallBlock} (h : block ∈ CallBlock.ofText document.text)
    (index : Index) (config : Config) :
    forCall document block.line index config =
      (closest block.name index.names config.maxSuggestions config.suggestionThreshold).map
        (calling document config block.line) := by
  obtain ⟨parts, hparts, hname, -⟩ := CallBlock.exists_parts_of_mem_ofText h
  unfold forCall calling
  simp only [hparts, hname, StepLine.indent_of_ofCall? hparts, callLine]

end QuickFix

/-! ## What is reported -/

namespace Checker

variable {checker : Checker} {options : ValidationOptions} {document : Document} {block : CallBlock} {index : Index}
  {findings : List Diagnostic} {diagnostic : Diagnostic}

/-- What is reported as a call of an unknown scenario is a call of the script whose name is not known, with the
scenarios that are proposed for it. -/
theorem exists_unknownCall_of_mem_validate (h : diagnostic ∈ checker.validate document options)
    (hcode : diagnostic.code = .unknownScenario) :
    ∃ block ∈ blocksOf document, diagnostic = finding document block.line .error .unknownScenario
      (Message.unknownScenario ++
        suggestionSuffix (if options.proposesScenarios then checker.proposals block.name else [])) := by
  cases hscript : SectionKey.script.find? document.text with
  | none => simp [validate, hscript] at h
  | some script =>
      -- every check but the one of the calls reports under codes of its own
      have hothers := fun h =>
        @code_ne_of_mem_others checker document script (checker.callsIn options document) .unknownScenario rfl
          diagnostic h hcode
      rw [validate_eq hscript] at h
      simp only [List.mem_append] at h
      rcases h with (((h | h) | h) | h) | h
      · exact absurd (Or.inl h) hothers
      · obtain ⟨block, hblock, hfinding⟩ := List.mem_flatMap.1 h
        refine ⟨block, hblock, ?_⟩
        rcases checker.judge_cases options document block with
          ⟨record, -, hjudge⟩ | hjudge | ⟨-, hints, hjudge⟩ | ⟨-, hjudge⟩ <;> rw [hjudge] at hfinding
        · rcases code_checkParameters hfinding with hother | hother | hother <;>
            exact absurd (hother.symm.trans hcode) (by decide)
        · exact absurd hfinding List.not_mem_nil
        · rw [List.mem_singleton.1 hfinding, code_stepFinding] at hcode
          exact absurd hcode (by decide)
        · unfold unknownCall at hfinding
          split at hfinding
          · exact absurd ((code_checkQuoting hfinding).symm.trans hcode) (by decide)
          · exact List.mem_singleton.1 hfinding
      · exact absurd ((code_stepFindings h).symm.trans hcode) (by decide)
      · exact absurd (Or.inr (Or.inl h)) hothers
      · exact absurd (Or.inr (Or.inr h)) hothers

/-- A line on which only known scenarios are called is not reported as a call of an unknown one. -/
theorem not_mem_linesWith_unknownScenario {number : Nat}
    (h : ∀ block ∈ blocksOf document, block.line = number → block.name ∈ checker.records.keys) :
    number ∉ linesWith .unknownScenario (checker.validate document options) := by
  rw [linesWith_unknownScenario_validate]
  intro hmem
  obtain ⟨block, hmem, hline⟩ := List.mem_map.1 hmem
  obtain ⟨hblock, hunknown⟩ := List.mem_filter.1 hmem
  have hknown := Table.mem_keys_iff.1 (h block hblock hline)
  simp only [isUnknownCall, Bool.and_eq_true, Option.isNone_iff_eq_none] at hunknown
  rw [hunknown.1.2] at hknown
  exact Bool.noConfusion hknown

/-! ## A document and its fixes -/

/-- Whether a document can be checked and a line of it is not reported as a call of an unknown scenario. -/
def IsResolved (checker : Checker) (options : ValidationOptions) (document : Document) (number : Nat) : Prop :=
  ∃ findings, checker.tryValidate document options = .ok findings ∧ number ∉ linesWith .unknownScenario findings

theorem isResolved_calling (hblock : block ∈ blocksOf document)
    (hin : SectionKey.isIn document.text .script = true)
    (hguard : guardScalars (checker.scalarsOf document.text) () = .ok ()) {name : Text} (hname : IsCallable name)
    (hknown : name ∈ checker.records.keys) :
    let fixed := document.applyEdits (QuickFix.calling document checker.config block.line name).edits
    checker.IsResolved options fixed block.line ∧
      (CallBlock.IsRenamed document.text fixed.text block name ↔ ¬ block.ReadsAsAssignment document.text name) := by
  intro fixed
  obtain ⟨hrewritten, hin', hmem, hcalled, hiff⟩ := CallBlock.isRenamed_callLine_iff hblock
    (callKeyword_mem (some (Language.resolve document.text checker.config.language))) hname
  rw [← QuickFix.text_applyEdits_calling] at hrewritten hin' hmem hiff
  refine ⟨⟨_, tryValidate_eq_ok_iff.2 ⟨?_, rfl⟩, not_mem_linesWith_unknownScenario fun other hother hline => ?_⟩, hiff⟩
  · rw [← checker.scalarsOf_congr hrewritten hin hin'] at hguard
    exact hguard
  · -- a call on the line is opened by the line that the fix writes
    obtain ⟨line, hline', hopened⟩ := exists_line_of_mem_blocksOf hother
    rw [hline] at hline' hopened
    have hwritten := Document.lineAt_of_mem_linesOf (show _ ∈ SectionKey.script.linesOf fixed.text from hmem)
    obtain rfl : line = _ := (Document.lineAt_of_mem_linesOf hline').symm.trans hwritten
    rw [hopened, Option.map_some] at hcalled
    obtain rfl : other.name = name := Option.some.inj hcalled
    exact hknown

/-- The proposals stand in a list below a message, one to a line, if there are any. -/
theorem suggestionSuffix_eq (names : List Text) :
    suggestionSuffix names = if names = [] then [] else
      "\nMaybe you meant:".toList ++ names.flatMap (fun name => "\n- ".toList ++ name) ++ ['\n'] := by
  cases names <;> rfl

/-- The fixes for a call of an unknown scenario, when the records of the index were made of documents, as they are
after any events: one for each scenario that the message lists, in the same order. No unknown scenario is reported on the line
after a fix, and the fix makes the line a call of its scenario, with the indentation and the assignments that it had,
and leaves the other calls as they are, exactly if the line is not taken for an assignment. -/
theorem forCall_resolves_iff (hrecords : checker.records = index.records) (hmade : index.IsMade)
    (hfree : ∀ name ∈ index.names, '\n' ∉ name ∧ '"' ∉ name) (hproposes : options.proposesScenarios = true)
    (hread : checker.tryValidate document options = .ok findings) (hdiagnostic : diagnostic ∈ findings)
    (hcode : diagnostic.code = .unknownScenario) :
    ∃ block names, CallBlock.onLine? document.text diagnostic.line = some block ∧
      diagnostic = finding document block.line .error .unknownScenario
        ("Unknown nested scenario call.".toList ++ if names = [] then [] else
          "\nMaybe you meant:".toList ++ names.flatMap (fun name => "\n- ".toList ++ name) ++ ['\n']) ∧
      List.Forall₂ (fun name fix => fix.title = "Replace with scenario: ".toList ++ name ∧
          checker.IsResolved options (document.applyEdits fix.edits) block.line ∧
          (CallBlock.IsRenamed document.text (document.applyEdits fix.edits).text block name ↔
            ¬ block.ReadsAsAssignment document.text name))
        names (QuickFix.forCall document diagnostic.line index checker.config) := by
  obtain ⟨hguard, rfl⟩ := tryValidate_eq_ok_iff.1 hread
  obtain ⟨block, hblock, rfl⟩ := exists_unknownCall_of_mem_validate hdiagnostic hcode
  have hin : SectionKey.isIn document.text .script = true :=
    isIn_of_mem_linesWith (mem_linesWith.2 ⟨_, hdiagnostic, hcode, rfl⟩)
  refine ⟨block, checker.proposals block.name, onLine?_eq_some_iff.2 ⟨hblock, rfl⟩, ?_, ?_⟩
  · rw [hproposes, if_pos rfl, suggestionSuffix_eq]
    rfl
  have hproposals : checker.proposals block.name =
      closest block.name index.names checker.config.maxSuggestions checker.config.suggestionThreshold := by
    rw [proposals, hrecords]
    rfl
  show List.Forall₂ _ _ (QuickFix.forCall document block.line index checker.config)
  rw [QuickFix.forCall_eq hblock, ← hproposals, List.forall₂_map_right_iff, List.forall₂_same]
  intro name hname
  have hmem : name ∈ index.names := mem_closest (hproposals ▸ hname)
  obtain ⟨hfeed, hquote⟩ := hfree name hmem
  exact ⟨rfl, isResolved_calling hblock hin hguard (hmade.isCallable hmem hfeed hquote) (hrecords ▸ hmem)⟩

/-! ## A name that begins with an equals sign -/

def equalsIndex : Index :=
  ((Executor.bareDesk.index.upsert "/a".toList (declaring "A".toList)).2.upsert "/b".toList
    (declaring "= BC".toList)).2

def equalsChecker : Checker where
  records := equalsIndex.records
  catalog := { steps := [], threshold := StepCatalog.defaultThreshold }
  config := {}

/-- A call of a scenario, and behind these blanks one of an unknown scenario with an assignment. -/
def callsAt (indent : Text) : Document where
  uri := "/c".toList
  text := "ТекстСценария: |\n    И A\n".toList ++ indent ++ "И BC\n".toList ++ indent ++ "    P = \"1\"\n".toList

theorem isMade_equalsIndex : equalsIndex.IsMade :=
  ((Index.isMade_of_empty rfl).upsert _ _).upsert _ _

theorem free_of_mem_names_equalsIndex : ∀ name ∈ equalsIndex.names, '\n' ∉ name ∧ '"' ∉ name := by decide +kernel

/-- One name of the index is close to that of the unknown scenario. -/
theorem forCall_equalsIndex (h : block ∈ CallBlock.ofText document.text) (hname : block.name = "BC".toList) :
    QuickFix.forCall document block.line equalsIndex equalsChecker.config =
      [QuickFix.calling document equalsChecker.config block.line "= BC".toList] := by
  have hscored : ((equalsIndex.names.map fun candidate =>
      (similarity "bc".toList (Text.lower candidate), candidate)).filter fun scored =>
        meets equalsChecker.config.suggestionThreshold scored.1) = [(1 / 2, "= BC".toList)] := by decide +kernel
  have hclosest : closest "BC".toList equalsIndex.names equalsChecker.config.maxSuggestions
      equalsChecker.config.suggestionThreshold = ["= BC".toList] :=
    (congrArg (bestOf _) hscored).trans (bestOf_singleton _ _)
  rw [QuickFix.forCall_eq h, hname, hclosest, List.map_singleton]

/-- Below a call that is indented as deep, the fix makes the line a call of the proposed scenario. -/
theorem forCall_resolves_iff_level :
    equalsIndex.IsMade ∧ (∀ name ∈ equalsIndex.names, '\n' ∉ name ∧ '"' ∉ name) ∧
      ∃ diagnostic ∈ equalsChecker.validate (callsAt "    ".toList) .full,
        diagnostic.code = .unknownScenario ∧ diagnostic.line = 2 ∧
        ∃ block fix, CallBlock.onLine? (callsAt "    ".toList).text 2 = some block ∧
          diagnostic = finding (callsAt "    ".toList) 2 .error .unknownScenario
            "Unknown nested scenario call.\nMaybe you meant:\n- = BC\n".toList ∧
          QuickFix.forCall (callsAt "    ".toList) 2 equalsIndex equalsChecker.config = [fix] ∧
          equalsChecker.IsResolved .full ((callsAt "    ".toList).applyEdits fix.edits) 2 ∧
          CallBlock.IsRenamed (callsAt "    ".toList).text ((callsAt "    ".toList).applyEdits fix.edits).text block
            "= BC".toList := by
  have hread : equalsChecker.tryValidate (callsAt "    ".toList) .full =
      .ok (equalsChecker.validate (callsAt "    ".toList) .full) := tryValidate_eq_ok_iff.2 ⟨by decide +kernel, rfl⟩
  have hline : 2 ∈ linesWith .unknownScenario (equalsChecker.validate (callsAt "    ".toList) .full) := by
    decide +kernel
  have hcall : ∀ block ∈ CallBlock.onLine? (callsAt "    ".toList).text 2,
      block.name = "BC".toList ∧ ¬ block.ReadsAsAssignment (callsAt "    ".toList).text "= BC".toList := by
    decide +kernel
  obtain ⟨diagnostic, hdiagnostic, hcode, hnumber⟩ := mem_linesWith.1 hline
  obtain ⟨block, names, hblock, hmessage, hfixes⟩ :=
    forCall_resolves_iff rfl isMade_equalsIndex free_of_mem_names_equalsIndex rfl hread hdiagnostic hcode
  rw [hnumber] at hblock hfixes
  obtain ⟨hmem, hnumber'⟩ := onLine?_eq_some_iff.1 hblock
  obtain ⟨hname, hcalled⟩ := hcall block hblock
  have hfix := forCall_equalsIndex hmem hname
  rw [hnumber'] at hfix hmessage hfixes
  rw [hfix] at hfixes
  obtain ⟨name, others, ⟨htitle, hresolved, hiff⟩, hothers, rfl⟩ := List.forall₂_cons_right_iff.1 hfixes
  obtain rfl := List.forall₂_nil_right_iff.1 hothers
  obtain rfl : "= BC".toList = name := List.append_cancel_left htitle
  exact ⟨isMade_equalsIndex, free_of_mem_names_equalsIndex, diagnostic, hdiagnostic, hcode, hnumber, block, _, hblock,
    hmessage, hfix, hresolved, hiff.2 hcalled⟩

/-- Below a call that is indented less, the line that the fix writes is no call but an assignment. -/
theorem forCall_equalsIndex_deeper :
    equalsIndex.IsMade ∧ (∀ name ∈ equalsIndex.names, '\n' ∉ name ∧ '"' ∉ name) ∧
      linesWith .unknownScenario (equalsChecker.validate (callsAt "        ".toList) .full) = [2] ∧
      (QuickFix.forCall (callsAt "        ".toList) 2 equalsIndex equalsChecker.config).map (fun fix =>
          let fixed := ((callsAt "        ".toList).applyEdits fix.edits).text
          (CallBlock.onLine? fixed 2, (CallBlock.ofText fixed).map CallBlock.parameterNames)) =
        [(none, [["And".toList, "P".toList]])] := by
  have hcall : ∃ block ∈ CallBlock.ofText (callsAt "        ".toList).text,
      block.line = 2 ∧ block.name = "BC".toList := by decide +kernel
  obtain ⟨block, hmem, hline, hname⟩ := hcall
  refine ⟨isMade_equalsIndex, free_of_mem_names_equalsIndex, by decide +kernel, ?_⟩
  rw [← hline, forCall_equalsIndex hmem hname, hline, List.map_singleton]
  decide +kernel

end Checker

end Scenarist
