import Scenarist.Proofs.Body.Enclosing

set_option autoImplicit false

/-! # The lines of the calls

The lines of a script are cut into calls and lines between them. A call takes up its own line and, directly below it, all
lines that assign to it down to the first one that does not; this line is looked at again, and may be the next call. So
no line is taken up twice, and a line with the shape of a call is left out only if its name is blank or holds a quote.

Main statements: `CallBlock.slice_name_of_openedBy?` (where the name stands), `CallBlock.pairwise_lineNumbers` and
`CallBlock.ofText_partition`. -/

namespace Scenarist

open Text

/-! ## Where a name stands -/

namespace StepLine

/-- A wording that says something begins with no blank. -/
theorem stripLeft_content_of_parse? {keywords : List Text} {line : Text} {parts : StepLine} (hfeed : '\n' ∉ line)
    (h : parse? keywords line = some parts) (hcontent : strip parts.content ≠ []) :
    stripLeft parts.content = parts.content := by
  simp only [parse?, Option.bind_eq_bind, Option.bind_eq_some_iff, Option.pure_def, Option.some.injEq,
    Prod.exists] at h
  obtain ⟨keyword, rest, hword, gap, content, tail, hwording, rfl⟩ := h
  have hfree : '\n' ∉ rest := by
    intro hmem
    apply hfeed
    rw [← leadingBlanks_append_stripLeft line, ← append_of_cutWord? hword]
    simp [hmem]
  by_cases hbody : stripLeft rest = []
  · exact absurd (strip_content_of_blank hbody hwording) hcontent
  · rw [wording?_of_body hfree hbody] at hwording
    split at hwording
    · exact absurd hwording (by simp)
    · obtain ⟨-, rfl, -⟩ : _ ∧ stripLeft rest = content ∧ _ := by simpa using hwording
      exact stripLeft_stripLeft rest

end StepLine

namespace CallBlock

variable {block : CallBlock} {number : Nat} {line : Text}

/-- The name of a call stands on its line from the first to the last of its columns. -/
theorem slice_name_of_openedBy? (hfeed : '\n' ∉ line) (h : openedBy? number line = some block) :
    slice block.nameStart block.nameEnd line = block.name := by
  obtain ⟨hline, hname⟩ := Option.filter_eq_some_iff.1 h
  obtain ⟨parts, hparts, rfl⟩ := Option.map_eq_some_iff.1 hline
  rw [Bool.and_eq_true] at hname
  have hne : strip parts.content ≠ [] := by simpa using hname.1
  -- behind the name stand the blanks that were stripped and the tail of the line
  obtain ⟨blanks, hblanks, -⟩ := stripRight_prefix (stripLeft parts.content)
  have hcontent : parts.content = strip parts.content ++ blanks := by
    conv_lhs => rw [← StepLine.stripLeft_content_of_parse? hfeed hparts hne]
    exact hblanks
  have htext : line = (parts.indent ++ parts.keyword ++ parts.gap) ++ strip parts.content ++
      (blanks ++ parts.tail) := by
    calc line = parts.text := (StepLine.text_of_parse? hparts).symm
      _ = parts.indent ++ parts.keyword ++ parts.gap ++ (strip parts.content ++ blanks) ++ parts.tail := by
        rw [← hcontent]
        rfl
      _ = _ := by simp only [List.append_assoc]
  have hstart : parts.contentStart = (parts.indent ++ parts.keyword ++ parts.gap).length := by
    simp only [StepLine.contentStart, List.length_append]
  show slice parts.contentStart (parts.contentStart + (strip parts.content).length) line = strip parts.content
  rw [hstart]
  conv_lhs => rw [htext]
  exact Document.slice_middle _ _ _

/-! ## Assignments -/

/-- Whether a line assigns to a call with an indentation: it says something, is an assignment, and is indented deeper. -/
def Assigns (indent : Nat) (line : Text) (assignment : AssignmentLine) : Prop :=
  isSilent line = false ∧ AssignmentLine.parse? line = some assignment ∧ indent < indentWidth line

theorem assignedBy?_eq_some_iff {parameter : CallParameter} :
    block.assignedBy? number line = some parameter ↔ ∃ assignment, Assigns block.indent line assignment ∧
      parameter = ⟨number, assignment.name, assignment.value⟩ := by
  unfold assignedBy? Assigns
  cases hsilent : isSilent line with
  | true => simp
  | false =>
      cases hparse : AssignmentLine.parse? line with
      | none => simp
      | some assignment =>
          by_cases hdeeper : indentWidth line ≤ block.indent
          · simp [hdeeper, Nat.not_lt_of_le hdeeper]
          · simp [hdeeper, Nat.lt_of_not_le hdeeper, eq_comm]

theorem assignedBy?_eq_none_iff :
    block.assignedBy? number line = none ↔ ∀ assignment, ¬ Assigns block.indent line assignment := by
  rw [Option.eq_none_iff_forall_ne_some]
  constructor
  · intro h assignment hassigns
    exact h _ (assignedBy?_eq_some_iff.2 ⟨assignment, hassigns, rfl⟩)
  · intro h parameter hassigned
    obtain ⟨assignment, hassigns, -⟩ := assignedBy?_eq_some_iff.1 hassigned
    exact h assignment hassigns

/-! ## The lines of a script -/

/-- All lines of a call stand above all lines of the calls that follow. -/
theorem pairwise_lineNumbers (text : Text) :
    (ofText text).Pairwise fun block later => ∀ m ∈ block.lineNumbers, ∀ n ∈ later.lineNumbers, m < n := by
  have hsorted : ((ofText text).flatMap lineNumbers).Pairwise (· < ·) :=
    (SectionKey.pairwise_linesOf .script text).sublist (lineNumbers_readFrom_sublist none (scriptLines text))
  exact (List.pairwise_flatMap.1 hsorted).2

/-- A line that opens a call is the line of a call or assigns to one. -/
theorem exists_mem_ofText_of_openedBy? {text : Text} {entry : Nat × Text} (hentry : entry ∈ scriptLines text)
    (h : openedBy? entry.1 entry.2 = some block) :
    ∃ call ∈ ofText text, call.line = entry.1 ∨ ∃ parameter ∈ call.parameters, parameter.line = entry.1 := by
  by_cases hassigns : entry.1 ∈ assignmentLines (ofText text)
  · obtain ⟨call, hcall, hmem⟩ := List.mem_flatMap.1 hassigns
    exact ⟨call, hcall, Or.inr (List.mem_map.1 hmem)⟩
  · -- what the lines that assign nothing open are the calls
    have hopened : block ∈ (unassignedLines text).filterMap fun entry => openedBy? entry.1 entry.2 :=
      List.mem_filterMap.2 ⟨entry, List.mem_filter.2 ⟨hentry, by simpa using hassigns⟩, h⟩
    rw [← bare_ofText] at hopened
    obtain ⟨call, hcall, heq⟩ := List.mem_map.1 hopened
    refine ⟨call, hcall, Or.inl ?_⟩
    calc call.line = call.bare.line := rfl
      _ = entry.1 := by rw [heq, (line_of_openedBy? h).1]

/-- The lines below a line of a script have the numbers that follow its own. -/
theorem numbers_below {text : Text} {above run rest : List (Nat × Text)} {entry : Nat × Text}
    (h : scriptLines text = above ++ entry :: (run ++ rest)) :
    run.map Prod.fst = List.range' (entry.1 + 1) run.length := by
  obtain ⟨s, front, raw, back, -, -, -, -, -, -, hbelow⟩ := SectionKey.exists_raw_of_linesOf_eq h
  have hnumbers : (run ++ rest).map Prod.fst = List.range' (entry.1 + 1) (run ++ rest).length := by
    rw [hbelow, List.map_map, List.length_map, List.length_zipIdx, ← List.zipIdx_map_snd]
    rfl
  rw [List.map_append, List.length_append, ← List.range'_append_1] at hnumbers
  exact List.append_inj_left hnumbers (by simp)

/-- How a call lies in a script: on its line stands its name, and directly below it the longest run of lines that assign
to it, each with the parameter that it assigns; then come the lines `rest`. -/
structure LiesIn (text : Text) (block : CallBlock) (line : Text) (run rest : List (Nat × Text)) : Prop where
  lines_eq : ∃ above, scriptLines text = above ++ (block.line, line) :: (run ++ rest)
  opens : openedBy? block.line line = some block.bare
  name : slice block.nameStart block.nameEnd line = block.name
  indent : block.indent = indentWidth line
  below : run.map Prod.fst = List.range' (block.line + 1) run.length
  assigns : List.Forall₂ (fun entry parameter => ∃ assignment, Assigns block.indent entry.2 assignment ∧
    parameter = ⟨entry.1, assignment.name, assignment.value⟩) run block.parameters
  ends : ∀ entry ∈ rest.head?, ∀ assignment, ¬ Assigns block.indent entry.2 assignment

theorem exists_liesIn_of_mem_ofText {text : Text} (h : block ∈ ofText text) :
    ∃ line run rest, LiesIn text block line run rest := by
  obtain ⟨above, line, run, rest, hlines, hopened, hrun, hends⟩ := exists_run_of_mem_ofText h
  have hentry : (block.line, line) ∈ scriptLines text := by
    rw [hlines]
    simp
  have hname := slice_name_of_openedBy? (SectionKey.lineFeed_not_mem_of_mem_linesOf hentry) hopened
  refine ⟨line, run, rest, ⟨above, hlines⟩, hopened, hname, ?_, numbers_below hlines, ?_, ?_⟩
  · exact (shapedBy?_eq_some (shapedBy?_of_openedBy? hopened)).2.2
  · rw [← List.forall₂_eq_eq_eq, List.forall₂_map_left_iff, List.forall₂_map_right_iff] at hrun
    apply hrun.imp
    intro entry parameter hassigned
    exact assignedBy?_eq_some_iff.1 hassigned
  · intro entry hentry
    exact assignedBy?_eq_none_iff.1 (hends entry hentry)

/-! ## The calls of a script -/

/-- The calls of a script follow each other and share no line; each takes up the lines that assign to it directly below
its own; and a line with the shape of a call is that of one, or assigns to one, if its name says something and holds no
quote. -/
theorem ofText_partition (text : Text) :
    ((ofText text).Pairwise fun block later =>
        block.line < later.line ∧ block.lineNumbers.Disjoint later.lineNumbers) ∧
      (∀ block ∈ ofText text, ∃ line run rest, LiesIn text block line run rest) ∧
      ∀ entry ∈ scriptLines text, ∀ parts, StepLine.ofCall? entry.2 = some parts → strip parts.content ≠ [] →
        '"' ∉ strip parts.content →
        ∃ block ∈ ofText text, block.line = entry.1 ∨ ∃ parameter ∈ block.parameters, parameter.line = entry.1 := by
  refine ⟨?_, fun block hblock => exists_liesIn_of_mem_ofText hblock, ?_⟩
  · apply (pairwise_lineNumbers text).imp
    intro block later hlt
    constructor
    · exact hlt _ block.line_mem_lineNumbers _ later.line_mem_lineNumbers
    · intro number hnumber hlater
      exact Nat.lt_irrefl number (hlt number hnumber number hlater)
  · intro entry hentry parts hparts hname hquote
    have hopened : ∃ opened, openedBy? entry.1 entry.2 = some opened := by
      refine ⟨_, Option.filter_eq_some_iff.2 ⟨Option.map_eq_some_iff.2 ⟨parts, hparts, rfl⟩, ?_⟩⟩
      simpa using ⟨hname, hquote⟩
    obtain ⟨opened, hopened⟩ := hopened
    exact exists_mem_ofText_of_openedBy? hentry hopened

/-- A line with the shape of a call that assigns to the call above it. -/
theorem ofText_partition_keywordAssignment :
    ∃ entry ∈ scriptLines keywordAssignment, ∃ parts, StepLine.ofCall? entry.2 = some parts ∧
      strip parts.content ≠ [] ∧ '"' ∉ strip parts.content ∧ entry.1 = 2 ∧
      ∃ block ∈ ofText keywordAssignment, block.line = 2 ∨ ∃ parameter ∈ block.parameters, parameter.line = 2 := by
  have hentry : (2, "        И = 5".toList) ∈ scriptLines keywordAssignment := by decide +kernel
  have hparts : StepLine.ofCall? "        И = 5".toList =
      some ⟨"        ".toList, "И".toList, " ".toList, "= 5".toList, []⟩ := by decide +kernel
  have hname : strip "= 5".toList ≠ [] := by decide +kernel
  have hquote : '"' ∉ strip "= 5".toList := by decide +kernel
  exact ⟨_, hentry, _, hparts, hname, hquote, rfl,
    (ofText_partition keywordAssignment).2.2 _ hentry _ hparts hname hquote⟩

end CallBlock

end Scenarist
