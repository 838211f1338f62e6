import Scenarist.Proofs.Document
import Scenarist.Proofs.Nested
import Scenarist.Proofs.StepLine

set_option autoImplicit false

/-! # Two readings of the calls

A script is read for its calls in two ways: as blocks, each a call line with its assignments, and line by
line for the names alone. Both see a call in the same lines, with two differences. Only the second reading
drops inline parameters from a name, and only the first one takes a call-shaped line as the assignment that
it is when it stands below a call. So the names are the same exactly if no block's name has inline
parameters and no call-shaped assignment brings in a name before a call does.

Main statements: `CallBlock.bare_readAll` (blocks are the call-shaped lines that assign nothing),
`calledName?_eq` (one line) and `calledNames_eq_iff` (a script). -/

namespace Scenarist

open Text

/-! ## Names without inline parameters -/

theorem cutAt?_eq_none_iff {needle text : Text} :
    cutAt? needle text = none ↔ ¬ ∃ a b, text = a ++ needle ++ b := by
  rw [← contains_iff, contains, Bool.not_eq_true, Option.isSome_eq_false_iff, Option.isNone_iff_eq_none]

/-- A text is cut at the first occurrence, so there is none before it. -/
theorem cutAt?_before {needle text before rest : Text} (hne : needle ≠ [])
    (h : cutAt? needle text = some (before, rest)) : cutAt? needle before = none := by
  have hnil : cutAt? needle [] = none := by
    obtain ⟨c, cs, rfl⟩ := List.exists_cons_of_ne_nil hne
    rfl
  induction text generalizing before with
  | nil =>
      rw [hnil] at h
      exact absurd h (by simp)
  | cons c cs ih =>
      unfold cutAt? at h
      split at h
      · obtain ⟨rfl, -⟩ := Prod.mk.inj (Option.some.inj h)
        exact hnil
      · next hhere =>
        obtain ⟨⟨front, back⟩, hcut, heq⟩ := Option.map_eq_some_iff.1 h
        obtain ⟨rfl, rfl⟩ := Prod.mk.inj heq
        obtain ⟨tail, rfl⟩ := append_of_cutAt? hcut
        -- what begins with the needle in the part begins with it in the whole text
        have hnot : after? needle (c :: front) = none := by
          cases hafter : after? needle (c :: front) with
          | none => rfl
          | some left =>
              rw [← List.cons_append, after?_eq_some_iff.1 hafter, List.append_assoc,
                after?_append] at hhere
              exact absurd hhere (by simp)
        rw [cutAt?, hnot, ih hcut]
        rfl

theorem cutAt?_strip {needle text : Text} (h : cutAt? needle text = none) :
    cutAt? needle (strip text) = none := by
  rw [cutAt?_eq_none_iff] at h ⊢
  rintro ⟨a, b, hab⟩
  obtain ⟨front, hfront, -⟩ := stripLeft_suffix text
  obtain ⟨tail, htail, -⟩ := stripRight_prefix (stripLeft text)
  refine h ⟨front ++ a, b ++ tail, ?_⟩
  calc text = front ++ (strip text ++ tail) := by rw [strip, ← htail]; exact hfront
    _ = front ++ a ++ needle ++ (b ++ tail) := by rw [hab]; simp

/-- What inline parameters are dropped from has none left. -/
theorem dropInlineParameters_idem (name : Text) :
    dropInlineParameters (dropInlineParameters name) = dropInlineParameters name := by
  cases hcut : cutAt? ['<', '<'] name with
  | none =>
      have hname : dropInlineParameters name = name := by simp [dropInlineParameters, hcut]
      rw [hname, hname]
  | some cut =>
      obtain ⟨before, rest⟩ := cut
      by_cases hclosed : (3 ≤ rest.length && endsWith ['>', '>'] rest) = true
      · have hname : dropInlineParameters name = strip before := by
          simp [dropInlineParameters, hcut, hclosed]
        have hnone := cutAt?_strip (cutAt?_before (by simp) hcut)
        rw [hname]
        simp [dropInlineParameters, hnone]
      · have hname : dropInlineParameters name = name := by
          simp [dropInlineParameters, hcut, hclosed]
        rw [hname, hname]

/-! ## One line -/

theorem quote_mem_iff_of_ofCall? {line : Text} {parts : StepLine}
    (h : StepLine.ofCall? line = some parts) : '"' ∈ line ↔ '"' ∈ strip parts.content :=
  StepLine.mem_iff_of_parse? h (by decide) fun word hword _ hw =>
    letterKey_ne_mark (callKeywords_subset word hword) hw (by simp)

/-- A line with the keyword of a call does not begin a row of a table. -/
theorem head?_ne_of_ofCall? {line : Text} {parts : StepLine}
    (h : StepLine.ofCall? (strip line) = some parts) : (strip line).head? ≠ some '|' := by
  obtain ⟨word, hword, w, hw, c, hc, hkey⟩ := StepLine.exists_head_of_parse? h (by decide)
  rw [stripLeft_strip] at hc
  intro hrow
  rw [hrow] at hc
  obtain rfl := Option.some.inj hc
  exact letterKey_ne_mark (callKeywords_subset word hword)
    (List.mem_of_mem_head? hw) (by simp) hkey

/-- The name that a line calls is that of the call it opens, without inline parameters. -/
theorem calledName?_eq {line : Text} (hfeed : '\n' ∉ line) (number : Nat) :
    calledName? line = ((CallBlock.openedBy? number line).map fun block =>
      dropInlineParameters block.name).filter (!·.isEmpty) := by
  have hopened : (CallBlock.openedBy? number line).map (·.name) =
      ((StepLine.ofCall? (strip line)).map fun parts => strip parts.content).filter (!·.elem '"') := by
    rw [StepLine.ofCall?_strip hfeed]
    unfold CallBlock.openedBy? CallBlock.ofLine?
    cases StepLine.ofCall? line with
    | none => rfl
    | some parts =>
        simp only [Option.map_some, Option.filter_some]
        cases (strip parts.content).isEmpty <;> cases hquote : (strip parts.content).elem '"' <;>
          simp only [hquote, Bool.not_false, Bool.not_true, Bool.and_true, Bool.and_false,
            Bool.false_eq_true, if_true, if_false, Option.filter_some, Option.filter_none,
            Option.map_some, Option.map_none]
  have hnames : ((CallBlock.openedBy? number line).map fun block => dropInlineParameters block.name) =
      ((CallBlock.openedBy? number line).map (·.name)).map dropInlineParameters := by
    rw [Option.map_map]
    rfl
  rw [hnames, hopened]
  unfold calledName?
  cases hparts : StepLine.ofCall? (strip line) with
  | none => simp only [hparts, ite_self, Option.map_none, Option.filter_none]
  | some parts =>
      -- a line with a keyword is no row of a table, and its quotes are those of what is called
      have hrow := head?_ne_of_ofCall? hparts
      have hquote : (strip line).elem '"' = (strip parts.content).elem '"' := by
        rw [Bool.eq_iff_iff, List.elem_iff, List.elem_iff]
        exact quote_mem_iff_of_ofCall? hparts
      simp only [hparts, hrow, hquote, decide_false, Bool.false_or, Option.map_some, Option.filter_some]
      cases (strip parts.content).elem '"' with
      | true => rfl
      | false =>
          simp only [Bool.not_false, Bool.false_eq_true, if_true, if_false, Option.map_some,
            Option.filter_some]
          cases (dropInlineParameters (strip parts.content)).isEmpty <;> rfl

/-! ## Blocks among numbered lines -/

namespace CallBlock

def lineNumbers (block : CallBlock) : List Nat := block.line :: block.parameters.map (·.line)

theorem line_mem_lineNumbers (block : CallBlock) : block.line ∈ block.lineNumbers :=
  List.mem_cons_self

theorem line_mem_lineNumbers_of_mem {block : CallBlock} {parameter : CallParameter} (h : parameter ∈ block.parameters) :
    parameter.line ∈ block.lineNumbers :=
  List.mem_cons_of_mem _ (List.mem_map_of_mem h)

def assignmentLines (blocks : List CallBlock) : List Nat :=
  blocks.flatMap fun block => block.parameters.map (·.line)

def bare (block : CallBlock) : CallBlock := { block with parameters := [] }

theorem line_of_openedBy? {number : Nat} {line : Text} {block : CallBlock}
    (h : openedBy? number line = some block) : block.line = number ∧ block.parameters = [] := by
  obtain ⟨hline, -⟩ := Option.filter_eq_some_iff.1 h
  obtain ⟨parts, -, rfl⟩ := Option.map_eq_some_iff.1 hline
  exact ⟨rfl, rfl⟩

theorem bare_of_openedBy? {number : Nat} {line : Text} {block : CallBlock}
    (h : openedBy? number line = some block) : block.bare = block := by
  obtain ⟨-, hparameters⟩ := line_of_openedBy? h
  unfold bare
  rw [← hparameters]

theorem line_of_assignedBy? {block : CallBlock} {number : Nat} {line : Text} {parameter : CallParameter}
    (h : block.assignedBy? number line = some parameter) : parameter.line = number := by
  unfold assignedBy? at h
  split at h
  · simp at h
  · split at h
    · simp at h
    · split at h
      · simp at h
      · obtain rfl := Option.some.inj h
        rfl

/-- Numbers that blocks are read with come in the order of the lines, if a call brings in no more than its
own and an assignment its own at the end. -/
theorem flatMap_readFrom_sublist (numbersOf : CallBlock → List Nat)
    (hopened : ∀ number line block, openedBy? number line = some block →
      (numbersOf block).Sublist [number])
    (hassigned : ∀ block parameter,
      numbersOf (assign block parameter) = numbersOf block ++ [parameter.line])
    (current : Option CallBlock) (lines : List (Nat × Text)) :
    ((readFrom current lines).flatMap numbersOf).Sublist
      (current.toList.flatMap numbersOf ++ lines.map Prod.fst) := by
  induction lines generalizing current with
  | nil => simp [readFrom]
  | cons entry lines ih =>
      obtain ⟨number, line⟩ := entry
      have hnext : ((readFrom (openedBy? number line) lines).flatMap numbersOf).Sublist
          (number :: lines.map Prod.fst) := by
        refine (ih _).trans ?_
        rw [← List.singleton_append]
        refine List.Sublist.append_right ?_ _
        cases hopen : openedBy? number line with
        | none => exact List.nil_sublist _
        | some block => simpa using hopened number line block hopen
      cases current with
      | none => exact hnext
      | some block =>
          rw [readFrom]
          cases hassign : block.assignedBy? number line with
          | none => simpa using hnext.append_left (numbersOf block)
          | some parameter =>
              have hrest := ih (some (block.assign parameter))
              simpa [hassigned, line_of_assignedBy? hassign] using hrest

/-- Every line is taken up once, in the order of the lines. -/
theorem lineNumbers_readFrom_sublist (current : Option CallBlock) (lines : List (Nat × Text)) :
    ((readFrom current lines).flatMap lineNumbers).Sublist
      (current.toList.flatMap lineNumbers ++ lines.map Prod.fst) := by
  refine flatMap_readFrom_sublist lineNumbers (fun number line block h => ?_) (fun block parameter => ?_)
    current lines
  · obtain ⟨hline, hparameters⟩ := line_of_openedBy? h
    simp [lineNumbers, hline, hparameters]
  · simp [lineNumbers, assign]

theorem assignmentLines_readFrom_sublist (current : Option CallBlock) (lines : List (Nat × Text)) :
    (assignmentLines (readFrom current lines)).Sublist
      (assignmentLines current.toList ++ lines.map Prod.fst) := by
  refine flatMap_readFrom_sublist (fun block => block.parameters.map (·.line))
    (fun number line block h => ?_) (fun block parameter => ?_) current lines
  · simp [(line_of_openedBy? h).2]
  · simp [assign]

/-- Lines that assign to a call stay assignments of it. -/
theorem subset_assignmentLines_readFrom (block : CallBlock) (lines : List (Nat × Text)) :
    block.parameters.map (·.line) ⊆ assignmentLines (readFrom (some block) lines) := by
  induction lines generalizing block with
  | nil => simp [readFrom, assignmentLines]
  | cons entry lines ih =>
      obtain ⟨number, line⟩ := entry
      rw [readFrom]
      cases block.assignedBy? number line with
      | none => exact List.subset_append_left _ _
      | some parameter =>
          refine List.Subset.trans ?_ (ih (block.assign parameter))
          simp [assign]

/-- Blocks are the call-shaped lines that assign to no block. -/
theorem bare_readFrom (current : Option CallBlock) {lines : List (Nat × Text)}
    (h : (assignmentLines current.toList ++ lines.map Prod.fst).Nodup) :
    (readFrom current lines).map bare = current.toList.map bare ++
      (lines.filter fun entry => entry.1 ∉ assignmentLines (readFrom current lines)).filterMap
        fun entry => openedBy? entry.1 entry.2 := by
  induction lines generalizing current with
  | nil => simp [readFrom]
  | cons entry lines ih =>
      obtain ⟨number, line⟩ := entry
      have hnumbers : (number :: lines.map Prod.fst).Nodup := (List.nodup_append.1 h).2.1
      have hnothing : assignmentLines (openedBy? number line).toList = [] := by
        cases hopen : openedBy? number line with
        | none => rfl
        | some block => simp [assignmentLines, (line_of_openedBy? hopen).2]
      -- What the line opens, if it does not assign.
      have hopened : (readFrom (openedBy? number line) lines).map bare =
          (((number, line) :: lines).filter fun entry =>
            entry.1 ∉ assignmentLines (readFrom (openedBy? number line) lines)).filterMap
              fun entry => openedBy? entry.1 entry.2 := by
        have hnew : number ∉ assignmentLines (readFrom (openedBy? number line) lines) := by
          intro hmem
          have hlater := (assignmentLines_readFrom_sublist _ lines).subset hmem
          rw [hnothing, List.nil_append] at hlater
          exact (List.nodup_cons.1 hnumbers).1 hlater
        rw [List.filter_cons_of_pos (by simpa using hnew), List.filterMap_cons,
          ih (openedBy? number line) (by rw [hnothing]; exact (List.nodup_cons.1 hnumbers).2)]
        cases hopen : openedBy? number line with
        | none => rfl
        | some block => simp [bare_of_openedBy? hopen]
      cases current with
      | none => exact hopened
      | some block =>
          rw [readFrom]
          cases hassign : block.assignedBy? number line with
          | none =>
              have hdisjoint : ∀ entry ∈ (number, line) :: lines,
                  entry.1 ∉ block.parameters.map (·.line) := by
                intro entry hentry hmem
                refine (List.nodup_append.1 h).2.2 entry.1 ?_ entry.1 (List.mem_map_of_mem hentry) rfl
                simpa [assignmentLines] using hmem
              have hsame : ((number, line) :: lines).filter (fun entry => entry.1 ∉ assignmentLines
                    (block :: readFrom (openedBy? number line) lines)) =
                  ((number, line) :: lines).filter fun entry =>
                    entry.1 ∉ assignmentLines (readFrom (openedBy? number line) lines) := by
                refine List.filter_congr fun entry hentry => ?_
                rw [decide_eq_decide, assignmentLines, List.flatMap_cons, List.mem_append]
                exact not_congr (or_iff_right (hdisjoint entry hentry))
              rw [List.map_cons, hopened, hsame]
              rfl
          | some parameter =>
              have hline := line_of_assignedBy? hassign
              have hmem : number ∈ assignmentLines (readFrom (some (block.assign parameter)) lines) :=
                subset_assignmentLines_readFrom _ lines (by simp [assign, hline])
              rw [List.filter_cons_of_neg (by simpa using hmem), ih (some (block.assign parameter))]
              · rfl
              · simpa [assignmentLines, assign, hline] using h

theorem bare_readAll {lines : List (Nat × Text)} (h : (lines.map Prod.fst).Nodup) :
    (readAll lines).map bare =
      (lines.filter fun entry => entry.1 ∉ assignmentLines (readAll lines)).filterMap
        fun entry => openedBy? entry.1 entry.2 :=
  bare_readFrom none h

/-! ## Blocks under other numbers -/

def renumber (f : Nat → Nat) (block : CallBlock) : CallBlock :=
  { block with
    line := f block.line
    parameters := block.parameters.map fun parameter => { parameter with line := f parameter.line } }

theorem openedBy?_renumber (f : Nat → Nat) (number : Nat) (line : Text) :
    openedBy? (f number) line = (openedBy? number line).map (renumber f) := by
  unfold openedBy? ofLine?
  cases StepLine.ofCall? line with
  | none => rfl
  | some parts =>
      simp only [Option.map_some, Option.filter_some]
      split <;> rfl

theorem assignedBy?_renumber (f : Nat → Nat) (block : CallBlock) (number : Nat) (line : Text) :
    (block.renumber f).assignedBy? (f number) line =
      (block.assignedBy? number line).map fun parameter =>
        { parameter with line := f parameter.line } := by
  unfold assignedBy?
  split
  · rfl
  · cases AssignmentLine.parse? line with
    | none => rfl
    | some assignment =>
        show (if indentWidth line ≤ block.indent then none else _) = _
        split <;> rfl

/-- Blocks are read alike whatever numbers their lines have. -/
theorem readFrom_renumber (f : Nat → Nat) (current : Option CallBlock) (lines : List (Nat × Text)) :
    readFrom (current.map (renumber f)) (lines.map fun entry => (f entry.1, entry.2)) =
      (readFrom current lines).map (renumber f) := by
  induction lines generalizing current with
  | nil => cases current <;> rfl
  | cons entry lines ih =>
      obtain ⟨number, line⟩ := entry
      have hopened : readFrom (openedBy? (f number) line) (lines.map fun entry => (f entry.1, entry.2)) =
          (readFrom (openedBy? number line) lines).map (renumber f) := by
        rw [openedBy?_renumber]
        exact ih (openedBy? number line)
      cases current with
      | none => exact hopened
      | some block =>
          simp only [Option.map_some, List.map_cons, readFrom, assignedBy?_renumber]
          cases block.assignedBy? number line with
          | none =>
              simp only [Option.map_none, List.map_cons]
              exact congrArg _ hopened
          | some parameter =>
              have hassign : (block.renumber f).assign { parameter with line := f parameter.line } =
                  (block.assign parameter).renumber f := by
                simp [assign, renumber]
              simp only [Option.map_some]
              rw [hassign]
              exact ih (some (block.assign parameter))

theorem readAll_renumber (f : Nat → Nat) (lines : List (Nat × Text)) :
    readAll (lines.map fun entry => (f entry.1, entry.2)) = (readAll lines).map (renumber f) :=
  readFrom_renumber f none lines

end CallBlock

/-! ## A script -/

def unassignedLines (text : Text) : List (Nat × Text) :=
  (scriptLines text).filter fun entry =>
    entry.1 ∉ CallBlock.assignmentLines (CallBlock.ofText text)

def namesIn (lines : List (Nat × Text)) : List Text := lines.filterMap fun entry => calledName? entry.2

/-- The blocks of a script are the calls that its other lines open. -/
theorem bare_ofText (text : Text) :
    (CallBlock.ofText text).map CallBlock.bare =
      (unassignedLines text).filterMap fun entry => CallBlock.openedBy? entry.1 entry.2 :=
  CallBlock.bare_readAll (SectionKey.nodup_linesOf .script text)

theorem calledName?_of_mem {text : Text} {entry : Nat × Text} (h : entry ∈ scriptLines text) :
    calledName? entry.2 = ((CallBlock.openedBy? entry.1 entry.2).map fun block =>
      dropInlineParameters block.name).filter (!·.isEmpty) :=
  calledName?_eq (SectionKey.lineFeed_not_mem_of_mem_linesOf h) entry.1

/-- A name that is called has no inline parameters. -/
theorem dropInlineParameters_of_mem_calledNames {text name : Text} (h : name ∈ calledNames text) :
    dropInlineParameters name = name := by
  obtain ⟨entry, hentry, hname⟩ := List.mem_filterMap.1 (mem_distinct.1 h)
  change calledName? entry.2 = some name at hname
  rw [calledName?_of_mem hentry] at hname
  obtain ⟨block, -, rfl⟩ := Option.map_eq_some_iff.1 (Option.filter_eq_some_iff.1 hname).1
  exact dropInlineParameters_idem block.name

/-- If no block's name has inline parameters, the other lines call the names of the blocks. -/
theorem names_ofText {text : Text}
    (h : ∀ block ∈ CallBlock.ofText text, dropInlineParameters block.name = block.name) :
    (CallBlock.ofText text).map (·.name) = namesIn (unassignedLines text) := by
  have hbare := bare_ofText text
  have hnames : (CallBlock.ofText text).map (·.name) =
      ((CallBlock.ofText text).map CallBlock.bare).map (·.name) := by
    rw [List.map_map]
    rfl
  rw [hnames, hbare, List.map_filterMap]
  refine List.filterMap_congr fun entry hentry => ?_
  rw [calledName?_of_mem (List.mem_filter.1 hentry).1]
  -- the line opens one of the blocks, whose name has nothing to drop
  cases hopen : CallBlock.openedBy? entry.1 entry.2 with
  | none => rfl
  | some opened =>
      have hmem : opened ∈ (CallBlock.ofText text).map CallBlock.bare := by
        rw [hbare]
        exact List.mem_filterMap.2 ⟨entry, hentry, hopen⟩
      obtain ⟨block, hblock, heq⟩ := List.mem_map.1 hmem
      have hplain : dropInlineParameters opened.name = opened.name := by
        rw [← heq]
        exact h block hblock
      have hne : opened.name.isEmpty = false := by
        have hkept := (Option.filter_eq_some_iff.1 hopen).2
        simp only [Bool.and_eq_true, Bool.not_eq_true'] at hkept
        exact hkept.1
      rw [Option.map_some, Option.map_some, Option.filter_some, hplain, hne]
      rfl

/-- The names that a script calls are those of its blocks exactly if no block's name has inline parameters
and every name that an assignment calls is called above it, or next below it among the names that are
not. -/
theorem calledNames_eq_iff (text : Text) :
    calledNames text = distinct ((CallBlock.ofText text).map (·.name)) ↔
      (∀ block ∈ CallBlock.ofText text, dropInlineParameters block.name = block.name) ∧
        ∀ above entry below, scriptLines text = above ++ entry :: below →
          entry.1 ∈ CallBlock.assignmentLines (CallBlock.ofText text) →
            ∀ name ∈ calledName? entry.2, IsAnticipated (namesIn above)
              (namesIn (below.filter fun later =>
                later.1 ∉ CallBlock.assignmentLines (CallBlock.ofText text))) name := by
  by_cases hplain : ∀ block ∈ CallBlock.ofText text, dropInlineParameters block.name = block.name
  · rw [and_iff_right hplain, names_ofText hplain]
    have hleft := distinctFrom_filter_eq_iff (fun entry : Nat × Text => calledName? entry.2)
      (fun entry => entry.1 ∉ CallBlock.assignmentLines (CallBlock.ofText text)) [] (scriptLines text)
    simp only [List.nil_append, decide_eq_false_iff_not, not_not] at hleft
    exact hleft
  · refine iff_of_false (fun heq => hplain fun block hblock => ?_) fun h => hplain h.1
    -- a block's name would be called, and what is called has none
    refine @dropInlineParameters_of_mem_calledNames text _ ?_
    rw [heq]
    exact mem_distinct.2 (List.mem_map_of_mem hblock)

def inlineCall : Text := "ТекстСценария: |\n    И A <<x>>\n".toList

def keywordAssignment : Text := "ТекстСценария: |\n    И A\n        И = 5\n".toList

/-- Each of the two differences shows. -/
theorem calledNames_ne :
    calledNames inlineCall ≠ distinct ((CallBlock.ofText inlineCall).map (·.name)) ∧
      calledNames keywordAssignment ≠
        distinct ((CallBlock.ofText keywordAssignment).map (·.name)) := by
  decide +kernel

end Scenarist
