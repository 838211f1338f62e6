import Scenarist.Proofs.Alignment
import Scenarist.Proofs.Body.Reading
import Scenarist.Proofs.StepLine

set_option autoImplicit false

/-! # Calls in aligned lines

Assignments are laid out by one grouping of the lines and read by another. A line goes on a run if it has
more blanks in front than the call above it, and it is read as a parameter of that call if it is indented
deeper, which counts a tab as several spaces and ends at other blanks; and a call without a name opens a run
but no block. So a run need not be a block, and lines may change that are parameters of no call. What a line
is read as does not depend on the blanks around its equals sign, however, whatever call it stands below. Only
an assignment to a name that is itself the keyword of a call can be taken for a call, and then the blanks
count.

Main statements: `exists_block_of_isRunOf` (a run that is read as parameters of its call) and
`readAll_alignAssignments` (what is read stays, and which lines change). -/

namespace Scenarist

open Text

/-! ## Indentation -/

/-- A line is indented by blanks in front of it only. -/
theorem Text.indentWidth_leadingBlanks (line : Text) :
    indentWidth (leadingBlanks line) = indentWidth line := by
  induction line with
  | nil => rfl
  | cons c cs ih =>
      unfold leadingBlanks at ih ⊢
      rw [List.takeWhile_cons]
      cases hc : isBlank c with
      | true => simp only [if_true, indentWidth, ih]
      | false =>
          have hnone : indentOf? c = none := by
            unfold indentOf?
            split
            · next hspace =>
              rw [hspace] at hc
              exact absurd hc (by decide)
            · split
              · next htab =>
                rw [htab] at hc
                exact absurd hc (by decide)
              · rfl
          simp [indentWidth, hnone]

/-! ## Names that are keywords -/

/-- Whether a text is the keyword of a call, in any case. -/
def IsCallWord (name : Text) : Prop := ∃ word ∈ callKeywords, afterLetters? word name = some []

instance (name : Text) : Decidable (IsCallWord name) :=
  inferInstanceAs (Decidable (∃ word ∈ callKeywords, afterLetters? word name = some []))

theorem letterKey_ne_sign {word : Text} (hword : word ∈ callKeywords) {w : Char} (hw : w ∈ word) :
    letterKey w ≠ letterKey '=' := by
  have hall : (callKeywords.all fun word => word.all fun w => letterKey w != letterKey '=') = true := by
    decide +kernel
  simpa using List.all_eq_true.1 (List.all_eq_true.1 hall word hword) w hw

theorem afterLetters?_of_forall₂ {word written : Text}
    (h : List.Forall₂ (fun w c => sameLetter w c = true) word written) (rest : Text) :
    afterLetters? word (written ++ rest) = some rest := by
  induction h with
  | nil => rfl
  | cons hletter _ ih => rw [List.cons_append, afterLetters?, if_pos hletter, ih]

/-- A keyword is written with letters that are no blanks and no equals signs. -/
theorem solid_of_forall₂ {word written : Text} (hword : word ∈ callKeywords)
    (h : List.Forall₂ (fun w c => sameLetter w c = true) word written) :
    ∀ c ∈ written, isBlank c = false ∧ c ≠ '=' := by
  intro c hc
  obtain ⟨w, hw, hletter⟩ := exists_mem_of_forall₂ h hc
  refine ⟨isBlank_eq_false_of_sameLetter (isSolid_of_mem_callKeywords hword w hw) hletter, ?_⟩
  rintro rfl
  exact letterKey_ne_sign hword hw (sameLetter_iff.1 hletter)

/-- An assignment is no call, unless its name is a keyword. -/
theorem ofCall?_of_parse? {line : Text} {assignment : AssignmentLine}
    (h : AssignmentLine.parse? line = some assignment) (hname : ¬ IsCallWord assignment.name) :
    StepLine.ofCall? line = none := by
  by_contra hcall
  obtain ⟨parts, hparts⟩ := Option.ne_none_iff_exists'.1 hcall
  simp only [StepLine.ofCall?, StepLine.parse?, Option.bind_eq_bind, Option.bind_eq_some_iff,
    Option.pure_def, Option.some.injEq, Prod.exists] at hparts
  obtain ⟨keyword, rest, hcut, gap, content, tail, hwording, -⟩ := hparts
  obtain ⟨word, hword, -, hletters⟩ := StepLine.exists_of_cutWord? hcut
  obtain ⟨g, gs, hgap⟩ := List.exists_cons_of_ne_nil (StepLine.gap_ne_nil_of_wording? hwording)
  have hblank : isBlank g = true := StepLine.isBlank_of_wording? hwording (Or.inl (by simp [hgap]))
  have hkeyword : IsCallWord keyword := by
    refine ⟨word, hword, ?_⟩
    have hall := afterLetters?_of_forall₂ hletters []
    rwa [List.append_nil] at hall
  have hread := (AssignmentLine.parse?_eq_some h).1
  obtain ⟨before, after, tail', hbody, hbefore, -, -⟩ := AssignmentLine.exists_gaps_of_parse? h
  -- The keyword ends at a blank and the name at a blank or the equals sign, so they are the same.
  have hsame : keyword ++ g :: (gs ++ (content ++ tail)) =
      assignment.name ++ (before ++ '=' :: (after ++ (assignment.value ++ tail'))) := by
    rw [← hbody, ← StepLine.append_of_cutWord? hcut, ← StepLine.append_of_wording? hwording, hgap]
    simp
  rcases List.append_eq_append_iff.1 hsame with ⟨more, hmore, hbehind⟩ | ⟨more, hmore, hbehind⟩
  · cases more with
    | nil => exact hname (by rwa [hmore, List.append_nil])
    | cons c cs =>
        obtain ⟨rfl, -⟩ := List.cons.inj hbehind
        have hletter := hread.name g (by simp [hmore])
        rw [Scalar.isBlank_of_isNameLetter hletter] at hblank
        exact Bool.noConfusion hblank
  · cases more with
    | nil => exact hname (by rwa [hmore, List.append_nil] at hkeyword)
    | cons c cs =>
        obtain ⟨hsolid, hsign⟩ := solid_of_forall₂ hword hletters c (by simp [hmore])
        cases before with
        | nil => exact hsign (List.cons.inj hbehind).1.symm
        | cons b bs =>
            rw [← (List.cons.inj hbehind).1, hbefore b List.mem_cons_self] at hsolid
            exact Bool.noConfusion hsolid

/-! ## Lines that are read alike -/

namespace CallBlock

/-- Lines that open the same call and assign the same parameter to every open call, with any number. -/
structure SameReading (old new : Text) : Prop where
  openedBy : ∀ number, openedBy? number new = openedBy? number old
  assignedBy : ∀ (block : CallBlock) number, block.assignedBy? number new = block.assignedBy? number old

theorem SameReading.refl (line : Text) : SameReading line line := ⟨fun _ => rfl, fun _ _ => rfl⟩

/-- Lines that are read alike give the same calls. -/
theorem readFrom_congr {old new : List Text} (h : List.Forall₂ SameReading old new) (numbers : List Nat)
    (current : Option CallBlock) :
    readFrom current (numbers.zip new) = readFrom current (numbers.zip old) := by
  induction h generalizing numbers current with
  | nil => rfl
  | @cons line line' rest rest' hline _ ih =>
      cases numbers with
      | nil => rfl
      | cons number numbers =>
          rw [List.zip_cons_cons, List.zip_cons_cons]
          cases current with
          | none => rw [readFrom, readFrom, hline.openedBy, ih]
          | some block =>
              rw [readFrom, readFrom, hline.assignedBy]
              cases block.assignedBy? number line with
              | some parameter => exact ih numbers _
              | none =>
                  simp only [hline.openedBy]
                  rw [ih]

/-- An assignment line and its layout are read alike, unless the name is a keyword. -/
theorem sameReading_render {line : Text} {assignment : AssignmentLine}
    (h : AssignmentLine.parse? line = some assignment) (hname : ¬ IsCallWord assignment.name)
    (width : Nat) : SameReading line (assignment.render width) := by
  obtain ⟨hread, hindent, gap, tail, hbody, -⟩ := AssignmentLine.parse?_eq_some h
  have hrender := AssignmentLine.parse?_render hread width
  have hwidth : indentWidth (assignment.render width) = indentWidth line := by
    rw [← indentWidth_leadingBlanks line, ← hindent, ← indentWidth_leadingBlanks,
      (AssignmentLine.leadingBlanks_render hread width).1]
  constructor
  · intro number
    unfold openedBy? ofLine?
    rw [ofCall?_of_parse? h hname, ofCall?_of_parse? hrender hname]
    rfl
  · intro block number
    unfold assignedBy?
    rw [AssignmentRun.isSilent_render hread, AssignmentRun.isSilent_of_isRead hread ⟨_, hbody⟩, h, hrender,
      hwidth]

end CallBlock

/-! ## Lines that change -/

namespace AssignmentRun

/-- Lines that differ in the blanks around an equals sign. -/
def Respaced (old new : Text) : Prop :=
  ∃ front before after before' after' value,
    old = front ++ (before ++ '=' :: (after ++ value)) ∧
      new = front ++ (before' ++ '=' :: (after' ++ value)) ∧
      ∀ c, c ∈ before ∨ c ∈ after ∨ c ∈ before' ∨ c ∈ after' → isBlank c = true

theorem respaced_render {line : Text} {assignment : AssignmentLine}
    (h : AssignmentLine.parse? line = some assignment) (hfeed : '\n' ∉ line) (width : Nat) :
    Respaced line (assignment.render width) := by
  obtain ⟨before, after, tail, hbody, hbefore, hafter, htail⟩ := AssignmentLine.exists_gaps_of_parse? h
  have hindent := (AssignmentLine.parse?_eq_some h).2.1
  have hline : line = assignment.indent ++ stripLeft line := by
    rw [hindent, leadingBlanks_append_stripLeft]
  have htail : tail = [] := by
    rcases htail with rfl | rfl
    · rfl
    · refine absurd ?_ hfeed
      rw [hline, hbody]
      simp
  refine ⟨assignment.indent ++ assignment.name, before, after,
    List.replicate (width - assignment.name.length) ' ' ++ [' '], [' '], assignment.value, ?_, ?_, ?_⟩
  · rw [List.append_assoc, ← List.append_nil assignment.value, ← htail, ← hbody, ← hline]
  · rw [AssignmentLine.render_eq, AssignmentLine.wording]
    simp
  · intro c hc
    rcases hc with hc | hc | hc | hc
    · exact hbefore c hc
    · exact hafter c hc
    · rcases List.mem_append.1 hc with hc | hc
      · rw [List.eq_of_mem_replicate hc]
        decide
      · exact isBlank_of_mem_space c hc
    · exact isBlank_of_mem_space c hc

/-- Several assignments directly below a call: its wording has no double quote, and each of them has more
blanks in front than the call. -/
structure IsRunBelow (call : Text) (run : List Text) : Prop where
  several : 2 ≤ run.length
  assigns : ∃ parts, StepLine.ofCall? call = some parts ∧ '"' ∉ parts.content ∧
    ∀ line ∈ run, ∃ assignment, AssignmentLine.parse? line = some assignment ∧
      parts.indent.length < assignment.indent.length

theorem isRunBelow_of_areMembers {call : Text} {front : List Text} {run : List AssignmentLine}
    (h : AreMembers (opening? call) front run) (hseveral : 2 ≤ run.length) : IsRunBelow call front := by
  have hfront : 2 ≤ front.length := by rw [h.length_eq]; exact hseveral
  refine ⟨hfront, ?_⟩
  have hmembers : ∀ line ∈ front, ∃ assignment, goesOn? (opening? call) line = some assignment := by
    intro line hmem
    obtain ⟨assignment, -, hline⟩ := exists_mem_of_forall₂ h.flip hmem
    exact ⟨assignment, hline⟩
  obtain ⟨first, hfirst⟩ := List.exists_mem_of_length_pos (by omega : 0 < front.length)
  obtain ⟨_, hopen⟩ := hmembers first hfirst
  obtain ⟨indent, hopening, -⟩ := Option.bind_eq_some_iff.1 hopen
  obtain ⟨parts, hparts, rfl⟩ := Option.map_eq_some_iff.1 hopening
  obtain ⟨hcall, hquote⟩ := Option.filter_eq_some_iff.1 hparts
  refine ⟨parts, hcall, by simpa using hquote, fun line hline => ?_⟩
  obtain ⟨assignment, hmember⟩ := hmembers line hline
  rw [hopening] at hmember
  obtain ⟨hparse, hindent⟩ := member?_eq_some hmember
  exact ⟨assignment, hparse, hindent⟩

/-- The first line stays, and alignment goes on behind it. -/
theorem alignAssignments_eq (lines : List Text) : alignAssignments lines = alignRest lines := by
  cases lines with
  | nil => rfl
  | cons line lines => rfl

/-- A line that changes belongs to several assignments below a call. -/
theorem exists_run_of_changed {lines : List Text} {i : Nat} {old new : Text}
    (hold : lines[i]? = some old) (hnew : (alignAssignments lines)[i]? = some new) (hne : new ≠ old) :
    ∃ front call run rest, lines = front ++ call :: (run ++ rest) ∧ IsRunBelow call run ∧
      front.length < i ∧ i ≤ front.length + run.length := by
  rw [alignAssignments_eq] at hnew
  induction hn : lines.length using Nat.strong_induction_on generalizing lines i with
  | _ n ih =>
    cases lines with
    | nil => simp at hold
    | cons call lines =>
        obtain ⟨run, entries, rest, rfl, hrun, hrest⟩ := exists_run (opening? call) lines
        rw [alignRest, alignFrom_run hrun hrest] at hnew
        -- a run has as many lines as before, so the place tells whether the line is one of the run
        have hlength : (layOut run entries).length = run.length := by
          unfold layOut
          split
          · rfl
          · rw [List.length_map, hrun.length_eq]
        cases i with
        | zero =>
            simp only [List.getElem?_cons_zero, Option.some.injEq] at hold hnew
            exact absurd (hnew.symm.trans hold) hne
        | succ i =>
            rw [List.getElem?_cons_succ] at hold hnew
            by_cases hi : i < run.length
            · rw [List.getElem?_append_left hi] at hold
              rw [List.getElem?_append_left (by omega)] at hnew
              -- a single assignment is left as it is
              have hseveral : 2 ≤ entries.length := by
                by_contra hfew
                rw [layOut, if_pos (by omega), hold] at hnew
                exact hne (Option.some.inj hnew).symm
              refine ⟨[], call, run, rest, rfl, isRunBelow_of_areMembers hrun hseveral, ?_, ?_⟩
              · simp
              · simp only [List.length_nil]
                omega
            · rw [List.getElem?_append_right (by omega)] at hold
              rw [List.getElem?_append_right (by omega), hlength] at hnew
              have hshorter : rest.length < n := by
                rw [← hn, List.length_cons, List.length_append]
                omega
              obtain ⟨front, call', run', rest', rfl, hbelow, hlow, hhigh⟩ :=
                ih rest.length hshorter hold hnew rfl
              refine ⟨call :: (run ++ front), call', run', rest', by simp, hbelow, ?_, ?_⟩
              · simp only [List.length_cons, List.length_append]
                omega
              · simp only [List.length_cons, List.length_append]
                omega

end AssignmentRun

/-! ## Runs that are calls -/

namespace CallBlock

/-- The lines in front of a line that assigns to no call are read by themselves. -/
theorem exists_readFrom_append_cons {line : Text}
    (h : ∀ (block : CallBlock) number, block.assignedBy? number line = none) (current : Option CallBlock)
    (front : List (Nat × Text)) (number : Nat) (tail : List (Nat × Text)) :
    ∃ earlier, readFrom current (front ++ (number, line) :: tail) =
      earlier ++ readFrom (openedBy? number line) tail := by
  obtain ⟨earlier, before, htail, -, -⟩ := exists_readFrom_append current front
  refine ⟨earlier ++ before.toList, ?_⟩
  rw [htail, readFrom_cons_of_ends fun outer _ => h outer number, List.append_assoc]

/-- Lines that assign to an open call are its next parameters. -/
theorem exists_readFrom_run {block : CallBlock} {run : List (Nat × Text)}
    (h : ∀ entry ∈ run, (block.assignedBy? entry.1 entry.2).isSome = true) (tail : List (Nat × Text)) :
    ∃ parameters, parameters.map CallParameter.line = run.map Prod.fst ∧
      readFrom (some block) (run ++ tail) =
        readFrom (some { block with parameters := block.parameters ++ parameters }) tail := by
  induction run generalizing block with
  | nil => exact ⟨[], rfl, by rw [List.append_nil, List.nil_append]⟩
  | cons entry run ih =>
      obtain ⟨parameter, hparameter⟩ := Option.isSome_iff_exists.1 (h entry List.mem_cons_self)
      obtain ⟨parameters, hlines, hread⟩ := @ih (block.assign parameter)
        fun other hother => h other (List.mem_cons_of_mem _ hother)
      refine ⟨parameter :: parameters, ?_, ?_⟩
      · rw [List.map_cons, List.map_cons, hlines, line_of_assignedBy? hparameter]
      · rw [List.cons_append, readFrom, hparameter]
        simpa [assign] using hread

/-- A call is no assignment, unless its first word is a keyword that is assigned to. -/
theorem assignedBy?_eq_none_of_ofCall? {line : Text} {parts : StepLine}
    (h : StepLine.ofCall? line = some parts)
    (hname : ∀ assignment ∈ AssignmentLine.parse? line, ¬ IsCallWord assignment.name) (block : CallBlock)
    (number : Nat) : block.assignedBy? number line = none := by
  have hparse : AssignmentLine.parse? line = none := by
    refine Option.eq_none_iff_forall_not_mem.2 fun assignment hassignment => ?_
    rw [ofCall?_of_parse? hassignment (hname assignment hassignment)] at h
    exact absurd h (by simp)
  unfold assignedBy?
  rw [hparse]
  split <;> rfl

/-- A call opens a block if it has a name without a double quote. -/
theorem exists_openedBy? {line : Text} {parts : StepLine} (h : StepLine.ofCall? line = some parts)
    (hcontent : strip parts.content ≠ []) (hquote : '"' ∉ parts.content) (number : Nat) :
    ∃ block, openedBy? number line = some block ∧ block.indent = indentWidth line := by
  have hfree : '"' ∉ strip parts.content := fun hmem => hquote (mem_of_mem_strip hmem)
  unfold openedBy? ofLine?
  rw [h, Option.map_some, Option.filter_some, if_pos (by simp [hcontent, hfree])]
  exact ⟨_, rfl, rfl⟩

/-- An assignment that is indented deeper than an open call assigns to it. -/
theorem isSome_assignedBy? {block : CallBlock} {line : Text} {assignment : AssignmentLine}
    (h : AssignmentLine.parse? line = some assignment) (hdeeper : block.indent < indentWidth line)
    (number : Nat) : (block.assignedBy? number line).isSome = true := by
  obtain ⟨hread, -, gap, tail, hbody, -⟩ := AssignmentLine.parse?_eq_some h
  unfold assignedBy?
  rw [AssignmentRun.isSilent_of_isRead hread ⟨_, hbody⟩, h]
  simp [Nat.not_le.2 hdeeper]

end CallBlock

theorem StepLine.indent_of_ofCall? {line : Text} {parts : StepLine} (h : ofCall? line = some parts) :
    parts.indent = leadingBlanks line := by
  simp only [ofCall?, parse?, Option.bind_eq_bind, Option.bind_eq_some_iff, Option.pure_def,
    Option.some.injEq] at h
  obtain ⟨_, -, _, -, rfl⟩ := h
  rfl

/-- Assignments below a call that are read as its parameters: the call has a name, and each of them is indented
deeper. -/
structure AssignmentRun.IsRunOf (call : Text) (run : List Text) : Prop where
  named : ∀ parts ∈ StepLine.ofCall? call, strip parts.content ≠ []
  deeper : ∀ line ∈ run, indentWidth call < indentWidth line

/-- A place behind the first part of a list and its next member is one of the second part. -/
theorem mem_of_getElem?_append_cons {α : Type} {front run rest : List α} {middle entry : α} {i : Nat}
    (h : (front ++ middle :: (run ++ rest))[i]? = some entry) (hlow : front.length < i)
    (hhigh : i ≤ front.length + run.length) : entry ∈ run := by
  obtain ⟨place, rfl⟩ : ∃ place, i = front.length + (place + 1) := ⟨i - front.length - 1, by omega⟩
  rw [List.getElem?_append_right (Nat.le_add_right _ _), Nat.add_sub_cancel_left,
    List.getElem?_cons_succ, List.getElem?_append_left (by omega)] at h
  exact List.mem_of_getElem? h

/-- A run below a call is read as parameters of that call. -/
theorem exists_block_of_isRunOf {call : Nat × Text} {run : List (Nat × Text)}
    (hbelow : AssignmentRun.IsRunBelow call.2 (run.map Prod.snd))
    (hrun : AssignmentRun.IsRunOf call.2 (run.map Prod.snd))
    (hname : ∀ assignment ∈ AssignmentLine.parse? call.2, ¬ IsCallWord assignment.name)
    (front rest : List (Nat × Text)) :
    ∃ block ∈ CallBlock.readAll (front ++ call :: (run ++ rest)),
      ∃ more, block.parameters.map (·.line) = run.map Prod.fst ++ more := by
  obtain ⟨-, parts, hparts, hquote, hassigns⟩ := hbelow
  obtain ⟨block, hopen, hindent⟩ := CallBlock.exists_openedBy? hparts (hrun.named parts hparts) hquote call.1
  have hassigned : ∀ entry ∈ run, (block.assignedBy? entry.1 entry.2).isSome = true := by
    intro entry hentry
    have hline := List.mem_map_of_mem (f := Prod.snd) hentry
    obtain ⟨assignment, hparse, -⟩ := hassigns entry.2 hline
    exact CallBlock.isSome_assignedBy? hparse (hindent ▸ hrun.deeper entry.2 hline) entry.1
  -- what stands in front of the call is read by itself, and the call goes on below the run
  obtain ⟨earlier, hearlier⟩ := CallBlock.exists_readFrom_append_cons
    (CallBlock.assignedBy?_eq_none_of_ofCall? hparts hname) none front call.1 (run ++ rest)
  obtain ⟨parameters, hlines, hread⟩ := CallBlock.exists_readFrom_run hassigned rest
  obtain ⟨further, later, hlater⟩ := CallBlock.exists_readFrom_some
    { block with parameters := block.parameters ++ parameters } rest
  refine ⟨{ block with parameters := block.parameters ++ parameters ++ further }, ?_,
    further.map (·.line), ?_⟩
  · unfold CallBlock.readAll
    rw [hearlier, hopen, hread, hlater _ rfl]
    simp
  · rw [(CallBlock.line_of_openedBy? hopen).2, List.nil_append, List.map_append, hlines]

/-- A line of such a run is a parameter of a call with several. -/
theorem exists_block_of_mem_isRunOf {numbered : List (Nat × Text)} {front run rest : List Text} {call : Text}
    (hlines : numbered.map Prod.snd = front ++ call :: (run ++ rest))
    (hbelow : AssignmentRun.IsRunBelow call run) (hrun : AssignmentRun.IsRunOf call run)
    (hname : ∀ assignment ∈ AssignmentLine.parse? call, ¬ IsCallWord assignment.name)
    {i : Nat} {entry : Nat × Text} (hentry : numbered[i]? = some entry) (hlow : front.length < i)
    (hhigh : i ≤ front.length + run.length) :
    ∃ block ∈ CallBlock.readAll numbered, 2 ≤ block.parameters.length ∧
      entry.1 ∈ block.parameters.map (·.line) := by
  -- the cut of the lines is one of the numbered lines
  obtain ⟨front, behind, rfl, rfl, hcut⟩ := List.map_eq_append_iff.1 hlines
  obtain ⟨call, behind, rfl, rfl, hbehind⟩ := List.map_eq_cons_iff.1 hcut
  obtain ⟨run, rest, rfl, rfl, rfl⟩ := List.map_eq_append_iff.1 hbehind
  obtain ⟨block, hblock, more, hparameters⟩ := exists_block_of_isRunOf hbelow hrun hname front rest
  refine ⟨block, hblock, ?_, ?_⟩
  · have hcount := congrArg List.length hparameters
    have hseveral := hbelow.several
    rw [List.length_map, List.length_append, List.length_map] at hcount
    rw [List.length_map] at hseveral
    omega
  · rw [List.length_map] at hlow hhigh
    rw [List.length_map] at hhigh
    rw [hparameters]
    exact List.mem_append_left _ (List.mem_map_of_mem (mem_of_getElem?_append_cons hentry hlow hhigh))

/-- Aligning assignments keeps the calls that are read of the lines, whatever numbers the lines have. The
number of lines stays. Only the lines of a run of several assignments below a call change, and they change
in the blanks around the equals sign. If the call has a name and the run is indented deeper, they are read as
parameters of a call with several. Aligned lines stay as they are. -/
theorem readAll_alignAssignments {lines : List Text} (hfeed : ∀ line ∈ lines, '\n' ∉ line)
    (hname : ∀ line ∈ lines, ∀ assignment ∈ AssignmentLine.parse? line, ¬ IsCallWord assignment.name) :
    (∀ numbers : List Nat,
      CallBlock.readAll (numbers.zip (alignAssignments lines)) = CallBlock.readAll (numbers.zip lines)) ∧
      (alignAssignments lines).length = lines.length ∧
      (∀ (i : Nat) (old new : Text), lines[i]? = some old → (alignAssignments lines)[i]? = some new →
        new ≠ old → AssignmentRun.Respaced old new ∧
          ∃ front call run rest, lines = front ++ call :: (run ++ rest) ∧
            AssignmentRun.IsRunBelow call run ∧ front.length < i ∧ i ≤ front.length + run.length ∧
            (AssignmentRun.IsRunOf call run → ∀ (numbers : List Nat) (number : Nat),
              numbers.length = lines.length → numbers[i]? = some number →
                ∃ block ∈ CallBlock.readAll (numbers.zip lines), 2 ≤ block.parameters.length ∧
                  number ∈ block.parameters.map (·.line))) ∧
      alignAssignments (alignAssignments lines) = alignAssignments lines := by
  have hreading : List.Forall₂ (fun old new => (∀ assignment ∈ AssignmentLine.parse? old,
      ¬ IsCallWord assignment.name) → CallBlock.SameReading old new) lines (alignAssignments lines) :=
    AssignmentRun.forall₂_alignFrom (fun line _ => .refl line)
      (fun _ assignment width h hword => CallBlock.sameReading_render h (hword assignment h) width) none lines
  have hrespaced : List.Forall₂ (fun old new => '\n' ∉ old → new = old ∨ AssignmentRun.Respaced old new)
      lines (alignAssignments lines) :=
    AssignmentRun.forall₂_alignFrom (fun _ _ => Or.inl rfl)
      (fun _ _ width h hline => Or.inr (AssignmentRun.respaced_render h hline width)) none lines
  have hlength := hreading.length_eq.symm
  refine ⟨fun numbers => ?_, hlength, ?_, alignAssignments_alignAssignments lines⟩
  · have hsame := ((List.forall₂_and_left lines _).2 ⟨hname, hreading⟩).imp fun _ _ h => h.2 h.1
    exact CallBlock.readFrom_congr hsame numbers none
  · intro i old new hold hnew hne
    obtain ⟨front, call, run, rest, hlines, hbelow, hlow, hhigh⟩ :=
      AssignmentRun.exists_run_of_changed hold hnew hne
    obtain ⟨hi, rfl⟩ := List.getElem?_eq_some_iff.1 hold
    obtain ⟨hi', rfl⟩ := List.getElem?_eq_some_iff.1 hnew
    have hline := (List.forall₂_iff_get.1 hrespaced).2 i hi hi' (hfeed _ (List.getElem_mem hi))
    refine ⟨hline.resolve_left hne, front, call, run, rest, hlines, hbelow, hlow, hhigh, ?_⟩
    intro hrun numbers number hnumbers hnumber
    have hcall : call ∈ lines := hlines ▸ List.mem_append_right _ List.mem_cons_self
    have hzip : (numbers.zip lines).map Prod.snd = front ++ call :: (run ++ rest) := by
      rw [List.map_snd_zip hnumbers.ge, hlines]
    have hentry : (numbers.zip lines)[i]? = some (number, lines[i]) :=
      List.getElem?_zip_eq_some.2 ⟨hnumber, hold⟩
    exact exists_block_of_mem_isRunOf hzip hbelow hrun (hname call hcall) hentry hlow hhigh

def namedRun : List Text := ["\tИ A".toList, "\t  x = 1".toList, "\t  long=2".toList]

/-- Two assignments that are a run below the call and parameters of it. -/
theorem readAll_alignAssignments_namedRun :
    (∀ line ∈ namedRun, '\n' ∉ line) ∧
      (∀ line ∈ namedRun, ∀ assignment ∈ AssignmentLine.parse? line, ¬ IsCallWord assignment.name) ∧
      CallBlock.readAll ([3, 4, 5].zip (alignAssignments namedRun)) = CallBlock.readAll ([3, 4, 5].zip namedRun) ∧
      AssignmentRun.Respaced "\t  long=2".toList "\t  long = 2".toList ∧
      (∃ block ∈ CallBlock.readAll ([3, 4, 5].zip namedRun), 2 ≤ block.parameters.length ∧
        5 ∈ block.parameters.map (·.line)) ∧
      alignAssignments (alignAssignments namedRun) = alignAssignments namedRun := by
  have hfeed : ∀ line ∈ namedRun, '\n' ∉ line := by decide
  have hname : ∀ line ∈ namedRun, ∀ assignment ∈ AssignmentLine.parse? line, ¬ IsCallWord assignment.name := by
    decide
  obtain ⟨hread, -, hchanged, hagain⟩ := readAll_alignAssignments hfeed hname
  obtain ⟨hrespaced, front, call, run, rest, hlines, hbelow, hlow, -, hparameter⟩ :=
    hchanged 2 "\t  long=2".toList "\t  long = 2".toList rfl (by decide) (by decide)
  -- the line with the shorter name is no call, so the run begins with it
  have hrun : AssignmentRun.IsRunOf call run := by
    obtain ⟨-, parts, hparts, -⟩ := hbelow
    rcases front with _ | ⟨first, _ | ⟨_, _⟩⟩
    · obtain ⟨rfl, htail⟩ := List.cons.inj hlines
      have hdeeper : ∀ line ∈ ["\t  x = 1".toList, "\t  long=2".toList],
          indentWidth "\tИ A".toList < indentWidth line := by decide
      rw [htail] at hdeeper
      exact ⟨by decide, fun line hline => hdeeper line (List.mem_append_left rest hline)⟩
    · obtain ⟨-, htail⟩ := List.cons.inj hlines
      obtain ⟨rfl, -⟩ := List.cons.inj htail
      have hnone : StepLine.ofCall? "\t  x = 1".toList = none := by decide
      exact absurd (hparts.symm.trans hnone) (by simp)
    · simp only [List.length_cons] at hlow
      omega
  exact ⟨hfeed, hname, hread [3, 4, 5], hrespaced, hparameter hrun [3, 4, 5] 5 rfl rfl, hagain⟩

/-- Whether the lines that change when assignments are aligned are parameters of calls with several. -/
def ChangesParametersAlone (lines : List Text) : Prop :=
  ∀ i < lines.length, (alignAssignments lines)[i]? ≠ lines[i]? →
    ∃ block ∈ CallBlock.readAll ((List.range lines.length).zip lines), 2 ≤ block.parameters.length ∧
      i ∈ block.parameters.map (·.line)

instance (lines : List Text) : Decidable (ChangesParametersAlone lines) :=
  inferInstanceAs (Decidable (∀ i < lines.length, _))

/-- Lines below a call with a tab in front, which stands for more spaces than theirs. -/
def runBelowTab : List Text := ["\tИ A".toList, "  x = 1".toList, "  long=2".toList]

/-- Lines below the keyword of a call that names nothing. -/
def runBelowNothing : List Text := ["И  ".toList, "  x=1".toList, "  long=2".toList]

/-- Lines may change that are parameters of no call: below a call that they are not indented deeper than, and
below one without a name. -/
theorem alignAssignments_beyondCalls :
    (¬ ChangesParametersAlone runBelowTab ∧ ¬ ChangesParametersAlone runBelowNothing) ∧
      ∀ lines ∈ [runBelowTab, runBelowNothing], (∀ line ∈ lines, '\n' ∉ line) ∧
        ∀ line ∈ lines, ∀ assignment ∈ AssignmentLine.parse? line, ¬ IsCallWord assignment.name := by
  decide

/-! The name of an assignment must not be a keyword: below the same call such a line is read as a call, whose
name begins behind the blanks. -/

example : CallBlock.readAll ([3, 4, 5].zip (alignAssignments
      ["\tИ A".toList, "  И = 1".toList, "  long=2".toList])) ≠
    CallBlock.readAll ([3, 4, 5].zip ["\tИ A".toList, "  И = 1".toList, "  long=2".toList]) := by
  decide

end Scenarist
