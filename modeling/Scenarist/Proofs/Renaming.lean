import Scenarist.Proofs.Alignment.Assignments
import Scenarist.Proofs.Replacement
import Scenarist.Proofs.Step.Keyword
import Scenarist.Proofs.Supplement
import Scenarist.Proofs.Validation.Steps

set_option autoImplicit false

/-! # Calls under another name

A call line that is replaced by a call of another scenario, behind the same blanks, is read as a call with the same
assignments: these depend on the call for its indentation alone. The calls around it stay, unless the new line has the
shape of an assignment and stands directly below a call that is indented less. A call line has that shape exactly if the
name begins with an equals sign.

Main statements: `CallBlock.exists_split_of_mem_ofText` (a script cut at a call line),
`CallBlock.isRenamed_replaceLine_iff`, and for a call line that is written `CallLine.openedBy?_callLine` and
`CallLine.assignedBy?_callLine_eq_none_iff`. -/

namespace Scenarist

open Text

namespace CallBlock

variable {block : CallBlock} {document : Document}

/-! ## A script cut at a call line -/

/-- The number of a section's line is one more than that of the line above it. -/
theorem succ_of_linesOf_eq {key : SectionKey} {text : Text} {above below : List (Nat × Text)} {n m : Nat} {line : Text}
    (h : key.linesOf text = above ++ (n, line) :: below) (hlast : above.getLast?.map Prod.fst = some m) :
    m + 1 = n := by
  obtain ⟨s, front, raw, back, -, -, -, rfl, -, rfl, -⟩ := SectionKey.exists_raw_of_linesOf_eq h
  rcases List.eq_nil_or_concat' front with rfl | ⟨front, l, rfl⟩
  · simp at hlast
  · simp only [List.map_append, List.zipIdx_append, List.map_cons, List.map_nil, List.zipIdx_singleton,
      List.length_map, List.getLast?_append] at hlast
    simp only [List.length_append, List.length_singleton]
    have hm : s.firstLine + front.length = m := by simpa using hlast
    omega

/-- A line of a section lies at least two numbers below those before the line above it, and above those that follow. -/
theorem lt_of_linesOf_eq {key : SectionKey} {text : Text} {above below : List (Nat × Text)} {n : Nat} {line : Text}
    (h : key.linesOf text = above ++ (n, line) :: below) :
    (∀ number ∈ above.dropLast.map Prod.fst, number + 1 < n) ∧ ∀ number ∈ below.map Prod.fst, n < number := by
  have hsorted := SectionKey.pairwise_linesOf key text
  rw [h, List.map_append, List.map_cons] at hsorted
  obtain ⟨habove, hbelow, -⟩ := List.pairwise_append.1 hsorted
  refine ⟨fun number hnumber => ?_, (List.pairwise_cons.1 hbelow).1⟩
  rcases List.eq_nil_or_concat' above with rfl | ⟨front, ⟨m, l⟩, rfl⟩
  · simp at hnumber
  · have hm : m + 1 = n := succ_of_linesOf_eq h (by simp)
    rw [List.dropLast_concat] at hnumber
    rw [List.map_append] at habove
    have hlt := (List.pairwise_append.1 habove).2.2 number hnumber m (by simp)
    omega

/-- A line that a call stands on is none of those that assign. -/
theorem line_not_mem_assignmentLines {text : Text} (h : block ∈ ofText text) :
    block.line ∉ assignmentLines (ofText text) := by
  have hbare : block.bare ∈ (ofText text).map bare := List.mem_map_of_mem h
  rw [bare_ofText] at hbare
  obtain ⟨⟨number, line⟩, hentry, hopened⟩ := List.mem_filterMap.1 hbare
  obtain rfl : block.line = number := (line_of_openedBy? hopened).1
  simpa using (List.mem_filter.1 hentry).2

/-- A line that assigns to the open call is among those that assign. -/
theorem mem_assignmentLines_readFrom {number : Nat} {line : Text} {parameter : CallParameter}
    (h : block.assignedBy? number line = some parameter) (below : List (Nat × Text)) :
    number ∈ assignmentLines (readFrom (some block) ((number, line) :: below)) := by
  simp only [readFrom, h]
  exact subset_assignmentLines_readFrom (block.assign parameter) below (by simp [assign, line_of_assignedBy? h])

/-- A script cut at the line of a call: the lines above leave open the call, if any, that ends just above the line, to
which the line does not assign; the line opens the call, and the lines below add its assignments. -/
theorem exists_split_of_mem_ofText (h : block ∈ ofText document.text) :
    ∃ above line below earlier before later, scriptLines document.text = above ++ (block.line, line) :: below ∧
      openedBy? block.line line = some block.bare ∧
      (∀ tail, readFrom none (above ++ tail) = earlier ++ readFrom before tail) ∧
      (∀ outer, outer ∈ before ↔ outer ∈ ofText document.text ∧ outer.lastLine + 1 = block.line) ∧
      (∀ outer ∈ before, outer.assignedBy? block.line line = none) ∧
      readFrom (some block.bare) below = block :: later := by
  obtain ⟨line, hmem, hopened⟩ := Checker.exists_line_of_mem_blocksOf h
  obtain ⟨above, below, hlines⟩ := List.append_of_mem hmem
  obtain ⟨earlier, before, htail, hearlier, hopen⟩ := exists_readFrom_append none above
  have hofText : ofText document.text = earlier ++ readFrom before ((block.line, line) :: below) := by
    rw [← htail, ← hlines]
    rfl
  have hends : ∀ outer ∈ before, outer.assignedBy? block.line line = none := by
    intro outer houter
    cases hassigned : outer.assignedBy? block.line line with
    | none => rfl
    | some parameter =>
        obtain rfl := Option.mem_def.1 houter
        refine absurd ?_ (line_not_mem_assignmentLines h)
        rw [hofText, assignmentLines, List.flatMap_append]
        exact List.mem_append_right _ (mem_assignmentLines_readFrom hassigned below)
  have hcalls : ofText document.text = earlier ++ (before.toList ++ readFrom (some block.bare) below) := by
    rw [hofText, readFrom_cons_of_ends hends, hopened]
  obtain ⟨parameters, later, hlater⟩ := exists_readFrom_some block.bare below
  have hread := hlater block.bare rfl
  refine ⟨above, line, below, earlier, before, later, hlines, hopened, htail, fun outer => ⟨fun houter => ⟨?_, ?_⟩, ?_⟩,
    hends, ?_⟩
  · rw [hcalls]
    simp [Option.mem_def.1 houter]
  · exact succ_of_linesOf_eq hlines ((hopen outer houter).resolve_right (by simp))
  · -- the calls that are closed above end earlier, and those that are opened from the line on end later
    rintro ⟨houter, hnumber⟩
    obtain ⟨hlow, hhigh⟩ := lt_of_linesOf_eq hlines
    rw [hcalls, List.mem_append, List.mem_append] at houter
    rcases houter with houter | houter | houter
    · have hlt := hlow _ ((hearlier outer houter).resolve_right (by simp))
      omega
    · exact Option.mem_toList.1 houter
    · have hlast := (lineNumbers_readFrom_sublist (some block.bare) below).subset
        (List.mem_flatMap.2 ⟨outer, houter, lastLine_mem_lineNumbers outer⟩)
      rcases List.mem_append.1 hlast with hlast | hlast
      · have heq : outer.lastLine = block.line := by simpa [lineNumbers, bare] using hlast
        omega
      · have hlt := hhigh _ hlast
        omega
  · rw [hread]
    congr 1
    -- the call that is read from the line on is the one on that line
    have hsame : { block.bare with parameters := block.bare.parameters ++ parameters } ∈ Checker.blocksOf document := by
      show _ ∈ ofText document.text
      rw [hcalls, hread]
      simp
    exact Checker.eq_of_mem_lineNumbers hsame h List.mem_cons_self List.mem_cons_self

/-! ## A script with another call line -/

/-- Whether the calls of one script are those of another one, but for one call that has another name, on the same line
and with the same indentation and assignments. -/
def IsRenamed (before after : Text) (block : CallBlock) (name : Text) : Prop :=
  ∃ above below renamed, ofText before = above ++ block :: below ∧ ofText after = above ++ renamed :: below ∧
    renamed.line = block.line ∧ renamed.name = name ∧ renamed.indent = block.indent ∧
      renamed.parameters = block.parameters

/-- A call line that is replaced by another one with the same indentation renames the call, unless the call just above
it takes the new line for an assignment. -/
theorem isRenamed_replaceLine_iff (hblock : block ∈ ofText document.text) {line : Text} {opened : CallBlock}
    (hopened : openedBy? block.line line = some opened) (hindent : opened.indent = block.indent) (hfree : '\n' ∉ line)
    (htrim : trimReturns line = line) (htop : isTopLevelKey line = false) :
    let text := (document.replaceLine block.line line).applyTo document.text
    SectionKey.script.Rewritten (lines document.text) (lines text) ∧ SectionKey.isIn text .script = true ∧
      (block.line, line) ∈ scriptLines text ∧
      (IsRenamed document.text text block opened.name ↔
        ∀ outer ∈ ofText document.text, outer.lastLine + 1 = block.line →
          outer.assignedBy? block.line line = none) := by
  intro text
  obtain ⟨above, old, below, earlier, before, later, hlines, hold, htail, hbefore, hends, hread⟩ :=
    exists_split_of_mem_ofText hblock
  obtain ⟨hrewritten, hin, hnew⟩ := SectionKey.linesOf_replaceLine hlines hfree htrim htop
  have hofText : ofText text = earlier ++ readFrom before ((block.line, line) :: below) := by
    rw [← htail, ← hnew]
    rfl
  obtain ⟨hline, hnone⟩ := line_of_openedBy? hopened
  have hmem : (block.line, line) ∈ scriptLines text := by
    rw [scriptLines, hnew]
    simp
  refine ⟨hrewritten, hin, hmem, fun hrenamed outer houter hnumber => ?_, fun hunassigned => ?_⟩
  · cases hassigned : outer.assignedBy? block.line line with
    | none => rfl
    | some parameter =>
        obtain ⟨first, last, renamed, -, hafter, hline', -⟩ := hrenamed
        have hmem : renamed ∈ ofText text := by
          rw [hafter]
          exact List.mem_append_right _ List.mem_cons_self
        refine absurd ?_ (line_not_mem_assignmentLines hmem)
        obtain rfl := Option.mem_def.1 ((hbefore outer).2 ⟨houter, hnumber⟩)
        rw [hofText, assignmentLines, List.flatMap_append, hline']
        exact List.mem_append_right _ (mem_assignmentLines_readFrom hassigned below)
  · have hcalls : ofText document.text = (earlier ++ before.toList) ++ block :: later := by
      show readFrom none (scriptLines document.text) = _
      rw [hlines, htail, readFrom_cons_of_ends hends, hold, hread, List.append_assoc]
    have hends' : ∀ outer ∈ before, outer.assignedBy? block.line line = none :=
      fun outer houter => hunassigned outer ((hbefore outer).1 houter).1 ((hbefore outer).1 houter).2
    -- what the lines below add to the call, they add to the new one
    obtain ⟨parameters, later', hlater⟩ := exists_readFrom_some block below
    obtain ⟨hparameters, rfl⟩ := List.cons.inj (hread.symm.trans (hlater block.bare rfl))
    refine ⟨earlier ++ before.toList, later, { opened with parameters := opened.parameters ++ parameters }, hcalls, ?_,
      hline, rfl, hindent, ?_⟩
    · rw [hofText, readFrom_cons_of_ends hends', hopened, hlater opened hindent, List.append_assoc]
    · rw [hnone]
      exact (congrArg CallBlock.parameters hparameters).symm

end CallBlock

/-! ## Call lines that are written -/

def callLine (indent keyword name : Text) : Text := indent ++ keyword ++ ' ' :: name

/-- Whether a name is one that a call can have in its line. -/
structure IsCallable (name : Text) : Prop where
  strip : strip name = name
  ne_nil : name ≠ []
  lineFeed : '\n' ∉ name
  quote : '"' ∉ name

namespace CallLine

variable {indent keyword name : Text}

theorem isKeyLetter_of_mem_callKeywords (hkeyword : keyword ∈ callKeywords) :
    keyword ≠ [] ∧ ∀ c ∈ keyword, isKeyLetter c = true := by
  have hall : (callKeywords.all fun keyword => !keyword.isEmpty && keyword.all isKeyLetter) = true := by decide +kernel
  simpa using List.all_eq_true.1 hall keyword hkeyword

theorem isNameLetter_of_mem (hkeyword : keyword ∈ callKeywords) {c : Char} (hc : c ∈ keyword) :
    isNameLetter c = true := by
  simp [isNameLetter, (isKeyLetter_of_mem_callKeywords hkeyword).2 c hc]

theorem exists_keyword_eq_cons (hkeyword : keyword ∈ callKeywords) :
    ∃ k ks, keyword = k :: ks ∧ isBlank k = false ∧ isKeyLetter k = true := by
  obtain ⟨hne, hletters⟩ := isKeyLetter_of_mem_callKeywords hkeyword
  obtain ⟨k, ks, rfl⟩ := List.exists_cons_of_ne_nil hne
  exact ⟨k, ks, rfl, Scalar.isBlank_of_isNameLetter (isNameLetter_of_mem hkeyword List.mem_cons_self),
    hletters k List.mem_cons_self⟩

theorem stripLeft_callLine (hindent : ∀ c ∈ indent, isBlank c = true) (hkeyword : keyword ∈ callKeywords) :
    stripLeft (callLine indent keyword name) = keyword ++ ' ' :: name := by
  obtain ⟨k, ks, rfl, hblank, -⟩ := exists_keyword_eq_cons hkeyword
  rw [callLine, List.append_assoc, stripLeft_append hindent]
  exact stripLeft_cons_of_not_blank hblank _

theorem leadingBlanks_callLine (hindent : ∀ c ∈ indent, isBlank c = true) (hkeyword : keyword ∈ callKeywords) :
    leadingBlanks (callLine indent keyword name) = indent := by
  obtain ⟨k, ks, rfl, hblank, -⟩ := exists_keyword_eq_cons hkeyword
  rw [callLine, List.append_assoc]
  exact leadingBlanks_append hindent hblank _

theorem stripLeft_space (h : IsCallable name) : stripLeft (' ' :: name) = name := by
  rw [← List.singleton_append, stripLeft_append isBlank_of_mem_space, ← h.strip]
  exact stripLeft_strip name

/-- The line is cut at its keyword, and behind it is the name. -/
theorem openedBy?_callLine (hindent : ∀ c ∈ indent, isBlank c = true) (hkeyword : keyword ∈ callKeywords)
    (hname : IsCallable name) (number : Nat) :
    ∃ opened, CallBlock.openedBy? number (callLine indent keyword name) = some opened ∧ opened.name = name ∧
      opened.indent = indentWidth indent := by
  have hfree : IsPrefixFree callKeywords :=
    isPrefixFree_keywords.mono fun word hword => List.mem_append_left _ (callKeywords_subset word hword)
  have hcut : StepLine.cutWord? callKeywords (keyword ++ ' ' :: name) = some (keyword, ' ' :: name) :=
    (StepLine.cutWord?_eq_some_iff hfree).2 ⟨⟨keyword, hkeyword, rfl⟩, rfl⟩
  have hbody := stripLeft_space hname
  have hgap : (leadingBlanks (' ' :: name)).isEmpty = false := rfl
  have hwording : StepLine.wording? (' ' :: name) = some (leadingBlanks (' ' :: name), name, []) := by
    rw [StepLine.wording?_of_body (by simp [hname.lineFeed]) (by rw [hbody]; exact hname.ne_nil), hgap, hbody]
    rfl
  have hparts : StepLine.ofCall? (callLine indent keyword name) =
      some ⟨indent, keyword, leadingBlanks (' ' :: name), name, []⟩ := by
    simp only [StepLine.ofCall?, StepLine.parse?, stripLeft_callLine hindent hkeyword, hcut, hwording,
      leadingBlanks_callLine hindent hkeyword, Option.bind_eq_bind, Option.bind_some, Option.pure_def]
  have hwidth : indentWidth (callLine indent keyword name) = indentWidth indent := by
    rw [← indentWidth_leadingBlanks, leadingBlanks_callLine hindent hkeyword]
  unfold CallBlock.openedBy? CallBlock.ofLine?
  rw [hparts, Option.map_some, Option.filter_some, if_pos (by simp [hname.strip, hname.ne_nil, hname.quote])]
  exact ⟨_, rfl, hname.strip, hwidth⟩

/-- The line has the shape of an assignment exactly if the name begins with an equals sign. -/
theorem isSome_parse?_callLine (hindent : ∀ c ∈ indent, isBlank c = true) (hkeyword : keyword ∈ callKeywords)
    (hname : IsCallable name) :
    (AssignmentLine.parse? (callLine indent keyword name)).isSome = true ↔ name.head? = some '=' := by
  obtain ⟨hne, -⟩ := isKeyLetter_of_mem_callKeywords hkeyword
  have hletters : ∀ c ∈ keyword, isNameLetter c = true := fun c => isNameLetter_of_mem hkeyword
  have htake : (keyword ++ ' ' :: name).takeWhile isNameLetter = keyword := by
    rw [List.takeWhile_append_of_pos hletters, List.takeWhile_cons_of_neg (by decide), List.append_nil]
  have hdrop : (keyword ++ ' ' :: name).dropWhile isNameLetter = ' ' :: name := by
    rw [List.dropWhile_append_of_pos hletters, List.dropWhile_cons_of_neg (by decide)]
  have hbody := stripLeft_space hname
  obtain ⟨c, rest, rfl⟩ := List.exists_cons_of_ne_nil hname.ne_nil
  have hfree : '\n' ∉ stripLeft rest := fun hmem =>
    hname.lineFeed (List.mem_cons_of_mem _ ((List.dropWhile_sublist isBlank).subset hmem))
  by_cases hc : c = '='
  · subst hc
    have hafter : after? ['='] ('=' :: rest) = some rest := rfl
    simp only [AssignmentLine.parse?, stripLeft_callLine hindent hkeyword, htake, hdrop, hbody, hafter,
      StepLine.cutTail_of_not_mem hfree]
    simp [hne, hfree]
  · have hafter : after? ['='] (c :: rest) = none := if_neg (Ne.symm hc)
    simp only [AssignmentLine.parse?, stripLeft_callLine hindent hkeyword, hdrop, hbody, hafter]
    simp [hc]

theorem isSilent_callLine (hindent : ∀ c ∈ indent, isBlank c = true) (hkeyword : keyword ∈ callKeywords) :
    CallBlock.isSilent (callLine indent keyword name) = false := by
  have hbody : stripLeft (callLine indent keyword name) = keyword ++ ' ' :: name := stripLeft_callLine hindent hkeyword
  obtain ⟨k, ks, rfl, hblank, hletter⟩ := exists_keyword_eq_cons hkeyword
  have hmark : k ≠ '#' := by
    rintro rfl
    exact absurd hletter (by decide)
  have hstrip : strip (callLine indent (k :: ks) name) = k :: stripRight (ks ++ ' ' :: name) := by
    rw [strip, hbody, List.cons_append, stripRight_cons_of_not_blank hblank]
  simp [CallBlock.isSilent, hstrip, hmark]

/-- A call takes the line for an assignment exactly if the name begins with an equals sign and the line is indented
deeper than the call. -/
theorem assignedBy?_callLine_eq_none_iff (hindent : ∀ c ∈ indent, isBlank c = true) (hkeyword : keyword ∈ callKeywords)
    (hname : IsCallable name) (outer : CallBlock) (number : Nat) :
    outer.assignedBy? number (callLine indent keyword name) = none ↔
      ¬ (name.head? = some '=' ∧ outer.indent < indentWidth indent) := by
  have hwidth : indentWidth (callLine indent keyword name) = indentWidth indent := by
    rw [← indentWidth_leadingBlanks, leadingBlanks_callLine hindent hkeyword]
  rw [← isSome_parse?_callLine hindent hkeyword hname]
  unfold CallBlock.assignedBy?
  rw [isSilent_callLine hindent hkeyword, if_neg Bool.false_ne_true, hwidth]
  cases AssignmentLine.parse? (callLine indent keyword name) with
  | none => simp
  | some assignment => simp

theorem lineFeed_not_mem_callLine (hindent : '\n' ∉ indent) (hkeyword : keyword ∈ callKeywords)
    (hname : IsCallable name) : '\n' ∉ callLine indent keyword name := by
  have hletters : '\n' ∉ keyword := fun hmem => absurd (isNameLetter_of_mem hkeyword hmem) (by decide)
  simp [callLine, hindent, hletters, hname.lineFeed]

theorem trimReturns_callLine (indent keyword : Text) (hname : IsCallable name) :
    trimReturns (callLine indent keyword name) = callLine indent keyword name := by
  rcases List.eq_nil_or_concat' name with hnil | ⟨front, last, rfl⟩
  · exact absurd hnil hname.ne_nil
  · have hend : (strip (front ++ [last])).getLast? = some last := by rw [hname.strip, List.getLast?_concat]
    have hlast : isBlank last = false := not_isBlank_getLast_strip hend
    have hreturn : last ≠ '\r' := by
      rintro rfl
      exact absurd hlast (by decide)
    rw [callLine, ← List.cons_append, ← List.append_assoc]
    exact trimReturns_concat hreturn _

theorem isTopLevelKey_callLine (hindent : ∀ c ∈ indent, isBlank c = true) (hkeyword : keyword ∈ callKeywords) :
    isTopLevelKey (callLine indent keyword name) = false := by
  cases indent with
  | nil =>
      have hletters := (isKeyLetter_of_mem_callKeywords hkeyword).2
      have hdrop : (keyword ++ ' ' :: name).dropWhile isKeyLetter = ' ' :: name := by
        rw [List.dropWhile_append_of_pos hletters, List.dropWhile_cons_of_neg (by decide)]
      rw [isTopLevelKey, callLine, List.nil_append, hdrop]
      simp
  | cons c cs =>
      refine isTopLevelKey_of_head fun d hd => ?_
      obtain rfl := Option.some.inj hd
      cases hletter : isKeyLetter c with
      | false => rfl
      | true =>
          have hsolid := Scalar.isBlank_of_isNameLetter (c := c) (by simp [isNameLetter, hletter])
          simp [hindent c List.mem_cons_self] at hsolid

end CallLine

end Scenarist
