import Scenarist.Proofs.Body

set_option autoImplicit false

/-! # Calls read line by line

While a script is read, one call may be open. A line assigns to the open call, or ends it and may open another one. So
lines that are read are known by the calls that they close and the one that they leave open, and what the lines below
make of an open call depends on nothing of it but its indentation.

Main statements: `CallBlock.exists_readFrom_append` (the lines above a place) and `CallBlock.exists_readFrom_some`
(the lines below a call). -/

namespace Scenarist.CallBlock

open Text

variable {block : CallBlock}

/-! ## The last line of a call -/

theorem lastLine_of_openedBy? {number : Nat} {line : Text} (h : openedBy? number line = some block) :
    block.lastLine = number := by
  obtain ⟨hline, hparameters⟩ := line_of_openedBy? h
  rw [lastLine, hparameters, hline]
  rfl

theorem lastLine_mem_lineNumbers (block : CallBlock) : block.lastLine ∈ block.lineNumbers := by
  unfold lastLine
  cases hlast : block.parameters.getLast? with
  | none => exact line_mem_lineNumbers block
  | some parameter => exact line_mem_lineNumbers_of_mem (List.mem_of_getLast? hlast)

theorem lastLine_assign (block : CallBlock) (parameter : CallParameter) :
    (block.assign parameter).lastLine = parameter.line := by
  simp [lastLine, assign]

/-! ## The lines above a place -/

/-- A line closes the open call unless it assigns to it, and leaves a call open, if any, that ends with this line. -/
theorem exists_readFrom_cons (current : Option CallBlock) (number : Nat) (line : Text) :
    ∃ closed next, (∀ rest, readFrom current ((number, line) :: rest) = closed ++ readFrom next rest) ∧
      (∀ block ∈ closed, current = some block ∧ block.assignedBy? number line = none) ∧
      ∀ outer ∈ next, outer.lastLine = number := by
  cases current with
  | none =>
      exact ⟨[], openedBy? number line, fun rest => rfl, fun block h => absurd h List.not_mem_nil,
        fun outer h => lastLine_of_openedBy? h⟩
  | some block =>
      cases hassigned : block.assignedBy? number line with
      | some parameter =>
          refine ⟨[], some (block.assign parameter), fun rest => ?_, fun block h => absurd h List.not_mem_nil,
            fun outer h => ?_⟩
          · simp only [readFrom, hassigned, List.nil_append]
          · rw [← Option.some.inj h, lastLine_assign, line_of_assignedBy? hassigned]
      | none =>
          refine ⟨[block], openedBy? number line, fun rest => ?_, fun other h => ?_,
            fun outer h => lastLine_of_openedBy? h⟩
          · simp only [readFrom, hassigned, List.singleton_append]
          · rw [List.mem_singleton.1 h]
            exact ⟨rfl, hassigned⟩

/-- Lines close some calls and leave one open, if any; unless there are no lines, the open call ends with the last of
them, and the closed ones end before. -/
theorem exists_readFrom_append (current : Option CallBlock) (above : List (Nat × Text)) :
    ∃ earlier before, (∀ tail, readFrom current (above ++ tail) = earlier ++ readFrom before tail) ∧
      (∀ outer ∈ earlier, outer.lastLine ∈ above.dropLast.map Prod.fst ∨ current = some outer) ∧
      ∀ outer ∈ before, above.getLast?.map Prod.fst = some outer.lastLine ∨ above = [] ∧ current = some outer := by
  induction above using List.reverseRecOn with
  | nil =>
      exact ⟨[], current, fun tail => rfl, fun outer h => absurd h List.not_mem_nil, fun outer h => Or.inr ⟨rfl, h⟩⟩
  | append_singleton above entry ih =>
      obtain ⟨earlier, before, htail, hearlier, hbefore⟩ := ih
      obtain ⟨closed, next, hcons, hclosed, hlast⟩ := exists_readFrom_cons before entry.1 entry.2
      refine ⟨earlier ++ closed, next, fun tail => ?_, fun outer h => ?_, fun outer h => Or.inl ?_⟩
      · rw [List.append_assoc, List.singleton_append, htail, hcons, List.append_assoc]
      · rw [List.dropLast_concat]
        rcases List.mem_append.1 h with h | h
        · exact (hearlier outer h).imp_left fun hmem => (above.dropLast_sublist.map Prod.fst).subset hmem
        · -- the call that the last line closes ended with the line above that one
          refine (hbefore outer (hclosed outer h).1).imp (fun hopen => ?_) And.right
          obtain ⟨entry, hentry, hnumber⟩ := Option.map_eq_some_iff.1 hopen
          exact List.mem_map.2 ⟨entry, List.mem_of_getLast? hentry, hnumber⟩
      · simp [hlast outer h]

/-- A line that does not assign to the open call closes it. -/
theorem readFrom_cons_of_ends {before : Option CallBlock} {number : Nat} {line : Text}
    (h : ∀ outer ∈ before, outer.assignedBy? number line = none) (rest : List (Nat × Text)) :
    readFrom before ((number, line) :: rest) = before.toList ++ readFrom (openedBy? number line) rest := by
  cases before with
  | none => rfl
  | some outer => simp only [readFrom, h outer rfl, Option.toList_some, List.singleton_append]

/-! ## The lines below a call -/

/-- The assignment of a line depends on nothing of the call but its indentation. -/
theorem assignedBy?_congr {other : CallBlock} (h : other.indent = block.indent) (number : Nat) (line : Text) :
    other.assignedBy? number line = block.assignedBy? number line := by
  unfold assignedBy?
  rw [h]

/-- What lines below add to an open call, and which calls they hold, depends on nothing of it but its indentation. -/
theorem exists_readFrom_some (block : CallBlock) (lines : List (Nat × Text)) :
    ∃ parameters later, ∀ other : CallBlock, other.indent = block.indent →
      readFrom (some other) lines = { other with parameters := other.parameters ++ parameters } :: later := by
  induction lines generalizing block with
  | nil => exact ⟨[], [], fun other _ => by simp [readFrom]⟩
  | cons entry lines ih =>
      obtain ⟨number, line⟩ := entry
      cases hassigned : block.assignedBy? number line with
      | some parameter =>
          obtain ⟨parameters, later, hlater⟩ := ih (block.assign parameter)
          refine ⟨parameter :: parameters, later, fun other h => ?_⟩
          have hassigned' := (assignedBy?_congr h number line).trans hassigned
          have hindent : (other.assign parameter).indent = (block.assign parameter).indent := h
          simp only [readFrom, hassigned', hlater _ hindent]
          simp [assign]
      | none =>
          refine ⟨[], readFrom (openedBy? number line) lines, fun other h => ?_⟩
          have hassigned' := (assignedBy?_congr h number line).trans hassigned
          simp [readFrom, hassigned']

end Scenarist.CallBlock
