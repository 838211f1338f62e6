import Scenarist.Proofs.Alignment
import Scenarist.Proofs.Body.Reading
import Scenarist.Proofs.Insertion

set_option autoImplicit false

/-! # Assignments added to a call

Assignments that are written below the last line of a call, indented deeper than the call, are read as more
assignments of it. What ended the call before ends it afterwards, since a line is judged by the indentation of
the call alone, so the calls above stay and those below move on.

Main statements: `CallBlock.exists_split_of_mem_readFrom` (a script cut behind a call) and
`CallBlock.isExtended_insertion`. -/

namespace Scenarist

open Text

/-! ## Assignments behind spaces -/

namespace AssignmentLine

def spaced (indent : Nat) (name value : Text) : AssignmentLine := ⟨List.replicate indent ' ', name, value⟩

/-- Whether an assignment is one of a parameter to a value that stands in its line to the end. -/
structure IsWritten (line : AssignmentLine) : Prop where
  indent : ∃ n, line.indent = List.replicate n ' '
  name : isIdentifier line.name = true
  value : stripLeft line.value = line.value
  value_free : '\n' ∉ line.value
  ends : ∃ front last, line.value = front ++ [last] ∧ last ≠ '\r'

variable {line : AssignmentLine}

theorem IsWritten.isRead (h : line.IsWritten) : line.IsRead where
  indent := by
    obtain ⟨n, hn⟩ := h.indent
    rw [hn]
    exact ListItem.isBlank_of_mem_replicate
  name_ne_nil := by
    intro hnil
    have hname := h.name
    rw [hnil] at hname
    exact absurd hname (by decide)
  name := fun c hc => Scalar.isNameLetter_of_isIdentifier h.name c hc
  value := h.value
  value_free := h.value_free

theorem IsWritten.indentWidth_render (h : line.IsWritten) (width : Nat) :
    indentWidth (line.render width) = line.indent.length := by
  obtain ⟨n, hn⟩ := h.indent
  obtain ⟨c, cs, hname, hblank, -, -⟩ := exists_name_eq_cons h.isRead
  have hindent : indentOf? c = none := by
    have hspace : c ≠ ' ' := by
      rintro rfl
      exact absurd hblank (by decide)
    have htab : c ≠ '\t' := by
      rintro rfl
      exact absurd hblank (by decide)
    simp [indentOf?, hspace, htab]
  rw [render_eq, hn, indentWidth_replicate_append, wording, hname, List.cons_append, indentWidth, hindent,
    List.length_replicate]
  rfl

theorem IsWritten.lineFeed_not_mem_render (h : line.IsWritten) (width : Nat) : '\n' ∉ line.render width := by
  obtain ⟨n, hn⟩ := h.indent
  have hname : '\n' ∉ line.name := Scalar.lineFeed_not_mem_of_isIdentifier h.name
  rw [render_eq, wording, hn]
  simp [hname, h.value_free]

theorem IsWritten.trimReturns_render (h : line.IsWritten) (width : Nat) :
    trimReturns (line.render width) = line.render width := by
  obtain ⟨front, last, hvalue, hlast⟩ := h.ends
  rw [render, hvalue, ← List.append_assoc]
  exact trimReturns_concat hlast _

theorem IsWritten.isTopLevelKey_render (h : line.IsWritten) (width : Nat) :
    isTopLevelKey (line.render width) = false := by
  obtain ⟨n, hn⟩ := h.indent
  cases n with
  | zero =>
      rw [render_eq, hn]
      exact isTopLevelKey_wording h.isRead width
  | succ n =>
      refine isTopLevelKey_of_head fun c hc => ?_
      rw [render_eq, hn, List.replicate_succ, List.cons_append] at hc
      obtain rfl := Option.some.inj hc
      decide

end AssignmentLine

namespace CallBlock

variable {block : CallBlock}

/-! ## More assignments -/

/-- The call with more assignments, on the lines below its last one. -/
def extend (block : CallBlock) (entries : List (Text × Text)) : CallBlock :=
  { block with parameters := block.parameters ++
      (entries.zipIdx (block.lastLine + 1)).map fun (entry, number) => ⟨number, entry.1, entry.2⟩ }

theorem parameterNames_extend (block : CallBlock) (entries : List (Text × Text)) :
    (block.extend entries).parameterNames = block.parameterNames ++ entries.map Prod.fst := by
  have hnames : ∀ first : Nat, (entries.zipIdx first).map (fun entry => entry.1.1) = entries.map Prod.fst := by
    intro first
    rw [show (fun entry : (Text × Text) × Nat => entry.1.1) = Prod.fst ∘ Prod.fst from rfl, ← List.map_map,
      List.zipIdx_map_fst]
  unfold parameterNames extend
  rw [List.map_append, List.map_map]
  exact congrArg _ (hnames _)

/-- The assignment of a line depends on nothing of the call but its indentation. -/
theorem isSome_assignedBy?_congr {other : CallBlock} (h : other.indent = block.indent) (number number' : Nat)
    (line : Text) :
    (other.assignedBy? number' line).isSome = (block.assignedBy? number line).isSome := by
  unfold assignedBy?
  rw [h]
  split
  · rfl
  · split
    · rfl
    · split <;> rfl

theorem assignedBy?_render {line : AssignmentLine} (h : line.IsWritten) (hindent : block.indent < line.indent.length)
    (number width : Nat) :
    block.assignedBy? number (line.render width) = some ⟨number, line.name, line.value⟩ := by
  unfold assignedBy?
  rw [AssignmentRun.isSilent_render h.isRead, AssignmentLine.parse?_render h.isRead]
  have hdeeper : ¬ indentWidth (line.render width) ≤ block.indent := by
    rw [h.indentWidth_render]
    omega
  simp [hdeeper]

/-- Lines that assign to the open call are its next assignments. -/
theorem readFrom_assignments {assignments : List AssignmentLine}
    (h : ∀ line ∈ assignments, line.IsWritten ∧ block.indent < line.indent.length) (width first : Nat)
    (tail : List (Nat × Text)) :
    readFrom (some block) (((assignments.map (AssignmentLine.render width)).zipIdx first).map Prod.swap ++ tail) =
      readFrom (some { block with parameters := block.parameters ++
        ((assignments.map fun line => (line.name, line.value)).zipIdx first).map fun (entry, number) =>
          ⟨number, entry.1, entry.2⟩ }) tail := by
  induction assignments generalizing block first with
  | nil => simp
  | cons line assignments ih =>
      obtain ⟨hwritten, hindent⟩ := h line List.mem_cons_self
      have hlater : ∀ other ∈ assignments,
          other.IsWritten ∧ (block.assign ⟨first, line.name, line.value⟩).indent < other.indent.length :=
        fun other hother => h other (List.mem_cons_of_mem _ hother)
      have hrest := ih hlater (first + 1)
      simp only [List.map_cons, List.zipIdx_cons, List.cons_append, Prod.swap_prod_mk, readFrom,
        assignedBy?_render hwritten hindent, hrest]
      simp [assign]

/-! ## A script cut behind a call -/

/-- Lines that are read with a call among the blocks can be cut behind the last line of the call: up to there the
call is open, and the next line does not assign to it. -/
theorem exists_split_of_mem_readFrom {current : Option CallBlock} {lines : List (Nat × Text)}
    (h : block ∈ readFrom current lines) :
    ∃ above below earlier, lines = above ++ below ∧
      (∀ tail, readFrom current (above ++ tail) = earlier ++ readFrom (some block) tail) ∧
      (∀ entry ∈ below.head?, block.assignedBy? entry.1 entry.2 = none) ∧
      (above.getLast?.map Prod.fst = some block.lastLine ∨ above = [] ∧ current = some block) := by
  induction lines generalizing current with
  | nil =>
      obtain rfl : current = some block := by
        cases current with
        | none => exact absurd h List.not_mem_nil
        | some open' => rw [List.mem_singleton.1 h]
      exact ⟨[], [], [], rfl, fun tail => rfl, by simp, Or.inr ⟨rfl, rfl⟩⟩
  | cons entry lines ih =>
      obtain ⟨number, line⟩ := entry
      obtain ⟨closed, next, hcons, hclosed, hopen⟩ := exists_readFrom_cons current number line
      rw [hcons] at h
      rcases List.mem_append.1 h with h | h
      · -- the call was open and the first line closes it
        obtain ⟨rfl, hends⟩ := hclosed block h
        refine ⟨[], (number, line) :: lines, [], rfl, fun tail => rfl, fun entry hentry => ?_, Or.inr ⟨rfl, rfl⟩⟩
        rw [← Option.some.inj hentry]
        exact hends
      · -- a line that opens a call or assigns to one goes in front of what the lines below are cut into
        obtain ⟨above, below, earlier, rfl, htail, hends, hnumber⟩ := ih h
        refine ⟨(number, line) :: above, below, closed ++ earlier, rfl, fun tail => ?_, hends, Or.inl ?_⟩
        · rw [List.cons_append, hcons, htail, List.append_assoc]
        · rcases hnumber with hnumber | ⟨rfl, hnext⟩
          · cases above with
            | nil => simp at hnumber
            | cons first above => rwa [List.getLast?_cons_cons]
          · rw [hopen block hnext]
            rfl

/-- A line that does not assign to the open call ends it. -/
theorem readFrom_of_ends {lines : List (Nat × Text)}
    (h : ∀ entry ∈ lines.head?, block.assignedBy? entry.1 entry.2 = none) :
    readFrom (some block) lines = block :: readFrom none lines := by
  cases lines with
  | nil => rfl
  | cons entry lines =>
      obtain ⟨number, line⟩ := entry
      have hnone : block.assignedBy? number line = none := h (number, line) rfl
      simp only [readFrom, hnone]

/-! ## A script with more assignments -/

/-- Whether the calls of one script are those of another one, but for one call that has more assignments below its
last line; the calls behind it stand so many lines further down. -/
def IsExtended (before after : Text) (block : CallBlock) (entries : List (Text × Text)) : Prop :=
  ∃ above below, ofText before = above ++ block :: below ∧
    ofText after = above ++ block.extend entries :: below.map (renumber (· + entries.length))

/-- Assignments that are written below the last line of a call are read as more assignments of it, and nothing else
changes about the calls. -/
theorem isExtended_insertion {document : Document} (hblock : block ∈ ofText document.text)
    {assignments : List AssignmentLine}
    (h : ∀ line ∈ assignments, line.IsWritten ∧ block.indent < line.indent.length) (width : Nat) :
    let text := (document.insertion block.lastLine
      (assignments.map (AssignmentLine.render width))).applyTo document.text
    SectionKey.script.Rewritten (lines document.text) (lines text) ∧ SectionKey.isIn text .script = true ∧
      IsExtended document.text text block (assignments.map fun line => (line.name, line.value)) := by
  intro text
  obtain ⟨above, below, earlier, hlines, htail, hends, hlast⟩ := exists_split_of_mem_readFrom hblock
  have hnumber : above.getLast?.map Prod.fst = some block.lastLine := by
    rcases hlast with hlast | ⟨-, hnone⟩
    · exact hlast
    · exact absurd hnone (by simp)
  have hrendered : ∀ l ∈ assignments.map (AssignmentLine.render width),
      '\n' ∉ l ∧ trimReturns l = l ∧ isTopLevelKey l = false := by
    intro l hl
    obtain ⟨line, hline, rfl⟩ := List.mem_map.1 hl
    have hwritten := (h line hline).1
    exact ⟨hwritten.lineFeed_not_mem_render width, hwritten.trimReturns_render width,
      hwritten.isTopLevelKey_render width⟩
  obtain ⟨hrewritten, hin, hnew⟩ := SectionKey.linesOf_insertion hlines hnumber (fun l hl => (hrendered l hl).1)
    (fun l hl => (hrendered l hl).2.1) fun l hl => (hrendered l hl).2.2
  refine ⟨hrewritten, hin, earlier, readFrom none below, ?_, ?_⟩
  · show readFrom none (scriptLines document.text) = _
    rw [show scriptLines document.text = above ++ below from hlines, htail, readFrom_of_ends hends]
  · have hmoved := readFrom_renumber (· + assignments.length) none below
    -- the call is indented as before, so the line that ended it ends it under its new number
    have hends' : ∀ entry ∈ (below.map fun entry => (entry.1 + assignments.length, entry.2)).head?,
        (block.extend (assignments.map fun line => (line.name, line.value))).assignedBy? entry.1 entry.2 = none := by
      intro entry hentry
      rw [List.head?_map] at hentry
      obtain ⟨old, hold, rfl⟩ := Option.map_eq_some_iff.1 hentry
      have hindent : (block.extend (assignments.map fun line => (line.name, line.value))).indent = block.indent :=
        rfl
      have hsame := isSome_assignedBy?_congr hindent old.1 (old.1 + assignments.length) old.2
      rw [hends old hold] at hsame
      simpa using hsame
    show readFrom none (scriptLines text) = _
    rw [show scriptLines text = _ from hnew, List.append_assoc, htail, readFrom_assignments h, List.length_map]
    rw [List.length_map]
    exact congrArg (earlier ++ ·) ((readFrom_of_ends hends').trans (congrArg _ hmoved))

end CallBlock

end Scenarist
