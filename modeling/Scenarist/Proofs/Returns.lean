import Scenarist.Proofs.Idempotence
import Scenarist.Proofs.Text.Paired

set_option autoImplicit false

/-! # Line feeds without carriage returns

In a document whose line feeds all follow carriage returns, the script body ends between the two characters
of a pair if another section follows: the carriage return belongs to the last line of the body, and the line
feed stands behind it. A last line that is put into a new layout loses the carriage return with the blanks at
its end if it is a row of a table, or if it is an assignment without a value, aligned with others. Nothing
else that the steps of a pass do brings a line feed without a carriage return into the document: a section
that is written anew ends with a carriage return of its own.

Main statements: `isPaired_mapScript_iff` (aligning), `isPaired_refill` (a section that is written anew) and
`Executor.isPaired_repairText_iff` (a pass with the default steps). -/

namespace Scenarist

open Text LineEnd

/-! ## The last of the aligned lines -/

namespace TableRow

theorem getLast?_render (widths : List Nat) (row : TableRow) :
    (row.render widths).getLast? = some '|' := by
  unfold render
  dsimp only
  rw [List.getLast?_append]
  rfl

/-- The last of the aligned lines is the last line, or its row in a new layout. -/
theorem getLast?_alignFrom (rows : List TableRow) (front : List Text) (line : Text) :
    (parse? line = none → (alignFrom rows (front ++ [line])).getLast? = some line) ∧
      ∀ row, parse? line = some row →
        ∃ widths, (alignFrom rows (front ++ [line])).getLast? = some (row.render widths) := by
  induction front generalizing rows with
  | nil =>
      refine ⟨fun hnone => ?_, fun row hrow => ⟨widths (row :: rows), ?_⟩⟩
      · simp [alignFrom, hnone, renderAll]
      · simp [alignFrom, hrow, renderAll]
  | cons first front ih =>
      rw [List.cons_append, alignFrom]
      cases hfirst : parse? first with
      | some row => exact ih (row :: rows)
      | none =>
          obtain ⟨hnone, hsome⟩ := ih []
          refine ⟨fun hline => ?_, fun row hrow => ?_⟩
          · simp [List.getLast?_append, List.getLast?_cons, hnone hline]
          · obtain ⟨widths, hwidths⟩ := hsome row hrow
            exact ⟨widths, by simp [List.getLast?_append, List.getLast?_cons, hwidths]⟩

end TableRow

/-- Aligning tables takes the carriage return from a last line that is a row. -/
theorem getLast?_alignTables (front : List Text) {line : Text} (hline : line.getLast? = some '\r') :
    ∃ last, (alignTables (front ++ [line])).getLast? = some last ∧
      (last.getLast? = some '\r' ↔ TableRow.parse? line = none) := by
  obtain ⟨hnone, hsome⟩ := TableRow.getLast?_alignFrom [] front line
  cases hparse : TableRow.parse? line with
  | none => exact ⟨line, hnone hparse, iff_of_true hline rfl⟩
  | some row =>
      obtain ⟨widths, hlast⟩ := hsome row hparse
      refine ⟨row.render widths, hlast, iff_of_false ?_ (by simp)⟩
      rw [TableRow.getLast?_render]
      decide

namespace AssignmentRun

/-- The run that lines end with, the last line first. -/
def runAtEnd : (call : Option Nat) → (run : List (Text × AssignmentLine)) → List Text →
    List (Text × AssignmentLine)
  | _, run, [] => run
  | call, run, line :: rest => match goesOn? call line with
    | some assignment => runAtEnd call ((line, assignment) :: run) rest
    | none => runAtEnd (opening? line) [] rest

theorem runAtEnd_cons_of_some {call : Option Nat} {line : Text} {assignment : AssignmentLine}
    (h : goesOn? call line = some assignment) (run : List (Text × AssignmentLine)) (rest : List Text) :
    runAtEnd call run (line :: rest) = runAtEnd call ((line, assignment) :: run) rest := by
  rw [runAtEnd, h]

theorem runAtEnd_cons_of_none {call : Option Nat} {line : Text} (h : goesOn? call line = none)
    (run : List (Text × AssignmentLine)) (rest : List Text) :
    runAtEnd call run (line :: rest) = runAtEnd (opening? line) [] rest := by
  rw [runAtEnd, h]

theorem alignFrom_cons_of_some {call : Option Nat} {line : Text} {assignment : AssignmentLine}
    (h : goesOn? call line = some assignment) (run : List (Text × AssignmentLine)) (rest : List Text) :
    alignFrom call run (line :: rest) = alignFrom call ((line, assignment) :: run) rest := by
  unfold goesOn? at h
  rw [alignFrom]
  simp only [h]

theorem alignFrom_cons_of_none {call : Option Nat} {line : Text} (h : goesOn? call line = none)
    (run : List (Text × AssignmentLine)) (rest : List Text) :
    alignFrom call run (line :: rest) = render run ++ line :: alignFrom (opening? line) [] rest := by
  unfold goesOn? at h
  rw [alignFrom]
  simp only [h]

/-- The last of the aligned lines is the last line, unless lines end with a run of several. -/
theorem getLast?_alignFrom (call : Option Nat) (run : List (Text × AssignmentLine)) (lines : List Text) :
    (∀ last before earlier, runAtEnd call run lines = last :: before :: earlier →
        ∃ width, (alignFrom call run lines).getLast? = some (last.2.render width)) ∧
      ((runAtEnd call run lines).length ≤ 1 →
        (alignFrom call run lines).getLast? = (run.reverse.map Prod.fst ++ lines).getLast?) := by
  induction lines generalizing call run with
  | nil =>
      refine ⟨fun last before earlier hrun => ?_, fun hshort => ?_⟩
      · obtain rfl : run = last :: before :: earlier := hrun
        refine ⟨(((last :: before :: earlier).reverse.map (·.2.name.length)).max?).getD 0, ?_⟩
        unfold alignFrom render
        simp [AssignmentLine.render]
      · unfold alignFrom render
        have hshort : run.reverse.length ≤ 1 := by simpa [runAtEnd] using hshort
        simp only [hshort, if_true, List.append_nil]
  | cons line rest ih =>
      cases hline : goesOn? call line with
      | some assignment =>
          rw [runAtEnd_cons_of_some hline, alignFrom_cons_of_some hline]
          simpa using ih call ((line, assignment) :: run)
      | none =>
          -- the run so far has ended, and the lines from here on end as they do by themselves
          rw [runAtEnd_cons_of_none hline, alignFrom_cons_of_none hline]
          obtain ⟨hlong, hshort⟩ := ih (opening? line) []
          refine ⟨fun last before earlier hrun => ?_, fun hlength => ?_⟩
          · obtain ⟨width, hwidth⟩ := hlong last before earlier hrun
            exact ⟨width, by simp [List.getLast?_append, List.getLast?_cons, hwidth]⟩
          · simp only [List.reverse_nil, List.map_nil, List.nil_append] at hshort
            simp [List.getLast?_append, List.getLast?_cons, hshort hlength]

/-- A run at the end of lines ends with their last line. -/
theorem head_runAtEnd {call : Option Nat} {run earlier : List (Text × AssignmentLine)} {lines : List Text}
    {last : Text × AssignmentLine} (hrun : ∀ entry ∈ run, AssignmentLine.parse? entry.1 = some entry.2)
    (h : runAtEnd call run lines = last :: earlier) :
    AssignmentLine.parse? last.1 = some last.2 ∧
      (run.reverse.map Prod.fst ++ lines).getLast? = some last.1 := by
  induction lines generalizing call run with
  | nil =>
      obtain rfl : run = last :: earlier := h
      exact ⟨hrun last List.mem_cons_self, by simp⟩
  | cons line rest ih =>
      cases hline : goesOn? call line with
      | some assignment =>
          rw [runAtEnd_cons_of_some hline] at h
          have hentries : ∀ entry ∈ (line, assignment) :: run,
              AssignmentLine.parse? entry.1 = some entry.2 := by
            intro entry hentry
            rcases List.mem_cons.1 hentry with rfl | hentry
            · exact parse?_of_goesOn? hline
            · exact hrun entry hentry
          simpa using ih hentries h
      | none =>
          rw [runAtEnd_cons_of_none hline] at h
          obtain ⟨hparse, hlast⟩ := ih (fun entry hentry => absurd hentry List.not_mem_nil) h
          refine ⟨hparse, ?_⟩
          simp only [List.reverse_nil, List.map_nil, List.nil_append] at hlast
          simp [List.getLast?_append, List.getLast?_cons, hlast]

/-- Whether lines end with a run of several assignments, the last of them without a value. -/
def EndsBare (lines : List Text) : Prop :=
  ∃ last before earlier, runAtEnd none [] lines = last :: before :: earlier ∧ last.2.value = []

instance : DecidablePred EndsBare := fun lines =>
  match hrun : runAtEnd none [] lines with
  | [] => isFalse fun ⟨_, _, _, heq, _⟩ => by simp [hrun] at heq
  | [_] => isFalse fun ⟨_, _, _, heq, _⟩ => by simp [hrun] at heq
  | last :: before :: earlier => decidable_of_iff (last.2.value = [])
      ⟨fun hvalue => ⟨last, before, earlier, hrun, hvalue⟩, fun ⟨_, _, _, heq, hvalue⟩ => by
        rw [hrun] at heq
        exact (List.cons.inj heq).1 ▸ hvalue⟩

end AssignmentRun

/-- An assignment in a new layout ends with a carriage return if it has a value and its line does. -/
theorem AssignmentLine.getLast?_render {line : Text} {assignment : AssignmentLine}
    (h : parse? line = some assignment) (hfree : '\n' ∉ line) (hline : line.getLast? = some '\r')
    (width : Nat) : (assignment.render width).getLast? = some '\r' ↔ assignment.value ≠ [] := by
  obtain ⟨-, -, gap, tail, hbody, htail⟩ := parse?_eq_some h
  have hsplit := leadingBlanks_append_stripLeft line
  rw [hbody] at hsplit
  obtain rfl : tail = [] := by
    rcases htail with rfl | rfl
    · rfl
    · exact absurd (by rw [← hsplit]; simp) hfree
  unfold render
  cases hvalue : assignment.value with
  | nil => simp [List.getLast?_append]
  | cons c cs =>
      rw [hvalue, List.append_nil] at hsplit
      rw [← hsplit] at hline
      simp only [List.getLast?_append, List.getLast?_cons] at hline ⊢
      simpa using hline

/-- Aligning assignments takes the carriage return from a last line without a value in a run. -/
theorem getLast?_alignAssignments (front : List Text) {line : Text} (hfree : '\n' ∉ line)
    (hline : line.getLast? = some '\r') :
    ∃ last, (alignAssignments (front ++ [line])).getLast? = some last ∧
      (last.getLast? = some '\r' ↔ ¬ AssignmentRun.EndsBare (front ++ [line])) := by
  obtain ⟨hlong, hshort⟩ := AssignmentRun.getLast?_alignFrom none [] (front ++ [line])
  by_cases hlength : (AssignmentRun.runAtEnd none [] (front ++ [line])).length ≤ 1
  · refine ⟨line, (hshort hlength).trans (by simp), iff_of_true hline ?_⟩
    rintro ⟨last, before, earlier, hrun, -⟩
    rw [hrun] at hlength
    simp at hlength
  · obtain ⟨last, before, earlier, hrun⟩ : ∃ last before earlier,
        AssignmentRun.runAtEnd none [] (front ++ [line]) = last :: before :: earlier := by
      match hend : AssignmentRun.runAtEnd none [] (front ++ [line]) with
      | [] => simp [hend] at hlength
      | [_] => simp [hend] at hlength
      | last :: before :: earlier => exact ⟨last, before, earlier, rfl⟩
    obtain ⟨width, hwidth⟩ := hlong last before earlier hrun
    obtain ⟨hparse, hlast⟩ := AssignmentRun.head_runAtEnd (by simp) hrun
    obtain rfl : line = last.1 := by simpa using hlast
    refine ⟨last.2.render width, hwidth, ?_⟩
    rw [AssignmentLine.getLast?_render hparse hfree hline, Ne, not_iff_not]
    unfold AssignmentRun.EndsBare
    rw [hrun]
    constructor
    · exact fun hvalue => ⟨last, before, earlier, rfl, hvalue⟩
    · rintro ⟨_, _, _, heq, hvalue⟩
      obtain ⟨rfl, -⟩ := List.cons.inj heq
      exact hvalue

/-! ## The end of the script -/

/-- The last line of the script, if another section follows it. -/
def closingLine? (lines : List Text) : Option Text :=
  (SectionKey.script.blockIn lines).bind fun block =>
    if block.followed then block.body.getLast? else none

/-- The pieces that the body of the script is cut into when it is aligned. -/
def scriptPieces (text : Text) : List Text :=
  let body := unlines (SectionKey.script.bodyIn (lines text))
  (LineEnd.ofText body).split body

section

variable {text : Text}

theorem closingLine?_of_found {s : Section} (hs : SectionKey.script.Found text s) :
    closingLine? (lines text) = if s.below = [] then none else s.body.getLast? := by
  unfold closingLine?
  rw [← SectionKey.find?_map_block, SectionKey.find?_eq_some hs.lines_eq hs.above hs.body hs.below]
  simp [Section.block, Section.hasFollowing]

theorem exists_found_of_closingLine? {line : Text} (h : closingLine? (lines text) = some line) :
    ∃ s, SectionKey.script.Found text s ∧ SectionKey.script.bodyIn (lines text) = s.body ∧
      s.below ≠ [] ∧ s.body.getLast? = some line := by
  cases hfind : SectionKey.script.find? text with
  | none =>
      unfold closingLine? at h
      rw [← SectionKey.find?_map_block, hfind] at h
      exact absurd h (by simp)
  | some s =>
      have hs := SectionKey.found_of_find? hfind
      rw [closingLine?_of_found hs] at h
      split at h
      · exact absurd h (by simp)
      · next hbelow => exact ⟨s, hs, SectionKey.bodyIn_eq_of_find? hfind, hbelow, h⟩

theorem closingLine?_of_bodyIn_eq_nil (h : SectionKey.script.bodyIn (lines text) = []) :
    closingLine? (lines text) = none := by
  unfold SectionKey.bodyIn at h
  unfold closingLine?
  cases hblock : SectionKey.script.blockIn (lines text) with
  | none => rfl
  | some block =>
      rw [hblock] at h
      have hbody : block.body = [] := h
      simp [hbody]

theorem getLast?_bodyIn_of_closingLine? {line : Text} (h : closingLine? (lines text) = some line) :
    (SectionKey.script.bodyIn (lines text)).getLast? = some line := by
  obtain ⟨s, -, hbody, -, hlast⟩ := exists_found_of_closingLine? h
  rw [hbody, hlast]

/-- What holds of all lines but the last holds of the parts around a body, of the body but for its last
line, and of this if more lines follow. -/
theorem forall_mem_dropLast_iff {holds : Text → Prop} {above body below : List Text} {header : Text}
    (hne : body ≠ []) :
    (∀ l ∈ (above ++ header :: (body ++ below)).dropLast, holds l) ↔
      ((∀ l ∈ above, holds l) ∧ holds header ∧ ∀ l ∈ below.dropLast, holds l) ∧
        (∀ l ∈ body.dropLast, holds l) ∧ (below ≠ [] → ∀ l ∈ body.getLast?, holds l) := by
  obtain ⟨front, last, rfl⟩ := (List.eq_nil_or_concat' body).resolve_left hne
  by_cases hbelow : below = []
  · subst hbelow
    have hsplit : above ++ header :: (front ++ [last] ++ []) = (above ++ header :: front) ++ [last] := by simp
    rw [hsplit, List.dropLast_concat, List.dropLast_concat]
    simp only [List.mem_append, List.mem_cons, or_imp, forall_and, forall_eq, List.dropLast_nil,
      List.not_mem_nil, false_imp_iff, implies_true, and_true, ne_eq, not_true_eq_false, and_assoc]
  · have hsplit : above ++ header :: (front ++ [last] ++ below) =
        (above ++ header :: (front ++ [last])) ++ below := by simp
    rw [hsplit, List.dropLast_append_of_ne_nil hbelow, List.dropLast_concat]
    simp only [List.mem_append, List.mem_cons, List.not_mem_nil, or_false, or_imp, forall_and, forall_eq,
      List.getLast?_concat, Option.mem_some, ne_eq, hbelow, not_false_eq_true, forall_const, forall_eq']
    tauto

theorem isPaired_iff_of_found {key : SectionKey} {s : Section} (hs : key.Found text s) (hne : s.body ≠ []) :
    IsPaired text ↔
      ((∀ l ∈ s.above, l.getLast? = some '\r') ∧ (key.name ++ ':' :: s.rest).getLast? = some '\r' ∧
          ∀ l ∈ s.below.dropLast, l.getLast? = some '\r') ∧
        (∀ l ∈ s.body.dropLast, l.getLast? = some '\r') ∧
          (s.below ≠ [] → ∀ l ∈ s.body.getLast?, l.getLast? = some '\r') := by
  rw [isPaired_iff_lines, hs.lines_eq, forall_mem_dropLast_iff hne]

/-- In a paired text the last line of the script keeps the carriage return of the pair behind it. -/
theorem getLast?_closingLine (h : IsPaired text) {line : Text} (hline : line ∈ closingLine? (lines text)) :
    line.getLast? = some '\r' := by
  obtain ⟨s, hs, -, hbelow, hlast⟩ := exists_found_of_closingLine? hline
  have hne : s.body ≠ [] := List.ne_nil_of_mem (List.mem_of_getLast? hlast)
  exact ((isPaired_iff_of_found hs hne).1 h).2.2 hbelow line hlast

/-- Whether another section follows the script and its last line ends without a carriage return. -/
def LacksReturn (text : Text) : Prop :=
  ∃ line ∈ closingLine? (lines text), line.getLast? ≠ some '\r'

theorem LacksReturn.not_isPaired (h : LacksReturn text) : ¬ IsPaired text := by
  obtain ⟨line, hline, hne⟩ := h
  exact fun hpaired => hne (getLast?_closingLine hpaired hline)

/-! ## Aligning -/

section

variable {change : List Text → List Text} {body : List Text}

/-- The pieces of a body whose lines are paired: the last one is the last line. -/
theorem split_of_paired (hne : body ≠ []) (hfree : ∀ l ∈ body, '\n' ∉ l)
    (hpaired : ∀ l ∈ body.dropLast, l.getLast? = some '\r') :
    IsCutIntoLines (unlines body) ∧
      ((LineEnd.ofText (unlines body)).split (unlines body)).getLast? = body.getLast? ∧
      (LineEnd.ofText (unlines body) = .lf → body.length = 1) := by
  have hcut : IsCutIntoLines (unlines body) := IsEven.isCutIntoLines (Or.inl hpaired) hfree
  have hlines : lines (unlines body) = body := lines_unlines hne hfree
  refine ⟨hcut, ?_, fun hlf => ?_⟩
  · cases hend : LineEnd.ofText (unlines body) with
    | lf => rw [show LineEnd.lf.split (unlines body) = lines (unlines body) from rfl, hlines]
    | crlf =>
        have hjoin := joinWith_split .crlf (unlines body)
        obtain ⟨front, last, hpieces⟩ :=
          (List.eq_nil_or_concat' (LineEnd.crlf.split (unlines body))).resolve_left (split_ne_nil _ _)
        unfold IsCutIntoLines at hcut
        rw [hend, hpieces] at hcut
        rw [hpieces] at hjoin ⊢
        have hsame := lines_joinWith_crlf hcut
        rw [hjoin, hlines] at hsame
        rw [hsame]
        simp
  · -- of several lines the first one ends with a carriage return
    by_contra hlength
    rw [ofText_eq_lf_iff_lines, hlines] at hlf
    obtain ⟨first, hfirst⟩ := List.exists_mem_of_ne_nil body.dropLast (by
      intro hnil
      have hshort := congrArg List.length hnil
      have hpos := List.length_pos_iff.2 hne
      simp at hshort
      omega)
    exact hlf first hfirst (hpaired first hfirst)

/-- Realigning such a body leaves its lines paired, and the last line is what became of the last piece. -/
theorem lines_realign_of_paired (h : Aligns change) (hne : body ≠ []) (hfree : ∀ l ∈ body, '\n' ∉ l)
    (hpaired : ∀ l ∈ body.dropLast, l.getLast? = some '\r') :
    (∀ l ∈ (lines (realign change (unlines body))).dropLast, l.getLast? = some '\r') ∧
      (lines (realign change (unlines body))).getLast? =
        (change ((LineEnd.ofText (unlines body)).split (unlines body))).getLast? := by
  obtain ⟨hcut, -, hsingle⟩ := split_of_paired hne hfree hpaired
  have hnew := h.lineFeed_not_mem hcut
  have hlength := (h ((LineEnd.ofText (unlines body)).split (unlines body))).length_eq
  have hnonempty := h.ne_nil (split_ne_nil (LineEnd.ofText (unlines body)) (unlines body))
  unfold realign
  cases hend : LineEnd.ofText (unlines body) with
  | lf =>
      rw [hend] at hnew hlength hnonempty
      have hone : (change (LineEnd.lf.split (unlines body))).length = 1 := by
        rw [← hlength, ← hsingle hend]
        exact congrArg List.length (lines_unlines hne hfree)
      rw [show lines (joinWith LineEnd.lf.text (change (LineEnd.lf.split (unlines body)))) =
        change (LineEnd.lf.split (unlines body)) from lines_unlines hnonempty hnew]
      refine ⟨fun l hl => ?_, rfl⟩
      obtain ⟨only, honly⟩ := List.length_eq_one_iff.1 hone
      rw [honly] at hl
      exact absurd hl List.not_mem_nil
  | crlf =>
      rw [hend] at hnew hnonempty
      obtain ⟨front, last, hpieces⟩ := (List.eq_nil_or_concat' _).resolve_left hnonempty
      rw [hpieces] at hnew ⊢
      rw [lines_joinWith_crlf hnew]
      simp

/-- The last line of an aligned script is the last of the lines of its aligned body. -/
theorem closingLine?_mapScript (h : Aligns change) (text : Text) :
    closingLine? (lines (mapScript change text)) =
      if closingLine? (lines text) = none then none
      else (lines (realign change (unlines (SectionKey.script.bodyIn (lines text))))).getLast? := by
  rcases exists_mapScript h text with ⟨heq, hbody⟩ | ⟨s, content, hs, hbody, hne, heq, hc, htop⟩
  · rw [heq, closingLine?_of_bodyIn_eq_nil hbody]
    simp
  · have hnew := SectionKey.found_of_find? (SectionKey.find?_withContent hs hc htop)
    rw [heq, closingLine?_of_found hnew, closingLine?_of_found hs, hbody]
    by_cases hbelow : s.below = []
    · simp [hbelow]
    · simp [hbelow, hne]

/-- In a paired text it is what becomes of the last piece. -/
theorem closingLine?_mapScript_of_paired (h : Aligns change) (htext : IsPaired text) :
    closingLine? (lines (mapScript change text)) =
      if closingLine? (lines text) = none then none else (change (scriptPieces text)).getLast? := by
  rw [closingLine?_mapScript h]
  rcases exists_mapScript h text with ⟨-, hbody⟩ | ⟨s, -, hs, hbody, hne, -, -, -⟩
  · rw [closingLine?_of_bodyIn_eq_nil hbody, if_pos rfl, if_pos rfl]
  · obtain ⟨-, hpaired, -⟩ := (isPaired_iff_of_found hs hne).1 htext
    have hfree : ∀ l ∈ s.body, '\n' ∉ l := fun l hl =>
      SectionKey.script.lineFeed_not_mem_of_mem_bodyIn (hbody ▸ hl)
    unfold scriptPieces
    rw [hbody, (lines_realign_of_paired h hne hfree hpaired).2]

/-- Aligning the script of a paired text leaves the text paired exactly if its last line keeps a carriage
return. -/
theorem isPaired_mapScript_iff (h : Aligns change) (htext : IsPaired text) :
    IsPaired (mapScript change text) ↔ ¬ LacksReturn (mapScript change text) := by
  refine ⟨fun hpaired hlacks => hlacks.not_isPaired hpaired, fun hkept => ?_⟩
  rcases exists_mapScript h text with ⟨heq, -⟩ | ⟨s, content, hs, hbody, hne, heq, hc, htop⟩
  · rwa [heq]
  · have hnew := SectionKey.found_of_find? (SectionKey.find?_withContent hs hc htop)
    have hfree : ∀ l ∈ s.body, '\n' ∉ l := fun l hl =>
      SectionKey.script.lineFeed_not_mem_of_mem_bodyIn (hbody ▸ hl)
    obtain ⟨haround, hpaired, -⟩ := (isPaired_iff_of_found hs hne).1 htext
    unfold LacksReturn at hkept
    rw [heq, closingLine?_of_found hnew] at hkept
    rw [heq, isPaired_iff_lines, SectionKey.lines_withContent hs hc, forall_mem_dropLast_iff (lines_ne_nil _)]
    refine ⟨haround, (lines_realign_of_paired h hne hfree hpaired).1, fun hbelow last hlast => ?_⟩
    by_contra hlost
    exact hkept ⟨last, by simpa [hbelow] using hlast, hlost⟩

/-- A last line without a carriage return does not get one back when it is aligned. -/
theorem LacksReturn.mapScript (hlacks : LacksReturn text) (h : Aligns change) (hcut : HasCutScript text) :
    LacksReturn (Scenarist.mapScript change text) := by
  obtain ⟨line, hline, hne⟩ := hlacks
  have hlast := getLast?_bodyIn_of_closingLine? hline
  have hfree : ∀ l ∈ SectionKey.script.bodyIn (lines text), '\n' ∉ l := fun l hl =>
    SectionKey.script.lineFeed_not_mem_of_mem_bodyIn hl
  have hbody : SectionKey.script.bodyIn (lines text) ≠ [] := by
    rintro hnil
    simp [hnil] at hlast
  -- the last lines before and after are related like any other two
  have hrelated := List.forall₂_reverse_iff.2 (forall₂_lines_realign h hcut)
  obtain ⟨front, hfront⟩ := List.getLast?_eq_some_iff.1 hlast
  rw [lines_unlines hbody hfree, hfront, List.reverse_concat] at hrelated
  obtain ⟨line', others, hsame, -, hreverse⟩ := List.forall₂_cons_left_iff.1 hrelated
  refine ⟨line', ?_, ?_⟩
  · rw [closingLine?_mapScript h, if_neg (by rw [hline]; simp), hfront, ← List.head?_reverse, hreverse]
    rfl
  · rcases hsame with (rfl | hrelaid) | ⟨p, p', -, rfl, rfl⟩
    · exact hne
    · exact hrelaid.getLast?_ne (hfree line (List.mem_of_getLast? hlast)) hne
    · exact absurd (by simp) hne

end

/-- The last piece of the script, if another section follows, is its last line with the carriage return. -/
theorem exists_scriptPieces (h : IsPaired text) {line : Text} (hline : line ∈ closingLine? (lines text)) :
    ∃ front, scriptPieces text = front ++ [line] ∧ '\n' ∉ line ∧ line.getLast? = some '\r' := by
  obtain ⟨s, hs, hbody, hbelow, hend⟩ := exists_found_of_closingLine? hline
  have hne : s.body ≠ [] := List.ne_nil_of_mem (List.mem_of_getLast? hend)
  have hfree : ∀ l ∈ s.body, '\n' ∉ l := fun l hl =>
    SectionKey.script.lineFeed_not_mem_of_mem_bodyIn (hbody ▸ hl)
  obtain ⟨-, hpaired, hclosing⟩ := (isPaired_iff_of_found hs hne).1 h
  obtain ⟨-, hlast, -⟩ := split_of_paired hne hfree hpaired
  obtain ⟨front, hfront⟩ := List.getLast?_eq_some_iff.1 (hlast.trans hend)
  refine ⟨front, ?_, hfree line (List.mem_of_getLast? hend), hclosing hbelow line hend⟩
  unfold scriptPieces
  rw [hbody]
  exact hfront

/-- Whether a section follows the script and its last line is a row of a table. -/
def EndsInRow (text : Text) : Prop :=
  ∃ line ∈ closingLine? (lines text), (TableRow.parse? line).isSome = true

instance : Decidable (EndsInRow text) := inferInstanceAs (Decidable (∃ line ∈ _, _))

/-- Whether a section follows the script and it ends with a run of assignments, the last one without a
value. -/
def EndsBare (text : Text) : Prop :=
  closingLine? (lines text) ≠ none ∧ AssignmentRun.EndsBare (scriptPieces text)

instance : Decidable (EndsBare text) := inferInstanceAs (Decidable (_ ∧ _))

theorem isPaired_alignScriptTables_iff (h : IsPaired text) :
    IsPaired (alignScriptTables text) ↔ ¬ EndsInRow text := by
  rw [alignScriptTables_eq, isPaired_mapScript_iff aligns_alignTables h, not_iff_not]
  unfold LacksReturn EndsInRow
  rw [closingLine?_mapScript_of_paired aligns_alignTables h]
  cases hclosing : closingLine? (lines text) with
  | none => simp
  | some line =>
      obtain ⟨front, hpieces, -, hreturn⟩ := exists_scriptPieces h hclosing
      obtain ⟨last, hlast, hiff⟩ := getLast?_alignTables front hreturn
      rw [hpieces, hlast]
      simp [hiff, Option.isSome_iff_ne_none]

theorem isPaired_alignScriptAssignments_iff (h : IsPaired text) :
    IsPaired (alignScriptAssignments text) ↔ ¬ EndsBare text := by
  rw [alignScriptAssignments_eq, isPaired_mapScript_iff aligns_alignAssignments h, not_iff_not]
  unfold LacksReturn EndsBare
  rw [closingLine?_mapScript_of_paired aligns_alignAssignments h]
  cases hclosing : closingLine? (lines text) with
  | none => simp
  | some line =>
      obtain ⟨front, hpieces, hfree, hreturn⟩ := exists_scriptPieces h hclosing
      obtain ⟨last, hlast, hiff⟩ := getLast?_alignAssignments front hfree hreturn
      rw [hpieces, hlast]
      simp [hiff]

theorem isPaired_expandLeadingTabs (h : IsPaired text) : IsPaired (expandLeadingTabs text) := by
  rw [isPaired_iff_lines] at h ⊢
  rw [lines_expandLeadingTabs, ← List.map_dropLast]
  intro l hl
  obtain ⟨line, hline, rfl⟩ := List.mem_map.1 hl
  exact (getLast?_expandTabs line).2 (h line hline)

/-! ## Sections that are written anew -/

theorem isPairedBehind_write_crlf (front item : Text) : IsPairedBehind front (LineEnd.crlf.write item) := by
  refine isPairedBehind_flatMap (fun c _ front => ?_) front
  split
  · exact isPairedBehind_crlf front
  · next hc => exact isPairedBehind_of_not_mem front (by simpa using Ne.symm hc)

theorem isPairedBehind_sectionContent (front : Text) (hasFollowing : Bool) (items : List Text) :
    IsPairedBehind front (sectionContent .crlf hasFollowing items) ∧
      (hasFollowing = true → (sectionContent .crlf hasFollowing items).getLast? = some '\r') := by
  have hitems : ∀ front, IsPairedBehind front
      (items.flatMap fun item => LineEnd.crlf.text ++ LineEnd.crlf.write item) := by
    refine isPairedBehind_flatMap fun item _ front => ?_
    rw [isPairedBehind_append]
    exact ⟨isPairedBehind_crlf front, isPairedBehind_write_crlf _ item⟩
  have htrailing : ∀ front, IsPairedBehind front ['\r', '\n', '\r'] := by
    intro front
    have hparts := isPairedBehind_append front ['\r', '\n'] ['\r']
    exact hparts.2 ⟨isPairedBehind_crlf front, isPairedBehind_of_not_mem _ (by decide)⟩
  unfold sectionContent
  cases hasFollowing with
  | false =>
      refine ⟨?_, by simp⟩
      dsimp only
      split
      · exact isPairedBehind_of_not_mem front List.not_mem_nil
      · rw [List.append_nil]
        exact hitems front
  | true =>
      dsimp only
      split
      · exact ⟨htrailing front, fun _ => rfl⟩
      · rw [isPairedBehind_append]
        exact ⟨⟨hitems front, htrailing _⟩, fun _ => by simp [List.getLast?_append]⟩

/-- A section of a paired text can be given any content that is paired behind its header and, if another
section follows, ends with the carriage return of the line feed behind it. -/
theorem isPaired_withContent {s : Section} {content : Text} (h : IsPaired s.text)
    (hcontent : IsPairedBehind (s.front ++ s.header) content)
    (hlast : s.hasFollowing = true → content.getLast? = some '\r') : IsPaired (s.withContent content) := by
  rw [Section.text, ← isPairedBehind_nil, isPairedBehind_append, isPairedBehind_append] at h
  obtain ⟨⟨hfront, -⟩, hback⟩ := h
  rw [Section.withContent, ← isPairedBehind_nil, isPairedBehind_append, isPairedBehind_append]
  refine ⟨⟨hfront, hcontent⟩, ?_⟩
  cases hbelow : s.below with
  | nil =>
      unfold Section.back
      rw [hbelow]
      exact isPairedBehind_of_not_mem _ List.not_mem_nil
  | cons line below =>
      -- the line feed behind the old content followed a carriage return, and so it does behind the new
      have hfollowing : s.hasFollowing = true := by simp [Section.hasFollowing, hbelow]
      have hreturn : ([] ++ (s.front ++ s.header ++ s.content)).getLast? = some '\r' := by
        unfold Section.back at hback
        rw [hbelow, List.flatMap_cons, List.cons_append, isPairedBehind_cons] at hback
        exact hback.1 rfl
      refine hback.congr ?_
      rw [hreturn, List.nil_append, List.getLast?_append, hlast hfollowing]
      rfl

/-- A section of a paired text that is written anew leaves the text paired, whatever its items hold. -/
theorem isPaired_refill (h : IsPaired text) (key : SectionKey) (names : List Text) {rendered : List Text}
    (hmem : rendered ≠ [] → '\n' ∈ text) : IsPaired (key.refill names rendered text).text := by
  unfold SectionKey.refill
  cases hfind : key.find? text with
  | none => exact h
  | some s =>
      have htext : IsPaired s.text := Section.text_of_find? hfind ▸ h
      dsimp only
      by_cases hfeed : '\n' ∈ text
      · obtain ⟨hcontent, hlast⟩ :=
          isPairedBehind_sectionContent (s.front ++ s.header) s.hasFollowing rendered
        rw [h.ofText_eq hfeed]
        exact isPaired_withContent htext hcontent hlast
      · -- without a line feed there is one line, which is the header
        have hnone : rendered = [] := by
          by_contra hne
          exact hfeed (hmem hne)
        have hlines := (SectionKey.found_of_find? hfind).lines_eq
        rw [lines_of_not_mem hfeed] at hlines
        have hbelow : s.below = [] := by
          have hlength := congrArg List.length hlines
          simp at hlength
          exact List.eq_nil_of_length_eq_zero (by omega)
        have hfollowing : s.hasFollowing = false := by simp [Section.hasFollowing, hbelow]
        rw [hnone, hfollowing]
        exact isPaired_withContent htext (isPairedBehind_of_not_mem _ List.not_mem_nil)
          (by simp [hfollowing])

theorem lineFeed_mem_of_bodyIn_ne_nil {key : SectionKey} (h : key.bodyIn (lines text) ≠ []) : '\n' ∈ text := by
  have hlength := SectionKey.two_le_length_of_bodyIn_ne_nil h
  by_contra hfree
  rw [lines_of_not_mem hfree] at hlength
  exact absurd hlength (by simp)

theorem isPaired_regenerateNested (h : IsPaired text) (index : Index) (supply : UidSupply) :
    IsPaired (regenerateNested index supply text).1.text := by
  rw [regenerateNested_eq]
  exact isPaired_refill h _ _ fun hne =>
    lineFeed_mem_of_bodyIn_ne_nil (bodyIn_ne_nil_of_render_nestedFields hne)

theorem isPaired_regenerateParameters (h : IsPaired text) (session : Session) (uri : Text)
    (exclusions : List Text) : IsPaired (regenerateParameters session uri text exclusions).1.text := by
  rw [regenerateParameters_eq]
  exact isPaired_refill h _ _ fun hne =>
    lineFeed_mem_of_bodyIn_ne_nil (bodyIn_ne_nil_of_render_parameterItems hne)

/-! ## The default steps -/

theorem LineEnd.IsPaired.isThroughout (h : IsPaired text) : IsThroughout text := Or.inr (isPaired_iff_lines.1 h)

namespace RepairConfig

variable (config : RepairConfig)

/-- Whether aligning takes a carriage return from the last line of the script: it is a row of a table, or a
bare assignment that ends a run, and another section follows. -/
def LosesReturn (text : Text) : Prop :=
  (config.alignTables = true ∧ EndsInRow (config.normalized text)) ∨
    (config.alignAssignments = true ∧ EndsBare (config.withTables text))

instance : Decidable (config.LosesReturn text) := inferInstanceAs (Decidable (_ ∨ _))

theorem isPaired_normalized (h : IsPaired text) : IsPaired (config.normalized text) := by
  unfold normalized
  split
  · exact isPaired_expandLeadingTabs h
  · exact h

theorem isPaired_withTables_iff (h : IsPaired text) :
    IsPaired (config.withTables text) ↔ ¬ (config.alignTables = true ∧ EndsInRow (config.normalized text)) := by
  have hnormalized := config.isPaired_normalized h
  unfold withTables
  cases config.alignTables with
  | false => simpa using hnormalized
  | true => simpa using isPaired_alignScriptTables_iff hnormalized

theorem isPaired_laidOut_of_isPaired_withTables (h : IsPaired (config.withTables text)) :
    IsPaired (config.laidOut text) ↔
      ¬ (config.alignAssignments = true ∧ EndsBare (config.withTables text)) := by
  unfold laidOut
  cases config.alignAssignments with
  | false => simpa using h
  | true => simpa using isPaired_alignScriptAssignments_iff h

/-- The text that is laid out lacks a carriage return at the end of its script if one was lost. -/
theorem lacksReturn_laidOut (h : IsPaired text) (hloses : config.LosesReturn text) :
    LacksReturn (config.laidOut text) := by
  have hcut := config.hasCutScript_withTables (h.isThroughout.isEven_bodyIn .script)
  have hnormalized := config.isPaired_normalized h
  by_cases htables : IsPaired (config.withTables text)
  · have hbare := hloses.resolve_left ((config.isPaired_withTables_iff h).1 htables)
    have hlost := mt (config.isPaired_laidOut_of_isPaired_withTables htables).1 (not_not_intro hbare)
    unfold laidOut at hlost ⊢
    rw [if_pos hbare.1] at hlost ⊢
    exact not_not.1 (mt (isPaired_mapScript_iff aligns_alignAssignments htables).2 hlost)
  · -- what the tables have lost, the assignments do not bring back
    have hlacks : LacksReturn (config.withTables text) := by
      have hrow := not_not.1 (mt (config.isPaired_withTables_iff h).2 htables)
      unfold withTables at htables ⊢
      rw [if_pos hrow.1] at htables ⊢
      exact not_not.1 (mt (isPaired_mapScript_iff aligns_alignTables hnormalized).2 htables)
    unfold laidOut
    split
    · exact hlacks.mapScript aligns_alignAssignments hcut
    · exact hlacks

end RepairConfig

namespace Executor

variable {executor : Executor} {uri : Text} {desk desk' : Desk} {steps : List RepairStep}
  {holds : Text → Prop}

/-- Whether something holds of a text and of what each of some steps, one after the other, makes of it. -/
def HoldsThroughout (executor : Executor) (uri : Text) (steps : List RepairStep) (text : Text)
    (desk : Desk) (holds : Text → Prop) : Prop :=
  ∀ front, front <+: steps → ∀ middle applied desk',
    executor.runSteps uri front text desk = (.ok (middle, applied), desk') → holds middle

theorem holdsThroughout_nil :
    executor.HoldsThroughout uri [] text desk holds ↔ holds text := by
  constructor
  · exact fun h => h [] (List.prefix_refl _) text [] desk rfl
  · intro h front hfront middle applied desk' hrun
    obtain rfl := List.prefix_nil.1 hfront
    obtain ⟨⟨rfl, -⟩, -⟩ : (text = middle ∧ [] = applied) ∧ desk = desk' := by simpa [runSteps] using hrun
    exact h

theorem holdsThroughout_cons_iff {step : RepairStep} :
    executor.HoldsThroughout uri (step :: steps) text desk holds ↔
      holds text ∧ ∀ updated between, step.action.run executor uri text desk = (.ok updated, between) →
        executor.HoldsThroughout uri steps updated between holds := by
  constructor
  · intro h
    refine ⟨h [] List.nil_prefix text [] desk rfl, fun updated between hstep front hfront middle applied
      desk' hrun => ?_⟩
    exact h (step :: front) (List.cons_prefix_cons.2 ⟨rfl, hfront⟩) middle _ desk'
      (runSteps_cons_iff.2 ⟨updated, between, applied, hstep, hrun, rfl⟩)
  · rintro ⟨hhere, hrest⟩ front hfront middle applied desk' hrun
    rcases List.prefix_cons_iff.1 hfront with rfl | ⟨others, rfl, hothers⟩
    · obtain ⟨⟨rfl, -⟩, -⟩ : (text = middle ∧ [] = applied) ∧ desk = desk' := by
        simpa [runSteps] using hrun
      exact hhere
    · obtain ⟨updated, between, rest, hstep, hrun, -⟩ := runSteps_cons_iff.1 hrun
      exact hrest updated between hstep others hothers middle rest desk' hrun

/-- A step that changes the text by a function is taken on or left out. -/
theorem holdsThroughout_ofFunction_iff (flag : Bool) {name : String} {change : Text → Text} :
    executor.HoldsThroughout uri ((if flag then [RepairStep.ofFunction name change] else []) ++ steps) text
        desk holds ↔
      holds text ∧ executor.HoldsThroughout uri steps (if flag then change text else text) desk holds := by
  cases flag with
  | false =>
      simp only [Bool.false_eq_true, if_false, List.nil_append]
      exact ⟨fun h => ⟨h [] List.nil_prefix text [] desk rfl, h⟩, And.right⟩
  | true =>
      simp only [if_true, List.singleton_append]
      rw [holdsThroughout_cons_iff]
      refine and_congr_right fun _ => ⟨fun h => h _ _ rfl, fun h updated between hstep => ?_⟩
      obtain ⟨rfl, rfl⟩ : change text = updated ∧ desk = between := by
        simpa [RepairStep.ofFunction, StepAction.edit, StepAction.run] using hstep
      exact h

/-- Steps that all keep something. -/
theorem holdsThroughout_of_keeps
    (h : ∀ step ∈ steps, ∀ text updated desk desk', step.action.run executor uri text desk =
      (.ok updated, desk') → holds text → holds updated) (htext : holds text) :
    executor.HoldsThroughout uri steps text desk holds := by
  induction steps generalizing text desk with
  | nil => exact holdsThroughout_nil.2 htext
  | cons step steps ih =>
      refine holdsThroughout_cons_iff.2 ⟨htext, fun updated between hstep => ?_⟩
      exact ih (fun other hother => h other (List.mem_cons_of_mem _ hother))
        (h step List.mem_cons_self text updated desk between hstep htext)

/-- The steps behind the layout leave a paired text paired. -/
theorem isPaired_run {action : StepAction}
    (haction : action = .index ∨ action = .nested ∨ action = .parameters) {updated : Text}
    (hrun : action.run executor uri text desk = (.ok updated, desk')) (h : IsPaired text) :
    IsPaired updated := by
  rcases haction with rfl | rfl | rfl
  · obtain ⟨-, rfl, -⟩ := run_index_iff.1 hrun
    exact h
  · rcases run_nested_iff.1 hrun with ⟨-, rfl, -⟩ | ⟨-, -, rfl, -⟩
    · exact h
    · exact isPaired_regenerateNested h _ _
  · obtain ⟨-, rfl, -⟩ := run_parameters_iff.1 hrun
    exact isPaired_regenerateParameters h _ _ _

/-- A paired text stays paired throughout a pass exactly if its layout can be put in order without the loss
of a carriage return. -/
theorem holdsThroughout_isPaired_iff (config : RepairConfig) (h : IsPaired text) :
    executor.HoldsThroughout uri (RepairStep.ofConfig config) text desk IsPaired ↔
      ¬ config.LosesReturn text := by
  obtain ⟨back, hsteps, hback⟩ := RepairStep.exists_ofConfig_eq config
  -- entering the document and the steps behind it keep what there is, so the layout decides
  have hrest : ∀ start, executor.HoldsThroughout uri (RepairStep.index :: back) start desk IsPaired ↔
      IsPaired start := by
    refine fun start => ⟨fun hheld => hheld [] List.nil_prefix start [] desk rfl,
      holdsThroughout_of_keeps fun step hstep text updated desk desk' hrun => ?_⟩
    rcases List.mem_cons.1 hstep with rfl | hstep
    · exact isPaired_run (Or.inl rfl) hrun
    · exact isPaired_run (Or.inr (hback step hstep)) hrun
  calc executor.HoldsThroughout uri (RepairStep.ofConfig config) text desk IsPaired
      ↔ IsPaired text ∧ IsPaired (config.normalized text) ∧ IsPaired (config.withTables text) ∧
          IsPaired (config.laidOut text) := by
        rw [hsteps, RepairStep.normalizeTabs, RepairStep.alignTables, RepairStep.alignAssignments,
          holdsThroughout_ofFunction_iff, holdsThroughout_ofFunction_iff, holdsThroughout_ofFunction_iff,
          hrest]
        rfl
    _ ↔ IsPaired (config.withTables text) ∧ IsPaired (config.laidOut text) := by
        simp only [h, config.isPaired_normalized h, true_and]
    _ ↔ ¬ config.LosesReturn text := by
        unfold RepairConfig.LosesReturn
        rw [not_or, ← config.isPaired_withTables_iff h]
        exact and_congr_right fun htables => config.isPaired_laidOut_of_isPaired_withTables htables

variable {config : RepairConfig} {exclusions : List Text} {result : RepairResult}

/-- Sections that are written anew leave the last line of the script. -/
theorem closingLine?_of_runSteps {final : Text} {applied : List Text}
    (hsupplies : Supplies (fun value => '\n' ∉ value) uri text desk)
    (hself : IfSelfCalled config uri text desk fun record => ∀ uid ∈ record.uid, '\n' ∉ uid)
    (hrun : executor.runSteps uri (RepairStep.ofConfig config) text desk = (.ok (final, applied), desk')) :
    closingLine? (lines final) = closingLine? (lines (config.laidOut text)) := by
  obtain ⟨-, middle, between, hnested, hparameters, -⟩ := runSteps_ofConfig_iff.1 hrun
  refine (steps_induction hsupplies hself hnested hparameters
    (motive := fun t => closingLine? (lines t) = closingLine? (lines (config.laidOut text))) rfl
    fun key items names t hkey hitems _ ht => ?_).2
  refine Eq.trans ?_ ht
  rcases rewritten_refill hitems key names t with heq | hrewritten
  · rw [heq]
  · unfold closingLine?
    rw [hrewritten.blockIn_eq (by rcases hkey with rfl | rfl <;> decide)]

/-- A text whose line feeds all follow carriage returns stays so throughout a pass, whatever index, session
and values the pass works with, exactly if no carriage return is lost at the end of the script; and if no
value that is written holds a line feed, the result shows which. -/
theorem isPaired_repairText_iff (h : IsPaired text) :
    ((config.executor exclusions).HoldsThroughout uri (RepairStep.ofConfig config) text desk IsPaired ↔
        ¬ config.LosesReturn text) ∧
      (Supplies (fun value => '\n' ∉ value) uri text desk →
        (IfSelfCalled config uri text desk fun record => ∀ uid ∈ record.uid, '\n' ∉ uid) →
        ∀ result desk', (config.executor exclusions).repairText uri text desk = (.ok result, desk') →
          (IsPaired result.text ↔ ¬ config.LosesReturn text)) := by
  have hsteps : (config.executor exclusions).HoldsThroughout uri (RepairStep.ofConfig config) text desk
      IsPaired ↔ ¬ config.LosesReturn text := holdsThroughout_isPaired_iff config h
  refine ⟨hsteps, fun hsupplies hself result desk' hrepair => ?_⟩
  have hrun := repairText_eq_ok hrepair
  constructor
  · intro hpaired hloses
    obtain ⟨line, hline, hlost⟩ := config.lacksReturn_laidOut h hloses
    rw [← closingLine?_of_runSteps hsupplies hself hrun] at hline
    exact hlost (getLast?_closingLine hpaired hline)
  · exact fun hkept => hsteps.2 hkept _ (List.prefix_refl _) _ _ _ hrun

/-! ## Documents with tables -/

def documentEndingIn (line : String) : Text :=
  joinWith LineEnd.crlf.text ["ТекстСценария: |".toList, "    | a | b |".toList, line.toList,
    "KOTМетаданные:".toList, []]

theorem isPaired_repairText_blankEnd :
    ∃ final, IsPaired (documentEndingIn "") ∧ repaired (documentEndingIn "") = some final ∧
      IsPaired final := by
  have hpaired : IsPaired (documentEndingIn "") := by decide +kernel
  have hended : (repaired (documentEndingIn "")).isSome = true := by decide +kernel
  rcases hrun : (RepairConfig.executor {} []).repairText "/a".toList (documentEndingIn "") bareDesk with
    ⟨_ | result, desk⟩
  · rw [repaired, hrun] at hended
    exact absurd hended (by simp [Except.toOption])
  · have hsupplies : Supplies Scalar.IsLiteral "/a".toList (documentEndingIn "") bareDesk :=
      supplies_bareDesk (by decide +kernel) (by decide +kernel)
    have hself : IfSelfCalled {} "/a".toList (documentEndingIn "") bareDesk
        fun record => ∀ uid ∈ record.uid, '\n' ∉ uid := ifSelfCalled_of_calledNames (by decide +kernel)
    have hkept := (isPaired_repairText_iff hpaired).2
      (hsupplies.mono fun value hvalue => hvalue.not_mem (by decide)) hself result desk hrun
    exact ⟨result.text, hpaired, by rw [repaired, hrun]; rfl, hkept.2 (by decide +kernel)⟩

theorem not_isPaired_repairText_rowEnd :
    IsPaired (documentEndingIn "    | c | d |") ∧
      (repaired (documentEndingIn "    | c | d |")).map (fun text => decide (IsPaired text)) =
        some false := by
  decide +kernel

end Executor

end

end Scenarist
