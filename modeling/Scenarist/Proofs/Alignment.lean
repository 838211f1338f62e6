import Scenarist.Alignment
import Scenarist.Proofs.Scalar
import Scenarist.Proofs.Section
import Scenarist.Proofs.StepLine
import Scenarist.Proofs.Text.LineEnd

set_option autoImplicit false

/-! # Aligned lines

Aligning puts some lines into a new layout and leaves the others as they are. A line in a new layout keeps
what is in front of it and its first character, so nothing that looks at the beginning of a line tells the
two apart; and it is read as the same row or assignment, so that aligning a second time changes nothing.

Main statements: `alignTables_alignTables`, `alignAssignments_alignAssignments` (aligned lines stay),
`alignTables_alignAssignments` (aligning assignments leaves aligned tables aligned) and
`forall₂_realigned_alignTables`, `forall₂_realigned_alignAssignments` (what may become of a line). -/

namespace Scenarist

open Text

/-! ## Lines in a new layout -/

/-- A line in a new layout: the blanks in front and the first character behind them are those of the old
line, which is no comment, and the rest has no line feed and no characters but those of the old line and
of the layout. -/
structure Relaid (old new : Text) : Prop where
  exists_parts : ∃ indent c tail tail', old = indent ++ c :: tail ∧ new = indent ++ c :: tail' ∧
    (∀ d ∈ indent, isBlank d = true) ∧ isBlank c = false ∧ c ≠ '#' ∧ '\n' ∉ c :: tail' ∧
    isTopLevelKey (c :: tail') = false ∧
    (∀ d ∈ tail', d ∈ tail ∨ d = ' ' ∨ d = '|' ∨ d = '=') ∧
    ('\n' ∉ tail → tail'.getLast? = some '\r' → tail.getLast? = some '\r')

/-- What aligning may make of a line. -/
def Realigned (old new : Text) : Prop := new = old ∨ Relaid old new

theorem Realigned.refl (line : Text) : Realigned line line := Or.inl rfl

namespace TableRow

/-! ## Rows of tables -/

/-- Whether a row can have been read of a line. -/
structure IsRead (row : TableRow) : Prop where
  indent : ∀ c ∈ row.indent, isBlank c = true
  cells_ne_nil : row.cells ≠ []
  cells : ∀ cell ∈ row.cells, strip cell = cell ∧ '|' ∉ cell ∧ '\n' ∉ cell

theorem parse?_eq_some {line : Text} {row : TableRow} (h : parse? line = some row) :
    ∃ middle, strip line = '|' :: middle ++ ['|'] ∧ '\n' ∉ middle ∧
      row = ⟨leadingBlanks line, (splitOn '|' middle).map strip⟩ := by
  unfold parse? at h
  split at h
  · next rest hstrip =>
    simp only [] at h
    split at h
    · next hcond =>
      obtain rfl := Option.some.inj h
      simp only [Bool.and_eq_true, decide_eq_true_eq, Bool.not_eq_true', List.elem_eq_contains,
        List.contains_eq_mem, decide_eq_false_iff_not] at hcond
      obtain ⟨front, rfl⟩ := List.getLast?_eq_some_iff.1 hcond.1
      rw [List.dropLast_concat] at hcond ⊢
      exact ⟨front, by rw [hstrip, List.cons_append], hcond.2, rfl⟩
    · simp at h
  · simp at h

theorem isRead_of_parse? {line : Text} {row : TableRow} (h : parse? line = some row) :
    row.IsRead := by
  obtain ⟨middle, hstrip, hfree, rfl⟩ := parse?_eq_some h
  refine ⟨fun c hc => isBlank_of_mem_leadingBlanks hc, ?_, ?_⟩
  · simpa using splitOn_ne_nil '|' middle
  · intro cell hcell
    obtain ⟨piece, hpiece, rfl⟩ := List.mem_map.1 hcell
    refine ⟨strip_strip piece, fun hbar => ?_, fun hline => ?_⟩
    · exact not_mem_of_mem_splitOn hpiece (mem_of_mem_strip hbar)
    · exact hfree (mem_of_mem_splitOn hpiece (mem_of_mem_strip hline))

theorem cell_eq {row : TableRow} (h : row.IsRead) (column : Nat) :
    strip (row.cell column) = row.cell column ∧ '|' ∉ row.cell column ∧
      '\n' ∉ row.cell column := by
  unfold cell
  cases hcell : row.cells[column]? with
  | none => exact ⟨rfl, by simp, by simp⟩
  | some found => exact h.cells found (List.mem_of_getElem? hcell)

theorem exists_mem_cells_of_mem_cell {row : TableRow} {column : Nat} {c : Char} (h : c ∈ row.cell column) :
    ∃ cell ∈ row.cells, c ∈ cell := by
  unfold cell at h
  cases hcell : row.cells[column]? with
  | none =>
      rw [hcell] at h
      exact absurd h List.not_mem_nil
  | some found =>
      rw [hcell] at h
      exact ⟨found, List.mem_of_getElem? hcell, h⟩

/-- The row with empty cells behind its own, up to so many columns. -/
def filled (columns : Nat) (row : TableRow) : TableRow :=
  ⟨row.indent, (List.range columns).map row.cell⟩

theorem cell_filled {columns column : Nat} (h : column < columns) (row : TableRow) :
    (row.filled columns).cell column = row.cell column := by
  simp [filled, cell, h]

/-- What stands between the outer bars of a row that is laid out. -/
def middleOf (padded : List Text) : Text :=
  joinWith ['|'] (padded.map fun cell => ' ' :: cell ++ [' '])

theorem space_joinWith_space {padded : List Text} (hne : padded ≠ []) :
    ' ' :: joinWith " | ".toList padded ++ [' '] = middleOf padded := by
  have hsep : " | ".toList = [' ', '|', ' '] := rfl
  unfold middleOf
  induction padded with
  | nil => exact absurd rfl hne
  | cons p ps ih =>
      cases ps with
      | nil => simp [joinWith_singleton]
      | cons q qs =>
          have hrest := ih (by simp)
          rw [List.map_cons] at hrest
          rw [List.map_cons, List.map_cons, joinWith_cons_cons, joinWith_cons_cons, ← hrest, hsep]
          simp

/-- The cells of a row, each with the spaces that make it as wide as its column. -/
def padded (widths : List Nat) (row : TableRow) : List Text :=
  widths.zipIdx.map fun (width, column) => padRight width (row.cell column)

theorem padded_ne_nil {widths : List Nat} (hne : widths ≠ []) (row : TableRow) : row.padded widths ≠ [] := by
  simpa [padded] using hne

theorem render_eq {widths : List Nat} (hne : widths ≠ []) (row : TableRow) :
    render widths row = row.indent ++ '|' :: middleOf (row.padded widths) ++ ['|'] := by
  have hopening : "| ".toList = ['|', ' '] := rfl
  have hclosing : " |".toList = [' ', '|'] := rfl
  rw [← space_joinWith_space (padded_ne_nil hne row)]
  simp [render, padded, hopening, hclosing]

theorem mem_padRight {width : Nat} {text : Text} {c : Char} (h : c ∈ padRight width text) :
    c ∈ text ∨ c = ' ' := by
  rcases List.mem_append.1 h with h | h
  · exact Or.inl h
  · exact Or.inr (List.eq_of_mem_replicate h)

theorem mem_of_mem_padded {widths : List Nat} {row : TableRow} {p : Text} (hp : p ∈ row.padded widths) {c : Char}
    (h : c ∈ p) : (∃ cell ∈ row.cells, c ∈ cell) ∨ c = ' ' := by
  obtain ⟨entry, -, rfl⟩ := List.mem_map.1 hp
  exact (mem_padRight h).imp_left exists_mem_cells_of_mem_cell

theorem bar_not_mem_of_mem_padded {widths : List Nat} {row : TableRow} (h : row.IsRead) :
    ∀ p ∈ row.padded widths, '|' ∉ p := by
  intro p hp hbar
  rcases mem_of_mem_padded hp hbar with ⟨cell, hcell, hbar⟩ | hbar
  · exact (h.cells cell hcell).2.1 hbar
  · exact absurd hbar (by decide)

theorem strip_padded (width : Nat) (text : Text) :
    strip (' ' :: padRight width text ++ [' ']) = strip text := by
  have hafter : ∀ c ∈ List.replicate (width - text.length) ' ' ++ [' '], isBlank c = true := by
    intro c hc
    have : c = ' ' := by
      rcases List.mem_append.1 hc with hc | hc
      · exact List.eq_of_mem_replicate hc
      · exact List.mem_singleton.1 hc
    rw [this]
    decide
  have := @strip_around [' '] _ isBlank_of_mem_space hafter text
  simpa [padRight] using this

/-- The cells between the bars of a row that is laid out. -/
theorem splitOn_middleOf {padded : List Text} (hne : padded ≠ []) (h : ∀ p ∈ padded, '|' ∉ p) :
    splitOn '|' (middleOf padded) = padded.map fun cell => ' ' :: cell ++ [' '] := by
  unfold middleOf
  refine splitOn_joinWith (by simpa using hne) ?_
  intro p hp
  obtain ⟨cell, hcell, rfl⟩ := List.mem_map.1 hp
  simp [h cell hcell]

theorem mem_middleOf {padded : List Text} {c : Char} (h : c ∈ middleOf padded) :
    (∃ p ∈ padded, c ∈ p) ∨ c = ' ' ∨ c = '|' := by
  unfold middleOf joinWith at h
  induction padded with
  | nil => simp [List.intercalate] at h
  | cons p ps ih =>
      cases ps with
      | nil =>
          have : c = ' ' ∨ c ∈ p ∨ c = ' ' := by simpa [List.intercalate] using h
          rcases this with h | h | h
          · exact Or.inr (Or.inl h)
          · exact Or.inl ⟨p, List.mem_cons_self, h⟩
          · exact Or.inr (Or.inl h)
      | cons q qs =>
          rw [List.map_cons, List.map_cons, List.intercalate_cons_cons, List.mem_append,
            List.mem_append] at h
          rcases h with (h | h) | h
          · have : c = ' ' ∨ c ∈ p ∨ c = ' ' := by simpa using h
            rcases this with h | h | h
            · exact Or.inr (Or.inl h)
            · exact Or.inl ⟨p, List.mem_cons_self, h⟩
            · exact Or.inr (Or.inl h)
          · exact Or.inr (Or.inr (List.mem_singleton.1 h))
          · rcases ih h with ⟨found, hfound, hc⟩ | hc
            · exact Or.inl ⟨found, List.mem_cons_of_mem _ hfound, hc⟩
            · exact Or.inr hc

theorem lineFeed_not_mem_middleOf {widths : List Nat} {row : TableRow} (h : row.IsRead) :
    '\n' ∉ middleOf (row.padded widths) := by
  intro hmid
  rcases mem_middleOf hmid with ⟨p, hp, hc⟩ | hc | hc
  · rcases mem_of_mem_padded hp hc with ⟨cell, hcell, hc⟩ | hc
    · exact (h.cells cell hcell).2.2 hc
    · exact absurd hc (by decide)
  · exact absurd hc (by decide)
  · exact absurd hc (by decide)

/-- Between the bars stand the cells of the row, also those of the columns that the row itself does not have. -/
theorem splitOn_middleOf_padded {widths : List Nat} (hne : widths ≠ []) {row : TableRow} (h : row.IsRead) :
    (splitOn '|' (middleOf (row.padded widths))).map strip = (List.range widths.length).map row.cell := by
  have hcolumn : ∀ entry : Nat × Nat,
      strip (' ' :: padRight entry.1 (row.cell entry.2) ++ [' ']) = row.cell entry.2 :=
    fun entry => (strip_padded entry.1 _).trans (cell_eq h entry.2).1
  rw [splitOn_middleOf (padded_ne_nil hne row) (bar_not_mem_of_mem_padded h), List.map_map, padded, List.map_map]
  calc widths.zipIdx.map _ = widths.zipIdx.map (fun entry => row.cell entry.2) :=
        List.map_congr_left fun entry _ => hcolumn entry
    _ = (widths.zipIdx.map Prod.snd).map row.cell := by rw [List.map_map]; rfl
    _ = (List.range widths.length).map row.cell := by
        rw [List.zipIdx_map_snd, List.range_eq_range']

/-- A row that is laid out is read as the row that it was. -/
theorem parse?_render {widths : List Nat} (hne : widths ≠ []) {row : TableRow} (h : row.IsRead) :
    parse? (render widths row) = some (row.filled widths.length) := by
  have hrender := render_eq hne row
  have hstrip : strip (render widths row) = '|' :: middleOf (row.padded widths) ++ ['|'] := by
    have := @strip_around _ [] h.indent (by simp) ('|' :: middleOf (row.padded widths) ++ ['|'])
    rw [List.append_nil, strip_cons_concat (by decide) (by decide)] at this
    rw [hrender, ← this]
    simp
  have hindent : leadingBlanks (render widths row) = row.indent := by
    rw [hrender, List.append_assoc, List.cons_append]
    exact leadingBlanks_append h.indent (by decide) _
  have hline := @lineFeed_not_mem_middleOf widths row h
  have hcells := splitOn_middleOf_padded hne h
  unfold parse?
  rw [hstrip]
  simp [hline, hindent, hcells, filled]

/-! ## Neighbouring rows -/

theorem widths_ne_nil {rows : List TableRow} (hne : rows ≠ []) (h : ∀ row ∈ rows, row.IsRead) :
    widths rows ≠ [] := by
  obtain ⟨row, hrow⟩ := List.exists_mem_of_ne_nil rows hne
  have hlength : 0 < row.cells.length := List.length_pos_iff.2 (h row hrow).cells_ne_nil
  unfold widths
  cases hmax : (rows.map (·.cells.length)).max? with
  | none => simp [hne] at hmax
  | some n =>
      have hle := (List.max?_eq_some_iff.1 hmax).2 row.cells.length
        (List.mem_map.2 ⟨row, hrow, rfl⟩)
      simp
      omega

def columns (rows : List TableRow) : Nat := ((rows.map (·.cells.length)).max?).getD 0

def columnWidth (rows : List TableRow) (column : Nat) : Nat :=
  ((rows.map fun row => (row.cell column).length).max?).getD 0

theorem widths_eq (rows : List TableRow) :
    widths rows = (List.range (columns rows)).map (columnWidth rows) := rfl

theorem length_widths (rows : List TableRow) : (widths rows).length = columns rows := by
  rw [widths_eq, List.length_map, List.length_range]

theorem widths_map_filled {rows : List TableRow} (hne : rows ≠ []) :
    widths (rows.map (filled (widths rows).length)) = widths rows := by
  rw [length_widths]
  have hcolumns : columns (rows.map (filled (columns rows))) = columns rows := by
    have hconst : (rows.map (filled (columns rows))).map (·.cells.length) =
        List.replicate rows.length (columns rows) := by
      rw [List.map_map, ← List.map_const']
      exact List.map_congr_left fun row _ => by simp [filled]
    have hpos : 0 < rows.length := List.length_pos_iff.2 hne
    rw [columns, hconst, List.max?_replicate_of_pos hpos]
    rfl
  rw [widths_eq (rows.map _), hcolumns, widths_eq]
  refine List.map_congr_left fun column hcolumn => ?_
  -- a cell that is filled in is as empty as the one that was missing
  have hcells : (rows.map (filled (columns rows))).map (fun row => (row.cell column).length) =
      rows.map fun row => (row.cell column).length := by
    rw [List.map_map]
    refine List.map_congr_left fun row _ => ?_
    rw [Function.comp_apply, cell_filled (List.mem_range.1 hcolumn)]
  unfold columnWidth
  rw [hcells]

theorem render_filled (widths : List Nat) (row : TableRow) :
    render widths (row.filled widths.length) = render widths row := by
  have hcell : ∀ entry ∈ widths.zipIdx,
      padRight entry.1 ((row.filled widths.length).cell entry.2) =
        padRight entry.1 (row.cell entry.2) := by
    intro entry hentry
    have hcolumn : entry.2 < widths.length := by simpa using List.snd_lt_of_mem_zipIdx hentry
    rw [cell_filled hcolumn]
  unfold render
  rw [List.map_congr_left hcell]
  rfl

/-- Rows that are laid out and read again are laid out in the same way. -/
theorem renderAll_map_filled (rows : List TableRow) :
    renderAll (rows.map (filled (widths rows).length)) = renderAll rows := by
  cases rows with
  | nil => rfl
  | cons row rows =>
      unfold renderAll
      rw [widths_map_filled (by simp), ← List.map_reverse, List.map_map]
      exact List.map_congr_left fun found _ => render_filled _ found

/-! ## Runs of rows -/

/-- Lines and the rows that they are. -/
abbrev AreRows (lines : List Text) (rows : List TableRow) : Prop :=
  List.Forall₂ (fun line row => parse? line = some row) lines rows

theorem AreRows.isRead {lines : List Text} {rows : List TableRow} (h : AreRows lines rows) :
    ∀ row ∈ rows, row.IsRead := by
  intro row hrow
  obtain ⟨line, -, hline⟩ := exists_mem_of_forall₂ h hrow
  exact isRead_of_parse? hline

/-- Lines begin with a run of rows, which ends with the lines or at a line that is no row. -/
theorem exists_run (lines : List Text) :
    ∃ run rows rest, lines = run ++ rest ∧ AreRows run rows ∧
      ∀ l ∈ rest.head?, parse? l = none := by
  induction lines with
  | nil => exact ⟨[], [], [], rfl, .nil, by simp⟩
  | cons line lines ih =>
      cases hline : parse? line with
      | none => exact ⟨[], [], line :: lines, rfl, .nil, by simpa using hline⟩
      | some row =>
          obtain ⟨run, rows, rest, rfl, hrows, hrest⟩ := ih
          exact ⟨line :: run, row :: rows, rest, rfl, .cons hline hrows, hrest⟩

/-- Induction on the runs of rows: what is to be shown of all lines is shown of a run and the lines that end it,
if it holds of the lines behind the first of these. -/
theorem runs_induction {motive : List Text → Prop}
    (append : ∀ run rows rest, AreRows run rows → (∀ l ∈ rest.head?, parse? l = none) →
      (∀ line later, rest = line :: later → motive later) → motive (run ++ rest)) (lines : List Text) :
    motive lines := by
  induction hn : lines.length using Nat.strong_induction_on generalizing lines with
  | _ n ih =>
    obtain ⟨run, rows, rest, rfl, hrows, hrest⟩ := exists_run lines
    refine append run rows rest hrows hrest fun line later hlater => ih later.length ?_ later rfl
    rw [← hn, hlater, List.length_append, List.length_cons]
    omega

theorem alignFrom_append {run : List Text} {rows : List TableRow} (h : AreRows run rows)
    (passed : List TableRow) (rest : List Text) :
    alignFrom passed (run ++ rest) = alignFrom (rows.reverse ++ passed) rest := by
  induction h generalizing passed with
  | nil => rfl
  | @cons line row run rows hline _ ih =>
      rw [List.cons_append, alignFrom]
      simp only [hline]
      rw [ih]
      simp

def alignRest : List Text → List Text
  | [] => []
  | line :: rest => line :: alignTables rest

theorem alignTables_append {run rest : List Text} {rows : List TableRow} (h : AreRows run rows)
    (hrest : ∀ l ∈ rest.head?, parse? l = none) :
    alignTables (run ++ rest) = renderAll rows.reverse ++ alignRest rest := by
  unfold alignTables
  rw [alignFrom_append h, List.append_nil]
  cases rest with
  | nil => simp [alignFrom, alignRest]
  | cons line rest =>
      rw [alignFrom]
      simp only [hrest line rfl]
      rfl

theorem areRows_renderAll {rows : List TableRow} (h : ∀ row ∈ rows, row.IsRead) :
    AreRows (renderAll rows.reverse) (rows.map (filled (widths rows.reverse).length)) := by
  have key : ∀ rs : List TableRow, (∀ row ∈ rs, row.IsRead) → (rs ≠ [] → widths rows.reverse ≠ []) →
      AreRows (rs.map (render (widths rows.reverse)))
        (rs.map (filled (widths rows.reverse).length)) := by
    intro rs hrs hne
    induction rs with
    | nil => exact .nil
    | cons row rs ih =>
        have hw := hne (by simp)
        exact .cons (parse?_render hw (hrs row List.mem_cons_self))
          (ih (fun r hr => hrs r (List.mem_cons_of_mem _ hr)) fun _ => hw)
  unfold renderAll
  rw [List.reverse_reverse]
  refine key rows h fun hne => widths_ne_nil (by simpa using hne) ?_
  exact fun row hrow => h row (List.mem_reverse.1 hrow)

end TableRow

/-- Aligned tables stay as they are. -/
theorem alignTables_alignTables (lines : List Text) :
    alignTables (alignTables lines) = alignTables lines := by
  induction lines using TableRow.runs_induction with
  | append run rows rest hrows hrest ih =>
    have hagain := TableRow.areRows_renderAll hrows.isRead
    -- the rows have as many cells as there are columns by now, and the columns are as wide as before
    have hrender : TableRow.renderAll (rows.map (TableRow.filled
        (TableRow.widths rows.reverse).length)).reverse = TableRow.renderAll rows.reverse := by
      rw [← List.map_reverse, TableRow.renderAll_map_filled]
    have hrest' : ∀ l ∈ (TableRow.alignRest rest).head?, TableRow.parse? l = none := by
      cases rest with
      | nil => exact hrest
      | cons line rest => exact hrest
    have htail : TableRow.alignRest (TableRow.alignRest rest) = TableRow.alignRest rest := by
      cases rest with
      | nil => rfl
      | cons line rest => simp only [TableRow.alignRest, ih line rest rfl]
    rw [TableRow.alignTables_append hrows hrest, TableRow.alignTables_append hagain hrest', hrender, htail]

namespace TableRow

theorem relaid_render {line : Text} {row : TableRow} (h : parse? line = some row) {widths : List Nat}
    (hne : widths ≠ []) : Relaid line (render widths row) := by
  have hread := isRead_of_parse? h
  obtain ⟨middle, hstrip, hfree, rfl⟩ := parse?_eq_some h
  obtain ⟨tail, htail, -⟩ := stripRight_prefix (stripLeft line)
  have hline : line = leadingBlanks line ++ '|' :: (middle ++ '|' :: tail) := by
    have hsplit := leadingBlanks_append_stripLeft line
    rw [htail, show stripRight (stripLeft line) = strip line from rfl, hstrip] at hsplit
    simpa using hsplit.symm
  -- what a cell holds stood between the bars of the old line
  have hcells : ∀ cell ∈ (splitOn '|' middle).map strip, ∀ d ∈ cell, d ∈ middle := by
    intro cell hcell d hd
    obtain ⟨piece, hpiece, rfl⟩ := List.mem_map.1 hcell
    exact mem_of_mem_splitOn hpiece (mem_of_mem_strip hd)
  have hrender := render_eq hne (⟨leadingBlanks line, (splitOn '|' middle).map strip⟩ : TableRow)
  generalize hpadded : padded widths ⟨leadingBlanks line, (splitOn '|' middle).map strip⟩ = padded at hrender
  have hchars : ∀ d ∈ middleOf padded ++ ['|'], d ∈ middle ∨ d = ' ' ∨ d = '|' := by
    intro d hd
    rcases List.mem_append.1 hd with hd | hd
    · rcases mem_middleOf hd with ⟨p, hp, hd⟩ | hd
      · rcases mem_of_mem_padded (hpadded ▸ hp) hd with ⟨cell, hcell, hd⟩ | hd
        · exact Or.inl (hcells cell hcell d hd)
        · exact Or.inr (Or.inl hd)
      · exact Or.inr hd
    · exact Or.inr (Or.inr (List.mem_singleton.1 hd))
  have hnew : '\n' ∉ '|' :: (middleOf padded ++ ['|']) := by
    intro hmid
    rcases List.mem_cons.1 hmid with hmid | hmid
    · exact absurd hmid (by decide)
    · rcases hchars '\n' hmid with hmid | hmid | hmid
      · exact hfree hmid
      · exact absurd hmid (by decide)
      · exact absurd hmid (by decide)
  refine ⟨leadingBlanks line, '|', middle ++ '|' :: tail, middleOf padded ++ ['|'], hline, ?_,
    fun d hd => isBlank_of_mem_leadingBlanks hd, by decide, by decide, hnew,
    isTopLevelKey_of_head (by simp; decide), ?_, ?_⟩
  · rw [hrender]
    simp
  · intro d hd
    rcases hchars d hd with hd | hd | hd
    · exact Or.inl (List.mem_append_left _ hd)
    · exact Or.inr (Or.inl hd)
    · exact Or.inr (Or.inr (Or.inl hd))
  · intro _ hlast
    simp at hlast

end TableRow

/-- What holds between a line and itself, and between a row and its layout among others, holds between lines
and lines with aligned tables. -/
theorem forall₂_alignTables {R : Text → Text → Prop} (hkeep : ∀ line, R line line)
    (hrender : ∀ (rows : List TableRow) line row, (∀ row ∈ rows, row.IsRead) → row ∈ rows →
      TableRow.parse? line = some row → R line (row.render (TableRow.widths rows)))
    (lines : List Text) : List.Forall₂ R lines (alignTables lines) := by
  induction lines using TableRow.runs_induction with
  | append run rows rest hrows hrest ih =>
    have hread : ∀ row ∈ rows.reverse, row.IsRead :=
      fun row hrow => hrows.isRead row (List.mem_reverse.1 hrow)
    -- the widths are those of the whole run while the rows are laid out one by one
    have key : ∀ {ls : List Text} {rs : List TableRow}, TableRow.AreRows ls rs →
        (∀ row ∈ rs, row ∈ rows.reverse) →
        List.Forall₂ R ls (rs.map (TableRow.render (TableRow.widths rows.reverse))) := by
      intro ls rs hls hmem
      induction hls with
      | nil => exact .nil
      | cons hline _ ih =>
          exact .cons (hrender _ _ _ hread (hmem _ List.mem_cons_self) hline)
            (ih fun row hrow => hmem row (List.mem_cons_of_mem _ hrow))
    have hrun := key hrows fun row hrow => List.mem_reverse.2 hrow
    have htail : List.Forall₂ R rest (TableRow.alignRest rest) := by
      cases rest with
      | nil => exact .nil
      | cons line rest => exact .cons (hkeep line) (ih line rest rfl)
    rw [TableRow.alignTables_append hrows hrest, TableRow.renderAll, List.reverse_reverse]
    exact List.rel_append hrun htail

/-- Every line is left as it is or put into a new layout when tables are aligned. -/
theorem forall₂_realigned_alignTables (lines : List Text) :
    List.Forall₂ Realigned lines (alignTables lines) :=
  forall₂_alignTables Realigned.refl (fun _ _ _ hread hrow hline => Or.inr
    (TableRow.relaid_render hline (TableRow.widths_ne_nil (List.ne_nil_of_mem hrow) hread))) lines

/-- Lines that are the same, or both no rows. -/
def SameRow (old new : Text) : Prop :=
  new = old ∨ TableRow.parse? old = none ∧ TableRow.parse? new = none

/-- A run of rows stays where it is if the rows stay. -/
theorem TableRow.AreRows.exists_append_of_forall₂ {run rest lines' : List Text} {rows : List TableRow}
    (h : AreRows run rows) (hkeep : List.Forall₂ SameRow (run ++ rest) lines') :
    ∃ rest', lines' = run ++ rest' ∧ List.Forall₂ SameRow rest rest' := by
  induction h generalizing lines' with
  | nil => exact ⟨lines', rfl, hkeep⟩
  | cons hline _ ih =>
      rw [List.cons_append] at hkeep
      obtain ⟨line', tail, hline', htail, rfl⟩ := List.forall₂_cons_left_iff.1 hkeep
      obtain ⟨rest', rfl, hrest'⟩ := ih htail
      rcases hline' with rfl | ⟨hnone, -⟩
      · exact ⟨rest', rfl, hrest'⟩
      · rw [hline] at hnone
        exact absurd hnone (by simp)

/-- Lines that are aligned stay aligned if lines that are no rows become others that are none. -/
theorem alignTables_eq_of_forall₂ {lines lines' : List Text} (h : List.Forall₂ SameRow lines lines')
    (hfixed : alignTables lines = lines) : alignTables lines' = lines' := by
  induction lines using TableRow.runs_induction generalizing lines' with
  | append run rows rest hrows hrest ih =>
    obtain ⟨rest', rfl, htail⟩ := hrows.exists_append_of_forall₂ h
    have hrest' : ∀ l ∈ rest'.head?, TableRow.parse? l = none := by
      cases htail with
      | nil => simp
      | @cons a b _ _ hab _ =>
          intro l hl
          obtain rfl : b = l := by simpa using hl
          have ha := hrest a rfl
          rcases hab with rfl | ⟨-, hb⟩
          · exact ha
          · exact hb
    rw [TableRow.alignTables_append hrows hrest] at hfixed
    have hlength : (TableRow.renderAll rows.reverse).length = run.length := by
      simp [TableRow.renderAll, hrows.length_eq]
    obtain ⟨hrun, hafter⟩ := List.append_inj hfixed hlength
    rw [TableRow.alignTables_append hrows hrest', hrun]
    refine congrArg (run ++ ·) ?_
    cases htail with
    | nil => rfl
    | @cons a b rest rest' hab htail =>
        have hrest : alignTables rest = rest := by simpa [TableRow.alignRest] using hafter
        simp only [TableRow.alignRest, ih a rest rfl htail hrest]

/-! ## Assignments -/

namespace AssignmentLine

def render (width : Nat) (line : AssignmentLine) : Text :=
  line.indent ++ padRight width line.name ++ " = ".toList ++ line.value

/-- Whether an assignment can have been read of a line. -/
structure IsRead (line : AssignmentLine) : Prop where
  indent : ∀ c ∈ line.indent, isBlank c = true
  name_ne_nil : line.name ≠ []
  name : ∀ c ∈ line.name, isNameLetter c = true
  value : stripLeft line.value = line.value
  value_free : '\n' ∉ line.value

theorem cutTail_cases (text : Text) :
    (StepLine.cutTail text).2 = [] ∨ (StepLine.cutTail text).2 = ['\n'] := by
  unfold StepLine.cutTail
  split
  · exact Or.inr rfl
  · exact Or.inl rfl

/-- A line with an assignment: the name, the sign with blanks around it, and the value. -/
theorem exists_gaps_of_parse? {line : Text} {assignment : AssignmentLine}
    (h : parse? line = some assignment) :
    ∃ before after tail,
      stripLeft line = assignment.name ++ (before ++ '=' :: (after ++ (assignment.value ++ tail))) ∧
        (∀ c ∈ before, isBlank c = true) ∧ (∀ c ∈ after, isBlank c = true) ∧
        (tail = [] ∨ tail = ['\n']) := by
  unfold parse? at h
  simp only [] at h
  cases hafter : after? ['='] (stripLeft ((stripLeft line).dropWhile isNameLetter)) with
  | none => simp [hafter] at h
  | some rest =>
      rw [hafter] at h
      simp only [] at h
      split at h
      · simp at h
      · obtain rfl := Option.some.inj h
        -- the cuts one after the other: name, gap, sign, gap, value, line feed
        have hname : (stripLeft line).takeWhile isNameLetter ++
            (stripLeft line).dropWhile isNameLetter = stripLeft line :=
          List.takeWhile_append_dropWhile
        have hgap := leadingBlanks_append_stripLeft ((stripLeft line).dropWhile isNameLetter)
        have hrest := leadingBlanks_append_stripLeft rest
        have hcut := StepLine.cutTail_append (stripLeft rest)
        rw [after?_eq_some_iff.1 hafter] at hgap
        refine ⟨leadingBlanks ((stripLeft line).dropWhile isNameLetter), leadingBlanks rest,
          (StepLine.cutTail (stripLeft rest)).2, ?_, fun c hc => isBlank_of_mem_leadingBlanks hc,
          fun c hc => isBlank_of_mem_leadingBlanks hc, cutTail_cases _⟩
        rw [hcut, hrest]
        exact hname.symm.trans (congrArg _ hgap.symm)

theorem parse?_eq_some {line : Text} {assignment : AssignmentLine}
    (h : parse? line = some assignment) :
    assignment.IsRead ∧ assignment.indent = leadingBlanks line ∧
      ∃ gap tail, stripLeft line = assignment.name ++ (gap ++ (assignment.value ++ tail)) ∧
        (tail = [] ∨ tail = ['\n']) := by
  obtain ⟨before, after, tail, hbody, -, -, htail⟩ := exists_gaps_of_parse? h
  have hgap : stripLeft line =
      assignment.name ++ ((before ++ '=' :: after) ++ (assignment.value ++ tail)) := by
    rw [hbody, List.append_assoc, List.cons_append]
  unfold parse? at h
  simp only [] at h
  split at h
  · simp at h
  · next rest _ =>
    split at h
    · simp at h
    · next hcond =>
      obtain rfl := Option.some.inj h
      simp only [Bool.or_eq_true, List.isEmpty_iff, List.elem_eq_contains, List.contains_eq_mem,
        decide_eq_true_eq, not_or] at hcond
      refine ⟨⟨fun c hc => isBlank_of_mem_leadingBlanks hc, hcond.1,
        fun c hc => List.mem_takeWhile_imp hc, ?_, hcond.2⟩, rfl, _, tail, hgap, htail⟩
      have hcut := StepLine.cutTail_append (stripLeft rest)
      cases hvalue : (StepLine.cutTail (stripLeft rest)).1 with
      | nil => rfl
      | cons c cs =>
          rw [hvalue] at hcut
          exact stripLeft_cons_of_not_blank (not_isBlank_head_stripLeft (by rw [← hcut]; rfl)) cs

theorem exists_name_eq_cons {line : AssignmentLine} (h : line.IsRead) :
    ∃ c cs, line.name = c :: cs ∧ isBlank c = false ∧ c ≠ '#' ∧ c ≠ '|' := by
  obtain ⟨c, cs, hc⟩ := List.exists_cons_of_ne_nil h.name_ne_nil
  have hletter := h.name c (by simp [hc])
  refine ⟨c, cs, hc, Scalar.isBlank_of_isNameLetter hletter, ?_, ?_⟩
  · rintro rfl
    exact absurd hletter (by decide)
  · rintro rfl
    exact absurd hletter (by decide)

/-- What follows the indentation of an assignment that is laid out. -/
def wording (width : Nat) (line : AssignmentLine) : Text :=
  line.name ++ (List.replicate (width - line.name.length) ' ' ++ ' ' :: '=' :: ' ' :: line.value)

theorem render_eq (width : Nat) (line : AssignmentLine) :
    line.render width = line.indent ++ line.wording width := by
  have hsign : " = ".toList = [' ', '=', ' '] := rfl
  simp [render, wording, padRight, hsign]

theorem leadingBlanks_render {line : AssignmentLine} (h : line.IsRead) (width : Nat) :
    leadingBlanks (line.render width) = line.indent ∧
      stripLeft (line.render width) = line.wording width := by
  obtain ⟨c, cs, hname, hblank, -, -⟩ := exists_name_eq_cons h
  have hwording : line.wording width =
      c :: (cs ++ (List.replicate (width - line.name.length) ' ' ++ ' ' :: '=' :: ' ' :: line.value)) := by
    rw [wording, hname]
    rfl
  rw [render_eq, hwording, stripLeft_append h.indent, stripLeft_cons_of_not_blank hblank]
  exact ⟨leadingBlanks_append h.indent hblank _, rfl⟩

/-- An assignment that is laid out is read as the assignment that it was. -/
theorem parse?_render {line : AssignmentLine} (h : line.IsRead) (width : Nat) :
    parse? (line.render width) = some line := by
  obtain ⟨hindent, hwording⟩ := leadingBlanks_render h width
  have hspaces : ∀ n, ∀ c ∈ List.replicate n ' ', isBlank c = true := by
    intro n c hc
    rw [List.eq_of_mem_replicate hc]
    decide
  have hpad : List.replicate (width - line.name.length) ' ' ++ ' ' :: '=' :: ' ' :: line.value =
      ' ' :: (List.replicate (width - line.name.length) ' ' ++ '=' :: ' ' :: line.value) := by
    rw [← List.cons_append, ← List.replicate_succ, List.replicate_succ', List.append_assoc]
    rfl
  -- the first space ends the name, however many follow it
  have htake : (line.wording width).takeWhile isNameLetter = line.name := by
    rw [wording, List.takeWhile_append_of_pos h.name, hpad]
    simp [isNameLetter, isKeyLetter]
  have hdrop : (line.wording width).dropWhile isNameLetter =
      ' ' :: (List.replicate (width - line.name.length) ' ' ++ '=' :: ' ' :: line.value) := by
    rw [wording, List.dropWhile_append_of_pos h.name, hpad]
    simp [isNameLetter, isKeyLetter]
  have hsign : stripLeft (' ' :: (List.replicate (width - line.name.length) ' ' ++
      '=' :: ' ' :: line.value)) = '=' :: ' ' :: line.value := by
    have hfirst := @stripLeft_append [' '] isBlank_of_mem_space
      (List.replicate (width - line.name.length) ' ' ++ '=' :: ' ' :: line.value)
    rw [List.singleton_append] at hfirst
    rw [hfirst, stripLeft_append (hspaces _), stripLeft_cons_of_not_blank (by decide)]
  have hafter : after? ['='] ('=' :: ' ' :: line.value) = some (' ' :: line.value) := rfl
  have hvalue : stripLeft (' ' :: line.value) = line.value := by
    have := @stripLeft_append [' '] isBlank_of_mem_space line.value
    rw [List.singleton_append] at this
    rw [this, h.value]
  have hcut : StepLine.cutTail line.value = (line.value, []) := StepLine.cutTail_of_not_mem h.value_free
  unfold parse?
  simp only [hwording, htake, hdrop, hsign, hafter, hvalue, hcut, hindent]
  simp [h.name_ne_nil, h.value_free]

theorem isTopLevelKey_wording {line : AssignmentLine} (h : line.IsRead) (width : Nat) :
    isTopLevelKey (line.wording width) = false := by
  -- What ends the key letters is a dash of the name or the space behind it, never a colon.
  have key : ∀ name rest : Text, (∀ c ∈ name, isNameLetter c = true) →
      ((name ++ ' ' :: rest).dropWhile isKeyLetter).head? ≠ some ':' := by
    intro name rest hname
    induction name with
    | nil =>
        have : isKeyLetter ' ' = false := by decide
        simp [this]
    | cons c cs ih =>
        cases hc : isKeyLetter c with
        | true => simpa [hc] using ih fun d hd => hname d (List.mem_cons_of_mem _ hd)
        | false =>
            simp only [List.cons_append, List.dropWhile_cons, hc, Bool.false_eq_true, if_false,
              List.head?_cons, ne_eq, Option.some.injEq]
            rintro rfl
            exact absurd (hname ':' List.mem_cons_self) (by decide)
  have hpad : line.wording width = line.name ++ ' ' ::
      (List.replicate (width - line.name.length) ' ' ++ '=' :: ' ' :: line.value) := by
    rw [wording, ← List.cons_append, ← List.replicate_succ, List.replicate_succ', List.append_assoc]
    rfl
  have hcolon := key line.name
    (List.replicate (width - line.name.length) ' ' ++ '=' :: ' ' :: line.value) h.name
  rw [← hpad] at hcolon
  simp [isTopLevelKey, hcolon]

theorem relaid_render {line : Text} {assignment : AssignmentLine}
    (h : parse? line = some assignment) (width : Nat) : Relaid line (assignment.render width) := by
  obtain ⟨hread, hindent, gap, tail, hbody, htail⟩ := parse?_eq_some h
  obtain ⟨c, cs, hname, hblank, hmark, -⟩ := exists_name_eq_cons hread
  have hold : line = assignment.indent ++ c :: (cs ++ (gap ++ (assignment.value ++ tail))) := by
    rw [← leadingBlanks_append_stripLeft line, hbody, hname, hindent]
    rfl
  have hwording : assignment.wording width =
      c :: (cs ++ (List.replicate (width - assignment.name.length) ' ' ++
        ' ' :: '=' :: ' ' :: assignment.value)) := by
    rw [wording, hname]
    rfl
  -- behind the first letter, nothing but spaces and the sign was not on the line
  have hchars : ∀ d ∈ cs ++ (List.replicate (width - assignment.name.length) ' ' ++
      ' ' :: '=' :: ' ' :: assignment.value),
      d ∈ cs ∨ d ∈ assignment.value ∨ d = ' ' ∨ d = '=' := by
    intro d hd
    simp only [List.mem_append, List.mem_replicate, List.mem_cons] at hd
    tauto
  have hfree : '\n' ∉ assignment.wording width := by
    rw [hwording]
    intro hmem
    have hletters := hread.name '\n'
    rw [hname] at hletters
    rcases List.mem_cons.1 hmem with heq | hmem
    · exact absurd (hletters (by rw [heq]; exact List.mem_cons_self)) (by decide)
    · rcases hchars '\n' hmem with hmem | hmem | hmem | hmem
      · exact absurd (hletters (List.mem_cons_of_mem _ hmem)) (by decide)
      · exact hread.value_free hmem
      · exact absurd hmem (by decide)
      · exact absurd hmem (by decide)
  have htop := isTopLevelKey_wording hread width
  rw [hwording] at hfree htop
  refine ⟨assignment.indent, c, cs ++ (gap ++ (assignment.value ++ tail)), _, hold,
    by rw [render_eq, hwording], hread.indent, hblank, hmark, hfree, htop, ?_, ?_⟩
  · intro d hd
    rcases hchars d hd with hd | hd | hd | hd
    · exact Or.inl (List.mem_append_left _ hd)
    · exact Or.inl (by simp [hd])
    · exact Or.inr (Or.inl hd)
    · exact Or.inr (Or.inr (Or.inr hd))
  · intro hline hlast
    rcases htail with rfl | rfl
    · cases hvalue : assignment.value with
      | nil => simp [hvalue] at hlast
      | cons v vs =>
          rw [hvalue] at hlast
          simpa [List.getLast?_append, List.getLast?_cons_cons] using hlast
    · exact absurd (by simp) hline

end AssignmentLine

namespace AssignmentRun

/-! ## Runs of assignments -/

theorem member?_eq_some {indent : Nat} {line : Text} {assignment : AssignmentLine}
    (h : member? indent line = some assignment) :
    AssignmentLine.parse? line = some assignment ∧ indent < assignment.indent.length := by
  unfold member? at h
  split at h
  · simp at h
  · simpa [Option.filter_eq_some_iff] using h

/-- A line with an assignment is not blank and no comment. -/
theorem isSilent_of_isRead {line : AssignmentLine} (h : line.IsRead) {text : Text}
    (htext : ∃ rest, stripLeft text = line.name ++ rest) : CallBlock.isSilent text = false := by
  obtain ⟨c, cs, hname, hblank, hmark, -⟩ := AssignmentLine.exists_name_eq_cons h
  obtain ⟨rest, hrest⟩ := htext
  have hstrip : strip text = c :: stripRight (cs ++ rest) := by
    rw [strip, hrest, hname, List.cons_append, stripRight_cons_of_not_blank hblank]
  simp [CallBlock.isSilent, hstrip, hmark]

theorem isSilent_render {line : AssignmentLine} (h : line.IsRead) (width : Nat) :
    CallBlock.isSilent (line.render width) = false :=
  isSilent_of_isRead h ⟨_, (AssignmentLine.leadingBlanks_render h width).2⟩

/-- A line that goes on a run still does when it is laid out. -/
theorem member?_render {indent : Nat} {line : Text} {assignment : AssignmentLine}
    (h : member? indent line = some assignment) (width : Nat) :
    member? indent (assignment.render width) = some assignment := by
  obtain ⟨hparse, hindent⟩ := member?_eq_some h
  have hread := (AssignmentLine.parse?_eq_some hparse).1
  unfold member?
  rw [isSilent_render hread, AssignmentLine.parse?_render hread]
  simp [hindent]

/-- The assignment that a line adds to a run below a call, if there is one. -/
def goesOn? (call : Option Nat) (line : Text) : Option AssignmentLine :=
  call.bind fun indent => member? indent line

/-- Lines that go on a run below a call, and their assignments. -/
abbrev AreMembers (call : Option Nat) (lines : List Text) (run : List AssignmentLine) : Prop :=
  List.Forall₂ (fun line assignment => goesOn? call line = some assignment) lines run

theorem goesOn?_render {call : Option Nat} {line : Text} {assignment : AssignmentLine}
    (h : goesOn? call line = some assignment) (width : Nat) :
    goesOn? call (assignment.render width) = some assignment := by
  obtain ⟨indent, rfl, hmember⟩ := Option.bind_eq_some_iff.1 h
  exact member?_render hmember width

theorem parse?_of_goesOn? {call : Option Nat} {line : Text} {assignment : AssignmentLine}
    (h : goesOn? call line = some assignment) : AssignmentLine.parse? line = some assignment := by
  obtain ⟨indent, rfl, hmember⟩ := Option.bind_eq_some_iff.1 h
  exact (member?_eq_some hmember).1

/-- Lines begin with a run below a call, which ends with the lines or at a line that does not go on. -/
theorem exists_run (call : Option Nat) (lines : List Text) :
    ∃ front run rest, lines = front ++ rest ∧ AreMembers call front run ∧
      ∀ l ∈ rest.head?, goesOn? call l = none := by
  induction lines with
  | nil => exact ⟨[], [], [], rfl, .nil, by simp⟩
  | cons line lines ih =>
      cases hline : goesOn? call line with
      | none => exact ⟨[], [], line :: lines, rfl, .nil, by simpa using hline⟩
      | some assignment =>
          obtain ⟨front, run, rest, rfl, hrun, hrest⟩ := ih
          exact ⟨line :: front, assignment :: run, rest, rfl, .cons hline hrun, hrest⟩

/-- Induction on the runs: what is to be shown of all lines is shown of a run and the lines that end it, if it holds
of the lines behind the first of these, which may open a run of its own. -/
theorem runs_induction {motive : Option Nat → List Text → Prop}
    (append : ∀ call front run rest, AreMembers call front run → (∀ l ∈ rest.head?, goesOn? call l = none) →
      (∀ line later, rest = line :: later → motive (opening? line) later) → motive call (front ++ rest))
    (call : Option Nat) (lines : List Text) : motive call lines := by
  induction hn : lines.length using Nat.strong_induction_on generalizing lines call with
  | _ n ih =>
    obtain ⟨front, run, rest, rfl, hrun, hrest⟩ := exists_run call lines
    refine append call front run rest hrun hrest fun line later hlater => ih later.length ?_ (opening? line) later rfl
    rw [← hn, hlater, List.length_append, List.length_cons]
    omega

def layOut (lines : List Text) (run : List AssignmentLine) : List Text :=
  if run.length ≤ 1 then lines
  else run.map (AssignmentLine.render (((run.map (·.name.length)).max?).getD 0))

theorem render_zip {lines : List Text} {run : List AssignmentLine}
    (h : lines.length = run.length) : render (lines.zip run).reverse = layOut lines run := by
  have hfst : (lines.zip run).map Prod.fst = lines := List.map_fst_zip (by omega)
  have hsnd : (lines.zip run).map Prod.snd = run := List.map_snd_zip (by omega)
  have hlength : (lines.zip run).length = run.length := by simp [h]
  unfold render layOut
  simp only [List.reverse_reverse, hlength]
  split
  · exact hfst
  · have hnames : (lines.zip run).map (fun entry => entry.2.name.length) =
        run.map fun line => line.name.length := by
      rw [← hsnd, List.map_map, hsnd]
      rfl
    have hlines : ∀ width, (lines.zip run).map (fun entry => entry.2.render width) =
        run.map fun line => line.render width := by
      intro width
      rw [← hsnd, List.map_map, hsnd]
      rfl
    rw [hnames]
    exact hlines _

theorem alignFrom_append {call : Option Nat} {front : List Text} {run : List AssignmentLine}
    (h : AreMembers call front run) (passed : List (Text × AssignmentLine)) (rest : List Text) :
    alignFrom call passed (front ++ rest) =
      alignFrom call ((front.zip run).reverse ++ passed) rest := by
  induction h generalizing passed with
  | nil => rfl
  | @cons line assignment front run hline _ ih =>
      unfold goesOn? at hline
      rw [List.cons_append, alignFrom]
      simp only [hline]
      rw [ih]
      simp

def alignRest : List Text → List Text
  | [] => []
  | line :: rest => line :: alignFrom (opening? line) [] rest

theorem alignFrom_run {call : Option Nat} {front rest : List Text} {run : List AssignmentLine}
    (h : AreMembers call front run) (hrest : ∀ l ∈ rest.head?, goesOn? call l = none) :
    alignFrom call [] (front ++ rest) = layOut front run ++ alignRest rest := by
  rw [alignFrom_append h, List.append_nil]
  cases rest with
  | nil => rw [alignFrom, render_zip h.length_eq, alignRest, List.append_nil]
  | cons line rest =>
      have hline := hrest line rfl
      unfold goesOn? at hline
      rw [alignFrom]
      simp only [hline]
      rw [render_zip h.length_eq]
      rfl

theorem areMembers_layOut {call : Option Nat} {front : List Text} {run : List AssignmentLine}
    (h : AreMembers call front run) : AreMembers call (layOut front run) run := by
  have key : ∀ width, AreMembers call (run.map (AssignmentLine.render width)) run := by
    intro width
    induction h with
    | nil => exact .nil
    | cons hline _ ih => exact .cons (goesOn?_render hline width) ih
  unfold layOut
  split
  · exact h
  · exact key _

theorem layOut_layOut (lines : List Text) (run : List AssignmentLine) :
    layOut (layOut lines run) run = layOut lines run := by
  unfold layOut
  split <;> rfl

theorem alignFrom_alignFrom (call : Option Nat) (lines : List Text) :
    alignFrom call [] (alignFrom call [] lines) = alignFrom call [] lines := by
  induction call, lines using runs_induction with
  | append call front run rest hrun hrest ih =>
    -- the line that ends the run is no part of it, so the run ends there once more
    have hrest' : ∀ l ∈ (alignRest rest).head?, goesOn? call l = none := by
      cases rest with
      | nil => exact hrest
      | cons line rest => exact hrest
    have htail : alignRest (alignRest rest) = alignRest rest := by
      cases rest with
      | nil => rfl
      | cons line rest => simp only [alignRest, ih line rest rfl]
    rw [alignFrom_run hrun hrest, alignFrom_run (areMembers_layOut hrun) hrest', layOut_layOut, htail]

/-- What aligning makes of a line that goes on a run is no row of a table, and neither is the line. -/
def KeepsRows (old new : Text) : Prop :=
  new = old ∨ Relaid old new ∧ TableRow.parse? old = none ∧ TableRow.parse? new = none

theorem parse?_of_isRead {line : AssignmentLine} (h : line.IsRead) {text : Text}
    (htext : ∃ rest, stripLeft text = line.name ++ rest) : TableRow.parse? text = none := by
  obtain ⟨c, cs, hname, hblank, -, hbar⟩ := AssignmentLine.exists_name_eq_cons h
  obtain ⟨rest, hrest⟩ := htext
  have hstrip : strip text = c :: stripRight (cs ++ rest) := by
    rw [strip, hrest, hname, List.cons_append, stripRight_cons_of_not_blank hblank]
  unfold TableRow.parse?
  rw [hstrip]
  split
  · next heq =>
    simp only [List.cons.injEq] at heq
    exact absurd heq.1 hbar
  · rfl

theorem keepsRows_render {line : Text} {assignment : AssignmentLine}
    (h : AssignmentLine.parse? line = some assignment) (width : Nat) :
    KeepsRows line (assignment.render width) := by
  obtain ⟨hread, -, gap, tail, hbody, -⟩ := AssignmentLine.parse?_eq_some h
  refine Or.inr ⟨AssignmentLine.relaid_render h width, parse?_of_isRead hread ⟨_, hbody⟩,
    parse?_of_isRead hread ⟨_, (AssignmentLine.leadingBlanks_render hread width).2⟩⟩

/-- What holds between a line and itself, and between an assignment line and each of its layouts, holds
between lines and aligned lines. -/
theorem forall₂_alignFrom {R : Text → Text → Prop} (hkeep : ∀ line, R line line)
    (hrender : ∀ line assignment width, AssignmentLine.parse? line = some assignment →
      R line (assignment.render width))
    (call : Option Nat) (lines : List Text) : List.Forall₂ R lines (alignFrom call [] lines) := by
  induction call, lines using runs_induction with
  | append call front run rest hrun hrest ih =>
    have hfront : List.Forall₂ R front (layOut front run) := by
      have key : ∀ width, List.Forall₂ R front (run.map (AssignmentLine.render width)) := by
        intro width
        rw [List.forall₂_map_right_iff]
        exact hrun.imp fun line assignment hline => hrender line assignment width (parse?_of_goesOn? hline)
      unfold layOut
      split
      · exact List.forall₂_same.2 fun line _ => hkeep line
      · exact key _
    have htail : List.Forall₂ R rest (alignRest rest) := by
      cases rest with
      | nil => exact .nil
      | cons line rest => exact .cons (hkeep line) (ih line rest rfl)
    rw [alignFrom_run hrun hrest]
    exact List.rel_append hfront htail

theorem forall₂_keepsRows (call : Option Nat) (lines : List Text) :
    List.Forall₂ KeepsRows lines (alignFrom call [] lines) :=
  forall₂_alignFrom (fun _ => Or.inl rfl) (fun _ _ width h => keepsRows_render h width) call lines

end AssignmentRun

/-- Aligned assignments stay as they are. -/
theorem alignAssignments_alignAssignments (lines : List Text) :
    alignAssignments (alignAssignments lines) = alignAssignments lines :=
  AssignmentRun.alignFrom_alignFrom none lines

/-- Every line is left as it is or put into a new layout when assignments are aligned. -/
theorem forall₂_realigned_alignAssignments (lines : List Text) :
    List.Forall₂ Realigned lines (alignAssignments lines) :=
  (AssignmentRun.forall₂_keepsRows none lines).imp fun _ _ h => h.imp_right And.left

/-- Aligning assignments leaves aligned tables aligned. -/
theorem alignTables_alignAssignments {lines : List Text} (h : alignTables lines = lines) :
    alignTables (alignAssignments lines) = alignAssignments lines :=
  alignTables_eq_of_forall₂
    ((AssignmentRun.forall₂_keepsRows none lines).imp fun _ _ hline => hline.imp_right And.right) h

end Scenarist
