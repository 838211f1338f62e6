import Scenarist.Proofs.Alignment

set_option autoImplicit false

/-! # Rows that make up a table

Rows that stand directly below one another become rows of one table. Each keeps its indentation and its
cells, with empty cells behind them up to the number of columns that the widest row has, and what stands
between two bars is as wide in one row as in the others, so that the bars stand below one another wherever
the indentation ends. Lines that are no rows stay as they are and cut the rows into runs.

Main statement: `isTable_alignTables`. -/

namespace Scenarist

open Text

namespace TableRow

/-! ## Cells that are filled up -/

theorem length_cells_le_columns {rows : List TableRow} {row : TableRow} (h : row ∈ rows) :
    row.cells.length ≤ columns rows := by
  unfold columns
  cases hmax : (rows.map (·.cells.length)).max? with
  | none =>
      have hnil : rows = [] := by simpa using hmax
      rw [hnil] at h
      exact absurd h List.not_mem_nil
  | some n => exact (List.max?_eq_some_iff.1 hmax).2 _ (List.mem_map_of_mem h)

theorem length_cell_le_columnWidth {rows : List TableRow} {row : TableRow} (h : row ∈ rows) (column : Nat) :
    (row.cell column).length ≤ columnWidth rows column := by
  unfold columnWidth
  cases hmax : (rows.map fun row => (row.cell column).length).max? with
  | none =>
      have hnil : rows = [] := by simpa using hmax
      rw [hnil] at h
      exact absurd h List.not_mem_nil
  | some n =>
      exact (List.max?_eq_some_iff.1 hmax).2 _
        (List.mem_map_of_mem (f := fun row : TableRow => (row.cell column).length) h)

/-- The cells of a row that is filled up are its own and empty ones. -/
theorem cells_filled {columns : Nat} {row : TableRow} (h : row.cells.length ≤ columns) :
    (row.filled columns).cells = row.cells ++ List.replicate (columns - row.cells.length) [] := by
  apply List.ext_getElem?
  intro column
  simp only [filled, List.getElem?_map, List.getElem?_append, List.getElem?_replicate]
  by_cases hcell : column < row.cells.length
  · have hcolumn : column < columns := by omega
    simp [hcell, hcolumn, cell]
  · by_cases hcolumn : column < columns
    · have hempty : column - row.cells.length < columns - row.cells.length := by omega
      simp [hcell, hcolumn, hempty, cell]
    · have hbehind : ¬ column - row.cells.length < columns - row.cells.length := by omega
      simp [hcell, hcolumn, hbehind]

/-! ## Bars -/

/-- The widths of what stands between the bars of a line, behind its indentation. -/
def gapWidths (line : Text) : List Nat := (splitOn '|' (stripLeft line)).map List.length

/-- Where bars stand between pieces without bars depends on the widths of the pieces alone. -/
theorem map_joinWith_bars {pieces pieces' : List Text} (h : ∀ p ∈ pieces, '|' ∉ p)
    (h' : ∀ p ∈ pieces', '|' ∉ p) (hwidths : pieces.map List.length = pieces'.map List.length) :
    (joinWith ['|'] pieces).map (· == '|') = (joinWith ['|'] pieces').map (· == '|') := by
  -- of a piece without bars, the width is all that counts
  have hpiece : ∀ p : Text, '|' ∉ p → p.map (· == '|') = List.replicate p.length false := by
    intro p hp
    rw [List.eq_replicate_iff]
    refine ⟨List.length_map _, fun b hb => ?_⟩
    obtain ⟨c, hc, rfl⟩ := List.mem_map.1 hb
    have hne : c ≠ '|' := by
      rintro rfl
      exact hp hc
    simpa using hne
  induction pieces generalizing pieces' with
  | nil =>
      obtain rfl : pieces' = [] := by simpa using hwidths.symm
      rfl
  | cons p ps ih =>
      cases pieces' with
      | nil => exact absurd hwidths (by simp)
      | cons q qs =>
          rw [List.map_cons, List.map_cons, List.cons.injEq] at hwidths
          have hfirst : p.map (· == '|') = q.map (· == '|') := by
            rw [hpiece p (h p List.mem_cons_self), hpiece q (h' q List.mem_cons_self), hwidths.1]
          have hrest := ih (fun r hr => h r (List.mem_cons_of_mem p hr))
            (fun r hr => h' r (List.mem_cons_of_mem q hr)) hwidths.2
          cases ps with
          | nil =>
              obtain rfl : qs = [] := by simpa using hwidths.2.symm
              rw [joinWith_singleton, joinWith_singleton, hfirst]
          | cons r rs =>
              cases qs with
              | nil => exact absurd hwidths.2 (by simp)
              | cons t ts =>
                  rw [joinWith_cons_cons, joinWith_cons_cons]
                  simp only [List.map_append, hfirst, hrest]

/-- The bars of lines with the same gaps stand in the same places behind the indentation. -/
theorem getElem?_bar_iff {line line' : Text} (h : gapWidths line = gapWidths line') (place : Nat) :
    (stripLeft line)[place]? = some '|' ↔ (stripLeft line')[place]? = some '|' := by
  have hbars : ∀ text : Text, text[place]? = some '|' ↔ (text.map (· == '|'))[place]? = some true := by
    intro text
    rw [List.getElem?_map]
    cases text[place]? with
    | none => simp
    | some c => simp
  have hsame := map_joinWith_bars (fun p hp => not_mem_of_mem_splitOn hp)
    (fun p hp => not_mem_of_mem_splitOn hp) h
  rw [joinWith_splitOn, joinWith_splitOn] at hsame
  rw [hbars, hbars, hsame]

theorem length_padRight {width : Nat} {text : Text} (h : text.length ≤ width) :
    (padRight width text).length = width := by
  simp only [padRight, List.length_append, List.length_replicate]
  omega

/-- The cells of a row among others are as wide as their columns. -/
theorem map_length_padded {rows : List TableRow} {row : TableRow} (hrow : row ∈ rows) :
    (row.padded (widths rows)).map List.length = widths rows := by
  have hentry : ∀ entry ∈ (widths rows).zipIdx,
      (padRight entry.1 (row.cell entry.2)).length = entry.1 := by
    intro entry hentry
    apply length_padRight
    obtain ⟨hcolumn, hwidth⟩ := List.getElem?_eq_some_iff.1 (List.mem_zipIdx_iff_getElem?.1 hentry)
    rw [← hwidth]
    simp only [widths_eq, List.getElem_map, List.getElem_range]
    exact length_cell_le_columnWidth hrow entry.2
  calc (row.padded (widths rows)).map List.length
      = (widths rows).zipIdx.map fun entry => (padRight entry.1 (row.cell entry.2)).length := by
        rw [padded, List.map_map]
        rfl
    _ = (widths rows).zipIdx.map Prod.fst := List.map_congr_left hentry
    _ = widths rows := List.zipIdx_map_fst 0 _

/-- The gaps of a row that is laid out among others are as wide as their columns, with a space on either
side. -/
theorem gapWidths_render {rows : List TableRow} (hread : ∀ row ∈ rows, row.IsRead) {row : TableRow}
    (hrow : row ∈ rows) :
    gapWidths (render (widths rows) row) = 0 :: (widths rows).map (· + 2) ++ [0] := by
  have hne := widths_ne_nil (List.ne_nil_of_mem hrow) hread
  have hbody : stripLeft (render (widths rows) row) =
      '|' :: (middleOf (row.padded (widths rows)) ++ ['|']) := by
    rw [render_eq hne row, List.append_assoc, List.cons_append, stripLeft_append (hread row hrow).indent,
      stripLeft_cons_of_not_blank (by decide)]
  unfold gapWidths
  -- the gaps in front of the first bar and behind the last one are empty
  rw [hbody, ← List.nil_append ('|' :: (middleOf (row.padded (widths rows)) ++ ['|'])), splitOn_append_cons,
    splitOn_append_cons, splitOn_middleOf (padded_ne_nil hne row) (bar_not_mem_of_mem_padded (hread row hrow))]
  conv_rhs => rw [← map_length_padded hrow]
  simp [splitOn, Function.comp_def]

/-! ## Runs of rows among other lines -/

/-- Lines in front of a line that is no row are aligned by themselves, and so are those behind it. -/
theorem alignFrom_append_cons {line : Text} (h : parse? line = none) (passed : List TableRow)
    (front rest : List Text) :
    alignFrom passed (front ++ line :: rest) = alignFrom passed front ++ line :: alignTables rest := by
  induction front generalizing passed with
  | nil =>
      rw [List.nil_append, alignFrom, alignFrom]
      simp only [h]
      rfl
  | cons first front ih =>
      rw [List.cons_append, alignFrom, alignFrom]
      cases hfirst : parse? first with
      | some row => exact ih (row :: passed)
      | none => simp [ih]

/-- What neighbouring rows have become: rows with the same indentation and the same cells, filled up to one
number of columns, whose gaps are of the same widths and whose bars stand below one another. -/
structure IsTable (rows : List TableRow) (lines : List Text) : Prop where
  rows : List.Forall₂ (fun row line => parse? line = some
    ⟨row.indent, row.cells ++ List.replicate (columns rows - row.cells.length) []⟩) rows lines
  widths : ∀ line ∈ lines, ∀ line' ∈ lines, gapWidths line = gapWidths line'
  bars : ∀ line ∈ lines, ∀ line' ∈ lines, ∀ place : Nat,
    (stripLeft line)[place]? = some '|' ↔ (stripLeft line')[place]? = some '|'

/-- Rows have as many columns in either order. -/
theorem columns_reverse (rows : List TableRow) : columns rows.reverse = columns rows := by
  unfold columns
  rw [List.map_reverse]
  cases hmax : (rows.map (·.cells.length)).max? with
  | none =>
      have hnil : rows = [] := by simpa using hmax
      rw [hnil]
      rfl
  | some n =>
      have hreverse : (rows.map (·.cells.length)).reverse.max? = some n := by
        rw [List.max?_eq_some_iff] at hmax ⊢
        simpa using hmax
      rw [hreverse]

theorem isTable_renderAll {rows : List TableRow} (h : ∀ row ∈ rows, row.IsRead) :
    IsTable rows (renderAll rows.reverse) := by
  have hreverse : ∀ row ∈ rows.reverse, row.IsRead := fun row hrow => h row (List.mem_reverse.1 hrow)
  have hwidths : ∀ line ∈ renderAll rows.reverse,
      gapWidths line = 0 :: (TableRow.widths rows.reverse).map (· + 2) ++ [0] := by
    intro line hline
    unfold renderAll at hline
    obtain ⟨row, hrow, rfl⟩ := List.mem_map.1 hline
    rw [List.reverse_reverse] at hrow
    exact gapWidths_render hreverse (List.mem_reverse.2 hrow)
  have hsame : ∀ line ∈ renderAll rows.reverse, ∀ line' ∈ renderAll rows.reverse,
      gapWidths line = gapWidths line' := by
    intro line hline line' hline'
    rw [hwidths line hline, hwidths line' hline']
  refine ⟨?_, hsame, fun line hline line' hline' => getElem?_bar_iff (hsame line hline line' hline')⟩
  have hrows := areRows_renderAll h
  rw [length_widths, columns_reverse] at hrows
  -- no row has more cells than there are columns, so the ones that are filled in stand at its end
  have hfew := (List.forall₂_and_left rows _).2
    ⟨fun row hrow => length_cells_le_columns hrow, (List.forall₂_map_right_iff.1 hrows).flip⟩
  refine hfew.imp fun row line ⟨hlength, hline⟩ => ?_
  rw [hline, ← cells_filled hlength]
  rfl

theorem alignTables_append_run {front run rest : List Text} {rows : List TableRow} (h : AreRows run rows)
    (hfront : ∀ l ∈ front.getLast?, parse? l = none) (hrest : ∀ l ∈ rest.head?, parse? l = none) :
    alignTables (front ++ run ++ rest) =
      alignTables front ++ (renderAll rows.reverse ++ alignRest rest) := by
  rcases List.eq_nil_or_concat' front with rfl | ⟨before, last, rfl⟩
  · exact alignTables_append h hrest
  · have hlast := hfront last (by simp)
    have hsplit : before ++ [last] ++ run ++ rest = before ++ last :: (run ++ rest) := by simp
    rw [hsplit]
    unfold alignTables
    rw [alignFrom_append_cons hlast, alignFrom_append_cons hlast, alignTables_append h hrest]
    simp [alignTables, alignFrom, renderAll]

end TableRow

/-- Aligning tables keeps the number of the lines and every line that is no row. The rows of a run, which no
row stands directly above or below, become a table. Aligned lines stay as they are. -/
theorem isTable_alignTables (lines : List Text) :
    (alignTables lines).length = lines.length ∧
      (∀ (i : Nat) (line : Text), lines[i]? = some line → TableRow.parse? line = none →
        (alignTables lines)[i]? = some line) ∧
      (∀ (front run rest : List Text) (rows : List TableRow), lines = front ++ run ++ rest →
        TableRow.AreRows run rows → (∀ l ∈ front.getLast?, TableRow.parse? l = none) →
        (∀ l ∈ rest.head?, TableRow.parse? l = none) →
        TableRow.IsTable rows (((alignTables lines).drop front.length).take run.length)) ∧
      alignTables (alignTables lines) = alignTables lines := by
  have hlength : ∀ all : List Text, (alignTables all).length = all.length := fun all =>
    (forall₂_realigned_alignTables all).length_eq.symm
  refine ⟨hlength lines, ?_, ?_, alignTables_alignTables lines⟩
  · intro i line hline hnone
    obtain ⟨hi, hget⟩ := List.getElem?_eq_some_iff.1 hline
    have hsplit : lines = lines.take i ++ line :: lines.drop (i + 1) := by
      rw [← hget, List.getElem_cons_drop, List.take_append_drop]
    have hfront : (TableRow.alignFrom [] (lines.take i)).length = i := by
      rw [show TableRow.alignFrom [] (lines.take i) = alignTables (lines.take i) from rfl, hlength,
        List.length_take]
      omega
    have haligned := TableRow.alignFrom_append_cons hnone [] (lines.take i) (lines.drop (i + 1))
    rw [← hsplit] at haligned
    show (TableRow.alignFrom [] lines)[i]? = some line
    rw [haligned, List.getElem?_append_right (le_of_eq hfront), hfront, Nat.sub_self]
    rfl
  · rintro front run rest rows rfl hrows hfront hrest
    have hrun : (TableRow.renderAll rows.reverse).length = run.length := by
      simp [TableRow.renderAll, hrows.length_eq]
    rw [TableRow.alignTables_append_run hrows hfront hrest, ← hlength front, List.drop_left, ← hrun,
      List.take_left]
    exact TableRow.isTable_renderAll hrows.isRead

/-- Two rows of which the second is indented deeper and has fewer cells, below a step. -/
theorem isTable_alignTables_raggedRows :
    TableRow.IsTable
      [⟨"  ".toList, ["a".toList, "bb".toList]⟩, ⟨"    ".toList, ["ccc".toList]⟩]
      (((alignTables ["И A".toList, "  |a|bb|".toList, "    | ccc |".toList]).drop 1).take 2) :=
  (isTable_alignTables _).2.2.1 ["И A".toList] ["  |a|bb|".toList, "    | ccc |".toList] []
    _ rfl (.cons (by decide) (.cons (by decide) .nil)) (by simp; decide) (by simp)

example : alignTables ["И A".toList, "  |a|bb|".toList, "    | ccc |".toList] =
    ["И A".toList, "  | a   | bb |".toList, "    | ccc |    |".toList] := by decide

end Scenarist
