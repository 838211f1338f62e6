import Scenarist.Proofs.Alignment.Tables
import Scenarist.Proofs.Returns

set_option autoImplicit false

/-! # Lines of an aligned script

The script is cut for alignment at one kind of line end, which is the pair as soon as a single pair stands
in it. If the line ends are mixed, a piece can hold several lines, and a row or an assignment is found in it
all the same, for line feeds are blanks. A piece that is put into a new layout keeps the line feeds in front
of its first character and loses all others, so that lines are merged or empty lines vanish. Nothing but
blanks and bars is lost with them.

Main statements: `sameLines_align_iff` (which documents keep their lines) and `sameLines_of_isEven` (those
with even line ends do). -/

namespace Scenarist

open Text

/-! ## Texts without blanks and bars -/

/-- The characters of a text that are neither blank nor bars. -/
def bare (text : Text) : Text := text.filter fun c => !isBlank c && c != '|'

/-- The characters of a text that are neither blank nor bars, and its line feeds. -/
def skeleton (text : Text) : Text := text.filter fun c => c == '\n' || (!isBlank c && c != '|')

/-- Texts with the same number of line feeds that hold the same in each line, but for blanks and bars. -/
structure SameLines (old new : Text) : Prop where
  feeds : new.count '\n' = old.count '\n'
  inLine : ∀ n : Nat, (lines new)[n]?.map bare = (lines old)[n]?.map bare

theorem bare_append (a b : Text) : bare (a ++ b) = bare a ++ bare b :=
  List.filter_append a b

theorem skeleton_append (a b : Text) : skeleton (a ++ b) = skeleton a ++ skeleton b :=
  List.filter_append a b

theorem bare_of_isBlank {text : Text} (h : ∀ c ∈ text, isBlank c = true) : bare text = [] := by
  refine List.filter_eq_nil_iff.2 fun c hc => ?_
  simp [h c hc]

theorem lineFeed_not_mem_bare (text : Text) : '\n' ∉ bare text := by
  intro hmem
  have hkept := (List.mem_filter.1 hmem).2
  exact absurd hkept (by decide)

theorem lineFeed_mem_skeleton_iff {text : Text} : '\n' ∈ skeleton text ↔ '\n' ∈ text := by
  simp [skeleton]

theorem skeleton_of_not_mem {text : Text} (h : '\n' ∉ text) : skeleton text = bare text := by
  refine List.filter_congr fun c hc => ?_
  have hne : c ≠ '\n' := by
    rintro rfl
    exact h hc
  simp [hne]

theorem bare_sublist_skeleton (text : Text) : (bare text).Sublist (skeleton text) := by
  refine List.monotone_filter_right text fun c hc => ?_
  simp only [Bool.or_eq_true]
  exact Or.inr hc

/-- What passes through a sieve of joined pieces is what passes of the pieces, joined by what passes of the
separator. -/
theorem Text.filter_joinWith (p : Char → Bool) (sep : Text) (pieces : List Text) :
    (joinWith sep pieces).filter p = joinWith (sep.filter p) (pieces.map (List.filter p)) := by
  induction pieces with
  | nil => rfl
  | cons piece pieces ih =>
      cases pieces with
      | nil => rw [List.map_singleton, joinWith_singleton, joinWith_singleton]
      | cons next pieces =>
          rw [joinWith_cons_cons, List.filter_append, List.filter_append, ih]
          simp only [List.map_cons, joinWith_cons_cons]

theorem Text.joinWith_nil (pieces : List Text) : joinWith [] pieces = pieces.flatten := by
  induction pieces with
  | nil => rfl
  | cons piece pieces ih =>
      cases pieces with
      | nil => rw [joinWith_singleton]; simp
      | cons next pieces => rw [joinWith_cons_cons, ih, List.append_nil, List.flatten_cons (l := piece)]

/-- The skeleton of a text is made of its lines without blanks and bars. -/
theorem skeleton_eq_unlines (text : Text) : skeleton text = unlines ((lines text).map bare) := by
  have hfeed : ['\n'].filter (fun c => c == '\n' || (!isBlank c && c != '|')) = ['\n'] := by decide
  have hlines : (lines text).map skeleton = (lines text).map bare :=
    List.map_congr_left fun line hline => skeleton_of_not_mem (not_mem_of_mem_lines hline)
  calc skeleton text = skeleton (unlines (lines text)) := by rw [unlines_lines]
    _ = unlines ((lines text).map skeleton) := by
        unfold skeleton unlines
        rw [filter_joinWith, hfeed]
    _ = unlines ((lines text).map bare) := by rw [hlines]

theorem lines_skeleton (text : Text) : lines (skeleton text) = (lines text).map bare := by
  rw [skeleton_eq_unlines]
  refine lines_unlines (by simpa using lines_ne_nil text) fun line hline => ?_
  obtain ⟨old, -, rfl⟩ := List.mem_map.1 hline
  exact lineFeed_not_mem_bare old

theorem sameLines_iff {old new : Text} : SameLines old new ↔ skeleton new = skeleton old := by
  constructor
  · intro h
    have hlines : (lines new).map bare = (lines old).map bare := by
      refine List.ext_getElem? fun n => ?_
      rw [List.getElem?_map, List.getElem?_map, h.inLine n]
    rw [skeleton_eq_unlines, skeleton_eq_unlines, hlines]
  · intro h
    constructor
    · have hcount : ∀ text : Text, (skeleton text).count '\n' = text.count '\n' := fun text =>
        List.count_filter (by decide)
      rw [← hcount new, h, hcount]
    · intro n
      rw [← List.getElem?_map, ← List.getElem?_map, ← lines_skeleton, ← lines_skeleton, h]

instance (old new : Text) : Decidable (SameLines old new) := decidable_of_iff _ sameLines_iff.symm

/-! ## Pieces -/

/-- What aligning makes of a piece: the same, or a new layout that differs in blanks and bars only. -/
def KeepsBare (old new : Text) : Prop := new = old ∨ Relaid old new ∧ bare new = bare old

namespace KeepsBare

variable {old new : Text}

theorem bare_eq (h : KeepsBare old new) : bare new = bare old := by
  rcases h with rfl | ⟨-, h⟩
  · rfl
  · exact h

/-- The skeletons of a piece and of its new layout: the indentation with its line feeds, and behind it all
line feeds or none. -/
theorem exists_skeleton (h : Relaid old new) (hbare : bare new = bare old) :
    ∃ indent, skeleton old = indent ++ skeleton (stripLeft old) ∧
      skeleton new = indent ++ bare (stripLeft old) := by
  obtain ⟨indent, c, tail, tail', rfl, rfl, hblank, hc, -, hfree, -⟩ := h
  rw [bare_append, bare_append, bare_of_isBlank hblank] at hbare
  refine ⟨skeleton indent, ?_, ?_⟩
  · rw [stripLeft_relaid hblank hc, skeleton_append]
  · rw [stripLeft_relaid hblank hc, skeleton_append, skeleton_of_not_mem hfree]
    exact congrArg _ hbare

theorem sublist (h : KeepsBare old new) : (skeleton new).Sublist (skeleton old) := by
  rcases h with rfl | ⟨h, hbare⟩
  · exact List.Sublist.refl _
  · obtain ⟨indent, hold, hnew⟩ := exists_skeleton h hbare
    rw [hold, hnew]
    exact (bare_sublist_skeleton _).append_left indent

/-- A piece that is put into a new layout keeps its lines if there is one line behind the indentation. -/
theorem skeleton_eq_iff (h : KeepsBare old new) :
    skeleton new = skeleton old ↔ (new ≠ old → '\n' ∉ stripLeft old) := by
  rcases h with rfl | ⟨h, hbare⟩
  · exact iff_of_true rfl fun hne => absurd rfl hne
  · obtain ⟨indent, hold, hnew⟩ := exists_skeleton h hbare
    constructor
    · intro heq _ hmem
      rw [hold, hnew] at heq
      rw [← lineFeed_mem_skeleton_iff, ← List.append_cancel_left heq] at hmem
      exact lineFeed_not_mem_bare _ hmem
    · intro hfree
      by_cases heq : new = old
      · rw [heq]
      · rw [hold, hnew, skeleton_of_not_mem (hfree heq)]

end KeepsBare

/-- Pieces that lose something lose it from what they are joined to. -/
theorem Text.joinWith_sublist (sep : Text) {pieces pieces' : List Text}
    (h : List.Forall₂ (fun old new : Text => new.Sublist old) pieces pieces') :
    (joinWith sep pieces').Sublist (joinWith sep pieces) := by
  induction h with
  | nil => exact List.Sublist.refl _
  | cons hpiece hrest ih =>
      cases hrest with
      | nil =>
          rw [joinWith_singleton, joinWith_singleton]
          exact hpiece
      | cons =>
          rw [joinWith_cons_cons, joinWith_cons_cons]
          exact (hpiece.append (List.Sublist.refl sep)).append ih

/-- What is joined of pieces that lose something stays the same only if the pieces do. -/
theorem Text.joinWith_eq_iff_of_sublist (sep : Text) {pieces pieces' : List Text}
    (h : List.Forall₂ (fun old new : Text => new.Sublist old) pieces pieces') :
    joinWith sep pieces' = joinWith sep pieces ↔ pieces' = pieces := by
  refine ⟨fun heq => ?_, fun heq => by rw [heq]⟩
  induction h with
  | nil => rfl
  | @cons old new rest rest' hpiece hrest ih =>
      cases hrest with
      | nil =>
          rw [joinWith_singleton, joinWith_singleton] at heq
          rw [heq]
      | @cons next next' others others' hnext hothers =>
          rw [joinWith_cons_cons, joinWith_cons_cons] at heq
          -- neither part can be longer than before, so both are as long as before
          have hlengths := congrArg List.length heq
          simp only [List.length_append] at hlengths
          have hshorter := hpiece.length_le
          have hbehind := (joinWith_sublist sep (.cons hnext hothers)).length_le
          obtain rfl : new = old := hpiece.eq_of_length (by omega)
          rw [ih (List.append_cancel_left heq)]

theorem map_bare_eq {pieces pieces' : List Text} (h : List.Forall₂ KeepsBare pieces pieces') :
    pieces'.map bare = pieces.map bare := by
  induction h with
  | nil => rfl
  | cons hpiece _ ih => rw [List.map_cons, List.map_cons, hpiece.bare_eq, ih]

theorem map_skeleton_eq_iff {pieces pieces' : List Text} (h : List.Forall₂ KeepsBare pieces pieces') :
    pieces'.map skeleton = pieces.map skeleton ↔
      List.Forall₂ (fun old new => new ≠ old → '\n' ∉ stripLeft old) pieces pieces' := by
  induction h with
  | nil => exact iff_of_true rfl .nil
  | cons hpiece _ ih =>
      rw [List.map_cons, List.map_cons, List.cons.injEq, List.forall₂_cons]
      exact and_congr hpiece.skeleton_eq_iff ih

theorem skeleton_joinWith (lineEnd : LineEnd) (pieces : List Text) :
    skeleton (joinWith lineEnd.text pieces) = unlines (pieces.map skeleton) := by
  have hend : lineEnd.text.filter (fun c => c == '\n' || (!isBlank c && c != '|')) = ['\n'] := by
    cases lineEnd <;> decide
  unfold skeleton
  rw [filter_joinWith, hend]
  rfl

theorem bare_joinWith {sep : Text} (h : bare sep = []) (pieces : List Text) :
    bare (joinWith sep pieces) = (pieces.map bare).flatten := by
  have hsep : sep.filter (fun c => !isBlank c && c != '|') = [] := h
  unfold bare
  rw [filter_joinWith, hsep, joinWith_nil]

theorem bare_spaces (n : Nat) : bare (List.replicate n ' ') = [] := by
  refine bare_of_isBlank fun c hc => ?_
  rw [List.eq_of_mem_replicate hc]
  decide

/-! ## Layouts -/

namespace TableRow

theorem bare_strip (text : Text) : bare (strip text) = bare text := by
  obtain ⟨front, hfront, hblank⟩ := stripLeft_suffix text
  obtain ⟨tail, htail, hblank'⟩ := stripRight_prefix (stripLeft text)
  calc bare (strip text) = bare (strip text ++ tail) := by
        rw [bare_append, bare_of_isBlank hblank', List.append_nil]
    _ = bare (stripLeft text) := by
        rw [htail]
        rfl
    _ = bare text := by
        conv_rhs => rw [hfront]
        rw [bare_append, bare_of_isBlank hblank, List.nil_append]

/-- What stands between the bars of a line is what the cells of the row hold. -/
theorem bare_of_parse? {line : Text} {row : TableRow} (h : parse? line = some row) :
    bare line = (row.cells.map bare).flatten := by
  obtain ⟨middle, hstrip, -, rfl⟩ := parse?_eq_some h
  have hbar : bare ['|'] = [] := by decide
  calc bare line = bare ('|' :: middle ++ ['|']) := by rw [← bare_strip, hstrip]
    _ = bare middle := by
        rw [bare_append, hbar, List.append_nil, ← List.singleton_append, bare_append, hbar, List.nil_append]
    _ = ((splitOn '|' middle).map bare).flatten := by
        conv_lhs => rw [← joinWith_splitOn '|' middle]
        rw [bare_joinWith hbar]
    _ = (((splitOn '|' middle).map strip).map bare).flatten := by
        rw [List.map_map]
        refine congrArg List.flatten (List.map_congr_left fun piece _ => ?_)
        rw [Function.comp_apply, bare_strip]

/-- A row that is laid out holds what its cells hold. -/
theorem bare_render {rows : List TableRow} (hread : ∀ row ∈ rows, row.IsRead) {row : TableRow}
    (hrow : row ∈ rows) : bare (render (widths rows) row) = (row.cells.map bare).flatten := by
  have hblank := (hread row hrow).indent
  -- neither padding nor the bars count, and the cells that are filled up are empty
  have hpad : ∀ entry : Nat × Nat, bare (padRight entry.1 (row.cell entry.2)) = bare (row.cell entry.2) := by
    intro entry
    rw [padRight, bare_append, bare_spaces, List.append_nil]
  have hcells : (widths rows).zipIdx.map (fun entry => bare (padRight entry.1 (row.cell entry.2))) =
      row.cells.map bare ++ List.replicate (columns rows - row.cells.length) [] := by
    calc (widths rows).zipIdx.map (fun entry => bare (padRight entry.1 (row.cell entry.2)))
        = (widths rows).zipIdx.map (fun entry => bare (row.cell entry.2)) :=
          List.map_congr_left fun entry _ => hpad entry
      _ = (((widths rows).zipIdx.map Prod.snd).map row.cell).map bare := by
          rw [List.map_map, List.map_map]
          rfl
      _ = (row.filled (columns rows)).cells.map bare := by
          rw [List.zipIdx_map_snd, length_widths, filled, List.range_eq_range']
      _ = row.cells.map bare ++ List.replicate (columns rows - row.cells.length) [] := by
          rw [cells_filled (length_cells_le_columns hrow), List.map_append, List.map_replicate]
          rfl
  have hopening : bare "| ".toList = [] := by decide
  have hbetween : bare " | ".toList = [] := by decide
  have hclosing : bare " |".toList = [] := by decide
  unfold render
  dsimp only
  rw [bare_append, bare_append, bare_append, bare_of_isBlank hblank, hopening, hclosing,
    bare_joinWith hbetween, List.map_map, List.append_nil, List.nil_append, List.nil_append]
  refine (congrArg List.flatten hcells).trans ?_
  simp

end TableRow

theorem forall₂_keepsBare_alignTables (pieces : List Text) :
    List.Forall₂ KeepsBare pieces (alignTables pieces) := by
  refine forall₂_alignTables (fun _ => Or.inl rfl) (fun rows line row hread hrow hline => Or.inr ⟨?_, ?_⟩)
    pieces
  · exact TableRow.relaid_render hline (TableRow.widths_ne_nil (List.ne_nil_of_mem hrow) hread)
  · rw [TableRow.bare_render hread hrow, TableRow.bare_of_parse? hline]

theorem forall₂_keepsBare_alignAssignments (pieces : List Text) :
    List.Forall₂ KeepsBare pieces (alignAssignments pieces) := by
  refine AssignmentRun.forall₂_alignFrom (fun _ => Or.inl rfl)
    (fun line assignment width hline => Or.inr ⟨AssignmentLine.relaid_render hline width, ?_⟩) none pieces
  obtain ⟨before, after, tail, hbody, hbefore, hafter, htail⟩ := AssignmentLine.exists_gaps_of_parse? hline
  obtain ⟨hread, hindent, -⟩ := AssignmentLine.parse?_eq_some hline
  have hfeed : bare tail = [] := by
    rcases htail with rfl | rfl
    · rfl
    · decide
  have hsplit : ∀ a b : Text, bare (a ++ '=' :: b) = bare a ++ '=' :: bare b := by
    intro a b
    have hsign : bare ['='] = ['='] := by decide
    rw [← List.singleton_append, bare_append, bare_append, hsign, List.singleton_append]
  have hgap : bare [' '] = [] := by decide
  -- of either line, the name, the sign and the value are left
  calc bare (assignment.render width)
      = bare assignment.name ++ ('=' :: bare assignment.value) := by
        have hrender : assignment.render width = assignment.indent ++ (assignment.name ++
            ((List.replicate (width - assignment.name.length) ' ' ++ [' ']) ++
              '=' :: ([' '] ++ assignment.value))) := by
          rw [AssignmentLine.render_eq, AssignmentLine.wording]
          simp
        rw [hrender, bare_append, bare_of_isBlank hread.indent, bare_append, hsplit, bare_append, bare_append,
          bare_spaces, hgap]
        rfl
    _ = bare (stripLeft line) := by
        rw [hbody, bare_append, hsplit, bare_append, bare_append, bare_of_isBlank hbefore,
          bare_of_isBlank hafter, hfeed]
        simp
    _ = bare line := by
        conv_rhs => rw [← leadingBlanks_append_stripLeft line, ← hindent]
        rw [bare_append, bare_of_isBlank hread.indent, List.nil_append]

/-! ## Documents -/

theorem SectionKey.Found.text_eq {key : SectionKey} {text : Text} {s : Section} (hs : key.Found text s) :
    s.text = text := by
  have hfind := SectionKey.find?_eq_some hs.lines_eq hs.above hs.body hs.below
  rw [← hs.name_eq] at hfind
  exact Section.text_of_find? hfind

/-- What stands around the body of the script stays around it when its pieces change. -/
theorem exists_around_body {change : List Text → List Text} (h : Aligns change) (text : Text) :
    ∃ front back, text = front ++ unlines (SectionKey.script.bodyIn (lines text)) ++ back ∧
      mapScript change text =
        front ++ realign change (unlines (SectionKey.script.bodyIn (lines text))) ++ back := by
  rcases exists_mapScript h text with ⟨heq, hbody⟩ | ⟨s, content, hs, hbody, hne, heq, hcontent, -⟩
  · have hnil : unlines (SectionKey.script.bodyIn (lines text)) = [] := by
      rw [hbody]
      rfl
    refine ⟨text, [], ?_, ?_⟩
    · rw [hnil, List.append_nil, List.append_nil]
    · rw [hnil, heq, realign_nil h, List.append_nil, List.append_nil]
  · have hjoin : ∀ more : List Text, more ≠ [] → unlines (s.rest :: more) = s.rest ++ ['\n'] ++ unlines more := by
      intro more hmore
      have := unlines_append [s.rest] hmore
      simpa using this
    have hchanged : content = s.rest ++ ['\n'] ++ realign change (unlines s.body) := by
      rw [← unlines_lines content, hcontent, hjoin _ (lines_ne_nil _), unlines_lines]
    refine ⟨s.front ++ s.header ++ (s.rest ++ ['\n']), s.back, ?_, ?_⟩
    · conv_lhs => rw [← hs.text_eq]
      rw [hbody, Section.text, Section.content, hjoin _ hne]
      simp
    · rw [heq, hbody, Section.withContent, hchanged]
      simp

section

variable {change : List Text → List Text}

theorem bare_mapScript (h : ∀ pieces, List.Forall₂ KeepsBare pieces (change pieces)) (text : Text) :
    bare (mapScript change text) = bare text := by
  have haligns : Aligns change := fun pieces => (h pieces).imp fun _ _ hpiece => hpiece.imp_right And.left
  obtain ⟨front, back, htext, hchanged⟩ := exists_around_body haligns text
  have hbody : bare (realign change (unlines (SectionKey.script.bodyIn (lines text)))) =
      bare (unlines (SectionKey.script.bodyIn (lines text))) := by
    generalize unlines (SectionKey.script.bodyIn (lines text)) = body
    have hend : bare (LineEnd.ofText body).text = [] := by
      cases LineEnd.ofText body <;> decide
    calc bare (realign change body)
        = ((change ((LineEnd.ofText body).split body)).map bare).flatten := bare_joinWith hend _
      _ = bare (joinWith (LineEnd.ofText body).text ((LineEnd.ofText body).split body)) := by
          rw [map_bare_eq (h _), bare_joinWith hend]
      _ = bare body := by rw [LineEnd.joinWith_split]
  rw [hchanged]
  conv_rhs => rw [htext]
  simp only [bare_append, hbody]

/-- Whether no piece of the script that changes holds a line feed behind its indentation. -/
def StaysInLines (change : List Text → List Text) (text : Text) : Prop :=
  List.Forall₂ (fun old new => new ≠ old → '\n' ∉ stripLeft old) (scriptPieces text)
    (change (scriptPieces text))

/-- A document keeps its lines exactly if no piece that changes holds several. -/
theorem sameLines_mapScript_iff (h : ∀ pieces, List.Forall₂ KeepsBare pieces (change pieces)) (text : Text) :
    SameLines text (mapScript change text) ↔ StaysInLines change text := by
  have haligns : Aligns change := fun pieces => (h pieces).imp fun _ _ hpiece => hpiece.imp_right And.left
  obtain ⟨front, back, htext, hchanged⟩ := exists_around_body haligns text
  have haround : skeleton (mapScript change text) = skeleton text ↔
      skeleton (realign change (unlines (SectionKey.script.bodyIn (lines text)))) =
        skeleton (unlines (SectionKey.script.bodyIn (lines text))) := by
    rw [hchanged]
    conv_lhs => rhs; rw [htext]
    simp only [skeleton_append, List.append_cancel_right_eq, List.append_cancel_left_eq]
  -- a piece can lose line breaks and nothing else, so the whole is as before only if every piece is
  have hsublist : List.Forall₂ (fun old new : Text => new.Sublist old)
      ((scriptPieces text).map skeleton) ((change (scriptPieces text)).map skeleton) := by
    rw [List.forall₂_map_left_iff, List.forall₂_map_right_iff]
    exact (h (scriptPieces text)).imp fun _ _ hpiece => hpiece.sublist
  calc SameLines text (mapScript change text)
      ↔ skeleton (realign change (unlines (SectionKey.script.bodyIn (lines text)))) =
          skeleton (unlines (SectionKey.script.bodyIn (lines text))) := sameLines_iff.trans haround
    _ ↔ unlines ((change (scriptPieces text)).map skeleton) =
          unlines ((scriptPieces text).map skeleton) := by
        rw [← skeleton_joinWith (LineEnd.ofText (unlines (SectionKey.script.bodyIn (lines text)))),
          ← skeleton_joinWith (LineEnd.ofText (unlines (SectionKey.script.bodyIn (lines text))))]
        unfold scriptPieces
        rw [LineEnd.joinWith_split]
        rfl
    _ ↔ (change (scriptPieces text)).map skeleton = (scriptPieces text).map skeleton :=
        joinWith_eq_iff_of_sublist ['\n'] hsublist
    _ ↔ StaysInLines change text := map_skeleton_eq_iff (h _)

/-- In a document whose script has even line ends every piece is one line. -/
theorem staysInLines_of_isEven (h : Aligns change) {text : Text}
    (heven : LineEnd.IsEven (SectionKey.script.bodyIn (lines text))) : StaysInLines change text := by
  have hcut : ∀ p ∈ scriptPieces text, '\n' ∉ p :=
    heven.isCutIntoLines fun l hl => SectionKey.script.lineFeed_not_mem_of_mem_bodyIn hl
  have hpieces := (List.forall₂_and_left (scriptPieces text) _).2 ⟨hcut, h (scriptPieces text)⟩
  exact hpieces.imp fun old new hpiece _ hmem =>
    hpiece.1 ((List.dropWhile_sublist isBlank).subset hmem)

end

/-- Aligning the tables of a document, or its assignments, keeps the number of line feeds and, but for blanks
and bars, what stands in each line, exactly if no piece of the script that is put into a new layout holds a
line feed behind its indentation. What is neither blank nor a bar stays in any case. -/
theorem sameLines_align_iff (text : Text) :
    (SameLines text (alignScriptTables text) ↔ StaysInLines alignTables text) ∧
      (SameLines text (alignScriptAssignments text) ↔ StaysInLines alignAssignments text) ∧
      bare (alignScriptTables text) = bare text ∧ bare (alignScriptAssignments text) = bare text :=
  ⟨sameLines_mapScript_iff forall₂_keepsBare_alignTables text,
    sameLines_mapScript_iff forall₂_keepsBare_alignAssignments text,
    bare_mapScript forall₂_keepsBare_alignTables text,
    bare_mapScript forall₂_keepsBare_alignAssignments text⟩

def emptyLineBelowRow : Text := "ТекстСценария: |\n    | a |\n\r\n".toList

/-- A script with pairs in which an assignment goes on behind a line feed. -/
def valueOnNextLine : Text :=
  "ТекстСценария: |\n    И A\r\n        x =\n        1\r\n        yy = 2\r\n".toList

/-- The empty line below the row vanishes, and the two lines of the assignment become one. -/
theorem not_sameLines_align :
    ¬ SameLines emptyLineBelowRow (alignScriptTables emptyLineBelowRow) ∧
      ¬ SameLines valueOnNextLine (alignScriptAssignments valueOnNextLine) := by
  decide +kernel

/-- Documents whose script has even line ends keep their lines. -/
theorem sameLines_of_isEven {text : Text}
    (h : LineEnd.IsEven (SectionKey.script.bodyIn (lines text))) :
    SameLines text (alignScriptTables text) ∧ SameLines text (alignScriptAssignments text) :=
  ⟨(sameLines_mapScript_iff forall₂_keepsBare_alignTables text).2
      (staysInLines_of_isEven forall₂_realigned_alignTables h),
    (sameLines_mapScript_iff forall₂_keepsBare_alignAssignments text).2
      (staysInLines_of_isEven forall₂_realigned_alignAssignments h)⟩

end Scenarist
