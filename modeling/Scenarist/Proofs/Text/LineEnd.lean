import Scenarist.Proofs.Text.Blank
import Scenarist.Proofs.Text.Lines
import Mathlib.Data.List.Forall2

set_option autoImplicit false

/-! # Line ends

A text whose pieces were joined by one line end uses that line end and is cut into the same pieces. Cut
at its line feeds instead, the pieces come with a carriage return here and there, and a reader who trims
carriage returns sees the pieces.

Main statements: `LineEnd.split_joinWith`, `LineEnd.ofText_joinWith` and
`LineEnd.lines_joinWith`. -/

namespace Scenarist

namespace Text

theorem exists_lines_eq_concat (text : Text) : ∃ front last, lines text = front ++ [last] := by
  rcases List.eq_nil_or_concat (lines text) with h | ⟨front, last, h⟩
  · exact absurd h (lines_ne_nil text)
  · exact ⟨front, last, by rw [h, List.concat_eq_append]⟩

/-- The lines of a text behind which a piece without a line feed is written. -/
theorem exists_lines_append {tail : Text} (htail : '\n' ∉ tail) (text : Text) :
    ∃ front last, lines text = front ++ [last] ∧ lines (text ++ tail) = front ++ [last ++ tail] := by
  obtain ⟨front, last, hl⟩ := exists_lines_eq_concat text
  refine ⟨front, last, hl, ?_⟩
  have hfree : ∀ l ∈ front ++ [last], '\n' ∉ l := fun l h => not_mem_of_mem_lines (hl ▸ h)
  have hlast : '\n' ∉ last ++ tail := by
    simp [hfree last (by simp), htail]
  have hfront : ∀ l ∈ front, '\n' ∉ l := fun l h => hfree l (List.mem_append_left _ h)
  have htext : text = front.flatMap (· ++ ['\n']) ++ last := by
    rw [← unlines_lines text, hl, unlines_append front (by simp)]
    exact congrArg _ (joinWith_singleton ['\n'] last)
  rw [htext, List.append_assoc, lines_front hfront, lines_of_not_mem hlast]

end Text

namespace LineEnd

open Text

/-! ## Joining and cutting -/

theorem joinWith_split (lineEnd : LineEnd) (text : Text) :
    joinWith lineEnd.text (lineEnd.split text) = text := by
  cases lineEnd with
  | lf => exact unlines_lines text
  | crlf => exact joinWith_splitOnCrlf text

theorem split_ne_nil (lineEnd : LineEnd) (text : Text) : lineEnd.split text ≠ [] := by
  cases lineEnd with
  | lf => exact lines_ne_nil text
  | crlf => exact splitOnCrlf_ne_nil text

/-- Pieces without line feeds are what their join is cut into. -/
theorem split_joinWith (lineEnd : LineEnd) {pieces : List Text} (hne : pieces ≠ [])
    (h : ∀ p ∈ pieces, '\n' ∉ p) : lineEnd.split (joinWith lineEnd.text pieces) = pieces := by
  cases lineEnd with
  | lf => exact lines_unlines hne h
  | crlf => exact splitOnCrlf_joinWith hne h

/-- The lines of joined pieces are the pieces, with a carriage return behind some of them. -/
theorem lines_joinWith (lineEnd : LineEnd) {pieces : List Text} (hne : pieces ≠ [])
    (h : ∀ p ∈ pieces, '\n' ∉ p) :
    List.Forall₂ (fun p l => l = p ∨ l = p ++ ['\r']) pieces
      (lines (joinWith lineEnd.text pieces)) := by
  cases lineEnd with
  | lf =>
      have hlines : lines (joinWith lf.text pieces) = pieces := lines_unlines hne h
      rw [hlines]
      exact List.forall₂_same.2 fun _ _ => Or.inl rfl
  | crlf =>
      induction pieces with
      | nil => exact absurd rfl hne
      | cons p ps ih =>
          have hp := h p List.mem_cons_self
          have hps := fun x hx => h x (List.mem_cons_of_mem p hx)
          cases ps with
          | nil =>
              rw [joinWith_singleton, lines_of_not_mem hp]
              exact .cons (Or.inl rfl) .nil
          | cons q qs =>
              have hp' : '\n' ∉ p ++ ['\r'] := by simp [hp]
              have hjoin : joinWith crlf.text (p :: q :: qs) =
                  (p ++ ['\r']) ++ '\n' :: joinWith crlf.text (q :: qs) := by
                rw [joinWith_cons_cons]
                simp [LineEnd.text]
              rw [hjoin, lines_cons_append_cons hp']
              exact .cons (Or.inr rfl) (ih (by simp) hps)

/-- A reader who trims carriage returns does not see which pieces have one behind them. -/
theorem map_trimReturns_of_forall₂ {pieces lines : List Text}
    (h : List.Forall₂ (fun p l => l = p ∨ l = p ++ ['\r']) pieces lines) :
    lines.map trimReturns = pieces.map trimReturns := by
  induction h with
  | nil => rfl
  | cons hline _ ih =>
      rw [List.map_cons, List.map_cons, ih]
      rcases hline with rfl | rfl
      · rfl
      · rw [trimReturns_concat_return]

/-! ## The line end in use -/

theorem ofText_eq_crlf_iff {text : Text} :
    ofText text = crlf ↔ ∃ a b, text = a ++ '\r' :: '\n' :: b := by
  have : contains ['\r', '\n'] text = true ↔ ∃ a b, text = a ++ '\r' :: '\n' :: b := by
    simpa using @contains_iff ['\r', '\n'] text
  rw [← this]
  unfold ofText
  split <;> simp [*]

theorem ofText_eq_lf_iff {text : Text} :
    ofText text = lf ↔ ∀ a b, text ≠ a ++ '\r' :: '\n' :: b := by
  have := @ofText_eq_crlf_iff text
  cases h : ofText text <;> simp_all

/-- A text uses pairs if and only if a line that is not its last one ends with a carriage return. -/
theorem ofText_eq_lf_iff_lines {text : Text} :
    ofText text = lf ↔ ∀ l ∈ (lines text).dropLast, l.getLast? ≠ some '\r' := by
  rw [ofText_eq_lf_iff]
  constructor
  · intro h l hl heq
    obtain ⟨front, last, hlines⟩ := exists_lines_eq_concat text
    rw [hlines, List.dropLast_concat] at hl
    obtain ⟨stem, rfl⟩ := List.getLast?_eq_some_iff.1 heq
    obtain ⟨before, after, rfl⟩ := List.append_of_mem hl
    obtain ⟨next, others, hnext⟩ := List.exists_cons_of_ne_nil (l := after ++ [last]) (by simp)
    refine h (before.flatMap (· ++ ['\n']) ++ stem) (unlines (next :: others)) ?_
    calc text = unlines (before ++ (stem ++ ['\r']) :: (after ++ [last])) := by
          rw [← unlines_lines text, hlines, List.append_assoc, List.cons_append]
      _ = before.flatMap (· ++ ['\n']) ++ unlines ((stem ++ ['\r']) :: next :: others) := by
          rw [unlines_append before (by simp), hnext]
      _ = before.flatMap (· ++ ['\n']) ++ stem ++ '\r' :: '\n' :: unlines (next :: others) := by
          rw [unlines, joinWith_cons_cons]
          simp [unlines]
  · rintro h a b rfl
    obtain ⟨front, last, -, hlines⟩ := @exists_lines_append ['\r'] (by decide) a
    have hsplit : a ++ '\r' :: '\n' :: b = (a ++ ['\r']) ++ '\n' :: b := by simp
    rw [hsplit, lines_append_cons, hlines] at h
    refine h (last ++ ['\r']) ?_ (by simp)
    rw [List.dropLast_append_of_ne_nil (lines_ne_nil b)]
    simp

/-- A text joined from pieces without line feeds uses the line end that joined them: a pair stands
between two pieces, and no piece but the last may bring a carriage return to a line feed. -/
theorem ofText_joinWith {lineEnd : LineEnd} {pieces : List Text} (hne : pieces ≠ [])
    (h : ∀ p ∈ pieces, '\n' ∉ p) (hcrlf : lineEnd = crlf → 2 ≤ pieces.length)
    (hlf : lineEnd = lf → ∀ p ∈ pieces.dropLast, p.getLast? ≠ some '\r') :
    ofText (joinWith lineEnd.text pieces) = lineEnd := by
  cases lineEnd with
  | lf =>
      rw [ofText_eq_lf_iff_lines]
      have hlines : lines (joinWith lf.text pieces) = pieces := lines_unlines hne h
      rw [hlines]
      exact hlf rfl
  | crlf =>
      rw [ofText_eq_crlf_iff]
      obtain ⟨p, ps, rfl⟩ := List.exists_cons_of_ne_nil hne
      cases ps with
      | nil => simp at hcrlf
      | cons q qs =>
          refine ⟨p, joinWith crlf.text (q :: qs), ?_⟩
          rw [joinWith_cons_cons]
          simp [LineEnd.text]

/-! ## Lines with even ends -/

/-- Whether every line but the last ends with a carriage return, or none of them does. -/
def IsEven (lines : List Text) : Prop :=
  (∀ l ∈ lines.dropLast, l.getLast? = some '\r') ∨ ∀ l ∈ lines.dropLast, l.getLast? ≠ some '\r'

instance (lines : List Text) : Decidable (IsEven lines) := by
  unfold IsEven
  infer_instance

theorem getLast?_expandTabs (line : Text) :
    (expandTabs line).getLast? = some '\r' ↔ line.getLast? = some '\r' := by
  rcases List.eq_nil_or_concat line with rfl | ⟨front, c, hline⟩
  · rfl
  · rw [List.concat_eq_append] at hline
    rw [hline]
    by_cases hc : c = '\r'
    · simp [hc, expandTabs_concat_return]
    · obtain ⟨x, d, hx, hd⟩ := expandTabs_concat front c
      have hd' : d ≠ '\r' := by
        rcases hd with rfl | rfl
        · exact hc
        · decide
      simp [hx, hc, hd']

theorem IsEven.map_expandTabs {lines : List Text} (h : IsEven lines) :
    IsEven (lines.map expandTabs) := by
  unfold IsEven
  rw [← List.map_dropLast]
  refine h.imp (fun h l hl => ?_) fun h l hl => ?_
  · obtain ⟨line, hline, rfl⟩ := List.mem_map.1 hl
    exact (getLast?_expandTabs line).2 (h line hline)
  · obtain ⟨line, hline, rfl⟩ := List.mem_map.1 hl
    exact fun heq => h line hline ((getLast?_expandTabs line).1 heq)

/-- Whether lines are those of a text that is written with a line end. A single line shows none, so that
either may be said of it. -/
def IsUsedIn : LineEnd → List Text → Prop
  | .lf, lines => ∀ l ∈ lines.dropLast, l.getLast? ≠ some '\r'
  | .crlf, lines => 2 ≤ lines.length → ∀ l ∈ lines.head?, l.getLast? = some '\r'

theorem IsUsedIn.ofText_eq {lineEnd : LineEnd} {text : Text}
    (h : lineEnd.IsUsedIn (lines text)) (hlength : 2 ≤ (lines text).length) :
    ofText text = lineEnd := by
  cases lineEnd with
  | lf => exact ofText_eq_lf_iff_lines.2 h
  | crlf =>
      cases hend : ofText text with
      | crlf => rfl
      | lf =>
          rw [ofText_eq_lf_iff_lines] at hend
          generalize lines text = all at *
          match all, hlength with
          | first :: second :: rest, _ =>
              have hfirst := h (by simp) first rfl
              exact absurd hfirst (hend first (by simp))

theorem isUsedIn_lf_of_not_mem {lines : List Text} (h : ∀ l ∈ lines, '\r' ∉ l) : lf.IsUsedIn lines := by
  intro l hl hlast
  exact h l (List.dropLast_subset _ hl) (List.mem_of_mem_getLast? hlast)

theorem isUsedIn_crlf_of_dropLast {lines : List Text} (h : ∀ l ∈ lines.dropLast, l.getLast? = some '\r') :
    crlf.IsUsedIn lines := by
  intro hlength l hl
  match lines, hlength with
  | first :: second :: rest, _ =>
      obtain rfl : first = l := by simpa using hl
      exact h first (by simp)

/-- Whether a text keeps to one line end: no carriage return stands in it, or one stands in front of every
line feed. -/
def IsThroughout (text : Text) : Prop :=
  '\r' ∉ text ∨ ∀ l ∈ (lines text).dropLast, l.getLast? = some '\r'

instance (text : Text) : Decidable (IsThroughout text) := by
  unfold IsThroughout
  infer_instance

/-- Whether the pieces between the line ends in use are lines. -/
def IsCutIntoLines (text : Text) : Prop := ∀ p ∈ (ofText text).split text, '\n' ∉ p

private theorem lineFeed_not_mem_splitOnCrlf {lines : List Text} (hfree : ∀ l ∈ lines, '\n' ∉ l)
    (h : ∀ l ∈ lines.dropLast, l.getLast? = some '\r') :
    ∀ p ∈ splitOnCrlf (unlines lines), '\n' ∉ p := by
  induction lines with
  | nil =>
      intro p hp
      obtain rfl : p = [] := by simpa [unlines, joinWith, List.intercalate, splitOnCrlf] using hp
      exact List.not_mem_nil
  | cons l ls ih =>
      have hl := hfree l List.mem_cons_self
      have hls := fun x hx => hfree x (List.mem_cons_of_mem l hx)
      cases ls with
      | nil =>
          have hsingle : unlines [l] = l := joinWith_singleton ['\n'] l
          rw [hsingle, splitOnCrlf_of_not_mem hl]
          simpa using hl
      | cons m ms =>
          obtain ⟨stem, rfl⟩ := List.getLast?_eq_some_iff.1 (h l (by simp))
          have hstem : '\n' ∉ stem := fun hmem => hl (List.mem_append_left _ hmem)
          have hjoin : unlines ((stem ++ ['\r']) :: m :: ms) =
              stem ++ '\r' :: '\n' :: unlines (m :: ms) := by
            rw [unlines, joinWith_cons_cons]
            simp [unlines]
          rw [hjoin, splitOnCrlf_append hstem]
          intro p hp
          rcases List.mem_cons.1 hp with rfl | hp
          · exact hstem
          · exact ih hls (fun x hx => h x (by simp [hx])) p hp

/-- Lines with even ends are what their text is cut into. -/
theorem IsEven.isCutIntoLines {lines : List Text} (h : IsEven lines)
    (hfree : ∀ l ∈ lines, '\n' ∉ l) : IsCutIntoLines (unlines lines) := by
  unfold IsCutIntoLines
  cases hend : ofText (unlines lines) with
  | lf => exact fun p hp => not_mem_of_mem_lines hp
  | crlf =>
      rcases h with h | h
      · exact lineFeed_not_mem_splitOnCrlf hfree h
      · exfalso
        have hne : lines ≠ [] := by
          rintro rfl
          exact absurd hend (by decide)
        have hlf : ofText (unlines lines) = lf := by
          rw [ofText_eq_lf_iff_lines, lines_unlines hne hfree]
          exact h
        rw [hlf] at hend
        exact absurd hend (by decide)

/-! ## Pieces with line feeds in them -/

theorem lines_joinWith_cons_cons (lineEnd : LineEnd) (p q : Text) (pieces : List Text) :
    ∃ front last last', lines p = front ++ [last] ∧ (last' = last ∨ last' = last ++ ['\r']) ∧
      lines (joinWith lineEnd.text (p :: q :: pieces)) =
        front ++ last' :: lines (joinWith lineEnd.text (q :: pieces)) := by
  cases lineEnd with
  | lf =>
      obtain ⟨front, last, hp⟩ := exists_lines_eq_concat p
      refine ⟨front, last, last, hp, Or.inl rfl, ?_⟩
      have hjoin : joinWith lf.text (p :: q :: pieces) = p ++ '\n' :: joinWith lf.text (q :: pieces) := by
        rw [joinWith_cons_cons]
        simp [LineEnd.text]
      rw [hjoin, lines_append_cons, hp]
      simp
  | crlf =>
      obtain ⟨front, last, hp, hp'⟩ := @exists_lines_append ['\r'] (by decide) p
      refine ⟨front, last, last ++ ['\r'], hp, Or.inr rfl, ?_⟩
      have hjoin : joinWith crlf.text (p :: q :: pieces) =
          (p ++ ['\r']) ++ '\n' :: joinWith crlf.text (q :: pieces) := by
        rw [joinWith_cons_cons]
        simp [LineEnd.text]
      rw [hjoin, lines_append_cons, hp']
      simp

/-- The lines of joined pieces are lines of the pieces, some with a carriage return behind them. -/
theorem exists_piece_of_mem_lines {lineEnd : LineEnd} {pieces : List Text} (hne : pieces ≠ [])
    {line : Text} (h : line ∈ lines (joinWith lineEnd.text pieces)) :
    ∃ p ∈ pieces, ∃ l ∈ lines p, line = l ∨ line = l ++ ['\r'] := by
  induction pieces with
  | nil => exact absurd rfl hne
  | cons p ps ih =>
      cases ps with
      | nil =>
          rw [joinWith_singleton] at h
          exact ⟨p, List.mem_cons_self, line, h, Or.inl rfl⟩
      | cons q qs =>
          obtain ⟨front, last, last', hp, hlast, hjoin⟩ := lines_joinWith_cons_cons lineEnd p q qs
          rw [hjoin] at h
          rcases List.mem_append.1 h with h | h
          · exact ⟨p, List.mem_cons_self, line, by simp [hp, h], Or.inl rfl⟩
          · rcases List.mem_cons.1 h with rfl | h
            · exact ⟨p, List.mem_cons_self, last, by simp [hp], hlast⟩
            · obtain ⟨piece, hpiece, hline⟩ := ih (by simp) h
              exact ⟨piece, List.mem_cons_of_mem _ hpiece, hline⟩

theorem exists_line_of_mem_lines_piece (lineEnd : LineEnd) {pieces : List Text} {piece line : Text}
    (hpiece : piece ∈ pieces) (hline : line ∈ lines piece) :
    ∃ l ∈ lines (joinWith lineEnd.text pieces), l = line ∨ l = line ++ ['\r'] := by
  induction pieces with
  | nil => exact absurd hpiece List.not_mem_nil
  | cons p ps ih =>
      cases ps with
      | nil =>
          obtain rfl := List.mem_singleton.1 hpiece
          exact ⟨line, by rw [joinWith_singleton]; exact hline, Or.inl rfl⟩
      | cons q qs =>
          obtain ⟨front, last, last', hp, hlast, hjoin⟩ := lines_joinWith_cons_cons lineEnd p q qs
          rw [hjoin]
          rcases List.mem_cons.1 hpiece with rfl | hpiece
          · rw [hp] at hline
            rcases List.mem_append.1 hline with hline | hline
            · exact ⟨line, by simp [hline], Or.inl rfl⟩
            · obtain rfl := List.mem_singleton.1 hline
              exact ⟨last', by simp, hlast⟩
          · obtain ⟨l, hl, hcases⟩ := ih hpiece
            exact ⟨l, by simp [hl], hcases⟩

/-- Whether two lines are two pieces, or the two pieces with a carriage return behind each. -/
def SameEnd (related : Text → Text → Prop) (line line' : Text) : Prop :=
  related line line' ∨
    ∃ p p', related p p' ∧ line = p ++ ['\r'] ∧ line' = p' ++ ['\r']

/-- Pieces that correspond make up lines that correspond. -/
theorem forall₂_lines_joinWith (lineEnd : LineEnd) {related : Text → Text → Prop}
    {pieces pieces' : List Text} (hne : pieces ≠ []) (h : List.Forall₂ related pieces pieces')
    (hfree : ∀ p ∈ pieces, '\n' ∉ p) (hfree' : ∀ p ∈ pieces', '\n' ∉ p) :
    List.Forall₂ (SameEnd related) (lines (joinWith lineEnd.text pieces))
      (lines (joinWith lineEnd.text pieces')) := by
  induction h with
  | nil => exact absurd rfl hne
  | @cons p p' ps ps' hp hps ih =>
      have hpfree := lines_of_not_mem (hfree p List.mem_cons_self)
      have hpfree' := lines_of_not_mem (hfree' p' List.mem_cons_self)
      cases hps with
      | nil =>
          rw [joinWith_singleton, joinWith_singleton, hpfree, hpfree']
          exact .cons (Or.inl hp) .nil
      | @cons q q' qs qs' hq hqs =>
          have hrest := ih (by simp) (fun x hx => hfree x (List.mem_cons_of_mem _ hx))
            fun x hx => hfree' x (List.mem_cons_of_mem _ hx)
          cases lineEnd with
          | lf =>
              have hjoin : ∀ a b : Text, ∀ rest : List Text,
                  joinWith lf.text (a :: b :: rest) = a ++ '\n' :: joinWith lf.text (b :: rest) := by
                intro a b rest
                rw [joinWith_cons_cons]
                simp [LineEnd.text]
              rw [hjoin, hjoin, lines_append_cons, lines_append_cons, hpfree, hpfree']
              exact .cons (Or.inl hp) hrest
          | crlf =>
              have hjoin : ∀ a b : Text, ∀ rest : List Text, joinWith crlf.text (a :: b :: rest) =
                  (a ++ ['\r']) ++ '\n' :: joinWith crlf.text (b :: rest) := by
                intro a b rest
                rw [joinWith_cons_cons]
                simp [LineEnd.text]
              -- a reader who cuts at line feeds leaves the carriage returns to the lines
              have hreturn : ∀ a : Text, '\n' ∉ a → '\n' ∉ a ++ ['\r'] := by
                intro a ha
                simp [ha]
              rw [hjoin, hjoin, lines_append_cons, lines_append_cons,
                lines_of_not_mem (hreturn p (hfree p List.mem_cons_self)),
                lines_of_not_mem (hreturn p' (hfree' p' List.mem_cons_self))]
              exact .cons (Or.inr ⟨p, p', hp, rfl, rfl⟩) hrest

end LineEnd

end Scenarist
