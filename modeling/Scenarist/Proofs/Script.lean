import Scenarist.Proofs.Alignment
import Scenarist.Proofs.Record

set_option autoImplicit false

/-! # The script of a document, aligned

Aligning changes nothing but lines of the script body, and a line in a new layout is no top-level key and
no remark; so what a document says about itself stays. If the line ends of the body are even, the body
that is joined again is cut into the same pieces, and aligning it once more changes nothing.

Main statements: `sameIdentity_mapScript`, `remarksIn_mapScript`, `realign_realign` and
`mapScript_eq_self`. -/

namespace Scenarist

open Text

/-! ## Lines in a new layout -/

theorem stripLeft_relaid {indent tail : Text} {c : Char} (h : ∀ d ∈ indent, isBlank d = true)
    (hc : isBlank c = false) : stripLeft (indent ++ c :: tail) = c :: tail := by
  rw [stripLeft_append h, stripLeft_cons_of_not_blank hc]

namespace Relaid

variable {old new : Text}

/-- Neither a line nor the line in its new layout makes a remark, whatever ends them. -/
theorem remarkOf?_eq_none (h : Relaid old new) (tail : Text) :
    remarkOf? (old ++ tail) = none ∧ remarkOf? (new ++ tail) = none := by
  obtain ⟨indent, c, rest, rest', rfl, rfl, hblank, hc, hmark, -⟩ := h
  have key : ∀ more, remarkOf? (indent ++ c :: more) = none := by
    intro more
    refine remarkOf?_of_not_comment ?_
    rw [stripLeft_relaid hblank hc]
    simpa using hmark
  exact ⟨by simpa using key (rest ++ tail), by simpa using key (rest' ++ tail)⟩

theorem lineFeed_not_mem (h : Relaid old new) (hold : '\n' ∉ old) : '\n' ∉ new := by
  obtain ⟨indent, c, rest, rest', rfl, rfl, -, -, -, hfree, -⟩ := h
  intro hmem
  rcases List.mem_append.1 hmem with hmem | hmem
  · exact hold (List.mem_append_left _ hmem)
  · exact hfree hmem

theorem return_not_mem (h : Relaid old new) (hold : '\r' ∉ old) : '\r' ∉ new := by
  obtain ⟨indent, c, rest, rest', rfl, rfl, -, -, -, -, -, hchars, -⟩ := h
  intro hmem
  rcases List.mem_append.1 hmem with hmem | hmem
  · exact hold (List.mem_append_left _ hmem)
  · rcases List.mem_cons.1 hmem with hmem | hmem
    · exact hold (by simp [← hmem])
    · rcases hchars '\r' hmem with hmem | hmem | hmem | hmem
      · exact hold (by simp [hmem])
      · exact absurd hmem (by decide)
      · exact absurd hmem (by decide)
      · exact absurd hmem (by decide)

theorem getLast?_ne (h : Relaid old new) (hfree : '\n' ∉ old) (hold : old.getLast? ≠ some '\r') :
    new.getLast? ≠ some '\r' := by
  obtain ⟨indent, c, rest, rest', rfl, rfl, -, hc, -, -, -, -, hlast⟩ := h
  have hcr : c ≠ '\r' := by
    rintro rfl
    exact absurd hc (by decide)
  have hrest : '\n' ∉ rest := fun hmem => hfree (by simp [hmem])
  have key : ∀ more, (indent ++ c :: more).getLast? = some '\r' ↔ more.getLast? = some '\r' := by
    intro more
    cases more with
    | nil => simp [hcr]
    | cons d ds => simp [List.getLast?_append, List.getLast?_cons_cons]
  intro heq
  exact hold ((key rest).2 (hlast hrest ((key rest').1 heq)))

theorem expandTabs_eq (h : Relaid old new) (tail : Text) (hold : expandTabs (old ++ tail) = old ++ tail) :
    expandTabs (new ++ tail) = new ++ tail := by
  obtain ⟨indent, c, rest, rest', rfl, rfl, -, hc, -⟩ := h
  have hindent : isIndent c = false := by
    cases hi : isIndent c with
    | false => rfl
    | true =>
        rw [isBlank_of_isIndent hi] at hc
        exact Bool.noConfusion hc
  have hsplit : ∀ more, indent ++ c :: more ++ tail = indent ++ c :: (more ++ tail) := by
    intro more
    simp
  rw [hsplit, expandTabs_append_cons hindent] at hold
  have hfront : expandTabs (indent ++ [c]) = indent ++ [c] := by
    have : expandTabs (indent ++ [c]) ++ (rest ++ tail) = (indent ++ [c]) ++ (rest ++ tail) := by
      rw [hold]
      simp
    exact List.append_cancel_right this
  rw [hsplit, expandTabs_append_cons hindent, hfront]
  simp

end Relaid

theorem isTopLevelKey_of_blank {line : Text} (h : ∀ c ∈ line.head?, isBlank c = true) :
    isTopLevelKey line = false := by
  refine isTopLevelKey_of_head fun c hc => ?_
  cases hletter : isKeyLetter c with
  | false => rfl
  | true =>
      have := Scenarist.Scalar.isBlank_of_isNameLetter (c := c) (by simp [isNameLetter, hletter])
      rw [h c hc] at this
      exact Bool.noConfusion this

/-- A line in a new layout is no top-level key, nor are the blank lines that it may begin with. -/
theorem Relaid.isTopLevelKey_of_mem_lines {old new line : Text} (h : Relaid old new)
    (hline : line ∈ lines new) : isTopLevelKey line = false := by
  obtain ⟨indent, c, rest, rest', -, rfl, hblank, -, -, hfree, htop, -⟩ := h
  obtain ⟨front, last, hindent, hlines⟩ := exists_lines_append hfree indent
  have hblanks : ∀ l ∈ front ++ [last], ∀ d ∈ l, isBlank d = true := by
    intro l hl d hd
    have hmem : l ∈ lines indent := by
      rw [hindent]
      exact hl
    exact hblank d (mem_of_mem_splitOn hmem hd)
  rw [hlines] at hline
  rcases List.mem_append.1 hline with hline | hline
  · exact isTopLevelKey_of_blank fun d hd =>
      hblanks line (List.mem_append_left _ hline) d (List.mem_of_mem_head? hd)
  · obtain rfl := List.mem_singleton.1 hline
    cases last with
    | nil => exact htop
    | cons d ds =>
        refine isTopLevelKey_of_blank fun e he => ?_
        obtain rfl : d = e := by simpa using he
        exact hblanks (d :: ds) (by simp) d List.mem_cons_self

/-! ## Joining the aligned pieces -/

/-- A function on lines that does no more than aligning does. -/
def Aligns (change : List Text → List Text) : Prop :=
  ∀ pieces, List.Forall₂ Realigned pieces (change pieces)

def realign (change : List Text → List Text) (body : Text) : Text :=
  joinWith (LineEnd.ofText body).text (change ((LineEnd.ofText body).split body))

theorem Aligns.ne_nil {change : List Text → List Text} (h : Aligns change) {pieces : List Text}
    (hne : pieces ≠ []) : change pieces ≠ [] := by
  have hlength := (h pieces).length_eq
  intro hnil
  rw [hnil] at hlength
  exact hne (List.eq_nil_of_length_eq_zero hlength)

/-- What realigning keeps of a line holds of all aligned lines if it holds of all lines. -/
theorem Aligns.forall_mem {change : List Text → List Text} (h : Aligns change)
    {holds : Text → Prop} (hkeep : ∀ old new, Realigned old new → holds old → holds new)
    {pieces : List Text} (hpieces : ∀ p ∈ pieces, holds p) : ∀ p ∈ change pieces, holds p := by
  intro new hnew
  obtain ⟨old, hold, hrealigned⟩ := exists_mem_of_forall₂ (h pieces) hnew
  exact hkeep old new hrealigned (hpieces old hold)

theorem Realigned.lineFeed_not_mem {old new : Text} (h : Realigned old new) (hold : '\n' ∉ old) :
    '\n' ∉ new := by
  rcases h with rfl | h
  · exact hold
  · exact h.lineFeed_not_mem hold

theorem Aligns.lineFeed_not_mem {change : List Text → List Text} (h : Aligns change)
    {pieces : List Text} (hfree : ∀ p ∈ pieces, '\n' ∉ p) : ∀ p ∈ change pieces, '\n' ∉ p :=
  h.forall_mem (fun _ _ hab hold => hab.lineFeed_not_mem hold) hfree

theorem Realigned.return_not_mem {old new : Text} (h : Realigned old new) (hold : '\r' ∉ old) :
    '\r' ∉ new := by
  rcases h with rfl | h
  · exact hold
  · exact h.return_not_mem hold

/-- No line of a body becomes a top-level key. -/
theorem isTopLevelKey_of_mem_realign {change : List Text → List Text} (h : Aligns change)
    {body : List Text} (hne : body ≠ []) (hfree : ∀ l ∈ body, '\n' ∉ l)
    (hbody : ∀ l ∈ body, isTopLevelKey l = false) {line : Text}
    (hline : line ∈ lines (realign change (unlines body))) : isTopLevelKey line = false := by
  generalize hend : LineEnd.ofText (unlines body) = lineEnd at *
  have hpieces := LineEnd.split_ne_nil lineEnd (unlines body)
  unfold realign at hline
  rw [hend] at hline
  obtain ⟨new, hnew, l, hl, hcases⟩ :=
    LineEnd.exists_piece_of_mem_lines (h.ne_nil hpieces) hline
  have htop : isTopLevelKey l = false := by
    obtain ⟨old, hold, hrealigned⟩ := exists_mem_of_forall₂ (h (lineEnd.split (unlines body))) hnew
    rcases hrealigned with rfl | hrelaid
    · -- The piece is an old one, and its lines are lines of the body.
      obtain ⟨found, hfound, heq⟩ :=
        LineEnd.exists_line_of_mem_lines_piece lineEnd hold hl
      rw [LineEnd.joinWith_split, lines_unlines hne hfree] at hfound
      have := hbody found hfound
      rcases heq with rfl | rfl
      · exact this
      · rwa [isTopLevelKey_concat_return] at this
    · exact hrelaid.isTopLevelKey_of_mem_lines hl
  rcases hcases with rfl | rfl
  · exact htop
  · rwa [isTopLevelKey_concat_return]

/-! ## The script of a document -/

section

variable {change : List Text → List Text}

/-- Either a document has no script to change, or it gets new content of the same first line, in which
no line is a top-level key. -/
theorem exists_mapScript (h : Aligns change) (text : Text) :
    (mapScript change text = text ∧ SectionKey.script.bodyIn (lines text) = []) ∨
      ∃ s content, SectionKey.script.Found text s ∧
        SectionKey.script.bodyIn (lines text) = s.body ∧ s.body ≠ [] ∧
        mapScript change text = s.withContent content ∧
        lines content = s.rest :: lines (realign change (unlines s.body)) ∧
        ∀ l ∈ lines (realign change (unlines s.body)), isTopLevelKey l = false := by
  have hbodyIn : SectionKey.script.bodyIn (lines text) =
      ((SectionKey.script.find? text).map Section.body).getD [] := by
    rw [SectionKey.bodyIn, ← SectionKey.find?_map_block, Option.map_map]
    rfl
  unfold mapScript
  cases hfind : SectionKey.script.find? text with
  | none => exact Or.inl ⟨rfl, by rw [hbodyIn, hfind]; rfl⟩
  | some s =>
      rw [hfind] at hbodyIn
      by_cases hne : s.body = []
      · exact Or.inl ⟨by simp [hne], by rw [hbodyIn, Option.map_some, Option.getD_some, hne]⟩
      · have hs := SectionKey.found_of_find? hfind
        have hline : ∀ l ∈ lines text, '\n' ∉ l := fun l hl => not_mem_of_mem_lines hl
        rw [hs.lines_eq] at hline
        have hrest : '\n' ∉ s.rest := by
          have := hline (SectionKey.script.name ++ ':' :: s.rest) (by simp)
          intro hmem
          exact this (by simp [hmem])
        have hfree : ∀ l ∈ s.body, '\n' ∉ l := fun l hl => hline l (by simp [hl])
        refine Or.inr ⟨s, s.rest ++ '\n' :: realign change (unlines s.body), hs, hbodyIn, hne, ?_,
          lines_cons_append_cons hrest _, ?_⟩
        · simp [hne, realign]
        · exact fun l hl => isTopLevelKey_of_mem_realign h hne hfree hs.body hl

theorem rewritten_mapScript (h : Aligns change) (text : Text) :
    mapScript change text = text ∨
      SectionKey.script.Rewritten (lines text) (lines (mapScript change text)) := by
  rcases exists_mapScript h text with ⟨heq, -⟩ | ⟨s, content, hs, -, -, heq, hc, htop⟩
  · exact Or.inl heq
  · rw [heq]
    exact Or.inr (SectionKey.rewritten_withContent hs hc htop)

/-- Aligning the script leaves the other sections. -/
theorem blockIn_mapScript (h : Aligns change) {key : SectionKey} (hne : key ≠ .script) (text : Text) :
    key.blockIn (lines (mapScript change text)) = key.blockIn (lines text) := by
  rcases rewritten_mapScript h text with heq | hrewritten
  · rw [heq]
  · exact hrewritten.blockIn_eq hne

/-- Aligning the script leaves what a document says of itself in its sections. -/
theorem sameIdentity_mapScript (h : Aligns change) (text : Text) :
    SameIdentity (unmarkedLines (lines (mapScript change text))) (unmarkedLines (lines text)) := by
  rcases rewritten_mapScript h text with heq | hrewritten
  · rw [heq]
    exact ⟨rfl, rfl⟩
  · exact SameIdentity.of_keepsOthers hrewritten.keepsOthers (by decide) (by decide)

theorem realign_nil (h : Aligns change) : realign change [] = [] := by
  have hsplit : (LineEnd.ofText []).split [] = [[]] := rfl
  have hpieces := h [[]]
  unfold realign
  rw [hsplit]
  generalize change [[]] = pieces at hpieces
  cases hpieces with
  | @cons _ b _ _ hb hbs =>
      cases hbs
      have hnil : b = [] := by
        rcases hb with hb | ⟨indent, c, tail, tail', hold, -⟩
        · exact hb
        · simp at hold
      rw [hnil, joinWith_singleton]

/-- The body of an aligned script is its old body with the pieces changed. -/
theorem bodyIn_mapScript (h : Aligns change) (text : Text) :
    unlines (SectionKey.script.bodyIn (lines (mapScript change text))) =
      realign change (unlines (SectionKey.script.bodyIn (lines text))) := by
  rcases exists_mapScript h text with ⟨heq, hbody⟩ | ⟨s, content, hs, hbody, -, heq, hc, htop⟩
  · rw [heq, hbody]
    exact (realign_nil h).symm
  · have hfind := SectionKey.find?_withContent hs hc htop
    have hnew : SectionKey.script.bodyIn (lines (s.withContent content)) =
        lines (realign change (unlines s.body)) := by
      rw [SectionKey.bodyIn_eq_of_find? hfind]
    rw [heq, hnew, hbody, unlines_lines]

end

/-! ## Bodies with even line ends -/

section

variable {change : List Text → List Text} {body : Text}

theorem Aligns.dropLast (h : Aligns change) (pieces : List Text) :
    List.Forall₂ Realigned pieces.dropLast (change pieces).dropLast := by
  have key : ∀ {ps ps' : List Text}, List.Forall₂ Realigned ps ps' →
      List.Forall₂ Realigned ps.dropLast ps'.dropLast := by
    intro ps ps' hps
    induction hps with
    | nil => exact .nil
    | cons hab hps ih =>
        cases hps with
        | nil => exact .nil
        | cons hcd hrest => exact .cons hab ih
  exact key (h pieces)

/-- A body that is cut into lines is joined again with the line end that it was cut at. -/
theorem ofText_realign (h : Aligns change) (hbody : LineEnd.IsCutIntoLines body) :
    LineEnd.ofText (realign change body) = LineEnd.ofText body := by
  have hne := LineEnd.split_ne_nil (LineEnd.ofText body) body
  refine LineEnd.ofText_joinWith (h.ne_nil hne) (h.lineFeed_not_mem hbody) ?_ ?_
  · intro hcrlf
    rw [← (h _).length_eq]
    obtain ⟨a, b, hab⟩ := LineEnd.ofText_eq_crlf_iff.1 hcrlf
    by_contra hshort
    -- A single piece is the body itself, and it holds no line feed.
    obtain ⟨piece, hpiece⟩ : ∃ piece, (LineEnd.ofText body).split body = [piece] := by
      refine List.length_eq_one_iff.1 ?_
      have := List.length_pos_iff.2 hne
      omega
    have hjoin := LineEnd.joinWith_split (LineEnd.ofText body) body
    rw [hpiece, joinWith_singleton] at hjoin
    have hfree := hbody piece (by rw [hpiece]; exact List.mem_singleton_self piece)
    rw [hjoin, hab] at hfree
    exact hfree (by simp)
  · intro hlf
    have hold : ∀ p ∈ ((LineEnd.ofText body).split body).dropLast, p.getLast? ≠ some '\r' := by
      have := LineEnd.ofText_eq_lf_iff_lines.1 hlf
      rw [hlf]
      exact this
    have hpairs := h.dropLast ((LineEnd.ofText body).split body)
    have hfree : ∀ p ∈ ((LineEnd.ofText body).split body).dropLast, '\n' ∉ p :=
      fun p hp => hbody p (List.dropLast_subset _ hp)
    intro new hnew
    obtain ⟨old, hmem, rfl | hrelaid⟩ := exists_mem_of_forall₂ hpairs hnew
    · exact hold _ hmem
    · exact hrelaid.getLast?_ne (hfree old hmem) (hold old hmem)

/-- The pieces of such a body, changed, are the pieces of the body that they are joined to. -/
theorem split_realign (h : Aligns change) (hbody : LineEnd.IsCutIntoLines body) :
    (LineEnd.ofText (realign change body)).split (realign change body) =
      change ((LineEnd.ofText body).split body) := by
  rw [ofText_realign h hbody]
  exact LineEnd.split_joinWith _ (h.ne_nil (LineEnd.split_ne_nil _ body)) (h.lineFeed_not_mem hbody)

theorem isCutIntoLines_realign (h : Aligns change) (hbody : LineEnd.IsCutIntoLines body) :
    LineEnd.IsCutIntoLines (realign change body) := by
  unfold LineEnd.IsCutIntoLines
  rw [split_realign h hbody]
  exact h.lineFeed_not_mem hbody

/-- A change that leaves the pieces that another one made leaves the body that they were joined to. -/
theorem realign_realign {again : List Text → List Text} (h : Aligns change)
    (hbody : LineEnd.IsCutIntoLines body)
    (hagain : again (change ((LineEnd.ofText body).split body)) =
      change ((LineEnd.ofText body).split body)) :
    realign again (realign change body) = realign change body := by
  unfold realign
  rw [show joinWith (LineEnd.ofText body).text (change ((LineEnd.ofText body).split body)) =
    realign change body from rfl, split_realign h hbody, hagain, ofText_realign h hbody]
  rfl

/-- The lines of such a body correspond to those that they become. -/
theorem forall₂_lines_realign (h : Aligns change) (hbody : LineEnd.IsCutIntoLines body) :
    List.Forall₂ (LineEnd.SameEnd Realigned) (lines body) (lines (realign change body)) := by
  have hlines := LineEnd.forall₂_lines_joinWith (LineEnd.ofText body)
    (LineEnd.split_ne_nil _ body) (h _) hbody (h.lineFeed_not_mem hbody)
  rw [LineEnd.joinWith_split] at hlines
  exact hlines

end

theorem remarkOf?_sameEnd {line line' : Text} (h : LineEnd.SameEnd Realigned line line') :
    remarkOf? line' = remarkOf? line := by
  rcases h with (rfl | h) | ⟨p, p', rfl | h, rfl, rfl⟩
  · rfl
  · have := h.remarkOf?_eq_none []
    rw [List.append_nil, List.append_nil] at this
    rw [this.1, this.2]
  · rfl
  · have := h.remarkOf?_eq_none ['\r']
    rw [this.1, this.2]

theorem expandTabs_sameEnd {line line' : Text} (h : LineEnd.SameEnd Realigned line line')
    (hline : expandTabs line = line) : expandTabs line' = line' := by
  rcases h with (rfl | h) | ⟨p, p', rfl | h, rfl, rfl⟩
  · exact hline
  · have := h.expandTabs_eq [] (by simpa using hline)
    simpa using this
  · exact hline
  · exact h.expandTabs_eq ['\r'] hline

theorem remarksIn_sameEnd {old new : List Text}
    (h : List.Forall₂ (LineEnd.SameEnd Realigned) old new) : remarksIn new = remarksIn old := by
  unfold remarksIn
  induction h with
  | nil => rfl
  | cons hline _ ih => rw [List.filterMap_cons, List.filterMap_cons, ih, remarkOf?_sameEnd hline]

theorem expandTabs_of_mem_sameEnd {old new : List Text}
    (h : List.Forall₂ (LineEnd.SameEnd Realigned) old new) (hold : ∀ l ∈ old, expandTabs l = l) :
    ∀ l ∈ new, expandTabs l = l := by
  intro l hl
  obtain ⟨line, hmem, hline⟩ := exists_mem_of_forall₂ h hl
  exact expandTabs_sameEnd hline (hold line hmem)

theorem lines_body {key : SectionKey} {text : Text} {s : Section} (hs : key.Found text s)
    (hne : s.body ≠ []) : lines (unlines s.body) = s.body := by
  refine lines_unlines hne fun l hl => @not_mem_of_mem_lines text l ?_
  rw [hs.lines_eq]
  simp [hl]

section

variable {change : List Text → List Text} {text : Text}

/-- Aligning a script with even line ends leaves the remarks of the document. -/
theorem remarksIn_mapScript (h : Aligns change)
    (hbody : LineEnd.IsCutIntoLines (unlines (SectionKey.script.bodyIn (lines text)))) :
    remarksIn (lines (mapScript change text)) = remarksIn (lines text) ∧
      remarksIn (unmarkedLines (lines (mapScript change text))) =
        remarksIn (unmarkedLines (lines text)) := by
  rcases exists_mapScript h text with ⟨heq, -⟩ | ⟨s, content, hs, hsbody, hne, heq, hc, -⟩
  · rw [heq]
    exact ⟨rfl, rfl⟩
  · rw [hsbody] at hbody
    have hlines := forall₂_lines_realign h hbody
    rw [lines_body hs hne] at hlines
    rw [heq]
    exact remarksIn_withContent hs hc (remarksIn_sameEnd hlines)

/-- Aligning a script with even line ends brings no tabs into the indentation of lines. -/
theorem expandTabs_mapScript (h : Aligns change)
    (hbody : LineEnd.IsCutIntoLines (unlines (SectionKey.script.bodyIn (lines text))))
    (htext : ∀ l ∈ lines text, expandTabs l = l) :
    ∀ l ∈ lines (mapScript change text), expandTabs l = l := by
  rcases exists_mapScript h text with ⟨heq, -⟩ | ⟨s, content, hs, hsbody, hne, heq, hc, -⟩
  · rwa [heq]
  · rw [hsbody] at hbody
    have hlines := forall₂_lines_realign h hbody
    rw [lines_body hs hne] at hlines
    rw [heq, SectionKey.lines_withContent hs hc]
    rw [hs.lines_eq] at htext
    have hnew := expandTabs_of_mem_sameEnd hlines fun l hl => htext l (by simp [hl])
    intro l hl
    simp only [List.mem_append, List.mem_cons] at hl
    rcases hl with hl | hl | hl | hl
    · exact htext l (by simp [hl])
    · exact htext l (by simp [hl])
    · exact hnew l hl
    · exact htext l (by simp [hl])

/-- Aligning a script brings no carriage returns into a document without any. -/
theorem return_not_mem_mapScript (h : Aligns change) (htext : ∀ l ∈ lines text, '\r' ∉ l) :
    ∀ l ∈ lines (mapScript change text), '\r' ∉ l := by
  rcases exists_mapScript h text with ⟨heq, -⟩ | ⟨s, content, hs, -, hne, heq, hc, -⟩
  · rwa [heq]
  · rw [heq, SectionKey.lines_withContent hs hc]
    rw [hs.lines_eq] at htext
    have hbody : ∀ l ∈ s.body, '\r' ∉ l := fun l hl => htext l (by simp [hl])
    -- without carriage returns the body is cut at line feeds, and its pieces are its lines
    have hlf : LineEnd.ofText (unlines s.body) = .lf := by
      rw [LineEnd.ofText_eq_lf_iff_lines, lines_body hs hne]
      intro l hl hlast
      exact hbody l (List.dropLast_subset _ hl) (List.mem_of_mem_getLast? hlast)
    have hpieces : LineEnd.lf.split (unlines s.body) = s.body := lines_body hs hne
    have hcut : LineEnd.IsCutIntoLines (unlines s.body) := by
      unfold LineEnd.IsCutIntoLines
      rw [hlf]
      exact fun p hp => not_mem_of_mem_lines hp
    have hlines : lines (realign change (unlines s.body)) = change s.body := by
      have hsplit := split_realign h hcut
      rw [ofText_realign h hcut, hlf, hpieces] at hsplit
      exact hsplit
    have hnew : ∀ l ∈ change s.body, '\r' ∉ l :=
      h.forall_mem (fun _ _ hab hold => hab.return_not_mem hold) hbody
    intro l hl
    simp only [List.mem_append, List.mem_cons, hlines] at hl
    rcases hl with hl | hl | hl | hl
    · exact htext l (by simp [hl])
    · exact htext l (by simp [hl])
    · exact hnew l hl
    · exact htext l (by simp [hl])

/-- The first line of a document is not changed, and there was more than one if there is afterwards. -/
theorem head?_lines_mapScript (h : Aligns change) (text : Text) :
    (lines (mapScript change text)).head? = (lines text).head? ∧
      (2 ≤ (lines (mapScript change text)).length → 2 ≤ (lines text).length) := by
  rcases exists_mapScript h text with ⟨heq, -⟩ | ⟨s, content, hs, -, hne, heq, hc, -⟩
  · rw [heq]
    exact ⟨rfl, id⟩
  · rw [heq, SectionKey.lines_withContent hs hc, hs.lines_eq]
    constructor
    · cases s.above <;> rfl
    · intro _
      have := List.length_pos_iff.2 hne
      simp only [List.length_append, List.length_cons]
      omega

/-- A document is not changed if its script body is not. -/
theorem mapScript_eq_self
    (h : realign change (unlines (SectionKey.script.bodyIn (lines text))) =
      unlines (SectionKey.script.bodyIn (lines text))) : mapScript change text = text := by
  unfold mapScript
  cases hfind : SectionKey.script.find? text with
  | none => rfl
  | some s =>
      by_cases hne : s.body = []
      · simp [hne]
      · rw [SectionKey.bodyIn_eq_of_find? hfind] at h
        have hcontent : s.rest ++ '\n' :: unlines s.body = s.content := by
          obtain ⟨l, ls, hl⟩ := List.exists_cons_of_ne_nil hne
          rw [hl]
          simp [Section.content, hl, unlines, joinWith_cons_cons]
        simp only [hne, List.isEmpty_iff, if_false]
        rw [show joinWith (LineEnd.ofText (unlines s.body)).text
            (change ((LineEnd.ofText (unlines s.body)).split (unlines s.body))) =
          realign change (unlines s.body) from rfl, h, hcontent, ← Section.text_eq_withContent]
        exact Section.text_of_find? hfind

end

end Scenarist
