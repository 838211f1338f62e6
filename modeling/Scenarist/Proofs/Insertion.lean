import Scenarist.Proofs.Section.Place
import Scenarist.Proofs.Text.LineEnd

set_option autoImplicit false

/-! # Lines written below a line

An edit that writes lines behind the end of a line, each with the line end of the document in front of it, puts
them between that line and the next one. The carriage returns at the end of the old line go to the last new one,
where no reader sees them. If the line is one of a section and no new line is a top-level key, the section has
the new lines among its own, under the numbers behind that line, and the lines below have moved on.

Main statements: `Document.lines_insertion` (the lines of a document) and `SectionKey.linesOf_insertion` (the
numbered lines of a section). -/

namespace Scenarist

open Text

/-! ## Carriage returns at the end of a line -/

namespace Text

theorem exists_eq_trimReturns_append (line : Text) :
    ∃ n, line = trimReturns line ++ List.replicate n '\r' := by
  induction line using List.reverseRecOn with
  | nil => exact ⟨0, rfl⟩
  | append_singleton front c ih =>
      by_cases hc : c = '\r'
      · obtain ⟨n, hn⟩ := ih
        refine ⟨n + 1, ?_⟩
        rw [hc, trimReturns_concat_return, List.replicate_succ', ← List.append_assoc, ← hn]
      · exact ⟨0, by rw [trimReturns_concat hc, List.replicate_zero, List.append_nil]⟩

theorem trimReturns_append_returns (line : Text) (n : Nat) :
    trimReturns (line ++ List.replicate n '\r') = trimReturns line := by
  induction n with
  | zero => rw [List.replicate_zero, List.append_nil]
  | succ n ih => rw [List.replicate_succ', ← List.append_assoc, trimReturns_concat_return, ih]

theorem trimReturns_trimReturns (line : Text) : trimReturns (trimReturns line) = trimReturns line := by
  obtain ⟨n, hn⟩ := exists_eq_trimReturns_append line
  rw [← trimReturns_append_returns (trimReturns line) n, ← hn]

end Text

theorem isTopLevelKey_trimReturns (line : Text) : isTopLevelKey (trimReturns line) = isTopLevelKey line := by
  have hreturns : ∀ (front : Text) (n : Nat),
      isTopLevelKey (front ++ List.replicate n '\r') = isTopLevelKey front := by
    intro front n
    induction n with
    | zero => rw [List.replicate_zero, List.append_nil]
    | succ n ih => rw [List.replicate_succ', ← List.append_assoc, isTopLevelKey_concat_return, ih]
  obtain ⟨n, hn⟩ := exists_eq_trimReturns_append line
  rw [← hreturns (trimReturns line) n, ← hn]

/-! ## The end of a line -/

namespace Document

theorem getElem?_cons_startsFrom {texts : List Text} (hfree : ∀ l ∈ texts, '\n' ∉ l) (offset : Nat) {n : Nat}
    (h : n < texts.length) :
    (offset :: startsFrom offset (unlines texts))[n]? =
      some (offset + ((texts.take n).map (·.length + 1)).sum) := by
  induction texts generalizing offset n with
  | nil => exact absurd h (Nat.not_lt_zero n)
  | cons line texts ih =>
      have hline := hfree line List.mem_cons_self
      cases n with
      | zero => simp
      | succ n =>
          cases texts with
          | nil => simp at h
          | cons next texts =>
              have hjoin : unlines (line :: next :: texts) = line ++ '\n' :: unlines (next :: texts) := by
                rw [unlines, joinWith_cons_cons]
                simp [unlines]
              have hrest := ih (fun l hl => hfree l (List.mem_cons_of_mem _ hl)) (offset + line.length + 1)
                (Nat.lt_of_succ_lt_succ h)
              rw [hjoin, startsFrom_append_cons hline, List.getElem?_cons_succ, hrest, List.take_succ_cons,
                List.map_cons, List.sum_cons]
              congr 1
              omega

/-- Lines begin where the running sum of their lengths says. -/
theorem getElem?_lineStarts (document : Document) {n : Nat} (h : n < (Text.lines document.text).length) :
    document.lineStarts[n]? = some (lineStart document.text n) := by
  have hstarts := getElem?_cons_startsFrom (fun l hl => not_mem_of_mem_lines hl) 0 h
  rwa [unlines_lines, Nat.zero_add] at hstarts

variable {document : Document} {front back news : List Text} {raw : Text}

theorem lineAt_of_lines (h : Text.lines document.text = front ++ raw :: back) :
    document.lineAt front.length = trimReturns raw := by
  rw [lineAt, lineAt?_eq, lines, h, List.getElem?_map, List.getElem?_append_right (Nat.le_refl _), Nat.sub_self]
  rfl

/-- A column on a line lies behind the lines above it, at most at the end of the line. -/
theorem offsetAt_of_lines (h : Text.lines document.text = front ++ raw :: back) (column : Int) :
    document.offsetAt front.length column =
      (front.flatMap (· ++ ['\n'])).length + min column.toNat (trimReturns raw).length := by
  have hlt : front.length < (Text.lines document.text).length := by
    rw [h, List.length_append, List.length_cons]
    omega
  have hline : (lineBy? document.lineStarts document.text front.length).getD [] = trimReturns raw :=
    lineAt_of_lines h
  rw [offsetAt, offsetBy, getElem?_lineStarts document hlt, lineStart_length h, hline]

theorem offsetAt_lineEnd (h : Text.lines document.text = front ++ raw :: back) :
    document.offsetAt front.length (document.lineAt front.length).length =
      (front.flatMap (· ++ ['\n']) ++ trimReturns raw).length := by
  rw [offsetAt_of_lines h, lineAt_of_lines h]
  simp

def insertion (document : Document) (n : Nat) (news : List Text) : TextEdit :=
  let anchor := document.offsetAt n (document.lineAt n).length
  ⟨anchor, anchor, news.flatMap (document.lineEnd.text ++ ·)⟩

/-- A document cut in front of the carriage returns at the end of a line. -/
theorem exists_text_eq (h : Text.lines document.text = front ++ raw :: back) :
    ∃ n, raw = trimReturns raw ++ List.replicate n '\r' ∧
      document.text = (front.flatMap (· ++ ['\n']) ++ trimReturns raw) ++
        (List.replicate n '\r' ++ back.flatMap ('\n' :: ·)) := by
  obtain ⟨n, hraw⟩ := exists_eq_trimReturns_append raw
  refine ⟨n, hraw, ?_⟩
  rw [← unlines_lines document.text, h, unlines_append front (List.cons_ne_nil _ _), Section.unlines_cons]
  conv_lhs => rw [hraw]
  simp only [List.append_assoc]

theorem lineFeed_not_mem_replicate_return (n : Nat) : '\n' ∉ List.replicate n '\r' :=
  fun hmem => absurd (List.eq_of_mem_replicate hmem) (by decide)

/-- Lines written below a line stand between that line and the next one. -/
theorem lines_insertion (h : Text.lines document.text = front ++ raw :: back) (hfree : ∀ l ∈ news, '\n' ∉ l)
    (htrim : ∀ l ∈ news, trimReturns l = l) :
    ∃ middle, Text.lines ((document.insertion front.length news).applyTo document.text) =
        front ++ middle ++ back ∧
      middle.map trimReturns = trimReturns raw :: news := by
  obtain ⟨n, hraw, htext⟩ := exists_text_eq h
  have hlines : ∀ l ∈ front ++ raw :: back, '\n' ∉ l := fun l hl => not_mem_of_mem_lines (h ▸ hl)
  have hrawfree : '\n' ∉ trimReturns raw := by
    have hmem := hlines raw (by simp)
    rw [hraw] at hmem
    exact fun hfeed => hmem (List.mem_append_left _ hfeed)
  let written := trimReturns raw ++ news.flatMap (document.lineEnd.text ++ ·)
  have hedited : (document.insertion front.length news).applyTo document.text =
      front.flatMap (· ++ ['\n']) ++ (written ++ List.replicate n '\r') ++ back.flatMap ('\n' :: ·) := by
    rw [insertion, TextEdit.applyTo, offsetAt_lineEnd h]
    conv_lhs => rw [htext]
    rw [List.take_left, List.drop_left]
    simp only [written, List.append_assoc]
  -- the carriage returns of the old line end the last of the written ones
  obtain ⟨before, last, hwritten, hended⟩ := exists_lines_append (lineFeed_not_mem_replicate_return n) written
  have hpieces : (Text.lines written).map trimReturns = trimReturns raw :: news := by
    have hjoin : written = joinWith document.lineEnd.text (trimReturns raw :: news) := (joinWith_cons _ _ _).symm
    have hcut := LineEnd.lines_joinWith document.lineEnd (List.cons_ne_nil (trimReturns raw) news)
      (List.forall_mem_cons.2 ⟨hrawfree, hfree⟩)
    rw [hjoin, LineEnd.map_trimReturns_of_forall₂ hcut, List.map_cons, trimReturns_trimReturns,
      List.map_congr_left htrim, List.map_id']
  refine ⟨before ++ [last ++ List.replicate n '\r'], ?_, ?_⟩
  · rw [hedited, lines_between (fun l hl => hlines l (by simp [hl])) (fun l hl => hlines l (by simp [hl])), hended]
  · rw [← hpieces, hwritten, List.map_append, List.map_append, List.map_singleton, List.map_singleton,
      trimReturns_append_returns]

end Document

/-! ## The lines of a section -/

namespace SectionKey

variable {key : SectionKey} {document : Document} {news : List Text}

/-- A section's numbered lines are the lines of its body without the carriage returns at their ends, numbered one
after the other. -/
theorem linesOf_eq_zipIdx {text : Text} {s : Section} (h : key.find? text = some s) :
    key.linesOf text = ((s.body.map trimReturns).zipIdx s.firstLine).map Prod.swap := by
  rw [linesOf, h, List.zipIdx_eq_map_add, List.zipIdx_map, List.map_map, List.map_map]
  rfl

/-- A numbered line of a section is a line of its body, and the document's line of that number. -/
theorem exists_raw_of_linesOf_eq {text : Text} {above below : List (Nat × Text)} {n : Nat} {line : Text}
    (h : key.linesOf text = above ++ (n, line) :: below) :
    ∃ s front raw back, key.Found text s ∧ s.body = front ++ raw :: back ∧
      (s.above ++ (key.name ++ ':' :: s.rest) :: front).length = n ∧ n = s.firstLine + front.length ∧
      line = trimReturns raw ∧ above = ((front.map trimReturns).zipIdx s.firstLine).map Prod.swap ∧
      below = ((back.map trimReturns).zipIdx (n + 1)).map Prod.swap := by
  cases hfind : key.find? text with
  | none => simp [linesOf, hfind] at h
  | some s =>
      rw [linesOf_eq_zipIdx hfind] at h
      obtain ⟨numbered, rest, hnumbered, rfl, hrest⟩ := List.map_eq_append_iff.1 h
      obtain ⟨⟨trimmed, number⟩, others, rfl, hline, rfl⟩ := List.map_eq_cons_iff.1 hrest
      obtain ⟨rfl, rfl⟩ := Prod.mk.inj hline
      obtain ⟨first, last, hsplit, rfl, hlast⟩ := List.zipIdx_eq_append_iff.1 hnumbered
      obtain ⟨front, tail, hbody, rfl, rfl⟩ := List.map_eq_append_iff.1 hsplit
      cases tail with
      | nil => simp at hlast
      | cons raw back =>
          rw [List.map_cons, List.zipIdx_cons, List.length_map] at hlast
          obtain ⟨hraw, rfl⟩ := List.cons.inj hlast
          obtain ⟨rfl, rfl⟩ := Prod.mk.inj hraw
          refine ⟨s, front, raw, back, found_of_find? hfind, hbody, ?_, rfl, rfl, rfl, rfl⟩
          simp only [Section.firstLine, Section.headerLine, List.length_append, List.length_cons]
          omega

/-- A document in which the body of a section has other lines, none of them a top-level key, has these lines in the
section, and nothing else is different. -/
theorem rewritten_of_lines {text text' : Text} {s : Section} {body : List Text} (hs : key.Found text s)
    (h : lines text' = s.above ++ (key.name ++ ':' :: s.rest) :: (body ++ s.below))
    (hbody : ∀ l ∈ body, isTopLevelKey l = false) :
    key.Rewritten (lines text) (lines text') ∧ isIn text' key = true ∧
      key.linesOf text' = ((body.map trimReturns).zipIdx s.firstLine).map Prod.swap := by
  have hfind := find?_eq_some h hs.above hbody hs.below
  refine ⟨?_, by rw [isIn, hfind]; rfl, linesOf_eq_zipIdx hfind⟩
  rw [h, hs.lines_eq]
  exact .intro s.above s.rest s.rest s.body body s.below hs.body hbody

/-- In the place of a line of a section's body others can stand: that line once more, or no top-level keys. They
are lines of the section, and nothing else is different. -/
theorem rewritten_of_splice {text text' raw : Text} {s : Section} {front middle back : List Text}
    (hs : key.Found text s) (hbody : s.body = front ++ raw :: back)
    (h : lines text' = (s.above ++ (key.name ++ ':' :: s.rest) :: front) ++ middle ++ (back ++ s.below))
    (hmiddle : ∀ l ∈ middle.map trimReturns, l = trimReturns raw ∨ isTopLevelKey l = false) :
    key.Rewritten (lines text) (lines text') ∧ isIn text' key = true ∧
      key.linesOf text' = (((front ++ middle ++ back).map trimReturns).zipIdx s.firstLine).map Prod.swap := by
  have hold : ∀ l ∈ front ++ raw :: back, isTopLevelKey l = false := hbody ▸ hs.body
  refine rewritten_of_lines hs ?_ fun l hl => ?_
  · rw [h]
    simp
  · simp only [List.mem_append] at hl
    rcases hl with (hl | hl) | hl
    · exact hold l (by simp [hl])
    · rw [← isTopLevelKey_trimReturns]
      rcases hmiddle _ (List.mem_map_of_mem hl) with heq | htop
      · rw [heq, isTopLevelKey_trimReturns]
        exact hold raw (by simp)
      · exact htop
    · exact hold l (by simp [hl])

/-- A line of a section's body, among the lines of the document. -/
theorem Found.lines_eq_around {text raw : Text} {s : Section} {front back : List Text} (hs : key.Found text s)
    (hbody : s.body = front ++ raw :: back) :
    lines text = (s.above ++ (key.name ++ ':' :: s.rest) :: front) ++ raw :: (back ++ s.below) := by
  rw [hs.lines_eq, hbody]
  simp

/-- Lines written below a line of a section are lines of the section. The other lines stay, those below under
their new numbers, and so do the other sections. -/
theorem linesOf_insertion {above below : List (Nat × Text)} {n : Nat}
    (hlines : key.linesOf document.text = above ++ below) (hlast : above.getLast?.map Prod.fst = some n)
    (hfree : ∀ l ∈ news, '\n' ∉ l) (htrim : ∀ l ∈ news, trimReturns l = l)
    (htop : ∀ l ∈ news, isTopLevelKey l = false) :
    key.Rewritten (lines document.text) (lines ((document.insertion n news).applyTo document.text)) ∧
      isIn ((document.insertion n news).applyTo document.text) key = true ∧
      key.linesOf ((document.insertion n news).applyTo document.text) =
        above ++ (news.zipIdx (n + 1)).map Prod.swap ++ below.map fun entry => (entry.1 + news.length, entry.2) := by
  -- the line that the others are written below, among the lines of the body
  obtain ⟨above, line, rfl⟩ : ∃ front line, above = front ++ [(n, line)] := by
    rcases List.eq_nil_or_concat' above with rfl | ⟨front, ⟨number, line⟩, rfl⟩
    · simp at hlast
    · exact ⟨front, line, by simpa using hlast⟩
  rw [List.append_assoc, List.singleton_append] at hlines
  obtain ⟨s, front, raw, back, hs, hbody, hlength, hn, rfl, rfl, rfl⟩ := exists_raw_of_linesOf_eq hlines
  obtain ⟨middle, hmiddle, htrimmed⟩ := Document.lines_insertion (hs.lines_eq_around hbody) hfree htrim
  rw [hlength] at hmiddle
  have hnews : ∀ l ∈ middle.map trimReturns, l = trimReturns raw ∨ isTopLevelKey l = false := by
    rw [htrimmed]
    exact List.forall_mem_cons.2 ⟨.inl rfl, fun l hl => .inr (htop l hl)⟩
  obtain ⟨hrewritten, hin, hnumbered⟩ := rewritten_of_splice hs hbody hmiddle hnews
  refine ⟨hrewritten, hin, ?_⟩
  have hmoved : ∀ first : Nat, ((back.map trimReturns).zipIdx (first + news.length)).map Prod.swap =
      (((back.map trimReturns).zipIdx first).map Prod.swap).map fun entry =>
        (entry.1 + news.length, entry.2) := by
    intro first
    rw [Nat.add_comm, ← List.map_snd_add_zipIdx_eq_zipIdx, List.map_map, List.map_map]
    rfl
  rw [hnumbered, ← hmoved, hn]
  simp only [List.map_append, htrimmed, List.zipIdx_append, List.zipIdx_cons, List.map_cons, List.length_map,
    List.append_assoc, List.cons_append, List.nil_append]
  rfl

end SectionKey

end Scenarist
