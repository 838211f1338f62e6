import Scenarist.Proofs.Insertion

set_option autoImplicit false

/-! # A line in the place of another one

The edit that replaces a line leaves the carriage returns at its end where they are. If the line is one of a section
and the new one is no top-level key, the section has the new line under the number of the old one, and everything
else stays.

Main statements: `Document.lines_replaceLine` (the lines of a document) and `SectionKey.linesOf_replaceLine` (the
numbered lines of a section). -/

namespace Scenarist

open Text

namespace Document

variable {document : Document} {front back : List Text} {raw line : Text}

theorem offsetAt_lineStart (h : Text.lines document.text = front ++ raw :: back) :
    document.offsetAt front.length 0 = (front.flatMap (· ++ ['\n'])).length := by
  rw [offsetAt_of_lines h]
  simp

/-- A line that replaces another one stands between the same lines, with the same carriage returns at its end. -/
theorem lines_replaceLine (h : Text.lines document.text = front ++ raw :: back) (hfree : '\n' ∉ line) :
    ∃ n, Text.lines ((document.replaceLine front.length line).applyTo document.text) =
      front ++ (line ++ List.replicate n '\r') :: back := by
  obtain ⟨n, -, htext⟩ := exists_text_eq h
  have hlines : ∀ l ∈ front ++ raw :: back, '\n' ∉ l := fun l hl => not_mem_of_mem_lines (h ▸ hl)
  have hreplaced : (document.replaceLine front.length line).applyTo document.text =
      front.flatMap (· ++ ['\n']) ++ (line ++ List.replicate n '\r') ++ back.flatMap ('\n' :: ·) := by
    rw [replaceLine, TextEdit.applyTo, offsetAt_lineStart h, lineAt_of_lines h, ← List.length_append]
    conv_lhs => rw [htext]
    rw [List.drop_left, List.append_assoc (front.flatMap _) (trimReturns raw), List.take_left]
    simp only [List.append_assoc]
  have hline : '\n' ∉ line ++ List.replicate n '\r' :=
    fun hmem => (List.mem_append.1 hmem).elim hfree (lineFeed_not_mem_replicate_return n)
  refine ⟨n, ?_⟩
  rw [hreplaced, lines_between (fun l hl => hlines l (by simp [hl])) (fun l hl => hlines l (by simp [hl])),
    lines_of_not_mem hline, List.append_assoc, List.singleton_append]

end Document

/-- A line that replaces one of a section is the line of the section under that number. The other lines stay, and so
do the other sections. -/
theorem SectionKey.linesOf_replaceLine {key : SectionKey} {document : Document} {above below : List (Nat × Text)}
    {n : Nat} {old line : Text} (hlines : key.linesOf document.text = above ++ (n, old) :: below) (hfree : '\n' ∉ line)
    (htrim : trimReturns line = line) (htop : isTopLevelKey line = false) :
    key.Rewritten (lines document.text) (lines ((document.replaceLine n line).applyTo document.text)) ∧
      isIn ((document.replaceLine n line).applyTo document.text) key = true ∧
      key.linesOf ((document.replaceLine n line).applyTo document.text) = above ++ (n, line) :: below := by
  obtain ⟨s, front, raw, back, hs, hbody, hlength, hn, rfl, rfl, rfl⟩ := exists_raw_of_linesOf_eq hlines
  obtain ⟨returns, hreplaced⟩ := Document.lines_replaceLine (hs.lines_eq_around hbody) hfree
  rw [hlength, List.append_cons] at hreplaced
  have htrimmed : [line ++ List.replicate returns '\r'].map trimReturns = [line] := by
    rw [List.map_singleton, trimReturns_append_returns, htrim]
  have hnews : ∀ l ∈ [line ++ List.replicate returns '\r'].map trimReturns,
      l = trimReturns raw ∨ isTopLevelKey l = false := by
    rw [htrimmed]
    exact List.forall_mem_singleton.2 (.inr htop)
  obtain ⟨hrewritten, hin, hnumbered⟩ := rewritten_of_splice hs hbody hreplaced hnews
  refine ⟨hrewritten, hin, ?_⟩
  rw [hnumbered, hn, List.append_assoc, List.map_append, List.map_append, htrimmed]
  simp only [List.singleton_append, List.zipIdx_append, List.zipIdx_cons, List.map_append, List.length_map]
  rfl

end Scenarist
