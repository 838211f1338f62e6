import Scenarist.Document
import Scenarist.Proofs.Section

set_option autoImplicit false

/-! # Lines by their numbers

A line of a document is cut out of the text by the offsets at which lines begin. That is the same as
cutting the text into lines and taking one of them, so a section's numbered lines are the lines of the
document under these numbers.

Main statements: `Document.lineAt?_eq` and `Document.lineAt?_of_mem_numberedLines`. -/

namespace Scenarist

open Text

namespace Document

/-! ## Where lines begin -/

theorem startsFrom_of_not_mem {text : Text} (h : '\n' ∉ text) (offset : Nat) :
    startsFrom offset text = [] := by
  induction text generalizing offset with
  | nil => rfl
  | cons c cs ih =>
      have hc : c ≠ '\n' := fun heq => h (heq ▸ List.mem_cons_self)
      rw [startsFrom, if_neg hc]
      exact ih (fun hmem => h (List.mem_cons_of_mem c hmem)) (offset + 1)

theorem startsFrom_append_cons {line : Text} (h : '\n' ∉ line) (offset : Nat) (rest : Text) :
    startsFrom offset (line ++ '\n' :: rest) =
      (offset + line.length + 1) :: startsFrom (offset + line.length + 1) rest := by
  induction line generalizing offset with
  | nil => rfl
  | cons c cs ih =>
      have hc : c ≠ '\n' := fun heq => h (heq ▸ List.mem_cons_self)
      have hlength : offset + 1 + cs.length = offset + (cs.length + 1) := by omega
      rw [List.cons_append, startsFrom, if_neg hc,
        ih (fun hmem => h (List.mem_cons_of_mem c hmem)), List.length_cons, hlength]

theorem slice_middle (front middle back : Text) :
    slice front.length (front.length + middle.length) (front ++ middle ++ back) = middle := by
  have htake : (front ++ middle ++ back).take (front.length + middle.length) = front ++ middle := by
    rw [← List.length_append, List.take_left]
  rw [slice, htake, List.drop_left]

/-- Cut out between the offsets at which lines begin, the lines of a text behind another one are those of
the text. -/
theorem getElem?_startsFrom {texts : List Text} (hne : texts ≠ []) (hfree : ∀ l ∈ texts, '\n' ∉ l)
    (front : Text) (n : Nat) :
    let starts := front.length :: startsFrom front.length (unlines texts)
    let all := front ++ unlines texts
    (starts[n]?).map (fun start =>
      slice start (((starts[n + 1]?).map (· - 1)).getD all.length) all) = texts[n]? := by
  induction texts generalizing front n with
  | nil => exact absurd rfl hne
  | cons line texts ih =>
      have hline := hfree line List.mem_cons_self
      cases texts with
      | nil =>
          have hsingle : unlines [line] = line := joinWith_singleton ['\n'] line
          simp only [hsingle, startsFrom_of_not_mem hline]
          cases n with
          | zero =>
              have hslice := slice_middle front line []
              simpa using hslice
          | succ n => simp
      | cons next texts =>
          have hjoin : unlines (line :: next :: texts) = line ++ '\n' :: unlines (next :: texts) := by
            rw [unlines, joinWith_cons_cons]
            simp [unlines]
          -- the lines behind the first one, with the first one and its line feed behind the front
          have hrest := ih (List.cons_ne_nil _ _) (fun l hl => hfree l (List.mem_cons_of_mem _ hl))
            (front ++ line ++ ['\n'])
          have hlength : (front ++ line ++ ['\n']).length = front.length + line.length + 1 := by
            simp only [List.length_append, List.length_singleton]
          have hall : front ++ (line ++ '\n' :: unlines (next :: texts)) =
              front ++ line ++ ['\n'] ++ unlines (next :: texts) := by simp
          simp only [hjoin, startsFrom_append_cons hline]
          cases n with
          | zero =>
              have hslice := slice_middle front line ('\n' :: unlines (next :: texts))
              simpa using hslice
          | succ n =>
              simp only [List.getElem?_cons_succ]
              rw [hall]
              have hn := hrest n
              simp only [hlength] at hn
              exact hn

/-- A line of a document is one of the lines that its text is cut into. -/
theorem lineAt?_eq (document : Document) (n : Nat) : document.lineAt? n = document.lines[n]? := by
  have hstarts := getElem?_startsFrom (lines_ne_nil document.text)
    (fun l hl => not_mem_of_mem_lines hl) [] n
  simp only [List.length_nil, List.nil_append, unlines_lines] at hstarts
  unfold lineAt? lineStarts lines
  rw [List.getElem?_map, ← hstarts, Option.map_map]
  rfl

end Document

/-! ## Numbered lines -/

namespace SectionKey

variable {key : SectionKey} {text : Text}

/-- The lines of a section are numbered from the first one on. -/
theorem map_fst_linesOf {s : Section} (h : key.find? text = some s) :
    (key.linesOf text).map Prod.fst = List.range' s.firstLine s.body.length := by
  have hsnd : s.body.zipIdx.map Prod.snd = List.range' 0 s.body.length := List.zipIdx_map_snd 0 s.body
  unfold linesOf
  rw [h, ← Nat.add_zero s.firstLine, ← List.map_add_range', ← hsnd, List.map_map]
  simp only [Option.map_some, Option.getD_some, Section.numberedLines, List.map_map, Function.comp_def]

theorem pairwise_linesOf (key : SectionKey) (text : Text) :
    ((key.linesOf text).map Prod.fst).Pairwise (· < ·) := by
  cases hfind : key.find? text with
  | none => simp [linesOf, hfind]
  | some s =>
      rw [map_fst_linesOf hfind]
      exact List.pairwise_lt_range'

/-- No two lines of a section have one number. -/
theorem nodup_linesOf (key : SectionKey) (text : Text) : ((key.linesOf text).map Prod.fst).Nodup :=
  (pairwise_linesOf key text).imp Nat.ne_of_lt

/-- The lines of a section are numbered one after the other, whatever stands above the section. -/
theorem exists_linesOf_eq (key : SectionKey) (text : Text) :
    ∃ first, key.linesOf text = ((key.bodyIn (lines text)).zipIdx.map fun entry =>
      (entry.2, trimReturns entry.1)).map fun entry => (first + entry.1, entry.2) := by
  cases hfind : key.find? text with
  | none =>
      refine ⟨0, ?_⟩
      have hbody : key.bodyIn (lines text) = [] := by
        rw [bodyIn, ← find?_map_block, hfind]
        rfl
      rw [linesOf, hfind, hbody]
      rfl
  | some s =>
      refine ⟨s.firstLine, ?_⟩
      rw [linesOf, hfind, bodyIn_eq_of_find? hfind, List.map_map]
      rfl

theorem lineFeed_not_mem_of_mem_linesOf {entry : Nat × Text} (h : entry ∈ key.linesOf text) :
    '\n' ∉ entry.2 := by
  obtain ⟨raw, hraw, heq⟩ := exists_of_mem_linesOf h
  obtain ⟨tail, hsplit, -⟩ := exists_trimReturns_append raw
  have hfree := key.lineFeed_not_mem_of_mem_bodyIn hraw
  rw [hsplit, heq] at hfree
  exact fun hmem => hfree (List.mem_append_left _ hmem)

end SectionKey

namespace Document

variable {document : Document}

/-- The numbered lines of a section, under the key of a known section or any other name, are the lines of the
document. -/
theorem lineAt?_of_mem_numberedLines {name : Text} {s : Section} {entry : Nat × Text}
    (h : Section.find? name document.text = some s) (hentry : entry ∈ s.numberedLines) :
    document.lineAt? entry.1 = some entry.2 := by
  obtain ⟨⟨raw, i⟩, hraw, rfl⟩ := List.mem_map.1 hentry
  have hbody : s.body[i]? = some raw := List.mem_zipIdx_iff_getElem?.1 hraw
  have hlt : i < s.body.length := (List.getElem?_eq_some_iff.1 hbody).1
  have hnumber : s.firstLine + i = s.above.length + (i + 1) := by
    simp only [Section.firstLine, Section.headerLine]
    omega
  have hline : (Text.lines document.text)[s.firstLine + i]? = some raw := by
    rw [SectionKey.lines_of_find? h, hnumber, List.getElem?_append_right (Nat.le_add_right _ _),
      Nat.add_sub_cancel_left, List.getElem?_cons_succ, List.getElem?_append_left hlt, hbody]
  rw [lineAt?_eq, Document.lines, List.getElem?_map, hline]
  rfl

theorem lineAt?_of_mem_linesOf {key : SectionKey} {entry : Nat × Text} (h : entry ∈ key.linesOf document.text) :
    document.lineAt? entry.1 = some entry.2 := by
  cases hfind : key.find? document.text with
  | none => simp [SectionKey.linesOf, hfind] at h
  | some s =>
      rw [SectionKey.linesOf, hfind] at h
      exact lineAt?_of_mem_numberedLines hfind h

theorem lineAt_of_mem_linesOf {key : SectionKey} {entry : Nat × Text} (h : entry ∈ key.linesOf document.text) :
    document.lineAt entry.1 = entry.2 := by
  rw [lineAt, lineAt?_of_mem_linesOf h]
  rfl

end Document

end Scenarist
