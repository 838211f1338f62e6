import Scenarist.Proofs.Document
import Scenarist.Proofs.Presence
import Mathlib.Algebra.Order.Ring.Nat

set_option autoImplicit false

/-! # Where a section lies

A section is found as lines around and inside it. Its offsets, its line numbers and its numbered lines are
places in the document: the header begins the first line with its key, the content runs from the colon up to
the line feed before the next top-level key, or up to the end, and the lines in between are the lines of the
document under these numbers. Sections of two keys lie apart.

Main statements: `SectionKey.Found.place` and `SectionKey.place_of_find?`. -/

namespace Scenarist

open Text

namespace Text

/-! ## Where lines begin -/

/-- The offset at which a line of a text begins: each line in front of it takes its length and a line feed. -/
def lineStart (text : Text) (n : Nat) : Nat := (((lines text).take n).map (·.length + 1)).sum

theorem length_flatMap_concat (front : List Text) :
    (front.flatMap (· ++ ['\n'])).length = (front.map (·.length + 1)).sum := by
  rw [List.length_flatMap]
  simp

theorem lineStart_length {text : Text} {front back : List Text} (h : lines text = front ++ back) :
    lineStart text front.length = (front.flatMap (· ++ ['\n'])).length := by
  rw [lineStart, h, List.take_left, length_flatMap_concat]

/-- From the offset of a line on, a text consists of this line and the later ones. -/
theorem drop_lineStart {text : Text} {n : Nat} (h : n < (lines text).length) :
    text.drop (lineStart text n) = unlines ((lines text).drop n) := by
  have hne : (lines text).drop n ≠ [] := by
    rw [ne_eq, List.drop_eq_nil_iff]
    omega
  have htext := unlines_append ((lines text).take n) hne
  rw [List.take_append_drop, unlines_lines] at htext
  calc text.drop (lineStart text n)
      = (((lines text).take n).flatMap (· ++ ['\n']) ++ unlines ((lines text).drop n)).drop
          (((lines text).take n).flatMap (· ++ ['\n'])).length := by
        rw [← htext, lineStart, length_flatMap_concat]
    _ = unlines ((lines text).drop n) := List.drop_left

theorem lineStart_le (text : Text) {m n : Nat} (h : m ≤ n) : lineStart text m ≤ lineStart text n := by
  obtain ⟨k, rfl⟩ := Nat.exists_eq_add_of_le h
  simp only [lineStart, List.take_add, List.map_append, List.sum_append]
  omega

theorem count_flatMap_concat {front : List Text} (h : ∀ l ∈ front, '\n' ∉ l) :
    (front.flatMap (· ++ ['\n'])).count '\n' = front.length := by
  induction front with
  | nil => rfl
  | cons l ls ih =>
      rw [List.flatMap_cons, List.count_append, List.count_append, ih fun x hx => h x (List.mem_cons_of_mem _ hx),
        List.count_eq_zero_of_not_mem (h l List.mem_cons_self), List.length_cons]
      simp only [List.count_singleton_self]
      omega

end Text

/-! ## The place of a section -/

/-- How the offsets and the line numbers of a section that was found under a key cut its document. -/
structure Section.Place (key : SectionKey) (text : Text) (s : Section) : Prop where
  text_eq : text = text.take s.headerStart ++ (key.name ++ [':']) ++ s.content ++ text.drop s.contentEnd
  content_eq : s.content = slice s.contentStart s.contentEnd text
  /-- The header is on the first line that begins with the key and a colon. -/
  header : ∃ line, (lines text)[s.headerLine]? = some line ∧ startsWith (key.name ++ [':']) line = true
  above : ∀ n < s.headerLine, ∀ line, (lines text)[n]? = some line → startsWith (key.name ++ [':']) line = false
  headerStart_eq : s.headerStart = lineStart text s.headerLine
  begins : text.drop s.headerStart = unlines ((lines text).drop s.headerLine)
  headerLine_eq : s.headerLine = (text.take s.headerStart).count '\n'
  body : ∀ n, s.firstLine ≤ n → n ≤ s.lastLine →
    ∃ line, (lines text)[n]? = some line ∧ isTopLevelKey line = false
  hasFollowing_iff : s.hasFollowing = true ↔
    ∃ n line, s.headerLine < n ∧ (lines text)[n]? = some line ∧ isTopLevelKey line = true
  followed : s.hasFollowing = true →
    text[s.contentEnd]? = some '\n' ∧ lineStart text (s.lastLine + 1) = s.contentEnd + 1 ∧
      ∃ line, (lines text)[s.lastLine + 1]? = some line ∧ isTopLevelKey line = true
  last : s.hasFollowing = false → s.contentEnd = text.length ∧ s.lastLine + 1 = (lines text).length
  /-- Behind the rest of the header line the content consists of the lines that are numbered. -/
  content_lines : ∃ rest, (lines text)[s.headerLine]? = some (key.name ++ ':' :: rest) ∧
    s.content = rest ++ (((lines text).drop s.firstLine).take (s.lastLine + 1 - s.firstLine)).flatMap ('\n' :: ·)
  linesOf_eq : key.linesOf text =
    (((lines text).drop s.firstLine).take (s.lastLine + 1 - s.firstLine)).zipIdx.map fun (line, i) =>
      (s.firstLine + i, trimReturns line)

namespace Section

variable {key : SectionKey} {text : Text} {s : Section}

theorem content_eq_append (s : Section) : s.content = s.rest ++ s.body.flatMap ('\n' :: ·) :=
  unlines_cons s.rest s.body

theorem take_headerStart (h : s.text = text) : text.take s.headerStart = s.front := by
  rw [← h, headerStart, Section.text, List.append_assoc, List.append_assoc, List.take_left]

theorem drop_contentEnd (h : s.text = text) : text.drop s.contentEnd = s.back := by
  rw [← h, contentEnd, contentStart, headerStart, Section.text, ← List.length_append, ← List.length_append,
    List.drop_left]

theorem slice_content (h : s.text = text) : slice s.contentStart s.contentEnd text = s.content := by
  rw [← h, contentEnd, contentStart, headerStart, Section.text, ← List.length_append]
  exact Document.slice_middle (s.front ++ s.header) s.content s.back

/-- A section with new content is its document with the text between two offsets replaced. -/
theorem withContent_eq (h : s.text = text) (content : Text) :
    s.withContent content = text.take s.contentStart ++ content ++ text.drop s.contentEnd := by
  have hfront : text.take s.contentStart = s.front ++ s.header := by
    rw [← h, contentStart, headerStart, Section.text, ← List.length_append, List.append_assoc (s.front ++ s.header),
      List.take_left]
  rw [hfront, drop_contentEnd h, text_withContent]

end Section

namespace SectionKey.Found

variable {key other : SectionKey} {text : Text} {s t : Section}

theorem getElem?_headerLine (hs : key.Found text s) :
    (lines text)[s.headerLine]? = some (key.name ++ ':' :: s.rest) := by
  rw [hs.lines_eq, Section.headerLine, List.getElem?_append_right (Nat.le_refl _), Nat.sub_self]
  rfl

/-- The lines behind the header. -/
theorem drop_firstLine (hs : key.Found text s) : (lines text).drop s.firstLine = s.body ++ s.below := by
  rw [hs.lines_eq, Section.firstLine, Section.headerLine, ← List.drop_drop, List.drop_left]
  rfl

theorem body_eq (hs : key.Found text s) :
    s.body = ((lines text).drop s.firstLine).take (s.lastLine + 1 - s.firstLine) := by
  have hcount : s.lastLine + 1 - s.firstLine = s.body.length := by
    unfold Section.lastLine Section.firstLine
    omega
  rw [hs.drop_firstLine, hcount, List.take_left]

theorem getElem?_firstLine_add (hs : key.Found text s) (i : Nat) :
    (lines text)[s.firstLine + i]? = (s.body ++ s.below)[i]? := by
  rw [← hs.drop_firstLine, List.getElem?_drop]

theorem getElem?_lastLine_succ (hs : key.Found text s) : (lines text)[s.lastLine + 1]? = s.below.head? := by
  have hline : s.lastLine + 1 = s.firstLine + s.body.length := by
    unfold Section.lastLine Section.firstLine
    omega
  rw [hline, hs.getElem?_firstLine_add, List.getElem?_append_right (Nat.le_refl _), Nat.sub_self,
    List.head?_eq_getElem?]

theorem lineFeed_not_mem_above (hs : key.Found text s) : ∀ l ∈ s.above, '\n' ∉ l := by
  intro l hl
  refine @not_mem_of_mem_lines text l ?_
  rw [hs.lines_eq]
  exact List.mem_append_left _ hl

theorem headerStart_eq (hs : key.Found text s) : s.headerStart = lineStart text s.headerLine := by
  rw [Section.headerLine, lineStart_length hs.lines_eq]
  rfl

/-- The next top-level key begins behind the content and a line feed. -/
theorem lineStart_lastLine_succ (hs : key.Found text s) : lineStart text (s.lastLine + 1) = s.contentEnd + 1 := by
  have hlines : lines text = (s.above ++ (key.name ++ ':' :: s.rest) :: s.body) ++ s.below := by
    rw [hs.lines_eq, List.append_assoc, List.cons_append]
  have hlength : s.lastLine + 1 = (s.above ++ (key.name ++ ':' :: s.rest) :: s.body).length := by
    simp only [Section.lastLine, Section.headerLine, List.length_append, List.length_cons]
    omega
  have hbody : (s.body.flatMap ('\n' :: ·)).length = (s.body.flatMap (· ++ ['\n'])).length := by
    simp [List.length_flatMap]
  have hfront : (s.above.flatMap (· ++ ['\n'])).length = s.headerStart := rfl
  rw [hlength, lineStart_length hlines]
  simp only [Section.contentEnd, Section.contentStart, Section.header, Section.content_eq_append, hs.name_eq,
    List.flatMap_append, List.flatMap_cons, List.length_append, List.length_cons, List.length_nil, hbody, hfront]
  omega

theorem hasFollowing_iff (hs : key.Found text s) : s.hasFollowing = true ↔
    ∃ n line, s.headerLine < n ∧ (lines text)[n]? = some line ∧ isTopLevelKey line = true := by
  constructor
  · intro hfollowing
    cases hbelow : s.below with
    | nil => simp [Section.hasFollowing, hbelow] at hfollowing
    | cons line below =>
        refine ⟨s.lastLine + 1, line, ?_, ?_, hs.below line (by rw [hbelow]; rfl)⟩
        · unfold Section.lastLine
          omega
        · rw [hs.getElem?_lastLine_succ, hbelow]
          rfl
  · rintro ⟨n, line, hn, hline, htop⟩
    obtain ⟨i, rfl⟩ := Nat.exists_eq_add_of_le (show s.firstLine ≤ n from hn)
    rw [hs.getElem?_firstLine_add] at hline
    -- a line of the body is no top-level key, so there is a line behind the body
    cases hbelow : s.below with
    | nil =>
        rw [hbelow, List.append_nil] at hline
        exact absurd htop (by simp [hs.body line (List.mem_of_getElem? hline)])
    | cons next below => simp [Section.hasFollowing, hbelow]

/-- A section that is found lies where its offsets and line numbers say. -/
theorem place (hs : key.Found text s) (htext : s.text = text) (hfind : key.find? text = some s) :
    s.Place key text where
  text_eq := by
    have hheader : key.name ++ [':'] = s.header := by rw [Section.header, hs.name_eq]
    rw [Section.take_headerStart htext, Section.drop_contentEnd htext, hheader]
    exact htext.symm
  content_eq := (Section.slice_content htext).symm
  header := by
    refine ⟨_, hs.getElem?_headerLine, ?_⟩
    have hself := key.afterHeader?_self s.rest
    unfold afterHeader? at hself
    rw [startsWith, hself]
    rfl
  above := by
    intro n hn line hline
    rw [hs.lines_eq, List.getElem?_append_left hn] at hline
    have hnone := hs.above line (List.mem_of_getElem? hline)
    unfold afterHeader? at hnone
    rw [startsWith, hnone]
    rfl
  headerStart_eq := hs.headerStart_eq
  begins := by
    have hline := (List.getElem?_eq_some_iff.1 hs.getElem?_headerLine).1
    rw [hs.headerStart_eq, drop_lineStart hline]
  headerLine_eq := by
    rw [Section.take_headerStart htext, Section.front, count_flatMap_concat hs.lineFeed_not_mem_above]
    rfl
  body := by
    intro n hfirst hlast
    obtain ⟨i, rfl⟩ := Nat.exists_eq_add_of_le hfirst
    have hi : i < s.body.length := by
      unfold Section.firstLine Section.lastLine at hlast
      omega
    rw [hs.getElem?_firstLine_add, List.getElem?_append_left hi, List.getElem?_eq_getElem hi]
    exact ⟨_, rfl, hs.body _ (List.getElem_mem hi)⟩
  hasFollowing_iff := hs.hasFollowing_iff
  followed := by
    intro hfollowing
    cases hbelow : s.below with
    | nil => simp [Section.hasFollowing, hbelow] at hfollowing
    | cons line below =>
        refine ⟨?_, hs.lineStart_lastLine_succ, line, ?_, hs.below line (by rw [hbelow]; rfl)⟩
        · have hdrop := Section.drop_contentEnd htext
          rw [Section.back, hbelow] at hdrop
          rw [← List.head?_drop, hdrop]
          rfl
        · rw [hs.getElem?_lastLine_succ, hbelow]
          rfl
  last := by
    intro hfollowing
    have hbelow : s.below = [] := by simpa [Section.hasFollowing] using hfollowing
    constructor
    · have hdrop := Section.drop_contentEnd htext
      have hlength := congrArg List.length htext
      rw [Section.back, hbelow] at hdrop
      simp only [Section.text, Section.back, hbelow, List.length_append, List.flatMap_nil, List.length_nil] at hlength
      unfold Section.contentEnd Section.contentStart Section.headerStart
      omega
    · have hlength := congrArg List.length hs.lines_eq
      simp only [hbelow, List.length_append, List.length_cons, List.length_nil] at hlength
      unfold Section.lastLine Section.headerLine
      omega
  content_lines := ⟨s.rest, hs.getElem?_headerLine, by rw [← hs.body_eq, Section.content_eq_append]⟩
  linesOf_eq := by
    rw [← hs.body_eq, linesOf, hfind]
    rfl

/-- The sections of two keys lie apart: the later header is a top-level key, which ends the section above. -/
theorem contentEnd_lt (hs : key.Found text s) (ht : other.Found text t) (h : s.headerLine < t.headerLine) :
    s.contentEnd < t.headerStart := by
  have hlast : s.lastLine < t.headerLine := by
    by_contra hnot
    obtain ⟨i, hi⟩ := Nat.exists_eq_add_of_le (show s.firstLine ≤ t.headerLine from h)
    have hbody : i < s.body.length := by
      unfold Section.firstLine at hi
      unfold Section.lastLine at hnot
      omega
    have hline := ht.getElem?_headerLine
    rw [hi, hs.getElem?_firstLine_add, List.getElem?_append_left hbody] at hline
    have htop := hs.body _ (List.mem_of_getElem? hline)
    rw [isTopLevelKey_header] at htop
    exact Bool.noConfusion htop
  have hstart := lineStart_le text (show s.lastLine + 1 ≤ t.headerLine from hlast)
  rw [hs.lineStart_lastLine_succ, ← ht.headerStart_eq] at hstart
  exact hstart

theorem headerLine_ne (hs : key.Found text s) (ht : other.Found text t) (hne : other ≠ key) :
    s.headerLine ≠ t.headerLine := by
  intro heq
  have hline := ht.getElem?_headerLine
  rw [← heq, hs.getElem?_headerLine] at hline
  have hnone := afterHeader?_of_ne hne s.rest
  rw [Option.some.inj hline, afterHeader?_self] at hnone
  exact absurd hnone (by simp)

end SectionKey.Found

namespace SectionKey

theorem startsWith_header_iff {key : SectionKey} {line : Text} :
    startsWith (key.name ++ [':']) line = true ↔ ∃ rest, line = key.name ++ ':' :: rest := by
  rw [startsWith, Option.isSome_iff_exists]
  exact exists_congr fun rest => afterHeader?_eq_some_iff

/-- A document has a section under a key exactly if one of its lines begins with the key and a colon. The section
then lies where its offsets and line numbers say, and apart from the sections of the other keys. -/
theorem place_of_find? (key : SectionKey) (text : Text) :
    ((key.find? text).isSome = true ↔ ∃ line ∈ lines text, startsWith (key.name ++ [':']) line = true) ∧
    ∀ s, key.find? text = some s → s.Place key text ∧
      ∀ other t, other ≠ key → other.find? text = some t →
        s.contentEnd < t.headerStart ∨ t.contentEnd < s.headerStart := by
  constructor
  · have hin : isIn text key = true ↔ ∃ rest, key.name ++ ':' :: rest ∈ lines text := isIn_iff
    rw [isIn] at hin
    rw [hin]
    constructor
    · rintro ⟨rest, hmem⟩
      exact ⟨_, hmem, startsWith_header_iff.2 ⟨rest, rfl⟩⟩
    · rintro ⟨line, hmem, hline⟩
      obtain ⟨rest, rfl⟩ := startsWith_header_iff.1 hline
      exact ⟨rest, hmem⟩
  · intro s hfind
    have hs := found_of_find? hfind
    refine ⟨hs.place (Section.text_of_find? hfind) hfind, fun other t hne hfind' => ?_⟩
    have ht := found_of_find? hfind'
    rcases Nat.lt_or_gt_of_ne (hs.headerLine_ne ht hne) with hlt | hgt
    · exact Or.inl (hs.contentEnd_lt ht hlt)
    · exact Or.inr (ht.contentEnd_lt hs hgt)

def threeHeaders : Text :=
  unlines ["ПараметрыСценария:\r".toList, "\r".toList, "Другое:".toList, "ТекстСценария: |".toList,
    "    И A".toList, "ТекстСценария:".toList]

theorem place_of_find?_threeHeaders :
    (∃ s, parameters.find? threeHeaders = some s ∧ s.Place parameters threeHeaders ∧
      s.headerStart = 0 ∧ s.contentEnd = 21 ∧ s.lastLine = 1) ∧
    ∃ s, script.find? threeHeaders = some s ∧ s.Place script threeHeaders ∧
      s.headerStart = 30 ∧ s.contentEnd = 54 ∧ s.headerLine = 3 ∧ s.lastLine = 4 := by
  constructor
  · obtain ⟨s, hs⟩ := Option.isSome_iff_exists.1 (show (parameters.find? threeHeaders).isSome = true by decide +kernel)
    have hplaces : (parameters.find? threeHeaders).map (fun s => (s.headerStart, s.contentEnd, s.lastLine)) =
        some (0, 21, 1) := by decide +kernel
    rw [hs] at hplaces
    obtain ⟨hstart, hend, hlast⟩ : s.headerStart = 0 ∧ s.contentEnd = 21 ∧ s.lastLine = 1 := by simpa using hplaces
    exact ⟨s, hs, ((place_of_find? parameters threeHeaders).2 s hs).1, hstart, hend, hlast⟩
  · obtain ⟨s, hs⟩ := Option.isSome_iff_exists.1 (show (script.find? threeHeaders).isSome = true by decide +kernel)
    have hplaces : (script.find? threeHeaders).map
        (fun s => (s.headerStart, s.contentEnd, s.headerLine, s.lastLine)) = some (30, 54, 3, 4) := by
      decide +kernel
    rw [hs] at hplaces
    obtain ⟨hstart, hend, hheader, hlast⟩ :
        s.headerStart = 30 ∧ s.contentEnd = 54 ∧ s.headerLine = 3 ∧ s.lastLine = 4 := by simpa using hplaces
    exact ⟨s, hs, ((place_of_find? script threeHeaders).2 s hs).1, hstart, hend, hheader, hlast⟩

end SectionKey

end Scenarist
