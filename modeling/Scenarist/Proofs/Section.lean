import Scenarist.Proofs.Text.Blank
import Scenarist.Proofs.Text.Lines
import Scenarist.Section

set_option autoImplicit false

/-! # The section of a key

A section stands between its header and the next top-level key, so new lines in its place reach no other
section as long as none of them is a top-level key. What a section holds apart from its place is its
`Block`; the block of a key is a function of the lines of a document (`SectionKey.blockIn`), and so is
what the readers see of it.

Main statements: `SectionKey.find?_withContent` (a section with new content is found again, with the new
lines in it), `SectionKey.Rewritten.blockIn_eq` (the blocks of the other keys stay as they are) and
`SectionKey.blockIn_map_expandTabs` (expanding tabs changes bodies only). -/

namespace Scenarist

open Text

/-- What a section holds, apart from its place in the document. -/
structure Block where
  /-- What follows the colon on the header line. -/
  rest : Text
  /-- The lines of the body. -/
  body : List Text
  /-- Whether another top-level section follows. -/
  followed : Bool
  deriving DecidableEq, Repr

/-- What a section holds, apart from its place. -/
def Section.block (s : Section) : Block := ⟨s.rest, s.body, s.hasFollowing⟩

/-! ## Headers -/

namespace SectionKey

theorem name_ne_nil (key : SectionKey) : key.name ≠ [] := by
  cases key <;> decide

theorem isKeyLetter_of_mem_name (key : SectionKey) : ∀ c ∈ key.name, isKeyLetter c = true := by
  refine List.all_eq_true.1 ?_
  cases key <;> decide

theorem name_injective {key other : SectionKey} (h : key.name = other.name) : key = other := by
  revert h
  cases key <;> cases other <;> decide

theorem colon_not_mem_name (key : SectionKey) : ':' ∉ key.name := by
  intro h
  have := key.isKeyLetter_of_mem_name ':' h
  revert this
  decide

theorem lineFeed_not_mem_name (key : SectionKey) : '\n' ∉ key.name := by
  intro h
  have := key.isKeyLetter_of_mem_name '\n' h
  revert this
  decide

/-- What follows the header on a line that is one. -/
def afterHeader? (key : SectionKey) (line : Text) : Option Text := after? (key.name ++ [':']) line

theorem afterHeader?_eq_some_iff {key : SectionKey} {line rest : Text} :
    key.afterHeader? line = some rest ↔ line = key.name ++ ':' :: rest := by
  unfold afterHeader?
  rw [after?_eq_some_iff, List.append_assoc, List.singleton_append]

theorem afterHeader?_self (key : SectionKey) (rest : Text) :
    key.afterHeader? (key.name ++ ':' :: rest) = some rest :=
  afterHeader?_eq_some_iff.2 rfl

theorem afterHeader?_of_ne {key other : SectionKey} (h : other ≠ key) (rest : Text) :
    other.afterHeader? (key.name ++ ':' :: rest) = none := by
  rw [Option.eq_none_iff_forall_ne_some]
  intro found hfound
  have heq := congrArg (splitOn ':') (afterHeader?_eq_some_iff.1 hfound)
  rw [splitOn_append_cons, splitOn_append_cons, splitOn_of_not_mem key.colon_not_mem_name,
    splitOn_of_not_mem other.colon_not_mem_name] at heq
  simp only [List.singleton_append, List.cons.injEq] at heq
  exact h (name_injective heq.1.symm)

theorem isTopLevelKey_header (key : SectionKey) (rest : Text) :
    isTopLevelKey (key.name ++ ':' :: rest) = true := by
  have hcolon : isKeyLetter ':' = false := by decide
  have hname := key.isKeyLetter_of_mem_name
  unfold isTopLevelKey
  rw [List.takeWhile_append_of_pos hname, List.dropWhile_append_of_pos hname]
  simp [hcolon, key.name_ne_nil]

theorem afterHeader?_of_not_topLevel {key : SectionKey} {line : Text}
    (h : isTopLevelKey line = false) : key.afterHeader? line = none := by
  rw [Option.eq_none_iff_forall_ne_some]
  intro rest hrest
  rw [afterHeader?_eq_some_iff.1 hrest, isTopLevelKey_header] at h
  exact Bool.noConfusion h

end SectionKey

/-- A line that begins with no key letter is no top-level key. -/
theorem isTopLevelKey_of_head {line : Text} (h : ∀ c ∈ line.head?, isKeyLetter c = false) :
    isTopLevelKey line = false := by
  cases line with
  | nil => rfl
  | cons c cs => simp [isTopLevelKey, h c rfl]

/-- A carriage return at the end of a line does not make it a top-level key. -/
theorem isTopLevelKey_concat_return (line : Text) :
    isTopLevelKey (line ++ ['\r']) = isTopLevelKey line := by
  have hreturn : isKeyLetter '\r' = false := by decide
  cases line with
  | nil => rfl
  | cons c cs =>
      cases hc : isKeyLetter c with
      | false => simp [isTopLevelKey, hc]
      | true =>
          have hhead : (((cs ++ ['\r']).dropWhile isKeyLetter).head? == some ':') =
              ((cs.dropWhile isKeyLetter).head? == some ':') := by
            cases hcs : cs.dropWhile isKeyLetter with
            | nil => simp [List.dropWhile_append, hcs, hreturn]
            | cons d ds => simp [List.dropWhile_append, hcs]
          unfold isTopLevelKey
          rw [List.cons_append, List.dropWhile_cons_of_pos hc, List.dropWhile_cons_of_pos hc,
            List.takeWhile_cons_of_pos hc, List.takeWhile_cons_of_pos hc, hhead]
          rfl

/-! ## Blocks -/

namespace SectionKey

def blockIn (key : SectionKey) : List Text → Option Block
  | [] => none
  | line :: lines => match key.afterHeader? line with
    | some rest => some {
        rest, body := lines.takeWhile (!isTopLevelKey ·)
        followed := !(lines.dropWhile (!isTopLevelKey ·)).isEmpty }
    | none => key.blockIn lines

/-- The lines of the section under a key; none if it is missing. -/
def bodyIn (key : SectionKey) (lines : List Text) : List Text :=
  ((key.blockIn lines).map Block.body).getD []

private theorem findFrom_map_block (key : SectionKey) (above lines : List Text) :
    (Section.findFrom key.name above lines).map Section.block = key.blockIn lines := by
  induction lines generalizing above with
  | nil => rfl
  | cons line lines ih =>
      unfold Section.findFrom blockIn afterHeader?
      cases after? (key.name ++ [':']) line with
      | none => exact ih (line :: above)
      | some rest => rfl

theorem find?_map_block (key : SectionKey) (text : Text) :
    (key.find? text).map Section.block = key.blockIn (lines text) :=
  findFrom_map_block key [] (lines text)

/-- What readers see of a section is the body without the carriage returns at the ends of its lines. -/
theorem linesOf_map_snd (key : SectionKey) (text : Text) :
    (key.linesOf text).map (·.2) = (key.bodyIn (lines text)).map trimReturns := by
  unfold linesOf bodyIn
  rw [← find?_map_block]
  cases key.find? text with
  | none => rfl
  | some s =>
      have : List.map (trimReturns ∘ Prod.fst) s.body.zipIdx = s.body.map trimReturns := by
        rw [← List.map_map, List.zipIdx_map_fst]
      simpa [Section.numberedLines, Section.block, Function.comp_def] using this

theorem exists_of_mem_linesOf {key : SectionKey} {text : Text} {entry : Nat × Text}
    (h : entry ∈ key.linesOf text) : ∃ raw ∈ key.bodyIn (lines text), trimReturns raw = entry.2 := by
  have hline : entry.2 ∈ (key.linesOf text).map (·.2) := List.mem_map_of_mem h
  rw [linesOf_map_snd] at hline
  exact List.mem_map.1 hline

/-! ## The parts of a document around a section -/

theorem takeWhile_body {body below : List Text} (hbody : ∀ l ∈ body, isTopLevelKey l = false)
    (hbelow : ∀ l ∈ below.head?, isTopLevelKey l = true) :
    (body ++ below).takeWhile (!isTopLevelKey ·) = body := by
  rw [List.takeWhile_append_of_pos fun l hl => by simp [hbody l hl]]
  cases below with
  | nil => simp
  | cons l ls => simp [hbelow l rfl]

theorem dropWhile_body {body below : List Text} (hbody : ∀ l ∈ body, isTopLevelKey l = false)
    (hbelow : ∀ l ∈ below.head?, isTopLevelKey l = true) :
    (body ++ below).dropWhile (!isTopLevelKey ·) = below := by
  rw [List.dropWhile_append_of_pos fun l hl => by simp [hbody l hl]]
  cases below with
  | nil => rfl
  | cons l ls => simp [hbelow l rfl]

private theorem lines_of_findFrom {name : Text} {above all : List Text} {s : Section}
    (h : Section.findFrom name above all = some s) :
    above.reverse ++ all = s.above ++ (s.header ++ s.rest) :: (s.body ++ s.below) := by
  induction all generalizing above with
  | nil => exact absurd h (by simp [Section.findFrom])
  | cons line all ih =>
      unfold Section.findFrom at h
      cases hafter : after? (name ++ [':']) line with
      | none =>
          rw [hafter] at h
          rw [← ih h]
          simp
      | some rest =>
          rw [hafter] at h
          obtain rfl := Option.some.inj h
          simp only [Section.header, Section.append_of_after? hafter, List.takeWhile_append_dropWhile]

/-- A section that is found, under the key of a known section or any other name, cuts the lines of its document. -/
theorem lines_of_find? {name text : Text} {s : Section} (h : Section.find? name text = some s) :
    lines text = s.above ++ (s.header ++ s.rest) :: (s.body ++ s.below) :=
  lines_of_findFrom h

/-- How a section that was found lies among the lines of its document. -/
structure Found (key : SectionKey) (text : Text) (s : Section) : Prop where
  name_eq : s.name = key.name
  lines_eq : lines text = s.above ++ (key.name ++ ':' :: s.rest) :: (s.body ++ s.below)
  above : ∀ l ∈ s.above, key.afterHeader? l = none
  body : ∀ l ∈ s.body, isTopLevelKey l = false
  below : ∀ l ∈ s.below.head?, isTopLevelKey l = true

private theorem findFrom_eq_some {key : SectionKey} {passed all : List Text} {s : Section}
    (h : Section.findFrom key.name passed all = some s) :
    ∃ skipped tail, all = skipped ++ (key.name ++ ':' :: s.rest) :: tail ∧
      (∀ l ∈ skipped, key.afterHeader? l = none) ∧
      s = { name := key.name, above := passed.reverse ++ skipped, rest := s.rest
            body := tail.takeWhile (!isTopLevelKey ·)
            below := tail.dropWhile (!isTopLevelKey ·) } := by
  induction all generalizing passed with
  | nil => simp [Section.findFrom] at h
  | cons line all ih =>
      unfold Section.findFrom at h
      cases hline : after? (key.name ++ [':']) line with
      | some rest =>
          rw [hline] at h
          obtain rfl := Option.some.inj h
          exact ⟨[], all, by rw [afterHeader?_eq_some_iff.1 hline]; rfl, by simp, by simp⟩
      | none =>
          rw [hline] at h
          obtain ⟨skipped, tail, rfl, hskipped, hs⟩ := ih h
          refine ⟨line :: skipped, tail, rfl, ?_, ?_⟩
          · intro l hl
            rcases List.mem_cons.1 hl with rfl | hl
            · exact hline
            · exact hskipped l hl
          · simpa using hs

theorem found_of_find? {key : SectionKey} {text : Text} {s : Section}
    (h : key.find? text = some s) : key.Found text s := by
  obtain ⟨skipped, tail, hlines, hskipped, hs⟩ := findFrom_eq_some h
  have hbody : s.body = tail.takeWhile (!isTopLevelKey ·) := by rw [hs]
  have hbelow : s.below = tail.dropWhile (!isTopLevelKey ·) := by rw [hs]
  have habove : s.above = skipped := by rw [hs]; rfl
  refine ⟨by rw [hs], ?_, habove ▸ hskipped, ?_, ?_⟩
  · rw [hlines, habove, hbody, hbelow, List.takeWhile_append_dropWhile]
  · intro l hl
    rw [hbody] at hl
    simpa using List.mem_takeWhile_imp hl
  · intro l hl
    rw [hbelow] at hl
    have := List.head?_dropWhile_not (!isTopLevelKey ·) tail
    rw [hl] at this
    simpa using this

private theorem findFrom_of_lines {key : SectionKey} {rest : Text} {above body below : List Text}
    (habove : ∀ l ∈ above, key.afterHeader? l = none)
    (hbody : ∀ l ∈ body, isTopLevelKey l = false)
    (hbelow : ∀ l ∈ below.head?, isTopLevelKey l = true) (passed : List Text) :
    Section.findFrom key.name passed (above ++ (key.name ++ ':' :: rest) :: (body ++ below)) =
      some { name := key.name, above := passed.reverse ++ above, rest, body, below } := by
  induction above generalizing passed with
  | nil =>
      have hself := key.afterHeader?_self rest
      unfold afterHeader? at hself
      rw [List.nil_append, Section.findFrom, hself]
      simp [takeWhile_body hbody hbelow, dropWhile_body hbody hbelow]
  | cons line above ih =>
      have hline := habove line List.mem_cons_self
      unfold afterHeader? at hline
      rw [List.cons_append, Section.findFrom, hline]
      have := ih (fun l hl => habove l (List.mem_cons_of_mem _ hl)) (line :: passed)
      simpa using this

/-- A header with no other of its key above it opens the section of the key. -/
theorem find?_eq_some {key : SectionKey} {text rest : Text} {above body below : List Text}
    (hlines : lines text = above ++ (key.name ++ ':' :: rest) :: (body ++ below))
    (habove : ∀ l ∈ above, key.afterHeader? l = none)
    (hbody : ∀ l ∈ body, isTopLevelKey l = false)
    (hbelow : ∀ l ∈ below.head?, isTopLevelKey l = true) :
    key.find? text = some { name := key.name, above, rest, body, below } := by
  rw [find?, Section.find?, hlines]
  exact findFrom_of_lines habove hbody hbelow []

theorem bodyIn_eq_of_find? {key : SectionKey} {text : Text} {s : Section}
    (h : key.find? text = some s) : key.bodyIn (lines text) = s.body := by
  rw [bodyIn, ← find?_map_block, h]
  rfl

/-- A section that is not empty has a header line and another one. -/
theorem two_le_length_of_bodyIn_ne_nil {key : SectionKey} {text : Text}
    (h : key.bodyIn (lines text) ≠ []) : 2 ≤ (lines text).length := by
  cases hfind : key.find? text with
  | none =>
      rw [bodyIn, ← find?_map_block, hfind] at h
      exact absurd rfl h
  | some s =>
      rw [bodyIn_eq_of_find? hfind] at h
      rw [(found_of_find? hfind).lines_eq]
      have hlength := List.length_pos_iff.2 h
      simp only [List.length_append, List.length_cons]
      omega

theorem bodyIn_append_header_of_none {key : SectionKey} {above : List Text}
    (h : ∀ l ∈ above, key.afterHeader? l = none) (rest : Text) (tail : List Text) :
    key.bodyIn (above ++ (key.name ++ ':' :: rest) :: tail) = tail.takeWhile (!isTopLevelKey ·) := by
  induction above with
  | nil => simp [bodyIn, blockIn, afterHeader?_self]
  | cons line above ih =>
      have hline := h line List.mem_cons_self
      have hrest := ih fun l hl => h l (List.mem_cons_of_mem _ hl)
      simpa [bodyIn, blockIn, hline] using hrest

/-! ## New content -/

/-- The lines of a document whose section got new content. -/
theorem lines_withContent {key : SectionKey} {text content first : Text} {s : Section}
    {others : List Text} (hs : key.Found text s) (hc : lines content = first :: others) :
    lines (s.withContent content) =
      s.above ++ (key.name ++ ':' :: first) :: (others ++ s.below) := by
  have hfree : ∀ l ∈ s.above ++ s.below, '\n' ∉ l := by
    intro l hl
    refine @not_mem_of_mem_lines text l ?_
    rw [hs.lines_eq]
    rcases List.mem_append.1 hl with hl | hl <;> simp [hl]
  have hheader : '\n' ∉ s.header := by
    simp [Section.header, hs.name_eq, key.lineFeed_not_mem_name]
  unfold Section.withContent
  rw [List.append_assoc s.front, Section.front, Section.back,
    lines_between (fun l hl => hfree l (List.mem_append_left _ hl))
      (fun l hl => hfree l (List.mem_append_right _ hl)), lines_append hheader hc]
  simp [Section.header, hs.name_eq]

/-- A section with new content is found again, with the new lines in it. -/
theorem find?_withContent {key : SectionKey} {text content first : Text} {s : Section}
    {others : List Text} (hs : key.Found text s) (hc : lines content = first :: others)
    (hothers : ∀ l ∈ others, isTopLevelKey l = false) :
    key.find? (s.withContent content) =
      some { name := key.name, above := s.above, rest := first, body := others
             below := s.below } :=
  find?_eq_some (lines_withContent hs hc) hs.above hothers hs.below

theorem lineFeed_not_mem_of_mem_bodyIn (key : SectionKey) {text line : Text}
    (h : line ∈ key.bodyIn (lines text)) : '\n' ∉ line := by
  have hmem : ∀ all : List Text, line ∈ key.bodyIn all → line ∈ all := by
    intro all
    induction all with
    | nil => exact id
    | cons first rest ih =>
        intro hline
        cases hfirst : key.afterHeader? first with
        | none =>
            rw [bodyIn, blockIn, hfirst] at hline
            exact List.mem_cons_of_mem _ (ih hline)
        | some found =>
            rw [bodyIn, blockIn, hfirst] at hline
            exact List.mem_cons_of_mem _ (List.takeWhile_subset _ hline)
  exact not_mem_of_mem_lines (hmem _ h)

/-! ## Frames -/

/-- Lines that may differ in one section of a key: the header stays a header, and none of the lines
below it is a top-level key. -/
inductive Rewritten (key : SectionKey) : List Text → List Text → Prop
  | intro (above : List Text) (rest rest' : Text) (body body' below : List Text)
      (hbody : ∀ l ∈ body, isTopLevelKey l = false)
      (hbody' : ∀ l ∈ body', isTopLevelKey l = false) :
      Rewritten key (above ++ (key.name ++ ':' :: rest) :: (body ++ below))
        (above ++ (key.name ++ ':' :: rest') :: (body' ++ below))

theorem rewritten_withContent {key : SectionKey} {text content first : Text} {s : Section}
    {others : List Text} (hs : key.Found text s) (hc : lines content = first :: others)
    (hothers : ∀ l ∈ others, isTopLevelKey l = false) :
    key.Rewritten (lines text) (lines (s.withContent content)) := by
  rw [hs.lines_eq, lines_withContent hs hc]
  exact .intro s.above s.rest first s.body others s.below hs.body hothers

private theorem takeWhile_to_header (key : SectionKey) (above : List Text) (rest rest' : Text)
    (tail tail' : List Text) :
    (above ++ (key.name ++ ':' :: rest) :: tail).takeWhile (!isTopLevelKey ·) =
        (above ++ (key.name ++ ':' :: rest') :: tail').takeWhile (!isTopLevelKey ·) ∧
      ((above ++ (key.name ++ ':' :: rest) :: tail).dropWhile (!isTopLevelKey ·)).isEmpty = false ∧
      ((above ++ (key.name ++ ':' :: rest') :: tail').dropWhile (!isTopLevelKey ·)).isEmpty = false := by
  induction above with
  | nil => simp [isTopLevelKey_header]
  | cons line above ih =>
      by_cases h : isTopLevelKey line = true
      · simp [h]
      · simpa [h] using ih

private theorem blockIn_append_of_not_topLevel {key : SectionKey} {body : List Text}
    (h : ∀ l ∈ body, isTopLevelKey l = false) (below : List Text) :
    key.blockIn (body ++ below) = key.blockIn below := by
  induction body with
  | nil => rfl
  | cons line body ih =>
      have hline : key.afterHeader? line = none := afterHeader?_of_not_topLevel (h line List.mem_cons_self)
      rw [List.cons_append, blockIn, hline]
      exact ih fun l hl => h l (List.mem_cons_of_mem _ hl)

/-- Rewriting one section leaves the blocks of the other keys as they are. -/
theorem Rewritten.blockIn_eq {key other : SectionKey} {before after : List Text}
    (h : key.Rewritten before after) (hne : other ≠ key) :
    other.blockIn after = other.blockIn before := by
  obtain ⟨above, rest, rest', body, body', below, hbody, hbody'⟩ := h
  induction above with
  | nil =>
      simp only [List.nil_append, blockIn, afterHeader?_of_ne hne]
      rw [blockIn_append_of_not_topLevel hbody, blockIn_append_of_not_topLevel hbody']
  | cons line above ih =>
      rw [List.cons_append, List.cons_append, blockIn, blockIn]
      cases other.afterHeader? line with
      | none => exact ih
      | some found =>
          -- The block ends at the header that stays a header, or before it.
          obtain ⟨htake, hdrop, hdrop'⟩ :=
            takeWhile_to_header key above rest rest' (body ++ below) (body' ++ below)
          simp [htake, hdrop, hdrop']

theorem Rewritten.bodyIn_eq {key other : SectionKey} {before after : List Text}
    (h : key.Rewritten before after) (hne : other ≠ key) :
    other.bodyIn after = other.bodyIn before := by
  unfold bodyIn
  rw [h.blockIn_eq hne]

/-- What is found under a key above whose header other lines stand: either one of those lines is a
header already, and what follows the later one does not count, or it is the body of the later one. -/
theorem bodyIn_append_header (key : SectionKey) (above : List Text) :
    (∃ body, ∀ rest tail, key.bodyIn (above ++ (key.name ++ ':' :: rest) :: tail) = body) ∨
      ∀ rest tail, key.bodyIn (above ++ (key.name ++ ':' :: rest) :: tail) =
        tail.takeWhile (!isTopLevelKey ·) := by
  induction above with
  | nil =>
      refine Or.inr fun rest tail => ?_
      simp [bodyIn, blockIn, afterHeader?_self]
  | cons line above ih =>
      cases hline : key.afterHeader? line with
      | none => simpa [bodyIn, blockIn, hline] using ih
      | some found =>
          refine Or.inl ⟨(above ++ (key.name ++ ':' :: []) :: []).takeWhile (!isTopLevelKey ·),
            fun rest tail => ?_⟩
          simp only [List.cons_append, bodyIn, blockIn, hline, Option.map_some, Option.getD_some]
          exact (takeWhile_to_header key above rest [] tail []).1

/-! ## Indentation -/

theorem expandTabs_or_indented (line : Text) :
    expandTabs line = line ∨
      (∀ c ∈ line.head?, isKeyLetter c = false) ∧
        ∀ c ∈ (expandTabs line).head?, isKeyLetter c = false := by
  cases line with
  | nil => exact Or.inl rfl
  | cons c cs =>
      by_cases hspace : c = ' '
      · subst hspace
        exact Or.inr ⟨by simp; decide, by simp [expandTabs, indentOf?]; decide⟩
      · by_cases htab : c = '\t'
        · subst htab
          exact Or.inr ⟨by simp; decide, by simp [expandTabs, indentOf?, tabWidth]; decide⟩
        · exact Or.inl (by simp [expandTabs, indentOf?, hspace, htab])

theorem isTopLevelKey_expandTabs (line : Text) :
    isTopLevelKey (expandTabs line) = isTopLevelKey line := by
  rcases expandTabs_or_indented line with h | ⟨h, h'⟩
  · rw [h]
  · rw [isTopLevelKey_of_head h, isTopLevelKey_of_head h']

theorem afterHeader?_expandTabs (key : SectionKey) (line : Text) :
    key.afterHeader? (expandTabs line) = key.afterHeader? line := by
  rcases expandTabs_or_indented line with h | ⟨h, h'⟩
  · rw [h]
  · rw [afterHeader?_of_not_topLevel (isTopLevelKey_of_head h),
      afterHeader?_of_not_topLevel (isTopLevelKey_of_head h')]

/-- Expanding the tabs of all lines expands those of a body and leaves its header. -/
theorem blockIn_map_expandTabs (key : SectionKey) (lines : List Text) :
    key.blockIn (lines.map expandTabs) =
      (key.blockIn lines).map fun block => { block with body := block.body.map expandTabs } := by
  induction lines with
  | nil => rfl
  | cons line lines ih =>
      rw [List.map_cons, blockIn, blockIn, afterHeader?_expandTabs]
      cases key.afterHeader? line with
      | none => exact ih
      | some rest =>
          simp [List.takeWhile_map, List.dropWhile_map, Function.comp_def, isTopLevelKey_expandTabs]

theorem bodyIn_map_expandTabs (key : SectionKey) (lines : List Text) :
    key.bodyIn (lines.map expandTabs) = (key.bodyIn lines).map expandTabs := by
  unfold bodyIn
  rw [blockIn_map_expandTabs]
  cases key.blockIn lines <;> rfl

end SectionKey

end Scenarist
