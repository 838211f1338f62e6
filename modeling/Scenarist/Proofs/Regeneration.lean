import Scenarist.Proofs.Declaration
import Scenarist.Proofs.Record
import Scenarist.Proofs.Text.LineEnd

set_option autoImplicit false

/-! # Sections written anew

A section that is written anew holds the lines of its items, joined by the line end of the document. As
long as no value holds a line feed, these are item lines and nothing else, and they are read back as the
items; a value with a line feed is cut off there, and what follows is read as lines of its own.

Main statements: `sectionContent_eq` (the content as joined lines) and `SectionKey.tablesIn_refill` (what
is read of a section written anew). -/

namespace Scenarist

open Text

/-! ## The content of a section -/

/-- What stands behind the items of a section that another one follows. -/
def trailingLines : LineEnd → (hasFollowing : Bool) → List Text
  | _, false => []
  | .lf, true => [[]]
  | .crlf, true => [['\r']]

theorem LineEnd.write_eq (lineEnd : LineEnd) (text : Text) :
    lineEnd.write text = joinWith lineEnd.text (lines text) := by
  induction text with
  | nil => rfl
  | cons c cs ih =>
      obtain ⟨first, others, hcs⟩ := List.exists_cons_of_ne_nil (lines_ne_nil cs)
      have hwrite : lineEnd.write (c :: cs) =
          (if c = '\n' then lineEnd.text else [c]) ++ lineEnd.write cs := rfl
      rw [hwrite, ih, hcs, joinWith_cons]
      by_cases hc : c = '\n'
      · have hlines : lines (c :: cs) = [] :: first :: others := by
          rw [hc, ← hcs]
          exact lines_append_cons [] cs
        rw [if_pos hc, hlines, joinWith_cons]
        simp
      · have hlines : lines (c :: cs) = (c :: first) :: others := by
          have hfree : '\n' ∉ [c] := by simpa using Ne.symm hc
          exact lines_append hfree hcs
        rw [if_neg hc, hlines, joinWith_cons]
        rfl

/-- The content of a section is the empty rest of its header line and the lines of its items. -/
theorem sectionContent_eq (lineEnd : LineEnd) (hasFollowing : Bool) (items : List Text) :
    sectionContent lineEnd hasFollowing items =
      joinWith lineEnd.text ([] :: (items.flatMap lines ++ trailingLines lineEnd hasFollowing)) := by
  have hitem : ∀ item, lineEnd.text ++ lineEnd.write item =
      (lines item).flatMap (lineEnd.text ++ ·) := by
    intro item
    obtain ⟨first, others, hlines⟩ := List.exists_cons_of_ne_nil (lines_ne_nil item)
    rw [lineEnd.write_eq, hlines, joinWith_cons, List.flatMap_cons, List.append_assoc]
  have hitems : items.flatMap (fun item => lineEnd.text ++ lineEnd.write item) =
      (items.flatMap lines).flatMap (lineEnd.text ++ ·) := by
    rw [List.flatMap_assoc]
    exact congrArg (items.flatMap ·) (funext hitem)
  rw [joinWith_cons, List.nil_append, List.flatMap_append, ← hitems]
  unfold sectionContent
  cases hempty : items.isEmpty with
  | true =>
      rw [List.isEmpty_iff.1 hempty]
      cases hasFollowing <;> cases lineEnd <;> rfl
  | false => cases hasFollowing <;> cases lineEnd <;> rfl

/-- What is written into a section begins with a line end, or it is nothing whatever the line end. -/
theorem sectionContent_eq_nil_or (lineEnd : LineEnd) (hasFollowing : Bool) (rendered : List Text) :
    (∀ other : LineEnd, sectionContent other hasFollowing rendered = []) ∨
      ∃ rest, sectionContent lineEnd hasFollowing rendered = lineEnd.text ++ rest := by
  unfold sectionContent
  cases rendered with
  | nil =>
    cases hasFollowing with
    | false => exact Or.inl fun other => rfl
    | true => cases lineEnd <;> exact Or.inr ⟨_, rfl⟩
  | cons item items =>
    exact Or.inr ⟨_, by
      simp only [List.isEmpty_cons, List.flatMap_cons, List.append_assoc]
      rfl⟩

theorem lines_unlines_eq_flatMap {texts : List Text} (hne : texts ≠ []) :
    lines (unlines texts) = texts.flatMap lines := by
  induction texts with
  | nil => exact absurd rfl hne
  | cons t ts ih =>
      cases ts with
      | nil => simp [unlines, joinWith_singleton]
      | cons u us =>
          have hjoin : unlines (t :: u :: us) = t ++ '\n' :: unlines (u :: us) := by
            rw [unlines, joinWith_cons_cons]
            simp [unlines]
          rw [hjoin, lines_append_cons, ih (by simp)]
          rfl

theorem lineFeed_not_mem_of_mem_content {lineEnd : LineEnd} {hasFollowing : Bool}
    {items : List Text} {line : Text}
    (h : line ∈ [] :: (items.flatMap lines ++ trailingLines lineEnd hasFollowing)) : '\n' ∉ line := by
  rcases List.mem_cons.1 h with rfl | h
  · exact List.not_mem_nil
  · rcases List.mem_append.1 h with h | h
    · obtain ⟨item, -, hline⟩ := List.mem_flatMap.1 h
      exact not_mem_of_mem_lines hline
    · cases lineEnd <;> cases hasFollowing <;> simp [trailingLines] at h <;> simp [h]

/-- The lines of the content: the rest of the header line, and the others, some with a carriage return
behind them. -/
theorem exists_lines_sectionContent (lineEnd : LineEnd) (hasFollowing : Bool) (items : List Text) :
    ∃ first others, lines (sectionContent lineEnd hasFollowing items) = first :: others ∧
      (first = [] ∨ first = ['\r']) ∧
      List.Forall₂ (fun p l => l = p ∨ l = p ++ ['\r'])
        (items.flatMap lines ++ trailingLines lineEnd hasFollowing) others := by
  have hpieces : ∀ p ∈ [] :: (items.flatMap lines ++ trailingLines lineEnd hasFollowing), '\n' ∉ p :=
    fun p hp => lineFeed_not_mem_of_mem_content hp
  have hlines := LineEnd.lines_joinWith lineEnd (List.cons_ne_nil _ _) hpieces
  rw [← sectionContent_eq] at hlines
  generalize lines (sectionContent lineEnd hasFollowing items) = all at hlines
  cases hlines with
  | @cons _ first _ others hfirst hothers => exact ⟨first, others, rfl, by simpa using hfirst, hothers⟩

/-! ## The lines of items -/

theorem lines_fieldLine {tail first : Text} {others : List Text} (h : lines tail = first :: others)
    (field : Field) : lines (ListItem.fieldLine field tail) = ListItem.fieldLine field first :: others := by
  have hline : ∀ more, ListItem.fieldLine field more =
      (List.replicate 8 ' ' ++ field.word ++ [':', ' ']) ++ more := by
    intro more
    simp [ListItem.fieldLine]
  have hfree : '\n' ∉ List.replicate 8 ' ' ++ field.word ++ [':', ' '] := by
    simp [field.isLiteral_word.not_mem (c := '\n') (by decide)]
  rw [hline, hline, lines_append hfree h]

theorem lines_renderItem (key : SectionKey) (number : Nat) (fields : List (Field × Text)) :
    lines (renderItem key number fields) =
      ListItem.itemLine key number ::
        fields.flatMap fun entry => lines (ListItem.fieldLine entry.1 (Scalar.quote entry.2)) := by
  have hitem : '\n' ∉ ListItem.itemLine key number :=
    ListItem.not_mem_of_mem_itemLines (by decide) (List.forall_mem_nil _) List.mem_cons_self
  rw [ListItem.renderItem_eq, lines_unlines_eq_flatMap (List.cons_ne_nil _ _), List.flatMap_cons,
    lines_of_not_mem hitem, List.flatMap_map]
  rfl

/-- The items of a section as they are written, each with its fields. -/
def SectionKey.render (key : SectionKey) (items : List (List (Field × Text))) : List Text :=
  items.zipIdx.map fun item => renderItem key (item.2 + 1) item.1

/-- The lines of items, if no value holds a line feed. -/
def SectionKey.linesOfItems (key : SectionKey) (items : List (List (Field × Text))) : List Text :=
  items.zipIdx.flatMap fun item => ListItem.itemLines key (item.2 + 1) item.1

/-- Whether no value of an item holds a line feed. -/
def KeepLines (items : List (List (Field × Text))) : Prop :=
  ∀ fields ∈ items, ∀ entry ∈ fields, '\n' ∉ entry.2

theorem lineFeed_not_mem_quote {value : Text} (h : '\n' ∉ value) : '\n' ∉ Scalar.quote value := by
  intro hmem
  have hcases : '\n' ∈ Scalar.escape value := by simpa [Scalar.quote] using hmem
  rcases Scalar.mem_escape hcases with hmem | hmem
  · exact h hmem
  · exact absurd hmem (by decide)

theorem lines_renderItem_of_not_mem {fields : List (Field × Text)} (h : ∀ entry ∈ fields, '\n' ∉ entry.2)
    (key : SectionKey) (number : Nat) :
    lines (renderItem key number fields) = ListItem.itemLines key number fields := by
  have hfields : ∀ fs : List (Field × Text), (∀ entry ∈ fs, '\n' ∉ entry.2) →
      (fs.flatMap fun entry => lines (ListItem.fieldLine entry.1 (Scalar.quote entry.2))) =
        fs.map fun entry => ListItem.fieldLine entry.1 (Scalar.quote entry.2) := by
    intro fs
    induction fs with
    | nil => exact fun _ => rfl
    | cons entry fs ih =>
        intro hfs
        have hquote := lines_of_not_mem (lineFeed_not_mem_quote (hfs entry List.mem_cons_self))
        rw [List.flatMap_cons, lines_fieldLine hquote, List.map_cons,
          ih fun x hx => hfs x (List.mem_cons_of_mem _ hx)]
        rfl
  rw [lines_renderItem, hfields fields h, ListItem.itemLines]

theorem flatMap_lines_render {items : List (List (Field × Text))} (h : KeepLines items)
    (key : SectionKey) : (key.render items).flatMap lines = key.linesOfItems items := by
  unfold SectionKey.render SectionKey.linesOfItems
  rw [List.flatMap_map]
  refine List.flatMap_congr fun item hitem => ?_
  exact lines_renderItem_of_not_mem (h item.1 (List.fst_mem_of_mem_zipIdx hitem)) key (item.2 + 1)

/-! ## Lines that only make up items -/

/-- Whether a line is indented with spaces and no comment, or empty but for carriage returns. Such lines
are neither top-level keys nor remarks. -/
def IsItemText (line : Text) : Prop :=
  (∃ n c rest, line = List.replicate (n + 1) ' ' ++ c :: rest ∧ isBlank c = false ∧ c ≠ '#') ∨
    ∀ c ∈ line, c = '\r'

namespace IsItemText

variable {line : Text}

theorem concat_return (h : IsItemText line) : IsItemText (line ++ ['\r']) := by
  rcases h with ⟨n, c, rest, rfl, hblank, hmark⟩ | h
  · exact Or.inl ⟨n, c, rest ++ ['\r'], by simp, hblank, hmark⟩
  · refine Or.inr fun c hc => ?_
    rcases List.mem_append.1 hc with hc | hc
    · exact h c hc
    · exact List.mem_singleton.1 hc

theorem isTopLevelKey_eq (h : IsItemText line) : isTopLevelKey line = false := by
  rcases h with ⟨n, c, rest, rfl, -, -⟩ | h
  · refine isTopLevelKey_of_head fun d hd => ?_
    obtain rfl : ' ' = d := by simpa [List.replicate_succ] using hd
    decide
  · refine isTopLevelKey_of_head fun d hd => ?_
    rw [h d (List.mem_of_mem_head? hd)]
    decide

theorem remarkOf?_eq (h : IsItemText line) : remarkOf? line = none := by
  refine remarkOf?_of_not_comment ?_
  rcases h with ⟨n, c, rest, rfl, hblank, hmark⟩ | h
  · rw [stripLeft_append ListItem.isBlank_of_mem_replicate, stripLeft_cons_of_not_blank hblank]
    simpa using hmark
  · have hnil : stripLeft line = [] := by
      refine stripLeft_eq_nil_iff.2 fun c hc => ?_
      rw [h c hc]
      decide
    simp [hnil]

theorem expandTabs_eq (h : IsItemText line) : expandTabs line = line := by
  rcases h with ⟨n, c, rest, rfl, hblank, -⟩ | h
  · have hindent : isIndent c = false := by
      cases hi : isIndent c with
      | false => rfl
      | true =>
          rw [isBlank_of_isIndent hi] at hblank
          exact Bool.noConfusion hblank
    rw [expandTabs_replicate_append, expandTabs_cons_of_not_indent hindent]
  · cases line with
    | nil => rfl
    | cons c cs =>
        rw [h c List.mem_cons_self]
        exact expandTabs_cons_of_not_indent (by decide) cs

end IsItemText

theorem isItemText_of_mem_linesOfItems {key : SectionKey} {items : List (List (Field × Text))}
    {line : Text} (h : line ∈ key.linesOfItems items) : IsItemText line := by
  obtain ⟨item, -, hline⟩ := List.mem_flatMap.1 h
  exact Or.inl (ListItem.exists_indent_of_mem_itemLines hline)

theorem isItemText_of_mem_trailingLines {lineEnd : LineEnd} {hasFollowing : Bool} {line : Text}
    (h : line ∈ trailingLines lineEnd hasFollowing) : IsItemText line := by
  refine Or.inr ?_
  cases lineEnd <;> cases hasFollowing <;> simp [trailingLines] at h <;> simp [h]

/-! ## Sections written anew -/

/-- The content of a section that holds items whose values keep to their lines. -/
structure HoldsItems (key : SectionKey) (items : List (List (Field × Text))) (content first : Text)
    (others : List Text) : Prop where
  lines_eq : lines content = first :: others
  first : first = [] ∨ first = ['\r']
  isItemText : ∀ l ∈ others, IsItemText l
  tables : ListItem.tablesFrom key.name none (others.map trimReturns) =
    items.map ListItem.tableOf

theorem tablesFrom_linesOfItems (key : SectionKey) (items : List (List (Field × Text))) :
    ListItem.tablesFrom key.name none (key.linesOfItems items) = items.map ListItem.tableOf := by
  have hread := ListItem.tablesFrom_flatMap_itemLines key
    (fun item : List (Field × Text) × Nat => item.2 + 1) (fun item => item.1) items.zipIdx
  have hfst : items.zipIdx.map (ListItem.tableOf ∘ Prod.fst) = items.map ListItem.tableOf := by
    rw [← List.map_map, List.zipIdx_map_fst]
  rw [SectionKey.linesOfItems, hread]
  exact hfst

theorem map_trimReturns_linesOfItems (key : SectionKey) (items : List (List (Field × Text))) :
    (key.linesOfItems items).map trimReturns = key.linesOfItems items := by
  refine (List.map_congr_left fun l hl => ?_).trans (List.map_id _)
  obtain ⟨item, -, hline⟩ := List.mem_flatMap.1 hl
  exact ListItem.trimReturns_of_mem_itemLines hline

theorem exists_holdsItems {items : List (List (Field × Text))} (hitems : KeepLines items)
    (key : SectionKey) (lineEnd : LineEnd) (hasFollowing : Bool) :
    ∃ first others,
      HoldsItems key items (sectionContent lineEnd hasFollowing (key.render items)) first others := by
  obtain ⟨first, others, hlines, hfirst, hothers⟩ :=
    exists_lines_sectionContent lineEnd hasFollowing (key.render items)
  rw [flatMap_lines_render hitems] at hothers
  refine ⟨first, others, hlines, hfirst, ?_, ?_⟩
  · have hpieces : ∀ p ∈ key.linesOfItems items ++ trailingLines lineEnd hasFollowing,
        IsItemText p := by
      intro p hp
      rcases List.mem_append.1 hp with hp | hp
      · exact isItemText_of_mem_linesOfItems hp
      · exact isItemText_of_mem_trailingLines hp
    intro l hl
    obtain ⟨p, hp, rfl | rfl⟩ := exists_mem_of_forall₂ hothers hl
    · exact hpieces _ hp
    · exact (hpieces p hp).concat_return
  -- the empty lines behind the items say nothing
  · have htrailing : ∀ l ∈ (trailingLines lineEnd hasFollowing).map trimReturns,
        ∀ c ∈ l, isBlank c = true := by
      have hall : ((trailingLines lineEnd hasFollowing).map trimReturns).all (·.all isBlank) = true := by
        cases lineEnd <;> cases hasFollowing <;> decide
      intro l hl
      exact List.all_eq_true.1 (List.all_eq_true.1 hall l hl)
    rw [LineEnd.map_trimReturns_of_forall₂ hothers, List.map_append, map_trimReturns_linesOfItems,
      ListItem.tablesFrom_append_of_blank _ _ _ htrailing, tablesFrom_linesOfItems]

section

variable {key : SectionKey} {names : List Text} {items : List (List (Field × Text))} {text : Text}

theorem text_refill_of_isIn_eq_false (hin : SectionKey.isIn text key = false) (names rendered : List Text) :
    (key.refill names rendered text).text = text := by
  have hnone : key.find? text = none := by simpa [SectionKey.isIn] using hin
  unfold SectionKey.refill
  rw [hnone]

/-- A document counts as changed exactly if its text differs. -/
theorem changed_refill (key : SectionKey) (names rendered : List Text) (text : Text) :
    (key.refill names rendered text).changed = decide ((key.refill names rendered text).text ≠ text) := by
  unfold SectionKey.refill
  cases hfind : key.find? text with
  | none => simp
  | some s =>
      have htext : s.withContent s.content = text := by
        rw [← Section.text_eq_withContent]
        exact Section.text_of_find? hfind
      have hsame : ∀ content, s.withContent content = text ↔ content = s.content := by
        intro content
        rw [← htext]
        simp [Section.withContent]
      simp [hsame]

theorem found_refill (hin : SectionKey.isIn text key = true) (names rendered : List Text) :
    (key.refill names rendered text).found = true ∧ (key.refill names rendered text).items = names := by
  obtain ⟨s, hfind⟩ := Option.isSome_iff_exists.1 hin
  unfold SectionKey.refill
  rw [hfind]
  exact ⟨rfl, rfl⟩

/-- A section whose items are written into it already is reported as it is. -/
theorem refill_eq_of_text {rendered : List Text} (hin : SectionKey.isIn text key = true)
    (htext : (key.refill names rendered text).text = text) :
    key.refill names rendered text = { changed := false, text, found := true, items := names } := by
  obtain ⟨hfound, hlisted⟩ := found_refill hin names rendered
  have hchanged := changed_refill key names rendered text
  rw [htext] at hchanged
  generalize key.refill names rendered text = result at *
  obtain ⟨changed, written, found, listed⟩ := result
  rw [Regeneration.mk.injEq]
  exact ⟨by simpa using hchanged, htext, hfound, hlisted⟩

/-- A section that is missing is not written anew; one that is there holds the items afterwards. -/
theorem exists_refill (hitems : KeepLines items) (key : SectionKey) (names : List Text) (text : Text) :
    (key.find? text = none ∧ (key.refill names (key.render items) text).text = text) ∨
      ∃ s content first others, key.find? text = some s ∧ key.Found text s ∧
        content = sectionContent (LineEnd.ofText text) s.hasFollowing (key.render items) ∧
        HoldsItems key items content first others ∧
        (key.refill names (key.render items) text).text = s.withContent content := by
  unfold SectionKey.refill
  cases hfind : key.find? text with
  | none => exact Or.inl ⟨rfl, rfl⟩
  | some s =>
      obtain ⟨first, others, hholds⟩ :=
        exists_holdsItems hitems key (LineEnd.ofText text) s.hasFollowing
      exact Or.inr ⟨s, _, first, others, rfl, SectionKey.found_of_find? hfind, rfl, hholds, rfl⟩

theorem rewritten_refill (hitems : KeepLines items) (key : SectionKey) (names : List Text)
    (text : Text) :
    (key.refill names (key.render items) text).text = text ∨
      key.Rewritten (lines text) (lines (key.refill names (key.render items) text).text) := by
  rcases exists_refill hitems key names text with ⟨-, heq⟩ | ⟨s, content, first, others, -, hs, -, h, heq⟩
  · exact Or.inl heq
  · rw [heq]
    exact Or.inr (SectionKey.rewritten_withContent hs h.lines_eq fun l hl =>
      (h.isItemText l hl).isTopLevelKey_eq)

/-- Writing one section anew leaves the others. -/
theorem keepsOthers_refill (hitems : KeepLines items) (key : SectionKey) (names : List Text)
    (text : Text) :
    key.KeepsOthers (lines text) (lines (key.refill names (key.render items) text).text) := by
  rcases rewritten_refill hitems key names text with heq | hrewritten
  · rw [heq]
    exact SectionKey.KeepsOthers.refl key (lines text)
  · exact hrewritten.keepsOthers

/-- Items that are written into a section are read back. -/
theorem tablesIn_refill (hitems : KeepLines items) (hin : SectionKey.isIn text key = true)
    (names : List Text) :
    key.tablesIn (lines (key.refill names (key.render items) text).text) =
      items.map ListItem.tableOf := by
  rcases exists_refill hitems key names text with ⟨hnone, -⟩ | ⟨s, content, first, others, -, hs, -, h, heq⟩
  · rw [SectionKey.isIn, hnone] at hin
    exact absurd hin (by decide)
  · have hfind := SectionKey.find?_withContent hs h.lines_eq fun l hl =>
      (h.isItemText l hl).isTopLevelKey_eq
    rw [heq, SectionKey.tablesIn, SectionKey.bodyIn_eq_of_find? hfind]
    exact h.tables

/-- What is read of a section that is written anew are items. -/
theorem exists_of_mem_tablesIn_refill (hitems : KeepLines items) (names : List Text) (text : Text)
    {fields : Table Text}
    (h : fields ∈ key.tablesIn (lines (key.refill names (key.render items) text).text)) :
    ∃ item ∈ items, ListItem.tableOf item = fields := by
  cases hin : SectionKey.isIn text key with
  | true =>
      rw [tablesIn_refill hitems hin] at h
      exact List.mem_map.1 h
  | false =>
      have hnone : key.find? text = none := by simpa [SectionKey.isIn] using hin
      rw [text_refill_of_isIn_eq_false hin, SectionKey.tablesIn, SectionKey.bodyIn,
        ← SectionKey.find?_map_block, hnone] at h
      exact absurd h List.not_mem_nil

/-- With or without the byte-order mark: what is read are the items, or what was read before. -/
theorem tablesIn_unmarkedLines_refill (hitems : KeepLines items) (names : List Text) (text : Text) :
    key.tablesIn (unmarkedLines (lines (key.refill names (key.render items) text).text)) =
        key.tablesIn (unmarkedLines (lines text)) ∨
      key.tablesIn (unmarkedLines (lines (key.refill names (key.render items) text).text)) =
        items.map ListItem.tableOf := by
  rcases exists_refill hitems key names text with ⟨-, heq⟩ | ⟨s, content, first, others, -, hs, -, h, heq⟩
  · rw [heq]
    exact Or.inl rfl
  · rw [heq, SectionKey.lines_withContent hs h.lines_eq, hs.lines_eq, unmarkedLines_append_cons,
      unmarkedLines_append_cons]
    unfold SectionKey.tablesIn
    rcases key.bodyIn_append_header (unmarkedLines s.above) with ⟨body, hbody⟩ | hbody
    · rw [hbody, hbody]
      exact Or.inl rfl
    · rw [hbody first, SectionKey.takeWhile_body (fun l hl => (h.isItemText l hl).isTopLevelKey_eq)
        hs.below]
      exact Or.inr h.tables

/-- Only remarks in the section that is written anew get lost. -/
theorem remarksIn_refill (hitems : KeepLines items) (names : List Text)
    (hbody : remarksIn (key.bodyIn (lines text)) = []) :
    remarksIn (lines (key.refill names (key.render items) text).text) = remarksIn (lines text) ∧
      remarksIn (unmarkedLines (lines (key.refill names (key.render items) text).text)) =
        remarksIn (unmarkedLines (lines text)) := by
  rcases exists_refill hitems key names text with
    ⟨-, heq⟩ | ⟨s, content, first, others, hfind, hs, -, h, heq⟩
  · rw [heq]
    exact ⟨rfl, rfl⟩
  · have hold := SectionKey.bodyIn_eq_of_find? hfind
    have hnew : remarksIn others = [] :=
      List.filterMap_eq_nil_iff.2 fun l hl => (h.isItemText l hl).remarkOf?_eq
    rw [heq]
    exact remarksIn_withContent hs h.lines_eq (by rw [hnew, ← hold, hbody])

/-- Items are written without tabs in their indentation. -/
theorem expandTabs_refill (hitems : KeepLines items) (names : List Text)
    (htext : ∀ l ∈ lines text, expandTabs l = l) :
    ∀ l ∈ lines (key.refill names (key.render items) text).text, expandTabs l = l := by
  rcases exists_refill hitems key names text with ⟨-, heq⟩ | ⟨s, content, first, others, -, hs, -, h, heq⟩
  · rwa [heq]
  · rw [heq, SectionKey.lines_withContent hs h.lines_eq]
    rw [hs.lines_eq] at htext
    intro l hl
    simp only [List.mem_append, List.mem_cons] at hl
    rcases hl with hl | rfl | hl | hl
    · exact htext l (by simp [hl])
    -- the header begins with the name of the key, which is not indented
    · obtain ⟨c, cs, hc⟩ := List.exists_cons_of_ne_nil key.name_ne_nil
      have hindent : isIndent c = false := by
        cases hi : isIndent c with
        | false => rfl
        | true =>
            have hblank := isBlank_of_isIndent hi
            have hletter := key.isKeyLetter_of_mem_name c (by simp [hc])
            rw [Scalar.isBlank_of_isNameLetter (by simp [isNameLetter, hletter])] at hblank
            exact Bool.noConfusion hblank
      rw [hc, List.cons_append, expandTabs_cons_of_not_indent hindent]
    · exact (h.isItemText l hl).expandTabs_eq
    · exact htext l (by simp [hl])

end

/-! ## Sections that are filled already -/

section

variable {key : SectionKey} {lineEnd : LineEnd} {rendered names : List Text} {text : Text}

/-- The section under a key holds these items, with a line end between their lines. -/
def SectionKey.IsFilled (key : SectionKey) (lineEnd : LineEnd) (rendered lines : List Text) : Prop :=
  ∀ block ∈ key.blockIn lines,
    unlines (block.rest :: block.body) = sectionContent lineEnd block.followed rendered

/-- The line end that is used throughout is the one that a section is written with: if there is but one
line, nothing is written. -/
theorem sectionContent_ofText {s : Section} (hs : key.Found text s)
    (h : lineEnd.IsUsedIn (lines text)) (hlength : rendered ≠ [] → 2 ≤ (lines text).length) :
    sectionContent (LineEnd.ofText text) s.hasFollowing rendered =
      sectionContent lineEnd s.hasFollowing rendered := by
  by_cases hlong : 2 ≤ (lines text).length
  · rw [h.ofText_eq hlong]
  · have hrendered : rendered = [] := by
      by_contra hne
      exact hlong (hlength hne)
    -- below a single line there is nothing
    have hbelow : s.hasFollowing = false := by
      rw [hs.lines_eq] at hlong
      cases hb : s.below with
      | nil => simp [Section.hasFollowing, hb]
      | cons l ls =>
          exfalso
          simp only [hb, List.length_append, List.length_cons] at hlong
          omega
    rw [hrendered, hbelow]
    rfl

/-- A section that is filled with the items is not changed by filling it with them. -/
theorem text_refill_of_isFilled (hfilled : key.IsFilled lineEnd rendered (lines text))
    (h : lineEnd.IsUsedIn (lines text)) (hlength : rendered ≠ [] → 2 ≤ (lines text).length)
    (names : List Text) : (key.refill names rendered text).text = text := by
  unfold SectionKey.refill
  cases hfind : key.find? text with
  | none => rfl
  | some s =>
      have hs := SectionKey.found_of_find? hfind
      have hblock : s.block ∈ key.blockIn (lines text) := by
        rw [← SectionKey.find?_map_block, hfind]
        rfl
      have hcontent : sectionContent lineEnd s.hasFollowing rendered = s.content :=
        (hfilled s.block hblock).symm
      rw [← sectionContent_ofText hs h hlength] at hcontent
      show s.withContent (sectionContent (LineEnd.ofText text) s.hasFollowing rendered) = text
      rw [hcontent, ← Section.text_eq_withContent]
      exact Section.text_of_find? hfind

/-- A section that is written anew is filled with its items. -/
theorem isFilled_refill {items : List (List (Field × Text))} (hitems : KeepLines items)
    (h : lineEnd.IsUsedIn (lines text)) (hlength : key.render items ≠ [] → 2 ≤ (lines text).length)
    (names : List Text) :
    key.IsFilled lineEnd (key.render items)
      (lines (key.refill names (key.render items) text).text) := by
  intro block hblock
  rw [← SectionKey.find?_map_block] at hblock
  rcases exists_refill hitems key names text with
    ⟨hnone, heq⟩ | ⟨s, content, first, others, -, hs, hcontent, hholds, heq⟩
  · rw [heq, hnone] at hblock
    simp at hblock
  · have hfind := SectionKey.find?_withContent hs hholds.lines_eq fun l hl =>
      (hholds.isItemText l hl).isTopLevelKey_eq
    rw [heq, hfind] at hblock
    obtain rfl := Option.some.inj hblock
    show unlines (first :: others) = sectionContent lineEnd s.hasFollowing (key.render items)
    rw [← hholds.lines_eq, unlines_lines, hcontent, sectionContent_ofText hs h hlength]

/-- Filled with the same items once more, a section stays as it is, even if other sections have changed in
between. -/
theorem text_refill_again {items : List (List (Field × Text))} (hitems : KeepLines items)
    (h : lineEnd.IsUsedIn (lines text)) (hlength : key.render items ≠ [] → 2 ≤ (lines text).length)
    {final : Text}
    (hblock : key.blockIn (lines final) =
      key.blockIn (lines (key.refill names (key.render items) text).text))
    (h' : lineEnd.IsUsedIn (lines final)) (hlength' : key.render items ≠ [] → 2 ≤ (lines final).length)
    (names' : List Text) : (key.refill names' (key.render items) final).text = final := by
  refine text_refill_of_isFilled ?_ h' hlength' names'
  unfold SectionKey.IsFilled
  rw [hblock]
  exact isFilled_refill hitems h hlength names

theorem getLast?_ne_of_mem_linesOfItems {items : List (List (Field × Text))} {line : Text}
    (h : line ∈ key.linesOfItems items) : line.getLast? ≠ some '\r' := by
  obtain ⟨item, -, hline⟩ := List.mem_flatMap.1 h
  have htrim := ListItem.trimReturns_of_mem_itemLines hline
  intro hlast
  obtain ⟨front, rfl⟩ := List.getLast?_eq_some_iff.1 hlast
  rw [trimReturns_concat_return] at htrim
  have hlength := congrArg List.length htrim
  have hle : (trimReturns front).length ≤ front.length := by
    obtain ⟨tail, htail, -⟩ := exists_trimReturns_append front
    have := congrArg List.length htail
    simp only [List.length_append] at this
    omega
  simp only [List.length_append, List.length_singleton] at hlength
  omega

/-- Lines written with line feeds alone stay so if none of the new ones among them ends with a carriage
return. -/
theorem isUsedIn_lf_between {above body body' below : List Text} {header header' : Text}
    (h : LineEnd.lf.IsUsedIn (above ++ header :: (body ++ below)))
    (hnew : ∀ l ∈ header' :: body', l.getLast? ≠ some '\r') :
    LineEnd.lf.IsUsedIn (above ++ header' :: (body' ++ below)) := by
  -- the last line may end as it likes, and it is the same before and after unless it is a new one
  have hold : ∀ l ∈ above ++ below.dropLast, l.getLast? ≠ some '\r' := by
    intro l hl
    refine h l ?_
    rcases List.eq_nil_or_concat' below with rfl | ⟨front, last, rfl⟩
    · rw [List.dropLast_append_of_ne_nil (List.cons_ne_nil _ _)]
      exact List.mem_append_left _ (by simpa using hl)
    · have hassoc : above ++ header :: (body ++ (front ++ [last])) =
          (above ++ header :: (body ++ front)) ++ [last] := by simp
      rw [hassoc, List.dropLast_concat]
      rw [List.dropLast_concat] at hl
      rcases List.mem_append.1 hl with hl | hl <;> simp [hl]
  intro l hl
  have hcases : l ∈ above ++ below.dropLast ∨ l ∈ header' :: body' := by
    rcases List.eq_nil_or_concat' below with rfl | ⟨front, last, rfl⟩
    · have hmem := List.dropLast_subset _ hl
      simp only [List.append_nil, List.mem_append] at hmem
      simpa using hmem
    · have hassoc : above ++ header' :: (body' ++ (front ++ [last])) =
          (above ++ header' :: (body' ++ front)) ++ [last] := by simp
      rw [hassoc, List.dropLast_concat] at hl
      rw [List.dropLast_concat]
      simp only [List.mem_append, List.mem_cons] at hl ⊢
      tauto
  rcases hcases with hl | hl
  · exact hold l hl
  · exact hnew l hl

/-- If pairs end the lines of a content of more than one line, the first one ends with a carriage
return. -/
theorem first_eq_of_crlf {pieces others : List Text} {first : Text} (hne : pieces ≠ [])
    (h : lines (joinWith LineEnd.crlf.text ([] :: pieces)) = first :: others) : first = ['\r'] := by
  obtain ⟨p, ps, rfl⟩ := List.exists_cons_of_ne_nil hne
  have hjoin : joinWith LineEnd.crlf.text ([] :: p :: ps) =
      ['\r'] ++ '\n' :: joinWith LineEnd.crlf.text (p :: ps) := by
    rw [joinWith_cons_cons]
    rfl
  rw [hjoin, lines_cons_append_cons (by decide)] at h
  exact (List.cons.inj h).1.symm

/-- Items are written with the line end that the document is written with. -/
theorem isUsedIn_refill {items : List (List (Field × Text))} (hitems : KeepLines items)
    (h : lineEnd.IsUsedIn (lines text)) (hlength : key.render items ≠ [] → 2 ≤ (lines text).length)
    (names : List Text) :
    lineEnd.IsUsedIn (lines (key.refill names (key.render items) text).text) := by
  rcases exists_refill hitems key names text with
    ⟨-, heq⟩ | ⟨s, content, first, others, -, hs, hcontent, hholds, heq⟩
  · rwa [heq]
  · rw [sectionContent_ofText hs h hlength, sectionContent_eq, flatMap_lines_render hitems] at hcontent
    have hlines := hholds.lines_eq
    rw [hcontent] at hlines
    rw [heq, SectionKey.lines_withContent hs hholds.lines_eq]
    rw [hs.lines_eq] at h
    cases lineEnd with
    | lf =>
        have hpieces : ∀ p ∈ [] :: (key.linesOfItems items ++ trailingLines .lf s.hasFollowing),
            '\n' ∉ p := by
          rw [← flatMap_lines_render hitems]
          exact fun p hp => lineFeed_not_mem_of_mem_content hp
        have hunlines := lines_unlines (List.cons_ne_nil _ _) hpieces
        unfold unlines at hunlines
        rw [LineEnd.text, hunlines] at hlines
        obtain ⟨rfl, rfl⟩ := List.cons.inj hlines
        -- neither the items nor the empty lines behind them end with a carriage return
        have htrailing : ∀ l ∈ trailingLines .lf s.hasFollowing, l.getLast? ≠ some '\r' := by
          cases s.hasFollowing <;> decide
        refine isUsedIn_lf_between h fun l hl => ?_
        rcases List.mem_cons.1 hl with rfl | hl
        · simp
        · rcases List.mem_append.1 hl with hl | hl
          · exact getLast?_ne_of_mem_linesOfItems hl
          · exact htrailing l hl
    | crlf =>
        intro hlong l hl
        -- the first line alone shows the line end, and only a header that is the first line is written anew
        cases habove : s.above with
        | cons line above =>
            rw [habove] at h hl
            exact h (by simp; omega) l (by simpa using hl)
        | nil =>
            rw [habove] at hl hlong
            obtain rfl : key.name ++ ':' :: first = l := by simpa using hl
            have hne : key.linesOfItems items ++ trailingLines .crlf s.hasFollowing ≠ [] := by
              intro hnil
              have htrailing := (List.append_eq_nil_iff.1 hnil).2
              have hbelow : s.below = [] := by
                cases hb : s.below with
                | nil => rfl
                | cons x xs => simp [Section.hasFollowing, hb, trailingLines] at htrailing
              rw [hnil, joinWith_singleton] at hlines
              obtain ⟨-, rfl⟩ := List.cons.inj hlines
              simp [hbelow] at hlong
            rw [first_eq_of_crlf hne hlines]
            simp

/-- What was written into a section is what is written into it again: the line ends are counted anew, but those
that were written are among them. -/
theorem sectionContent_withContent {s : Section} {content : Text}
    (hcontent : content = sectionContent (LineEnd.ofText text) s.hasFollowing rendered)
    (hlf : LineEnd.ofText text = .lf → LineEnd.ofText (s.withContent content) = .lf) :
    sectionContent (LineEnd.ofText (s.withContent content)) s.hasFollowing rendered = content := by
  cases hend : LineEnd.ofText text with
  | lf => rw [hlf hend, hcontent, hend]
  | crlf =>
      rw [hend] at hcontent
      rcases sectionContent_eq_nil_or .crlf s.hasFollowing rendered with hnil | ⟨rest, hrest⟩
      · rw [hcontent, hnil, hnil]
      · have hpair : LineEnd.ofText (s.withContent content) = .crlf := by
          refine LineEnd.ofText_eq_crlf_iff.2 ⟨s.front ++ s.header, rest ++ s.back, ?_⟩
          rw [Section.text_withContent, hcontent, hrest]
          simp [LineEnd.text]
        rw [hpair, hcontent]

/-- A section with a content that would be written into it stays as it is when it is written anew. -/
theorem text_refill_withContent {s : Section} {content first : Text} {others : List Text}
    (hs : key.Found text s) (hlines : lines content = first :: others)
    (hothers : ∀ l ∈ others, isTopLevelKey l = false)
    (hcontent : sectionContent (LineEnd.ofText (s.withContent content)) s.hasFollowing rendered = content)
    (names : List Text) :
    (key.refill names rendered (s.withContent content)).text = s.withContent content := by
  have hfind := SectionKey.find?_withContent hs hlines hothers
  have hname : s.header = key.name ++ [':'] := by rw [Section.header, hs.name_eq]
  rw [SectionKey.refill, hfind]
  show Section.withContent (sectionContent _ s.hasFollowing _) _ = _
  rw [hcontent, Section.text_withContent, Section.text_withContent, hname]
  rfl

/-- A section that was written anew is not changed by writing it anew with the same items, whatever line
ends the document mixes. -/
theorem text_refill_refill {items : List (List (Field × Text))} (hitems : KeepLines items)
    (hlength : key.render items ≠ [] → 2 ≤ (lines text).length) (names names' : List Text) :
    (key.refill names' (key.render items) (key.refill names (key.render items) text).text).text =
      (key.refill names (key.render items) text).text := by
  rcases exists_refill hitems key names text with
    ⟨hnone, heq⟩ | ⟨s, content, first, others, -, hs, hcontent, hholds, heq⟩
  · rw [heq]
    exact text_refill_of_isIn_eq_false (by simp [SectionKey.isIn, hnone]) _ _
  · have hlf : LineEnd.ofText text = .lf → LineEnd.ofText (s.withContent content) = .lf := by
      intro hend
      have hused : LineEnd.lf.IsUsedIn (lines text) := LineEnd.ofText_eq_lf_iff_lines.1 hend
      have hused' := isUsedIn_refill hitems hused hlength names
      rw [heq] at hused'
      exact LineEnd.ofText_eq_lf_iff_lines.2 hused'
    rw [heq]
    exact text_refill_withContent hs hholds.lines_eq (fun l hl => (hholds.isItemText l hl).isTopLevelKey_eq)
      (sectionContent_withContent hcontent hlf) names'

end

/-! ## Values that do not keep to their lines -/

theorem lines_fieldLine_quote (field : Field) (value : Text) :
    ∃ others, lines (ListItem.fieldLine field (Scalar.quote value)) =
      ListItem.fieldLine field ((Scalar.quote value).takeWhile (· ≠ '\n')) :: others := by
  obtain ⟨others, hothers⟩ := exists_lines_eq_cons (Scalar.quote value)
  exact ⟨others, lines_fieldLine hothers field⟩

/-- Up to the first value that does not keep to its line, items are written as if they did. -/
theorem exists_flatMap_lines_render {earlier : List (List (Field × Text))}
    {front : List (Field × Text)} (hearlier : KeepLines earlier) (hfront : ∀ e ∈ front, '\n' ∉ e.2)
    (key : SectionKey) (entry : Field × Text) (back : List (Field × Text))
    (later : List (List (Field × Text))) :
    ∃ junk, (key.render (earlier ++ (front ++ entry :: back) :: later)).flatMap lines =
      key.linesOfItems earlier ++ ListItem.itemLine key (earlier.length + 1) ::
        ((front ++ [entry]).map fun e =>
          ListItem.fieldLine e.1 ((Scalar.quote e.2).takeWhile (· ≠ '\n'))) ++ junk := by
  obtain ⟨others, hothers⟩ := lines_fieldLine_quote entry.1 entry.2
  have hrender : key.render (earlier ++ (front ++ entry :: back) :: later) =
      key.render earlier ++ renderItem key (earlier.length + 1) (front ++ entry :: back) ::
        (later.zipIdx (earlier.length + 1)).map fun item => renderItem key (item.2 + 1) item.1 := by
    unfold SectionKey.render
    rw [List.zipIdx_append, List.map_append]
    simp
  -- the fields in front of the first value that breaks its line are written as they are
  have hfields : ∀ fs : List (Field × Text), (∀ e ∈ fs, '\n' ∉ e.2) →
      (fs.flatMap fun e => lines (ListItem.fieldLine e.1 (Scalar.quote e.2))) =
        fs.map fun e => ListItem.fieldLine e.1 ((Scalar.quote e.2).takeWhile (· ≠ '\n')) := by
    intro fs
    induction fs with
    | nil => exact fun _ => rfl
    | cons e fs ih =>
        intro hfs
        have hquote := lines_of_not_mem (lineFeed_not_mem_quote (hfs e List.mem_cons_self))
        rw [List.flatMap_cons, lines_fieldLine hquote, List.map_cons,
          ih fun x hx => hfs x (List.mem_cons_of_mem _ hx),
          Scalar.takeWhile_quote_of_not_mem (hfs e List.mem_cons_self)]
        rfl
  rw [hrender, List.flatMap_append, flatMap_lines_render hearlier, List.flatMap_cons, lines_renderItem,
    List.flatMap_append, hfields front hfront, List.flatMap_cons, hothers]
  generalize (back.flatMap fun e => lines (ListItem.fieldLine e.1 (Scalar.quote e.2))) = rest
  generalize ((later.zipIdx (earlier.length + 1)).map fun item =>
    renderItem key (item.2 + 1) item.1).flatMap lines = more
  exact ⟨others ++ (rest ++ more), by simp⟩

/-- What is read of lines that begin with items and the beginning of another one, whatever stands behind
it. -/
theorem tablesFrom_takeWhile_of_forall₂ {key : SectionKey} {earlier : List (List (Field × Text))}
    {number : Nat} {fields : List (Field × Text)} {more others : List Text}
    (h : List.Forall₂ (fun p l => l = p ∨ l = p ++ ['\r'])
      (key.linesOfItems earlier ++ ListItem.itemLine key number ::
        (fields.map fun e => ListItem.fieldLine e.1 ((Scalar.quote e.2).takeWhile (· ≠ '\n'))) ++ more)
      others) (below : List Text) :
    ∃ rest, ListItem.tablesFrom key.name none
        (((others ++ below).takeWhile (!isTopLevelKey ·)).map trimReturns) =
      earlier.map ListItem.tableOf ++ ListItem.tablesFrom key.name
        (some (Table.ofEntries (fields.map fun e =>
          (e.1.word, strip ((Scalar.quote e.2).takeWhile (· ≠ '\n')))))) rest := by
  have htable : (fields.map fun e => (e.1.word, strip ((Scalar.quote e.2).takeWhile (· ≠ '\n')))) =
      (fields.map fun e => (e.1, trimReturns ((Scalar.quote e.2).takeWhile (· ≠ '\n')))).map fun e =>
        (e.1.word, strip e.2) := by
    rw [List.map_map]
    exact List.map_congr_left fun e _ => by simp [strip_trimReturns]
  have htrim : (fields.map fun e =>
      ListItem.fieldLine e.1 ((Scalar.quote e.2).takeWhile (· ≠ '\n'))).map trimReturns =
        (fields.map fun e => (e.1, trimReturns ((Scalar.quote e.2).takeWhile (· ≠ '\n')))).map fun e =>
          ListItem.fieldLine e.1 e.2 := by
    rw [List.map_map, List.map_map]
    exact List.map_congr_left fun e _ => ListItem.trimReturns_fieldLine e.1 _
  -- the pieces of the items and of the beginning are indented, so the lines made of them are not cut off
  generalize hpieces : key.linesOfItems earlier ++ ListItem.itemLine key number ::
    (fields.map fun e => ListItem.fieldLine e.1 ((Scalar.quote e.2).takeWhile (· ≠ '\n'))) =
      pieces at h
  have hnew := List.forall₂_take pieces.length h
  rw [List.take_left] at hnew
  have hspace : ∀ p ∈ pieces, ∃ rest, p = ' ' :: rest := by
    intro p hp
    rw [← hpieces] at hp
    simp only [List.mem_append, List.mem_cons] at hp
    rcases hp with hp | rfl | hp
    · obtain ⟨item, -, hline⟩ := List.mem_flatMap.1 hp
      obtain ⟨n, c, rest, rfl, -, -⟩ := ListItem.exists_indent_of_mem_itemLines hline
      exact ⟨_, rfl⟩
    · exact ⟨_, rfl⟩
    · obtain ⟨e, -, rfl⟩ := List.mem_map.1 hp
      exact ⟨_, rfl⟩
  have htop : ∀ l ∈ others.take pieces.length, isTopLevelKey l = false := by
    intro l hl
    obtain ⟨p, hp, hline⟩ := exists_mem_of_forall₂ hnew hl
    obtain ⟨rest, rfl⟩ := hspace p hp
    refine isTopLevelKey_of_head fun c hc => ?_
    obtain rfl : ' ' = c := by
      rcases hline with rfl | rfl <;> simpa using hc
    decide
  have hsplit : others = others.take pieces.length ++ others.drop pieces.length :=
    (List.take_append_drop _ _).symm
  rw [hsplit, List.append_assoc, List.takeWhile_append_of_pos fun l hl => by simp [htop l hl],
    List.map_append, LineEnd.map_trimReturns_of_forall₂ hnew, ← hpieces, List.map_append,
    List.map_cons, map_trimReturns_linesOfItems, ListItem.trimReturns_itemLine, htrim, List.append_assoc,
    List.cons_append, ListItem.tablesFrom_append_opening (ListItem.isOpenedBy_itemLine key number),
    tablesFrom_linesOfItems, ListItem.tablesFrom_append_of_not_opening
      (ListItem.isOpenedBy_of_mem_fieldLines key.name _), ListItem.foldl_enter_fieldLines, htable]
  exact ⟨_, rfl⟩

/-- Up to the first value that does not keep to its line, items are read back; of that value a part is
read. -/
theorem exists_tablesIn_refill {key : SectionKey} {text : Text} {earlier : List (List (Field × Text))}
    {front : List (Field × Text)} (hearlier : KeepLines earlier) (hfront : ∀ e ∈ front, '\n' ∉ e.2)
    (hin : SectionKey.isIn text key = true) (names : List Text) (entry : Field × Text)
    (back : List (Field × Text)) (later : List (List (Field × Text))) :
    ∃ table more, key.tablesIn
        (lines (key.refill names (key.render (earlier ++ (front ++ entry :: back) :: later)) text).text) =
        earlier.map ListItem.tableOf ++ table :: more ∧
      ∀ word raw, Table.get? ((front ++ [entry]).map fun e =>
        (e.1.word, strip ((Scalar.quote e.2).takeWhile (· ≠ '\n')))) word = some raw →
          table.get? word = some raw := by
  obtain ⟨s, hfind⟩ := Option.isSome_iff_exists.1 hin
  have hs := SectionKey.found_of_find? hfind
  obtain ⟨junk, hjunk⟩ := exists_flatMap_lines_render hearlier hfront key entry back later
  generalize key.render (earlier ++ (front ++ entry :: back) :: later) = rendered at *
  obtain ⟨first, others, hlines, -, hothers⟩ :=
    exists_lines_sectionContent (LineEnd.ofText text) s.hasFollowing rendered
  have htext : (key.refill names rendered text).text =
      s.withContent (sectionContent (LineEnd.ofText text) s.hasFollowing rendered) := by
    unfold SectionKey.refill
    rw [hfind]
  rw [htext, SectionKey.tablesIn, SectionKey.lines_withContent hs hlines,
    SectionKey.bodyIn_append_header_of_none hs.above]
  rw [hjunk, List.append_assoc] at hothers
  obtain ⟨more, hmore⟩ := tablesFrom_takeWhile_of_forall₂ hothers s.below
  rw [hmore]
  obtain ⟨table, tables, htable, hkeep⟩ := ListItem.exists_tablesFrom_some key.name
    (Table.ofEntries ((front ++ [entry]).map fun e =>
      (e.1.word, strip ((Scalar.quote e.2).takeWhile (· ≠ '\n'))))) more
  refine ⟨table, tables, by rw [htable], fun word raw h => hkeep word raw ?_⟩
  rw [Table.get?_ofEntries]
  exact h

end Scenarist
