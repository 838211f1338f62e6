import Scenarist.Proofs.Regeneration
import Scenarist.Proofs.Section.Place

set_option autoImplicit false

/-! # New content for one section

Items that are written into a section take the place of its content and of nothing else: the text around stays
where it was, and every other section is found with the content that it had. This needs lines of items that
are no top-level keys, or the section would end among them, and items without carriage returns, or a document
with line feeds alone could be taken for one with pairs when the section is written anew.

Main statement: `SectionKey.refill_splices`. -/

namespace Scenarist

open Text

/-! ## Items that keep to their section -/

/-- Whether items can be written into a section: they hold no carriage returns, and none of their lines is a
top-level key. -/
structure KeepToSection (rendered : List Text) : Prop where
  return_not_mem : ∀ item ∈ rendered, '\r' ∉ item
  isTopLevelKey_eq : ∀ item ∈ rendered, ∀ line ∈ lines item, isTopLevelKey line = false

namespace KeepToSection

variable {rendered : List Text} {key : SectionKey} {text : Text} {s : Section}

/-- The lines of the content below the header are no top-level keys, whatever ends them. -/
theorem exists_lines_sectionContent (h : KeepToSection rendered) (lineEnd : LineEnd) (hasFollowing : Bool) :
    ∃ first others, lines (sectionContent lineEnd hasFollowing rendered) = first :: others ∧
      ∀ l ∈ others, isTopLevelKey l = false := by
  obtain ⟨first, others, hlines, -, hothers⟩ :=
    Scenarist.exists_lines_sectionContent lineEnd hasFollowing rendered
  refine ⟨first, others, hlines, ?_⟩
  have hpieces : ∀ p ∈ rendered.flatMap lines ++ trailingLines lineEnd hasFollowing, isTopLevelKey p = false := by
    intro p hp
    rcases List.mem_append.1 hp with hp | hp
    · obtain ⟨item, hitem, hline⟩ := List.mem_flatMap.1 hp
      exact h.isTopLevelKey_eq item hitem p hline
    · exact (isItemText_of_mem_trailingLines hp).isTopLevelKey_eq
  intro l hl
  obtain ⟨p, hp, rfl | rfl⟩ := exists_mem_of_forall₂ hothers hl
  · exact hpieces _ hp
  · rw [isTopLevelKey_concat_return, hpieces p hp]

theorem return_not_mem_sectionContent (h : KeepToSection rendered) (hasFollowing : Bool) :
    '\r' ∉ sectionContent .lf hasFollowing rendered := by
  have hwrite : ∀ item : Text, '\r' ∉ item → '\r' ∉ LineEnd.lf.write item := by
    intro item hitem hmem
    obtain ⟨c, hc, hreturn⟩ := List.mem_flatMap.1 hmem
    by_cases hfeed : c = '\n'
    · simp [hfeed, LineEnd.text] at hreturn
    · obtain rfl : '\r' = c := by simpa [hfeed] using hreturn
      exact hitem hc
  have hitems : '\r' ∉ rendered.flatMap fun item => LineEnd.lf.text ++ LineEnd.lf.write item := by
    intro hmem
    obtain ⟨item, hitem, hreturn⟩ := List.mem_flatMap.1 hmem
    rcases List.mem_append.1 hreturn with hreturn | hreturn
    · simp [LineEnd.text] at hreturn
    · exact hwrite item (h.return_not_mem item hitem) hreturn
  unfold sectionContent
  cases rendered.isEmpty <;> cases hasFollowing <;> simp [hitems]

/-- A document with line feeds alone has no pairs after the items were written into one of its sections. -/
theorem ofText_withContent (h : KeepToSection rendered) (hs : key.Found text s)
    (hend : LineEnd.ofText text = .lf) :
    LineEnd.ofText (s.withContent (sectionContent .lf s.hasFollowing rendered)) = .lf := by
  obtain ⟨first, others, hlines, -⟩ := h.exists_lines_sectionContent .lf s.hasFollowing
  have hfree : ∀ l ∈ first :: others, '\r' ∉ l := by
    intro l hl hmem
    rw [← hlines] at hl
    exact h.return_not_mem_sectionContent s.hasFollowing (mem_of_mem_splitOn hl hmem)
  have hheader : '\r' ∉ key.name ++ ':' :: first := by
    have hname : '\r' ∉ key.name := by cases key <;> decide
    simp [hname, hfree first List.mem_cons_self]
  have hold : LineEnd.lf.IsUsedIn (s.above ++ (key.name ++ ':' :: s.rest) :: (s.body ++ s.below)) := by
    rw [← hs.lines_eq]
    exact LineEnd.ofText_eq_lf_iff_lines.1 hend
  refine LineEnd.ofText_eq_lf_iff_lines.2 ?_
  rw [SectionKey.lines_withContent hs hlines]
  refine isUsedIn_lf_between hold fun l hl hlast => ?_
  have hreturn := List.mem_of_getLast? hlast
  rcases List.mem_cons.1 hl with rfl | hl
  · exact hheader hreturn
  · exact hfree l (List.mem_cons_of_mem _ hl) hreturn

end KeepToSection

/-! ## The other sections -/

namespace SectionKey

variable {key other : SectionKey} {text text' : Text}

/-- A section with the same lines has the same content. -/
theorem content_congr (h : other.blockIn (lines text') = other.blockIn (lines text)) :
    (other.find? text').map Section.content = (other.find? text).map Section.content := by
  have hcontent : ∀ found : Option Section, found.map Section.content =
      (found.map Section.block).map fun block => unlines (block.rest :: block.body) := by
    intro found
    cases found <;> rfl
  rw [hcontent, hcontent, find?_map_block, find?_map_block, h]

/-- Documents that differ in one section that both have are made up of the same sections. -/
theorem Rewritten.presentIn_eq (h : key.Rewritten (lines text) (lines text')) (hin : isIn text key = true)
    (hin' : isIn text' key = true) : presentIn text' = presentIn text := by
  refine List.filter_congr fun other _ => ?_
  by_cases hkey : other = key
  · rw [hkey, hin, hin']
  · rw [isIn, isIn, ← Option.isSome_map (f := Section.block), find?_map_block,
      ← Option.isSome_map (f := Section.block), find?_map_block, h.blockIn_eq hkey]

/-! ## Items written into a section -/

/-- Each item begins a line and is written with the line ends of the document; in front of a following section
there is a blank line, whose line feed is no longer of the content. -/
theorem sectionContent_eq_flatMap (lineEnd : LineEnd) (hasFollowing : Bool) (items : List Text) :
    sectionContent lineEnd hasFollowing items =
      items.flatMap (fun item => lineEnd.text ++ item.flatMap fun c => if c = '\n' then lineEnd.text else [c]) ++
        if hasFollowing then lineEnd.text ++ lineEnd.text.dropLast else [] := by
  cases items with
  | nil => cases hasFollowing <;> cases lineEnd <;> rfl
  | cons item items => cases hasFollowing <;> cases lineEnd <;> rfl

/-- Items that are written into a section replace its content alone. Each begins a line, its line feeds become
the line ends of the document, and a blank line sets off a following section. The document has the same
sections, the other ones with the content that they had; the text around stays where it was; the section is
found with the items in it and another one below it exactly if there was one before; and the same items are
not written again. -/
theorem refill_splices {s : Section} (hfind : key.find? text = some s) {rendered : List Text}
    (hrendered : KeepToSection rendered) (names : List Text) :
    let result := key.refill names rendered text
    let lineEnd := (LineEnd.ofText text).text
    let content :=
      rendered.flatMap (fun item => lineEnd ++ item.flatMap fun c => if c = '\n' then lineEnd else [c]) ++
        if s.hasFollowing then lineEnd ++ lineEnd.dropLast else []
    result.found = true ∧ (result.changed = true ↔ result.text ≠ text) ∧
      presentIn result.text = presentIn text ∧
      (∀ other, other ≠ key →
        (other.find? result.text).map Section.content = (other.find? text).map Section.content) ∧
      result.text = text.take s.contentStart ++ content ++ text.drop s.contentEnd ∧
      (∃ s', key.find? result.text = some s' ∧ s'.contentStart = s.contentStart ∧ s'.content = content ∧
        s'.hasFollowing = s.hasFollowing) ∧
      ∀ names', key.refill names' rendered result.text =
        { changed := false, text := result.text, found := true, items := names' } := by
  intro result lineEnd content
  have hcontent : content = sectionContent (LineEnd.ofText text) s.hasFollowing rendered :=
    (sectionContent_eq_flatMap _ _ _).symm
  have hs := found_of_find? hfind
  have hin : isIn text key = true := by rw [isIn, hfind]; rfl
  obtain ⟨first, others, hlines, hothers⟩ :=
    hrendered.exists_lines_sectionContent (LineEnd.ofText text) s.hasFollowing
  rw [← hcontent] at hlines
  have hresult : result.text = s.withContent content := by
    show (key.refill names rendered text).text = _
    rw [refill, hfind, hcontent]
  have hfound := find?_withContent hs hlines hothers
  have hin' : isIn result.text key = true := by rw [hresult, isIn, hfound]; rfl
  have hrewritten : key.Rewritten (lines text) (lines result.text) := by
    rw [hresult]
    exact rewritten_withContent hs hlines hothers
  have hagain : sectionContent (LineEnd.ofText (s.withContent content)) s.hasFollowing rendered = content := by
    refine sectionContent_withContent hcontent fun hend => ?_
    rw [hcontent, hend]
    exact hrendered.ofText_withContent hs hend
  refine ⟨(found_refill hin names rendered).1, ?_, hrewritten.presentIn_eq hin hin', ?_, ?_, ?_, ?_⟩
  · show (key.refill names rendered text).changed = true ↔ _
    rw [changed_refill, decide_eq_true_iff]
  · exact fun other hne => content_congr (hrewritten.blockIn_eq hne)
  · rw [hresult, Section.withContent_eq (Section.text_of_find? hfind)]
  · rw [hresult]
    refine ⟨_, hfound, ?_, ?_, rfl⟩
    · simp only [Section.contentStart, Section.headerStart, Section.front, Section.header, hs.name_eq]
    · rw [Section.content, ← hlines, unlines_lines]
  · intro names'
    refine refill_eq_of_text hin' ?_
    rw [hresult]
    exact text_refill_withContent hs hlines hothers hagain names'

def twoLineItem : Text := unlines ["    - a:".toList, "        b: \"c\"".toList]

/-- Written into the first section of three, in a document with pairs, the item leaves the others. -/
theorem refill_splices_threeHeaders :
    (∃ s, parameters.find? threeHeaders = some s) ∧ KeepToSection [twoLineItem] ∧
      (script.find? (parameters.refill [] [twoLineItem] threeHeaders).text).map Section.content =
        (script.find? threeHeaders).map Section.content ∧
      (parameters.refill [] [twoLineItem] (parameters.refill [] [twoLineItem] threeHeaders).text).changed =
        false := by
  obtain ⟨s, hs⟩ := Option.isSome_iff_exists.1 (show (parameters.find? threeHeaders).isSome = true by decide +kernel)
  have hkeep : KeepToSection [twoLineItem] := by
    constructor
    · intro item hitem
      rw [List.mem_singleton.1 hitem]
      decide +kernel
    · intro item hitem
      rw [List.mem_singleton.1 hitem]
      intro line hline
      have hall : (lines twoLineItem).all (!isTopLevelKey ·) = true := by decide +kernel
      simpa using List.all_eq_true.1 hall line hline
  obtain ⟨-, -, -, hothers, -, -, hagain⟩ := refill_splices hs hkeep []
  exact ⟨⟨s, hs⟩, hkeep, hothers .script (by decide), by rw [hagain []]⟩

end SectionKey

end Scenarist
