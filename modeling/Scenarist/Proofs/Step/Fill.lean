import Scenarist.Proofs.Step.Instance

set_option autoImplicit false

/-! # A filled template is a known step

A template is filled from the left: first with the arguments of the line, then with its bare numbers in the quotes of
the placeholder, and the placeholders that are left over stay. Whatever is put for a placeholder is an argument, so a
filled wording renders its template; and what is cut off the template before its wording is cut off the filled one.

Main statement: `StepCatalog.isKnown_fill`. -/

namespace Scenarist

open Text

namespace Template

/-- A bare number in quotes is a literal. -/
theorem isArgument_of_number {quote : Char} (hquote : IsQuote quote) {number : Text}
    (h : ∀ c ∈ number, isDigit c = true ∨ c = '.' ∨ c = ',') :
    IsArgument isNameLetterVariant (quote :: (number ++ [quote])) := by
  have hnot : ∀ c, isDigit c = false → c ≠ '.' → c ≠ ',' → c ∉ number := by
    intro c hdigit hpoint hcomma hmem
    rcases h c hmem with h | h | h
    · simp [h] at hdigit
    · exact hpoint h
    · exact hcomma h
  refine .literal hquote (.of_not_mem ?_ (hnot _ (by decide) (by decide) (by decide)))
  rcases hquote with rfl | rfl <;> exact hnot _ (by decide) (by decide) (by decide)

/-- Whatever is put for the placeholders, the pieces are rendered. -/
theorem renders_fillFrom {arguments numbers : List Text} {pieces : List Piece}
    (harguments : ∀ a ∈ arguments, IsArgument isNameLetterVariant a)
    (hnumbers : ∀ number ∈ numbers, ∀ c ∈ number, isDigit c = true ∨ c = '.' ∨ c = ',')
    (hpieces : ∀ front, .placeholder front ∈ pieces → IsPlaceholder front ∧ '\\' ∉ front) :
    Renders Eq pieces (fillFrom arguments numbers pieces) := by
  fun_induction fillFrom arguments numbers pieces with
  | case1 => exact .nil
  | case2 arguments numbers c rest ih =>
      exact .letter rfl (ih harguments hnumbers fun front h => hpieces front (List.mem_cons_of_mem _ h))
  | case3 argument arguments numbers front rest ih =>
      exact .placeholder (harguments argument List.mem_cons_self)
        (ih (fun a h => harguments a (List.mem_cons_of_mem _ h)) hnumbers
          fun front h => hpieces front (List.mem_cons_of_mem _ h))
  | case4 number numbers front rest ih =>
      obtain ⟨quote, content, hquote, -, rfl⟩ := (hpieces front List.mem_cons_self).1.ends
      have hrest := ih harguments (fun n h => hnumbers n (List.mem_cons_of_mem _ h))
        fun front h => hpieces front (List.mem_cons_of_mem _ h)
      exact .placeholder (isArgument_of_number hquote (hnumbers number List.mem_cons_self)) hrest
  | case5 front rest ih =>
      obtain ⟨hfront, hplain⟩ := hpieces front List.mem_cons_self
      exact .placeholder (hfront.isArgument hplain)
        (ih harguments hnumbers fun front h => hpieces front (List.mem_cons_of_mem _ h))

/-- A rendered wording begins and ends without blanks, as the wording does. -/
theorem strip_of_renders {wording text : Text} (h : Renders Eq (pieces wording) text) (hne : wording ≠ [])
    (hstrip : strip wording = wording) : text ≠ [] ∧ strip text = text := by
  -- either end is a letter of the wording, whose ends are no blanks, or a mark of an argument
  have hhead : ∃ c, text.head? = some c ∧ isBlank c = false := by
    have hwording := flatMap_pieces wording
    generalize pieces wording = ps at h hwording
    cases h with
    | nil => exact absurd hwording.symm hne
    | @letter c d ps text halike h =>
        have hfirst : (strip wording).head? = some d := by
          rw [hstrip, ← hwording, ← halike]
          rfl
        exact ⟨d, rfl, not_isBlank_head_strip hfirst⟩
    | placeholder hargument h =>
        obtain ⟨opening, content, closing, rfl, hopening, -⟩ := hargument.ends
        exact ⟨opening, rfl, hopening.not_isBlank⟩
  have hlast : ∃ c, text.getLast? = some c ∧ isBlank c = false := by
    have hwording := flatMap_pieces wording
    generalize pieces wording = ps at h hwording
    rcases List.eq_nil_or_concat' ps with rfl | ⟨front, piece, rfl⟩
    · exact absurd hwording.symm hne
    obtain ⟨first, last, rfl, -, hpiece⟩ := h.exists_of_append
    cases hpiece with
    | @letter c d _ _ halike hnil =>
        cases hnil
        have hend : (strip wording).getLast? = some d := by
          rw [hstrip, ← hwording, ← halike]
          simp [Piece.text]
        exact ⟨d, by simp, not_isBlank_getLast_strip hend⟩
    | placeholder hargument hnil =>
        cases hnil
        obtain ⟨opening, content, closing, rfl, -, hclosing⟩ := hargument.ends
        refine ⟨closing, ?_, hclosing⟩
        rw [List.append_nil, ← List.cons_append, ← List.append_assoc, List.getLast?_concat]
  obtain ⟨c, hc, hcsolid⟩ := hhead
  obtain ⟨d, hd, hdsolid⟩ := hlast
  refine ⟨fun hnil => by simp [hnil] at hc, strip_eq_self (fun x hx => ?_) fun x hx => ?_⟩
  · obtain rfl : c = x := Option.some.inj (hc.symm.trans hx)
    exact hcsolid
  · obtain rfl : d = x := Option.some.inj (hd.symm.trans hx)
    exact hdsolid

/-- What a rendered text begins with, short of the first mark, the pieces begin with. -/
theorem Renders.exists_letters {pieces : List Piece} {front rest : Text} (h : Renders Eq pieces (front ++ rest))
    (hplain : ∀ c ∈ front, ¬ IsMark c) : ∃ pieces', pieces = front.map .letter ++ pieces' := by
  induction front generalizing pieces with
  | nil => exact ⟨pieces, rfl⟩
  | cons c cs ih =>
      rw [List.cons_append] at h
      generalize htext : c :: (cs ++ rest) = text at h
      cases h with
      | nil => simp at htext
      | letter halike h =>
          obtain ⟨rfl, rfl⟩ := List.cons.inj htext
          obtain ⟨pieces', rfl⟩ := ih h fun d hd => hplain d (List.mem_cons_of_mem c hd)
          exact ⟨pieces', by rw [halike, List.map_cons, List.cons_append]⟩
      | placeholder hargument h =>
          obtain ⟨opening, content, closing, rfl, hopening, -⟩ := hargument.ends
          obtain ⟨rfl, -⟩ := List.cons.inj htext
          exact absurd hopening (hplain c List.mem_cons_self)

/-- A rendered wording begins with a keyword only if the wording does. -/
theorem exists_keyword_of_renders {wording keyword rest : Text} (hkeyword : IsCutKeyword keyword)
    (h : Renders Eq (pieces wording) (keyword ++ rest)) : ∃ rest', wording = keyword ++ rest' := by
  obtain ⟨pieces', hpieces⟩ := h.exists_letters (not_isMark_of_isCutKeyword hkeyword)
  refine ⟨pieces'.flatMap Piece.text, ?_⟩
  have hletters : (keyword.map Piece.letter).flatMap Piece.text = keyword := by
    rw [List.flatMap_map]
    exact List.flatMap_singleton' keyword
  rw [← flatMap_pieces wording, hpieces, List.flatMap_append, hletters]

/-- What is cut off a template is cut off the filled one, and its wording is filled with arguments. -/
theorem renders_stripKeyword_fill (line : Text) {template : Text} (hbackslash : '\\' ∉ template)
    (hne : stripKeyword template ≠ []) :
    Renders Eq (pieces (stripKeyword template)) (stripKeyword (fill line template)) ∧
      stripKeyword (fill line template) ≠ [] := by
  obtain ⟨before, keyword, after, hpieces, hbefore, hafter, hkeyword⟩ := exists_pieces_around template
  have hfill : Renders Eq (pieces template) (fill line template) :=
    renders_fillFrom
      (fun a ha => (isArgument_of_mem_argumentsOf ha).mono fun c => isNameLetterVariant_of_isNameLetter)
      (fun number => mem_bareNumbers)
      fun front h => ⟨isPlaceholder_of_mem_pieces h, fun hmem => hbackslash (subset_of_mem_pieces h hmem)⟩
  rw [hpieces] at hfill
  -- what stands around the wording has no placeholders, so it is filled as it is
  obtain ⟨front, last, hsplit, hfront, hlast⟩ := hfill.exists_of_append
  obtain ⟨first, wording, rfl, hfirst, hwording⟩ := hfront.exists_of_append
  obtain rfl := hfirst.eq_of_letters
  obtain rfl := hlast.eq_of_letters
  obtain ⟨hfilled, hself⟩ := strip_of_renders hwording hne (strip_stripKeyword template)
  suffices h : stripKeyword (fill line template) = wording by rw [h]; exact ⟨hwording, hfilled⟩
  have hline : strip (fill line template) = strip (keyword ++ wording) := by
    rw [hsplit, List.append_assoc before, strip_around hbefore hafter]
  rcases hkeyword with hkeyword | ⟨rfl, hnone⟩
  · obtain ⟨written, gap, rfl, ⟨word, hword, hspells⟩, hgap, hblank⟩ := hkeyword
    exact stripKeyword_of_isCutKeyword ⟨written, gap, rfl, ⟨word, hword, hspells⟩, hgap, hblank⟩ hself
      (hline.trans (strip_spelled (List.mem_append_right _ hword) hspells hself hfilled))
  · rw [List.nil_append, hself] at hline
    refine (stripKeyword_of_not_isCutKeyword fun keyword rest hkeyword heq => ?_).trans hline
    rw [hline.symm.trans heq] at hwording
    obtain ⟨rest', hrest'⟩ := exists_keyword_of_renders hkeyword hwording
    exact hnone keyword rest' hkeyword hrest'

end Template

/-- A template that is filled with the arguments of a line is a known step, whatever arguments and numbers the line has
and however many placeholders are left over. -/
theorem StepCatalog.isKnown_fill (catalog : StepCatalog) (line : Text) {template : Text}
    (htemplate : template ∈ catalog.templates) (hbackslash : '\\' ∉ template) (hnull : '\x00' ∉ template)
    (hne : stripKeyword template ≠ []) : catalog.isKnown (Template.fill line template) = true := by
  obtain ⟨hrenders, hfilled⟩ := Template.renders_stripKeyword_fill line hbackslash hne
  have hinstance : Template.isInstance template (stripKeyword (Template.fill line template)) = true :=
    Template.isInstance_of_renders hbackslash hnull (hrenders.mono fun c d heq => heq ▸ sameLetter_self c)
  simp only [isKnown, Bool.and_eq_true, Bool.not_eq_true', List.isEmpty_eq_false_iff, List.any_eq_true]
  exact ⟨hfilled, template, htemplate, hinstance⟩

def takingTemplate : Text := "When I take \"%1 Count\" of '%2 Item' to \"%3 Place\"".toList

/-- A reference, a number in the quotes of its placeholder and a placeholder that stays make up a known step. -/
theorem StepCatalog.isKnown_fill_taking :
    let catalog : StepCatalog := ⟨[⟨takingTemplate, none⟩], defaultThreshold⟩
    takingTemplate ∈ catalog.templates ∧ '\\' ∉ takingTemplate ∧ '\x00' ∉ takingTemplate ∧
      stripKeyword takingTemplate ≠ [] ∧
      Template.fill "And take [Box] 5".toList takingTemplate = "When I take [Box] of '5' to \"%3 Place\"".toList ∧
      catalog.isKnown (Template.fill "And take [Box] 5".toList takingTemplate) = true := by
  intro catalog
  have htemplate : takingTemplate ∈ catalog.templates := List.mem_singleton.2 rfl
  have hbackslash : '\\' ∉ takingTemplate := by decide
  have hnull : '\x00' ∉ takingTemplate := by decide
  have hne : stripKeyword takingTemplate ≠ [] := by decide +kernel
  exact ⟨htemplate, hbackslash, hnull, hne, by decide +kernel,
    isKnown_fill catalog "And take [Box] 5".toList htemplate hbackslash hnull hne⟩

end Scenarist
