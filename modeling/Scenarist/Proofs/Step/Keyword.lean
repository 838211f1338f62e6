import Scenarist.Proofs.StepLine
import Scenarist.Step.Catalog
import Mathlib.Data.List.Basic

set_option autoImplicit false

/-! # The keyword before the wording of a step

Two lists of keywords are at work. A line is a step if it opens with one of the first list, and a catalog knows
a step by its wording, which is the line without a keyword of the second list. In neither list do the letters of
one keyword begin those of another, so a line is cut at one keyword at most, whatever the order of the list. The
lists agree on all keywords but `Дано`, which the catalog takes for a part of the wording.

Main statements: `StepLine.cutWord?_eq_some_iff` (a line cut at a keyword), `exists_around_stripKeyword` (the
wording of any text) and `stripKeyword_of_splitKeyword` (the wording of a step). -/

namespace Scenarist

open Text

namespace Text

theorem not_isBlank_head_strip {text : Text} {c : Char} (h : (strip text).head? = some c) : isBlank c = false := by
  rw [← stripLeft_strip] at h
  exact not_isBlank_head_stripLeft h

end Text

/-! ## Words in any case -/

/-- Whether a word is written here, its letters in any case. -/
def Spells (word written : Text) : Prop := written.map letterKey = word.map letterKey

instance (word written : Text) : Decidable (Spells word written) :=
  inferInstanceAs (Decidable (_ = _))

theorem spells_of_forall₂ {word written : Text}
    (h : List.Forall₂ (fun w c => sameLetter w c = true) word written) : Spells word written := by
  induction h with
  | nil => rfl
  | cons hletter _ ih =>
      rw [Spells, List.map_cons, List.map_cons, sameLetter_iff.1 hletter]
      exact congrArg _ ih

theorem afterLetters?_eq_some_iff {word text rest : Text} :
    afterLetters? word text = some rest ↔ ∃ written, Spells word written ∧ text = written ++ rest := by
  constructor
  · intro h
    obtain ⟨written, hwritten, rfl⟩ := exists_of_afterLetters? h
    exact ⟨written, spells_of_forall₂ hwritten, rfl⟩
  · rintro ⟨written, hspells, rfl⟩
    induction word generalizing written with
    | nil => rw [List.map_eq_nil_iff.1 hspells]; rfl
    | cons w ws ih =>
        cases written with
        | nil => exact absurd hspells (by simp [Spells])
        | cons c cs =>
            obtain ⟨hletter, hspells⟩ := List.cons.inj hspells
            rw [List.cons_append, afterLetters?, if_pos (sameLetter_iff.2 hletter.symm), ih cs hspells]

/-- Whether the letters of no word begin those of another. -/
def IsPrefixFree (words : List Text) : Prop :=
  ∀ word ∈ words, ∀ other ∈ words, word.map letterKey <+: other.map letterKey → word = other

instance (words : List Text) : Decidable (IsPrefixFree words) :=
  inferInstanceAs (Decidable (∀ word ∈ words, ∀ other ∈ words, _ → _))

theorem IsPrefixFree.mono {words others : List Text} (h : IsPrefixFree others) (hsubset : words ⊆ others) :
    IsPrefixFree words :=
  fun word hword other hother => h word (hsubset hword) other (hsubset hother)

/-- Two words that one text begins with are the same. -/
theorem IsPrefixFree.eq_of_append_eq {words : List Text} (h : IsPrefixFree words) {word other written written' : Text}
    (hword : word ∈ words) (hother : other ∈ words) (hspells : Spells word written) (hspells' : Spells other written')
    {rest rest' : Text} (heq : written ++ rest = written' ++ rest') : word = other := by
  have hprefix : written <+: written' ++ rest' := ⟨rest, heq⟩
  rcases List.prefix_or_prefix_of_prefix hprefix (List.prefix_append written' rest') with hle | hle
  · exact h word hword other hother (by rw [← hspells, ← hspells']; exact hle.map letterKey)
  · exact (h other hother word hword (by rw [← hspells, ← hspells']; exact hle.map letterKey)).symm

/-- A text is cut behind a word of the list that it begins with. -/
theorem StepLine.cutWord?_eq_some_iff {words : List Text} (hfree : IsPrefixFree words) {text written rest : Text} :
    cutWord? words text = some (written, rest) ↔ (∃ word ∈ words, Spells word written) ∧ text = written ++ rest := by
  constructor
  · intro h
    obtain ⟨word, hword, -, hletters⟩ := exists_of_cutWord? h
    exact ⟨⟨word, hword, spells_of_forall₂ hletters⟩, (append_of_cutWord? h).symm⟩
  · rintro ⟨⟨word, hword, hspells⟩, rfl⟩
    have hafter : afterLetters? word (written ++ rest) = some rest :=
      afterLetters?_eq_some_iff.2 ⟨written, hspells, rfl⟩
    cases hcut : cutWord? words (written ++ rest) with
    | none =>
        have hnone := List.findSome?_eq_none_iff.1 hcut word hword
        rw [hafter] at hnone
        exact absurd hnone (by simp)
    | some cut =>
        -- whichever word of the list comes first, it is this one
        obtain ⟨written', rest'⟩ := cut
        obtain ⟨other, hother, hafter', hletters⟩ := exists_of_cutWord? hcut
        obtain rfl := hfree.eq_of_append_eq hword hother hspells (spells_of_forall₂ hletters)
          (append_of_cutWord? hcut).symm
        obtain rfl : rest' = rest := Option.some.inj (hafter'.symm.trans hafter)
        rw [List.append_cancel_right (append_of_cutWord? hcut)]

/-- The letters of no keyword begin those of another, in both lists together. -/
theorem isPrefixFree_keywords : IsPrefixFree (stepKeywords ++ strippedKeywords) := by decide +kernel

theorem isPrefixFree_strippedKeywords : IsPrefixFree strippedKeywords :=
  isPrefixFree_keywords.mono (List.subset_append_right _ _)

/-- No keyword begins with a blank. -/
theorem not_isBlank_head_of_spells {word written : Text} (hword : word ∈ stepKeywords ++ strippedKeywords)
    (hspells : Spells word written) : ∃ c cs, written = c :: cs ∧ isBlank c = false := by
  have hall : ((stepKeywords ++ strippedKeywords).all fun word => word.head?.any fun w =>
      !blankRanges.has (letterKey w)) = true := by
    decide +kernel
  obtain ⟨w, hw, hsolid⟩ := (Option.any_eq_true _ _).1 (List.all_eq_true.1 hall word hword)
  obtain ⟨ws, rfl⟩ := List.head?_eq_some_iff.1 hw
  cases written with
  | nil => exact absurd hspells (by simp [Spells])
  | cons c cs =>
      have hletter : letterKey c = letterKey w := (List.cons.inj hspells).1
      exact ⟨c, cs, rfl, isBlank_eq_false_of_sameLetter (by simpa using hsolid) (sameLetter_iff.2 hletter.symm)⟩

/-- Blanks between a keyword and a stripped wording are all that there is to strip. -/
theorem strip_spelled {word written gap wording : Text} (hword : word ∈ stepKeywords ++ strippedKeywords)
    (hspells : Spells word written) (hstrip : strip wording = wording) (hne : wording ≠ []) :
    strip (written ++ gap ++ wording) = written ++ gap ++ wording := by
  obtain ⟨c, cs, rfl, hc⟩ := not_isBlank_head_of_spells hword hspells
  refine strip_eq_self (fun d hd => ?_) fun d hd => ?_
  · rwa [← Option.some.inj hd]
  · rw [List.getLast?_append_of_ne_nil _ hne, ← hstrip] at hd
    exact not_isBlank_getLast_strip hd

/-! ## The wording -/

theorem strip_stripKeyword (text : Text) : strip (stripKeyword text) = stripKeyword text := by
  simp only [stripKeyword]
  split
  · split <;> exact strip_strip _
  · exact strip_strip _

/-- Whether a text is a keyword that does not belong to the wording, with the blanks behind it. -/
def IsCutKeyword (text : Text) : Prop :=
  ∃ written gap, text = written ++ gap ∧ (∃ word ∈ strippedKeywords, Spells word written) ∧ gap ≠ [] ∧
    ∀ c ∈ gap, isBlank c = true

/-- What stands behind a keyword and blanks is the wording. -/
theorem stripKeyword_of_isCutKeyword {text keyword wording : Text} (hkeyword : IsCutKeyword keyword)
    (hstrip : strip wording = wording) (hline : strip text = keyword ++ wording) : stripKeyword text = wording := by
  obtain ⟨written, gap, rfl, hword, hgap, hblank⟩ := hkeyword
  have hcut : StepLine.cutWord? strippedKeywords (strip text) = some (written, gap ++ wording) :=
    (StepLine.cutWord?_eq_some_iff isPrefixFree_strippedKeywords).2 ⟨hword, by rw [hline, List.append_assoc]⟩
  have hleading : (leadingBlanks (gap ++ wording)).isEmpty = false := by
    obtain ⟨c, cs, rfl⟩ := List.exists_cons_of_ne_nil hgap
    simp [leadingBlanks, hblank c List.mem_cons_self]
  have hrest : strip (gap ++ wording) = wording := by
    unfold strip at hstrip ⊢
    rw [stripLeft_append hblank, hstrip]
  unfold stripKeyword
  simp only [hcut, hleading, Bool.false_eq_true, if_false, hrest]

/-- A text that does not begin with a keyword and blanks is all wording. -/
theorem stripKeyword_of_not_isCutKeyword {text : Text}
    (h : ∀ keyword rest, IsCutKeyword keyword → strip text ≠ keyword ++ rest) : stripKeyword text = strip text := by
  unfold stripKeyword
  cases hcut : StepLine.cutWord? strippedKeywords (strip text) with
  | none => simp only [hcut]
  | some cut =>
      obtain ⟨written, rest⟩ := cut
      obtain ⟨hword, hline⟩ := (StepLine.cutWord?_eq_some_iff isPrefixFree_strippedKeywords).1 hcut
      have hleading : leadingBlanks rest = [] := by
        by_contra hne
        refine h (written ++ leadingBlanks rest) (stripLeft rest)
          ⟨written, _, rfl, hword, hne, fun _ => isBlank_of_mem_leadingBlanks⟩ ?_
        rw [hline, List.append_assoc, leadingBlanks_append_stripLeft]
      simp only [hcut, hleading, List.isEmpty_nil, if_true]

/-- What stands behind blanks in a stripped text ends as the text does. -/
theorem strip_of_strip_eq_append {text front rest : Text} (h : strip text = front ++ rest) :
    strip rest = stripLeft rest := by
  obtain ⟨tail, htail, hblank⟩ := stripRight_prefix (stripLeft rest)
  rcases List.eq_nil_or_concat' tail with rfl | ⟨tail, d, rfl⟩
  · rw [strip, ← List.append_nil (stripRight _), ← htail]
  · have hlast : (strip text).getLast? = some d := by
      rw [h, ← leadingBlanks_append_stripLeft rest, htail]
      simp
    have hd := not_isBlank_getLast_strip hlast
    rw [hblank d (by simp)] at hd
    exact absurd hd (by simp)

/-- A text is its wording, before it a keyword with blanks if the text begins so, and blanks around them. -/
theorem exists_around_stripKeyword (text : Text) : ∃ before keyword after,
    text = before ++ (keyword ++ stripKeyword text) ++ after ∧ (∀ c ∈ before, isBlank c = true) ∧
      (∀ c ∈ after, isBlank c = true) ∧ strip text = keyword ++ stripKeyword text ∧
        (IsCutKeyword keyword ∨
          keyword = [] ∧ ∀ keyword rest, IsCutKeyword keyword → stripKeyword text ≠ keyword ++ rest) := by
  obtain ⟨before, after, htext, hbefore, hafter⟩ := exists_strip_around text
  suffices h : ∃ keyword, strip text = keyword ++ stripKeyword text ∧ (IsCutKeyword keyword ∨
      keyword = [] ∧ ∀ keyword rest, IsCutKeyword keyword → stripKeyword text ≠ keyword ++ rest) by
    obtain ⟨keyword, hstrip, hkeyword⟩ := h
    exact ⟨before, keyword, after, by rwa [← hstrip], hbefore, hafter, hstrip, hkeyword⟩
  by_cases h : ∀ keyword rest, IsCutKeyword keyword → strip text ≠ keyword ++ rest
  · have hall := stripKeyword_of_not_isCutKeyword h
    exact ⟨[], by rw [hall, List.nil_append], Or.inr ⟨rfl, by rwa [hall]⟩⟩
  · push Not at h
    obtain ⟨_, rest, ⟨written, gap, rfl, hword, hgap, hblank⟩, hline⟩ := h
    -- all the blanks behind the keyword are cut with it
    have hsplit : strip text = written ++ (gap ++ leadingBlanks rest) ++ strip rest := by
      rw [strip_of_strip_eq_append hline, hline]
      simp [leadingBlanks_append_stripLeft]
    have hkeyword : IsCutKeyword (written ++ (gap ++ leadingBlanks rest)) :=
      ⟨written, _, rfl, hword, fun hnil => hgap (List.append_eq_nil_iff.1 hnil).1,
        fun c hc => (List.mem_append.1 hc).elim (hblank c) isBlank_of_mem_leadingBlanks⟩
    exact ⟨_, by rw [stripKeyword_of_isCutKeyword hkeyword (strip_strip rest) hsplit, hsplit], Or.inl hkeyword⟩

theorem mem_of_mem_stripKeyword {text : Text} {c : Char} (h : c ∈ stripKeyword text) : c ∈ text := by
  obtain ⟨before, keyword, after, heq, -⟩ := exists_around_stripKeyword text
  rw [heq]
  simp [h]

/-! ## Steps -/

namespace StepLine

/-- Stripped, a step is its keyword, blanks and its wording. -/
theorem strip_of_splitKeyword {line keyword rest : Text} (h : splitKeyword line = (some keyword, rest))
    (hne : rest ≠ []) :
    ∃ gap, strip line = keyword ++ gap ++ rest ∧ (∃ word ∈ stepKeywords, Spells word keyword) ∧ gap ≠ [] ∧
      (∀ c ∈ gap, isBlank c = true) ∧ strip rest = rest := by
  unfold splitKeyword at h
  split at h
  · next parts hparts =>
    obtain ⟨hkeyword, rfl⟩ := Prod.mk.inj h
    obtain rfl := Option.some.inj hkeyword
    obtain ⟨⟨word, hword, hletters⟩, hline, hblank⟩ := exists_keyword_of_parse? hparts
    have hspells := spells_of_forall₂ hletters
    have hgap : parts.gap ≠ [] := by
      simp only [ofStep?, parse?, Option.bind_eq_bind, Option.bind_eq_some_iff, Option.pure_def,
        Option.some.injEq, Prod.exists] at hparts
      obtain ⟨_, _, _, _, _, _, hwording, rfl⟩ := hparts
      exact gap_ne_nil_of_wording? hwording
    obtain ⟨front, back, hcontent, hfront, hback⟩ := exists_strip_around parts.content
    -- the blanks in front of the content go to the gap, and those behind it to the tail
    have hsplit : line = leadingBlanks line ++ (parts.keyword ++ (parts.gap ++ front) ++ strip parts.content) ++
        (back ++ parts.tail) := by
      conv_lhs => rw [← leadingBlanks_append_stripLeft line, ← hline, hcontent]
      simp only [List.append_assoc]
    have hafter : ∀ c ∈ back ++ parts.tail, isBlank c = true :=
      fun c hc => (List.mem_append.1 hc).elim (hback c) fun hc => hblank c (Or.inr hc)
    refine ⟨parts.gap ++ front, ?_, ⟨word, hword, hspells⟩, fun hnil => hgap (List.append_eq_nil_iff.1 hnil).1,
      fun c hc => (List.mem_append.1 hc).elim (fun hc => hblank c (Or.inl hc)) (hfront c), strip_strip _⟩
    conv_lhs => rw [hsplit]
    rw [strip_around (fun _ => isBlank_of_mem_leadingBlanks) hafter,
      strip_spelled (List.mem_append_left _ hword) hspells (strip_strip _) hne]
  · simp at h

end StepLine

/-- The keyword of a step that a catalog takes for a part of the wording. -/
def keptKeyword : Text := "Дано".toList

theorem mem_strippedKeywords_or : ∀ word ∈ stepKeywords, word ∈ strippedKeywords ∨ word = keptKeyword := by decide

/-- A catalog knows a line by its wording alone. -/
theorem StepCatalog.alike_of_stripKeyword_eq (catalog : StepCatalog) {line line' : Text}
    (h : stripKeyword line = stripKeyword line') (count : Int) :
    catalog.isKnown line = catalog.isKnown line' ∧ catalog.suggest line count = catalog.suggest line' count := by
  constructor
  · rw [isKnown, isKnown, h]
  · rw [suggest, suggest, Template.gist, Template.gist, h]

/-- The wording of a step is what the keyword is cut from, under every keyword but one, which is not cut off. So a
catalog treats steps of the same wording alike, whichever of the other keywords they have. -/
theorem stripKeyword_of_splitKeyword {line keyword rest : Text}
    (h : StepLine.splitKeyword line = (some keyword, rest)) (hne : rest ≠ []) :
    (stripKeyword line = rest ↔ ¬ Spells keptKeyword keyword) ∧
      (Spells keptKeyword keyword → stripKeyword line = strip line) ∧
      ∀ line' keyword', StepLine.splitKeyword line' = (some keyword', rest) → ¬ Spells keptKeyword keyword →
        ¬ Spells keptKeyword keyword' → ∀ (catalog : StepCatalog) (count : Int),
          catalog.isKnown line = catalog.isKnown line' ∧ catalog.suggest line count = catalog.suggest line' count := by
  have hcut : ∀ line keyword, StepLine.splitKeyword line = (some keyword, rest) → ¬ Spells keptKeyword keyword →
      stripKeyword line = rest := by
    intro line keyword h hnot
    obtain ⟨gap, hline, ⟨word, hword, hspells⟩, hgap, hblank, hstrip⟩ := StepLine.strip_of_splitKeyword h hne
    rcases mem_strippedKeywords_or word hword with hmem | rfl
    · exact stripKeyword_of_isCutKeyword ⟨keyword, gap, rfl, ⟨word, hmem, hspells⟩, hgap, hblank⟩ hstrip hline
    · exact absurd hspells hnot
  obtain ⟨gap, hline, -, hgap, -, -⟩ := StepLine.strip_of_splitKeyword h hne
  have hkept : Spells keptKeyword keyword → stripKeyword line = strip line := by
    intro hspells
    refine stripKeyword_of_not_isCutKeyword fun _ _ ⟨written, _, hkeyword, ⟨word, hword, hspells'⟩, _⟩ heq => ?_
    rw [hline, hkeyword, List.append_assoc, List.append_assoc] at heq
    have hsame := isPrefixFree_keywords.eq_of_append_eq (List.mem_append_left _ (by decide))
      (List.mem_append_right _ hword) hspells hspells' heq
    exact absurd (hsame ▸ hword) (by decide)
  refine ⟨⟨fun heq hspells => ?_, hcut line keyword h⟩, hkept, fun line' keyword' h' hnot hnot' catalog count => ?_⟩
  · -- the line is longer than what stands behind the keyword
    rw [hkept hspells, hline] at heq
    have hlength := congrArg List.length heq
    have hpos := List.length_pos_of_ne_nil hgap
    simp only [List.length_append] at hlength
    omega
  · exact catalog.alike_of_stripKeyword_eq ((hcut line keyword h hnot).trans (hcut line' keyword' h' hnot').symm) count

def waitingCatalog : StepCatalog where
  steps := [⟨"я жду".toList, none⟩]
  threshold := StepCatalog.defaultThreshold

/-- Under keywords of two languages the step is known. -/
theorem stripKeyword_of_splitKeyword_waiting :
    StepLine.splitKeyword "  К тому же  я жду".toList = (some "К тому же".toList, "я жду".toList) ∧
      StepLine.splitKeyword "given я жду".toList = (some "given".toList, "я жду".toList) ∧
      stripKeyword "  К тому же  я жду".toList = "я жду".toList ∧
      waitingCatalog.isKnown "  К тому же  я жду".toList = waitingCatalog.isKnown "given я жду".toList := by
  have hline : StepLine.splitKeyword "  К тому же  я жду".toList = (some "К тому же".toList, "я жду".toList) := by
    decide +kernel
  have hline' : StepLine.splitKeyword "given я жду".toList = (some "given".toList, "я жду".toList) := by decide +kernel
  have hnot : ¬ Spells keptKeyword "К тому же".toList := by decide +kernel
  have hnot' : ¬ Spells keptKeyword "given".toList := by decide +kernel
  obtain ⟨hwording, -, halike⟩ := stripKeyword_of_splitKeyword hline (by decide)
  exact ⟨hline, hline', hwording.2 hnot, (halike _ _ hline' hnot hnot' waitingCatalog 1).1⟩

/-- Under the keyword that is kept, the wording is the whole line, and the step is not known. -/
theorem stripKeyword_kept :
    StepLine.splitKeyword "Дано я жду".toList = (some "Дано".toList, "я жду".toList) ∧
      stripKeyword "Дано я жду".toList ≠ "я жду".toList ∧
      waitingCatalog.isKnown "Дано я жду".toList = false ∧ waitingCatalog.isKnown "Допустим я жду".toList = true := by
  decide +kernel

end Scenarist
