import Scenarist.Proofs.Text.Blank
import Scenarist.Proofs.Text.Lines
import Scenarist.StepLine

set_option autoImplicit false

/-! # Lines with a keyword, stripped

Some readers cut a line at its keyword as it stands and others strip it first. No letter of a call's
keyword is blank, so both find the same keyword and the same wording; all they may differ in is a line
with nothing behind the keyword.

Main statements: `StepLine.ofCall?_strip` (the wording of a call) and `StepLine.ofStep?_of_ofCall?` (a call
is cut as a step). -/

namespace Scenarist

open Text

/-! ## Letters of keywords -/

/-- No blank is a variant of another character. -/
theorem letterKey_of_isBlank {c : Char} (h : isBlank c = true) : letterKey c = c.toNat := by
  obtain ⟨range, hrange, hlow, hhigh⟩ := CodeRanges.exists_of_has h
  have hall : blankRanges.all (fun range => (List.range' range.1 (range.2 + 1 - range.1)).all
      fun n => letterKey (Char.ofNat n) == n) = true := by
    decide +kernel
  have hcode := List.all_eq_true.1 (List.all_eq_true.1 hall range hrange) c.toNat
    (List.mem_range'_1.2 ⟨hlow, by omega⟩)
  rw [Char.ofNat_toNat] at hcode
  exact eq_of_beq hcode

/-- Whether no letter of a word is one with a blank. -/
def IsSolid (word : Text) : Prop := ∀ w ∈ word, blankRanges.has (letterKey w) = false

theorem isSolid_of_mem_callKeywords {word : Text} (h : word ∈ callKeywords) : IsSolid word := by
  have hall : (callKeywords.all fun word => word.all fun w => !blankRanges.has (letterKey w)) = true := by
    decide +kernel
  intro w hw
  simpa using List.all_eq_true.1 (List.all_eq_true.1 hall word h) w hw

theorem callKeywords_subset : ∀ word ∈ callKeywords, word ∈ stepKeywords := by decide

/-- No letter of a keyword is one with a mark that a line begins with or a quote. -/
theorem letterKey_ne_mark {word : Text} (hword : word ∈ stepKeywords) {w : Char} (hw : w ∈ word)
    {mark : Char} (hmark : mark ∈ ['#', '|', '"']) : letterKey w ≠ letterKey mark := by
  have hall : (stepKeywords.all fun word => word.all fun w =>
      ['#', '|', '"'].all fun mark => letterKey w != letterKey mark) = true := by
    decide +kernel
  have hletter := List.all_eq_true.1 (List.all_eq_true.1 hall word hword) w hw
  simpa using List.all_eq_true.1 hletter mark hmark

theorem isBlank_eq_false_of_sameLetter {w c : Char} (hw : blankRanges.has (letterKey w) = false)
    (h : sameLetter w c = true) : isBlank c = false := by
  rw [sameLetter_iff] at h
  cases hc : isBlank c with
  | false => rfl
  | true =>
      rw [h, letterKey_of_isBlank hc] at hw
      exact hc.symm.trans hw

/-- What a text begins with are the letters of the word. -/
theorem exists_of_afterLetters? {word text rest : Text} (h : afterLetters? word text = some rest) :
    ∃ written, List.Forall₂ (fun w c => sameLetter w c = true) word written ∧
      text = written ++ rest := by
  induction word generalizing text with
  | nil => exact ⟨[], .nil, by simpa [afterLetters?] using h⟩
  | cons w ws ih =>
      cases text with
      | nil => simp [afterLetters?] at h
      | cons c cs =>
          rw [afterLetters?] at h
          split at h
          · next hletter =>
            obtain ⟨written, hwritten, rfl⟩ := ih h
            exact ⟨c :: written, .cons hletter hwritten, rfl⟩
          · simp at h

/-- Blanks at the end of a text are behind every word that it begins with. -/
theorem afterLetters?_append {word tail : Text} (hword : IsSolid word)
    (htail : ∀ c ∈ tail, isBlank c = true) (text : Text) :
    afterLetters? word (text ++ tail) = (afterLetters? word text).map (· ++ tail) := by
  induction word generalizing text with
  | nil => rfl
  | cons w ws ih =>
      have hws : IsSolid ws := fun v hv => hword v (List.mem_cons_of_mem _ hv)
      cases text with
      | cons c cs =>
          rw [List.cons_append, afterLetters?, afterLetters?]
          split
          · exact ih hws cs
          · rfl
      | nil =>
          cases tail with
          | nil => rfl
          | cons c cs =>
              -- a letter of the word is no blank
              have hdiffer : sameLetter w c = false := by
                cases hsame : sameLetter w c with
                | false => rfl
                | true =>
                    have hsolid := isBlank_eq_false_of_sameLetter (hword w List.mem_cons_self) hsame
                    rw [htail c List.mem_cons_self] at hsolid
                    exact Bool.noConfusion hsolid
              simp [afterLetters?, hdiffer]

/-- What is left of a text when it is stripped does not end with a blank. -/
theorem not_isBlank_getLast_strip {text : Text} {c : Char} (h : (strip text).getLast? = some c) :
    isBlank c = false := by
  have hhead := List.head?_dropWhile_not isBlank (stripLeft text).reverse
  have hlast : ((stripLeft text).reverse.dropWhile isBlank).head? = some c := by
    rw [← h, strip, stripRight, dropEndWhile, List.getLast?_reverse]
  rw [hlast] at hhead
  simpa using hhead

theorem stripLeft_strip (text : Text) : stripLeft (strip text) = strip text := by
  cases hleft : stripLeft text with
  | nil => rw [strip, hleft]; rfl
  | cons c cs =>
      have hc : isBlank c = false := not_isBlank_head_stripLeft (by rw [hleft]; rfl)
      rw [strip, hleft, stripRight_cons_of_not_blank hc, stripLeft_cons_of_not_blank hc]

namespace StepLine

/-! ## The keyword -/

theorem exists_of_cutWord? {words : List Text} {text written rest : Text}
    (h : cutWord? words text = some (written, rest)) :
    ∃ word ∈ words, afterLetters? word text = some rest ∧
      List.Forall₂ (fun w c => sameLetter w c = true) word written := by
  obtain ⟨word, hword, hmap⟩ := List.exists_of_findSome?_eq_some h
  obtain ⟨after, hafter, heq⟩ := Option.map_eq_some_iff.1 hmap
  obtain ⟨htake, rfl⟩ := Prod.mk.inj heq
  obtain ⟨letters, hletters, rfl⟩ := exists_of_afterLetters? hafter
  obtain rfl : letters = written := by simpa using htake
  exact ⟨word, hword, hafter, hletters⟩

theorem cutWord?_append {words : List Text} {tail : Text} (hwords : ∀ word ∈ words, IsSolid word)
    (htail : ∀ c ∈ tail, isBlank c = true) (text : Text) :
    cutWord? words (text ++ tail) = (cutWord? words text).map fun cut => (cut.1, cut.2 ++ tail) := by
  induction words with
  | nil => rfl
  | cons word words ih =>
      have hrest := ih fun other hother => hwords other (List.mem_cons_of_mem _ hother)
      unfold cutWord? at hrest ⊢
      rw [List.findSome?_cons, List.findSome?_cons,
        afterLetters?_append (hwords word List.mem_cons_self) htail]
      cases hafter : afterLetters? word text with
      | none => exact hrest
      | some rest =>
          obtain ⟨letters, -, rfl⟩ := exists_of_afterLetters? hafter
          simp [List.take_append]

/-! ## The wording -/

theorem cutTail_of_not_mem {text : Text} (h : '\n' ∉ text) : cutTail text = (text, []) := by
  unfold cutTail
  rw [if_neg]
  exact fun hlast => h (List.mem_of_mem_getLast? hlast)

theorem wording?_of_body {rest : Text} (hfeed : '\n' ∉ rest) (hbody : stripLeft rest ≠ []) :
    wording? rest =
      if (leadingBlanks rest).isEmpty then none else some (leadingBlanks rest, stripLeft rest, []) := by
  have hfree : '\n' ∉ stripLeft rest := fun hmem => hfeed ((List.dropWhile_sublist isBlank).subset hmem)
  have hempty : (stripLeft rest).isEmpty = false := by simpa using hbody
  unfold wording?
  simp only [hempty, cutTail_of_not_mem hfree, Bool.false_eq_true, if_false]
  simp [hfree]

/-- Blanks follow a keyword. -/
theorem gap_ne_nil_of_wording? {rest gap content tail : Text} (h : wording? rest = some (gap, content, tail)) :
    gap ≠ [] := by
  simp only [wording?] at h
  split at h
  · split at h
    · simp at h
    · split at h
      · simp at h
      · next hnot =>
        cases h
        simp only [Bool.or_eq_true, not_or] at hnot
        simpa using hnot.2
  · split at h
    · simp at h
    · next hnot =>
      cases h
      simp only [Bool.or_eq_true, not_or] at hnot
      simpa using hnot.1

/-- Behind a keyword with nothing but blanks behind it, the wording is a blank. -/
theorem strip_content_of_blank {rest gap content tail : Text} (hblank : stripLeft rest = [])
    (h : wording? rest = some (gap, content, tail)) : strip content = [] := by
  have happend := append_of_wording? h
  rw [strip_eq_nil_iff]
  intro c hc
  refine stripLeft_eq_nil_iff.1 hblank c ?_
  rw [← happend]
  simp [hc]

theorem isBlank_of_mem_cutTail {text : Text} {c : Char} (h : c ∈ (cutTail text).2) : isBlank c = true := by
  unfold cutTail at h
  split at h
  · rw [List.mem_singleton.1 h]
    decide
  · exact absurd h List.not_mem_nil

/-- What stands around the wording is blank. -/
theorem isBlank_of_wording? {rest gap content tail : Text}
    (h : wording? rest = some (gap, content, tail)) {c : Char} (hc : c ∈ gap ∨ c ∈ tail) :
    isBlank c = true := by
  simp only [wording?] at h
  split at h
  · split at h
    · simp at h
    · split at h
      · simp at h
      · cases h
        rcases hc with hc | hc
        · refine @isBlank_of_mem_leadingBlanks rest c ?_
          rw [← cutTail_append (leadingBlanks rest)]
          exact List.mem_append_left _ (List.dropLast_subset _ hc)
        · exact isBlank_of_mem_cutTail hc
  · split at h
    · simp at h
    · cases h
      exact hc.elim isBlank_of_mem_leadingBlanks isBlank_of_mem_cutTail

theorem leadingBlanks_append_of_body {rest : Text} (hbody : stripLeft rest ≠ []) (tail : Text) :
    leadingBlanks (rest ++ tail) = leadingBlanks rest := by
  obtain ⟨c, cs, hcs⟩ := List.exists_cons_of_ne_nil hbody
  have hc : isBlank c = false := not_isBlank_head_stripLeft (by rw [hcs]; rfl)
  have hsplit := leadingBlanks_append_stripLeft rest
  rw [hcs] at hsplit
  rw [← hsplit, List.append_assoc, List.cons_append]
  rw [leadingBlanks_append (fun _ => isBlank_of_mem_leadingBlanks) hc,
    leadingBlanks_append (fun _ => isBlank_of_mem_leadingBlanks) hc]

/-- Blanks at the end of a line count for its wording only if there is nothing else. -/
theorem wording?_append {rest tail : Text} (hfeed : '\n' ∉ rest ++ tail)
    (htail : ∀ c ∈ tail, isBlank c = true) (hrest : stripLeft rest = [] → rest = []) :
    (wording? rest).map (fun parts => strip parts.2.1) =
      ((wording? (rest ++ tail)).map fun parts => strip parts.2.1).filter (!·.isEmpty) := by
  by_cases hbody : stripLeft rest = []
  · rw [hrest hbody]
    cases hblank : wording? ([] ++ tail) with
    | none => rfl
    | some parts =>
        have hnothing := strip_content_of_blank (stripLeft_eq_nil_iff.2 (by simpa using htail)) hblank
        rw [Option.map_some, hnothing]
        rfl
  · have hbody' : stripLeft (rest ++ tail) ≠ [] := by
      rw [stripLeft_append_of_ne_nil hbody]
      exact fun hnil => hbody (List.append_eq_nil_iff.1 hnil).1
    have hwording : strip (stripLeft rest) ≠ [] := by
      rw [Ne, strip_eq_nil_iff, ← stripLeft_eq_nil_iff, stripLeft_stripLeft]
      exact hbody
    rw [wording?_of_body (fun hmem => hfeed (List.mem_append_left _ hmem)) hbody,
      wording?_of_body hfeed hbody', leadingBlanks_append_of_body hbody,
      stripLeft_append_of_ne_nil hbody]
    split
    · rfl
    · rw [Option.map_some, Option.map_some, strip_append htail, Option.filter_some,
        if_pos (by simpa using hwording)]

/-- The wording of a call is the same after the line is stripped, unless it is blank. -/
theorem ofCall?_strip {line : Text} (hfeed : '\n' ∉ line) :
    (ofCall? (strip line)).map (fun parts => strip parts.content) =
      ((ofCall? line).map fun parts => strip parts.content).filter (!·.isEmpty) := by
  obtain ⟨tail, htail, hblank⟩ := stripRight_prefix (stripLeft line)
  change stripLeft line = strip line ++ tail at htail
  have hcutAppend := cutWord?_append (fun _ hword => isSolid_of_mem_callKeywords hword) hblank (strip line)
  unfold ofCall? parse?
  rw [stripLeft_strip, htail, hcutAppend]
  cases hcut : cutWord? callKeywords (strip line) with
  | none => rfl
  | some cut =>
      obtain ⟨keyword, rest⟩ := cut
      have hline := append_of_cutWord? hcut
      have hfree : '\n' ∉ rest ++ tail := by
        intro hmem
        refine hfeed ((List.dropWhile_sublist isBlank).subset (?_ : '\n' ∈ stripLeft line))
        rw [htail, ← hline, List.append_assoc]
        exact List.mem_append_right _ hmem
      have hrest : stripLeft rest = [] → rest = [] := by
        -- a blank at the end would have been stripped
        intro hall
        by_contra hne
        have hlast := List.getLast?_eq_some_getLast hne
        have hsolid : isBlank (rest.getLast hne) = false := by
          refine @not_isBlank_getLast_strip line _ ?_
          rw [← hline, List.getLast?_append, hlast, Option.some_or]
        rw [stripLeft_eq_nil_iff.1 hall _ (List.getLast_mem hne)] at hsolid
        exact Bool.noConfusion hsolid
      have hcontent : ∀ (indent : Text) (wording : Option (Text × Text × Text)),
          (wording.bind fun parts => some (⟨indent, keyword, parts.1, parts.2.1, parts.2.2⟩ : StepLine)).map
              (fun parts => strip parts.content) = wording.map fun parts => strip parts.2.1 := by
        intro indent wording
        cases wording <;> rfl
      simp only [Option.map_some, Option.bind_eq_bind, Option.bind_some, Option.pure_def]
      rw [hcontent, hcontent]
      exact wording?_append hfree hblank hrest

/-! ## The parts of a line -/

/-- The letters of a line's keyword are those of one of the keywords, and its parts make up the line
behind its indentation. -/
theorem exists_keyword_of_parse? {keywords : List Text} {line : Text} {parts : StepLine}
    (h : parse? keywords line = some parts) :
    (∃ word ∈ keywords, List.Forall₂ (fun w c => sameLetter w c = true) word parts.keyword) ∧
      parts.keyword ++ (parts.gap ++ parts.content ++ parts.tail) = stripLeft line ∧
      ∀ c, c ∈ parts.gap ∨ c ∈ parts.tail → isBlank c = true := by
  simp only [parse?, Option.bind_eq_bind, Option.bind_eq_some_iff, Option.pure_def,
    Option.some.injEq, Prod.exists] at h
  obtain ⟨keyword, rest, hcut, gap, content, tail, hwording, rfl⟩ := h
  obtain ⟨word, hword, -, hletters⟩ := exists_of_cutWord? hcut
  exact ⟨⟨word, hword, hletters⟩, by rw [append_of_wording? hwording, append_of_cutWord? hcut],
    fun c hc => isBlank_of_wording? hwording hc⟩

/-- A line with a keyword begins with the first letter of one. -/
theorem exists_head_of_parse? {keywords : List Text} {line : Text} {parts : StepLine}
    (h : parse? keywords line = some parts) (hne : [] ∉ keywords) :
    ∃ word ∈ keywords, ∃ w ∈ word.head?, ∃ c ∈ (stripLeft line).head?, letterKey w = letterKey c := by
  obtain ⟨⟨word, hword, hletters⟩, hline, -⟩ := exists_keyword_of_parse? h
  rw [← hline]
  generalize parts.keyword = written at hletters
  cases hletters with
  | nil => exact absurd hword hne
  | @cons w c _ _ hletter _ => exact ⟨_, hword, w, rfl, c, rfl, sameLetter_iff.1 hletter⟩

/-- A character that is neither blank nor a letter of a keyword stands in the wording or nowhere. -/
theorem mem_iff_of_parse? {keywords : List Text} {line : Text} {parts : StepLine}
    (h : parse? keywords line = some parts) {c : Char} (hc : isBlank c = false)
    (hkey : ∀ word ∈ keywords, ∀ w ∈ word, letterKey w ≠ letterKey c) :
    c ∈ line ↔ c ∈ strip parts.content := by
  obtain ⟨⟨word, hword, hletters⟩, hline, hblank⟩ := exists_keyword_of_parse? h
  have hkeyword : c ∉ parts.keyword := by
    intro hmem
    obtain ⟨w, hw, hletter⟩ := exists_mem_of_forall₂ hletters hmem
    exact hkey word hword w hw (sameLetter_iff.1 hletter)
  have hgap : c ∉ parts.gap := fun hmem => by simp [hblank c (Or.inl hmem)] at hc
  have htail : c ∉ parts.tail := fun hmem => by simp [hblank c (Or.inr hmem)] at hc
  rw [mem_strip_iff hc, ← mem_stripLeft_iff hc, ← hline]
  simp [hkeyword, hgap, htail]

/-! ## Calls are steps -/

/-- No call's keyword begins with the letters of another keyword, or they with its letters. -/
theorem eq_of_letterKey_prefix : ∀ word ∈ callKeywords, ∀ other ∈ stepKeywords,
    other.map letterKey <+: word.map letterKey ∨ word.map letterKey <+: other.map letterKey →
      other = word := by
  decide +kernel

theorem letterKey_prefix_of_afterLetters? {word text rest : Text}
    (h : afterLetters? word text = some rest) : word.map letterKey <+: text.map letterKey := by
  obtain ⟨written, hwritten, rfl⟩ := exists_of_afterLetters? h
  have hkeys : word.map letterKey = written.map letterKey := by
    clear h
    induction hwritten with
    | nil => rfl
    | cons hletter _ ih => rw [List.map_cons, List.map_cons, sameLetter_iff.1 hletter, ih]
  rw [hkeys, List.map_append]
  exact List.prefix_append _ _

/-- A line that is cut at the keyword of a call is cut there as a step. -/
theorem ofStep?_of_ofCall? {line : Text} {parts : StepLine} (h : ofCall? line = some parts) :
    ofStep? line = some parts := by
  simp only [ofCall?, parse?, Option.bind_eq_bind, Option.bind_eq_some_iff] at h
  obtain ⟨cut, hcut, hparts⟩ := h
  obtain ⟨word, hword, hmap⟩ := List.exists_of_findSome?_eq_some hcut
  obtain ⟨after, hafter, -⟩ := Option.map_eq_some_iff.1 hmap
  have hstep : cutWord? stepKeywords (stripLeft line) = some cut := by
    cases hfound : cutWord? stepKeywords (stripLeft line) with
    | none =>
        have := List.findSome?_eq_none_iff.1 hfound word (callKeywords_subset word hword)
        rw [hafter] at this
        exact absurd this (by simp)
    | some found =>
        obtain ⟨other, hother, hmap'⟩ := List.exists_of_findSome?_eq_some hfound
        obtain ⟨after', hafter', -⟩ := Option.map_eq_some_iff.1 hmap'
        have hsame := eq_of_letterKey_prefix word hword other hother
          (List.prefix_or_prefix_of_prefix (letterKey_prefix_of_afterLetters? hafter')
            (letterKey_prefix_of_afterLetters? hafter))
        rw [hsame] at hmap'
        exact hmap'.symm.trans hmap
  simp only [ofStep?, parse?, Option.bind_eq_bind, hstep, Option.bind_some]
  exact Option.bind_eq_some_iff.2 hparts

end StepLine

end Scenarist
