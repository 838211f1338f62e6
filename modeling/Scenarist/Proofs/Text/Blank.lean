import Scenarist.Indent
import Scenarist.Text.Blank
import Mathlib.Data.List.Induction
import Mathlib.Data.List.TakeWhile

set_option autoImplicit false

/-! # Stripping and indentation

What stripping, trimming and the expansion of tabs do to a text whose ends are known, and that a reader
who strips a line does not see whether its tabs were expanded.

Main statements: `strip_around` (blanks around a text do not count), `expandTabs_eq` (expansion in closed
form), `expandTabs_expandTabs` and `strip_expandTabs`. -/

namespace Scenarist.Text

theorem CodeRanges.exists_of_has {ranges : CodeRanges} {n : Nat} (h : ranges.has n = true) :
    ∃ range ∈ ranges, range.1 ≤ n ∧ n ≤ range.2 := by
  induction ranges with
  | nil => simp [CodeRanges.has] at h
  | cons range ranges ih =>
      simp only [CodeRanges.has] at h
      split at h
      · simp at h
      · split at h
        · exact ⟨range, List.mem_cons_self, by omega⟩
        · obtain ⟨found, hmem, hfound⟩ := ih h
          exact ⟨found, List.mem_cons_of_mem _ hmem, hfound⟩

/-! ## Trimming the end -/

theorem dropEndWhile_concat_of_pos {p : Char → Bool} {c : Char} (h : p c = true) (text : Text) :
    dropEndWhile p (text ++ [c]) = dropEndWhile p text := by
  simp [dropEndWhile, h]

theorem dropEndWhile_concat_of_neg {p : Char → Bool} {c : Char} (h : p c = false) (text : Text) :
    dropEndWhile p (text ++ [c]) = text ++ [c] := by
  simp [dropEndWhile, h]

theorem dropEndWhile_append_of_all {p : Char → Bool} {tail : Text} (h : ∀ c ∈ tail, p c = true)
    (text : Text) : dropEndWhile p (text ++ tail) = dropEndWhile p text := by
  have h' : ∀ c ∈ tail.reverse, p c = true := fun c hc => h c (List.mem_reverse.1 hc)
  simp [dropEndWhile, List.dropWhile_append_of_pos h']

theorem dropEndWhile_subset {p : Char → Bool} {text : Text} {c : Char}
    (h : c ∈ dropEndWhile p text) : c ∈ text := by
  have := (List.dropWhile_sublist p).subset (List.mem_reverse.1 h)
  exact List.mem_reverse.1 this

theorem trimReturns_concat_return (text : Text) : trimReturns (text ++ ['\r']) = trimReturns text :=
  dropEndWhile_concat_of_pos (by simp) text

theorem trimReturns_concat {c : Char} (h : c ≠ '\r') (text : Text) :
    trimReturns (text ++ [c]) = text ++ [c] :=
  dropEndWhile_concat_of_neg (by simpa using h) text

theorem trimReturns_append_cons {c : Char} (h : c ≠ '\r') (front rest : Text) :
    trimReturns (front ++ c :: rest) = front ++ c :: trimReturns rest := by
  induction rest using List.reverseRecOn with
  | nil => exact trimReturns_concat h front
  | append_singleton rest d ih =>
      have hassoc : front ++ c :: (rest ++ [d]) = (front ++ c :: rest) ++ [d] := by simp
      by_cases hd : d = '\r'
      · rw [hassoc, hd, trimReturns_concat_return, ih, trimReturns_concat_return]
      · rw [hassoc, trimReturns_concat hd, trimReturns_concat hd, hassoc]

@[simp] theorem trimReturns_nil : trimReturns [] = [] := rfl

/-! ## Stripping -/

theorem isBlank_of_mem_space : ∀ c ∈ [' '], isBlank c = true := by
  intro c hc
  rw [List.mem_singleton.1 hc]
  decide

theorem stripLeft_append {blanks : Text} (h : ∀ c ∈ blanks, isBlank c = true) (text : Text) :
    stripLeft (blanks ++ text) = stripLeft text :=
  List.dropWhile_append_of_pos h

theorem stripLeft_cons_of_not_blank {c : Char} (h : isBlank c = false) (text : Text) :
    stripLeft (c :: text) = c :: text := by
  simp [stripLeft, h]

theorem leadingBlanks_append {blanks : Text} (h : ∀ c ∈ blanks, isBlank c = true) {c : Char}
    (hc : isBlank c = false) (text : Text) : leadingBlanks (blanks ++ c :: text) = blanks := by
  simp [leadingBlanks, List.takeWhile_append_of_pos h, hc]

theorem isBlank_of_mem_leadingBlanks {text : Text} {c : Char} (h : c ∈ leadingBlanks text) :
    isBlank c = true :=
  List.mem_takeWhile_imp h

theorem not_isBlank_head_stripLeft {text : Text} {c : Char} (h : (stripLeft text).head? = some c) :
    isBlank c = false := by
  have := List.head?_dropWhile_not isBlank text
  rw [show List.dropWhile isBlank text = stripLeft text from rfl, h] at this
  simpa using this

theorem stripLeft_stripLeft (text : Text) : stripLeft (stripLeft text) = stripLeft text := by
  cases h : stripLeft text with
  | nil => rfl
  | cons c cs => exact stripLeft_cons_of_not_blank (not_isBlank_head_stripLeft (by rw [h]; rfl)) cs

theorem stripRight_append {tail : Text} (h : ∀ c ∈ tail, isBlank c = true) (text : Text) :
    stripRight (text ++ tail) = stripRight text :=
  dropEndWhile_append_of_all h text

theorem stripRight_concat_of_not_blank {c : Char} (h : isBlank c = false) (text : Text) :
    stripRight (text ++ [c]) = text ++ [c] :=
  dropEndWhile_concat_of_neg h text

theorem stripRight_cons_of_not_blank {c : Char} (h : isBlank c = false) (text : Text) :
    stripRight (c :: text) = c :: stripRight text := by
  simp only [stripRight, dropEndWhile, List.reverse_cons, List.dropWhile_append]
  split
  · next hempty => simp [h, List.isEmpty_iff.1 hempty]
  · simp

theorem stripLeft_eq_nil_iff {text : Text} : stripLeft text = [] ↔ ∀ c ∈ text, isBlank c = true := by
  simp [stripLeft]

theorem stripLeft_append_of_ne_nil {text : Text} (h : stripLeft text ≠ []) (tail : Text) :
    stripLeft (text ++ tail) = stripLeft text ++ tail := by
  have hne : (text.dropWhile isBlank).isEmpty = false := by
    simpa [stripLeft] using h
  simp [stripLeft, List.dropWhile_append, hne]

theorem strip_append {tail : Text} (h : ∀ c ∈ tail, isBlank c = true) (text : Text) :
    strip (text ++ tail) = strip text := by
  unfold strip
  by_cases hnil : stripLeft text = []
  · have hall := stripLeft_eq_nil_iff.1 hnil
    rw [stripLeft_append hall, stripLeft_eq_nil_iff.2 h, hnil]
  · rw [stripLeft_append_of_ne_nil hnil, stripRight_append h]

theorem exists_trimReturns_append (text : Text) :
    ∃ tail, text = trimReturns text ++ tail ∧ ∀ c ∈ tail, isBlank c = true := by
  induction text using List.reverseRecOn with
  | nil => exact ⟨[], rfl, by simp⟩
  | append_singleton front c ih =>
      by_cases hc : c = '\r'
      · obtain ⟨tail, htail, hblank⟩ := ih
        refine ⟨tail ++ ['\r'], ?_, ?_⟩
        · rw [hc, trimReturns_concat_return, ← List.append_assoc, ← htail]
        · intro d hd
          rcases List.mem_append.1 hd with hd | hd
          · exact hblank d hd
          · rw [List.mem_singleton.1 hd]
            decide
      · exact ⟨[], by rw [trimReturns_concat hc, List.append_nil], by simp⟩

theorem strip_trimReturns (text : Text) : strip (trimReturns text) = strip text := by
  obtain ⟨tail, htail, hblank⟩ := exists_trimReturns_append text
  have := strip_append hblank (trimReturns text)
  rw [← htail] at this
  exact this.symm

/-- Blanks around a text are not part of what is left when it is stripped. -/
theorem strip_around {before after : Text} (hb : ∀ c ∈ before, isBlank c = true)
    (ha : ∀ c ∈ after, isBlank c = true) (text : Text) :
    strip (before ++ text ++ after) = strip text := by
  rw [strip_append ha]
  unfold strip
  rw [stripLeft_append hb]

/-- A text that neither begins nor ends with a blank is left as it is. -/
theorem strip_eq_self {text : Text} (hhead : ∀ c ∈ text.head?, isBlank c = false)
    (hlast : ∀ c ∈ text.getLast?, isBlank c = false) : strip text = text := by
  rcases List.eq_nil_or_concat text with rfl | ⟨front, d, heq⟩
  · rfl
  · rw [List.concat_eq_append] at heq
    have hd : isBlank d = false := hlast d (by simp [heq])
    have hleft : stripLeft text = text := by
      cases text with
      | nil => rfl
      | cons c cs => exact stripLeft_cons_of_not_blank (hhead c rfl) cs
    rw [strip, hleft, heq, stripRight_concat_of_not_blank hd]

theorem strip_cons_concat {c d : Char} (hc : isBlank c = false) (hd : isBlank d = false)
    (text : Text) : strip (c :: text ++ [d]) = c :: text ++ [d] := by
  refine strip_eq_self (by simp [hc]) ?_
  rw [List.getLast?_concat]
  simp [hd]

theorem strip_of_not_blank {text : Text} (h : ∀ c ∈ text, isBlank c = false) : strip text = text :=
  strip_eq_self (fun c hc => h c (List.mem_of_mem_head? hc)) fun c hc => h c (List.mem_of_mem_getLast? hc)

theorem strip_eq_nil_iff {text : Text} : strip text = [] ↔ ∀ c ∈ text, isBlank c = true := by
  constructor
  · intro h
    rw [← stripLeft_eq_nil_iff]
    rcases List.eq_nil_or_concat (stripLeft text) with hnil | ⟨front, d, hd⟩
    · exact hnil
    · rw [List.concat_eq_append] at hd
      -- Were the last character not blank, it would be left; so all of them are.
      have hall : ∀ c ∈ (stripLeft text), isBlank c = true := by
        have : (stripLeft text).reverse.dropWhile isBlank = [] := by
          simpa [strip, stripRight, dropEndWhile] using h
        intro c hc
        exact List.dropWhile_eq_nil_iff.1 this c (List.mem_reverse.2 hc)
      have := stripLeft_eq_nil_iff.2 hall
      rwa [stripLeft_stripLeft] at this
  · intro h
    rw [strip, stripLeft_eq_nil_iff.2 h]
    rfl

theorem stripRight_prefix (text : Text) : ∃ tail, text = stripRight text ++ tail ∧
    ∀ c ∈ tail, isBlank c = true := by
  refine ⟨(text.reverse.takeWhile isBlank).reverse, ?_, ?_⟩
  · have := List.takeWhile_append_dropWhile (p := isBlank) (l := text.reverse)
    rw [stripRight, dropEndWhile, ← List.reverse_append, this, List.reverse_reverse]
  · intro c hc
    exact List.mem_takeWhile_imp (List.mem_reverse.1 hc)

theorem stripLeft_suffix (text : Text) : ∃ front, text = front ++ stripLeft text ∧
    ∀ c ∈ front, isBlank c = true :=
  ⟨leadingBlanks text, (leadingBlanks_append_stripLeft text).symm,
    fun _ => isBlank_of_mem_leadingBlanks⟩

/-- A text is what is left when it is stripped, with blanks around it. -/
theorem exists_strip_around (text : Text) : ∃ before after, text = before ++ strip text ++ after ∧
    (∀ c ∈ before, isBlank c = true) ∧ ∀ c ∈ after, isBlank c = true := by
  obtain ⟨before, hbefore, hb⟩ := stripLeft_suffix text
  obtain ⟨after, hafter, ha⟩ := stripRight_prefix (stripLeft text)
  refine ⟨before, after, ?_, hb, ha⟩
  rw [List.append_assoc, strip, ← hafter]
  exact hbefore

theorem strip_strip (text : Text) : strip (strip text) = strip text := by
  obtain ⟨before, after, heq, hb, ha⟩ := exists_strip_around text
  have hstrip := strip_around hb ha (strip text)
  rw [← heq] at hstrip
  exact hstrip.symm

theorem mem_of_mem_strip {text : Text} {c : Char} (h : c ∈ strip text) : c ∈ text :=
  (List.dropWhile_sublist isBlank).subset (dropEndWhile_subset h)

/-- A character that is not blank stays. -/
theorem mem_stripLeft_iff {text : Text} {c : Char} (hc : isBlank c = false) :
    c ∈ stripLeft text ↔ c ∈ text := by
  obtain ⟨front, hfront, hblank⟩ := stripLeft_suffix text
  have hnot : c ∉ front := fun hmem => by simp [hblank c hmem] at hc
  conv_rhs => rw [hfront]
  simp [hnot]

theorem mem_strip_iff {text : Text} {c : Char} (hc : isBlank c = false) :
    c ∈ strip text ↔ c ∈ text := by
  obtain ⟨before, after, heq, hb, ha⟩ := exists_strip_around text
  have hbefore : c ∉ before := fun hmem => by simp [hb c hmem] at hc
  have hafter : c ∉ after := fun hmem => by simp [ha c hmem] at hc
  conv_rhs => rw [heq]
  simp [hbefore, hafter]

/-! ## Indentation -/

def isIndent (c : Char) : Bool := (indentOf? c).isSome

theorem isIndent_iff {c : Char} : isIndent c = true ↔ c = ' ' ∨ c = '\t' := by
  unfold isIndent indentOf?
  split
  · simp [*]
  · split <;> simp [*]

theorem isBlank_of_isIndent {c : Char} (h : isIndent c = true) : isBlank c = true := by
  rcases isIndent_iff.1 h with rfl | rfl <;> decide

theorem expandTabs_cons_of_not_indent {c : Char} (h : isIndent c = false) (text : Text) :
    expandTabs (c :: text) = c :: text := by
  have : indentOf? c = none := by simpa [isIndent] using h
  simp [expandTabs, this]

theorem expandTabs_replicate_append (n : Nat) (text : Text) :
    expandTabs (List.replicate n ' ' ++ text) = List.replicate n ' ' ++ expandTabs text := by
  induction n with
  | zero => rfl
  | succ n ih =>
      rw [List.replicate_succ, List.cons_append]
      simp [expandTabs, indentOf?, ih]

/-- Expanded, a line is its indentation in spaces and the rest of it. -/
theorem expandTabs_eq (line : Text) :
    expandTabs line = List.replicate (indentWidth line) ' ' ++ line.dropWhile isIndent := by
  induction line with
  | nil => rfl
  | cons c cs ih =>
      cases h : indentOf? c with
      | none => simp [expandTabs, indentWidth, isIndent, h]
      | some width => simp [expandTabs, indentWidth, isIndent, h, ih, ← List.replicate_append_replicate]

theorem expandTabs_dropWhile (line : Text) :
    expandTabs (line.dropWhile isIndent) = line.dropWhile isIndent := by
  cases h : line.dropWhile isIndent with
  | nil => rfl
  | cons c cs =>
      have hc := List.head?_dropWhile_not isIndent line
      rw [h] at hc
      exact expandTabs_cons_of_not_indent (by simpa using hc) cs

/-- Expanding a line a second time changes nothing. -/
theorem not_mem_expandTabs {c : Char} (hc : c ≠ ' ') {line : Text} (h : c ∉ line) :
    c ∉ expandTabs line := by
  induction line with
  | nil => exact h
  | cons d ds ih =>
      have hds : c ∉ ds := fun hmem => h (List.mem_cons_of_mem d hmem)
      rw [expandTabs]
      cases indentOf? d with
      | none => exact h
      | some width => simp [ih hds, hc]

theorem expandTabs_expandTabs (line : Text) : expandTabs (expandTabs line) = expandTabs line := by
  rw [expandTabs_eq line, expandTabs_replicate_append, expandTabs_dropWhile]

theorem stripLeft_dropWhile_isIndent (line : Text) :
    stripLeft (line.dropWhile isIndent) = stripLeft line := by
  have hsplit : line.takeWhile isIndent ++ line.dropWhile isIndent = line :=
    List.takeWhile_append_dropWhile
  have hblank : ∀ c ∈ line.takeWhile isIndent, isBlank c = true :=
    fun c hc => isBlank_of_isIndent (List.mem_takeWhile_imp hc)
  rw [← stripLeft_append hblank, hsplit]

theorem stripLeft_expandTabs (line : Text) : stripLeft (expandTabs line) = stripLeft line := by
  rw [expandTabs_eq, stripLeft_append, stripLeft_dropWhile_isIndent]
  intro c hc
  rw [List.eq_of_mem_replicate hc]
  decide

theorem strip_expandTabs (line : Text) : strip (expandTabs line) = strip line := by
  unfold strip
  rw [stripLeft_expandTabs]

theorem allBlank_iff {line : Text} : allBlank line = true ↔ strip line = [] := by
  rw [strip_eq_nil_iff]
  simp [allBlank]

theorem allBlank_expandTabs (line : Text) : allBlank (expandTabs line) = allBlank line := by
  rw [Bool.eq_iff_iff, allBlank_iff, allBlank_iff, strip_expandTabs]

/-- Expansion keeps what is written behind the indentation. -/
theorem expandTabs_append_cons {c : Char} (hc : isIndent c = false) (front rest : Text) :
    expandTabs (front ++ c :: rest) = expandTabs (front ++ [c]) ++ rest := by
  induction front with
  | nil => simp [expandTabs_cons_of_not_indent hc]
  | cons d ds ih =>
      simp only [List.cons_append, expandTabs]
      cases indentOf? d with
      | none => simp
      | some width => simp [ih]

/-- A carriage return at the end of a line is behind its indentation. -/
theorem expandTabs_concat_return (line : Text) :
    expandTabs (line ++ ['\r']) = expandTabs line ++ ['\r'] := by
  induction line with
  | nil => rfl
  | cons c cs ih =>
      simp only [List.cons_append, expandTabs]
      cases indentOf? c with
      | none => rfl
      | some width => simp [ih]

/-- Expansion leaves the last character of a line, unless it writes a tab there as spaces. -/
theorem expandTabs_concat (front : Text) (c : Char) :
    ∃ x d, expandTabs (front ++ [c]) = x ++ [d] ∧ (d = c ∨ d = ' ') := by
  induction front with
  | nil =>
      by_cases hspace : c = ' '
      · exact ⟨[], c, by rw [hspace]; rfl, Or.inl rfl⟩
      · by_cases htab : c = '\t'
        · exact ⟨List.replicate 3 ' ', ' ', by rw [htab]; rfl, Or.inr rfl⟩
        · exact ⟨[], c, by simp [expandTabs, indentOf?, hspace, htab], Or.inl rfl⟩
  | cons b bs ih =>
      obtain ⟨x, d, hx, hd⟩ := ih
      simp only [List.cons_append, expandTabs]
      cases indentOf? b with
      | none => exact ⟨b :: bs, c, rfl, Or.inl rfl⟩
      | some width => exact ⟨List.replicate width ' ' ++ x, d, by simp [hx], hd⟩

theorem trimReturns_expandTabs (line : Text) :
    trimReturns (expandTabs line) = expandTabs (trimReturns line) := by
  induction line using List.reverseRecOn with
  | nil => rfl
  | append_singleton front c ih =>
      by_cases hc : c = '\r'
      · rw [hc, expandTabs_concat_return, trimReturns_concat_return, trimReturns_concat_return, ih]
      · obtain ⟨x, d, hx, hd⟩ := expandTabs_concat front c
        have hd' : d ≠ '\r' := by
          rcases hd with rfl | rfl
          · exact hc
          · decide
        rw [trimReturns_concat hc, hx, trimReturns_concat hd']

end Scenarist.Text
