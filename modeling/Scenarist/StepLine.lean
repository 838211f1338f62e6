import Scenarist.Keyword

set_option autoImplicit false

/-! # Lines that open with a keyword

A step line is blanks, a keyword in any case, blanks, and the wording. The wording runs to the end of
the line and has no line feed in it, save one that ends the text. If nothing but blanks follows the
keyword, the last of them is the wording, so the line still opens with its keyword.

Main statement: `StepLine.text_of_parse?` (the parts put together are the line). -/

namespace Scenarist

/-- A line cut at its keyword. -/
structure StepLine where
  /-- The blanks before the keyword. -/
  indent : Text
  /-- The keyword as it is written. -/
  keyword : Text
  /-- The blanks after the keyword. -/
  gap : Text
  /-- The wording. -/
  content : Text
  /-- The line feed after the wording, if there is one. -/
  tail : Text
  deriving DecidableEq, Repr

namespace StepLine

/-- The line that the parts make up. -/
def text (line : StepLine) : Text :=
  line.indent ++ line.keyword ++ line.gap ++ line.content ++ line.tail

def contentStart (line : StepLine) : Nat :=
  line.indent.length + line.keyword.length + line.gap.length

/-- A text and the line feed at its end, if there is one. -/
def cutTail (text : Text) : Text × Text :=
  if text.getLast? = some '\n' then (text.dropLast, ['\n']) else (text, [])

/-- The gap, the wording and the tail of what follows a keyword. -/
def wording? (rest : Text) : Option (Text × Text × Text) :=
  let gap := Text.leadingBlanks rest
  let body := Text.stripLeft rest
  if body.isEmpty then
    -- Only blanks: the last one that can stand in a line is the wording.
    let (blanks, tail) := cutTail gap
    match blanks.getLast? with
    | none => none
    | some c =>
      if c = '\n' || blanks.dropLast.isEmpty then none else some (blanks.dropLast, [c], tail)
  else
    let (content, tail) := cutTail body
    if gap.isEmpty || content.elem '\n' then none else some (gap, content, tail)

/-- What follows the first of the words, in any case, that a text begins with, and the word as it is
written there. -/
def cutWord? (words : List Text) (text : Text) : Option (Text × Text) :=
  words.findSome? fun word =>
    (Text.afterLetters? word text).map fun rest => (text.take (text.length - rest.length), rest)

def parse? (keywords : List Text) (line : Text) : Option StepLine := do
  let (keyword, rest) ← cutWord? keywords (Text.stripLeft line)
  let (gap, content, tail) ← wording? rest
  return ⟨Text.leadingBlanks line, keyword, gap, content, tail⟩

def ofStep? (line : Text) : Option StepLine := parse? stepKeywords line

def ofCall? (line : Text) : Option StepLine := parse? callKeywords line

/-! ## The parts make up the line -/

theorem cutTail_append (text : Text) : (cutTail text).1 ++ (cutTail text).2 = text := by
  unfold cutTail
  split
  · next h =>
    obtain ⟨front, rfl⟩ := List.getLast?_eq_some_iff.1 h
    simp
  · simp

theorem append_of_wording? {rest gap content tail : Text}
    (h : wording? rest = some (gap, content, tail)) : gap ++ content ++ tail = rest := by
  have hsplit := Text.leadingBlanks_append_stripLeft rest
  simp only [wording?] at h
  split at h
  · next hempty =>
    have hbody : Text.stripLeft rest = [] := by simpa using hempty
    have hcut := cutTail_append (Text.leadingBlanks rest)
    split at h
    · simp at h
    · next c hlast =>
      split at h
      · simp at h
      · cases h
        obtain ⟨ys, hys⟩ := List.getLast?_eq_some_iff.1 hlast
        refine Eq.trans ?_ hsplit
        rw [hbody, List.append_nil]
        refine Eq.trans ?_ hcut
        simp [hys]
  · have hcut := cutTail_append (Text.stripLeft rest)
    split at h
    · simp at h
    · cases h
      rw [List.append_assoc, hcut, hsplit]

theorem suffix_of_afterLetters? {word text rest : Text}
    (h : Text.afterLetters? word text = some rest) : rest <:+ text := by
  induction word generalizing text with
  | nil => simp_all [Text.afterLetters?]
  | cons w ws ih =>
    cases text with
    | nil => simp [Text.afterLetters?] at h
    | cons c cs =>
      simp only [Text.afterLetters?] at h
      split at h
      · exact (ih h).trans (List.suffix_cons c cs)
      · simp at h

theorem append_of_cutWord? {words : List Text} {text word rest : Text}
    (h : cutWord? words text = some (word, rest)) : word ++ rest = text := by
  obtain ⟨known, -, hmap⟩ := List.exists_of_findSome?_eq_some h
  obtain ⟨tail, htail, heq⟩ := Option.map_eq_some_iff.1 hmap
  obtain ⟨rfl, rfl⟩ : _ ∧ _ := by simpa using heq
  obtain ⟨front, rfl⟩ := suffix_of_afterLetters? htail
  simp

/-- The parts of a line make up the line. -/
theorem text_of_parse? {keywords : List Text} {line : Text} {parts : StepLine}
    (h : parse? keywords line = some parts) : parts.text = line := by
  simp only [parse?, Option.bind_eq_bind, Option.bind_eq_some_iff, Option.pure_def,
    Option.some.injEq, Prod.exists] at h
  obtain ⟨keyword, rest, hword, gap, content, tail, hwording, rfl⟩ := h
  have hrest := append_of_wording? hwording
  have hline := append_of_cutWord? hword
  simp only [text]
  rw [List.append_assoc, List.append_assoc, List.append_assoc, ← List.append_assoc gap, hrest, hline]
  exact Text.leadingBlanks_append_stripLeft line

/-! ## Keywords of a line -/

/-- The keyword of a step line and its wording, stripped; a line without a keyword is all wording. -/
def splitKeyword (line : Text) : Option Text × Text :=
  match ofStep? line with
  | some parts => (some parts.keyword, Text.strip parts.content)
  | none => (none, Text.strip line)

/-- A step line with its keyword in the given language; a line without a keyword, or with one whose
letters only resemble a keyword's, stays as it is. -/
def withKeywordOf (language : Option Language) (line : Text) : Text :=
  match ofStep? line, language with
  | some parts, some language => match Role.ofKeyword? parts.keyword with
    | some role => { parts with keyword := role.keyword language }.text
    | none => line
  | _, _ => line

end StepLine

end Scenarist
