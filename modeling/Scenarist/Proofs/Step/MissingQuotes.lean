import Scenarist.Proofs.Step.Instance

set_option autoImplicit false

/-! # Why a line is said to lack quotes

A line without quotes is compared with the wording between the placeholders of a template, letter by letter, and what
is left between is taken for the arguments. The line with these in quotes renders the template; the comparison of an
instance with its template is the wider one, for it takes any run of blanks for another.

Main statement: `Template.exists_marked_of_lacksQuotes`. -/

namespace Scenarist.Template

open Text

/-- A text with some of its substrings marked. -/
structure Marked where
  /-- What stands before the first of them. -/
  front : Text
  /-- Each of them, with what stands behind it and before the next. -/
  cuts : List (Text × Text)

namespace Marked

def text (marked : Marked) : Text := marked.front ++ marked.cuts.flatMap fun cut => cut.1 ++ cut.2

def quoted (marked : Marked) : Text :=
  marked.front ++ marked.cuts.flatMap fun cut => '"' :: (cut.1 ++ ['"']) ++ cut.2

end Marked

def placeholdersOf (pieces : List Piece) : List Text :=
  pieces.filterMap fun piece => match piece with
    | .placeholder text => some text
    | .letter _ => none

def placeholders (template : Text) : List Text := placeholdersOf (pieces template)

theorem placeholdersOf_map_letter (letters : Text) : placeholdersOf (letters.map .letter) = [] := by
  induction letters with
  | nil => rfl
  | cons c cs ih => exact ih

/-- What is cut off a template has no placeholders. -/
theorem placeholders_stripKeyword (template : Text) : placeholders (stripKeyword template) = placeholders template := by
  obtain ⟨before, keyword, after, hpieces, -⟩ := exists_pieces_around template
  have hletters := placeholdersOf_map_letter (before ++ keyword)
  have hletters' := placeholdersOf_map_letter after
  rw [placeholders, placeholders, hpieces]
  unfold placeholdersOf at *
  rw [List.filterMap_append, List.filterMap_append, hletters, hletters', List.nil_append, List.append_nil]

/-! ## Reading the arguments -/

theorem exists_partsOf_eq_cons (pieces : List Piece) : ∃ part parts, partsOf pieces = part :: parts := by
  cases pieces with
  | nil => exact ⟨_, _, rfl⟩
  | cons piece rest =>
      cases piece with
      | placeholder text => exact ⟨_, _, rfl⟩
      | letter c =>
          rw [partsOf]
          split <;> exact ⟨_, _, rfl⟩

/-- An argument is what stands before the place where a reading succeeds. -/
theorem exists_of_shortest {reading : Text → Option (List Text)} {taken text : Text} {found : List Text}
    (h : shortest reading taken text = some found) :
    ∃ argument rest found', text = argument ++ rest ∧ reading rest = some found' ∧
      found = (taken.reverse ++ argument) :: found' := by
  induction text generalizing taken with
  | nil => simp [shortest] at h
  | cons c cs ih =>
      simp only [shortest] at h
      split at h
      · split at h
        · next found' hreading =>
          obtain rfl := Option.some.inj h
          exact ⟨[c], cs, found', rfl, hreading, by simp⟩
        · obtain ⟨argument, rest, found', rfl, hreading, rfl⟩ := ih h
          exact ⟨c :: argument, rest, found', rfl, hreading, by simp⟩
      · simp at h

/-- A letter of the first part is a letter of the text. -/
theorem exists_of_bareArguments?_letter {c : Char} {part : Text} {parts : List Text} {text : Text} {found : List Text}
    (h : bareArguments? ((c :: part) :: parts) text = some found) :
    ∃ d rest, text = d :: rest ∧ sameLetter c d = true ∧ bareArguments? (part :: parts) rest = some found := by
  cases text with
  | nil => cases parts <;> simp [bareArguments?, afterLetters?] at h
  | cons d rest =>
      cases hsame : sameLetter c d with
      | false => cases parts <;> simp [bareArguments?, afterLetters?, hsame] at h
      | true =>
          refine ⟨d, rest, rfl, hsame, ?_⟩
          cases parts <;> simpa only [bareArguments?, afterLetters?, hsame, if_true] using h

/-- The arguments that are read without quotes are substrings of the text, one for each placeholder; in quotes, they
make the text render the pieces. -/
theorem exists_marked_of_bareArguments? {pieces : List Piece} {text : Text} {found : List Text} (hquote : '"' ∉ text)
    (hbackslash : '\\' ∉ text) (h : bareArguments? (partsOf pieces) text = some found) :
    ∃ marked : Marked, marked.text = text ∧ marked.cuts.map Prod.fst = found ∧
      found.length = (placeholdersOf pieces).length ∧ Renders (sameLetter · ·) pieces marked.quoted := by
  induction pieces generalizing text found with
  | nil =>
      simp only [partsOf, bareArguments?, afterLetters?] at h
      split at h
      · next hnil =>
        obtain rfl := Option.some.inj h
        obtain rfl := Option.some.inj hnil
        exact ⟨⟨[], []⟩, rfl, rfl, rfl, .nil⟩
      · simp at h
  | cons piece pieces ih =>
      obtain ⟨part, parts, hparts⟩ := exists_partsOf_eq_cons pieces
      rw [hparts] at ih
      cases piece with
      | letter c =>
          simp only [partsOf, hparts] at h
          obtain ⟨d, rest, rfl, hsame, hrest⟩ := exists_of_bareArguments?_letter h
          simp only [List.mem_cons, not_or] at hquote hbackslash
          obtain ⟨⟨front, cuts⟩, htext, hfound, hcount, hrenders⟩ := ih hquote.2 hbackslash.2 hrest
          exact ⟨⟨d :: front, cuts⟩, congrArg _ htext, hfound, hcount, .letter hsame hrenders⟩
      | placeholder placeholder =>
          simp only [partsOf, hparts, bareArguments?, afterLetters?] at h
          obtain ⟨argument, rest, found', rfl, hrest, rfl⟩ := exists_of_shortest h
          simp only [List.mem_append, not_or] at hquote hbackslash
          obtain ⟨⟨front, cuts⟩, rfl, rfl, hcount, hrenders⟩ := ih hquote.2 hbackslash.2 hrest
          have hargument : IsArgument isNameLetterVariant ('"' :: (argument ++ ['"'])) :=
            .literal (Or.inl rfl) (.of_not_mem hquote.1 hbackslash.1)
          refine ⟨⟨[], (argument, front) :: cuts⟩, ?_, rfl, congrArg Nat.succ hcount, ?_⟩
          · simp [Marked.text]
          · have hquoted := @Renders.placeholder _ placeholder _ _ _ hargument hrenders
            simpa [Marked.quoted] using hquoted

/-- A line that is said to lack quotes has, for one of the templates, as many substrings as the template has
placeholders that turn it into an instance when they are put in quotes; not all of them are blank. -/
theorem exists_marked_of_lacksQuotes {line : Text} {templates : List Text} (hline : '\\' ∉ line)
    (htemplates : ∀ template ∈ templates, '\\' ∉ template ∧ '\x00' ∉ template)
    (h : lacksQuotes line templates = true) :
    ∃ template ∈ templates, ∃ marked : Marked, marked.text = stripKeyword line ∧
      marked.cuts.length = (placeholders template).length ∧ isInstance template marked.quoted = true ∧
      ∃ cut ∈ marked.cuts, allBlank cut.1 = false := by
  simp only [lacksQuotes, Bool.and_eq_true, Bool.not_eq_true', List.any_eq_true] at h
  obtain ⟨⟨⟨⟨hquote, -⟩, -⟩, -⟩, template, htemplate, -, hfound⟩ := h
  split at hfound
  · next found hbare =>
    obtain ⟨marked, htext, rfl, hcount, hrenders⟩ := exists_marked_of_bareArguments?
      (fun hc => by simp [mem_of_mem_stripKeyword hc] at hquote) (fun hc => hline (mem_of_mem_stripKeyword hc)) hbare
    obtain ⟨hbackslash, hnull⟩ := htemplates template htemplate
    obtain ⟨argument, hargument, hsolid⟩ := List.any_eq_true.1 hfound
    obtain ⟨cut, hcut, rfl⟩ := List.mem_map.1 hargument
    refine ⟨template, htemplate, marked, htext, ?_, isInstance_of_renders hbackslash hnull hrenders, cut, hcut,
      by simpa using hsolid⟩
    rw [← placeholders_stripKeyword, placeholders, ← hcount, List.length_map]
  · simp at hfound

/-- Without quotes, the two arguments are read off the wording, the first one up to the first word that follows it. -/
theorem exists_marked_of_lacksQuotes_click :
    let line := "When I click  Save in Main".toList
    let template := "Click \"%1 Button\" in \"%2 Window\"".toList
    let other := "I click \"%1 Button\" in \"%2 Window\"".toList
    '\\' ∉ line ∧ (∀ t ∈ [template, other], '\\' ∉ t ∧ '\x00' ∉ t) ∧ lacksQuotes line [template, other] = true ∧
      ∃ t ∈ [template, other], ∃ marked : Marked, marked.text = stripKeyword line ∧
        marked.cuts.length = (placeholders t).length ∧ isInstance t marked.quoted = true ∧
        ∃ cut ∈ marked.cuts, allBlank cut.1 = false := by
  intro line template other
  have hline : '\\' ∉ line := by decide
  have htemplates : ∀ t ∈ [template, other], '\\' ∉ t ∧ '\x00' ∉ t := by decide
  have hlacks : lacksQuotes line [template, other] = true := by decide +kernel
  exact ⟨hline, htemplates, hlacks, exists_marked_of_lacksQuotes hline htemplates hlacks⟩

end Scenarist.Template
