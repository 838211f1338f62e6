import Scenarist.Keyword
import Scenarist.Scalar
import Scenarist.Similarity
import Scenarist.StepLine
import Scenarist.Text.Digit
import Scenarist.Text.Word

set_option autoImplicit false

/-! # Step templates

A template is the wording of a step in which placeholders such as `"%1 Name"` stand for arguments. A
line is an instance of a template if it is the template with each placeholder replaced by a literal in
quotes or a reference in brackets. Letters match in any case, and a run of blanks matches any run of
blanks.

Main definitions: `Template.pieces` (the placeholders of a template), `Template.isInstance`,
`Template.lacksQuotes` (the line would be an instance if its arguments were quoted) and `Template.fill`
(a template with the arguments of a line).

Main statements: `exists_of_mem_argumentsOf` and `Template.mem_bareNumbers` (what is taken from a line),
`Template.pieces_of_placeholder` and `Template.pieces_of_letter` (a template is read from the left). -/

namespace Scenarist

/-- The keywords that do not belong to the wording of a step. -/
def strippedKeywords : List Text :=
  ["And", "But", "Then", "When", "Given", "If", "Но", "Тогда", "Когда", "Если", "И", "К тому же",
    "Допустим"].map String.toList

/-- The wording of a step: the line without the blanks around it and without its keyword. -/
def stripKeyword (line : Text) : Text :=
  let text := Text.strip line
  match StepLine.cutWord? strippedKeywords text with
  | some (_, rest) => if (Text.leadingBlanks rest).isEmpty then text else Text.strip rest
  | none => text

/-! ## Literals and references -/

/-- What follows the closing quote; a backslash protects the character behind it, save a line feed. -/
def afterQuote? (quote : Char) : Text → Option Text
  | [] => none
  | '\\' :: c :: cs => if c = '\n' then none else afterQuote? quote cs
  | c :: cs => if c = quote then some cs else if c = '\\' then none else afterQuote? quote cs

/-- What follows a parameter name of at least one letter and a closing bracket. -/
def afterName? (isLetter : Char → Bool) (text : Text) : Option Text :=
  match text.dropWhile isLetter, text.takeWhile isLetter with
  | ']' :: rest, _ :: _ => some rest
  | _, _ => none

/-- What follows the literal in quotes or the reference in brackets that a text begins with. -/
def afterArgument? (isLetter : Char → Bool) : Text → Option Text
  | '"' :: rest => afterQuote? '"' rest
  | '\'' :: rest => afterQuote? '\'' rest
  | '[' :: rest => afterName? isLetter rest
  | _ => none

/-- The literals and references of a text; `fuel` bounds its length. -/
private def argumentsWithin : (fuel : Nat) → Text → List Text
  | 0, _ => []
  | _, [] => []
  | fuel + 1, c :: cs => match afterArgument? isNameLetter (c :: cs) with
    | some rest =>
      (c :: cs).take (cs.length + 1 - rest.length) :: argumentsWithin fuel rest
    | none => argumentsWithin fuel cs

def argumentsOf (text : Text) : List Text := argumentsWithin text.length text

theorem suffix_of_afterQuote? {quote : Char} {text rest : Text} (h : afterQuote? quote text = some rest) :
    rest <:+ text := by
  fun_induction afterQuote? quote text with
  | case1 => simp at h
  | case2 | case5 => simp at h
  | case3 c cs _ ih => exact (ih h).trans ((List.suffix_cons c cs).trans (List.suffix_cons _ _))
  | case4 cs =>
    obtain rfl := Option.some.inj h
    exact List.suffix_cons _ _
  | case6 c cs _ _ _ ih => exact (ih h).trans (List.suffix_cons c cs)

theorem suffix_of_afterArgument? {isLetter : Char → Bool} {text rest : Text}
    (h : afterArgument? isLetter text = some rest) : rest <:+ text := by
  unfold afterArgument? at h
  split at h
  · exact (suffix_of_afterQuote? h).trans (List.suffix_cons _ _)
  · exact (suffix_of_afterQuote? h).trans (List.suffix_cons _ _)
  · next name =>
    unfold afterName? at h
    split at h
    · next hname _ =>
      obtain rfl := Option.some.inj h
      have hdrop := List.dropWhile_suffix isLetter (l := name)
      rw [hname] at hdrop
      exact (List.suffix_cons _ _).trans (hdrop.trans (List.suffix_cons _ _))
    · simp at h
  · simp at h

private theorem exists_of_mem_argumentsWithin {fuel : Nat} {text argument : Text}
    (h : argument ∈ argumentsWithin fuel text) :
    ∃ rest, afterArgument? isNameLetter (argument ++ rest) = some rest := by
  induction fuel generalizing text with
  | zero => simp [argumentsWithin] at h
  | succ fuel ih =>
    cases text with
    | nil => simp [argumentsWithin] at h
    | cons c cs =>
      simp only [argumentsWithin] at h
      split at h
      · next rest hrest =>
        rcases List.mem_cons.1 h with rfl | h
        · obtain ⟨front, hfront⟩ := suffix_of_afterArgument? hrest
          refine ⟨rest, ?_⟩
          rw [← hrest, ← hfront, show cs.length + 1 = (front ++ rest).length by rw [hfront]; rfl]
          simp
        · exact ih h
      · exact ih h

/-- What is taken from a text is read as a literal or a reference where it stands. -/
theorem exists_of_mem_argumentsOf {text argument : Text} (h : argument ∈ argumentsOf text) :
    ∃ rest, afterArgument? isNameLetter (argument ++ rest) = some rest :=
  exists_of_mem_argumentsWithin h

/-! ## Blanking arguments out -/

/-- Which spans of a text are blanked out. -/
structure Span where
  /-- The character that opens it. -/
  opening : Char
  /-- The first such character behind the opening one closes it. -/
  closing : Char
  /-- Whether something must stand in it. -/
  full : Bool

def Span.double : Span := ⟨'"', '"', false⟩

def Span.single : Span := ⟨'\'', '\'', false⟩

def Span.brackets : Span := ⟨'[', ']', true⟩

/-- What follows the span that a text begins with. -/
def Span.after? (span : Span) : Text → Option Text
  | [] => none
  | c :: cs =>
    let content := cs.takeWhile (· ≠ span.closing)
    if c = span.opening && !(span.full && content.isEmpty) then
      match cs.drop content.length with
      | _ :: rest => some rest
      | [] => none
    else none

/-- A text with the spans replaced by spaces; `fuel` bounds its length. -/
private def blankWithin (spans : List Span) : (fuel : Nat) → Text → Text
  | 0, text => text
  | _, [] => []
  | fuel + 1, c :: cs => match spans.findSome? (·.after? (c :: cs)) with
    | some rest => ' ' :: blankWithin spans fuel rest
    | none => c :: blankWithin spans fuel cs

/-- A text with every span, from the left, replaced by a space. -/
def blankSpans (spans : List Span) (text : Text) : Text := blankWithin spans text.length text

namespace Template

/-! ## Placeholders -/

/-- One piece of a template. -/
inductive Piece where
  /-- A character of the wording. -/
  | letter (c : Char)
  /-- A placeholder as it is written. -/
  | placeholder (text : Text)
  deriving DecidableEq, Repr

/-- What follows the placeholder that a text begins with: a quote, a percent sign, a number, blanks,
and anything up to the same quote. -/
def afterPlaceholder? : Text → Option Text
  | quote :: '%' :: rest =>
    let digits := rest.takeWhile Text.isDigit
    let rest := rest.dropWhile Text.isDigit
    if (quote = '"' || quote = '\'') && !digits.isEmpty && !(Text.leadingBlanks rest).isEmpty then
      match (Text.stripLeft rest).dropWhile (· ≠ quote) with
      | _ :: rest => some rest
      | [] => none
    else none
  | _ => none

/-- The pieces of a text; `fuel` bounds its length. -/
private def piecesWithin : (fuel : Nat) → Text → List Piece
  | 0, _ => []
  | _, [] => []
  | fuel + 1, c :: cs => match afterPlaceholder? (c :: cs) with
    | some rest => .placeholder ((c :: cs).take (cs.length + 1 - rest.length)) :: piecesWithin fuel rest
    | none => .letter c :: piecesWithin fuel cs

def pieces (template : Text) : List Piece := piecesWithin template.length template

theorem exists_of_afterPlaceholder? {text rest : Text} (h : afterPlaceholder? text = some rest) :
    ∃ front, front ≠ [] ∧ text = front ++ rest := by
  unfold afterPlaceholder? at h
  split at h
  · next quote body =>
    dsimp only at h
    split at h
    · split at h
      · next closing after hclosing =>
        obtain rfl := Option.some.inj h
        have hsuffix : closing :: after <:+ body := by
          rw [← hclosing]
          exact (List.dropWhile_suffix _).trans ((List.dropWhile_suffix _).trans (List.dropWhile_suffix _))
        obtain ⟨front, rfl⟩ := hsuffix
        exact ⟨quote :: '%' :: (front ++ [closing]), by simp, by simp⟩
      · simp at h
    · simp at h
  · simp at h

private theorem piecesWithin_of_le {fuel : Nat} {text : Text} (h : text.length ≤ fuel) :
    piecesWithin fuel text = pieces text := by
  -- any two amounts of fuel that are enough give the same
  have hmore : ∀ (more less : Nat) (text : Text), text.length ≤ more → text.length ≤ less →
      piecesWithin more text = piecesWithin less text := by
    intro more
    induction more with
    | zero =>
      intro less text hmore _
      obtain rfl : text = [] := List.eq_nil_of_length_eq_zero (Nat.le_zero.1 hmore)
      cases less <;> rfl
    | succ more ih =>
      intro less text hmore hless
      cases text with
      | nil => cases less <;> rfl
      | cons c cs =>
        cases less with
        | zero => simp at hless
        | succ less =>
          simp only [List.length_cons, Nat.add_le_add_iff_right] at hmore hless
          simp only [piecesWithin]
          split
          · next rest hrest =>
            obtain ⟨front, hne, hfront⟩ := exists_of_afterPlaceholder? hrest
            have hpos := List.length_pos_iff.2 hne
            have hlength := congrArg List.length hfront
            simp only [List.length_cons, List.length_append] at hlength
            rw [ih less rest (by omega) (by omega)]
          · rw [ih less cs hmore hless]
  exact hmore fuel text.length text h (Nat.le_refl _)

@[simp] theorem pieces_nil : pieces [] = [] := rfl

/-- A text that begins with a placeholder has it as its first piece. -/
theorem pieces_of_placeholder {front rest : Text} (hne : front ≠ [])
    (h : afterPlaceholder? (front ++ rest) = some rest) :
    pieces (front ++ rest) = .placeholder front :: pieces rest := by
  cases front with
  | nil => exact absurd rfl hne
  | cons c cs =>
    have hrest : rest.length ≤ (cs ++ rest).length := by simp
    have htake : (c :: (cs ++ rest)).take ((cs ++ rest).length + 1 - rest.length) = c :: cs := by
      rw [show (cs ++ rest).length + 1 - rest.length = (c :: cs).length by simp; omega, ← List.cons_append,
        List.take_left]
    rw [List.cons_append] at h ⊢
    simp only [pieces, List.length_cons, piecesWithin, h, htake]
    rw [piecesWithin_of_le hrest]
    rfl

/-- A text that begins with no placeholder has a letter as its first piece. -/
theorem pieces_of_letter {c : Char} {cs : Text} (h : afterPlaceholder? (c :: cs) = none) :
    pieces (c :: cs) = .letter c :: pieces cs := by
  simp only [pieces, List.length_cons, piecesWithin, h]

/-- Whether a template takes arguments. -/
def hasPlaceholders (template : Text) : Bool :=
  (pieces template).any fun piece => match piece with
    | .placeholder _ => true
    | .letter _ => false

/-! ## Instances -/

/-- What a part of a template matches. -/
inductive Slot where
  /-- This character in any case. -/
  | letter (c : Char)
  /-- One or more blanks. -/
  | blanks
  /-- A literal or a reference. -/
  | argument
  /-- The letter `s`, once or more. -/
  | sibilants
  deriving DecidableEq, Repr

/-- Whether a blank keeps its meaning behind a backslash. Behind one, a run that begins with another
blank is not matched by blanks but by the letter `s`. -/
def isPlainBlank (c : Char) : Bool := c = ' ' || ('\t' ≤ c && c ≤ '\r')

/-- The slots of the pieces that follow; `last` is the letter before them. A null character stands for
an argument. -/
def slotsFrom : (last : Option Char) → List Piece → List Slot
  | _, [] => []
  | _, .placeholder _ :: rest => .argument :: slotsFrom none rest
  | last, .letter c :: rest =>
    if c = '\x00' then .argument :: slotsFrom none rest
    else if Text.isBlank c then
      if last.any Text.isBlank then slotsFrom (some c) rest
      else if last = some '\\' ∧ !isPlainBlank c then .sibilants :: slotsFrom (some c) rest
      else .blanks :: slotsFrom (some c) rest
    else .letter c :: slotsFrom (some c) rest

def slots (template : Text) : List Slot := slotsFrom none (pieces (stripKeyword template))

/-- Whether a character may stand in a name, variants of letters included. -/
def isNameLetterVariant (c : Char) : Bool := isNameLetter (Char.ofNat (Text.letterKey c))

/-- Whether a test accepts what follows one or more of the letter `s`. -/
private def someSibilants (test : Text → Bool) : Text → Bool
  | [] => false
  | c :: cs => Text.sameLetter 's' c && (test cs || someSibilants test cs)

/-- Whether a text is made up as the slots say. -/
def fits : List Slot → Text → Bool
  | [], text => text.isEmpty
  | .blanks :: rest, text =>
    !(Text.leadingBlanks text).isEmpty && fits rest (Text.stripLeft text)
  | .argument :: rest, text => match afterArgument? isNameLetterVariant text with
    | some after => fits rest after
    | none => false
  | .sibilants :: rest, text => someSibilants (fits rest) text
  | .letter c :: rest, text => match text with
    | [] => false
    | x :: xs => Text.sameLetter c x && fits rest xs

def isInstance (template wording : Text) : Bool := fits (slots template) wording

/-! ## Missing quotes -/

def partsOf : List Piece → List Text
  | [] => [[]]
  | .placeholder _ :: rest => [] :: partsOf rest
  | .letter c :: rest => match partsOf rest with
    | [] => [[c]]
    | part :: parts => (c :: part) :: parts

/-- Whether a character may stand in an argument without quotes. -/
def isBareLetter (c : Char) : Bool := c != '"' && c != '\'' && c != '\r' && c != '\n'

/-- The shortest beginning of a text, of one letter at least, behind which a reading succeeds, in front
of what it reads. `taken` holds the beginning so far, the last letter first. -/
def shortest (reading : Text → Option (List Text)) : (taken : Text) → Text → Option (List Text)
  | _, [] => none
  | taken, c :: cs =>
    if isBareLetter c then match reading cs with
      | some found => some ((c :: taken).reverse :: found)
      | none => shortest reading (c :: taken) cs
    else none

/-- The arguments without quotes between the parts of a template; the text begins with the first part
and ends with the last, and each argument is as short as it can be. -/
def bareArguments? : (parts : List Text) → Text → Option (List Text)
  | [], _ => none
  | [part], text => match Text.afterLetters? part text with
    | some [] => some []
    | _ => none
  | part :: parts, text => match Text.afterLetters? part text with
    | some rest => shortest (bareArguments? parts) [] rest
    | none => none

/-- Whether a line without quotes fits one of the templates once its arguments are put in quotes. All
templates must take arguments, and one of those found must not be blank. -/
def lacksQuotes (line : Text) (templates : List Text) : Bool :=
  !line.elem '"' && !line.elem '\'' && !templates.isEmpty && templates.all hasPlaceholders &&
    templates.any fun template =>
      let parts := partsOf (pieces (stripKeyword template))
      2 ≤ parts.length && match bareArguments? parts (stripKeyword line) with
        | some found => found.any (!Text.allBlank ·)
        | none => false

/-! ## Filling in -/

/-- The numbers of a text that are words of their own; `inWord` says that a word runs up to here, and
`fuel` bounds the length of the text. -/
private def numbersWithin : (fuel : Nat) → (inWord : Bool) → Text → List Text
  | 0, _, _ => []
  | _, _, [] => []
  | fuel + 1, inWord, c :: cs =>
    if !Text.isDigit c then numbersWithin fuel (Text.isWord c) cs
    else
      let whole := (c :: cs).takeWhile Text.isDigit
      let rest := (c :: cs).dropWhile Text.isDigit
      let fraction := (rest.drop 1).takeWhile Text.isDigit
      let after := (rest.drop 1).dropWhile Text.isDigit
      if inWord then numbersWithin fuel true rest
      else if (rest.head? = some '.' || rest.head? = some ',') && !fraction.isEmpty &&
          Text.wordEnds after then
        (whole ++ rest.take 1 ++ fraction) :: numbersWithin fuel true after
      else if Text.wordEnds rest then whole :: numbersWithin fuel true rest
      else numbersWithin fuel true rest

/-- The bare numbers in the wording of a line: those outside quotes and brackets. -/
def bareNumbers (line : Text) : List Text :=
  let text := blankSpans [.double, .single, .brackets] (stripKeyword line)
  numbersWithin text.length false text

private theorem isDigit_of_mem_takeWhile {text : Text} {c : Char} (h : c ∈ text.takeWhile Text.isDigit) :
    Text.isDigit c = true :=
  List.all_eq_true.1 List.all_takeWhile c h

private theorem mem_numbersWithin {fuel : Nat} {inWord : Bool} {text number : Text}
    (h : number ∈ numbersWithin fuel inWord text) :
    ∀ c ∈ number, Text.isDigit c = true ∨ c = '.' ∨ c = ',' := by
  induction fuel generalizing inWord text with
  | zero => simp [numbersWithin] at h
  | succ fuel ih =>
    cases text with
    | nil => simp [numbersWithin] at h
    | cons d ds =>
      simp only [numbersWithin] at h
      split at h
      · exact ih h
      split at h
      · exact ih h
      split at h
      · next hpoint =>
        rcases List.mem_cons.1 h with rfl | h
        · -- the digits before the point, the point, and the digits behind it
          intro c hc
          simp only [Bool.and_eq_true, Bool.or_eq_true, decide_eq_true_eq] at hpoint
          simp only [List.mem_append] at hc
          rcases hc with (hc | hc) | hc
          · exact Or.inl (isDigit_of_mem_takeWhile hc)
          · generalize (d :: ds).dropWhile Text.isDigit = rest at hpoint hc
            cases rest with
            | nil => simp at hc
            | cons point rest =>
              obtain rfl : c = point := by simpa using hc
              exact Or.inr (by simpa using hpoint.1.1)
          · exact Or.inl (isDigit_of_mem_takeWhile hc)
        · exact ih h
      split at h
      · rcases List.mem_cons.1 h with rfl | h
        · exact fun c hc => Or.inl (isDigit_of_mem_takeWhile hc)
        · exact ih h
      · exact ih h

/-- A bare number consists of digits, a point and a comma. -/
theorem mem_bareNumbers {line number : Text} (h : number ∈ bareNumbers line) :
    ∀ c ∈ number, Text.isDigit c = true ∨ c = '.' ∨ c = ',' :=
  mem_numbersWithin h

/-- The pieces put together, placeholders replaced by the arguments while there are any, then by the
numbers in the placeholder's quotes. -/
def fillFrom : (arguments numbers : List Text) → List Piece → Text
  | _, _, [] => []
  | arguments, numbers, .letter c :: rest => c :: fillFrom arguments numbers rest
  | argument :: arguments, numbers, .placeholder _ :: rest =>
    argument ++ fillFrom arguments numbers rest
  | [], number :: numbers, .placeholder text :: rest =>
    text.take 1 ++ number ++ text.take 1 ++ fillFrom [] numbers rest
  | [], [], .placeholder text :: rest => text ++ fillFrom [] [] rest

/-- A template with the arguments of a line: its literals and references first, then its bare numbers.
Placeholders for which nothing is left stay. -/
def fill (line template : Text) : Text :=
  fillFrom (argumentsOf line) (bareNumbers line) (pieces template)

/-! ## Comparing -/

/-- Whether a character is punctuation that does not count in a comparison. -/
def isPunctuation (c : Char) : Bool :=
  c = '.' || c = ',' || c = ';' || c = ':' || c = '!' || c = '?' || c = '(' || c = ')'

/-- The wording of a step or template alone: no keyword, arguments or punctuation, one space between
words, lower case. -/
def gist (line : Text) : Text :=
  let text := (pieces (stripKeyword line)).map fun piece => match piece with
    | .letter c => c
    | .placeholder _ => ' '
  let text := blankSpans [.brackets] (blankSpans [.single] (blankSpans [.double] text))
  let text := text.map fun c => if isPunctuation c then ' ' else c
  Text.lower (Text.strip (Text.collapseBlanks text))

end Template

end Scenarist
