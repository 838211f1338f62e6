import Scenarist.Text.Basic
import Scenarist.Text.CaseTable

set_option autoImplicit false

/-! # Letter case

Two notions of "the same letters". Keywords are recognised one character at a time: two characters are
the same letter if their lower-case letters are equal or variants of one letter (`sameLetter`). Names
are compared and sorted by the full lower-case form of a text (`lower`), in which a capital may become
two characters and a sigma at the end of a word has its final form.

Main statement: `sameLetter_iff` (to be the same letter is to have the same key, hence an
equivalence). -/

namespace Scenarist.Text

/-! ## One character at a time -/

/-- The lower-case letter of a character, itself if it has none. -/
def lowerLetter (c : Char) : Char := Char.ofNat (lowerShifts.apply c.toNat)

/-- What is equal for the variants of one letter in either case. -/
def letterKey (c : Char) : Nat :=
  (letterVariants.lookup (lowerLetter c).toNat).getD (lowerLetter c).toNat

/-- Whether two characters are one letter but for case and variant. -/
def sameLetter (a b : Char) : Bool := letterKey a == letterKey b

theorem sameLetter_iff {a b : Char} : sameLetter a b = true ↔ letterKey a = letterKey b := by
  simp [sameLetter]

/-- What follows the letters of `word`, in either case, in a text that begins with them. -/
def afterLetters? : (word : Text) → Text → Option Text
  | [], text => some text
  | _ :: _, [] => none
  | w :: ws, c :: cs => if sameLetter w c then afterLetters? ws cs else none

/-- Whether a character is a letter or digit of ASCII, a Russian letter, or the low line. -/
def isKeyLetter (c : Char) : Bool :=
  ('A' ≤ c && c ≤ 'Z') || ('a' ≤ c && c ≤ 'z') || ('А' ≤ c && c ≤ 'я') || c = 'Ё' || c = 'ё' ||
    ('0' ≤ c && c ≤ '9') || c = '_'

/-! ## Whole texts -/

/-- Whether the word around a letter goes on past it: the nearest character that is not passed over
is a letter with a case. -/
private def reachesLetter : Text → Bool
  | [] => false
  | c :: cs =>
    if caseIgnorableRanges.has c.toNat then reachesLetter cs else casedRanges.has c.toNat

/-- The lower-case form of one character between the text before it, reversed, and the text after. -/
def lowerBetween (seen : Text) (c : Char) (rest : Text) : Text :=
  if c = 'Σ' then [if reachesLetter seen && !reachesLetter rest then 'ς' else 'σ']
  else if c = 'İ' then ['i', '\u0307']
  else [lowerLetter c]

/-- The lower-case form of the rest of a text, after the part `seen`, reversed. -/
def lowerFrom : (seen : Text) → Text → Text
  | _, [] => []
  | seen, c :: cs => lowerBetween seen c cs ++ lowerFrom (c :: seen) cs

def lower (text : Text) : Text := lowerFrom [] text

def titleForm (c : Char) : Text :=
  match titleExpansions.lookup c.toNat with
  | some codes => codes.map Char.ofNat
  | none => [Char.ofNat (titleShifts.apply c.toNat)]

/-- A text whose first character has its title-case form and whose others are lower-case. -/
def capitalize : Text → Text
  | [] => []
  | c :: cs => titleForm c ++ lowerFrom [c] cs

end Scenarist.Text
