set_option autoImplicit false

/-! # `Text` — text as a list of code points

Everything the engine reads or writes is a `Text`: offsets, columns and widths count code points, so
a position is a list position and a slice is `take` and `drop`. This module holds the operations that
do not depend on a character class: splitting and joining, searching, replacing, padding.

Main statements: `unlines_lines` (cutting into lines loses nothing) and `lines_ne_nil` (even the empty
text has one line).
-/

namespace Scenarist

/-- A text: its code points in order. -/
abbrev Text := List Char

instance : LawfulBEq Text := inferInstanceAs (LawfulBEq (List Char))

namespace Text

/-! ## Splitting and joining -/

/-- The pieces of a text between the occurrences of `sep`: `n` separators give `n + 1` pieces. -/
def splitOn (sep : Char) : Text → List Text
  | [] => [[]]
  | c :: cs =>
    if c = sep then [] :: splitOn sep cs
    else match splitOn sep cs with
      | [] => [[c]]
      | piece :: pieces => (c :: piece) :: pieces

def splitOnCrlf : Text → List Text
  | [] => [[]]
  | '\r' :: '\n' :: cs => [] :: splitOnCrlf cs
  | c :: cs => match splitOnCrlf cs with
      | [] => [[c]]
      | piece :: pieces => (c :: piece) :: pieces

/-- The lines of a text as its line feeds cut it; a carriage return stays with its line. -/
def lines (text : Text) : List Text := splitOn '\n' text

def joinWith (sep : Text) (texts : List Text) : Text := sep.intercalate texts

def unlines (texts : List Text) : Text := joinWith ['\n'] texts

theorem splitOn_ne_nil (sep : Char) (text : Text) : splitOn sep text ≠ [] := by
  induction text with
  | nil => simp [splitOn]
  | cons c cs ih =>
    simp only [splitOn]
    split
    · simp
    · cases h : splitOn sep cs <;> simp

theorem lines_ne_nil (text : Text) : lines text ≠ [] := splitOn_ne_nil '\n' text

theorem joinWith_splitOn (sep : Char) (text : Text) : joinWith [sep] (splitOn sep text) = text := by
  induction text with
  | nil => simp [splitOn, joinWith, List.intercalate]
  | cons c cs ih =>
    have hne := splitOn_ne_nil sep cs
    simp only [splitOn]
    split
    · next h =>
      cases hs : splitOn sep cs with
      | nil => exact absurd hs hne
      | cons piece pieces =>
        rw [hs] at ih
        simpa [joinWith, List.intercalate, h] using ih
    · cases hs : splitOn sep cs with
      | nil => exact absurd hs hne
      | cons piece pieces =>
        rw [hs] at ih
        cases pieces <;> simpa [joinWith, List.intercalate] using ih

/-- Cutting a text into lines and joining them again gives the text back. -/
theorem unlines_lines (text : Text) : unlines (lines text) = text := joinWith_splitOn '\n' text

/-! ## Searching and replacing -/

/-- What follows `start` in a text that begins with it. -/
def after? : (start : Text) → Text → Option Text
  | [], text => some text
  | _ :: _, [] => none
  | p :: ps, c :: cs => if p = c then after? ps cs else none

def startsWith (start text : Text) : Bool := (after? start text).isSome

def endsWith (tail text : Text) : Bool := startsWith tail.reverse text.reverse

/-- The parts of a text around the first occurrence of `needle`, the later one without it. -/
def cutAt? (needle : Text) : Text → Option (Text × Text)
  | [] => (after? needle []).map ([], ·)
  | c :: cs => match after? needle (c :: cs) with
    | some rest => some ([], rest)
    | none => (cutAt? needle cs).map fun (before, rest) => (c :: before, rest)

def contains (needle text : Text) : Bool := (cutAt? needle text).isSome

/-- The part of a text before the first occurrence of `needle`, or all of it. -/
def before (needle text : Text) : Text := ((cutAt? needle text).map (·.1)).getD text

/-- Every occurrence of the pair `a b`, from the left, replaced by the one character `c`. -/
def replacePair (a b c : Char) : Text → Text
  | x :: y :: rest =>
    if x = a ∧ y = b then c :: replacePair a b c rest else x :: replacePair a b c (y :: rest)
  | rest => rest

/-- The cuts of a text at every occurrence of a non-empty needle, from the left; `fuel` bounds their
number. -/
private def cutsWithin (needle : Text) : (fuel : Nat) → Text → List Text
  | 0, text => [text]
  | fuel + 1, text => match cutAt? needle text with
    | some (head, rest) => head :: cutsWithin needle fuel rest
    | none => [text]

/-- Every occurrence of `old`, from the left, replaced by `new`. An empty `old` occurs before every
character and at the end. -/
def replaceAll (old new text : Text) : Text :=
  if old.isEmpty then new ++ text.flatMap (· :: new)
  else joinWith new (cutsWithin old text.length text)

/-! ## Trimming and padding -/

/-- A text without its trailing characters of a class. -/
def dropEndWhile (p : Char → Bool) (text : Text) : Text := (text.reverse.dropWhile p).reverse

def trimReturns (line : Text) : Text := dropEndWhile (· = '\r') line

/-- A text padded with spaces on the right to at least `width` characters. -/
def padRight (width : Nat) (text : Text) : Text :=
  text ++ List.replicate (width - text.length) ' '

/-- The characters of a text from offset `start` up to offset `stop`. -/
def slice (start stop : Nat) (text : Text) : Text := (text.take stop).drop start

/-! ## Numbers -/

def ofNat (n : Nat) : Text := Nat.toDigits 10 n

/-- The decimal digits of a number after its sign, if it is negative. -/
def ofInt : Int → Text
  | .ofNat n => ofNat n
  | .negSucc n => '-' :: ofNat (n + 1)

end Text

/-! ## Line ends -/

/-- The two ways in which a line of a document ends. -/
inductive LineEnd where
  /-- A line feed alone. -/
  | lf
  /-- A carriage return and a line feed. -/
  | crlf
  deriving DecidableEq, Repr

namespace LineEnd

/-- The line end a text uses: a single carriage-return line-feed pair makes it `crlf`. -/
def ofText (text : Text) : LineEnd := if Text.contains ['\r', '\n'] text then .crlf else .lf

def text : LineEnd → Text
  | .lf => ['\n']
  | .crlf => ['\r', '\n']

/-- The pieces of a text between the line ends of one kind. -/
def split : LineEnd → Text → List Text
  | .lf => Text.lines
  | .crlf => Text.splitOnCrlf

end LineEnd

end Scenarist
