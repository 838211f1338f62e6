import Scenarist.Path

set_option autoImplicit false

/-! # File name patterns

A pattern with a star, a question mark or a bracket is a glob for the whole file name; any other
pattern is an ending of it. -/

namespace Scenarist

/-- One piece of a glob. -/
inductive GlobItem where
  /-- Any characters. -/
  | many
  /-- Any one character. -/
  | one
  /-- This character. -/
  | letter (c : Char)
  /-- One character inside, or outside, the ranges. -/
  | oneOf (inside : Bool) (ranges : List (Char × Char))
  deriving DecidableEq, Repr

namespace Glob

/-- The ranges that the text between brackets writes: a dash between two characters joins them. -/
def rangesOf : Text → List (Char × Char)
  | a :: '-' :: b :: rest => (a, b) :: rangesOf rest
  | c :: rest => (c, c) :: rangesOf rest
  | [] => []

/-- The item that begins behind an opening bracket, and what follows its closing bracket. A closing
bracket in the first place stands for itself. -/
def cutSet? (text : Text) : Option (GlobItem × Text) :=
  let inside := text.head? ≠ some '!'
  let text := if inside then text else text.drop 1
  let first := text.takeWhile (· = ']') |>.take 1
  let rest := text.drop first.length
  match rest.dropWhile (· ≠ ']') with
  | _ :: after => some (.oneOf inside (rangesOf (first ++ rest.takeWhile (· ≠ ']'))), after)
  | [] => none

/-- The items of a glob; `fuel` bounds their number. -/
private def itemsWithin : (fuel : Nat) → Text → List GlobItem
  | 0, _ => []
  | _, [] => []
  | fuel + 1, '*' :: rest => .many :: itemsWithin fuel rest
  | fuel + 1, '?' :: rest => .one :: itemsWithin fuel rest
  | fuel + 1, '[' :: rest => match cutSet? rest with
    | some (item, after) => item :: itemsWithin fuel after
    | none => .letter '[' :: itemsWithin fuel rest
  | fuel + 1, c :: rest => .letter c :: itemsWithin fuel rest

/-- The items of a glob. An opening bracket that is not closed stands for itself. -/
def items (glob : Text) : List GlobItem := itemsWithin glob.length glob

def GlobItem.admits (c : Char) : GlobItem → Bool
  | .many => false
  | .one => true
  | .letter l => l = c
  | .oneOf inside ranges => (ranges.any fun (first, last) => first ≤ c && c ≤ last) == inside

/-- Whether a text has an ending that a test accepts. -/
private def someEnding (test : Text → Bool) : Text → Bool
  | [] => test []
  | c :: cs => test (c :: cs) || someEnding test cs

def fits : List GlobItem → Text → Bool
  | [], text => text.isEmpty
  | .many :: rest, text => someEnding (fits rest) text
  | item :: rest, text => match text with
    | [] => false
    | c :: cs => GlobItem.admits c item && fits rest cs

end Glob

def fitsPattern (name pattern : Text) : Bool :=
  if pattern.any fun c => c = '*' || c = '?' || c = '[' then Glob.fits (Glob.items pattern) name
  else Text.endsWith pattern name

/-- Whether the last name of a path fits one of the patterns. -/
def fitsPatterns (patterns : List Text) (path : Path) : Bool :=
  patterns.any (fitsPattern path.fileName)

/-- Whether a path inside a directory can hold scenarios: it fits the patterns, or it has no extension
and so may be a directory. -/
def isTracked (cwd directory : Path) (patterns : List Text) (path : Path) : Bool :=
  Path.isWithin cwd directory path && (path.extension.isEmpty || fitsPatterns patterns path)

end Scenarist
