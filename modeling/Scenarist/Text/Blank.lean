import Scenarist.Text.Basic
import Scenarist.Text.CodeTable

set_option autoImplicit false

/-! # Blank characters

The white space of every script: tabs, line ends and separators, the no-break space and the ideographic
space among them; the zero-width space and the byte-order mark are not blank. -/

namespace Scenarist.Text

def blankRanges : CodeRanges := [
  (0x9, 0xd), (0x1c, 0x20), (0x85, 0x85), (0xa0, 0xa0), (0x1680, 0x1680), (0x2000, 0x200a),
  (0x2028, 0x2029), (0x202f, 0x202f), (0x205f, 0x205f), (0x3000, 0x3000)]

/-- Whether a character is white space in any script. -/
def isBlank (c : Char) : Bool := blankRanges.has c.toNat

def stripLeft (text : Text) : Text := text.dropWhile isBlank

def stripRight (text : Text) : Text := dropEndWhile isBlank text

def strip (text : Text) : Text := stripRight (stripLeft text)

def allBlank (text : Text) : Bool := text.all isBlank

def leadingBlanks (text : Text) : Text := text.takeWhile isBlank

/-- A text with every run of blanks replaced by one space; `inRun` says that the last character was a
blank. -/
private def collapseFrom : (inRun : Bool) → Text → Text
  | _, [] => []
  | inRun, c :: cs =>
    if isBlank c then (if inRun then [] else [' ']) ++ collapseFrom true cs
    else c :: collapseFrom false cs

/-- A text with every run of blanks replaced by one space. -/
def collapseBlanks (text : Text) : Text := collapseFrom false text

theorem leadingBlanks_append_stripLeft (text : Text) :
    leadingBlanks text ++ stripLeft text = text :=
  List.takeWhile_append_dropWhile

/-! ## The line breaks of every script -/

/-- Whether a character ends a line in any script. -/
def isBreak (c : Char) : Bool :=
  (0xa ≤ c.toNat && c.toNat ≤ 0xd) || (0x1c ≤ c.toNat && c.toNat ≤ 0x1e) || c.toNat = 0x85 ||
    c.toNat = 0x2028 || c.toNat = 0x2029

/-- The lines of a text as every kind of line break ends them; a carriage return and its line feed
are one break, and a break at the end begins no further line. `current` holds the line so far,
reversed. -/
private def brokenFrom : (current : Text) → Text → List Text
  | [], [] => []
  | current, [] => [current.reverse]
  | current, '\r' :: '\n' :: cs => current.reverse :: brokenFrom [] cs
  | current, c :: cs =>
    if isBreak c then current.reverse :: brokenFrom [] cs else brokenFrom (c :: current) cs

def brokenLines (text : Text) : List Text := brokenFrom [] text

end Scenarist.Text
