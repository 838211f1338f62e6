import Scenarist.Text.Basic

set_option autoImplicit false

/-! # Indentation

A line is indented by the spaces and tabs it begins with; a tab counts for four spaces. Other blanks do
not indent.

Main statement: `indentWidth_expandTabs` (writing tabs as spaces keeps the width). -/

namespace Scenarist.Text

def tabWidth : Nat := 4

/-- The spaces that a character at the start of a line stands for; other characters end the
indentation. -/
def indentOf? (c : Char) : Option Nat :=
  if c = ' ' then some 1 else if c = '\t' then some tabWidth else none

def indentWidth : Text → Nat
  | [] => 0
  | c :: cs => match indentOf? c with
    | some width => width + indentWidth cs
    | none => 0

/-- A line with the tabs of its indentation written as spaces. -/
def expandTabs : Text → Text
  | [] => []
  | c :: cs => match indentOf? c with
    | some width => List.replicate width ' ' ++ expandTabs cs
    | none => c :: cs

theorem indentWidth_replicate_append (n : Nat) (text : Text) :
    indentWidth (List.replicate n ' ' ++ text) = n + indentWidth text := by
  induction n with
  | zero => simp
  | succ n ih =>
    simp only [List.replicate_succ, List.cons_append, indentWidth, indentOf?, if_pos, ih]
    omega

/-- Writing the tabs of the indentation as spaces keeps its width. -/
theorem indentWidth_expandTabs (line : Text) : indentWidth (expandTabs line) = indentWidth line := by
  induction line with
  | nil => rfl
  | cons c cs ih =>
    simp only [expandTabs, indentWidth]
    cases h : indentOf? c with
    | none => simp [indentWidth, h]
    | some width => simp [indentWidth_replicate_append, ih]

def expandLeadingTabs (text : Text) : Text := unlines ((lines text).map expandTabs)

end Scenarist.Text
