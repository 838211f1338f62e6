import Scenarist.Text.Basic

set_option autoImplicit false

/-! # JSON

The values that answers and reports consist of, and their text: on one line, or with one member to a
line. Characters beyond ASCII stand for themselves.

Main statement: `quote_oneLine` (whatever a text says, its quoted form stays on one line). -/

namespace Scenarist

/-- A JSON value; objects keep the order of their entries. -/
inductive Json where
  | null
  | bool (value : Bool)
  | number (value : Int)
  | text (value : Text)
  | list (items : List Json)
  | object (entries : List (Text × Json))

namespace Json

/-- A text, or null if there is none. -/
def optional (value : Option Text) : Json := (value.map text).getD null

def texts (values : List Text) : Json := list (values.map text)

/-! ## Quoted texts -/

/-- A character inside quotes: quotes, backslashes and control characters are escaped. -/
def quoteChar (c : Char) : Text :=
  if c = '"' then ['\\', '"']
  else if c = '\\' then ['\\', '\\']
  else if c = '\n' then ['\\', 'n']
  else if c = '\r' then ['\\', 'r']
  else if c = '\t' then ['\\', 't']
  else if c = '\x08' then ['\\', 'b']
  else if c = '\x0c' then ['\\', 'f']
  else if c.toNat < 0x20 then
    "\\u00".toList ++ [Nat.digitChar (c.toNat / 16), Nat.digitChar (c.toNat % 16)]
  else [c]

def quote (value : Text) : Text := '"' :: (value.flatMap quoteChar ++ ['"'])

/-! ## Layouts -/

/-- How the members of a list or an object are set apart. -/
inductive Layout where
  /-- All on one line. -/
  | line
  /-- Each on a line of its own, two columns further in than its list or object. -/
  | indented
  deriving DecidableEq, Repr

/-- A new line at a depth. -/
def newLine (depth : Nat) : Text := '\n' :: List.replicate (2 * depth) ' '

/-- Members between brackets; brackets around nothing stay together. -/
def Layout.frame (layout : Layout) (depth : Nat) (opening closing : Char) (members : List Text) : Text :=
  match layout with
  | .line => opening :: (Text.joinWith [',', ' '] members ++ [closing])
  | .indented =>
    if members.isEmpty then [opening, closing]
    else opening :: (newLine (depth + 1) ++ Text.joinWith (',' :: newLine (depth + 1)) members ++
      newLine depth ++ [closing])

mutual

/-- The text of a value inside so many lists and objects. -/
def render (layout : Layout) (depth : Nat) : Json → Text
  | null => "null".toList
  | bool value => if value then "true".toList else "false".toList
  | number value => Text.ofInt value
  | text value => quote value
  | list items => layout.frame depth '[' ']' (renderItems layout (depth + 1) items)
  | object entries => layout.frame depth '\x7b' '\x7d' (renderEntries layout (depth + 1) entries)

def renderItems (layout : Layout) (depth : Nat) : List Json → List Text
  | [] => []
  | item :: items => render layout depth item :: renderItems layout depth items

def renderEntries (layout : Layout) (depth : Nat) : List (Text × Json) → List Text
  | [] => []
  | (key, value) :: entries =>
    (quote key ++ ':' :: ' ' :: render layout depth value) :: renderEntries layout depth entries

end

def toText (value : Json) (layout : Layout) : Text := render layout 0 value

/-! ## Lines -/

theorem quoteChar_oneLine (c : Char) : '\n' ∉ quoteChar c := by
  unfold quoteChar
  split
  · simp
  split
  · simp
  split
  · simp
  split
  · simp
  split
  · simp
  split
  · simp
  split
  · simp
  split
  · rename_i h
    have digit : ∀ n < 16, Nat.digitChar n ≠ '\n' := by decide
    have high := digit (c.toNat / 16) (by omega)
    have low := digit (c.toNat % 16) (by omega)
    simp [Ne.symm high, Ne.symm low]
  · rename_i h _ _ _ _ _
    simpa using Ne.symm h

/-- A quoted text stays on one line. -/
theorem quote_oneLine (value : Text) : '\n' ∉ quote value := by
  simp only [quote, List.mem_cons, List.mem_append, List.mem_flatMap, not_or]
  refine ⟨by decide, ?_, by simp⟩
  rintro ⟨c, -, h⟩
  exact quoteChar_oneLine c h

end Json

end Scenarist
