import Scenarist.Yaml.Char

set_option autoImplicit false

/-! # Quoted scalars

A scalar between double quotes knows escapes; between single quotes only a doubled quote. In both a
line break is folded: with the spaces around it, it becomes one space, and every further break stands
for itself. The reader goes through the text once, one state per character.

Main definitions: `Quoted.read` (the value of a quoted scalar and what follows it) and
`Quoted.readDocument` (the value of a text that is one quoted scalar and nothing else but spaces,
comments and line breaks). -/

namespace Scenarist.Yaml.Quoted

/-- Why a quoted scalar has no value. -/
inductive Fault where
  /-- It is not closed, or holds what may not stand in it. -/
  | malformed
  /-- An escape names a code point beyond the last one. -/
  | codePoint (code : Nat)
  deriving DecidableEq, Repr

/-- The two kinds of quotes. -/
inductive Style where
  | double
  | single
  deriving DecidableEq, Repr

def Style.quote : Style → Char
  | .double => '"'
  | .single => '\''

def Style.ofQuote? (c : Char) : Option Style :=
  if c = '"' then some .double else if c = '\'' then some .single else none

/-- Where the reader is. -/
inductive State where
  /-- Behind a character of the value. -/
  | word
  /-- Behind spaces and tabs, the last one first. -/
  | gap (spaces : Text)
  /-- Behind line breaks: what the first one stands for, unless it was escaped, and the further ones,
  the last one first. -/
  | fold (first : Option Char) (further : Text)
  /-- Behind a backslash. -/
  | escape
  /-- Inside a character code: the digits still missing and the value of those read. -/
  | code (missing value : Nat)
  deriving DecidableEq, Repr

/-- What spaces and breaks turn out to stand for once a character of the value follows. -/
def State.pending : State → Text
  | .gap spaces => spaces.reverse
  | .fold first further =>
    (match first with
      | none => []
      | some c => if c ≠ '\n' then [c] else if further.isEmpty then [' '] else []) ++ further.reverse
  | _ => []

/-- What an escape of one character stands for. -/
def escapes : List (Char × Char) := [
  ('0', '\x00'), ('a', '\x07'), ('b', '\x08'), ('t', '\t'), ('\t', '\t'), ('n', '\n'), ('v', '\x0b'),
  ('f', '\x0c'), ('r', '\r'), ('e', '\x1b'), (' ', ' '), ('"', '"'), ('\\', '\\'), ('/', '/'),
  ('N', '\u0085'), ('_', '\u00a0'), ('L', '\u2028'), ('P', '\u2029')]

/-- The number of digits in a character code after the letter that announces it. -/
def codeLengths : List (Char × Nat) := [('x', 2), ('u', 4), ('U', 8)]

/-- Whether a code is that of half of a surrogate pair. -/
def isHalf (code : Nat) : Bool := 0xd800 ≤ code && code ≤ 0xdfff

/-- The character of a code. Half of a surrogate pair is no character; U+FFFE is read in its place, which
may not stand in a stream either. -/
def ofCode (code : Nat) : Except Fault Char :=
  if 0x110000 ≤ code then .error (.codePoint code)
  else if isHalf code then .ok '\ufffe'
  else .ok (Char.ofNat code)

/-- Whether a scalar between double quotes, from inside it on, has an escape that names half of a surrogate
pair, so that its value here is not the one that it writes. -/
def namesHalf : Text → Bool
  | '\\' :: c :: rest =>
    (match codeLengths.lookup c with
      | some length =>
        ((rest.take length).foldlM (fun n d => (hexValue? d).map (16 * n + ·)) 0).any isHalf
      | none => false) || namesHalf rest
  | '"' :: _ => false
  | _ :: rest => namesHalf rest
  | [] => false

/-- A reading with more characters in front of its value. -/
def prepend (more : Text) (reading : Except Fault (Text × Text)) :
    Except Fault (Text × Text) :=
  reading.map fun (value, rest) => (more ++ value, rest)

/-- The value of a quoted scalar from inside it on, and what follows its closing quote. -/
def readFrom (style : Style) : State → Text → Except Fault (Text × Text)
  | _, [] => .error .malformed
  | .escape, '\r' :: '\n' :: rest =>
    if isSeparator rest then .error .malformed else readFrom style (.fold none []) rest
  | .escape, c :: rest =>
    if isLineBreak c then
      if isSeparator rest then .error .malformed else readFrom style (.fold none []) rest
    else match escapes.lookup c, codeLengths.lookup c with
      | some value, _ => prepend [value] (readFrom style .word rest)
      | none, some length => readFrom style (.code length 0) rest
      | none, none => .error .malformed
  | .code missing value, c :: rest => match hexValue? c with
    | none => .error .malformed
    | some digit =>
      if missing ≤ 1 then do
        let char ← ofCode (16 * value + digit)
        prepend [char] (readFrom style .word rest)
      else readFrom style (.code (missing - 1) (16 * value + digit)) rest
  | state, '\r' :: '\n' :: rest =>
    if isSeparator rest then .error .malformed
    else match state with
      | .fold first further => readFrom style (.fold first ('\n' :: further)) rest
      | _ => readFrom style (.fold (some '\n') []) rest
  | state, '\'' :: '\'' :: rest => match style with
    | .single => prepend (state.pending ++ ['\'']) (readFrom style .word rest)
    | .double => prepend (state.pending ++ ['\'', '\'']) (readFrom style .word rest)
  | state, c :: rest =>
    if isLineBreak c then
      if isSeparator rest then .error .malformed
      else match state with
        | .fold first further => readFrom style (.fold first (breakValue c :: further)) rest
        | _ => readFrom style (.fold (some (breakValue c)) []) rest
    else if isSpace c then match state with
      | .gap spaces => readFrom style (.gap (c :: spaces)) rest
      | .fold first further => readFrom style (.fold first further) rest
      | _ => readFrom style (.gap [c]) rest
    else if c = style.quote then .ok (state.pending, rest)
    else if style = .double ∧ c = '\\' then prepend state.pending (readFrom style .escape rest)
    else prepend (state.pending ++ [c]) (readFrom style .word rest)

/-- A scalar that is not closed is malformed. -/
theorem readFrom_nil (style : Style) (state : State) :
    readFrom style state [] = .error .malformed := by
  rw [readFrom]

/-- The value of the quoted scalar that a text begins with, and what follows it. -/
def read : Text → Except Fault (Text × Text)
  | [] => .error .malformed
  | c :: rest => match Style.ofQuote? c with
    | none => .error .malformed
    | some style => readFrom style .word rest

/-- Where the reader of a document's end is. -/
inductive Trail where
  /-- At the start of a line. -/
  | lineStart
  /-- Further on in a line. -/
  | inLine
  /-- In a comment. -/
  | comment
  deriving DecidableEq, Repr

/-- Whether nothing follows but spaces, comments, line breaks and document ends. -/
def isTrailing : Trail → Text → Bool
  | _, [] => true
  | .lineStart, '.' :: '.' :: '.' :: rest => atWordEnd rest && isTrailing .inLine rest
  | state, c :: rest =>
    if isLineBreak c then isTrailing .lineStart rest
    else if state = .comment then isTrailing .comment rest
    else if c = ' ' then isTrailing .inLine rest
    else c = '#' && isTrailing .comment rest

/-- The value of a text that begins with a quoted scalar, if it is nothing else. -/
def readDocument (text : Text) : Except Fault (Option Text) :=
  if !text.all isPrintable then .error .malformed
  else (read text).map fun (value, rest) => if isTrailing .inLine rest then some value else none

end Scenarist.Yaml.Quoted
