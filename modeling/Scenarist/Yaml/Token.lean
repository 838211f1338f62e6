import Scenarist.Yaml.Block
import Scenarist.Yaml.Plain
import Scenarist.Yaml.Quoted
import Scenarist.Yaml.Tag

set_option autoImplicit false

/-! # Tokens of YAML

The tokens of a text, with the structure of its blocks made explicit: where a block begins and where it
ends. A block begins where something is indented more deeply than what is around it, and ends where
something is indented less deeply.

Whether something is the key of a mapping shows only when its colon follows. So the places where a key
may have begun are remembered, at most one in each collection, and the key's token is put in there
later. -/

namespace Scenarist.Yaml

/-- A token. -/
inductive Token where
  | directive (directive : Directive)
  | documentStart
  | documentEnd
  | blockSequenceStart
  | blockMappingStart
  | blockEnd
  | flowSequenceStart
  | flowSequenceEnd
  | flowMappingStart
  | flowMappingEnd
  | blockEntry
  | flowEntry
  | key
  | value
  | alias (name : Text)
  | anchor (name : Text)
  | tag (tag : Tag.Written)
  | scalar (value : Text) (isPlain : Bool)
  | streamEnd
  /-- From here on there are no tokens. -/
  | fault (fault : Quoted.Fault)
  deriving DecidableEq, Repr

/-- A place where a key may have begun. -/
structure KeyStart where
  /-- The flow collections around it. -/
  depth : Nat
  /-- The number of tokens in front of it. -/
  tokens : Nat
  /-- Whether something in a block is wrong if it is no key. -/
  required : Bool
  index : Nat
  line : Nat
  column : Nat
  deriving DecidableEq, Repr

/-- How far a text has been read. -/
structure Lexer where
  cursor : Cursor
  /-- The tokens so far, the last one first. -/
  tokens : List Token := []
  /-- The number of flow collections around the place. -/
  depth : Nat := 0
  /-- The column of the block around the place; none is around it at -1. -/
  indent : Int := -1
  /-- The columns of the blocks around that block. -/
  outer : List Int := []
  /-- Whether a key may begin at the place. -/
  keyAllowed : Bool := true
  /-- The places where keys may have begun. -/
  keyStarts : List KeyStart := []

namespace Lexer

def inFlow (l : Lexer) : Bool := 0 < l.depth

def push (token : Token) (l : Lexer) : Lexer := { l with tokens := token :: l.tokens }

/-- The reading with a token put in behind so many tokens. -/
def insert (position : Nat) (token : Token) (l : Lexer) : Lexer :=
  let behind := l.tokens.length - position
  { l with tokens := l.tokens.take behind ++ token :: l.tokens.drop behind }

def skip (n : Nat) (l : Lexer) : Lexer := { l with cursor := l.cursor.skip n }

/-! ## Blocks -/

/-- The columns that remain open above a column, and the number of those that close. -/
def closing (column : Int) : (indent : Int) → List Int → Int × List Int × Nat
  | indent, [] => (indent, [], 0)
  | indent, next :: outer =>
    if column < indent then
      let (indent, outer, count) := closing column next outer
      (indent, outer, count + 1)
    else (indent, next :: outer, 0)

/-- The reading with the blocks closed that are indented more deeply than a column. -/
def closeBlocks (column : Int) (l : Lexer) : Lexer :=
  if l.inFlow then l
  else
    let (indent, outer, count) := closing column l.indent l.outer
    { l with indent, outer, tokens := List.replicate count .blockEnd ++ l.tokens }

def opensBlock (column : Nat) (l : Lexer) : Bool := !l.inFlow && l.indent < column

def openBlock (column : Nat) (l : Lexer) : Lexer :=
  { l with indent := column, outer := l.indent :: l.outer }

/-- The reading with a block begun here, unless one is open at this column. -/
def beginBlock (token : Token) (l : Lexer) : Lexer :=
  if l.opensBlock l.cursor.column then (l.openBlock l.cursor.column).push token else l

/-! ## Keys -/

/-- The reading without the place of this collection where a key may have begun, if there need be no
key. -/
def dropKeyStart? (l : Lexer) : Option Lexer :=
  if l.keyStarts.any fun start => start.depth = l.depth && start.required then none
  else some { l with keyStarts := l.keyStarts.filter (·.depth ≠ l.depth) }

/-- The reading with this place remembered, if a key may begin here. -/
def saveKeyStart? (l : Lexer) : Option Lexer :=
  if l.keyAllowed then
    l.dropKeyStart?.map fun l => { l with keyStarts := {
      depth := l.depth, tokens := l.tokens.length
      required := !l.inFlow && l.indent = l.cursor.column
      index := l.cursor.index, line := l.cursor.line, column := l.cursor.column } :: l.keyStarts }
  else some l

/-- Whether a key that began there can no longer end here: keys are short and stand on one line. -/
def isStale (l : Lexer) (start : KeyStart) : Bool :=
  start.line ≠ l.cursor.line || start.index + 1024 < l.cursor.index

/-- The reading without the places whose keys can no longer end. -/
def dropStale? (l : Lexer) : Option Lexer :=
  if l.keyStarts.any fun start => l.isStale start && start.required then none
  else some { l with keyStarts := l.keyStarts.filter fun start => !l.isStale start }

/-! ## Single tokens -/

/-- The reading behind a token that may be a key, made by a reader. -/
def readNode {α : Type} (reader : Cursor → Option (α × Cursor)) (token : α → Token) (l : Lexer) :
    Option Lexer := do
  let l ← l.saveKeyStart?
  let (value, cursor) ← reader l.cursor
  return { l with cursor, keyAllowed := false }.push (token value)

def readSeparator (token : Token) (l : Lexer) : Option Lexer := do
  let l ← (l.closeBlocks (-1)).dropKeyStart?
  return ({ l with keyAllowed := false }.skip 3).push token

def readDirective (l : Lexer) : Option Lexer := do
  let l ← (l.closeBlocks (-1)).dropKeyStart?
  let (directive, cursor) ← Directive.read? l.cursor.step
  return { l with cursor, keyAllowed := false }.push (.directive directive)

def openFlow (token : Token) (l : Lexer) : Option Lexer := do
  let l ← l.saveKeyStart?
  return ({ l with depth := l.depth + 1, keyAllowed := true }.skip 1).push token

def closeFlow (token : Token) (l : Lexer) : Option Lexer := do
  let l ← l.dropKeyStart?
  return ({ l with depth := l.depth - 1, keyAllowed := false }.skip 1).push token

def readFlowEntry (l : Lexer) : Option Lexer := do
  let l ← l.dropKeyStart?
  return ({ l with keyAllowed := true }.skip 1).push .flowEntry

def readBlockEntry (l : Lexer) : Option Lexer := do
  if !l.inFlow && !l.keyAllowed then none
  else
    let l ← (l.beginBlock .blockSequenceStart).dropKeyStart?
    return ({ l with keyAllowed := true }.skip 1).push .blockEntry

def readKey (l : Lexer) : Option Lexer := do
  if !l.inFlow && !l.keyAllowed then none
  else
    let l ← (l.beginBlock .blockMappingStart).dropKeyStart?
    return ({ l with keyAllowed := !l.inFlow }.skip 1).push .key

/-- The reading behind the colon of a value. If a key may have begun in this collection, it has. -/
def readValue (l : Lexer) : Option Lexer :=
  match l.keyStarts.find? (·.depth = l.depth) with
  | some start =>
    let l := { l with keyStarts := l.keyStarts.filter (·.depth ≠ l.depth), keyAllowed := false }
    let l := l.insert start.tokens .key
    let l :=
      if l.opensBlock start.column then
        (l.openBlock start.column).insert start.tokens .blockMappingStart
      else l
    some ((l.skip 1).push .value)
  | none => do
    if !l.inFlow && !l.keyAllowed then none
    else
      let l ← (l.beginBlock .blockMappingStart).dropKeyStart?
      return ({ l with keyAllowed := !l.inFlow }.skip 1).push .value

def readBlockScalar (folded : Bool) (l : Lexer) : Option Lexer := do
  let l ← l.dropKeyStart?
  let (value, cursor) ← Block.read? folded l.indent l.cursor.step
  return { l with cursor, keyAllowed := true }.push (.scalar value false)

/-- The reading behind a plain scalar. A key may begin behind the line break that follows it. -/
def readPlain (l : Lexer) : Option Lexer := do
  let l ← l.saveKeyStart?
  let (value, cursor, broken) := Plain.read l.inFlow (l.indent + 1) l.cursor
  return { l with cursor, keyAllowed := broken }.push (.scalar value true)

def readQuoted (l : Lexer) : Except Quoted.Fault Lexer :=
  match l.saveKeyStart?, Quoted.read l.cursor.rest with
  | none, _ => .error .malformed
  | _, .error fault => .error fault
  | some l, .ok (value, rest) =>
    .ok ((({ l with keyAllowed := false }).skip (l.cursor.rest.length - rest.length)).push
      (.scalar value false))

/-! ## The whole text -/

/-- The place of the next token. Comments and line breaks are passed over, and behind a line break a key
may begin, outside flow collections. `fuel` bounds the number of lines. -/
def skipToToken : (fuel : Nat) → Lexer → Lexer
  | 0, l => l
  | fuel + 1, l =>
    let cursor := l.cursor.skipComment
    match cursor.lineBreak with
    | ([], cursor) => { l with cursor }
    | (_, cursor) => skipToToken fuel { l with cursor, keyAllowed := l.keyAllowed || !l.inFlow }

/-- The reading behind one more token, which begins here and is not quoted. -/
def readToken (l : Lexer) : Option Lexer :=
  let rest := l.cursor.rest
  let next := rest.drop 1
  let first := l.cursor.column = 0
  match rest.head? with
  | none => none
  | some c =>
    if c = '%' && first then l.readDirective
    else if c = '-' && first && isSeparator rest then l.readSeparator .documentStart
    else if c = '.' && first && isSeparator rest then l.readSeparator .documentEnd
    else if c = '[' then l.openFlow .flowSequenceStart
    else if c = '{' then l.openFlow .flowMappingStart
    else if c = ']' then l.closeFlow .flowSequenceEnd
    else if c = '}' then l.closeFlow .flowMappingEnd
    else if c = ',' then l.readFlowEntry
    else if c = '-' && atWordEnd next then l.readBlockEntry
    else if c = '?' && (l.inFlow || atWordEnd next) then l.readKey
    else if c = ':' && (l.inFlow || atWordEnd next) then l.readValue
    else if c = '*' then l.readNode (fun cursor => anchorName? cursor.step) .alias
    else if c = '&' then l.readNode (fun cursor => anchorName? cursor.step) .anchor
    else if c = '!' then l.readNode Tag.read? .tag
    else if c = '|' && !l.inFlow then l.readBlockScalar false
    else if c = '>' && !l.inFlow then l.readBlockScalar true
    else if Plain.canBegin l.inFlow rest then l.readPlain
    else none

def step (l : Lexer) : Except Quoted.Fault Lexer :=
  match l.cursor.rest.head? with
  | some '\'' | some '"' => l.readQuoted
  | _ => match l.readToken with
    | some l => .ok l
    | none => .error .malformed

/-- The reading at the next token, with the blocks closed that end in front of it; nothing if a key is
missing. -/
def prepare (l : Lexer) : Option Lexer :=
  (l.skipToToken (l.cursor.rest.length + 1)).dropStale?.map fun l =>
    l.closeBlocks l.cursor.column

/-- The tokens that end a text without further characters, the last one first. -/
def finish (l : Lexer) : List Token :=
  match (l.closeBlocks (-1)).dropKeyStart? with
  | some l => .streamEnd :: l.tokens
  | none => .fault .malformed :: l.tokens

/-- The tokens of a text that goes wrong here. To tell whether something is a key, one reads on up to its
colon; so where a key may have begun, what goes wrong behind it comes in place of its own tokens. -/
def fail (fault : Quoted.Fault) (l : Lexer) : List Token :=
  let sound := (l.keyStarts.map (·.tokens)).foldl min l.tokens.length
  .fault fault :: l.tokens.drop (l.tokens.length - sound)

/-- The tokens of a text, the last one first. `fuel` bounds their number. -/
def run : (fuel : Nat) → Lexer → List Token
  | 0, l => l.fail .malformed
  | fuel + 1, l => match l.prepare with
    | none => l.fail .malformed
    | some l =>
      if l.cursor.rest.isEmpty then l.finish
      else match l.step with
        | .ok next => run fuel next
        | .error fault => l.fail fault

end Lexer

/-- The tokens of a text. A byte-order mark in front is no part of it. The last token says that the text
has ended, or why there are no more. -/
def Token.ofText (text : Text) : List Token :=
  let cursor : Cursor := { rest := text }
  let cursor := if text.head? = some '\ufeff' then cursor.step else cursor
  (Lexer.run (text.length + 2) { cursor }).reverse

end Scenarist.Yaml
