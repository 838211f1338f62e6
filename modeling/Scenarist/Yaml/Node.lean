import Scenarist.Table
import Scenarist.Yaml.Kind
import Scenarist.Yaml.Timestamp
import Scenarist.Yaml.Token

set_option autoImplicit false

/-! # Nodes of YAML

The tree that the tokens of a document write: scalars, lists and mappings, each with its kind. Aliases
are followed on the way; an alias to a collection that it stands in gives an empty one.

The grammar is read off the tokens by functions that call each other, one for each construct; `fuel`
bounds how deep the calls go. -/

namespace Scenarist.Yaml

/-- A part of a document. -/
inductive Node where
  | scalar (kind : Kind) (value : Text)
  | list (kind : Kind) (items : List Node)
  | map (kind : Kind) (entries : List (Node × Node))

/-- The kind of a plain scalar, after its look. -/
def Kind.ofLook (value : Text) : Kind :=
  let isWord := fun (words : List String) => words.any fun word => word.toList == value
  if isWord Look.nulls then .null
  else if isWord (Look.bools.map (·.1)) then .bool
  else if Look.isFloat value then .float
  else if Look.isInt value then .int
  else if value = ['<', '<'] then .merge
  else if value = ['='] then .default
  else if Timestamp.isLook value then .timestamp
  else if value ∈ [['!'], ['&'], ['*']] then .unknown
  else .text

/-- A plain scalar without a tag. -/
def Node.plain (value : Text) : Node := .scalar (.ofLook value) value

def Node.empty : Node := .plain []

/-- How far the tokens of a document have been read. -/
structure Grammar where
  tokens : List Token
  /-- What the handles of tags stand for. -/
  handles : Table Text := [("!".toList, "!".toList), ("!!".toList, Kind.standard)]
  /-- The nodes that aliases can name. -/
  anchors : Table Node := []

/-- A reading of tokens: a value and the tokens that follow, or why there is none. -/
abbrev Grammar.Reader (α : Type) := Grammar → Except Quoted.Fault (α × Grammar)

namespace Grammar

def next (g : Grammar) : Token := g.tokens.head?.getD .streamEnd

def advance (g : Grammar) : Grammar := { g with tokens := g.tokens.drop 1 }

/-- Why there is no reading: the tokens end with a fault, or the next one does not fit. -/
def refuse {α : Type} (g : Grammar) : Except Quoted.Fault α :=
  match g.next with
  | .fault fault => .error fault
  | _ => .error .malformed

/-- The reading behind a token that has to come next. -/
def expect (token : Token) (g : Grammar) : Except Quoted.Fault Grammar :=
  if g.next = token then .ok g.advance else g.refuse

/-! ## Properties -/

/-- What stands in front of a node. -/
structure Properties where
  anchor : Option Text := none
  /-- The tag in full. -/
  tag : Option Text := none

/-- A tag in full. -/
def resolve? (g : Grammar) (tag : Tag.Written) : Option Text :=
  match tag.handle with
  | none => some tag.body
  | some handle => (g.handles.get? handle).map (· ++ tag.body)

/-- The properties of a node, in either order. -/
def properties : Reader Properties := fun g => do
  let anchorOf := fun g : Grammar => match g.next with
    | .anchor name => (some name, g.advance)
    | _ => (none, g)
  let tagOf := fun g : Grammar => match g.next with
    | .tag tag => (some tag, g.advance)
    | _ => (none, g)
  let (before, g) := anchorOf g
  let (tag, g) := tagOf g
  let (anchor, g) := if before.isNone then anchorOf g else (before, g)
  match tag with
  | none => return ({ anchor }, g)
  | some written => match g.resolve? written with
    | none => .error .malformed
    | some tag => return ({ anchor, tag := some tag }, g)

def Properties.isEmpty (p : Properties) : Bool := p.anchor.isNone && p.tag.isNone

/-- A tag that says nothing. -/
def Properties.isOpen (p : Properties) : Bool := p.tag.all (· = ['!'])

def Properties.scalar (p : Properties) (value : Text) (isPlain : Bool) : Node :=
  match p.tag with
  | none => if isPlain then .plain value else .scalar .text value
  | some tag => if p.isOpen then .plain value else .scalar (.ofTag tag) value

/-- The kind of a collection with these properties. -/
def Properties.kindOr (p : Properties) (otherwise : Kind) : Kind :=
  if p.isOpen then otherwise else (p.tag.map Kind.ofTag).getD otherwise

/-- The reading with a node under its anchor, which must be new. -/
def declare (p : Properties) (node : Node) (g : Grammar) : Except Quoted.Fault Grammar :=
  match p.anchor with
  | none => .ok g
  | some name =>
    if g.anchors.has name then .error .malformed
    else .ok { g with anchors := g.anchors.put name node }

/-- The reading with a finished collection under its anchor. -/
def complete (p : Properties) (node : Node) (g : Grammar) : Grammar :=
  match p.anchor with
  | none => g
  | some name => { g with anchors := g.anchors.put name node }

/-! ## Constructs -/

def leaf (p : Properties) (node : Node) : Reader Node := fun g => do return (node, ← declare p node g)

/-- A collection, which aliases inside it find empty. -/
def collection {α : Type} (p : Properties) (g : Grammar) (wrap : List α → Node)
    (content : Reader (List α)) : Except Quoted.Fault (Node × Grammar) := do
  let (items, g) ← content (← declare p (wrap []) g)
  return (wrap items, complete p (wrap items) g)

/-- Whether the next token is one of these. -/
def isNext (tokens : List Token) (g : Grammar) : Bool := g.next ∈ tokens

mutual

/-- A node. Block collections count only inside blocks, and a list that is not indented only as the value
of a mapping. -/
def node : (fuel : Nat) → (inBlock asValue : Bool) → Reader Node
  | 0, _, _, g => g.refuse
  | fuel + 1, inBlock, asValue, g => do
    if let .alias name := g.next then
      match g.anchors.get? name with
      | some node => return (node, g.advance)
      | none => .error .malformed
    else
      let (p, g) ← properties g
      match g.next with
      | .blockEntry =>
        if asValue then collection p g (.list (p.kindOr .list)) (looseItems fuel)
        else if p.isEmpty then g.refuse
        else leaf p (p.scalar [] true) g
      | .scalar value isPlain => leaf p (p.scalar value isPlain) g.advance
      | .flowSequenceStart => collection p g.advance (.list (p.kindOr .list)) (flowItems fuel true)
      | .flowMappingStart => collection p g.advance (.map (p.kindOr .map)) (flowEntries fuel true)
      | .blockSequenceStart =>
        if inBlock then collection p g.advance (.list (p.kindOr .list)) (blockItems fuel)
        else if p.isEmpty then g.refuse
        else leaf p (p.scalar [] true) g
      | .blockMappingStart =>
        if inBlock then collection p g.advance (.map (p.kindOr .map)) (blockEntries fuel)
        else if p.isEmpty then g.refuse
        else leaf p (p.scalar [] true) g
      | _ => if p.isEmpty then g.refuse else leaf p (p.scalar [] true) g

/-- A node, or an empty one in front of these tokens. -/
def nodeUnless : (fuel : Nat) → (inBlock asValue : Bool) → List Token → Reader Node
  | 0, _, _, _, g => g.refuse
  | fuel + 1, inBlock, asValue, ends, g =>
    if g.isNext ends then .ok (Node.empty, g) else node fuel inBlock asValue g

def blockItems : (fuel : Nat) → Reader (List Node)
  | 0, g => g.refuse
  | fuel + 1, g => do
    if g.next = .blockEntry then
      let (item, g) ← nodeUnless fuel true false [.blockEntry, .blockEnd] g.advance
      let (items, g) ← blockItems fuel g
      return (item :: items, g)
    else return ([], ← g.expect .blockEnd)

/-- The items of a sequence that is not indented. -/
def looseItems : (fuel : Nat) → Reader (List Node)
  | 0, g => g.refuse
  | fuel + 1, g => do
    if g.next = .blockEntry then
      let (item, g) ← nodeUnless fuel true false [.blockEntry, .key, .value, .blockEnd] g.advance
      let (items, g) ← looseItems fuel g
      return (item :: items, g)
    else return ([], g)

/-- The value behind a key, empty if there is none. -/
def valueUnless : (fuel : Nat) → (inBlock : Bool) → List Token → Reader Node
  | 0, _, _, g => g.refuse
  | fuel + 1, inBlock, ends, g =>
    if g.next = .value then nodeUnless fuel inBlock inBlock ends g.advance else .ok (Node.empty, g)

def blockEntries : (fuel : Nat) → Reader (List (Node × Node))
  | 0, g => g.refuse
  | fuel + 1, g => do
    if g.next = .key then
      let (key, g) ← nodeUnless fuel true true [.key, .value, .blockEnd] g.advance
      let (value, g) ← valueUnless fuel true [.key, .value, .blockEnd] g
      let (entries, g) ← blockEntries fuel g
      return ((key, value) :: entries, g)
    else return ([], ← g.expect .blockEnd)

/-- The items of a flow sequence up to its end. An item with a key is a mapping of one entry. -/
def flowItems : (fuel : Nat) → (first : Bool) → Reader (List Node)
  | 0, _, g => g.refuse
  | fuel + 1, first, g => do
    if g.next = .flowSequenceEnd then return ([], g.advance)
    else
      let g ← if first then .ok g else g.expect .flowEntry
      if g.next = .flowSequenceEnd then return ([], g.advance)
      else if g.next = .key then
        let (key, g) ← nodeUnless fuel false false [.value, .flowEntry, .flowSequenceEnd] g.advance
        let (value, g) ← valueUnless fuel false [.flowEntry, .flowSequenceEnd] g
        let (items, g) ← flowItems fuel false g
        return (.map .map [(key, value)] :: items, g)
      else
        let (item, g) ← node fuel false false g
        let (items, g) ← flowItems fuel false g
        return (item :: items, g)

/-- The entries of a flow mapping up to its end. A key without a mark has no value. -/
def flowEntries : (fuel : Nat) → (first : Bool) → Reader (List (Node × Node))
  | 0, _, g => g.refuse
  | fuel + 1, first, g => do
    if g.next = .flowMappingEnd then return ([], g.advance)
    else
      let g ← if first then .ok g else g.expect .flowEntry
      if g.next = .flowMappingEnd then return ([], g.advance)
      else if g.next = .key then
        let (key, g) ← nodeUnless fuel false false [.value, .flowEntry, .flowMappingEnd] g.advance
        let (value, g) ← valueUnless fuel false [.flowEntry, .flowMappingEnd] g
        let (entries, g) ← flowEntries fuel false g
        return ((key, value) :: entries, g)
      else
        let (key, g) ← node fuel false false g
        let (entries, g) ← flowEntries fuel false g
        return ((key, Node.empty) :: entries, g)

end

/-! ## Documents -/

/-- What the directives in front of a document say. -/
structure Prologue where
  hasVersion : Bool := false
  handles : Table Text := []

/-- The directives in front of a document. Only one may give the version, whose first number is one, and
only one may explain a handle. -/
def directives : List Token → Prologue → Option (Prologue × List Token)
  | .directive (.version major _) :: tokens, p =>
    if p.hasVersion || major ≠ 1 then none else directives tokens { p with hasVersion := true }
  | .directive (.handle name meaning) :: tokens, p =>
    if p.handles.has name then none
    else directives tokens { p with handles := p.handles.put name meaning }
  | .directive .other :: tokens, p => directives tokens p
  | tokens, p => some (p, tokens)

/-- Whether the tokens begin with what stands between documents. -/
def isBetween : Token → Bool
  | .directive _ | .documentStart | .documentEnd | .streamEnd => true
  | _ => false

/-- A document that begins with directives or a line of its own. -/
def markedDocument (fuel : Nat) : Reader Node := fun g =>
  match directives g.tokens {} with
  | none => .error .malformed
  | some (p, tokens) => do
    let handles := p.handles.foldl (fun handles (name, meaning) => handles.put name meaning) g.handles
    let g ← Grammar.expect .documentStart { g with tokens, handles }
    if isBetween g.next then return (Node.empty, g) else node fuel true false g

/-- The only document of a stream; none if there is nothing. -/
def stream (g : Grammar) : Except Quoted.Fault (Option Node) := do
  let fuel := 4 * g.tokens.length + 8
  match g.next with
  | .streamEnd => return none
  | first =>
    let marked := match first with
      | .directive _ | .documentStart => true
      | _ => false
    let (document, g) ← if marked then markedDocument fuel g else node fuel true false g
    let tokens := g.tokens.dropWhile (· = .documentEnd)
    let _ ← Grammar.expect .streamEnd { g with tokens }
    return some document

end Grammar

/-- The node that a text writes; none if it writes nothing. -/
def Node.ofText? (text : Text) : Except Quoted.Fault (Option Node) :=
  if text.all isPrintable then Grammar.stream { tokens := Token.ofText text } else .error .malformed

end Scenarist.Yaml
