import Scenarist.Body
import Scenarist.Index
import Scenarist.Session
import Scenarist.Uid

set_option autoImplicit false

/-! # Regenerating declarations

The declared parameters and the declared calls of a document follow from its script. Here both sections
are written anew from the script: parameters keep the data that the document or the session knows, and
calls keep their identifiers.

Main definitions: `SectionKey.refill` (a section with new items), `regenerateParameters` and
`regenerateNested`. -/

namespace Scenarist

/-! ## Writing a section -/

/-- An item of a section as it is written: a numbered key and its fields with values in quotes. -/
def renderItem (key : SectionKey) (number : Nat) (fields : List (Field × Text)) : Text :=
  Text.unlines <|
    ("    - ".toList ++ key.name ++ Text.ofNat number ++ [':']) ::
      fields.map fun (field, value) => "        ".toList ++ field.word ++ ": ".toList ++ Scalar.quote value

/-- A text with its line feeds written as line ends of one kind. -/
def LineEnd.write (lineEnd : LineEnd) (text : Text) : Text :=
  text.flatMap fun c => if c = '\n' then lineEnd.text else [c]

/-- The content of a section that holds these items. Items begin on the line below the header, and a
blank line sets a following section off; the line feed of that line is not part of the content, so with
carriage returns in use the content ends with one. -/
def sectionContent (lineEnd : LineEnd) (hasFollowing : Bool) (items : List Text) : Text :=
  let trailing := match hasFollowing, lineEnd with
    | false, _ => []
    | true, .lf => ['\n']
    | true, .crlf => ['\r', '\n', '\r']
  if items.isEmpty then trailing
  else items.flatMap (fun item => lineEnd.text ++ lineEnd.write item) ++ trailing

/-- What became of a document whose section was written anew. -/
structure Regeneration where
  /-- Whether the text differs. -/
  changed : Bool
  text : Text
  /-- Whether the document has the section. -/
  found : Bool
  /-- The names that the section declares. -/
  items : List Text
  deriving DecidableEq, Repr

/-- A document whose section under a key holds these items, declaring these names. -/
def SectionKey.refill (key : SectionKey) (names rendered : List Text) (text : Text) : Regeneration :=
  match key.find? text with
  | none => { changed := false, text, found := false, items := names }
  | some s =>
    let content := sectionContent (LineEnd.ofText text) s.hasFollowing rendered
    { changed := content ≠ s.content, text := s.withContent content, found := true, items := names }

/-- The items that a function makes of the numbers from one on and the names. -/
def renderNumbered (render : Nat → Text → Text) (names : List Text) : List Text :=
  names.zipIdx.map fun (name, i) => render (i + 1) name

/-! ## Parameters -/

/-- Whether the declared parameters differ from those that the script uses. -/
def parametersDiffer (text : Text) (exclusions : List Text) : Bool :=
  usedParameters text exclusions ≠ Declaration.declaredParameters text

def parameterItem (data : ParameterData) (number : Nat) (name : Text) : Text :=
  renderItem .parameters number [
    (.number, Text.ofNat number),
    (.name, name),
    (.value, data.value),
    (.type, Declaration.orElse data.type ParameterData.defaultType),
    (.outgoing, Declaration.orElse data.outgoing ParameterData.defaultOutgoing)]

/-- The document with a parameter declared for each that its script uses. Their data come from the
document, then from the session, then from their names; the session remembers what the document
declares and, if the document changes, the data made up from names. -/
def regenerateParameters (session : Session) (uri text : Text) (exclusions : List Text) :
    Regeneration × Session :=
  let used := usedParameters text exclusions
  let session := session.merge uri (Declaration.parameterData text)
  let known := session.overridesOf uri
  let result := SectionKey.parameters.refill used
    (renderNumbered (fun number name =>
      parameterItem ((known.get? name).getD (ParameterData.ofName name)) number name) used) text
  let unknown := used.filter fun name => !known.has name
  (result,
    if result.changed then
      unknown.foldl (fun session name => session.remember uri name (ParameterData.ofName name)) session
    else session)

/-! ## Calls -/

/-- The scenarios that a document should declare to call: those that its script calls and the index
knows, since steps look like calls. -/
def expectedCalls (index : Index) (text : Text) : List Text :=
  (calledNames text).filter fun name => (index.lookup? name).isSome

/-- Whether the declared calls differ from the expected ones. -/
def nestedDiffer (expected : List Text) (text : Text) : Bool :=
  expected ≠ Declaration.nestedNames text

/-- The identifiers of called scenarios: that of the record, else the declared one, else a new one. -/
def resolveUids (index : Index) (declared : Table Text) :
    List Text → UidSupply → List (Text × Text) × UidSupply
  | [], supply => ([], supply)
  | name :: names, supply =>
    let known := (((index.lookup? name).bind (·.uid)).filter (!·.isEmpty)).or (declared.get? name)
    let (uid, supply) := match known with
      | some uid => (uid, supply)
      | none => supply.next
    let (rest, supply) := resolveUids index declared names supply
    ((name, uid) :: rest, supply)

/-- The document with a call declared for each scenario that it is expected to call. -/
def regenerateNested (index : Index) (supply : UidSupply) (text : Text) : Regeneration × UidSupply :=
  let names := expectedCalls index text
  let (resolved, supply) := resolveUids index (Declaration.nestedUids text) names supply
  let rendered := resolved.zipIdx.map fun ((name, uid), i) =>
    renderItem .nested (i + 1) [(.nestedUid, uid), (.nestedName, name)]
  (SectionKey.nested.refill names rendered text, supply)

end Scenarist
