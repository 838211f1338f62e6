import Scenarist.Declaration
import Scenarist.Metadata
import Scenarist.Path

set_option autoImplicit false

/-! # Scenario records

Everything that is known about a scenario from its document alone, with the place of the document. A
document that declares no name makes no record. -/

namespace Scenarist

/-- The place of a document. -/
structure Source where
  /-- The path of the document. -/
  uri : Text
  /-- The directory of the document as seen from the scan root; empty for the root itself and for
  documents outside it. -/
  folder : Text
  deriving DecidableEq, Repr

/-- The place that a path names, seen from a scan root. -/
def Source.ofPath (scanRoot : Option Path) (path : Path) : Source where
  uri := path.toText
  folder := match scanRoot.bind fun root => root.relativeTo? path.parent with
    | some names => Text.joinWith ['/'] names
    | none => []

/-- Where the code of a scenario stands: a line and the columns on it. -/
structure CodeSpan where
  line : Nat
  start : Nat
  stop : Nat
  deriving DecidableEq, Repr

/-- What is known about a scenario. -/
structure Record where
  name : Text
  source : Source
  uid : Option Text
  code : Option Text
  codeSpan : Option CodeSpan
  /-- The declared parameters, each once. -/
  parameters : List Text
  /-- The values that a call writes for the parameters. -/
  defaults : Table Text
  /-- The scenarios that it declares to call, each once. -/
  nestedCalls : List Text
  description : Option Text
  tab : Option Tab
  deriving DecidableEq, Repr

namespace Record

def uri (record : Record) : Text := record.source.uri

def byteOrderMark : Char := '\ufeff'

def dropMark (text : Text) : Text := if text.head? = some byteOrderMark then text.drop 1 else text

/-- The record of a document, a byte-order mark in front of it apart. -/
def ofText? (source : Source) (document : Text) : Option Record :=
  let text := dropMark document
  (Declaration.scenarioName? text).map fun name =>
    let code := Declaration.metadataField? .code text
    let defaults := Declaration.parameterDefaults text
    { name, source
      uid := (Declaration.metadataField? .uid text).map (·.value)
      code := code.map (·.value)
      codeSpan := code.map fun field =>
        ⟨field.number, (Text.leadingBlanks field.line).length, field.line.length⟩
      parameters :=
        if defaults.isEmpty then distinct (Declaration.declaredParameters text) else defaults.keys
      defaults
      nestedCalls := distinct (Declaration.nestedNames text)
      description := Description.ofText? text
      tab := Tab.ofText? text }

def scalarsOf (document : Text) : List Text :=
  let text := dropMark document
  Declaration.scalarsOfMetadata .name text ++
    (if (Declaration.scenarioName? text).isNone then []
    else Declaration.scalarsOfMetadata .uid text ++ Declaration.scalarsOfMetadata .code text ++
      Declaration.scalarsOfParameterNames text ++ Declaration.scalarsOfNestedNames text)

/-- The record of a document, refused if it takes in a scalar without a value. -/
def read (source : Source) (document : Text) : Except ScalarFault (Option Record) :=
  guardScalars (scalarsOf document) (ofText? source document)

end Record

end Scenarist
