import Scenarist.Scalar
import Scenarist.Section
import Scenarist.Text.Digit
import Scenarist.Table

set_option autoImplicit false

/-! # Declarations of a document

What a document says about itself before its script: the fields of its metadata, the parameters it
declares and the scenarios it declares to call. Values are read line by line, so that a half-edited
document still yields whatever is there; a missing section or field is absence, not an error.

Each reading comes with the raw scalars that it takes in (`scalarsOf…`), which is what a scalar without
a value can make fail. -/

namespace Scenarist

/-! ## Fields -/

/-- The fields of metadata and of declared items. -/
inductive Field where
  /-- The name of the scenario or of a parameter. -/
  | name
  /-- The identifier of the scenario. -/
  | uid
  /-- The code of the scenario. -/
  | code
  /-- The value of a parameter. -/
  | value
  /-- The type of a parameter. -/
  | type
  /-- Whether a parameter is handed back. -/
  | outgoing
  /-- The number of a declared parameter. -/
  | number
  /-- The name of a called scenario. -/
  | nestedName
  /-- The identifier of a called scenario. -/
  | nestedUid
  deriving DecidableEq, Repr

def Field.word : Field → Text
  | .name => "Имя".toList
  | .uid => "UID".toList
  | .code => "Код".toList
  | .value => "Значение".toList
  | .type => "ТипПараметра".toList
  | .outgoing => "ИсходящийПараметр".toList
  | .number => "НомерСтроки".toList
  | .nestedName => "ИмяСценария".toList
  | .nestedUid => "UIDВложенныйСценарий".toList

/-! ## Items of a list section -/

/-- An item of a list section: its line and the raw values of its fields. -/
structure ListItem where
  line : Nat
  fields : Table Text
  deriving DecidableEq, Repr

namespace ListItem

def get? (item : ListItem) (field : Field) : Option Text := item.fields.get? field.word

/-- Whether a line opens an item: a dash, the key of the item, digits, a colon, with blanks only
around the dash and at the end. -/
def isOpenedBy (itemKey line : Text) : Bool :=
  match Text.after? ['-'] (Text.stripLeft line) with
  | none => false
  | some rest => match Text.after? itemKey (Text.stripLeft rest) with
    | none => false
    | some rest => match Text.after? [':'] (rest.dropWhile Text.isDigit) with
      | none => false
      | some rest => Text.allBlank rest

/-- The field that a line writes: a word up to the first colon and what follows it, stripped. The word
does not begin with a number sign or a dash. -/
def fieldOf? (line : Text) : Option (Text × Text) :=
  let body := Text.stripLeft line
  let word := body.takeWhile (· ≠ ':')
  match body.dropWhile (· ≠ ':'), word.head? with
  | _ :: rest, some c => if c = '#' || c = '-' then none else some (word, Text.strip rest)
  | _, _ => none

/-- The items among numbered lines. `done` holds the finished ones, the last one first, and `current`
the one that is open. -/
def readFrom (itemKey : Text) :
    (done : List ListItem) → (current : Option ListItem) → List (Nat × Text) → List ListItem
  | done, current, [] => (current.toList ++ done).reverse
  | done, current, (number, line) :: rest =>
    if isOpenedBy itemKey line then readFrom itemKey (current.toList ++ done) (some ⟨number, []⟩) rest
    else match current with
      | none => readFrom itemKey done none rest
      | some item =>
        let text := Text.strip line
        if text.isEmpty || text.head? = some '#' then readFrom itemKey done (some item) rest
        else match fieldOf? line with
          | none => readFrom itemKey done (some item) rest
          | some (word, raw) =>
            readFrom itemKey done (some { item with fields := item.fields.putNew word raw }) rest

/-- The items of a list section, each with the first value of every field it writes. -/
def readAll (sectionName itemKey text : Text) : List ListItem :=
  readFrom itemKey [] none (((Section.find? sectionName text).map Section.numberedLines).getD [])

end ListItem

/-- The items of a list section; they are opened by the key of the section. -/
def SectionKey.itemsOf (key : SectionKey) (text : Text) : List ListItem :=
  ListItem.readAll key.name key.name text

/-! ## Parameters -/

/-- What a document declares about a parameter besides its name. -/
structure ParameterData where
  value : Text
  type : Text
  outgoing : Text
  deriving DecidableEq, Repr

namespace ParameterData

def defaultType : Text := "Строка".toList

def defaultOutgoing : Text := "No".toList

/-- What a parameter is taken to be if nothing is known but its name. -/
def ofName (name : Text) : ParameterData := ⟨name, defaultType, defaultOutgoing⟩

end ParameterData

namespace Declaration

/-- A text, or another one if it is empty. -/
def orElse (text otherwise : Text) : Text := if text.isEmpty then otherwise else text

/-- The raw names of the declared parameters, item by item, with the item. -/
def namedParameters (text : Text) : List (ListItem × Text) :=
  (SectionKey.parameters.itemsOf text).filterMap fun item => match item.get? .name with
    | some raw => if raw.isEmpty then none else some (item, raw)
    | none => none

/-- The declared parameters in order, repetitions included. -/
def declaredParameters (text : Text) : List Text :=
  (namedParameters text).filterMap fun (_, raw) =>
    let name := Scalar.parameterName raw
    if name.isEmpty then none else some name

/-- The declared parameters that are identifiers, with the values that call lines write for them; the
first item that declares a name counts. -/
def parameterDefaults (text : Text) : Table Text :=
  (namedParameters text).foldl (fun defaults (item, raw) =>
    let name := Scalar.parameterName raw
    if isIdentifier name then defaults.putNew name (Scalar.callValue (item.get? .value) name)
    else defaults) []

/-- The value, type and flag that an item declares; absent if it declares no value. -/
def dataOf? (item : ListItem) : Option ParameterData :=
  (item.get? .value).map fun raw => {
    value := Scalar.unquote raw
    type := orElse (Scalar.unquote ((item.get? .type).getD [])) ParameterData.defaultType
    outgoing := orElse (Scalar.unquote ((item.get? .outgoing).getD [])) ParameterData.defaultOutgoing }

/-- The parameters that are declared with a value; the first such item of a name counts. -/
def parameterData (text : Text) : Table ParameterData :=
  (namedParameters text).foldl (fun known (item, raw) =>
    let name := Scalar.parameterName raw
    match dataOf? item with
    | some data => if name.isEmpty then known else known.putNew name data
    | none => known) []

/-! ## Called scenarios -/

/-- The name of the scenario that an item declares to be called; empty if there is none. -/
def nestedName (item : ListItem) : Text :=
  Text.strip (Scalar.unquote ((item.get? .nestedName).getD []))

/-- The identifier that an item declares for the called scenario; empty if there is none. -/
def nestedUid (item : ListItem) : Text :=
  Text.strip (Scalar.unquote ((item.get? .nestedUid).getD []))

/-- The scenarios that are declared to be called, in order, repetitions included. -/
def nestedNames (text : Text) : List Text :=
  (SectionKey.nested.itemsOf text).filterMap fun item =>
    let name := nestedName item
    if name.isEmpty then none else some name

/-- The declared identifiers of called scenarios; the first one of a name counts. -/
def nestedUids (text : Text) : Table Text :=
  (SectionKey.nested.itemsOf text).foldl (fun uids item =>
    let name := nestedName item
    let uid := nestedUid item
    if name.isEmpty || uid.isEmpty then uids else uids.putNew name uid) []

/-! ## Metadata -/

/-- A metadata field that has a value: its line and the value. -/
structure FoundField where
  number : Nat
  line : Text
  value : Text
  deriving DecidableEq, Repr

/-- The lines that write a metadata field, with its raw value. -/
def metadataLines (field : Field) (text : Text) : List (Nat × Text × Text) :=
  (SectionKey.metadata.linesOf text).filterMap fun (number, line) =>
    (Text.after? (field.word ++ [':']) (Text.stripLeft line)).map fun rest =>
      (number, line, Text.strip rest)

/-- A metadata field: the first line that writes it with a value that is not blank. -/
def metadataField? (field : Field) (text : Text) : Option FoundField :=
  (metadataLines field text).findSome? fun (number, line, raw) =>
    let value := Text.strip (Scalar.unquote raw)
    if value.isEmpty then none else some ⟨number, line, value⟩

def scenarioName? (text : Text) : Option Text := (metadataField? .name text).map (·.value)

/-! ## The scalars that are read -/

/-- The scalars that `metadataField?` reads: those up to the first that is not blank. -/
def scalarsOfMetadata (field : Field) (text : Text) : List Text :=
  let raws := (metadataLines field text).map (·.2.2)
  let blank := fun raw => (Text.strip (Scalar.unquote raw)).isEmpty
  raws.takeWhile blank ++ (raws.dropWhile blank).take 1

/-- The scalars that `declaredParameters` and `parameterDefaults` read. -/
def scalarsOfParameterNames (text : Text) : List Text := (namedParameters text).map (·.2)

def scalarsOfParameterData (text : Text) : List Text :=
  ((namedParameters text).foldl (fun (raws, seen) (item, raw) =>
    match item.get? .value with
    | none => (raws, seen)
    | some value =>
      let name := Scalar.parameterName raw
      -- of an item that does not count, nothing but the name is read
      if name.isEmpty || name ∈ seen then (raws ++ [raw], seen)
      else (raws ++ [raw, value] ++ (item.get? .type).toList ++ (item.get? .outgoing).toList,
        name :: seen)) (([] : List Text), ([] : List Text))).1

def scalarsOfNestedNames (text : Text) : List Text :=
  (SectionKey.nested.itemsOf text).filterMap (·.get? .nestedName)

def scalarsOfNestedUids (text : Text) : List Text :=
  (SectionKey.nested.itemsOf text).flatMap fun item =>
    (item.get? .nestedName).toList ++ (item.get? .nestedUid).toList

end Declaration

end Scenarist
