import Scenarist.Table

set_option autoImplicit false

/-! # Values of YAML documents

What a document says, once tags are resolved and aliases followed. Only what settings and step catalogs
can use is kept in full: dates, times, bytes, sets and pairs are known by their kind alone, and a mapping
has the entries whose keys are texts. -/

namespace Scenarist.Yaml

/-- A value. -/
inductive Value where
  | null
  | bool (value : Bool)
  | int (value : Int)
  | float (value : Float)
  | text (value : Text)
  | date
  | dateTime
  | bytes
  | list (items : List Value)
  | map (entries : List (Text × Value))
  | set
  | pair

namespace Value

def kind : Value → Text
  | null => "NoneType".toList
  | bool _ => "bool".toList
  | int _ => "int".toList
  | float _ => "float".toList
  | text _ => "str".toList
  | date => "date".toList
  | dateTime => "datetime".toList
  | bytes => "bytes".toList
  | list _ => "list".toList
  | map _ => "dict".toList
  | set => "set".toList
  | pair => "tuple".toList

def asText? : Value → Option Text
  | text value => some value
  | _ => none

/-- The number that a value is, whole or not. -/
def asNumber? : Value → Option Float
  | int value => some (Float.ofInt value)
  | float value => some value
  | _ => none

/-- The texts that a value lists, if it is a list of nothing else. -/
def asTexts? : Value → Option (List Text)
  | list items => items.mapM asText?
  | _ => none

def get? (key : Text) : Value → Option Value
  | map entries => Table.get? entries key
  | _ => none

end Value

end Scenarist.Yaml
