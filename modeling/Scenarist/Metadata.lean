import Scenarist.Scalar
import Scenarist.Section
import Scenarist.Table
import Scenarist.Text.Digit

set_option autoImplicit false

/-! # Extended metadata

The tab that a scenario is grouped under and its description. A tab is written in the extended
metadata, below `PhaseSwitcher:`, or in comment lines anywhere in the document; key by key, the
extended metadata win. A description is a scalar on its line or a block of deeper lines below it. -/

namespace Scenarist

/-! ## Tabs -/

/-- The tab that a scenario is grouped under. Without an order it comes last. -/
structure Tab where
  name : Text
  enabled : Bool
  order : Option Int
  deriving DecidableEq, Repr

namespace Tab

/-- The keys that describe a tab. -/
inductive Key where
  | tab
  | enabled
  | order
  deriving DecidableEq, Repr

def Key.word : Key → Text
  | .tab => "Tab".toList
  | .enabled => "Default".toList
  | .order => "OrderOnTab".toList

/-- The key, followed by a colon, that a text begins with, and the value behind it, stripped. -/
def entryOf? (text : Text) : Option (Key × Text) :=
  [Key.tab, .enabled, .order].findSome? fun key =>
    (Text.after? (key.word ++ [':']) text).map fun rest => (key, Text.strip rest)

def entryOfComment? (line : Text) : Option (Key × Text) := do
  let rest ← Text.after? ['#'] (Text.stripLeft line)
  let rest ← Text.after? "PhaseSwitcher_".toList (Text.stripLeft rest)
  entryOf? rest

def commentEntries (text : Text) : List (Key × Text) :=
  (Text.lines text).filterMap fun line => entryOfComment? (Text.trimReturns line)

/-- The entries below the line that opens the block: its lines are indented deeper than that line,
at `width`; the first other line ends it. -/
def blockEntries (width : Nat) : List (Nat × Text) → List (Key × Text)
  | [] => []
  | (_, line) :: rest =>
    let text := Text.strip line
    if text.isEmpty || text.head? = some '#' then blockEntries width rest
    else if Text.indentWidth line ≤ width then []
    else (entryOf? text).toList ++ blockEntries width rest

/-- The entries of the first block among the lines of the extended metadata. -/
def sectionEntries : List (Nat × Text) → List (Key × Text)
  | [] => []
  | (_, line) :: rest =>
    if Text.strip line = "PhaseSwitcher:".toList then blockEntries (Text.indentWidth line) rest
    else sectionEntries rest

def lastValue (entries : List (Key × Text)) (key : Key) : Text :=
  (entries.reverse.lookup key).getD []

/-- The number that a text begins with, after blanks and an optional sign. -/
def leadingInt? (text : Text) : Option Int :=
  let text := Text.stripLeft text
  let signed := text.head? = some '+' || text.head? = some '-'
  let digits := ((if signed then text.drop 1 else text)).takeWhile Text.isDigit
  if digits.isEmpty then none
  else if text.head? = some '-' then some (-(Text.digitsValue digits : Int))
  else some (Text.digitsValue digits)

/-- The tab of a document; absent unless it has a name. -/
def ofText? (text : Text) : Option Tab :=
  let entries := commentEntries text ++ sectionEntries (SectionKey.extended.linesOf text)
  let value := fun key => Scalar.unquotePlainly (lastValue entries key)
  if (value .tab).isEmpty then none
  else some {
    name := value .tab
    enabled := Text.lower (value .enabled) == "true".toList
    order := leadingInt? (value .order) }

end Tab

/-! ## Descriptions -/

namespace Description

/-- The word that opens a description. -/
def word : Text := "Описание:".toList

/-- A description without blanks around it; lines of a single dash are a placeholder and say
nothing. -/
def normalize (value : Text) : Text :=
  let value := Text.strip value
  let lines := ((Text.lines value).map Text.strip).filter (!·.isEmpty)
  if !lines.isEmpty && lines.all (· == ['-']) then [] else value

/-- Lines moved to the left by the indentation that all of them share; blank lines become empty. -/
def dedent (lines : List Text) : List Text :=
  match ((lines.filter (!Text.allBlank ·)).map Text.indentWidth).min? with
  | none => lines
  | some width => lines.map fun line => if Text.allBlank line then [] else line.drop width

/-- The lines of a block: blank ones and those indented deeper than `width`, up to the first other
line. -/
def blockLines (width : Nat) (lines : List (Nat × Text)) : List Text :=
  (lines.takeWhile fun (_, line) => Text.allBlank line || width < Text.indentWidth line).map
    fun (_, line) => Text.expandTabs line

/-- The description among the lines of the extended metadata. -/
def find? : List (Nat × Text) → Option Text
  | [] => none
  | (_, line) :: rest => match Text.after? word (Text.strip line) with
    | none => find? rest
    | some raw =>
      let raw := Text.strip raw
      if raw.head? = some '|' || raw.head? = some '>' then
        some (normalize (Text.unlines (dedent (blockLines (Text.indentWidth line) rest))))
      else some (normalize (Scalar.unquotePlainly raw))

/-- The description of a document: empty if only a placeholder stands there, absent if the document
has no such field. -/
def ofText? (text : Text) : Option Text := find? (SectionKey.extended.linesOf text)

end Description

end Scenarist
