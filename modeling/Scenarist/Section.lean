import Scenarist.Indent
import Scenarist.Text.Case

set_option autoImplicit false

/-! # Sections of a document

A document is cut into top-level sections: a line that begins with a key and a colon opens one, and it
runs up to the next such line. A `Section` holds the raw lines around and inside it, so that the
document is its parts put together again; offsets and line numbers are read off them.

Main statements: `Section.text_of_find?` (the parts make up the document) and
`Section.text_withContent` (what replacing a section's content does to the document). -/

namespace Scenarist

/-! ## Keys -/

/-- The sections that every scenario is made of. -/
inductive SectionKey where
  /-- Name, identifiers and code of the scenario. -/
  | metadata
  /-- The declared parameters. -/
  | parameters
  /-- The declared calls of other scenarios. -/
  | nested
  /-- The script body. -/
  | script
  /-- Description and tab grouping. -/
  | extended
  deriving DecidableEq, Repr

namespace SectionKey

/-- Every section, in the order in which they are listed. -/
def all : List SectionKey := [metadata, parameters, nested, script, extended]

def name : SectionKey → Text
  | metadata => "ДанныеСценария".toList
  | parameters => "ПараметрыСценария".toList
  | nested => "ВложенныеСценарии".toList
  | script => "ТекстСценария".toList
  | extended => "KOTМетаданные".toList

end SectionKey

/-- Whether a line opens a top-level section: key letters from its very start, then a colon. -/
def isTopLevelKey (line : Text) : Bool :=
  !(line.takeWhile Text.isKeyLetter).isEmpty &&
    (line.dropWhile Text.isKeyLetter).head? == some ':'

/-! ## Finding a section -/

/-- A section and the lines around it. Lines are raw: a carriage return at the end of a line is still
there. -/
structure Section where
  /-- The key, without its colon. -/
  name : Text
  /-- The lines above the header. -/
  above : List Text
  /-- What follows the colon on the header line. -/
  rest : Text
  /-- The lines of the body. -/
  body : List Text
  /-- The lines from the next top-level key on. -/
  below : List Text
  deriving DecidableEq, Repr

namespace Section

def header (s : Section) : Text := s.name ++ [':']

/-- What the section holds: everything after the colon up to the line feed before the next key. -/
def content (s : Section) : Text := Text.unlines (s.rest :: s.body)

/-- The document in front of the header. -/
def front (s : Section) : Text := s.above.flatMap (· ++ ['\n'])

/-- The document behind the content: the line feed before the next key and all that follows. -/
def back (s : Section) : Text := s.below.flatMap ('\n' :: ·)

/-- The document that the section was found in. -/
def text (s : Section) : Text := s.front ++ s.header ++ s.content ++ s.back

def withContent (content : Text) (s : Section) : Text := s.front ++ s.header ++ content ++ s.back

def headerStart (s : Section) : Nat := s.front.length

/-- The offset just behind the colon. -/
def contentStart (s : Section) : Nat := s.headerStart + s.header.length

def contentEnd (s : Section) : Nat := s.contentStart + s.content.length

def headerLine (s : Section) : Nat := s.above.length

def firstLine (s : Section) : Nat := s.headerLine + 1

/-- The number of the last line of the body; the header line if the body is empty. -/
def lastLine (s : Section) : Nat := s.headerLine + s.body.length

def lineCount (s : Section) : Nat := s.body.length

def hasFollowing (s : Section) : Bool := !s.below.isEmpty

/-- The lines of the body with their numbers, without carriage returns at their ends. -/
def numberedLines (s : Section) : List (Nat × Text) :=
  s.body.zipIdx.map fun (line, i) => (s.firstLine + i, Text.trimReturns line)

/-- The section of this name among lines, the lines `above` having been passed already. -/
def findFrom (name : Text) : (above : List Text) → List Text → Option Section
  | _, [] => none
  | above, line :: lines => match Text.after? (name ++ [':']) line with
    | some rest => some {
        name, above := above.reverse, rest
        body := lines.takeWhile (!isTopLevelKey ·)
        below := lines.dropWhile (!isTopLevelKey ·) }
    | none => findFrom name (line :: above) lines

/-- The first section of this name in a document. -/
def find? (name : Text) (text : Text) : Option Section := findFrom name [] (Text.lines text)

end Section

namespace SectionKey

/-- The section of a document under this key. -/
def find? (key : SectionKey) (text : Text) : Option Section := Section.find? key.name text

def isIn (text : Text) (key : SectionKey) : Bool := (key.find? text).isSome

/-- The lines of the section under this key with their numbers; none if it is missing. -/
def linesOf (key : SectionKey) (text : Text) : List (Nat × Text) :=
  ((key.find? text).map Section.numberedLines).getD []

def presentIn (text : Text) : List SectionKey := all.filter (isIn text)

end SectionKey

def scriptLines (text : Text) : List (Nat × Text) := SectionKey.script.linesOf text

/-! ## The parts make up the document -/

namespace Section

theorem text_withContent (content : Text) (s : Section) :
    s.withContent content = s.front ++ s.header ++ content ++ s.back := rfl

theorem text_eq_withContent (s : Section) : s.text = s.withContent s.content := rfl

theorem unlines_cons (line : Text) (lines : List Text) :
    Text.unlines (line :: lines) = line ++ lines.flatMap ('\n' :: ·) := by
  induction lines generalizing line with
  | nil => simp [Text.unlines, Text.joinWith, List.intercalate]
  | cons l ls ih =>
    have := ih l
    simp_all [Text.unlines, Text.joinWith, List.intercalate]

private theorem unlines_append_flatMap (line : Text) (lines more : List Text) :
    Text.unlines (line :: lines) ++ more.flatMap ('\n' :: ·) = Text.unlines (line :: lines ++ more) := by
  simp [unlines_cons]

private theorem flatMap_append_unlines (lines : List Text) (line : Text) (more : List Text) :
    lines.flatMap (· ++ ['\n']) ++ Text.unlines (line :: more) = Text.unlines (lines ++ line :: more) := by
  induction lines with
  | nil => rfl
  | cons l ls ih =>
    cases ls <;> simp_all [Text.unlines, Text.joinWith, List.intercalate]

theorem append_of_after? {start text rest : Text} (h : Text.after? start text = some rest) :
    start ++ rest = text := by
  induction start generalizing text with
  | nil => simpa [Text.after?] using h.symm
  | cons p ps ih =>
    cases text with
    | nil => simp [Text.after?] at h
    | cons c cs =>
      simp only [Text.after?] at h
      split at h
      · next hpc => simp [hpc, ih h]
      · simp at h

private theorem text_of_findFrom {name : Text} {above lines : List Text} {s : Section}
    (h : findFrom name above lines = some s) : s.text = Text.unlines (above.reverse ++ lines) := by
  induction lines generalizing above with
  | nil => simp [findFrom] at h
  | cons line lines ih =>
    simp only [findFrom] at h
    split at h
    · next rest hafter =>
      obtain rfl := Option.some.inj h
      have hline := append_of_after? hafter
      simp only [text, front, header, content, back]
      rw [List.append_assoc, List.append_assoc, unlines_append_flatMap, List.cons_append,
        List.takeWhile_append_dropWhile]
      have hhead : name ++ [':'] ++ Text.unlines (rest :: lines) = Text.unlines (line :: lines) := by
        cases lines <;> simp [Text.unlines, Text.joinWith, List.intercalate, ← hline]
      rw [hhead, flatMap_append_unlines]
    · rw [ih h]
      simp

/-- The parts of a section make up the document it was found in. -/
theorem text_of_find? {name text : Text} {s : Section} (h : find? name text = some s) :
    s.text = text := by
  rw [text_of_findFrom h, List.reverse_nil, List.nil_append, Text.unlines_lines]

end Section

end Scenarist
