import Scenarist.Text.Blank
import Scenarist.Text.Case

set_option autoImplicit false

/-! # Step keywords

A scenario is written in English or Russian, and each step line opens with a keyword that gives the
step its role. Several keywords can stand for one role; the first of a role in a language is the one
that lines are changed to.

Main statement: `Language.ofCode?_code` (a language is read back from its code). -/

namespace Scenarist

/-! ## Languages -/

/-- The languages that a scenario can be written in. -/
inductive Language where
  | english
  | russian
  deriving DecidableEq, Repr

namespace Language

/-- The code that names a language in tags and settings. -/
def code : Language → Text
  | english => "en".toList
  | russian => "ru".toList

def ofCode? (code : Text) : Option Language :=
  if code = "en".toList then some english
  else if code = "ru".toList then some russian
  else none

theorem ofCode?_code (language : Language) : ofCode? language.code = some language := by
  cases language <;> decide

/-- The word in a line that tags the language of a document, `# language: word`. -/
def tagWord? (line : Text) : Option Text := do
  let rest ← Text.after? ['#'] (Text.stripLeft line)
  let rest ← Text.afterLetters? "language".toList (Text.stripLeft rest)
  let rest ← Text.after? [':'] (Text.stripLeft rest)
  let word := Text.strip rest
  let latin := fun c => ('a'.toNat ≤ Text.letterKey c && Text.letterKey c ≤ 'z'.toNat)
  if word.isEmpty || !word.all latin then none else some word

/-- The language that a document is tagged with: its first tag decides, and a tag with another word
names none. -/
def detect? (text : Text) : Option Language :=
  ((Text.lines text).findSome? tagWord?).bind fun word => ofCode? (Text.lower word)

/-- The language of a document without a tag of its own is the one given. -/
def resolve (text : Text) (otherwise : Language) : Language := (detect? text).getD otherwise

end Language

/-! ## Roles -/

/-- What a step does in its scenario. -/
inductive Role where
  /-- It goes on as the step before. -/
  | continuation
  /-- It sets the scene. -/
  | precondition
  /-- It acts. -/
  | action
  /-- It states what is expected. -/
  | outcome
  /-- It states an exception. -/
  | contrast
  deriving DecidableEq, Repr

namespace Role

def all : List Role := [continuation, precondition, action, outcome, contrast]

def name : Role → Text
  | continuation => "and".toList
  | precondition => "given".toList
  | action => "when".toList
  | outcome => "then".toList
  | contrast => "but".toList

/-- The keyword that a role is written with in each language. -/
def keyword : Role → Language → Text
  | continuation, .english => "And".toList
  | continuation, .russian => "И".toList
  | precondition, .english => "Given".toList
  | precondition, .russian => "Допустим".toList
  | action, .english => "When".toList
  | action, .russian => "Когда".toList
  | outcome, .english => "Then".toList
  | outcome, .russian => "Тогда".toList
  | contrast, .english => "But".toList
  | contrast, .russian => "Но".toList

def keywords : Role → List Text
  | continuation => ["And".toList, "И".toList, "К тому же".toList]
  | precondition => ["Given".toList, "Допустим".toList, "Дано".toList]
  | action => ["When".toList, "Когда".toList, "Если".toList]
  | outcome => ["Then".toList, "Тогда".toList]
  | contrast => ["But".toList, "Но".toList]

/-- The role of a keyword, whatever its case. -/
def ofKeyword? (keyword : Text) : Option Role :=
  all.find? fun role => role.keywords.any fun known => Text.lower known == Text.lower keyword

end Role

/-- The keywords that a step line can open with. -/
def stepKeywords : List Text := Role.all.flatMap Role.keywords

/-- The keywords that a call of another scenario can open with. -/
def callKeywords : List Text := ["And".toList, "И".toList, "Допустим".toList]

/-- The keyword that a call is written with; a language that is not known falls back to English. -/
def callKeyword (language : Option Language) : Text :=
  Role.continuation.keyword (language.getD .english)

end Scenarist
