import Scenarist.Scalar
import Scenarist.Text.Digit
import Scenarist.Text.Word

set_option autoImplicit false

/-! # What the wording of a line tells

Heuristics on the words of a line: whether it opens or closes a block, and whether a call-shaped line
reads like a step in natural language. Words are recognised in any case and only where they end. -/

namespace Scenarist

/-- Whether a text begins with this word, in any case. -/
def opensWith (word text : Text) : Bool :=
  match Text.afterLetters? word text with
  | some rest => Text.wordEnds rest
  | none => false

/-! ## Blocks -/

/-- The words that open and close blocks. -/
inductive BlockKeyword where
  | endIf
  | endDo
  | beginIf
  | beginDo
  deriving DecidableEq, Repr

namespace BlockKeyword

def word : BlockKeyword → Text
  | endIf => "EndIf".toList
  | endDo => "EndDo".toList
  | beginIf => "If".toList
  | beginDo => "Do".toList

def ofLine? (line : Text) : Option BlockKeyword :=
  [endIf, endDo, beginIf, beginDo].find? fun keyword => opensWith keyword.word (Text.strip line)

end BlockKeyword

/-! ## Steps in natural language -/

/-- The words that the wording of a step is likely to begin with. -/
def likelyStepWords : List Text :=
  ["Я", "I", "When", "Then", "Given", "Если", "Когда", "Тогда", "Но"].map String.toList

/-- The words that make a call-shaped line read like a step. -/
def stepLikeWords : List Text :=
  ["I", "Я", "in", "the", "a", "an", "on", "at", "with", "without", "from", "to", "if", "when", "then",
    "given", "но", "тогда", "когда", "если"].map String.toList

def hasBrackets : Text → Bool
  | [] => false
  | c :: cs =>
    let content := cs.takeWhile (· ≠ ']')
    (c = '[' && !content.isEmpty && content.length < cs.length) || hasBrackets cs

/-- Whether a text has something in brackets or between two quotes of one kind. -/
def hasArguments (text : Text) : Bool :=
  hasBrackets text || 2 ≤ text.count '"' || 2 ≤ text.count '\''

/-- Whether a text is a number: digits, with digits behind a point or comma if there is one. -/
def isNumber (text : Text) : Bool :=
  let whole := text.takeWhile Text.isDigit
  match text.dropWhile Text.isDigit with
  | [] => !whole.isEmpty
  | c :: fraction =>
    !whole.isEmpty && (c = '.' || c = ',') && !fraction.isEmpty && fraction.all Text.isDigit

def isWordWithNumber (text : Text) : Bool :=
  let startsWithLetter := match text with
    | c :: _ => Text.isKeyLetter c && c != '_' && !('0' ≤ c && c ≤ '9')
    | [] => false
  let rest := text.dropWhile isNameLetter
  startsWithLetter && !(Text.leadingBlanks rest).isEmpty && isNumber (Text.stripLeft rest)

/-- Whether call-shaped text reads like a step: it has arguments, begins with a word of steps, or is a
word and a number. -/
def looksLikeStep (name : Text) : Bool :=
  let text := Text.strip name
  hasArguments text || stepLikeWords.any (opensWith · text) || isWordWithNumber text

/-- Whether call-shaped text is likely a step from its first word. -/
def isLikelyStep (name : Text) : Bool := likelyStepWords.any (opensWith · name)

end Scenarist
