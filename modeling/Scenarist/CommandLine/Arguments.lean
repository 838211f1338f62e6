import Scenarist.Table

set_option autoImplicit false

/-! # Arguments

The words behind a command's name are options, their values, and plain words. An option that takes a
value takes the next word, whatever it is, or what follows an equals sign. Options of one letter that
take no value can share a dash. Two dashes alone end the options.

Main statement: `Arguments.read_words` (words that are no options are left as they are). -/

namespace Scenarist

/-- An option that a command knows. -/
structure CommandOption where
  /-- Its name, without the dashes. -/
  name : Text
  /-- The letter that stands for it, if there is one. -/
  letter : Option Char := none
  takesValue : Bool

/-- Words as a command sees them. -/
structure Arguments where
  /-- The options that are given, with their values; an option without one has the empty text. What is
  given twice counts as it was given last. -/
  options : Table Text := []
  /-- The plain words. -/
  words : List Text := []
  deriving DecidableEq, Repr

namespace Arguments

/-- The arguments with an option in front. One that follows counts more. -/
def addOption (name value : Text) (arguments : Arguments) : Arguments :=
  { arguments with options :=
      if arguments.options.has name then arguments.options else (name, value) :: arguments.options }

def addWord (word : Text) (arguments : Arguments) : Arguments :=
  { arguments with words := word :: arguments.words }

/-- Whether a word is an option or several of them. -/
def isOption (word : Text) : Bool := word.head? = some '-' && 1 < word.length

/-- The name of an option and the value that an equals sign gives to it. -/
def splitValue (word : Text) : Text × Option Text :=
  match Text.cutAt? ['='] word with
  | some (name, value) => (name, some value)
  | none => (word, none)

/-- The option that is spelled out in a word. -/
def spelled? (known : List CommandOption) (word : Text) : Option CommandOption :=
  known.find? fun option => '-' :: '-' :: option.name = (splitValue word).1

/-- The options whose letters share a dash. -/
def lettered? (known : List CommandOption) (word : Text) : Option (List CommandOption) :=
  if Text.startsWith ['-', '-'] word then none
  else (word.drop 1).mapM fun letter =>
    known.find? fun option => option.letter = some letter && !option.takesValue

/-- The arguments that words are, if all options are known and have the values that they take. Where
options have to stand in front, the first plain word ends them. -/
def read (known : List CommandOption) (optionsFirst : Bool) : List Text → Option Arguments
  | [] => some {}
  | word :: rest =>
    if word = ['-', '-'] then some { words := rest }
    else if !isOption word then
      if optionsFirst then some { words := word :: rest }
      else (read known optionsFirst rest).map (addWord word)
    else match spelled? known word with
      | some option =>
        if option.takesValue then match (splitValue word).2 with
          | some value => (read known optionsFirst rest).map (addOption option.name value)
          | none => match rest with
            | value :: rest => (read known optionsFirst rest).map (addOption option.name value)
            | [] => none
        else if (splitValue word).2.isSome then none
        else (read known optionsFirst rest).map (addOption option.name [])
      | none => match lettered? known word with
        | some options => (read known optionsFirst rest).map fun arguments =>
            options.foldr (fun option => addOption option.name []) arguments
        | none => none

def value? (arguments : Arguments) (name : String) : Option Text := arguments.options.get? name.toList

def has (arguments : Arguments) (name : String) : Bool := arguments.options.has name.toList

/-- Words that are no options are left as they are. -/
theorem read_words (known : List CommandOption) (optionsFirst : Bool) (words : List Text)
    (plain : ∀ word ∈ words, isOption word = false) :
    read known optionsFirst words = some { words } := by
  induction words with
  | nil => rfl
  | cons word words ih =>
    have head : isOption word = false := plain word (by simp)
    have tail := ih fun other h => plain other (by simp [h])
    have notEnd : word ≠ ['-', '-'] := by
      rintro rfl
      simp [isOption] at head
    cases optionsFirst with
    | true => simp [read, notEnd, head]
    | false => simp [read, notEnd, head, tail, addWord]

end Arguments

end Scenarist
