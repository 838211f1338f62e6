import Scenarist.Config
import Scenarist.Text.Case
import Scenarist.Yaml.Value

set_option autoImplicit false

/-! # Reading settings

A project writes its settings as a mapping. Every known key expects a kind of value; unknown keys are
passed over, and so that a project can be told what is wrong, the first setting that does not fit is
named in the refusal. -/

namespace Scenarist

/-- Why settings were refused. -/
inductive ConfigError where
  /-- They are no mapping but a value of this kind. -/
  | noMapping (kind source : Text)
  /-- A setting has a value of this kind. -/
  | badKind (key kind source : Text)
  /-- A setting is a list of other things than texts. -/
  | noTexts (key source : Text)
  /-- There is no such language. -/
  | unknownLanguage (code : Text)
  /-- Fewer than one proposal is allowed. -/
  | noProposals
  /-- There is no such settings file. -/
  | fileMissing (path : Text)
  /-- The settings file is no YAML. -/
  | badFile (path : Text)
  /-- There is no such step catalog. -/
  | stepsMissing (path : Text)
  /-- The step catalog is no YAML. -/
  | badSteps (path : Text)
  /-- The step catalog is no list. -/
  | noStepList (path : Text)
  deriving DecidableEq, Repr

def ConfigError.message : ConfigError → Text
  | .noMapping kind source =>
    "Config must be a YAML mapping, got ".toList ++ kind ++ " in ".toList ++ source
  | .badKind key kind source => "Config key '".toList ++ key ++ "' has invalid type ".toList ++ kind ++
    " in ".toList ++ source
  | .noTexts key source =>
    "Config key '".toList ++ key ++ "' must be a list of strings in ".toList ++ source
  | .unknownLanguage code => "scenario_language must be 'en' or 'ru', got: ".toList ++ code
  | .noProposals => "max_suggestions must be at least 1".toList
  | .fileMissing path => "Config file not found: ".toList ++ path
  | .badFile path => "Invalid YAML in ".toList ++ path
  | .stepsMissing path => "Steps file not found: ".toList ++ path
  | .badSteps path => "Invalid YAML in steps file ".toList ++ path
  | .noStepList path => "Steps file must contain a list of templates: ".toList ++ path

namespace Config

/-- Settings as they are written: the code of the language is not looked up yet, and the number of
proposals is any number. -/
structure Draft where
  config : Config := {}
  language : Text := Language.english.code
  maxSuggestions : Int := 3

/-- What a setting expects, and what its value changes. -/
inductive Setting where
  | text (assign : Draft → Text → Draft)
  | optionalText (assign : Draft → Option Text → Draft)
  | texts (assign : Draft → List Text → Draft)
  | number (assign : Draft → Float → Draft)
  | whole (assign : Draft → Int → Draft)
  | flag (assign : Draft → Bool → Draft)

namespace Setting

/-- A change of the settings that need no further look. -/
private def into {α : Type} (assign : Config → α → Config) (draft : Draft) (value : α) : Draft :=
  { draft with config := assign draft.config value }

/-- The settings under their keys. -/
def all : Table Setting := [
  ("scan_directory".toList, text (into fun c value => { c with scanDirectory := value })),
  ("file_patterns".toList, texts (into fun c value => { c with filePatterns := value })),
  ("scenario_language".toList, text fun draft value => { draft with language := value }),
  ("parameter_exclusions".toList, texts (into fun c value => { c with exclusions := value })),
  ("strong_match_threshold".toList, number (into fun c value => { c with strongMatch := value })),
  ("suggestion_threshold".toList, number (into fun c value => { c with suggestionThreshold := value })),
  ("step_suggestion_threshold".toList, number (into fun c value => { c with stepThreshold := value })),
  ("max_suggestions".toList, whole fun draft value => { draft with maxSuggestions := value }),
  ("related_max_files".toList, whole (into fun c value => { c with maxRelated := value })),
  ("scan_yield_every".toList, whole (into fun c value => { c with scanYield := value })),
  ("related_yield_every".toList, whole (into fun c value => { c with relatedYield := value })),
  ("refresh_debounce".toList, number (into fun c value => { c with debounce := value })),
  ("steps_file".toList, optionalText (into fun c value => { c with stepsFile := value })),
  ("check_related_parents".toList, flag (into fun c value => { c with checkRelated := value }))]

/-- The draft with a setting made, if the value is one that it expects. -/
def set? (setting : Setting) (draft : Draft) (value : Yaml.Value) : Option Draft :=
  match setting, value with
  | text assign, .text value => some (assign draft value)
  | optionalText assign, .text value => some (assign draft (some value))
  | optionalText assign, .null => some (assign draft none)
  | texts assign, value => value.asTexts?.map (assign draft)
  | number assign, value => value.asNumber?.map (assign draft)
  | whole assign, .int value => some (assign draft value)
  | flag assign, .bool value => some (assign draft value)
  | _, _ => none

/-- Why a setting refuses a value. -/
def refusal (setting : Setting) (key source : Text) (value : Yaml.Value) : ConfigError :=
  match setting, value with
  | texts _, .list _ => .noTexts key source
  | _, value => .badKind key value.kind source

end Setting

/-- The draft with the entries of a mapping made, in their order. -/
def Draft.read (source : Text) : Table Yaml.Value → Draft → Except ConfigError Draft
  | [], draft => .ok draft
  | (key, value) :: entries, draft => match Setting.all.get? key with
    | none => read source entries draft
    | some setting => match setting.set? draft value with
      | some draft => read source entries draft
      | none => .error (setting.refusal key source value)

def Draft.check (draft : Draft) : Except ConfigError Config :=
  let code := Text.lower draft.language
  match Language.ofCode? code with
  | none => .error (.unknownLanguage code)
  | some language =>
    if draft.maxSuggestions < 1 then .error .noProposals
    else .ok { draft.config with language, maxSuggestions := draft.maxSuggestions.toNat }

/-- The settings that a value from some source writes. -/
def read (value : Yaml.Value) (source : Text) : Except ConfigError Config :=
  match value with
  | .map entries => (Draft.read source entries {}).bind Draft.check
  | value => .error (.noMapping value.kind source)

end Config

end Scenarist
