import Scenarist.Config.Read
import Scenarist.Disk
import Scenarist.Index
import Scenarist.Step.Catalog
import Scenarist.Yaml.Read

set_option autoImplicit false

/-! # Projects

What a project keeps on a disk: its settings, its step catalog and its scenarios. A project without a
settings file has the settings that hold anyway; a file that is named but missing is an error. -/

namespace Scenarist

/-- Why something of a project could not be loaded. -/
inductive LoadError where
  | config (error : ConfigError)
  | disk (error : DiskError)
  /-- A scenario or a YAML file has a scalar without a value. -/
  | scalar (fault : ScalarFault)
  /-- The directory to scan is missing. -/
  | noScanDirectory (path : Text)
  /-- There is no such scenario file. -/
  | noScenario (path : Text)

namespace LoadError

def message : LoadError → Text
  | .config error => error.message
  | .disk error => error.message
  | .scalar fault => fault.message
  | .noScanDirectory path => "Scan directory not found: ".toList ++ path
  | .noScenario path => "Scenario file not found: ".toList ++ path

/-- Whether an error is one that a project can be told of in an answer. -/
def isAnswered : LoadError → Bool
  | .config _ | .noScanDirectory _ => true
  | _ => false

end LoadError

/-- The value that a YAML text writes; a text that is not well formed is refused as told. -/
def loadYaml (text : Text) (refusal : ConfigError) : Except LoadError Yaml.Value :=
  match Yaml.Value.ofText text with
  | .ok value => .ok value
  | .error .malformed => .error (.config refusal)
  | .error (.scalar fault) => .error (.scalar fault)

/-! ## Settings -/

namespace Config

/-- The settings in a file. An empty file sets nothing. -/
def loadFile (disk : Disk) (path : Path) : Except LoadError Config := do
  unless disk.exists? path do throw (.config (.fileMissing path.toText))
  let text ← (disk.readMarked path).mapError .disk
  match ← loadYaml text (.badFile path.toText) with
  | .null => return {}
  | value => (Config.read value path.toText).mapError .config

/-- The settings of a project: those in the file that is named, or else those in the project's own file
if it has one. -/
def load (disk : Disk) (named : Option Path) (project : Path) : Except LoadError Config :=
  match named with
  | some path => loadFile disk path
  | none =>
    let path := project.inside (Path.ofText fileName)
    if disk.exists? path then loadFile disk path else .ok {}

end Config

/-! ## Step catalogs -/

namespace StepTemplate

/-- The step definition that a value writes: a template, or a mapping with templates under the codes of
the languages. -/
def ofValue? : Yaml.Value → Option StepTemplate
  | .text text => some ⟨text, none⟩
  | value => do
    let text ← (← value.get? Language.english.code).asText?
    return ⟨text, (value.get? Language.russian.code).bind Yaml.Value.asText?⟩

/-- The step definitions of a plain text: one template to a line, without blank lines and comments. -/
def ofLines (text : Text) : List StepTemplate :=
  ((Text.brokenLines text).map Text.strip).filterMap fun line =>
    if line.isEmpty || line.head? = some '#' then none else some ⟨line, none⟩

/-- The step definitions that a value lists, itself or under the key for them; what is no definition is
passed over. -/
def listOfValue? (value : Yaml.Value) : Option (List StepTemplate) :=
  let listed := match value with
    | .map _ => (value.get? "steps".toList).getD .null
    | value => value
  match listed with
  | .null => some []
  | .list items => some (items.filterMap ofValue?)
  | _ => none

end StepTemplate

namespace StepCatalog

def isYaml (path : Path) : Bool :=
  Text.lower path.extension ∈ [".yaml".toList, ".yml".toList]

/-- The step catalog in a file: YAML, or a plain text. -/
def loadFile (disk : Disk) (path : Path) : Except LoadError (List StepTemplate) := do
  unless disk.exists? path do throw (.config (.stepsMissing path.toText))
  let text ← (disk.read path).mapError .disk
  if isYaml path then
    let value ← loadYaml text (.badSteps path.toText)
    match StepTemplate.listOfValue? value with
    | some steps => return steps
    | none => throw (.config (.noStepList path.toText))
  else return StepTemplate.ofLines text

/-- The step catalog in a file; without a file it is empty. -/
def load (disk : Disk) (path : Option Path) (threshold : Float) : Except LoadError StepCatalog :=
  match path with
  | none => .ok ⟨[], threshold⟩
  | some path => (loadFile disk path).map (⟨·, threshold⟩)

end StepCatalog

/-! ## Scenarios -/

/-- The record of a scenario file, seen from a scan root. -/
def Record.load (disk : Disk) (path : Path) (scanRoot : Option Path) :
    Except LoadError (Option Record) := do
  unless disk.exists? path do throw (.noScenario path.toText)
  let text ← (disk.read path).mapError .disk
  (Record.read (Source.ofPath scanRoot path) text).mapError .scalar

/-! ## Whole projects -/

/-- A project that has been loaded, with its scenarios indexed. -/
structure Project where
  config : Config
  catalog : StepCatalog
  index : Index

namespace Project

/-- The settings file and the step catalog that a project is to be loaded with. -/
structure Choice where
  config : Option Text := none
  steps : Option Text := none

/-- The path of the step catalog: the one that is chosen, taken from the working directory, or else the
one that the settings name, taken from the project. An empty choice falls back on the settings, but the
path is taken from the working directory. -/
def stepsPath? (choice : Choice) (config : Config) (project : Path) : Option Path :=
  match choice.steps.filter (!·.isEmpty), config.stepsFile.filter (!·.isEmpty) with
  | some chosen, _ => some (Path.ofText chosen)
  | none, some named =>
    let path := Path.ofText named
    some (if choice.steps.isSome then path else project.inside path)
  | none, none => none

def load (disk : Disk) (choice : Choice) (directory : Path) : Except LoadError Project := do
  let config ← Config.load disk (choice.config.map Path.ofText) directory
  let catalog ← StepCatalog.load disk (stepsPath? choice config directory) config.stepThreshold
  let scanRoot := config.scanRoot directory
  unless disk.hasDirectory scanRoot do throw (.noScanDirectory scanRoot.toText)
  let index ← ((Index.ofConfig (some scanRoot) config).refresh disk).mapError .scalar
  return { config, catalog, index }

end Project

end Scenarist
