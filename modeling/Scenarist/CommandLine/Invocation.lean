import Scenarist.CommandLine.Arguments
import Scenarist.Project

set_option autoImplicit false

/-! # Invocations

What is asked for on the command line: a task, and how its project is to be loaded and its answer
printed. Paths that a task reads must be there, and no path of a file may name a directory. -/

namespace Scenarist

/-- What is to be done with the project in a directory. -/
inductive Task where
  /-- Its scenarios are listed. -/
  | index (root : Text)
  /-- These files are validated, or all scenarios; a report may be saved. -/
  | check (root : Text) (files : List Text) (report : Option Text)
  /-- These files are repaired, or all scenarios; a report may be saved. -/
  | fix (root : Text) (files : List Text) (dryRun : Bool) (report : Option Text)
  /-- The documents that call a scenario are listed. -/
  | related (root name : Text)

namespace Task

def name : Task → Text
  | index _ => "index".toList
  | check _ _ _ => "check".toList
  | fix _ _ _ _ => "fix".toList
  | related _ _ => "related".toList

def root : Task → Text
  | index root | check root _ _ | fix root _ _ _ | related root _ => root

def files : Task → List Text
  | check _ files _ | fix _ files _ _ => files
  | _ => []

/-- The path that the report is saved under; an empty one is none. -/
def report? : Task → Option Text
  | check _ _ report | fix _ _ _ report => report.filter (!·.isEmpty)
  | _ => none

def reportOption : CommandOption := { name := "report".toList, takesValue := true }

def dryRunOption : CommandOption := { name := "dry-run".toList, takesValue := false }

/-- The project is in the working directory unless another one is named. -/
def defaultRoot : Text := ['.']

def ofWords? : List Text → Option Task
  | [] => none
  | name :: words =>
    if name = "index".toList then do
      match (← Arguments.read [] false words).words with
      | [] => some (index defaultRoot)
      | [root] => some (index root)
      | _ => none
    else if name = "check".toList then do
      let arguments ← Arguments.read [reportOption] false words
      return check (arguments.words.headD defaultRoot) arguments.words.tail (arguments.value? "report")
    else if name = "fix".toList then do
      let arguments ← Arguments.read [dryRunOption, reportOption] false words
      return fix (arguments.words.headD defaultRoot) arguments.words.tail (arguments.has "dry-run")
        (arguments.value? "report")
    else if name = "related".toList then do
      match (← Arguments.read [] false words).words with
      | [root, name] => some (related root name)
      | _ => none
    else none

end Task

/-- What is asked for on the command line. -/
structure Invocation where
  choice : Project.Choice
  /-- Whether the answer is spread over several lines. -/
  pretty : Bool
  /-- Whether the progress is told on the way. -/
  verbose : Bool
  task : Task

namespace Invocation

def options : List CommandOption := [
  { name := "config".toList, takesValue := true },
  { name := "steps".toList, takesValue := true },
  { name := "pretty".toList, takesValue := false },
  { name := "verbose".toList, letter := some 'v', takesValue := false }]

def ofWords? (words : List Text) : Option Invocation := do
  let arguments ← Arguments.read options true words
  let task ← Task.ofWords? arguments.words
  return {
    choice := { config := arguments.value? "config", steps := arguments.value? "steps" }
    pretty := arguments.has "pretty"
    verbose := arguments.has "verbose"
    task }

def isFree (disk : Disk) (text : Text) : Bool := (disk.find? text).all (!·.isDirectory)

/-- Whether every path names what it has to name. -/
def isSound (disk : Disk) (invocation : Invocation) : Bool :=
  let task := invocation.task
  (disk.find? task.root).any Disk.Node.isDirectory &&
    (task.files.all fun file => (disk.find? file).any (!·.isDirectory)) &&
    task.report?.all (isFree disk) &&
    invocation.choice.config.all (isFree disk) && invocation.choice.steps.all (isFree disk)

/-- The paths that a run looks at, as far as they are known from what is on the disk; the files below the
last one are all looked at. -/
def places (disk : Disk) (invocation : Invocation) : List Path × Option Path :=
  let task := invocation.task
  let project := Path.resolve disk.here (Path.ofText task.root)
  let named := [task.root] ++ task.files ++ task.report?.toList ++ invocation.choice.config.toList ++
    invocation.choice.steps.toList
  let ownConfig := project.inside (Path.ofText Config.fileName)
  let paths := named.map Path.ofText ++ [project, ownConfig]
  match Config.load disk (invocation.choice.config.map Path.ofText) project with
  | .ok config => (paths ++ (Project.stepsPath? invocation.choice config project).toList,
      some (config.scanRoot project))
  | .error _ => (paths, none)

end Invocation

end Scenarist
