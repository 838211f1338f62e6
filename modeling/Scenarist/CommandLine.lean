import Scenarist.CallGraph
import Scenarist.CommandLine.Invocation
import Scenarist.Report
import Scenarist.Validation

set_option autoImplicit false

/-! # The command line

Every task loads its project, does its work on the disk, and gives one answer. What a project can be told
of is told in the answer; anything else is a fault that ends the run.

Main definition: `Invocation.run`. Main statement: `Invocation.run_index_disk` (listing scenarios leaves
the disk as it is). -/

namespace Scenarist

/-- Why there is no answer. -/
inductive RunFault where
  /-- The words on the command line ask for nothing that can be done. -/
  | usage
  | load (error : LoadError)

/-- What a run has besides its words. -/
structure Surroundings where
  disk : Disk
  supply : UidSupply
  /-- The time that a saved report is marked with. -/
  clock : Text
  /-- The time that the run has taken so far, in milliseconds. -/
  elapsed : Nat := 0

/-- The answer to a run and the disk afterwards. -/
structure Reply where
  answer : Answer
  disk : Disk

def Invocation.textOf (invocation : Invocation) (answer : Answer) : Text :=
  answer.toJson.toText (if invocation.pretty then .indented else .line)

def Reply.exitCode (reply : Reply) : Nat := if reply.answer.success then 0 else 1

namespace Project

/-! ## Listing -/

def recordJson (record : Record) : Json := .object [
  ("name".toList, .text record.name),
  ("path".toList, .text record.uri),
  ("folder".toList, .text record.source.folder),
  ("uid".toList, .optional record.uid),
  ("code".toList, .optional record.code),
  ("parameters".toList, .texts record.parameters),
  ("calls".toList, .texts record.nestedCalls),
  ("tab".toList, .optional (record.tab.map (·.name)))]

/-- The list of scenarios, sorted by their names in lower case. -/
def listScenarios (project : Project) : Answer :=
  let records := Text.sortBy (fun record => Text.lower record.name) project.index.allRecords
  { success := true
    command := "index".toList
    details := some [
      ("scan_root".toList, .optional (project.index.scanRoot.map Path.toText)),
      ("scenarios".toList, .list (records.map recordJson))]
    message := "Indexed ".toList ++ Text.ofNat records.length ++ " scenarios".toList }

/-- The documents that call a scenario, and the scenarios that do. -/
def listRelated (project : Project) (name : Text) : Answer :=
  if project.index.records.has name then
    let graph := CallGraph.ofRecords project.index.allRecords
    let source := (graph.sources.get? name).map (·.uri)
    let documents := graph.related name project.config.maxRelated source
    { success := true
      command := "related".toList
      details := some [
        ("scenario".toList, .text name),
        ("callers".toList, .texts (Text.sortLower (graph.callersOf name))),
        ("documents".toList, .texts (documents.map Source.uri))]
      message := Text.ofNat documents.length ++ " related documents".toList }
  else .failure "related".toList ("Unknown scenario: ".toList ++ name)

/-! ## Validating -/

/-- The documents of all scenarios, sorted by their paths in lower case. -/
def documents (project : Project) : List Text :=
  Text.sortLower (distinct (project.index.allRecords.map (·.uri)))

/-- What the documents of a project are checked against. -/
def checker (project : Project) : Checker := ⟨project.index.records, project.catalog, project.config⟩

/-- The findings about documents, together with those that were there before. -/
def findingsFrom (checker : Checker) (shared : Table (List Diagnostic)) (options : ValidationOptions)
    (disk : Disk) : List Text → Except LoadError (Table (List Diagnostic))
  | [] => .ok []
  | uri :: uris => do
    let text ← (disk.read (Path.ofText uri)).mapError .disk
    let found ← (checker.tryValidate { uri, text } options).mapError .scalar
    let rest ← findingsFrom checker shared options disk uris
    return (uri, found ++ (shared.get? uri).getD []) :: rest

/-- The findings about documents, with the warnings about shared codes. -/
def findings (project : Project) (options : ValidationOptions) (disk : Disk) (uris : List Text) :
    Except LoadError (Table (List Diagnostic)) :=
  findingsFrom project.checker (DuplicateCodes.all project.index.allRecords) options disk uris

/-! ## Repairing -/

/-- Repair passes over documents: their outcomes, and the disk afterwards. -/
def repair (project : Project) (s : Surroundings) (dryRun : Bool) (uris : List Text) :
    BatchResult × Disk :=
  let executor : Executor := {
    steps := RepairStep.ofConfig {}
    exclusions := project.config.exclusions
    writeChanges := !dryRun }
  let (batch, disk, _) := executor.repairAll uris {} s.disk
    { index := project.index, session := {}, supply := s.supply }
  (batch, disk)

end Project

/-! ## Running -/

/-- The answer about a report, which is saved first if a path is given for it. -/
def Report.conclude (report : Report) (command : Text) (path? : Option Text) (clock : Text)
    (disk : Disk) : Except RunFault Reply :=
  match path? with
  | none => .ok ⟨report.answer command none, disk⟩
  | some text =>
    let path := Path.ofText text
    match disk.writeNew path ((report.toJson clock).toText .indented) with
    | .ok disk => .ok ⟨report.answer command path.toText, disk⟩
    | .error error => .error (.load (.disk error))

namespace Task

/-- The files that are named, as absolute paths, each as often as it is named. -/
def places (task : Task) (disk : Disk) : List Text :=
  task.files.map fun file => (Path.resolve disk.here (Path.ofText file)).toText

/-- The answer to a task about a project that has been loaded. -/
def run (task : Task) (project : Project) (s : Surroundings) : Except RunFault Reply :=
  match task with
  | index _ => .ok ⟨project.listScenarios, s.disk⟩
  | related _ name => .ok ⟨project.listRelated name, s.disk⟩
  | check _ files _ =>
    let found := if files.isEmpty then project.findings .everywhere s.disk project.documents
      else project.findings .full s.disk (distinct (task.places s.disk))
    match found with
    | .error error => .error (.load error)
    | .ok found =>
      let report : Report := { result := .findings ⟨found⟩, duration := s.elapsed }
      report.conclude task.name task.report? s.clock s.disk
  | fix _ files dryRun _ =>
    let uris := if files.isEmpty then project.documents else task.places s.disk
    let (batch, disk) := project.repair s dryRun uris
    let report : Report := { result := .repairs batch, duration := s.elapsed }
    report.conclude task.name task.report? s.clock disk

end Task

namespace Invocation

/-- The answer to what is asked for. -/
def run (invocation : Invocation) (s : Surroundings) : Except RunFault Reply :=
  if invocation.isSound s.disk then
    let task := invocation.task
    match Project.load s.disk invocation.choice (Path.resolve s.disk.here (Path.ofText task.root)) with
    | .ok project => task.run project s
    | .error error =>
      if error.isAnswered then .ok ⟨.failure task.name error.message, s.disk⟩
      else .error (.load error)
  else .error .usage

/-- Listing scenarios leaves the disk as it is. -/
theorem run_index_disk {invocation : Invocation} {root : Text} {s : Surroundings} {reply : Reply}
    (listing : invocation.task = .index root) (h : invocation.run s = .ok reply) :
    reply.disk = s.disk := by
  unfold run at h
  split at h
  · simp only [listing] at h
    split at h
    · cases h
      rfl
    · split at h
      · cases h
        rfl
      · cases h
  · cases h

end Invocation

end Scenarist
