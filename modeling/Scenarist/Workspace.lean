import Scenarist.QuickFix
import Scenarist.Repair

set_option autoImplicit false

/-! # Workspaces

A workspace holds documents and everything that is worked out about them: the index, what is remembered
about open documents, the step catalog, the settings and the caches. Commands change it one at a time;
each is carried out at once and as a whole. Listeners are told of every change of the index.

Reading a document takes time, and commands can come in meanwhile. Which ones do is part of the
workspace (`arrivals`), so that a run with interruptions is as definite as one without (`fetch`). -/

namespace Scenarist

/-- Why something asked of a workspace was refused. -/
inductive WorkspaceError where
  | store (error : StoreError)
  | scalar (fault : ScalarFault)
  | step (error : StepError)
  /-- A repair pass would have removed these sections. -/
  | rollback (uri : Text) (missing : List SectionKey)
  /-- There is no directory to scan. -/
  | noScanRoot
  /-- The document has no such line. -/
  | noLine

/-- What a refusal for want of a directory says. -/
def noScanRootMessage : Text := "ScenarioIndex has no scan root to refresh from".toList

/-- A change of a workspace that is carried out at once. Where a text may be missing, the stored one is
meant. -/
inductive Command where
  /-- A document is stored. -/
  | put (uri text : Text)
  /-- A stored document is deleted. -/
  | drop (uri : Text)
  /-- What is remembered about documents changes. -/
  | session (change : Session → Session)
  /-- These commands come in when a document is next read. -/
  | expect (uri : Text) (commands : List Command)
  /-- The request at work is cancelled. -/
  | cancelRequest
  /-- The index is marked dirty. -/
  | markDirty
  /-- Refreshes that have not begun are dropped. -/
  | cancelRefresh
  /-- Something happened to a path. -/
  | noteEvent (path : Text)
  /-- A document is entered into the index. -/
  | upsert (uri : Text) (given : Option Text)
  /-- The records of a document are removed from the index. -/
  | remove (uri : Text)
  | listen (listener : Text)
  | unlisten (listener : Text)
  /-- The related documents of a document are looked up. -/
  | relate (uri : Text) (given : Option Text)
  /-- The kept call graph is thrown away. -/
  | forgetGraph
  /-- The repair steps are taken on a document. -/
  | repairText (uri : Text) (given : Option Text)
  /-- The declared parameters of a document are written anew. -/
  | regenerateParameters (uri : Text) (given : Option Text) (exclusions : List Text)
  /-- Fixes are made, for one finding or for all. -/
  | fix (uri : Text) (given : Option Text) (options : ValidationOptions)
    (finding : Option (DiagnosticCode × Nat)) (withSteps : Bool)

mutual

/-- The number of commands in a command, itself included. -/
def Command.size : Command → Nat
  | .expect _ commands => Command.sizes commands + 1
  | _ => 1

def Command.sizes : List Command → Nat
  | [] => 0
  | command :: commands => command.size + Command.sizes commands

end

/-- A workspace. -/
structure Workspace extends Desk where
  /-- The working directory. -/
  cwd : Path
  store : MemoryStore
  catalog : StepCatalog
  config : Config
  executor : Executor
  duplicates : DuplicateCache := {}
  graph : GraphCache := {}
  now : Seconds := 0
  /-- Whether timers are served yet. -/
  timersServed : Bool := true
  /-- The commands that come in when a document is next read. -/
  arrivals : Table (List Command) := []
  /-- Whether the request at work was cancelled. -/
  cancelled : Bool := false
  /-- Who is told of changes of the index, in order. -/
  listeners : List Text := []
  /-- The generation of the index that the listeners were last told of. -/
  told : Nat := 0
  /-- What the listeners were told: who, and of which generation. -/
  notices : List (Text × Nat) := []

namespace Workspace

/-! ## Listeners -/

/-- The workspace after its listeners were told of every change of the index since the last time. -/
def notify (w : Workspace) : Workspace :=
  let generations := List.range' (w.told + 1) (w.index.generation - w.told)
  { w with
    told := w.index.generation
    notices := w.notices ++ generations.flatMap fun generation => w.listeners.map (·, generation) }

def listen (w : Workspace) (listener : Text) : Workspace :=
  { w with listeners := w.listeners ++ [listener] }

def unlisten (w : Workspace) (listener : Text) : Workspace :=
  { w with listeners := (w.listeners.reverse.erase listener).reverse }

/-! ## Documents -/

def textOf (w : Workspace) (uri : Text) (given : Option Text) : Except WorkspaceError Text :=
  match given with
  | some text => .ok text
  | none => (w.store.read uri).mapError .store

def put (w : Workspace) (uri text : Text) : Workspace := { w with store := w.store.write uri text }

def drop (w : Workspace) (uri : Text) : Workspace := { w with store := w.store.erase uri }

/-! ## The index -/

/-- A document is entered into the index: whether that changed it, and the workspace afterwards. -/
def upsert (w : Workspace) (uri : Text) (given : Option Text) :
    Except WorkspaceError Bool × Workspace :=
  match w.textOf uri given with
  | .error error => (.error error, w)
  | .ok text => match w.index.tryUpsert uri text with
    | .error fault => (.error (.scalar fault), w)
    | .ok (changed, index) => (.ok changed, notify { w with index })

/-- The records of a document are removed: whether there were any, and the workspace afterwards. -/
def remove (w : Workspace) (uri : Text) : Bool × Workspace :=
  let (removed, index) := w.index.remove uri
  (removed, notify { w with index })

def markDirty (w : Workspace) : Workspace :=
  { w with index := w.index.markDirty w.now w.timersServed }

/-- The workspace without the refreshes that have not begun. -/
def cancelRefresh (w : Workspace) : Workspace :=
  { w with index := { w.index with refresher := w.index.refresher.cancel } }

/-- Something happened to a path: whether the index cares, and the workspace afterwards. -/
def noteEvent (w : Workspace) (path : Text) : Bool × Workspace :=
  if w.index.tracks w.cwd (Path.ofText path) then (true, w.markDirty) else (false, w)

/-- The documents that a document concerns, and the workspace that keeps the call graph. -/
def relate (w : Workspace) (uri : Text) (given : Option Text) :
    Except WorkspaceError (List Source) × Workspace :=
  match w.textOf uri given with
  | .error error => (.error error, w)
  | .ok text =>
    let (calls, graph) := w.graph.get w.index
    ((guardScalars (Declaration.scalarsOfMetadata .name text)
      (relatedDocuments calls w.config { uri, text })).mapError .scalar, { w with graph })

def forgetGraph (w : Workspace) : Workspace := { w with graph := w.graph.invalidate }

/-- The warnings about shared codes, and the workspace that keeps them. -/
def sharedCodes (w : Workspace) : Table (List Diagnostic) × Workspace :=
  let (found, duplicates) := w.duplicates.get w.index
  (found, { w with duplicates })

/-! ## Findings and fixes -/

def checker (w : Workspace) : Checker := ⟨w.index.records, w.catalog, w.config⟩

def validate (w : Workspace) (uri text : Text) (options : ValidationOptions) :
    Except WorkspaceError (List Diagnostic) :=
  (w.checker.tryValidate { uri, text } options).mapError .scalar

abbrev Fixed := (DiagnosticCode × Nat) × List QuickFix

/-- The fixes for findings about a document, and the workspace afterwards. The first finding that cannot
be looked at ends it. -/
def fixAll (document : Document) (withSteps : Bool) :
    List (DiagnosticCode × Nat) → Workspace → Except WorkspaceError (List Fixed) × Workspace
  | [], w => (.ok [], w)
  | (code, line) :: findings, w =>
    if QuickFix.needsLine code withSteps && (document.lineAt? line).isNone then (.error .noLine, w)
    else match guardScalars (QuickFix.scalarsOf document code line w.index) () with
      | .error fault => (.error (.scalar fault), w)
      | .ok _ =>
        let (fixes, session, supply) := QuickFix.all document code line w.index
          (if withSteps then some w.catalog else none) w.config w.session w.supply
        let (rest, w) := fixAll document withSteps findings { w with session, supply }
        (rest.map (((code, line), fixes) :: ·), w)

/-- The fixes for one finding, or for all that are made of a document. -/
def fixes (w : Workspace) (uri : Text) (given : Option Text) (options : ValidationOptions)
    (finding : Option (DiagnosticCode × Nat)) (withSteps : Bool) :
    Except WorkspaceError (List Fixed) × Workspace :=
  match w.textOf uri given with
  | .error error => (.error error, w)
  | .ok text =>
    let findings : Except WorkspaceError (List (DiagnosticCode × Nat)) := match finding with
      | some finding => .ok [finding]
      | none => (w.validate uri text options).map fun found => found.map fun d => (d.code, d.line)
    match findings with
    | .error error => (.error error, w)
    | .ok findings => fixAll { uri, text } withSteps findings w

/-! ## Repair -/

/-- The repair steps on a document that is not stored, and the workspace afterwards. -/
def repairText (w : Workspace) (uri : Text) (given : Option Text) :
    Except WorkspaceError RepairResult × Workspace :=
  match w.textOf uri given with
  | .error error => (.error error, w)
  | .ok text =>
    let (result, desk) := w.executor.repairText uri text w.toDesk
    let w := notify { w with toDesk := desk }
    match result with
    | .ok result => (.ok result, w)
    | .error (.step error) => (.error (.step error), w)
    | .error (.rollback missing) => (.error (.rollback uri missing), w)

/-- The declared parameters of a document written anew, and the workspace afterwards. -/
def regenerateParameters (w : Workspace) (uri : Text) (given : Option Text)
    (exclusions : List Text) : Except WorkspaceError Regeneration × Workspace :=
  match w.textOf uri given with
  | .error error => (.error error, w)
  | .ok text => match guardScalars (Declaration.scalarsOfParameterData text) () with
    | .error fault => (.error (.scalar fault), w)
    | .ok _ =>
      let (result, session) := Scenarist.regenerateParameters w.session uri text exclusions
      (.ok result, { w with session })

end Workspace

/-! ## Commands -/

/-- What a command leaves behind. A command that is refused ends where it was refused. -/
def Command.apply (command : Command) (w : Workspace) : Workspace :=
  match command with
  | .put uri text => w.put uri text
  | .drop uri => w.drop uri
  | .session change => { w with session := change w.session }
  | .expect uri commands => { w with arrivals := w.arrivals.put uri commands }
  | .cancelRequest => { w with cancelled := true }
  | .markDirty => w.markDirty
  | .cancelRefresh => w.cancelRefresh
  | .noteEvent path => (w.noteEvent path).2
  | .upsert uri given => (w.upsert uri given).2
  | .remove uri => (w.remove uri).2
  | .listen listener => w.listen listener
  | .unlisten listener => w.unlisten listener
  | .relate uri given => (w.relate uri given).2
  | .forgetGraph => w.forgetGraph
  | .repairText uri given => (w.repairText uri given).2
  | .regenerateParameters uri given exclusions => (w.regenerateParameters uri given exclusions).2
  | .fix uri given options finding withSteps => (w.fixes uri given options finding withSteps).2

namespace Workspace

/-- A document is read: its text as it is when the reading begins, and the workspace after the commands
that came in meanwhile. While a document is missing, nothing comes in. -/
def fetch (w : Workspace) (uri : Text) : Except StoreError Text × Workspace :=
  match w.store.read uri with
  | .error error => (.error error, w)
  | .ok text =>
    -- what is expected comes in during this reading, and not during the next one as well
    let commands := (w.arrivals.get? uri).getD []
    let w := { w with arrivals := w.arrivals.erase uri }
    (.ok text, commands.foldl (fun w command => command.apply w) w)

/-- A repair pass over a stored document, and the workspace afterwards. -/
def repair (w : Workspace) (uri : Text) : Except StepError RepairResult × Workspace :=
  match w.session.begin uri with
  | (false, _) => (.ok { path := uri, skipped := true }, w)
  | (true, session) =>
    -- what comes in during the reading finds the document taken
    let (fetched, w) := fetch { w with session } uri
    let (result, store, desk) :=
      w.executor.handle uri (session.overridesOf uri) fetched w.store w.toDesk
    (result, notify { w with store, toDesk := Executor.release uri desk })

end Workspace

end Scenarist
