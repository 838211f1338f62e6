import Scenarist.Alignment
import Scenarist.Regeneration

set_option autoImplicit false

/-! # Repair

A repair pass takes a document through steps: tabs, tables and assignments are put in order, the document
is entered into the index, and its declarations are written anew. If a section of the document has
disappeared after the last step, the pass is rolled back and nothing of it stays: neither the text, nor
the index entry, nor the parameter data. Other failures are reported, or passed on if they are none that
a pass expects.

Main definitions: `Executor.repairText` (the steps alone), `Executor.repair` (a document of a store) and
`Executor.repairAll` (many documents, with their outcomes collected). -/

namespace Scenarist

/-! ## Steps -/

/-- Why a step failed. -/
inductive StepError where
  /-- The system refused to read or write. -/
  | refused (reason : Text)
  /-- The step reports that it cannot be done. -/
  | reported (message : Text)
  /-- Anything else, under the word for its kind. -/
  | unexpected (kind message : Text)
  deriving DecidableEq, Repr

/-- A scalar without a value is not expected. -/
def StepError.ofFault (fault : ScalarFault) : StepError := .unexpected fault.kind fault.message

/-- What a step does. -/
inductive StepAction where
  /-- It changes the text alone, which may depend on where the document is. -/
  | rewrite (change : (uri text : Text) → Except StepError Text)
  /-- It enters the document into the index. -/
  | index
  /-- It writes the declared calls anew. -/
  | nested
  /-- It writes the declared parameters anew. -/
  | parameters

/-- It changes the text alone, wherever the document is. -/
def StepAction.edit (change : Text → Except StepError Text) : StepAction := .rewrite fun _ => change

/-- A step under its name. -/
structure RepairStep where
  name : Text
  action : StepAction

/-- Which steps run and whether the result is written. -/
structure RepairConfig where
  normalizeTabs : Bool := true
  alignTables : Bool := true
  alignAssignments : Bool := true
  regenerateNested : Bool := true
  regenerateParameters : Bool := true
  writeChanges : Bool := true
  deriving DecidableEq, Repr

namespace RepairStep

/-- A step that changes the text by a function. -/
def ofFunction (name : String) (change : Text → Text) : RepairStep :=
  ⟨name.toList, .edit fun text => .ok (change text)⟩

def normalizeTabs : RepairStep := ofFunction "normalize_tabs" Text.expandLeadingTabs

def alignTables : RepairStep := ofFunction "align_tables" alignScriptTables

def alignAssignments : RepairStep := ofFunction "align_call_parameters" alignScriptAssignments

def index : RepairStep := ⟨"index".toList, .index⟩

def regenerateNested : RepairStep := ⟨"regenerate_nested".toList, .nested⟩

def regenerateParameters : RepairStep := ⟨"regenerate_parameters".toList, .parameters⟩

/-- The steps that a configuration asks for. The document is always entered into the index. -/
def ofConfig (config : RepairConfig) : List RepairStep :=
  (if config.normalizeTabs then [normalizeTabs] else []) ++
  (if config.alignTables then [alignTables] else []) ++
  (if config.alignAssignments then [alignAssignments] else []) ++
  [index] ++
  (if config.regenerateNested then [regenerateNested] else []) ++
  (if config.regenerateParameters then [regenerateParameters] else [])

end RepairStep

/-! ## One document -/

/-- What a pass works with besides the text: it changes as the steps go on. -/
structure Desk where
  index : Index
  session : Session
  supply : UidSupply

/-- A pass: its steps, the parameters never declared, and whether the result is written. -/
structure Executor where
  steps : List RepairStep
  exclusions : List Text
  writeChanges : Bool

/-- What became of a document. -/
structure RepairResult where
  path : Text
  changed : Bool := false
  /-- Whether another pass was at work on it. -/
  skipped : Bool := false
  text : Text := []
  /-- The names of the steps that changed it. -/
  applied : List Text := []
  error : Option Text := none
  deriving DecidableEq, Repr

/-- Why the steps came to no result. -/
inductive RepairError where
  /-- A step failed. -/
  | step (error : StepError)
  /-- These sections have disappeared. -/
  | rollback (missing : List SectionKey)

def rollbackMessage (uri : Text) (missing : List SectionKey) : Text :=
  "Automatic fix would remove section(s) ".toList ++
    Text.joinWith ", ".toList (missing.map SectionKey.name) ++ " in ".toList ++ uri ++
    "; changes reverted.".toList

/-- The sections of one text that another one lacks, sorted by their names. -/
def missingSections (before after : Text) : List SectionKey :=
  Text.sortBy SectionKey.name <|
    (SectionKey.presentIn before).filter fun key => !SectionKey.isIn after key

/-- One step of a pass over a document: its text, or the failure, and the desk afterwards. -/
def StepAction.run (executor : Executor) (uri text : Text) (desk : Desk) :
    StepAction → Except StepError Text × Desk
  | .rewrite change => (change uri text, desk)
  | .index => match desk.index.tryUpsert uri text with
    | .ok (_, entered) => (.ok text, { desk with index := entered })
    | .error fault => (.error (.ofFault fault), desk)
  | .nested =>
    -- an index without records knows no call, and the section is left as it is
    if desk.index.records.isEmpty then (.ok text, desk)
    else match guardScalars (Declaration.scalarsOfNestedUids text) () with
      | .error fault => (.error (.ofFault fault), desk)
      | .ok _ =>
        let (result, supply) := regenerateNested desk.index desk.supply text
        (.ok result.text, { desk with supply })
  | .parameters => match guardScalars (Declaration.scalarsOfParameterData text) () with
    | .error fault => (.error (.ofFault fault), desk)
    | .ok _ =>
      let (result, session) := regenerateParameters desk.session uri text executor.exclusions
      (.ok result.text, { desk with session })

namespace Executor

/-- The steps one after the other: the text and the names of those that changed it, or the failure of
the first that failed, and the desk afterwards. -/
def runSteps (executor : Executor) (uri : Text) :
    List RepairStep → Text → Desk → Except StepError (Text × List Text) × Desk
  | [], text, desk => (.ok (text, []), desk)
  | step :: steps, text, desk => match step.action.run executor uri text desk with
    | (.error error, desk) => (.error error, desk)
    | (.ok updated, desk) => match runSteps executor uri steps updated desk with
      | (.error error, desk) => (.error error, desk)
      | (.ok (final, applied), desk) =>
        (.ok (final, if updated = text then applied else step.name :: applied), desk)

/-- A document taken through the steps without being stored. -/
def repairText (executor : Executor) (uri text : Text) (desk : Desk) :
    Except RepairError RepairResult × Desk :=
  match executor.runSteps uri executor.steps text desk with
  | (.error error, desk) => (.error (.step error), desk)
  | (.ok (final, applied), desk) =>
    let missing := missingSections text final
    (if missing.isEmpty then .ok { path := uri, changed := final ≠ text, text := final, applied }
      else .error (.rollback missing), desk)

def storeFailure (reason : Text) : Text := "Failed to read or write: ".toList ++ reason

/-- The desk after a rollback: the index holds the document as it was, and the session the parameter
data as they were. -/
def restore (uri before : Text) (overrides : Table ParameterData) (desk : Desk) : Desk :=
  let session := desk.session.clearOverrides uri
  { desk with
    index := (desk.index.upsert uri before).2
    session := if overrides.isEmpty then session else session.merge uri overrides }

/-- What a pass does with the text that it fetched, `overrides` being the parameter data before it: the
result, or a failure that is passed on, with store and desk afterwards. -/
def handle {σ : Type} [DocumentStore σ] (executor : Executor) (uri : Text)
    (overrides : Table ParameterData) (fetched : Except StoreError Text) (store : σ) (desk : Desk) :
    Except StepError RepairResult × σ × Desk :=
  match fetched with
  | .error error => (.ok { path := uri, error := some (storeFailure error.message) }, store, desk)
  | .ok before => match executor.repairText uri before desk with
    | (.error (.rollback missing), desk) =>
      let result : RepairResult :=
        { path := uri, text := before, error := some (rollbackMessage uri missing) }
      -- the old text is entered into the index once more, which may refuse it
      match guardScalars (Record.scalarsOf before) () with
      | .ok _ => (.ok result, store, restore uri before overrides desk)
      | .error fault => (.error (.ofFault fault), store, desk)
    | (.error (.step (.refused reason)), desk) =>
      (.ok { path := uri, error := some (storeFailure reason) }, store, desk)
    | (.error (.step (.reported message)), desk) =>
      (.ok { path := uri, error := some message }, store, desk)
    | (.error (.step error), desk) => (.error error, store, desk)
    | (.ok result, desk) =>
      if result.changed && executor.writeChanges then
        match DocumentStore.write store uri result.text with
        | .error error =>
          (.ok { result with error := some (storeFailure error.message) }, store, desk)
        | .ok store =>
          (.ok result, store, { desk with session := desk.session.recordSaved uri result.text })
      else (.ok result, store, desk)

/-- The desk with no pass at work on a document. -/
def release (uri : Text) (desk : Desk) : Desk :=
  { desk with session := desk.session.finish uri }

/-- A pass over a document of a store, which is skipped if another pass is at work on it. -/
def repair {σ : Type} [DocumentStore σ] (executor : Executor) (uri : Text) (store : σ) (desk : Desk) :
    Except StepError RepairResult × σ × Desk :=
  match desk.session.begin uri with
  | (false, _) => (.ok { path := uri, skipped := true }, store, desk)
  | (true, session) =>
    let (result, store, desk) := executor.handle uri (desk.session.overridesOf uri)
      (DocumentStore.read store uri) store { desk with session }
    (result, store, release uri desk)

end Executor

/-! ## Many documents -/

/-- The outcomes of passes over many documents, each list in the order of the passes. -/
structure BatchResult where
  changed : List Text := []
  unchanged : List Text := []
  skipped : List Text := []
  /-- The documents whose passes failed, with the reasons. -/
  failures : List (Text × Text) := []
  deriving DecidableEq, Repr

namespace BatchResult

def hasErrors (batch : BatchResult) : Bool := !batch.failures.isEmpty

def total (batch : BatchResult) : Nat :=
  batch.changed.length + batch.unchanged.length + batch.skipped.length + batch.failures.length

/-- The outcomes with one more. An error without a text counts as none. -/
def add (batch : BatchResult) (uri : Text) : Except StepError RepairResult → BatchResult
  | .error (.unexpected kind message) => { batch with failures := batch.failures ++
      [(uri, "Unexpected error: ".toList ++ kind ++ ": ".toList ++ message)] }
  | .error (.refused reason) | .error (.reported reason) =>
    { batch with failures := batch.failures ++ [(uri, reason)] }
  | .ok result => match result.error.filter (!·.isEmpty) with
    | some error => { batch with failures := batch.failures ++ [(result.path, error)] }
    | none =>
      if result.skipped then { batch with skipped := batch.skipped ++ [result.path] }
      else if result.changed then { batch with changed := batch.changed ++ [result.path] }
      else { batch with unchanged := batch.unchanged ++ [result.path] }

end BatchResult

def Executor.repairAll {σ : Type} [DocumentStore σ] (executor : Executor) :
    List Text → BatchResult → σ → Desk → BatchResult × σ × Desk
  | [], batch, store, desk => (batch, store, desk)
  | uri :: uris, batch, store, desk =>
    let (result, store, desk) := executor.repair uri store desk
    executor.repairAll uris (batch.add uri result) store desk

end Scenarist
