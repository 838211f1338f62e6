import Scenarist.Workspace

set_option autoImplicit false

/-! # Requests to a workspace

A request takes several reads and lets others go on in between: the refresh of the index that runs in
the background, and the timer that starts one. At most one request is at work, and at most one refresh
beside it.

Who goes on next is a queue of turns. Turns are taken in rounds: what becomes ready in one round is
taken in the next, and timers that have run out join the queue when a round begins. `Activity.turn`
takes one turn; `Workspace.run` answers a request by taking turns until nothing is ready. -/

namespace Scenarist

/-- What is asked of a workspace. -/
inductive Request where
  /-- The index is refreshed if it cannot be relied on. -/
  | ensureFresh
  /-- The scanned directory is read anew. -/
  | refresh
  /-- The index is made anew from these documents. -/
  | rebuild (uris : List Text)
  /-- These documents are validated, or all that the index knows once it is fresh. -/
  | validateAll (uris : Option (List Text)) (options : ValidationOptions)
  /-- The documents that a document concerns are validated. -/
  | validateRelated (uri text : Text) (options : ValidationOptions)
  /-- A stored document is repaired. -/
  | repair (uri : Text)
  /-- Stored documents are repaired one after the other. -/
  | repairAll (uris : List Text)

/-- What a request comes to. -/
inductive Outcome where
  | fresh
  /-- The number of records in the index. -/
  | indexed (count : Nat)
  /-- The findings by document. -/
  | validated (found : Table (List Diagnostic))
  | repaired (result : RepairResult)
  | repairedAll (result : BatchResult)

/-- A pass over documents that are validated. -/
structure Survey where
  /-- The documents still to read. -/
  remaining : List Text
  options : ValidationOptions
  /-- The pass lets others go on after so many documents. -/
  every : Int
  /-- Whether it ends when the request is cancelled. -/
  cancellable : Bool
  /-- Findings that were there before. -/
  shared : Table (List Diagnostic) := []
  count : Nat := 0
  /-- The findings so far. -/
  found : Table (List Diagnostic) := []

/-- How far a request has come. -/
inductive Progress where
  /-- It waits for the running refresh. Afterwards the index is fresh, or all its documents are
  validated. -/
  | waiting (next : Option ValidationOptions)
  | scanning (scan : Scan)
  | surveying (survey : Survey)
  | repairing (uri : Text)
  | repairingAll (remaining : List Text) (count : Nat) (batch : BatchResult)

/-- What follows after a part of some work. -/
inductive Continuation (α β : Type) where
  /-- The work goes on at once. -/
  | atOnce (rest : α)
  /-- The work goes on after others. -/
  | later (rest : α)
  | done (result : β)

/-- Whether others go on after so many documents. -/
def isPause (every : Int) (count : Nat) : Bool := count % (max 1 every).toNat = 0

namespace Workspace

/-! ## Parts of the work -/

/-- One more file of a scan, or its end: the records are put into the index, and their number is the
result. -/
def scanOn (w : Workspace) (scan : Scan) (cancelled : Bool) :
    Continuation Scan (Except WorkspaceError Outcome) × Workspace :=
  match scan.remaining with
  | [] =>
    (.done (.ok (.indexed scan.found.length)), notify { w with index := w.index.install scan false })
  | uri :: _ =>
    if cancelled then
      (.done (.ok (.indexed scan.found.length)), notify { w with index := w.index.install scan true })
    else
      let (fetched, w) := w.fetch uri
      match scan.tryTake w.index.sourceOf uri fetched with
      | .error fault => (.done (.error (.scalar fault)), w)
      | .ok scan =>
        (if scan.yields w.index.scanYield fetched then .later scan else .atOnce scan, w)

/-- One more document of a survey, or its end. A document that cannot be read is passed over. -/
def surveyOn (w : Workspace) (survey : Survey) :
    Continuation Survey (Except WorkspaceError Outcome) × Workspace :=
  match survey.remaining with
  | [] => (.done (.ok (.validated survey.found)), w)
  | uri :: remaining =>
    if survey.cancellable && w.cancelled then (.done (.ok (.validated survey.found)), w)
    else
      let (fetched, w) := w.fetch uri
      let survey := { survey with remaining, count := survey.count + 1 }
      let next := fun survey : Survey =>
        if isPause survey.every survey.count then Continuation.later survey else .atOnce survey
      match fetched with
      | .error _ => (next survey, w)
      | .ok text => match w.validate uri text survey.options with
        | .error error => (.done (.error error), w)
        | .ok found =>
          let found := found ++ (survey.shared.get? uri).getD []
          (next { survey with found := survey.found.put uri found }, w)

/-- One more document of a batch of repairs, or its end. A document whose pass fails unexpectedly gives
no occasion for others. -/
def repairOn (w : Workspace) (remaining : List Text) (count : Nat) (batch : BatchResult) :
    Continuation Progress (Except WorkspaceError Outcome) × Workspace :=
  match remaining with
  | [] => (.done (.ok (.repairedAll batch)), w)
  | uri :: remaining =>
    if w.cancelled then (.done (.ok (.repairedAll batch)), w)
    else
      let (result, w) := w.repair uri
      let rest := Progress.repairingAll remaining (count + 1) (batch.add uri result)
      (if result.isOk && isPause w.config.scanYield (count + 1) then .later rest else .atOnce rest, w)

/-- The survey of these documents, or of all that the index knows, and the workspace that has looked up
the shared codes for it. -/
def beginSurvey (w : Workspace) (uris : Option (List Text)) (options : ValidationOptions) :
    Survey × Workspace :=
  let uris := uris.getD (w.index.allRecords.map (·.uri))
  let (shared, w) := w.sharedCodes
  ({ remaining := Text.sortLower (distinct uris), options, every := w.config.scanYield,
     cancellable := true, shared }, w)

end Workspace

/-! ## Turns -/

/-- Who goes on. -/
inductive Turn where
  /-- The request. -/
  | request
  /-- The refresh in the background. -/
  | refresh
  /-- The timer that was set when the index had so many dirty marks; it may have been set anew or taken
  back since. -/
  | timer (marks : Nat)
  /-- A new round begins. -/
  | round

/-- The refresh in the background. -/
inductive Background where
  /-- It has not looked at the directory yet. -/
  | begun
  | scanning (scan : Scan)

/-- A workspace at work. -/
structure Activity where
  workspace : Workspace
  /-- The turns to come. -/
  turns : List Turn := []
  background : Option Background := none
  /-- How far the request has come, if there is one. -/
  progress : Option Progress := none
  /-- What the request came to. -/
  outcome : Option (Except WorkspaceError Outcome) := none

namespace Activity

def withRefresher (a : Activity) (refresher : Refresher) : Activity :=
  { a with workspace :=
      { a.workspace with index := { a.workspace.index with refresher } } }

def refresher (a : Activity) : Refresher := a.workspace.index.refresher

def beginRefresh (a : Activity) : Activity :=
  let a := a.withRefresher a.refresher.dropTimer.start
  { a with background := some .begun, turns := a.turns ++ [.refresh] }

def answer (a : Activity) (outcome : Except WorkspaceError Outcome) : Activity :=
  { a with progress := none, outcome := some outcome }

def goOn (a : Activity) (progress : Progress) : Activity :=
  { a with progress := some progress, turns := .request :: a.turns }

/-- The activity with the next part of its request to come. -/
def continueWith {α : Type} (a : Activity) (wrap : α → Progress) :
    Continuation α (Except WorkspaceError Outcome) × Workspace → Activity
  | (.atOnce rest, workspace) => { a with workspace }.goOn (wrap rest)
  | (.later rest, workspace) =>
    { a with workspace, progress := some (wrap rest), turns := a.turns ++ [.request] }
  | (.done outcome, workspace) => { a with workspace }.answer outcome

/-- The activity after the index has become fresh for its request. -/
def proceedFresh (a : Activity) : Option ValidationOptions → Activity
  | none => a.answer (.ok .fresh)
  | some options =>
    let (survey, workspace) := a.workspace.beginSurvey none options
    { a with workspace }.goOn (.surveying survey)

/-- The activity with its request waiting for a refresh: the running one, or one that begins now. -/
def flush (a : Activity) (next : Option ValidationOptions) : Activity :=
  let a := { a with progress := some (.waiting next) }
  if a.refresher.running then a.withRefresher a.refresher.dropTimer else a.beginRefresh

/-- The activity with the index made fresh for its request, unless it can be relied on or there is
nothing to scan. -/
def freshen (a : Activity) (next : Option ValidationOptions) : Activity :=
  if a.workspace.index.state = .populated || a.workspace.index.scanRoot.isNone then
    a.proceedFresh next
  else a.flush next

/-- The request goes on. One that waited for a refresh wants every request served that came
meanwhile. -/
def continueRequest (a : Activity) : Activity :=
  match a.progress with
  | none => a
  | some (.waiting next) => if a.refresher.hasRequest then a.beginRefresh else a.proceedFresh next
  | some (.scanning scan) =>
    a.continueWith .scanning (a.workspace.scanOn scan a.workspace.cancelled)
  | some (.surveying survey) => a.continueWith .surveying (a.workspace.surveyOn survey)
  | some (.repairing uri) =>
    let (result, workspace) := a.workspace.repair uri
    { a with workspace }.answer ((result.mapError WorkspaceError.step).map Outcome.repaired)
  | some (.repairingAll remaining count batch) =>
    a.continueWith id (a.workspace.repairOn remaining count batch)

/-- The refresh in the background has ended, in whatever way: a request that waits for it goes on. -/
def endRefresh (a : Activity) : Activity :=
  let a := a.withRefresher (a.refresher.finish a.workspace.now)
  let waits := match a.progress with
    | some (.waiting _) => true
    | _ => false
  { a with background := none, turns := if waits then a.turns ++ [.request] else a.turns }

def continueRefresh (a : Activity) : Activity :=
  match a.background with
  | none => a
  | some .begun =>
    let scan := a.workspace.index.beginScan (a.workspace.index.filesIn a.workspace.store)
    { a with background := some (.scanning scan), turns := .refresh :: a.turns }
  | some (.scanning scan) => match a.workspace.scanOn scan false with
    | (.atOnce scan, workspace) =>
      { a with workspace, background := some (.scanning scan), turns := .refresh :: a.turns }
    | (.later scan, workspace) =>
      { a with workspace, background := some (.scanning scan), turns := a.turns ++ [.refresh] }
    | (.done _, workspace) => { a with workspace }.endRefresh

/-- The timer runs out, unless it was set anew or taken back. -/
def runOut (a : Activity) (marks : Nat) : Activity :=
  if a.refresher.isPending && a.workspace.index.dirtyMarks = marks then
    if a.refresher.running then a.withRefresher a.refresher.dropTimer else a.beginRefresh
  else a

/-- A new round: the timer joins the queue if it has run out. Nothing is left to do if the queue is
empty then. -/
def beginRound (a : Activity) : Activity :=
  let due := a.refresher.timer.any (· ≤ a.workspace.now)
  let turns := a.turns ++ if due then [.timer a.workspace.index.dirtyMarks] else []
  { a with turns := if turns.isEmpty then [] else turns ++ [.round] }

def turn (a : Activity) : Activity :=
  match a.turns with
  | [] => a
  | next :: turns =>
    let a := { a with turns }
    match next with
    | .request => a.continueRequest
    | .refresh => a.continueRefresh
    | .timer marks => a.runOut marks
    | .round => a.beginRound

/-- The activity after so many turns, or when nothing is left to do. -/
def turnsWithin : (fuel : Nat) → Activity → Activity
  | 0, a => a
  | fuel + 1, a => if a.turns.isEmpty then a else turnsWithin fuel a.turn

end Activity

namespace Workspace

/-- The number of commands that can still come in. -/
def arrivalCount (w : Workspace) : Nat :=
  w.arrivals.foldl (fun count (_, commands) => count + Command.sizes commands) 0

/-- More turns than a request for `documents` documents can take: every refresh has its own request,
timer or command to begin with, no pass is longer than the documents are many, and every round has a
turn. -/
def turnBound (w : Workspace) (documents : Nat) : Nat :=
  let commands := w.arrivalCount
  2 * (commands + 4) * (w.store.files.length + w.index.records.length + documents + commands + 8)

/-- The workspace after everything that is ready has been done. -/
def settle (w : Workspace) : Workspace :=
  (Activity.turnsWithin (w.turnBound 0) { workspace := w, turns := [.round] }).workspace

/-- The workspace after so many timers that run out until a time, each at its own time. -/
def advanceWithin (limit : Seconds) : (fuel : Nat) → Workspace → Workspace
  | 0, w => w
  | fuel + 1, w => match w.index.refresher.timer with
    | none => w
    | some due =>
      if due ≤ limit then advanceWithin limit fuel (settle { w with now := Seconds.later w.now due }) else w

def advance (w : Workspace) (span : Seconds) : Workspace :=
  let limit := w.now + span
  { advanceWithin limit (w.arrivalCount + 2) w with now := limit }

def beginRequest (w : Workspace) (request : Request) : Activity :=
  let a : Activity := { workspace := w }
  let a := match request with
    | .ensureFresh => a.freshen none
    | .refresh =>
      if w.index.scanRoot.isNone then a.answer (.error .noScanRoot)
      else a.goOn (.scanning (w.index.beginScan (w.index.filesIn w.store)))
    | .rebuild uris => a.goOn (.scanning (w.index.beginScan uris))
    | .validateAll none options => a.freshen (some options)
    | .validateAll (some uris) options =>
      let (survey, workspace) := w.beginSurvey (some uris) options
      { a with workspace }.goOn (.surveying survey)
    | .validateRelated uri text options =>
      if w.config.checkRelated then
        match w.relate uri (some text) with
        | (.error error, workspace) => { a with workspace }.answer (.error error)
        | (.ok related, workspace) => { a with workspace }.goOn (.surveying {
            remaining := related.map Source.uri
            options, every := w.config.relatedYield, cancellable := false })
      else a.answer (.ok (.validated []))
    | .repair uri => a.goOn (.repairing uri)
    | .repairAll uris => a.goOn (.repairingAll uris 0 {})
  { a with turns := a.turns ++ [Turn.round] }

def Request.uris : Request → List Text
  | .rebuild uris => uris
  | .validateAll uris _ => uris.getD []
  | .repairAll uris => uris
  | _ => []

/-- The answer to a request, which may have been cancelled before it began, and the workspace when
everything that was ready has been done. -/
def run (w : Workspace) (request : Request) (cancelled : Bool) :
    Except WorkspaceError Outcome × Workspace :=
  let a := Activity.turnsWithin (w.turnBound (Request.uris request).length)
    (beginRequest { w with cancelled } request)
  (a.outcome.getD (.ok .fresh), a.workspace)

end Workspace

end Scenarist
