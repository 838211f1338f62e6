import Scenarist.Refresher

set_option autoImplicit false

/-! # Refreshes in time

What happens to refreshes that take time, while requests come in and callers wait for them. The clock
stands still while everything that can go on goes on, and moves to the next event only when it is
advanced. Callers that wait for one refresh go on in the order in which they began to wait.

The timer is set only while no refresh runs, so at most one event is ahead at any moment; and without a
further request no more than three follow one another: a refresh ends, the timer that it left behind runs
out, and the refresh that this begins ends. -/

namespace Scenarist

/-- A caller that waits for the running refresh. -/
inductive Waiter where
  /-- It goes on when the refresh ends. -/
  | wait
  /-- It also wants every request served that came meanwhile. -/
  | flush
  deriving DecidableEq, Repr

/-- Refreshes, callers and the clock. -/
structure Timeline where
  /-- How long each refresh takes. -/
  duration : Seconds
  /-- The numbers of the refreshes that fail at their end. -/
  failing : List Nat
  refresher : Refresher
  now : Seconds := 0
  /-- When the running refresh ends. -/
  endsAt : Option Seconds := none
  /-- How many refreshes have begun. -/
  started : Nat := 0
  /-- How many have ended without failing. -/
  finished : Nat := 0
  /-- The callers that wait for the running refresh, in order. -/
  waiters : List Waiter := []
  deriving DecidableEq, Repr

namespace Timeline

def begin (line : Timeline) (refresher : Refresher) : Timeline :=
  { line with refresher, started := line.started + 1, endsAt := some (line.now + line.duration) }

/-- A caller asks for a refresh now, or for the running one and what was requested meanwhile. -/
def flush (line : Timeline) : Timeline :=
  let refresher := line.refresher.dropTimer
  let line := if refresher.running then { line with refresher } else line.begin refresher.start
  { line with waiters := line.waiters ++ [.flush] }

/-- A caller waits for the running refresh, if there is one. -/
def wait (line : Timeline) : Timeline :=
  if line.refresher.running then { line with waiters := line.waiters ++ [.wait] } else line

def request (line : Timeline) (timersServed : Bool) : Timeline :=
  { line with refresher := line.refresher.request line.now timersServed }

/-- Requests that no refresh has taken up are dropped. -/
def cancel (line : Timeline) : Timeline := { line with refresher := line.refresher.cancel }

/-- A caller goes on after the refresh that it waited for. -/
def resume (line : Timeline) : Waiter → Timeline
  | .wait => line
  | .flush =>
    if line.refresher.hasRequest then
      let line := line.begin line.refresher.dropTimer.start
      { line with waiters := line.waiters ++ [.flush] }
    else line

/-- The running refresh ends and the callers that waited for it go on. -/
def endRefresh (line : Timeline) : Timeline :=
  let done : Timeline := { line with
    refresher := line.refresher.finish line.now
    endsAt := none
    finished := if line.started ∈ line.failing then line.finished else line.finished + 1
    waiters := [] }
  line.waiters.foldl resume done

def fire (line : Timeline) : Timeline :=
  let refresher := line.refresher.fire
  if line.refresher.running then { line with refresher } else line.begin refresher

/-- The line after the events that are due until a time, each at its own time; `fuel` bounds their
number. -/
def runWithin (limit : Seconds) : (fuel : Nat) → Timeline → Timeline
  | 0, line => line
  | fuel + 1, line =>
    match line.endsAt, line.refresher.timer with
    | some due, _ =>
      if due ≤ limit then runWithin limit fuel { line with now := Seconds.later line.now due }.endRefresh
      else line
    | none, some due =>
      if due ≤ limit then runWithin limit fuel { line with now := Seconds.later line.now due }.fire else line
    | none, none => line

/-- The line after everything that can go on without the clock moving. -/
def settle (line : Timeline) : Timeline := runWithin line.now 4 line

def advance (line : Timeline) (span : Seconds) : Timeline :=
  let target := line.now + span
  { runWithin target 4 line with now := target }

end Timeline

end Scenarist
