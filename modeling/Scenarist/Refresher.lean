set_option autoImplicit false

/-! # Debounced refreshes

Requests for a refresh come in bursts. A request starts a timer, and a further one starts it anew; when
it runs out, one refresh runs. Requests made meanwhile are served by another refresh after it, so at
most one runs at a time and none is forgotten. Flushing skips the wait.

This module holds the state and what each event does to it, each event at a time that the caller
gives. -/

namespace Scenarist

/-- A time or a span of time, in seconds. -/
abbrev Seconds := Rat

def Seconds.later (a b : Seconds) : Seconds := if a ≤ b then b else a

/-- The state of the refreshes. -/
structure Refresher where
  /-- How long a request waits for further ones. -/
  debounce : Seconds
  /-- When the timer runs out, if it is set. -/
  timer : Option Seconds := none
  /-- Whether a refresh is running. -/
  running : Bool := false
  /-- Whether a request waits for the running refresh to end, or for a flush. -/
  rerun : Bool := false
  /-- When the first request came that no refresh has taken up yet. -/
  since : Option Seconds := none
  deriving DecidableEq, Repr

namespace Refresher

/-- Whether the timer is set. -/
def isPending (r : Refresher) : Bool := r.timer.isSome

def hasRequest (r : Refresher) : Bool := r.rerun || r.timer.isSome

/-- How long the first request has been waiting. -/
def elapsed (r : Refresher) (now : Seconds) : Seconds := (r.since.map (now - ·)).getD 0

/-- A request. While timers are not served, or a refresh is running, it is only remembered. -/
def request (r : Refresher) (now : Seconds) (timersServed : Bool) : Refresher :=
  let r := { r with since := some (r.since.getD now) }
  if !timersServed || r.running then { r with rerun := true }
  else { r with timer := some (now + r.debounce) }

def dropTimer (r : Refresher) : Refresher := { r with timer := none }

/-- Requests that no refresh has taken up are dropped. -/
def cancel (r : Refresher) : Refresher := { r with timer := none, rerun := false, since := none }

/-- A refresh begins and takes up every request made so far. -/
def start (r : Refresher) : Refresher := { r with running := true, rerun := false, since := none }

/-- The timer has run out: a refresh begins unless one is running. -/
def fire (r : Refresher) : Refresher :=
  let r := r.dropTimer
  if r.running then r else r.start

/-- The running refresh has ended. A request that came meanwhile starts the timer. -/
def finish (r : Refresher) (now : Seconds) : Refresher :=
  if r.rerun then { r with running := false, rerun := false, timer := some (now + r.debounce) }
  else { r with running := false }

end Refresher

end Scenarist
