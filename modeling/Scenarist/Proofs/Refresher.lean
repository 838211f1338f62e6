import Scenarist.Refresher.Timeline
import Mathlib.Data.List.Basic

set_option autoImplicit false

/-! # What refreshes keep

Requests come in, are dropped, and are waited for, and the clock moves on in steps. What happens in a step
is a list of moments: the step itself and the events that it makes due. Every moment keeps the parts of a
line together, so that at most one refresh runs and the timer waits while one does.

A refresh ends with a request waiting for it or without one. If one waits, the first flush that goes on
begins the next refresh, and every later caller finds nothing left to do. So a step begins at most one
refresh, and a `pace` before each step gives every refresh a duration of its own.

Main statements: `Timeline.endRefresh_cases` (what the end of a refresh does), `Timeline.IsSafe.pass` (what
every moment keeps) and `Timeline.IsSafe.isQuiet_after` (a step leaves nothing undone that is due). -/

namespace Scenarist

/-- What is done with refreshes from outside. -/
inductive TimelineStep where
  /-- A request, made while timers are served or not yet. -/
  | request (timersServed : Bool)
  /-- Requests that no refresh has taken up are dropped. -/
  | cancel
  /-- A caller asks for a refresh now. -/
  | flush
  /-- A caller waits for the running refresh. -/
  | wait
  /-- The refreshes that begin from now on take this long. -/
  | pace (duration : Seconds)
  /-- A span of time passes. -/
  | advance (span : Seconds)
  deriving DecidableEq, Repr

namespace Timeline

def fresh (debounce duration : Seconds) (failing : List Nat) : Timeline :=
  { duration, failing, refresher := { debounce } }

/-- The line after a step, when everything that can go on has gone on. -/
def after (line : Timeline) : TimelineStep → Timeline
  | .request timersServed => (line.request timersServed).settle
  | .cancel => line.cancel.settle
  | .flush => line.flush.settle
  | .wait => line.wait.settle
  | .pace duration => { line with duration }.settle
  | .advance span => line.advance span

def run (line : Timeline) (steps : List TimelineStep) : Timeline := steps.foldl after line

/-! ## Moments -/

/-- What happens at one moment. -/
inductive Moment where
  | request (timersServed : Bool)
  | cancel
  | flush
  | wait
  | pace (duration : Seconds)
  /-- The clock shows another time. -/
  | clock (time : Seconds)
  /-- The running refresh ends. -/
  | endRefresh
  /-- The timer runs out. -/
  | fire
  deriving DecidableEq, Repr

/-- The line after a moment. A refresh that does not run does not end, and a timer that is not set does not
run out. -/
def pass (line : Timeline) : Moment → Timeline
  | .request timersServed => line.request timersServed
  | .cancel => line.cancel
  | .flush => line.flush
  | .wait => line.wait
  | .pace duration => { line with duration }
  | .clock time => { line with now := time }
  | .endRefresh => if line.endsAt.isSome then line.endRefresh else line
  | .fire => if line.refresher.timer.isSome then line.fire else line

/-- The event that comes next if nothing else happens, and when it does. -/
def next? (line : Timeline) : Option (Seconds × Moment) :=
  match line.endsAt, line.refresher.timer with
  | some due, _ => some (due, .endRefresh)
  | none, some due => some (due, .fire)
  | none, none => none

/-- The line after its next event, which comes at this time or was due before. -/
def passNext (line : Timeline) (due : Seconds) (event : Moment) : Timeline :=
  (line.pass (.clock (Seconds.later line.now due))).pass event

/-- The next event ends the running refresh, or the timer runs out. -/
theorem passNext_cases {line : Timeline} {due : Seconds} {event : Moment}
    (hnext : line.next? = some (due, event)) :
    (line.endsAt.isSome = true ∧
        line.passNext due event = (line.pass (.clock (Seconds.later line.now due))).endRefresh) ∨
      (line.refresher.timer.isSome = true ∧
        line.passNext due event = (line.pass (.clock (Seconds.later line.now due))).fire) := by
  unfold next? at hnext
  split at hnext
  · next hends =>
    cases hnext
    exact Or.inl ⟨by rw [hends]; rfl, if_pos (by simp [pass, hends])⟩
  · next htimer =>
    cases hnext
    exact Or.inr ⟨by rw [htimer]; rfl, if_pos (by simp [pass, htimer])⟩
  · exact absurd hnext (by simp)

theorem runWithin_succ (limit : Seconds) (fuel : Nat) (line : Timeline) :
    runWithin limit (fuel + 1) line = match line.next? with
      | some (due, event) => if due ≤ limit then runWithin limit fuel (line.passNext due event) else line
      | none => line := by
  obtain ⟨_, _, ⟨_, timer, _, _, _⟩, _, endsAt, _, _, _⟩ := line
  cases endsAt with
  | some due => rfl
  | none => cases timer <;> rfl

def momentsWithin (limit : Seconds) : (fuel : Nat) → Timeline → List Moment
  | 0, _ => []
  | fuel + 1, line => match line.next? with
    | some (due, event) =>
      if due ≤ limit then
        .clock (Seconds.later line.now due) :: event :: momentsWithin limit fuel (line.passNext due event)
      else []
    | none => []

theorem foldl_momentsWithin (limit : Seconds) (fuel : Nat) (line : Timeline) :
    (momentsWithin limit fuel line).foldl pass line = runWithin limit fuel line := by
  induction fuel generalizing line with
  | zero => rfl
  | succ fuel ih =>
      rw [runWithin_succ]
      unfold momentsWithin
      split
      · split
        · exact ih _
        · rfl
      · rfl

/-- A moment and those that it makes due. -/
def momentsFrom (line : Timeline) (moment : Moment) : List Moment :=
  moment :: momentsWithin (line.pass moment).now 4 (line.pass moment)

def moments (line : Timeline) : TimelineStep → List Moment
  | .request timersServed => line.momentsFrom (.request timersServed)
  | .cancel => line.momentsFrom .cancel
  | .flush => line.momentsFrom .flush
  | .wait => line.momentsFrom .wait
  | .pace duration => line.momentsFrom (.pace duration)
  | .advance span => momentsWithin (line.now + span) 4 line ++ [.clock (line.now + span)]

/-- The moments of a step make up the step. -/
theorem foldl_moments (line : Timeline) (step : TimelineStep) :
    (line.moments step).foldl pass line = line.after step := by
  cases step with
  | request | cancel | flush | wait | pace => exact foldl_momentsWithin ..
  | advance span =>
      unfold moments
      rw [List.foldl_append, foldl_momentsWithin]
      rfl

/-! ## The end of a refresh -/

/-- The line when its running refresh has ended and nobody has gone on yet. -/
def close (line : Timeline) : Timeline :=
  { line with
    refresher := line.refresher.finish line.now
    endsAt := none
    finished := if line.started ∈ line.failing then line.finished else line.finished + 1
    waiters := [] }

/-- The line when the first flush that went on has begun the next refresh. -/
def renew (line : Timeline) : Timeline :=
  { line.close.begin line.close.refresher.dropTimer.start with waiters := [.flush] }

variable {line : Timeline}

theorem running_close (line : Timeline) : line.close.refresher.running = false := by
  show (line.refresher.finish line.now).running = _
  unfold Refresher.finish
  split <;> rfl

theorem hasRequest_close (line : Timeline) :
    line.close.refresher.hasRequest = line.refresher.hasRequest := by
  show (line.refresher.finish line.now).hasRequest = _
  unfold Refresher.finish
  split
  · next hrerun => simp [Refresher.hasRequest, hrerun]
  · rfl

theorem foldl_resume_of_no_request (h : line.refresher.hasRequest = false) (waiters : List Waiter) :
    waiters.foldl resume line = line := by
  induction waiters with
  | nil => rfl
  | cons waiter waiters ih =>
      cases waiter with
      | wait => exact ih
      | flush =>
          rw [List.foldl_cons]
          unfold resume
          rwa [h, if_neg (by simp)]

theorem foldl_resume_of_request (h : line.refresher.hasRequest = true) (waiters : List Waiter) :
    waiters.foldl resume line =
      if .flush ∈ waiters then
        { line.begin line.refresher.dropTimer.start with waiters := line.waiters ++ [.flush] }
      else line := by
  induction waiters with
  | nil => rfl
  | cons waiter waiters ih =>
      cases waiter with
      | wait =>
          have hmem : Waiter.flush ∈ Waiter.wait :: waiters ↔ .flush ∈ waiters := by simp
          simp only [hmem]
          exact ih
      | flush =>
          have hresume : line.resume .flush =
              { line.begin line.refresher.dropTimer.start with waiters := line.waiters ++ [.flush] } := by
            unfold resume
            rw [if_pos h]
            rfl
          -- the refresh that the first flush begins takes the request away, so that the others do nothing
          rw [List.foldl_cons, hresume, if_pos List.mem_cons_self]
          exact foldl_resume_of_no_request rfl waiters

/-- When a refresh has ended either nothing more begins, or a request waited for it and so did a flush,
and the next refresh begins. -/
theorem endRefresh_cases (line : Timeline) :
    (line.endRefresh = line.close ∧ (line.refresher.hasRequest = false ∨ .flush ∉ line.waiters)) ∨
      (line.endRefresh = line.renew ∧ line.refresher.hasRequest = true ∧ .flush ∈ line.waiters) := by
  have hends : line.endRefresh = line.waiters.foldl resume line.close := rfl
  have hrequest := line.hasRequest_close
  rw [hends]
  cases h : line.refresher.hasRequest with
  | false => exact Or.inl ⟨foldl_resume_of_no_request (hrequest.trans h) _, Or.inl rfl⟩
  | true =>
      rw [foldl_resume_of_request (hrequest.trans h)]
      by_cases hflush : .flush ∈ line.waiters
      · exact Or.inr ⟨if_pos hflush, rfl, hflush⟩
      · exact Or.inl ⟨if_neg hflush, Or.inr hflush⟩

/-! ## What every moment keeps -/

/-- The parts of a line fit together: a refresh that runs has an end, the timer waits while one runs, the
first request has a time as long as a request waits, and nobody waits for nothing. -/
structure IsSafe (line : Timeline) : Prop where
  running_eq : line.refresher.running = line.endsAt.isSome
  running_of_timer : line.refresher.timer.isSome = true → line.refresher.running = false
  since_eq : line.refresher.since.isSome = line.refresher.hasRequest
  waiters_eq : line.refresher.running = false → line.waiters = []

theorem isSafe_fresh (debounce duration : Seconds) (failing : List Nat) :
    (fresh debounce duration failing).IsSafe :=
  ⟨rfl, fun _ => rfl, rfl, fun _ => rfl⟩

/-- A line on which a refresh has just begun is safe whatever it was before. -/
theorem isSafe_begin (line : Timeline) (r : Refresher) (waiters : List Waiter) :
    IsSafe { line.begin r.dropTimer.start with waiters } :=
  ⟨rfl, fun h => absurd h (by simp [Timeline.begin, Refresher.start, Refresher.dropTimer]), rfl,
    fun h => absurd h (by simp [Timeline.begin, Refresher.start])⟩

theorem IsSafe.dropTimer_eq (h : line.IsSafe) (hrunning : line.refresher.running = true) :
    line.refresher.dropTimer = line.refresher := by
  have htimer : line.refresher.timer = none := by
    cases htimer : line.refresher.timer with
    | none => rfl
    | some due => exact absurd (h.running_of_timer (by rw [htimer]; rfl)) (by simp [hrunning])
  unfold Refresher.dropTimer
  rw [← htimer]

theorem IsSafe.request (h : line.IsSafe) (timersServed : Bool) : (line.request timersServed).IsSafe := by
  unfold Timeline.request Refresher.request
  dsimp only
  split
  · exact ⟨h.running_eq, h.running_of_timer, rfl, h.waiters_eq⟩
  · next hserved =>
    have hidle : line.refresher.running = false := by
      cases hrunning : line.refresher.running with
      | false => rfl
      | true => exact absurd (by simp [hrunning]) hserved
    exact ⟨h.running_eq, fun _ => hidle, by simp [Refresher.hasRequest], h.waiters_eq⟩

theorem IsSafe.cancel (h : line.IsSafe) : line.cancel.IsSafe :=
  ⟨h.running_eq, fun htimer => absurd htimer (by simp [Timeline.cancel, Refresher.cancel]), rfl,
    h.waiters_eq⟩

/-- While no refresh runs a flush begins one. -/
theorem flush_of_idle (hidle : line.refresher.running = false) :
    line.flush =
      { line.begin line.refresher.dropTimer.start with waiters := line.waiters ++ [.flush] } := by
  unfold Timeline.flush Refresher.dropTimer
  simp only [hidle]
  rfl

/-- While a refresh runs a flush only waits. -/
theorem IsSafe.flush_of_running (h : line.IsSafe) (hrunning : line.refresher.running = true) :
    line.flush = { line with waiters := line.waiters ++ [.flush] } := by
  unfold Timeline.flush
  rw [h.dropTimer_eq hrunning]
  simp only [hrunning, if_true]

theorem IsSafe.flush (h : line.IsSafe) : line.flush.IsSafe := by
  cases hrunning : line.refresher.running with
  | false => exact flush_of_idle hrunning ▸ isSafe_begin line _ _
  | true =>
      rw [h.flush_of_running hrunning]
      exact ⟨h.running_eq, h.running_of_timer, h.since_eq,
        fun hidle => absurd (hrunning.symm.trans hidle) (by simp)⟩

theorem IsSafe.wait (h : line.IsSafe) : line.wait.IsSafe := by
  unfold Timeline.wait
  split
  · next hrunning =>
    exact ⟨h.running_eq, h.running_of_timer, h.since_eq,
      fun hidle => absurd (hrunning.symm.trans hidle) (by simp)⟩
  · exact h

theorem IsSafe.close (h : line.IsSafe) : line.close.IsSafe := by
  unfold Timeline.close Refresher.finish
  split
  · next hrerun =>
    exact ⟨rfl, fun _ => rfl, h.since_eq.trans (by simp [Refresher.hasRequest, hrerun]), fun _ => rfl⟩
  · exact ⟨rfl, fun _ => rfl, h.since_eq, fun _ => rfl⟩

theorem IsSafe.endRefresh (h : line.IsSafe) : line.endRefresh.IsSafe := by
  rcases line.endRefresh_cases with ⟨hends, -⟩ | ⟨hends, -⟩
  · exact hends ▸ h.close
  · exact hends ▸ isSafe_begin line.close line.close.refresher _

/-- A timer that runs out begins a refresh. -/
theorem IsSafe.fire_eq (h : line.IsSafe) (htimer : line.refresher.timer.isSome = true) :
    line.fire = line.begin line.refresher.dropTimer.start := by
  have hidle := h.running_of_timer htimer
  have hdropped : line.refresher.dropTimer.running = false := hidle
  unfold Timeline.fire Refresher.fire
  simp only [hidle, hdropped]
  rfl

theorem IsSafe.fire (h : line.IsSafe) (htimer : line.refresher.timer.isSome = true) :
    line.fire.IsSafe :=
  h.fire_eq htimer ▸ isSafe_begin line line.refresher line.waiters

theorem IsSafe.pass (h : line.IsSafe) (moment : Moment) : (line.pass moment).IsSafe := by
  cases moment with
  | request timersServed => exact h.request timersServed
  | cancel => exact h.cancel
  | flush => exact h.flush
  | wait => exact h.wait
  | pace | clock => exact ⟨h.running_eq, h.running_of_timer, h.since_eq, h.waiters_eq⟩
  | endRefresh =>
      simp only [Timeline.pass]
      split
      · exact h.endRefresh
      · exact h
  | fire =>
      simp only [Timeline.pass]
      split
      · next htimer => exact h.fire htimer
      · exact h

theorem IsSafe.foldl_pass (h : line.IsSafe) (moments : List Moment) :
    (moments.foldl Timeline.pass line).IsSafe := by
  induction moments generalizing line with
  | nil => exact h
  | cons moment moments ih => exact ih (h.pass moment)

theorem IsSafe.run (h : line.IsSafe) (steps : List TimelineStep) : (line.run steps).IsSafe := by
  induction steps generalizing line with
  | nil => exact h
  | cons step steps ih => exact ih (line.foldl_moments step ▸ h.foldl_pass _)

/-! ## Everything that is due is done -/

/-- Whether nothing is due until a time. -/
def IsQuiet (line : Timeline) (limit : Seconds) : Prop :=
  ∀ due event, line.next? = some (due, event) → limit < due

/-- More events than this cannot follow one another without a further request: the end of the running
refresh, and the beginning and the end of the one that a request waits for. -/
def load (line : Timeline) : Nat :=
  line.refresher.running.toNat + 2 * line.refresher.hasRequest.toNat

theorem load_le (line : Timeline) : line.load ≤ 3 := by
  unfold load
  have := Bool.toNat_le line.refresher.running
  have := Bool.toNat_le line.refresher.hasRequest
  omega

theorem IsSafe.load_endRefresh_lt (h : line.IsSafe) (hends : line.endsAt.isSome = true) :
    line.endRefresh.load < line.load := by
  have hrunning : line.refresher.running = true := h.running_eq.trans hends
  rcases line.endRefresh_cases with ⟨hended, -⟩ | ⟨hended, hrequest, -⟩
  · rw [hended]
    unfold load
    rw [running_close, hasRequest_close, hrunning]
    simp
  · have hbegun : line.renew.load = 1 := rfl
    rw [hended, hbegun]
    unfold load
    rw [hrunning, hrequest]
    decide

theorem IsSafe.load_fire_lt (h : line.IsSafe) (htimer : line.refresher.timer.isSome = true) :
    line.fire.load < line.load := by
  have hbegun : (line.begin line.refresher.dropTimer.start).load = 1 := rfl
  have hrequest : line.refresher.hasRequest = true := by simp [Refresher.hasRequest, htimer]
  rw [h.fire_eq htimer, hbegun]
  unfold load
  rw [h.running_of_timer htimer, hrequest]
  decide

/-- The next event leaves less to do. -/
theorem IsSafe.load_passNext_lt (h : line.IsSafe) {due : Seconds} {event : Moment}
    (hnext : line.next? = some (due, event)) : (line.passNext due event).load < line.load := by
  have hclock := h.pass (.clock (Seconds.later line.now due))
  rcases passNext_cases hnext with ⟨hends, hpassed⟩ | ⟨htimer, hpassed⟩
  · exact hpassed ▸ hclock.load_endRefresh_lt hends
  · exact hpassed ▸ hclock.load_fire_lt htimer

/-- More events than the load are enough until nothing is due. -/
theorem IsSafe.isQuiet_runWithin (h : line.IsSafe) {limit : Seconds} {fuel : Nat}
    (hfuel : line.load < fuel) : (runWithin limit fuel line).IsQuiet limit := by
  -- the load goes down with every event, and with the fuel left over the last one finds nothing due
  induction fuel generalizing line with
  | zero => exact absurd hfuel (Nat.not_lt_zero _)
  | succ fuel ih =>
      rw [runWithin_succ]
      split
      · next due event hnext =>
        split
        · have hlt := h.load_passNext_lt hnext
          exact ih ((h.pass _).pass event) (Nat.lt_of_lt_of_le hlt (Nat.le_of_lt_succ hfuel))
        · next hdue =>
          intro late other hlate
          rw [hnext] at hlate
          cases hlate
          exact Rat.not_le.1 hdue
      · next hnone =>
        intro late other hlate
        exact absurd (hnone.symm.trans hlate) (by simp)

theorem now_passNext {due : Seconds} {event : Moment} (hnext : line.next? = some (due, event)) :
    (line.passNext due event).now = Seconds.later line.now due := by
  have hends : ∀ line : Timeline, line.endRefresh.now = line.now := by
    intro line
    rcases line.endRefresh_cases with ⟨hended, -⟩ | ⟨hended, -⟩ <;> rw [hended] <;> rfl
  have hfires : ∀ line : Timeline, line.fire.now = line.now := by
    intro line
    unfold Timeline.fire
    split <;> rfl
  rcases passNext_cases hnext with ⟨-, hpassed⟩ | ⟨-, hpassed⟩ <;> rw [hpassed]
  · exact hends _
  · exact hfires _

/-- What is due already takes no time. -/
theorem now_runWithin_now (fuel : Nat) (line : Timeline) :
    (runWithin line.now fuel line).now = line.now := by
  have hkeeps : ∀ line : Timeline, ∀ limit, line.now = limit →
      (runWithin limit fuel line).now = limit := by
    induction fuel with
    | zero => exact fun _ _ hnow => hnow
    | succ fuel ih =>
        intro line limit hnow
        rw [runWithin_succ]
        split
        · next due event hnext =>
          split
          · next hdue =>
            refine ih _ limit ?_
            rw [now_passNext hnext, hnow]
            unfold Seconds.later
            split
            · next hlate => exact Rat.le_antisymm hdue hlate
            · rfl
          · exact hnow
        · exact hnow
  exact hkeeps line line.now rfl

theorem IsSafe.isQuiet_settle (h : line.IsSafe) : line.settle.IsQuiet line.settle.now := by
  unfold settle
  rw [now_runWithin_now]
  exact h.isQuiet_runWithin (Nat.lt_succ_of_le line.load_le)

/-- After a step nothing is left that is due. -/
theorem IsSafe.isQuiet_after (h : line.IsSafe) (step : TimelineStep) :
    (line.after step).IsQuiet (line.after step).now := by
  cases step with
  | request timersServed => exact (h.request timersServed).isQuiet_settle
  | cancel => exact h.cancel.isQuiet_settle
  | flush => exact h.flush.isQuiet_settle
  | wait => exact h.wait.isQuiet_settle
  | pace duration => exact (h.pass (.pace duration)).isQuiet_settle
  | advance span => exact h.isQuiet_runWithin (Nat.lt_succ_of_le line.load_le)

/-! ## A step begins at most one refresh -/

/-- How many refreshes have begun, counting the one that a request waits for. -/
def begun (line : Timeline) : Nat := line.started + line.refresher.hasRequest.toNat

theorem IsSafe.begun_passNext (h : line.IsSafe) {due : Seconds} {event : Moment}
    (hnext : line.next? = some (due, event)) : (line.passNext due event).begun = line.begun := by
  have hclock := h.pass (.clock (Seconds.later line.now due))
  rcases passNext_cases hnext with ⟨-, hpassed⟩ | ⟨htimer, hpassed⟩ <;> rw [hpassed]
  · rcases (line.pass (.clock (Seconds.later line.now due))).endRefresh_cases with
      ⟨hended, -⟩ | ⟨hended, hrequest, -⟩ <;> rw [hended]
    · unfold begun
      rw [hasRequest_close]
      rfl
    · have hbefore : line.refresher.hasRequest = true := hrequest
      unfold begun
      rw [hbefore]
      rfl
  · have hrequest : line.refresher.hasRequest = true := by simp [Refresher.hasRequest, htimer]
    rw [hclock.fire_eq htimer]
    unfold begun
    rw [hrequest]
    rfl

theorem IsSafe.begun_runWithin (h : line.IsSafe) (limit : Seconds) (fuel : Nat) :
    (runWithin limit fuel line).begun = line.begun := by
  induction fuel generalizing line with
  | zero => rfl
  | succ fuel ih =>
      rw [runWithin_succ]
      split
      · next due event hnext =>
        split
        · exact (ih ((h.pass _).pass event)).trans (h.begun_passNext hnext)
        · rfl
      · rfl

/-- A step begins at most one refresh. -/
theorem IsSafe.started_after_le (h : line.IsSafe) (step : TimelineStep) :
    (line.after step).started ≤ line.started + 1 := by
  have hle : ∀ line : Timeline, line.started ≤ line.begun := fun line => Nat.le_add_right ..
  have hbegun : ∀ line : Timeline, line.begun ≤ line.started + 1 :=
    fun line => Nat.add_le_add_left (Bool.toNat_le _) _
  -- what begins by itself was begun already: only a step can begin another one
  have hruns : ∀ {line : Timeline}, line.IsSafe → ∀ limit,
      (runWithin limit 4 line).started ≤ line.begun := by
    intro line h limit
    rw [← h.begun_runWithin limit 4]
    exact hle _
  cases step with
  | request timersServed => exact Nat.le_trans (hruns (h.request timersServed) _) (hbegun _)
  | cancel => exact Nat.le_trans (hruns h.cancel _) (hbegun _)
  | wait =>
      have hwait : line.wait.begun = line.begun := by
        unfold Timeline.wait
        split <;> rfl
      exact Nat.le_trans (hruns h.wait _) (hwait ▸ hbegun line)
  | pace duration => exact Nat.le_trans (hruns (h.pass (.pace duration)) _) (hbegun line)
  | advance span => exact Nat.le_trans (hruns h _) (hbegun line)
  | flush =>
      refine Nat.le_trans (hruns h.flush _) ?_
      cases hrunning : line.refresher.running with
      | true => exact h.flush_of_running hrunning ▸ hbegun line
      | false =>
          rw [flush_of_idle hrunning]
          exact Nat.le_refl _

end Timeline

end Scenarist
