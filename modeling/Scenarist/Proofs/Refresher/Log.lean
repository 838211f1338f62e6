import Scenarist.Proofs.Refresher
import Mathlib.Data.List.Basic

set_option autoImplicit false

/-! # The log of the refreshes

A line does not remember what happened. Here a log is kept beside it: every request, drop, beginning and
end of a refresh, and every call and return of a flush, in the order in which they happened. A caller that
waits has the log as it was at its call, so what followed the call is known when it returns.

A request stands as long as nothing was dropped and no refresh began after it. The line has no such list of
requests, only a timer and a mark; `IsSound` says that these tell exactly whether a request stands.

Main statements: `Logged.endRefresh_cases` (what the end of a refresh notes), `Logged.IsSound.pass` (every
moment keeps the log in step with the line) and `Logged.isSafe_run` (what holds after any steps). -/

namespace Scenarist.Timeline

/-- What is noted about refreshes. -/
inductive Note where
  /-- A request was made. -/
  | requested
  /-- The requests that no refresh had taken up were dropped. -/
  | dropped
  /-- A refresh began. -/
  | begun
  /-- The running refresh ended. -/
  | ended
  /-- A flush was called. -/
  | called
  /-- A flush returned. -/
  | returned
  deriving DecidableEq, Repr

/-- Whether a request stands: since it was made nothing was dropped and no refresh began. -/
def Stands (log : List Note) : Prop :=
  ∃ earlier later, log = earlier ++ .requested :: later ∧ .dropped ∉ later ∧ .begun ∉ later

theorem stands_append {log later : List Note} :
    Stands (log ++ later) ↔ Stands later ∨ Stands log ∧ .dropped ∉ later ∧ .begun ∉ later := by
  constructor
  · rintro ⟨before, after, heq, hdropped, hbegun⟩
    -- the request is one of the later notes, or one of the earlier with all of the later behind it
    rcases List.append_eq_append_iff.1 heq with ⟨between, rfl, hlater⟩ | ⟨between, rfl, hlater⟩
    · exact Or.inl ⟨between, after, hlater, hdropped, hbegun⟩
    · cases between with
      | nil => exact Or.inl ⟨[], after, by simpa using hlater.symm, hdropped, hbegun⟩
      | cons note between =>
          rw [List.cons_append, List.cons.injEq] at hlater
          obtain ⟨rfl, rfl⟩ := hlater
          simp only [List.mem_append, not_or] at hdropped hbegun
          exact Or.inr ⟨⟨before, between, rfl, hdropped.1, hbegun.1⟩, hdropped.2, hbegun.2⟩
  · rintro (⟨before, after, rfl, hdropped, hbegun⟩ | ⟨⟨before, after, rfl, hdropped, hbegun⟩, hd, hb⟩)
    · exact ⟨log ++ before, after, by simp, hdropped, hbegun⟩
    · exact ⟨before, after ++ later, by simp, by simp [hdropped, hd], by simp [hbegun, hb]⟩

theorem stands_append_of_not_mem {log later : List Note} (h : .requested ∉ later) :
    Stands (log ++ later) ↔ Stands log ∧ .dropped ∉ later ∧ .begun ∉ later := by
  have hnone : ¬ Stands later := by
    rintro ⟨before, after, rfl, -⟩
    exact h List.mem_append_cons_self
  simp [stands_append, hnone]

theorem count_append_of_not_mem {note : Note} {log later : List Note} (h : note ∉ later) :
    (log ++ later).count note = log.count note := by
  rw [List.count_append, List.count_eq_zero.2 h, Nat.add_zero]

/-- A line with the log of what happened, in order. -/
structure Logged where
  line : Timeline
  log : List Note := []
  /-- The callers that wait for the running refresh, in order, each with the log at its call. -/
  callers : List (Waiter × List Note) := []
  /-- The flushes that returned, each with the log at its call and what followed until it returned. -/
  returns : List (List Note × List Note) := []

namespace Logged

/-- A flush goes on after the refresh that it waited for: it begins another one or returns. -/
def resumeFlush (l : Logged) (before : List Note) : Logged :=
  if l.line.refresher.hasRequest then
    { l with
      line := l.line.resume .flush
      log := l.log ++ [.begun]
      callers := l.callers ++ [(.flush, before)] }
  else
    { l with
      log := l.log ++ [.returned]
      returns := l.returns ++ [(before, l.log.drop before.length)] }

/-- A caller goes on after the refresh that it waited for. -/
def resume (l : Logged) : Waiter × List Note → Logged
  | (.wait, _) => l
  | (.flush, before) => l.resumeFlush before

/-- The running refresh ends and the callers that waited for it go on. -/
def endRefresh (l : Logged) : Logged :=
  l.callers.foldl resume { l with line := l.line.close, log := l.log ++ [.ended], callers := [] }

def pass (l : Logged) : Moment → Logged
  | .request timersServed =>
    { l with line := l.line.request timersServed, log := l.log ++ [.requested] }
  | .cancel => { l with line := l.line.cancel, log := l.log ++ [.dropped] }
  | .flush =>
    { l with
      line := l.line.flush
      log := l.log ++ .called :: if l.line.refresher.running then [] else [.begun]
      callers := l.callers ++ [(.flush, l.log)] }
  | .wait =>
    { l with
      line := l.line.wait
      callers := if l.line.refresher.running then l.callers ++ [(.wait, l.log)] else l.callers }
  | .pace duration => { l with line := { l.line with duration } }
  | .clock time => { l with line := { l.line with now := time } }
  | .endRefresh => if l.line.endsAt.isSome then l.endRefresh else l
  | .fire =>
    if l.line.refresher.timer.isSome then
      { l with
        line := l.line.fire
        log := l.log ++ if l.line.refresher.running then [] else [.begun] }
    else l

def after (l : Logged) (step : TimelineStep) : Logged := (l.line.moments step).foldl pass l

def run (l : Logged) (steps : List TimelineStep) : Logged := steps.foldl after l

/-- What every moment keeps holds after a step. -/
theorem after_induction {Holds : Logged → Prop} (hpass : ∀ l, Holds l → ∀ moment, Holds (l.pass moment))
    {l : Logged} (h : Holds l) (step : TimelineStep) : Holds (l.after step) := by
  unfold after
  induction l.line.moments step generalizing l with
  | nil => exact h
  | cons moment moments ih => exact ih (hpass l h moment)

/-- What every moment keeps holds after any steps. -/
theorem run_induction {Holds : Logged → Prop} (hpass : ∀ l, Holds l → ∀ moment, Holds (l.pass moment))
    {l : Logged} (h : Holds l) (steps : List TimelineStep) : Holds (l.run steps) := by
  induction steps generalizing l with
  | nil => exact h
  | cons step steps ih => exact ih (after_induction hpass h step)

/-! ## The end of a refresh -/

/-- The logs at the calls of the flushes among callers. -/
def flushes (callers : List (Waiter × List Note)) : List (List Note) :=
  (callers.filter fun caller => caller.1 = .flush).map Prod.snd

/-- What is noted of flushes that return one after the other. -/
def receipts (log : List Note) : List (List Note) → List (List Note × List Note)
  | [] => []
  | before :: rest => (before, log.drop before.length) :: receipts (log ++ [.returned]) rest

variable {l : Logged}

theorem foldl_resume_eq (callers : List (Waiter × List Note)) (l : Logged) :
    callers.foldl resume l = (flushes callers).foldl resumeFlush l := by
  induction callers generalizing l with
  | nil => rfl
  | cons caller callers ih =>
      obtain ⟨waiter, before⟩ := caller
      cases waiter with
      | wait => exact ih l
      | flush => exact ih (l.resumeFlush before)

theorem resumeFlush_of_no_request (h : l.line.refresher.hasRequest = false) (before : List Note) :
    l.resumeFlush before =
      { l with
        log := l.log ++ [.returned]
        returns := l.returns ++ [(before, l.log.drop before.length)] } := by
  unfold resumeFlush
  rw [if_neg (by simp [h])]

theorem foldl_resumeFlush_of_no_request (h : l.line.refresher.hasRequest = false)
    (logs : List (List Note)) :
    logs.foldl resumeFlush l =
      { l with
        log := l.log ++ List.replicate logs.length .returned
        returns := l.returns ++ receipts l.log logs } := by
  induction logs generalizing l with
  | nil => simp [receipts]
  | cons before logs ih =>
      rw [List.foldl_cons, resumeFlush_of_no_request h, ih (by exact h)]
      simp [receipts, List.replicate_succ]

/-- When a refresh has ended either every flush returns, or a request waited for it and the first flush
begins the next refresh, after which the other flushes return. -/
theorem endRefresh_cases (l : Logged) :
    ((l.line.refresher.hasRequest = false ∨ flushes l.callers = []) ∧
      l.endRefresh = {
        line := l.line.close
        log := l.log ++ .ended :: List.replicate (flushes l.callers).length .returned
        callers := []
        returns := l.returns ++ receipts (l.log ++ [.ended]) (flushes l.callers) }) ∨
    (l.line.refresher.hasRequest = true ∧ ∃ first rest, flushes l.callers = first :: rest ∧
      l.endRefresh = {
        line := l.line.renew
        log := l.log ++ .ended :: .begun :: List.replicate rest.length .returned
        callers := [(.flush, first)]
        returns := l.returns ++ receipts (l.log ++ [.ended, .begun]) rest }) := by
  have hrequest := l.line.hasRequest_close
  unfold endRefresh
  rw [foldl_resume_eq]
  cases h : l.line.refresher.hasRequest with
  | false =>
      refine Or.inl ⟨Or.inl rfl, ?_⟩
      rw [foldl_resumeFlush_of_no_request (hrequest.trans h)]
      simp
  | true =>
      cases hflushes : flushes l.callers with
      | nil => exact Or.inl ⟨Or.inr rfl, by simp [receipts]⟩
      | cons first rest =>
          refine Or.inr ⟨rfl, first, rest, rfl, ?_⟩
          -- the first flush finds the request, and the others find none
          have hfirst : resumeFlush
              { l with line := l.line.close, log := l.log ++ [.ended], callers := [] } first =
              { l with
                line := l.line.renew
                log := l.log ++ [.ended] ++ [.begun]
                callers := [(.flush, first)] } := by
            unfold resumeFlush Timeline.resume
            simp only [hrequest.trans h, if_true]
            rfl
          rw [List.foldl_cons, hfirst, foldl_resumeFlush_of_no_request rfl]
          simp

theorem line_foldl_resume (callers : List (Waiter × List Note)) (l : Logged) :
    (callers.foldl resume l).line = (callers.map Prod.fst).foldl Timeline.resume l.line := by
  have hresume : ∀ (l : Logged) caller, (l.resume caller).line = l.line.resume caller.1 := by
    rintro l ⟨_ | _, before⟩
    · rfl
    · show (l.resumeFlush before).line = _
      unfold resumeFlush
      split
      · rfl
      · next hrequest =>
        unfold Timeline.resume
        rw [if_neg hrequest]
  induction callers generalizing l with
  | nil => rfl
  | cons caller callers ih => rw [List.foldl_cons, ih, hresume]; rfl

/-! ## What every moment keeps -/

/-- The log says what the line does: how many refreshes have begun, that at most the last one is yet to end,
and whether a request waits. -/
structure IsSound (l : Logged) : Prop where
  isSafe : l.line.IsSafe
  waiters_eq : l.line.waiters = l.callers.map Prod.fst
  started_eq : l.line.started = l.log.count .begun
  begun_eq : l.log.count .begun = l.log.count .ended + l.line.refresher.running.toNat
  stands_iff : Stands l.log ↔ l.line.refresher.hasRequest = true

def fresh (debounce duration : Seconds) (failing : List Nat) : Logged :=
  { line := .fresh debounce duration failing }

theorem isSound_fresh (debounce duration : Seconds) (failing : List Nat) :
    (fresh debounce duration failing).IsSound where
  isSafe := isSafe_fresh debounce duration failing
  waiters_eq := rfl
  started_eq := rfl
  begun_eq := rfl
  stands_iff := by
    constructor
    · rintro ⟨before, after, heq, -⟩
      exact absurd heq (by simp [fresh])
    · intro hrequest
      exact absurd hrequest (by simp [fresh, Timeline.fresh, Refresher.hasRequest])

/-- The log is kept beside the line. -/
theorem line_pass (l : Logged) (hwaiters : l.line.waiters = l.callers.map Prod.fst) (moment : Moment) :
    (l.pass moment).line = l.line.pass moment := by
  cases moment with
  | request | cancel | flush | wait | pace | clock => rfl
  | endRefresh =>
      simp only [pass, Timeline.pass]
      split
      · unfold endRefresh Timeline.endRefresh
        rw [line_foldl_resume, hwaiters]
        rfl
      · rfl
  | fire =>
      simp only [pass, Timeline.pass]
      split <;> rfl

namespace IsSound

theorem request (h : l.IsSound) (timersServed : Bool) : (l.pass (.request timersServed)).IsSound where
  isSafe := h.isSafe.request timersServed
  waiters_eq := h.waiters_eq
  started_eq := h.started_eq.trans (by simp [pass])
  begun_eq := by
    have hrunning : (l.line.request timersServed).refresher.running = l.line.refresher.running := by
      unfold Timeline.request Refresher.request
      dsimp only
      split <;> rfl
    simpa [pass, hrunning] using h.begun_eq
  stands_iff := by
    have hrequest : (l.line.request timersServed).refresher.hasRequest = true := by
      unfold Timeline.request Refresher.request
      dsimp only
      split <;> simp [Refresher.hasRequest]
    exact iff_of_true ⟨l.log, [], rfl, by simp, by simp⟩ hrequest

theorem cancel (h : l.IsSound) : (l.pass .cancel).IsSound where
  isSafe := h.isSafe.cancel
  waiters_eq := h.waiters_eq
  started_eq := h.started_eq.trans (by simp [pass])
  begun_eq := by simpa [pass, Timeline.cancel, Refresher.cancel] using h.begun_eq
  stands_iff := by
    refine iff_of_false ?_ (by simp [pass, Timeline.cancel, Refresher.cancel, Refresher.hasRequest])
    simp [pass, stands_append_of_not_mem]

/-- A refresh begins while none runs. -/
theorem begin (h : l.IsSound) (hidle : l.line.refresher.running = false) (refresher : Refresher)
    (callers : List (Waiter × List Note)) (earlier : List Note)
    (hearlier : .begun ∉ earlier ∧ .ended ∉ earlier) :
    IsSound { l with
      line := { l.line.begin refresher.dropTimer.start with waiters := callers.map Prod.fst }
      log := l.log ++ earlier ++ [.begun]
      callers } where
  isSafe := isSafe_begin l.line refresher _
  waiters_eq := rfl
  started_eq := by
    have hcount : earlier.count .begun = 0 := List.count_eq_zero.2 hearlier.1
    simp [Timeline.begin, h.started_eq, hcount]
  begun_eq := by
    have hbegun : earlier.count .begun = 0 := List.count_eq_zero.2 hearlier.1
    have hended : earlier.count .ended = 0 := List.count_eq_zero.2 hearlier.2
    have hcounts := h.begun_eq
    rw [hidle] at hcounts
    simp [Timeline.begin, Refresher.start, hcounts, hbegun, hended]
  stands_iff := by
    refine iff_of_false ?_ (by simp [Timeline.begin, Refresher.start, Refresher.dropTimer,
      Refresher.hasRequest])
    rw [stands_append_of_not_mem (by simp)]
    simp

/-- Notes that flushes were called and returned say nothing about refreshes. -/
theorem append (h : l.IsSound) {l' : Logged} (notes : List Note) (hlog : l'.log = l.log ++ notes)
    (hnotes : ∀ note ∈ notes, note = .called ∨ note = .returned) (hsafe : l'.line.IsSafe)
    (hwaiters : l'.line.waiters = l'.callers.map Prod.fst)
    (hrefresher : l'.line.refresher = l.line.refresher) (hstarted : l'.line.started = l.line.started) :
    l'.IsSound := by
  have hmem : ∀ note, note ≠ .called → note ≠ .returned → note ∉ notes := by
    intro note hcalled hreturned hnote
    rcases hnotes note hnote with rfl | rfl <;> contradiction
  have hbegun := hmem .begun (by simp) (by simp)
  have hended := hmem .ended (by simp) (by simp)
  refine ⟨hsafe, hwaiters, ?_, ?_, ?_⟩
  · rw [hstarted, hlog, count_append_of_not_mem hbegun]
    exact h.started_eq
  · rw [hrefresher, hlog, count_append_of_not_mem hbegun, count_append_of_not_mem hended]
    exact h.begun_eq
  · rw [hlog, stands_append_of_not_mem (hmem .requested (by simp) (by simp)), hrefresher]
    simpa [hmem .dropped, hbegun] using h.stands_iff

theorem flush (h : l.IsSound) : (l.pass .flush).IsSound := by
  have hwaiters : (l.line.waiters ++ [.flush]) = (l.callers ++ [(Waiter.flush, l.log)]).map Prod.fst := by
    simp [h.waiters_eq]
  cases hrunning : l.line.refresher.running with
  | false =>
      have hpass : l.pass .flush =
          { l with
            line := { l.line.begin l.line.refresher.dropTimer.start with
              waiters := (l.callers ++ [(Waiter.flush, l.log)]).map Prod.fst }
            log := l.log ++ [.called] ++ [.begun]
            callers := l.callers ++ [(.flush, l.log)] } := by
        rw [← hwaiters, ← flush_of_idle hrunning]
        simp [pass, hrunning]
      exact hpass ▸ h.begin hrunning _ _ [.called] (by simp)
  | true =>
      have hflush := h.isSafe.flush_of_running hrunning
      refine h.append [.called] (by simp [pass, hrunning]) (by simp) h.isSafe.flush ?_ ?_ ?_
      · simpa [pass, hflush] using hwaiters
      · simp [pass, hflush]
      · simp [pass, hflush]

theorem wait (h : l.IsSound) : (l.pass .wait).IsSound := by
  refine h.append [] (by simp [pass]) (by simp) h.isSafe.wait ?_ ?_ ?_
  all_goals
    simp only [pass, Timeline.wait]
    split
    all_goals simp [h.waiters_eq]

/-- What has ended is noted, and the request that waits for it still stands. -/
theorem close (h : l.IsSound) (hrunning : l.line.refresher.running = true) :
    IsSound { l with line := l.line.close, log := l.log ++ [.ended], callers := [] } where
  isSafe := h.isSafe.close
  waiters_eq := rfl
  started_eq := h.started_eq.trans (by simp)
  begun_eq := by
    have hcounts := h.begun_eq
    rw [hrunning] at hcounts
    simpa [running_close] using hcounts
  stands_iff := by
    rw [stands_append_of_not_mem (by simp), hasRequest_close]
    simpa using h.stands_iff

theorem endRefresh (h : l.IsSound) (hrunning : l.line.refresher.running = true) :
    l.endRefresh.IsSound := by
  have hclosed := h.close hrunning
  rcases l.endRefresh_cases with ⟨-, hends⟩ | ⟨-, first, rest, -, hends⟩
  · rw [hends]
    exact hclosed.append (.replicate (flushes l.callers).length .returned) (by simp)
      (fun note hnote => Or.inr (List.eq_of_mem_replicate hnote)) hclosed.isSafe rfl rfl rfl
  · have hbegun := hclosed.begin l.line.running_close l.line.close.refresher [(.flush, first)] [] (by simp)
    rw [hends]
    exact hbegun.append (.replicate rest.length .returned) (by simp)
      (fun note hnote => Or.inr (List.eq_of_mem_replicate hnote)) hbegun.isSafe rfl rfl rfl

theorem fire (h : l.IsSound) (htimer : l.line.refresher.timer.isSome = true) :
    (l.pass .fire).IsSound := by
  have hidle := h.isSafe.running_of_timer htimer
  have hpass : l.pass .fire =
      { l with
        line := { l.line.begin l.line.refresher.dropTimer.start with waiters := l.callers.map Prod.fst }
        log := l.log ++ [] ++ [.begun] } := by
    simp only [pass, htimer, if_true, h.isSafe.fire_eq htimer, hidle, ← h.waiters_eq]
    simp [Timeline.begin]
  exact hpass ▸ h.begin hidle _ _ [] (by simp)

theorem pass (h : l.IsSound) (moment : Moment) : (l.pass moment).IsSound := by
  cases moment with
  | request timersServed => exact h.request timersServed
  | cancel => exact h.cancel
  | flush => exact h.flush
  | wait => exact h.wait
  | pace duration =>
      exact ⟨h.isSafe.pass (.pace duration), h.waiters_eq, h.started_eq, h.begun_eq, h.stands_iff⟩
  | clock time =>
      exact ⟨h.isSafe.pass (.clock time), h.waiters_eq, h.started_eq, h.begun_eq, h.stands_iff⟩
  | endRefresh =>
      simp only [Logged.pass]
      split
      · next hends => exact h.endRefresh (h.isSafe.running_eq.trans hends)
      · exact h
  | fire =>
      cases htimer : l.line.refresher.timer.isSome with
      | true => exact h.fire htimer
      | false => simpa [Logged.pass, htimer] using h

theorem after (h : l.IsSound) (step : TimelineStep) : (l.after step).IsSound :=
  after_induction (fun _ => IsSound.pass) h step

theorem run (h : l.IsSound) (steps : List TimelineStep) : (l.run steps).IsSound :=
  run_induction (fun _ => IsSound.pass) h steps

theorem line_foldl_pass (h : l.IsSound) (moments : List Moment) :
    (moments.foldl Logged.pass l).line = moments.foldl Timeline.pass l.line := by
  induction moments generalizing l with
  | nil => rfl
  | cons moment moments ih =>
      rw [List.foldl_cons, ih (h.pass moment), line_pass l h.waiters_eq]
      rfl

theorem line_after (h : l.IsSound) (step : TimelineStep) : (l.after step).line = l.line.after step :=
  (h.line_foldl_pass _).trans (l.line.foldl_moments step)

theorem line_run (h : l.IsSound) (steps : List TimelineStep) : (l.run steps).line = l.line.run steps := by
  induction steps generalizing l with
  | nil => rfl
  | cons step steps ih =>
      refine (ih (h.after step)).trans ?_
      rw [h.line_after step]
      rfl

end IsSound

/-- After any steps at most one refresh runs, the timer is not set while one does, and the time of the first
request is kept exactly while the timer is set or a refresh is to follow the running one; so a request that
was neither dropped nor taken up by a refresh that began after it is still kept in mind. -/
theorem isSafe_run (debounce duration : Seconds) (failing : List Nat) (steps : List TimelineStep) :
    let l := (fresh debounce duration failing).run steps
    l.line = (Timeline.fresh debounce duration failing).run steps ∧
      l.line.started = l.log.count .begun ∧
      l.log.count .begun ≤ l.log.count .ended + 1 ∧
      (l.line.refresher.running = true ↔ l.log.count .begun = l.log.count .ended + 1) ∧
      (l.line.refresher.timer.isSome = true → l.log.count .begun = l.log.count .ended) ∧
      (l.line.refresher.since.isSome = true ↔
        l.line.refresher.timer.isSome = true ∨ l.line.refresher.rerun = true) ∧
      ∀ earlier later, l.log = earlier ++ .requested :: later → .dropped ∉ later → .begun ∉ later →
        l.line.refresher.timer.isSome = true ∨ l.line.refresher.rerun = true := by
  intro l
  have hsound : l.IsSound := (isSound_fresh debounce duration failing).run steps
  have hrequest : l.line.refresher.hasRequest = true ↔
      l.line.refresher.timer.isSome = true ∨ l.line.refresher.rerun = true := by
    simp [Refresher.hasRequest, or_comm]
  have hbegun := hsound.begun_eq
  refine ⟨(isSound_fresh debounce duration failing).line_run steps, hsound.started_eq, ?_, ?_, ?_, ?_, ?_⟩
  · have := Bool.toNat_le l.line.refresher.running
    omega
  · cases hrunning : l.line.refresher.running <;> simp [hbegun, hrunning]
  · intro htimer
    simpa [hsound.isSafe.running_of_timer htimer] using hbegun
  · rw [hsound.isSafe.since_eq, hrequest]
  · intro earlier later hlog hdropped hnone
    exact hrequest.1 (hsound.stands_iff.1 ⟨earlier, later, hlog, hdropped, hnone⟩)

end Logged

end Scenarist.Timeline
