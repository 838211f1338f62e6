import Scenarist.Proofs.Refresher.Log

set_option autoImplicit false

/-! # What a flush promises

A flush is called so that whatever was requested before is served when it returns: for every earlier
request that was not dropped, a refresh that began after it has ended. A request that stands at the call
waits for the running refresh to end, and then for the next one.

Several flushes may wait for the running refresh. When it ends, the first one takes up the request and
begins the next refresh; the others find no request any more and return while that refresh still runs. So
the promise is kept except to a flush that was called while another one waited and a request stood, unless
that request was dropped before the running refresh ended.

Main statement: `Logged.keepsPromise_iff`, for every flush that returns, whatever was done before. -/

namespace Scenarist.Timeline

/-- Whether a request, given what followed it, was dropped before a refresh took it up. -/
def IsDropped (later : List Note) : Prop := .dropped ∈ later.takeWhile (· ≠ .begun)

/-- Whether a request, given what followed it, was served: a refresh that began after it has ended. -/
def IsServed (later : List Note) : Prop := .ended ∈ later.dropWhile (· ≠ .begun)

/-- Whether a flush kept its promise, given the log at its call and what followed until it returned: every
earlier request was served unless it was dropped. -/
def KeepsPromise (before since : List Note) : Prop :=
  ∀ earlier later, before = earlier ++ .requested :: later →
    IsDropped (later ++ since) ∨ IsServed (later ++ since)

def Open (log : List Note) : Prop := log.count .returned < log.count .called

/-- Whether a flush found another one waiting and a request that stood, and nothing was dropped before the
refresh that ran at its call had ended. -/
def IsOvertaken (before since : List Note) : Prop :=
  Stands before ∧ Open before ∧ .dropped ∉ since.takeWhile (· ≠ .ended)

/-! ## Requests that were dropped or served -/

theorem isDropped_append {earlier later : List Note} (h : .begun ∉ earlier) :
    IsDropped (earlier ++ later) ↔ .dropped ∈ earlier ∨ IsDropped later := by
  unfold IsDropped
  rw [List.takeWhile_append_of_pos (by simpa using fun note hnote => ne_of_mem_of_not_mem hnote h),
    List.mem_append]

theorem isServed_append {earlier later : List Note} (h : .begun ∉ earlier) :
    IsServed (earlier ++ later) ↔ IsServed later := by
  unfold IsServed
  rw [List.dropWhile_append_of_pos (by simpa using fun note hnote => ne_of_mem_of_not_mem hnote h)]

theorem isServed_of_mem {later rest : List Note} (hbegun : .begun ∈ later) (hended : .ended ∈ rest) :
    IsServed (later ++ rest) := by
  obtain ⟨p, q, rfl, hp⟩ := List.eq_append_cons_of_mem hbegun
  rw [List.append_assoc, isServed_append hp]
  simp [IsServed, hended]

/-- A flush whose own refresh has ended kept its promise. -/
theorem keepsPromise_of_begun {before since rest : List Note} (hbegun : .begun ∈ since) :
    KeepsPromise before (since ++ .ended :: rest) := by
  intro earlier later _
  refine Or.inr ?_
  rw [← List.append_assoc]
  exact isServed_of_mem (List.mem_append_right _ hbegun) List.mem_cons_self

/-- A flush that waited only for the refresh that ran at its call kept its promise unless a request stood
at its call and was still waiting when that refresh ended. -/
theorem keepsPromise_iff_of_not_begun {before since rest : List Note} (hbegun : .begun ∉ since)
    (hended : .ended ∉ rest) (hdropped : .dropped ∉ rest) :
    KeepsPromise before (since ++ .ended :: rest) ↔ ¬ (Stands before ∧ .dropped ∉ since) := by
  constructor
  · rintro hkeeps ⟨⟨earlier, later, heq, hnone, hlater⟩, hsince⟩
    have hearly : .begun ∉ later ++ since ++ [.ended] := by simp [hlater, hbegun]
    have hsplit : later ++ (since ++ .ended :: rest) = (later ++ since ++ [.ended]) ++ rest := by simp
    rcases hkeeps earlier later heq with h | h <;> rw [hsplit] at h
    · rcases (isDropped_append hearly).1 h with h | h
      · exact absurd h (by simp [hnone, hsince])
      · exact hdropped (List.takeWhile_subset _ h)
    · exact hended (List.dropWhile_subset _ ((isServed_append hearly).1 h))
  · intro hnot earlier later heq
    by_cases hlater : .begun ∈ later
    · exact Or.inr (isServed_of_mem hlater (by simp))
    · refine Or.inl ?_
      rw [← List.append_assoc, isDropped_append (by simp [hlater, hbegun]), List.mem_append]
      refine Or.inl ?_
      by_contra hnone
      rw [not_or] at hnone
      exact hnot ⟨⟨earlier, later, heq, hnone.1, hlater⟩, hnone.2⟩

theorem takeWhile_ended {since rest : List Note} (h : .ended ∉ since) :
    (since ++ .ended :: rest).takeWhile (fun note => decide (note ≠ .ended)) = since := by
  rw [List.takeWhile_append_of_pos (by simpa using fun note hnote => ne_of_mem_of_not_mem hnote h)]
  simp

/-! ## How a flush waits -/

/-- How a flush waits, given the log at its call and what followed: no refresh has begun or ended since,
or it began one itself, and then no other flush waited at its call. -/
def Waits (before since : List Note) : Prop :=
  (.begun ∉ since ∧ .ended ∉ since) ∨ (¬ Open before ∧ .begun ∈ since)

theorem Waits.append {before since : List Note} (h : Waits before since) {notes : List Note}
    (hbegun : .begun ∉ notes) (hended : .ended ∉ notes) : Waits before (since ++ notes) := by
  rcases h with ⟨hnone, hrunning⟩ | ⟨hfirst, hbegan⟩
  · exact Or.inl ⟨by simp [hnone, hbegun], by simp [hrunning, hended]⟩
  · exact Or.inr ⟨hfirst, List.mem_append_left _ hbegan⟩

/-- A flush that returns when a refresh has ended kept its promise unless it was overtaken. -/
theorem Waits.keepsPromise_iff_not_isOvertaken {before since rest : List Note} (h : Waits before since)
    (hended : .ended ∉ rest) (hdropped : .dropped ∉ rest)
    (htaken : Stands (before ++ since) → Open before) :
    KeepsPromise before (since ++ .ended :: rest) ↔ ¬ IsOvertaken before (since ++ .ended :: rest) := by
  rcases h with ⟨hbegun, hrunning⟩ | ⟨hfirst, hbegun⟩
  · rw [keepsPromise_iff_of_not_begun hbegun hended hdropped]
    unfold IsOvertaken
    rw [takeWhile_ended hrunning]
    refine not_congr ⟨fun ⟨hstands, hsince⟩ => ⟨hstands, ?_, hsince⟩, fun h => ⟨h.1, h.2.2⟩⟩
    exact htaken (stands_append.2 (Or.inr ⟨hstands, hsince, hbegun⟩))
  · exact iff_of_true (keepsPromise_of_begun hbegun) fun h => hfirst h.2.1

namespace Logged

variable {l : Logged}

theorem exists_of_mem_receipts {log : List Note} {logs : List (List Note)}
    {entry : List Note × List Note} (h : entry ∈ receipts log logs) :
    ∃ i : Nat, logs[i]? = some entry.1 ∧
      entry.2 = (log ++ List.replicate i Note.returned).drop entry.1.length := by
  induction logs generalizing log with
  | nil => exact absurd h (by simp [receipts])
  | cons first logs ih =>
      rcases List.mem_cons.1 h with rfl | h
      · exact ⟨0, rfl, by simp⟩
      · obtain ⟨i, hi, hsince⟩ := ih h
        exact ⟨i + 1, hi, by simp [hsince, List.replicate_succ]⟩

theorem flushes_concat_flush (callers : List (Waiter × List Note)) (before : List Note) :
    flushes (callers ++ [(.flush, before)]) = flushes callers ++ [before] := by
  simp [flushes]

theorem flushes_concat_wait (callers : List (Waiter × List Note)) (before : List Note) :
    flushes (callers ++ [(.wait, before)]) = flushes callers := by
  simp [flushes]

/-- Every flush that waits is counted, those behind the first know that another one waited at their call,
and every flush that returned kept its promise unless it was overtaken. -/
structure IsFair (l : Logged) : Prop where
  isSound : l.IsSound
  called_eq : l.log.count .called = l.log.count .returned + (flushes l.callers).length
  open_iff : ∀ (i : Nat) before, (flushes l.callers)[i]? = some before → (Open before ↔ i ≠ 0)
  waits : ∀ before ∈ flushes l.callers, ∃ since, l.log = before ++ since ∧ Waits before since
  returns : ∀ entry ∈ l.returns, KeepsPromise entry.1 entry.2 ↔ ¬ IsOvertaken entry.1 entry.2

namespace IsFair

theorem fresh (debounce duration : Seconds) (failing : List Nat) :
    (fresh debounce duration failing).IsFair where
  isSound := isSound_fresh debounce duration failing
  called_eq := rfl
  open_iff := fun i before h => absurd h (by simp [Logged.fresh, flushes])
  waits := fun before h => absurd h (by simp [Logged.fresh, flushes])
  returns := fun entry h => absurd h (by simp [Logged.fresh])

/-- Notes of requests and drops change nothing for the flushes. -/
theorem append (h : l.IsFair) {l' : Logged} (hsound : l'.IsSound) (notes : List Note)
    (hlog : l'.log = l.log ++ notes) (hnotes : ∀ note ∈ notes, note = .requested ∨ note = .dropped)
    (hflushes : flushes l'.callers = flushes l.callers) (hreturns : l'.returns = l.returns) :
    l'.IsFair := by
  have hmem : ∀ note, note ≠ .requested → note ≠ .dropped → note ∉ notes := by
    intro note hrequested hdropped hnote
    rcases hnotes note hnote with rfl | rfl <;> contradiction
  refine ⟨hsound, ?_, ?_, ?_, ?_⟩
  · rw [hlog, count_append_of_not_mem (hmem .called (by simp) (by simp)),
      count_append_of_not_mem (hmem .returned (by simp) (by simp)), hflushes]
    exact h.called_eq
  · rw [hflushes]
    exact h.open_iff
  · rw [hflushes]
    intro before hbefore
    obtain ⟨since, hsince, hwaits⟩ := h.waits before hbefore
    exact ⟨since ++ notes, by rw [hlog, hsince, List.append_assoc],
      hwaits.append (hmem .begun (by simp) (by simp)) (hmem .ended (by simp) (by simp))⟩
  · rw [hreturns]
    exact h.returns

/-- While no refresh runs nobody waits. -/
theorem flushes_of_idle (h : l.IsFair) (hidle : l.line.refresher.running = false) :
    flushes l.callers = [] := by
  have hcallers : l.callers = [] := by
    have hwaiters := h.isSound.waiters_eq
    rw [h.isSound.isSafe.waiters_eq hidle] at hwaiters
    exact List.map_eq_nil_iff.1 hwaiters.symm
  rw [hcallers]
  rfl

/-- A flush finds another one open exactly if one waits. -/
theorem open_log_iff (h : l.IsFair) : Open l.log ↔ flushes l.callers ≠ [] := by
  have hcalled := h.called_eq
  unfold Open
  rw [hcalled, ← List.length_pos_iff]
  omega

theorem flush (h : l.IsFair) : (l.pass .flush).IsFair := by
  have hflushes : flushes (l.pass .flush).callers = flushes l.callers ++ [l.log] :=
    flushes_concat_flush l.callers l.log
  have hlog : (l.pass .flush).log =
      l.log ++ .called :: if l.line.refresher.running then [] else [.begun] := rfl
  refine ⟨h.isSound.pass .flush, ?_, ?_, ?_, h.returns⟩
  · rw [hflushes, hlog]
    have hcalled := h.called_eq
    split <;> simp <;> omega
  · -- the new flush is the last one, and it is not the first exactly if it found another one open
    rw [hflushes]
    intro i before hbefore
    rw [List.getElem?_append] at hbefore
    split at hbefore
    · exact h.open_iff i before hbefore
    · next hlength =>
      have hi : i - (flushes l.callers).length = 0 ∧ l.log = before := by
        simpa [List.getElem?_singleton] using hbefore
      rw [← hi.2, h.open_log_iff, ← List.length_pos_iff]
      omega
  · rw [hflushes, hlog]
    intro before hbefore
    rcases List.mem_append.1 hbefore with hbefore | hbefore
    · obtain ⟨since, hsince, hwaits⟩ := h.waits before hbefore
      refine ⟨since ++ .called :: if l.line.refresher.running then [] else [.begun], ?_, ?_⟩
      · rw [hsince, List.append_assoc]
      · cases hrunning : l.line.refresher.running with
        | true => exact hwaits.append (by simp) (by simp)
        | false => exact absurd hbefore (by simp [h.flushes_of_idle hrunning])
    · rw [List.mem_singleton.1 hbefore]
      refine ⟨_, rfl, ?_⟩
      cases hrunning : l.line.refresher.running with
      | true => exact Or.inl (by simp)
      | false => exact Or.inr ⟨by simp [h.open_log_iff, h.flushes_of_idle hrunning], by simp⟩

/-- What is noted of a flush that returns when the refresh has ended, given the notes after the end. -/
theorem returns_receipts (h : l.IsFair) {logs : List (List Note)} (rest : List Note)
    (hlogs : ∀ before ∈ logs, before ∈ flushes l.callers) (hended : .ended ∉ rest)
    (hdropped : .dropped ∉ rest) (htaken : ∀ before ∈ logs, Stands l.log → Open before) :
    ∀ entry ∈ receipts (l.log ++ .ended :: rest) logs,
      KeepsPromise entry.1 entry.2 ↔ ¬ IsOvertaken entry.1 entry.2 := by
  rintro ⟨before, after⟩ hentry
  obtain ⟨i, hi, hafter⟩ := exists_of_mem_receipts hentry
  have hmem : before ∈ logs := List.mem_of_getElem? hi
  obtain ⟨since, hsince, hwaits⟩ := h.waits before (hlogs before hmem)
  have hnotes : after = since ++ .ended :: (rest ++ List.replicate i .returned) := by
    dsimp only at hafter
    rw [hafter, hsince]
    simp
  rw [hnotes]
  exact hwaits.keepsPromise_iff_not_isOvertaken (by simp [hended]) (by simp [hdropped])
    (hsince ▸ htaken before hmem)

/-- The first flush that waits was called while no other one waited, and the others were not. -/
theorem open_of_flushes_eq (h : l.IsFair) {first : List Note} {rest : List (List Note)}
    (hflushes : flushes l.callers = first :: rest) :
    ¬ Open first ∧ ∀ before ∈ rest, Open before := by
  constructor
  · rw [h.open_iff 0 first (by simp [hflushes])]
    simp
  · intro before hbefore
    obtain ⟨i, hi⟩ := List.mem_iff_getElem?.1 hbefore
    exact (h.open_iff (i + 1) before (by simpa [hflushes] using hi)).2 (by simp)

theorem endRefresh (h : l.IsFair) (hrunning : l.line.refresher.running = true) : l.endRefresh.IsFair := by
  have hsound := h.isSound.endRefresh hrunning
  have hcalled := h.called_eq
  rcases l.endRefresh_cases with ⟨hnone, hends⟩ | ⟨-, first, rest, hflushes, hends⟩
  · -- every flush returns, and no request stands
    have htaken : ∀ before ∈ flushes l.callers, Stands l.log → Open before := by
      intro before hbefore hstands
      rcases hnone with hnone | hnone
      · exact absurd (h.isSound.stands_iff.1 hstands) (by simp [hnone])
      · exact absurd hbefore (by simp [hnone])
    have hreturns := h.returns_receipts [] (fun before hbefore => hbefore) (by simp) (by simp) htaken
    rw [hends] at hsound ⊢
    refine ⟨hsound, ?_, fun i before hbefore => absurd hbefore (by simp [flushes]),
      fun before hbefore => absurd hbefore (by simp [flushes]), fun entry hentry => ?_⟩
    · simp [hcalled, List.count_replicate, flushes]
    · exact (List.mem_append.1 hentry).elim (h.returns entry) (hreturns entry)
  · -- the first flush begins the next refresh, and every other one knew that it waited
    obtain ⟨hclosed, hopen⟩ := h.open_of_flushes_eq hflushes
    have hreturns := h.returns_receipts [.begun]
      (fun before hbefore => hflushes ▸ List.mem_cons_of_mem first hbefore) (by simp) (by simp)
      fun before hbefore _ => hopen before hbefore
    obtain ⟨since, hsince, -⟩ := h.waits first (by simp [hflushes])
    rw [hends] at hsound ⊢
    refine ⟨hsound, ?_, ?_, ?_, fun entry hentry => ?_⟩
    · rw [hflushes, List.length_cons] at hcalled
      have hwaiting : (flushes [(Waiter.flush, first)]).length = 1 := rfl
      rw [hwaiting]
      simp [hcalled, List.count_replicate]
      omega
    · intro i before hbefore
      have hi : i = 0 ∧ first = before := by simpa [flushes, List.getElem?_singleton] using hbefore
      rw [← hi.2, hi.1]
      simpa using hclosed
    · intro before hbefore
      have hfirst : before = first := by simpa [flushes] using hbefore
      rw [hfirst]
      exact ⟨since ++ .ended :: .begun :: List.replicate rest.length .returned, by simp [hsince],
        Or.inr ⟨hclosed, by simp⟩⟩
    · exact (List.mem_append.1 hentry).elim (h.returns entry) (hreturns entry)

theorem pass (h : l.IsFair) (moment : Moment) : (l.pass moment).IsFair := by
  have hsound := h.isSound.pass moment
  cases moment with
  | request timersServed => exact h.append hsound [.requested] rfl (by simp) rfl rfl
  | cancel => exact h.append hsound [.dropped] rfl (by simp) rfl rfl
  | flush => exact h.flush
  | wait =>
      refine h.append hsound [] (by simp [Logged.pass]) (by simp) ?_ rfl
      simp only [Logged.pass]
      split
      · exact flushes_concat_wait ..
      · rfl
  | pace | clock => exact h.append hsound [] (by simp [Logged.pass]) (by simp) rfl rfl
  | endRefresh =>
      simp only [Logged.pass]
      split
      · next hends => exact h.endRefresh (h.isSound.isSafe.running_eq.trans hends)
      · exact h
  | fire =>
      cases htimer : l.line.refresher.timer.isSome with
      | false => simpa [Logged.pass, htimer] using h
      | true =>
          -- nobody waits while the timer is set
          have hidle := h.isSound.isSafe.running_of_timer htimer
          have hflushes := h.flushes_of_idle hidle
          have hcallers : flushes (l.pass .fire).callers = [] := by
            simpa [Logged.pass, htimer] using hflushes
          refine ⟨hsound, ?_, ?_, ?_, ?_⟩
          · have hcalled := h.called_eq
            rw [hcallers]
            simpa [Logged.pass, htimer, hidle, hflushes] using hcalled
          · simp [hcallers]
          · simp [hcallers]
          · simpa [Logged.pass, htimer] using h.returns

theorem run (h : l.IsFair) (steps : List TimelineStep) : (l.run steps).IsFair :=
  run_induction (fun _ => IsFair.pass) h steps

end IsFair

/-- Whatever is done with refreshes, a flush that returns has kept its promise, that every request made
before it was served or dropped, exactly if it was not overtaken. -/
theorem keepsPromise_iff (debounce duration : Seconds) (failing : List Nat) (steps : List TimelineStep)
    (before since : List Note)
    (h : (before, since) ∈ ((fresh debounce duration failing).run steps).returns) :
    KeepsPromise before since ↔ ¬ IsOvertaken before since :=
  ((IsFair.fresh debounce duration failing).run steps).returns (before, since) h

/-- A flush that finds a request waiting for the running refresh returns after the next one. -/
theorem keepsPromise_iff_served :
    ([.requested, .begun, .requested], [.called, .ended, .begun, .ended]) ∈
      ((fresh 60 1 []).run
        [.request true, .advance 60, .request true, .flush, .advance 1, .advance 1]).returns ∧
    (KeepsPromise [.requested, .begun, .requested] [.called, .ended, .begun, .ended] ↔
      ¬ IsOvertaken [.requested, .begun, .requested] [.called, .ended, .begun, .ended]) :=
  have hreturns : ([.requested, .begun, .requested], [.called, .ended, .begun, .ended]) ∈
      ((fresh 60 1 []).run
        [.request true, .advance 60, .request true, .flush, .advance 1, .advance 1]).returns := by
    decide +kernel
  ⟨hreturns, keepsPromise_iff 60 1 [] _ _ _ hreturns⟩

/-- One flush waits, a request comes in, and a second flush is called. It returns when the refresh that ran
at its call has ended, while the one that is to serve the request still runs. -/
theorem not_keepsPromise_second :
    ∃ entry ∈ ((fresh 60 1 []).run [.flush, .request true, .flush, .advance 1]).returns,
      ¬ KeepsPromise entry.1 entry.2 := by
  refine ⟨([.called, .begun, .requested], [.called, .ended, .begun]), by decide +kernel, fun h => ?_⟩
  have hserved : IsDropped [.called, .ended, .begun] ∨ IsServed [.called, .ended, .begun] :=
    h [.called, .begun] [] rfl
  unfold IsDropped IsServed at hserved
  exact absurd hserved (by decide)

end Logged

end Scenarist.Timeline
