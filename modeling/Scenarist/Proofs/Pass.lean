import Scenarist.Repair

set_option autoImplicit false

/-! # What a pass can do

The steps of a pass hand a desk on, each to the next, up to the last one or to the one that fails. What
comes of a text is told by where they lead and by the sections that are left. A pass over a document then
ends in one of a few ways, and does no more to the desk than to put it back or to note what it saved.

Main statements: `Executor.runSteps_relates` (the desk), `Executor.repairText_eq_ok_iff`,
`Executor.repairText_eq_rollback_iff`, `Executor.repairText_eq_failed_iff` (the text) and
`Executor.ends_of_handle` (the document). -/

namespace Scenarist.Executor

open Text

variable {executor : Executor} {uri text : Text} {desk : Desk} {result : RepairResult} {error : StepError}
  {missing : List SectionKey}

/-! ## Steps one after the other -/

theorem snd_runSteps_cons (step : RepairStep) (steps : List RepairStep) (text : Text) :
    (executor.runSteps uri (step :: steps) text desk).2 =
      match step.action.run executor uri text desk with
      | (.error _, between) => between
      | (.ok updated, between) => (executor.runSteps uri steps updated between).2 := by
  rw [runSteps]
  rcases step.action.run executor uri text desk with ⟨_ | updated, between⟩
  · rfl
  · simp only
    rcases executor.runSteps uri steps updated between with ⟨_ | _, _⟩ <;> rfl

/-- Steps one after the other relate the desks before and after them as each of them does. -/
theorem runSteps_relates {relates : Desk → Desk → Prop} (hrefl : ∀ desk, relates desk desk)
    (htrans : ∀ {first second third}, relates first second → relates second third → relates first third)
    {steps : List RepairStep}
    (hsteps : ∀ step ∈ steps, ∀ text desk, relates desk (step.action.run executor uri text desk).2)
    (text : Text) (desk : Desk) : relates desk (executor.runSteps uri steps text desk).2 := by
  induction steps generalizing text desk with
  | nil => exact hrefl desk
  | cons step steps ih =>
      have hstep := hsteps step List.mem_cons_self text desk
      rw [snd_runSteps_cons]
      rcases hrun : step.action.run executor uri text desk with ⟨_ | updated, between⟩ <;> rw [hrun] at hstep
      · exact hstep
      · have hrest := ih (fun other hother => hsteps other (List.mem_cons_of_mem _ hother)) updated between
        exact htrans hstep hrest

/-! ## A text -/

theorem snd_repairText (executor : Executor) (uri text : Text) (desk : Desk) :
    (executor.repairText uri text desk).2 = (executor.runSteps uri executor.steps text desk).2 := by
  unfold repairText
  rcases executor.runSteps uri executor.steps text desk with ⟨_ | _, _⟩ <;> rfl

theorem repairText_eq_failed_iff :
    (executor.repairText uri text desk).1 = .error (.step error) ↔
      (executor.runSteps uri executor.steps text desk).1 = .error error := by
  unfold repairText
  rcases executor.runSteps uri executor.steps text desk with ⟨failed | ⟨final, applied⟩, last⟩
  · simp
  · simp only [reduceCtorEq, iff_false]
    split <;> simp

/-- A pass over a text is rolled back exactly if all its steps go through and sections have disappeared. -/
theorem repairText_eq_rollback_iff :
    (executor.repairText uri text desk).1 = .error (.rollback missing) ↔
      ∃ final applied, (executor.runSteps uri executor.steps text desk).1 = .ok (final, applied) ∧
        missingSections text final = missing ∧ missing ≠ [] := by
  unfold repairText
  rcases executor.runSteps uri executor.steps text desk with ⟨failed | ⟨final, applied⟩, last⟩
  · simp
  · constructor
    · intro h
      dsimp only at h
      split at h
      · exact absurd h (by simp)
      · next hlost =>
        obtain rfl : missingSections text final = missing := by simpa using h
        exact ⟨final, applied, rfl, rfl, by simpa using hlost⟩
    · rintro ⟨_, _, hrun, rfl, hlost⟩
      obtain ⟨rfl, rfl⟩ := Prod.mk.inj (Except.ok.inj hrun)
      dsimp only
      rw [if_neg (by simpa using hlost)]

/-- A pass over a text comes to a result exactly if all its steps go through and no section has
disappeared. -/
theorem repairText_eq_ok_iff :
    (executor.repairText uri text desk).1 = .ok result ↔
      ∃ final applied, (executor.runSteps uri executor.steps text desk).1 = .ok (final, applied) ∧
        missingSections text final = [] ∧
        result = { path := uri, changed := final ≠ text, text := final, applied } := by
  unfold repairText
  rcases executor.runSteps uri executor.steps text desk with ⟨failed | ⟨final, applied⟩, last⟩
  · simp
  · constructor
    · intro h
      dsimp only at h
      split at h
      · next hkept => exact ⟨final, applied, rfl, by simpa using hkept, (Except.ok.inj h).symm⟩
      · exact absurd h (by simp)
    · rintro ⟨_, _, hrun, hkept, rfl⟩
      obtain ⟨rfl, rfl⟩ := Prod.mk.inj (Except.ok.inj hrun)
      dsimp only
      rw [if_pos (by simpa using hkept)]

/-! ## A document -/

section

variable {σ : Type} [DocumentStore σ] {store : σ} {overrides : Table ParameterData}

/-- How a pass can end over what was fetched: with an outcome, the store and the desk. -/
inductive Ends (executor : Executor) (uri : Text) (overrides : Table ParameterData) (store : σ)
    (desk : Desk) : Except StoreError Text → Except StepError RepairResult × σ × Desk → Prop
  | unread (error : StoreError) :
      Ends executor uri overrides store desk (.error error)
        (.ok { path := uri, error := some (storeFailure error.message) }, store, desk)
  | rolledBack {before : Text} {missing : List SectionKey} {between : Desk}
      (htext : executor.repairText uri before desk = (.error (.rollback missing), between))
      (hguard : guardScalars (Record.scalarsOf before) () = .ok ()) :
      Ends executor uri overrides store desk (.ok before)
        (.ok { path := uri, text := before, error := some (rollbackMessage uri missing) }, store,
          restore uri before overrides between)
  /-- The document cannot be entered again as it was. -/
  | unrestored {before : Text} {missing : List SectionKey} {between : Desk} {fault : ScalarFault}
      (htext : executor.repairText uri before desk = (.error (.rollback missing), between))
      (hguard : guardScalars (Record.scalarsOf before) () = .error fault) :
      Ends executor uri overrides store desk (.ok before) (.error (.ofFault fault), store, between)
  | refused {before reason : Text} {between : Desk}
      (htext : executor.repairText uri before desk = (.error (.step (.refused reason)), between)) :
      Ends executor uri overrides store desk (.ok before)
        (.ok { path := uri, error := some (storeFailure reason) }, store, between)
  | reported {before message : Text} {between : Desk}
      (htext : executor.repairText uri before desk = (.error (.step (.reported message)), between)) :
      Ends executor uri overrides store desk (.ok before)
        (.ok { path := uri, error := some message }, store, between)
  | raised {before kind message : Text} {between : Desk}
      (htext : executor.repairText uri before desk = (.error (.step (.unexpected kind message)), between)) :
      Ends executor uri overrides store desk (.ok before) (.error (.unexpected kind message), store, between)
  | unwritten {before : Text} {result : RepairResult} {error : StoreError} {between : Desk}
      (htext : executor.repairText uri before desk = (.ok result, between))
      (hwritten : (result.changed && executor.writeChanges) = true)
      (hwrite : DocumentStore.write store uri result.text = .error error) :
      Ends executor uri overrides store desk (.ok before)
        (.ok { result with error := some (storeFailure error.message) }, store, between)
  | written {before : Text} {result : RepairResult} {after : σ} {between : Desk}
      (htext : executor.repairText uri before desk = (.ok result, between))
      (hwritten : (result.changed && executor.writeChanges) = true)
      (hwrite : DocumentStore.write store uri result.text = .ok after) :
      Ends executor uri overrides store desk (.ok before)
        (.ok result, after, { between with session := between.session.recordSaved uri result.text })
  /-- There is nothing to be written. -/
  | kept {before : Text} {result : RepairResult} {between : Desk}
      (htext : executor.repairText uri before desk = (.ok result, between))
      (hkept : (result.changed && executor.writeChanges) = false) :
      Ends executor uri overrides store desk (.ok before) (.ok result, store, between)

/-- A pass ends in one of these ways. -/
theorem ends_of_handle {fetched : Except StoreError Text} {ended : Except StepError RepairResult × σ × Desk}
    (h : executor.handle uri overrides fetched store desk = ended) :
    executor.Ends uri overrides store desk fetched ended := by
  subst h
  cases fetched with
  | error error => exact .unread error
  | ok before =>
      rcases htext : executor.repairText uri before desk with ⟨outcome, between⟩
      unfold handle
      simp only [htext]
      match outcome with
      | .error (.rollback missing) =>
          cases hguard : guardScalars (Record.scalarsOf before) () with
          | error fault => exact .unrestored htext hguard
          | ok _ => exact .rolledBack htext hguard
      | .error (.step (.refused reason)) => exact .refused htext
      | .error (.step (.reported message)) => exact .reported htext
      | .error (.step (.unexpected kind message)) => exact .raised htext
      | .ok result =>
          cases hwritten : result.changed && executor.writeChanges with
          | false => simpa only [hwritten] using .kept htext hwritten
          | true =>
              cases hwrite : DocumentStore.write store uri result.text with
              | error error => simpa only [hwritten, hwrite] using .unwritten htext hwritten hwrite
              | ok after => simpa only [hwritten, hwrite] using .written htext hwritten hwrite

end

end Scenarist.Executor
