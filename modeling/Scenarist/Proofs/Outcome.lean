import Scenarist.Proofs.Batch

set_option autoImplicit false

/-! # Where a document ends up

A pass over a document is stopped if the document cannot be read or written, if one of the steps fails, or
if the steps lose a section; otherwise it comes through with a text. A batch enters every document into one
of four lists. The documents whose passes were stopped are entered as failures, one case apart: a step that
reports that it cannot be done without saying anything. An error without a text counts as none, so such a
document is entered as one that stayed as it was.

Main statements: `Executor.entryOf_repair_of_isStopped`, `Executor.entryOf_repair_of_comesThrough` (one
pass), `Executor.under_repairAll` (the lists of a batch) and `Executor.repairAll_enters`. -/

namespace Scenarist

open Text

/-! ## What stops a pass -/

/-- What a pass over a document can be stopped by. -/
inductive Obstacle where
  /-- The document cannot be read. -/
  | unread (error : StoreError)
  /-- A step fails. -/
  | raised (error : StepError)
  /-- The steps have lost these sections, so that the pass is rolled back. -/
  | lost (missing : List SectionKey)
  /-- The document cannot be written. -/
  | unwritten (error : StoreError)
  deriving DecidableEq

/-- A step has failed without saying why. -/
def Obstacle.unsaid : Obstacle := .raised (.reported [])

namespace Executor

/-- Whether a step fails on a text, those in front of it having gone through. -/
def Raises (executor : Executor) (uri text : Text) (desk : Desk) (error : StepError) : Prop :=
  ∃ front step back middle applied between, executor.steps = front ++ step :: back ∧
    executor.runSteps uri front text desk = (.ok (middle, applied), between) ∧
    (step.action.run executor uri middle between).1 = .error error

/-- Whether all the steps go through and make one text of another. -/
def LeadsTo (executor : Executor) (uri text : Text) (desk : Desk) (final : Text) : Prop :=
  ∃ applied last, executor.runSteps uri executor.steps text desk = (.ok (final, applied), last)

section

variable {σ : Type} [DocumentStore σ]

/-- Whether a pass over a document that no other one is at work on is stopped, and by what. -/
inductive IsStopped (executor : Executor) (uri : Text) (store : σ) (desk : Desk) : Obstacle → Prop
  | unread {error : StoreError} (hread : DocumentStore.read store uri = .error error) :
      IsStopped executor uri store desk (.unread error)
  | raised {old : Text} {error : StepError} (hread : DocumentStore.read store uri = .ok old)
      (hraises : executor.Raises uri old (takeOn uri desk) error) :
      IsStopped executor uri store desk (.raised error)
  | lost {old new : Text} (hread : DocumentStore.read store uri = .ok old)
      (hleads : executor.LeadsTo uri old (takeOn uri desk) new) (hlost : missingSections old new ≠ []) :
      IsStopped executor uri store desk (.lost (missingSections old new))
  | unwritten {old new : Text} {error : StoreError} (hread : DocumentStore.read store uri = .ok old)
      (hleads : executor.LeadsTo uri old (takeOn uri desk) new) (hkept : missingSections old new = [])
      (hchanged : new ≠ old) (hwrites : executor.writeChanges = true)
      (hwrite : DocumentStore.write store uri new = .error error) :
      IsStopped executor uri store desk (.unwritten error)

/-- Whether a pass over a document that no other one is at work on comes through, with the text that was
read and the one that the steps make of it. -/
structure ComesThrough (executor : Executor) (uri : Text) (store : σ) (desk : Desk) (old new : Text) :
    Prop where
  read_eq : DocumentStore.read store uri = .ok old
  leads : executor.LeadsTo uri old (takeOn uri desk) new
  kept : missingSections old new = []
  written : new ≠ old → executor.writeChanges = true →
    ∃ after, DocumentStore.write store uri new = .ok after

end

/-! ## The steps -/

variable {executor : Executor} {uri text old new : Text} {desk : Desk} {error : StepError}

theorem exists_raising_of_runSteps {steps : List RepairStep}
    (h : (executor.runSteps uri steps text desk).1 = .error error) :
    ∃ front step back middle applied between, steps = front ++ step :: back ∧
      executor.runSteps uri front text desk = (.ok (middle, applied), between) ∧
      (step.action.run executor uri middle between).1 = .error error := by
  induction steps generalizing text desk with
  | nil => simp [runSteps] at h
  | cons step steps ih =>
      rcases hrun : step.action.run executor uri text desk with ⟨failed | updated, between⟩
      · obtain rfl : failed = error := by simpa [runSteps, hrun] using h
        exact ⟨[], step, steps, text, [], desk, rfl, rfl, by rw [hrun]⟩
      -- the first step went well, so the failure is one of the later steps
      · have hrest : (executor.runSteps uri steps updated between).1 = .error error := by
          rw [runSteps] at h
          rcases hsteps : executor.runSteps uri steps updated between with ⟨_ | _, _⟩ <;>
            simp only [hrun, hsteps] at h
          · exact h
          · exact absurd h (by simp)
        obtain ⟨front, later, back, middle, applied, last, hsplit, hfront, hlater⟩ := ih hrest
        exact ⟨step :: front, later, back, middle, _, last, by rw [hsplit, List.cons_append],
          runSteps_cons_iff.2 ⟨updated, between, applied, hrun, hfront, rfl⟩, hlater⟩

theorem runSteps_of_raising {front back : List RepairStep} {step : RepairStep} {middle : Text}
    {applied : List Text} {between : Desk}
    (hfront : executor.runSteps uri front text desk = (.ok (middle, applied), between))
    (hstep : (step.action.run executor uri middle between).1 = .error error) :
    (executor.runSteps uri (front ++ step :: back) text desk).1 = .error error := by
  induction front generalizing text desk applied with
  | nil =>
      obtain ⟨⟨rfl, -⟩, rfl⟩ : (text = middle ∧ [] = applied) ∧ desk = between := by
        simpa [runSteps] using hfront
      rcases hrun : step.action.run executor uri text desk with ⟨failed | updated, last⟩
      · rw [hrun] at hstep
        rw [List.nil_append, runSteps]
        simpa [hrun] using hstep
      · rw [hrun] at hstep
        exact absurd hstep (by simp)
  | cons first front ih =>
      obtain ⟨updated, next, rest, hrun, hrest, -⟩ := runSteps_cons_iff.1 hfront
      have herror := ih hrest
      rw [List.cons_append, runSteps]
      rcases hsteps : executor.runSteps uri (front ++ step :: back) updated next with ⟨failed | _, last⟩ <;>
        rw [hsteps] at herror
      · simpa only [hrun, hsteps] using herror
      · exact absurd herror (by simp)

/-- A pass over a text fails with the error of the step that fails. -/
theorem repairText_eq_raised_iff :
    (executor.repairText uri text desk).1 = .error (.step error) ↔ executor.Raises uri text desk error := by
  rw [repairText_eq_failed_iff]
  constructor
  · exact exists_raising_of_runSteps
  · rintro ⟨front, step, back, middle, applied, between, hsplit, hfront, hstep⟩
    rw [hsplit]
    exact runSteps_of_raising hfront hstep

/-- If all the steps go through, a pass over a text is rolled back exactly if they lose a section. -/
theorem repairText_of_leadsTo (h : executor.LeadsTo uri old desk new) :
    ∃ applied, (executor.repairText uri old desk).1 =
      if missingSections old new = [] then
        .ok { path := uri, changed := new ≠ old, text := new, applied }
      else .error (.rollback (missingSections old new)) := by
  obtain ⟨applied, last, hrun⟩ := h
  refine ⟨applied, ?_⟩
  by_cases hkept : missingSections old new = []
  · rw [if_pos hkept]
    exact repairText_eq_ok_iff.2 ⟨new, applied, by rw [hrun], hkept, rfl⟩
  · rw [if_neg hkept]
    exact repairText_eq_rollback_iff.2 ⟨new, applied, by rw [hrun], rfl, hkept⟩

/-- Either a step fails, or all of them go through. -/
theorem raises_or_leadsTo (executor : Executor) (uri text : Text) (desk : Desk) :
    (∃ error, executor.Raises uri text desk error) ∨ ∃ final, executor.LeadsTo uri text desk final := by
  rcases hrun : executor.runSteps uri executor.steps text desk with ⟨error | ⟨final, applied⟩, last⟩
  · exact Or.inl ⟨error, exists_raising_of_runSteps (by rw [hrun])⟩
  · exact Or.inr ⟨final, applied, last, hrun⟩

end Executor

/-! ## The lists of a batch -/

namespace BatchResult

/-- The lists that a batch keeps. -/
inductive Entry where
  | changed
  | unchanged
  | skipped
  | failed
  deriving DecidableEq

/-- The documents that a batch has entered into one of its lists. -/
def under (batch : BatchResult) : Entry → List Text
  | .changed => batch.changed
  | .unchanged => batch.unchanged
  | .skipped => batch.skipped
  | .failed => batch.failures.map Prod.fst

def entryOf : Except StepError RepairResult → Entry
  | .error _ => .failed
  | .ok result => match result.error.filter (!·.isEmpty) with
    | some _ => .failed
    | none => if result.skipped then .skipped else if result.changed then .changed else .unchanged

/-- An outcome goes to the end of its list and leaves the others. -/
theorem under_add (batch : BatchResult) {uri : Text} {outcome : Except StepError RepairResult}
    (hpath : ∀ result, outcome = .ok result → result.path = uri) (entry : Entry) :
    (batch.add uri outcome).under entry =
      batch.under entry ++ if entryOf outcome = entry then [uri] else [] := by
  match outcome with
  | .error (.refused _) => cases entry <;> simp [add, under, entryOf]
  | .error (.reported _) => cases entry <;> simp [add, under, entryOf]
  | .error (.unexpected _ _) => cases entry <;> simp [add, under, entryOf]
  | .ok result =>
      have hresult := hpath result rfl
      cases hsaid : result.error.filter (!·.isEmpty) with
      | some error =>
          simp only [add, entryOf, hsaid]
          cases entry <;> simp [under, hresult]
      | none =>
          simp only [add, entryOf, hsaid]
          cases result.skipped <;> cases result.changed <;> cases entry <;> simp [under, hresult]

/-- Documents sorted by the lists that they are entered into are all of them. -/
theorem perm_of_entries (entries : List (Text × Entry)) :
    ((entries.filter (·.2 = .changed)).map Prod.fst ++ (entries.filter (·.2 = .unchanged)).map Prod.fst ++
      (entries.filter (·.2 = .skipped)).map Prod.fst ++
        (entries.filter (·.2 = .failed)).map Prod.fst).Perm (entries.map Prod.fst) := by
  induction entries with
  | nil => exact .refl _
  | cons first entries ih =>
      obtain ⟨uri, entry⟩ := first
      rw [List.perm_iff_count] at ih ⊢
      intro path
      have hpath := ih path
      cases entry <;> simp [List.count_append, List.count_cons] at hpath ⊢ <;> omega

end BatchResult

namespace Executor

open BatchResult

variable {σ : Type} [DocumentStore σ] {executor : Executor} {uri old new : Text} {store : σ} {desk : Desk}
  {obstacle : Obstacle}

/-! ## One pass -/

/-- A pass is stopped or comes through. -/
theorem isStopped_or_comesThrough (executor : Executor) (uri : Text) (store : σ) (desk : Desk) :
    (∃ obstacle, executor.IsStopped uri store desk obstacle) ∨
      ∃ old new, executor.ComesThrough uri store desk old new := by
  cases hread : DocumentStore.read store uri with
  | error error => exact Or.inl ⟨_, .unread hread⟩
  | ok old =>
      rcases executor.raises_or_leadsTo uri old (takeOn uri desk) with ⟨error, hraises⟩ | ⟨new, hleads⟩
      · exact Or.inl ⟨_, .raised hread hraises⟩
      · by_cases hkept : missingSections old new = []
        · by_cases hwritten : new ≠ old → executor.writeChanges = true →
              ∃ after, DocumentStore.write store uri new = .ok after
          · exact Or.inr ⟨old, new, hread, hleads, hkept, hwritten⟩
          · push Not at hwritten
            obtain ⟨hchanged, hwrites, hrefused⟩ := hwritten
            cases hwrite : DocumentStore.write store uri new with
            | error error => exact Or.inl ⟨_, .unwritten hread hleads hkept hchanged hwrites hwrite⟩
            | ok after => exact absurd hwrite (hrefused after)
        · exact Or.inl ⟨_, .lost hread hleads hkept⟩

/-- A pass over a document that another one is at work on leaves the store, and is entered as skipped. -/
theorem entryOf_repair_of_busy (hbusy : desk.session.isProcessing uri = true) :
    entryOf (executor.repair uri store desk).1 = .skipped ∧ (executor.repair uri store desk).2.1 = store := by
  unfold repair Session.begin
  rw [if_pos hbusy]
  exact ⟨rfl, rfl⟩

theorem storeFailure_ne_nil (reason : Text) : storeFailure reason ≠ [] :=
  List.append_ne_nil_of_left_ne_nil (by decide) reason

theorem rollbackMessage_ne_nil (uri : Text) (missing : List SectionKey) :
    rollbackMessage uri missing ≠ [] :=
  List.append_ne_nil_of_right_ne_nil _ (by decide)

/-- An error with a text makes a failure. -/
theorem entryOf_of_error {result : RepairResult} {message : Text} (herror : result.error = some message)
    (hsaid : message ≠ []) : entryOf (.ok result) = .failed := by
  have hfilter : result.error.filter (!·.isEmpty) = some message := by
    rw [herror, Option.filter_some, if_pos (by simpa using hsaid)]
  simp [entryOf, hfilter]

/-- A pass that is stopped leaves the store and is entered as a failure, unless a step has failed without
saying why. -/
theorem entryOf_repair_of_isStopped (hfree : desk.session.isProcessing uri = false)
    (h : executor.IsStopped uri store desk obstacle) :
    entryOf (executor.repair uri store desk).1 = (if obstacle = .unsaid then .unchanged else .failed) ∧
      (executor.repair uri store desk).2.1 = store := by
  rw [repair_of_free hfree]
  dsimp only
  cases h with
  | unread hread =>
      rw [hread]
      exact ⟨entryOf_of_error rfl (storeFailure_ne_nil _), rfl⟩
  | @raised old error hread hraises =>
      have hrun := repairText_eq_raised_iff.2 hraises
      rcases htext : executor.repairText uri old (takeOn uri desk) with ⟨outcome, between⟩
      rw [htext] at hrun
      obtain rfl : outcome = .error (.step error) := hrun
      rw [hread]
      unfold handle
      simp only [htext]
      cases error with
      | refused reason =>
          exact ⟨entryOf_of_error rfl (storeFailure_ne_nil _), rfl⟩
      | reported message =>
          by_cases hsaid : message = []
          · subst hsaid
            exact ⟨rfl, rfl⟩
          · refine ⟨?_, rfl⟩
            rw [if_neg (by simpa [Obstacle.unsaid] using hsaid)]
            exact entryOf_of_error rfl hsaid
      | unexpected kind message => exact ⟨rfl, rfl⟩
  | @lost old new hread hleads hlost =>
      obtain ⟨applied, hrun⟩ := repairText_of_leadsTo hleads
      rw [if_neg hlost] at hrun
      rcases htext : executor.repairText uri old (takeOn uri desk) with ⟨outcome, between⟩
      rw [htext] at hrun
      obtain rfl : outcome = .error (.rollback (missingSections old new)) := hrun
      rw [hread]
      unfold handle
      simp only [htext]
      -- the original may fail to be entered again, which is a failure as well
      cases guardScalars (Record.scalarsOf old) () with
      | error fault => exact ⟨rfl, rfl⟩
      | ok _ => exact ⟨entryOf_of_error rfl (rollbackMessage_ne_nil _ _), rfl⟩
  | @unwritten old new error hread hleads hkept hchanged hwrites hwrite =>
      obtain ⟨applied, hrun⟩ := repairText_of_leadsTo hleads
      rw [if_pos hkept] at hrun
      rcases htext : executor.repairText uri old (takeOn uri desk) with ⟨outcome, between⟩
      rw [htext] at hrun
      obtain rfl := hrun
      rw [hread]
      unfold handle
      simp only [htext, hchanged, hwrites, hwrite, ne_eq, not_false_eq_true, decide_true, Bool.and_self,
        if_true, and_true]
      exact entryOf_of_error rfl (storeFailure_ne_nil _)

/-- A pass that comes through is entered by whether it made another text, which the store takes if changes
are written. -/
theorem entryOf_repair_of_comesThrough (hfree : desk.session.isProcessing uri = false)
    (h : executor.ComesThrough uri store desk old new) :
    entryOf (executor.repair uri store desk).1 = (if new = old then .unchanged else .changed) ∧
      Takes uri (if new ≠ old ∧ executor.writeChanges = true then some new else none) store
        (executor.repair uri store desk).2.1 := by
  obtain ⟨applied, hrun⟩ := repairText_of_leadsTo h.leads
  rw [if_pos h.kept] at hrun
  rcases htext : executor.repairText uri old (takeOn uri desk) with ⟨outcome, between⟩
  rw [htext] at hrun
  obtain rfl := hrun
  rw [repair_of_free hfree, h.read_eq]
  unfold handle
  simp only [htext]
  by_cases hchanged : new = old
  · simp only [hchanged, ne_eq, not_true_eq_false, decide_false, Bool.false_and, Bool.false_eq_true, if_false,
      false_and, if_true]
    exact ⟨rfl, rfl⟩
  · cases hwrites : executor.writeChanges with
    | false =>
        simp only [hchanged, ne_eq, not_false_eq_true, decide_true, Bool.and_false, Bool.false_eq_true,
          if_false, and_false]
        exact ⟨rfl, rfl⟩
    | true =>
        obtain ⟨after, hwrite⟩ := h.written hchanged hwrites
        simp only [hchanged, hwrite, ne_eq, not_false_eq_true, decide_true, Bool.and_self, if_true, if_false,
          and_self]
        exact ⟨rfl, hwrite⟩

/-- A pass is entered as skipped only if another one is at work on the document. -/
theorem entryOf_repair_ne_skipped (hfree : desk.session.isProcessing uri = false) :
    entryOf (executor.repair uri store desk).1 ≠ .skipped := by
  rcases executor.isStopped_or_comesThrough uri store desk with ⟨obstacle, hstopped⟩ | ⟨old, new, hthrough⟩
  · rw [(entryOf_repair_of_isStopped hfree hstopped).1]
    split <;> decide
  · rw [(entryOf_repair_of_comesThrough hfree hthrough).1]
    split <;> decide

/-- A pass is entered as a failure exactly if it is stopped by something that is said. -/
theorem entryOf_repair_eq_failed_iff (hfree : desk.session.isProcessing uri = false) :
    entryOf (executor.repair uri store desk).1 = .failed ↔
      ∃ obstacle, executor.IsStopped uri store desk obstacle ∧ obstacle ≠ .unsaid := by
  constructor
  · intro hentry
    rcases executor.isStopped_or_comesThrough uri store desk with ⟨obstacle, hstopped⟩ | ⟨old, new, hthrough⟩
    · rw [(entryOf_repair_of_isStopped hfree hstopped).1] at hentry
      exact ⟨obstacle, hstopped, fun hunsaid => absurd hentry (by simp [hunsaid])⟩
    · rw [(entryOf_repair_of_comesThrough hfree hthrough).1] at hentry
      split at hentry <;> exact absurd hentry (by decide)
  · rintro ⟨obstacle, hstopped, hsaid⟩
    rw [(entryOf_repair_of_isStopped hfree hstopped).1, if_neg hsaid]

/-- A pass is entered as one without a change exactly if it is stopped without a word or comes through with the
text that was read. -/
theorem entryOf_repair_eq_unchanged_iff (hfree : desk.session.isProcessing uri = false) :
    entryOf (executor.repair uri store desk).1 = .unchanged ↔
      executor.IsStopped uri store desk .unsaid ∨ ∃ text, executor.ComesThrough uri store desk text text := by
  constructor
  · intro hentry
    rcases executor.isStopped_or_comesThrough uri store desk with ⟨obstacle, hstopped⟩ | ⟨old, new, hthrough⟩
    · rw [(entryOf_repair_of_isStopped hfree hstopped).1] at hentry
      by_cases hunsaid : obstacle = .unsaid
      · exact Or.inl (hunsaid ▸ hstopped)
      · exact absurd hentry (by simp [hunsaid])
    · rw [(entryOf_repair_of_comesThrough hfree hthrough).1] at hentry
      by_cases hsame : new = old
      · exact Or.inr ⟨old, hsame ▸ hthrough⟩
      · exact absurd hentry (by simp [hsame])
  · rintro (hstopped | ⟨text, hthrough⟩)
    · rw [(entryOf_repair_of_isStopped hfree hstopped).1, if_pos rfl]
    · rw [(entryOf_repair_of_comesThrough hfree hthrough).1, if_pos rfl]

/-- A pass is entered as a change exactly if it comes through with another text. -/
theorem entryOf_repair_eq_changed_iff (hfree : desk.session.isProcessing uri = false) :
    entryOf (executor.repair uri store desk).1 = .changed ↔
      ∃ old new, executor.ComesThrough uri store desk old new ∧ new ≠ old := by
  constructor
  · intro hentry
    rcases executor.isStopped_or_comesThrough uri store desk with ⟨obstacle, hstopped⟩ | ⟨old, new, hthrough⟩
    · rw [(entryOf_repair_of_isStopped hfree hstopped).1] at hentry
      split at hentry <;> exact absurd hentry (by decide)
    · rw [(entryOf_repair_of_comesThrough hfree hthrough).1] at hentry
      exact ⟨old, new, hthrough, fun hsame => absurd hentry (by simp [hsame])⟩
  · rintro ⟨old, new, hthrough, hne⟩
    rw [(entryOf_repair_of_comesThrough hfree hthrough).1, if_neg hne]

theorem path_of_repairText {text : Text} {result : RepairResult}
    (h : (executor.repairText uri text desk).1 = .ok result) : result.path = uri := by
  obtain ⟨final, applied, -, -, rfl⟩ := repairText_eq_ok_iff.1 h
  rfl

theorem path_of_handle {overrides : Table ParameterData} {fetched : Except StoreError Text}
    {result : RepairResult} (h : (executor.handle uri overrides fetched store desk).1 = .ok result) :
    result.path = uri := by
  rcases hended : executor.handle uri overrides fetched store desk with ⟨outcome, left, last⟩
  rw [hended] at h
  obtain rfl : outcome = .ok result := h
  cases ends_of_handle hended with
  | unread | rolledBack | refused | reported => rfl
  | unwritten htext | written htext | kept htext =>
      have hpath := path_of_repairText (congrArg Prod.fst htext)
      exact hpath

theorem path_of_repair {result : RepairResult} (h : (executor.repair uri store desk).1 = .ok result) :
    result.path = uri := by
  by_cases hbusy : desk.session.isProcessing uri = true
  · unfold repair Session.begin at h
    rw [if_pos hbusy] at h
    rw [← Except.ok.inj h]
  · rw [repair_of_free (by simpa using hbusy)] at h
    exact path_of_handle h

/-! ## Passes one after the other -/

/-- Where passes over documents are entered, in their order. -/
def entries (executor : Executor) : List Text → σ → Desk → List (Text × Entry)
  | [], _, _ => []
  | uri :: uris, store, desk =>
    let (outcome, store, desk) := executor.repair uri store desk
    (uri, entryOf outcome) :: executor.entries uris store desk

theorem entries_cons (executor : Executor) (uri : Text) (uris : List Text) (store : σ) (desk : Desk) :
    executor.entries (uri :: uris) store desk = (uri, entryOf (executor.repair uri store desk).1) ::
      executor.entries uris (executor.repair uri store desk).2.1 (executor.repair uri store desk).2.2 := rfl

theorem repairAll_cons (executor : Executor) (uri : Text) (uris : List Text) (batch : BatchResult) (store : σ)
    (desk : Desk) :
    executor.repairAll (uri :: uris) batch store desk =
      executor.repairAll uris (batch.add uri (executor.repair uri store desk).1)
        (executor.repair uri store desk).2.1 (executor.repair uri store desk).2.2 := rfl

theorem map_fst_entries (executor : Executor) (uris : List Text) (store : σ) (desk : Desk) :
    (executor.entries uris store desk).map Prod.fst = uris := by
  induction uris generalizing store desk with
  | nil => rfl
  | cons uri uris ih => rw [entries_cons, List.map_cons, ih]

/-- The lists of a batch are the documents that were entered into them. -/
theorem under_repairAll (executor : Executor) (uris : List Text) (batch : BatchResult) (store : σ) (desk : Desk)
    (entry : Entry) :
    (executor.repairAll uris batch store desk).1.under entry =
      batch.under entry ++ ((executor.entries uris store desk).filter (·.2 = entry)).map Prod.fst := by
  induction uris generalizing batch store desk with
  | nil => simp [repairAll, entries]
  | cons uri uris ih =>
      rw [repairAll_cons, entries_cons, ih, under_add batch (fun result => path_of_repair), List.append_assoc,
        List.filter_cons]
      by_cases hentry : entryOf (executor.repair uri store desk).1 = entry <;> simp [hentry]

theorem under_repairAll_empty (executor : Executor) (uris : List Text) (store : σ) (desk : Desk) (entry : Entry) :
    (executor.repairAll uris {} store desk).1.under entry =
      ((executor.entries uris store desk).filter (·.2 = entry)).map Prod.fst := by
  rw [under_repairAll]
  cases entry <;> rfl

/-- Each list of a batch is in the order of the passes. -/
theorem under_repairAll_sublist (executor : Executor) (uris : List Text) (store : σ) (desk : Desk) (entry : Entry) :
    ((executor.repairAll uris {} store desk).1.under entry).Sublist uris := by
  have hsub := (List.filter_sublist (p := (·.2 = entry)) (l := executor.entries uris store desk)).map Prod.fst
  rwa [map_fst_entries, ← under_repairAll_empty] at hsub

/-- The lists of a batch are together its documents. -/
theorem perm_repairAll (executor : Executor) (uris : List Text) (store : σ) (desk : Desk) :
    let batch := (executor.repairAll uris {} store desk).1
    (batch.changed ++ batch.unchanged ++ batch.skipped ++ batch.failures.map Prod.fst).Perm uris := by
  have hperm := perm_of_entries (executor.entries uris store desk)
  rw [map_fst_entries, ← under_repairAll_empty, ← under_repairAll_empty, ← under_repairAll_empty,
    ← under_repairAll_empty] at hperm
  exact hperm

/-- Where passes lead does not depend on what was entered before. -/
theorem snd_repairAll (executor : Executor) (uris : List Text) (batch other : BatchResult) (store : σ)
    (desk : Desk) :
    (executor.repairAll uris batch store desk).2 = (executor.repairAll uris other store desk).2 := by
  induction uris generalizing batch other store desk with
  | nil => rfl
  | cons uri uris ih => exact ih _ _ _ _

/-- Passes over more documents go on from where the passes before have led. -/
theorem snd_repairAll_append (executor : Executor) (front back : List Text) (batch : BatchResult) (store : σ)
    (desk : Desk) :
    (executor.repairAll (front ++ back) batch store desk).2 =
      (executor.repairAll back {} (executor.repairAll front {} store desk).2.1
        (executor.repairAll front {} store desk).2.2).2 := by
  induction front generalizing batch store desk with
  | nil => exact executor.snd_repairAll back batch {} store desk
  | cons uri front ih =>
      rw [List.cons_append, repairAll_cons, repairAll_cons, ih, executor.snd_repairAll front {} (_ : BatchResult)]

theorem entries_append (executor : Executor) (front back : List Text) (store : σ) (desk : Desk) :
    executor.entries (front ++ back) store desk = executor.entries front store desk ++
      executor.entries back (executor.repairAll front {} store desk).2.1
        (executor.repairAll front {} store desk).2.2 := by
  induction front generalizing store desk with
  | nil => rfl
  | cons uri front ih =>
      rw [List.cons_append, entries_cons, entries_cons, List.cons_append, ih, repairAll_cons,
        executor.snd_repairAll front {} (_ : BatchResult)]

/-- A document of a batch without repetitions is in the list that the pass over it is entered into. -/
theorem mem_under_repairAll_iff {front back : List Text} (hnodup : (front ++ uri :: back).Nodup) {store' : σ}
    {desk' : Desk} (hreached : (store', desk') = (executor.repairAll front {} store desk).2) (entry : Entry) :
    uri ∈ (executor.repairAll (front ++ uri :: back) {} store desk).1.under entry ↔
      entryOf (executor.repair uri store' desk').1 = entry := by
  obtain ⟨-, hback, hdisjoint⟩ := List.nodup_append.1 hnodup
  have hfront : uri ∉ front := fun hmem => hdisjoint uri hmem uri List.mem_cons_self rfl
  have hother : ∀ (uris : List Text) (store : σ) (desk : Desk), uri ∉ uris →
      uri ∉ ((executor.entries uris store desk).filter (·.2 = entry)).map Prod.fst := by
    intro uris store desk hnot hmem
    rw [← under_repairAll_empty] at hmem
    exact hnot ((executor.under_repairAll_sublist uris store desk entry).subset hmem)
  rw [under_repairAll_empty, entries_append, ← hreached, entries_cons, List.filter_append, List.map_append,
    List.mem_append, or_iff_right (hother _ _ _ hfront), List.filter_cons]
  split
  · next heq => simpa using heq
  · next hne => exact iff_of_false (hother _ _ _ (List.nodup_cons.1 hback).1) (by simpa using hne)

/-! ## What is stored -/

theorem exists_takes_repair (executor : Executor) (uri : Text) (store : σ) (desk : Desk) :
    ∃ written, Takes uri written store (executor.repair uri store desk).2.1 := by
  by_cases hbusy : desk.session.isProcessing uri = true
  · exact ⟨none, (entryOf_repair_of_busy hbusy).2⟩
  · have hfree : desk.session.isProcessing uri = false := by simpa using hbusy
    rcases executor.isStopped_or_comesThrough uri store desk with ⟨obstacle, hstopped⟩ | ⟨old, new, hthrough⟩
    · exact ⟨none, (entryOf_repair_of_isStopped hfree hstopped).2⟩
    · exact ⟨_, (entryOf_repair_of_comesThrough hfree hthrough).2⟩

variable {among : Text → Prop}

/-- Passes over other documents leave a document as it is stored. -/
theorem read_repairAll_of_not_mem (hstore : DocumentStore.KeepsApart σ among) {uris : List Text} {path : Text}
    (hamong : ∀ uri ∈ uris, among uri) (hpath : among path) (hnot : path ∉ uris) (batch : BatchResult) (store : σ)
    (desk : Desk) :
    DocumentStore.read (executor.repairAll uris batch store desk).2.1 path = DocumentStore.read store path := by
  induction uris generalizing batch store desk with
  | nil => rfl
  | cons uri uris ih =>
      obtain ⟨hne, hnot⟩ := not_or.1 (mt List.mem_cons.2 hnot)
      obtain ⟨written, htakes⟩ := executor.exists_takes_repair uri store desk
      rw [repairAll_cons, ih (fun other hother => hamong other (List.mem_cons_of_mem _ hother)) hnot,
        htakes.read_eq hstore (hamong uri List.mem_cons_self) hpath, if_neg hne]

/-- A document whose pass came through is stored with the text that the steps have made, however many passes
over other documents follow. -/
theorem read_repairAll_of_comesThrough (hstore : DocumentStore.KeepsApart σ among) {front back : List Text}
    (hamong : ∀ path ∈ front ++ uri :: back, among path) (hnot : uri ∉ back)
    (hwrites : executor.writeChanges = true) {store' : σ} {desk' : Desk}
    (hreached : (store', desk') = (executor.repairAll front {} store desk).2)
    (hfree : desk'.session.isProcessing uri = false) (h : executor.ComesThrough uri store' desk' old new) :
    DocumentStore.read (executor.repairAll (front ++ uri :: back) {} store desk).2.1 uri = .ok new := by
  have huri : among uri := hamong uri (by simp)
  rw [snd_repairAll_append, ← hreached, repairAll_cons, read_repairAll_of_not_mem hstore
    (fun path hpath => hamong path (by simp [hpath])) huri hnot,
    (entryOf_repair_of_comesThrough hfree h).2.read_eq hstore huri huri, if_pos rfl]
  by_cases hchanged : new = old
  · rw [if_neg (by simp [hchanged]), hchanged]
    exact h.read_eq
  · rw [if_pos ⟨hchanged, hwrites⟩]
    rfl

/-! ## A batch -/

/-- Every document of a batch without repetitions is in exactly one of its lists, and each list is in the order of
the passes. A document is among the failures exactly if the pass over it was stopped, unless a step failed without
saying why: then it is among those that stayed as they were. It is among the changed ones exactly if the pass came
through with another text, and then, if changes are written, the store still has that text. -/
theorem repairAll_enters (executor : Executor) {uris : List Text} (hnodup : uris.Nodup) (store : σ)
    (desk : Desk) :
    let done := executor.repairAll uris {} store desk
    ((done.1.changed ++ done.1.unchanged ++ done.1.skipped ++ done.1.failures.map Prod.fst).Perm uris ∧
      done.1.total = uris.length ∧ ∀ entry, (done.1.under entry).Sublist uris) ∧
    ∀ front uri back, uris = front ++ uri :: back →
      ∀ store' desk', (store', desk') = (executor.repairAll front {} store desk).2 →
        (uri ∈ done.1.skipped ↔ desk'.session.isProcessing uri = true) ∧
        (uri ∈ done.1.failures.map Prod.fst ↔ desk'.session.isProcessing uri = false ∧
          ∃ obstacle, executor.IsStopped uri store' desk' obstacle ∧ obstacle ≠ .unsaid) ∧
        (uri ∈ done.1.unchanged ↔ desk'.session.isProcessing uri = false ∧
          (executor.IsStopped uri store' desk' .unsaid ∨
            ∃ old, executor.ComesThrough uri store' desk' old old)) ∧
        (uri ∈ done.1.changed ↔ desk'.session.isProcessing uri = false ∧
          ∃ old new, executor.ComesThrough uri store' desk' old new ∧ new ≠ old ∧
            (executor.writeChanges = true → ∀ among, DocumentStore.KeepsApart σ among →
              (∀ path ∈ uris, among path) → DocumentStore.read done.2.1 uri = .ok new)) := by
  dsimp only
  have hperm := executor.perm_repairAll uris store desk
  refine ⟨⟨hperm, ?_, executor.under_repairAll_sublist uris store desk⟩, ?_⟩
  · have hlength := hperm.length_eq
    simp only [List.length_append, List.length_map] at hlength
    exact hlength
  rintro front uri back rfl store' desk' hreached
  have hmem := mem_under_repairAll_iff hnodup hreached
  have hskipped := hmem .skipped
  have hfailed := hmem .failed
  have hunchanged := hmem .unchanged
  have hchanged := hmem .changed
  simp only [under] at hskipped hfailed hunchanged hchanged
  rw [hskipped, hfailed, hunchanged, hchanged]
  cases hfree : desk'.session.isProcessing uri with
  | true =>
      have hskip : entryOf (executor.repair uri store' desk').1 = .skipped := (entryOf_repair_of_busy hfree).1
      simp [hskip]
  | false =>
      have hread : ∀ old new, executor.ComesThrough uri store' desk' old new → executor.writeChanges = true →
          ∀ among, DocumentStore.KeepsApart σ among → (∀ path ∈ front ++ uri :: back, among path) →
            DocumentStore.read (executor.repairAll (front ++ uri :: back) {} store desk).2.1 uri = .ok new :=
        fun old new hcomes hwrites among hstore hamong =>
          have hnot : uri ∉ back := (List.nodup_cons.1 (List.nodup_append.1 hnodup).2.1).1
          read_repairAll_of_comesThrough hstore hamong hnot hwrites hreached hfree hcomes
      simp only [entryOf_repair_ne_skipped hfree, entryOf_repair_eq_failed_iff hfree,
        entryOf_repair_eq_unchanged_iff hfree, entryOf_repair_eq_changed_iff hfree, Bool.false_eq_true, true_and,
        iff_self]
      constructor
      · rintro ⟨old, new, hcomes, hne⟩
        exact ⟨old, new, hcomes, hne, hread old new hcomes⟩
      · rintro ⟨old, new, hcomes, hne, -⟩
        exact ⟨old, new, hcomes, hne⟩

/-- Steps of which the one cannot be done in the second document, and the other one adds to a text. -/
def refusingSecond : Executor where
  steps :=
    [{ name := "first".toList
       action := .rewrite fun uri text =>
        if uri = "/b".toList then .error (.refused "no".toList) else .ok text },
     { name := "second".toList, action := .edit fun text => .ok (text ++ "!".toList) }]
  exclusions := []
  writeChanges := true

def passesWithRefusal : BatchResult × MemoryStore × Desk :=
  refusingSecond.repairAll ["/a".toList, "/b".toList, "/c".toList] {}
    (MemoryStore.mk [("/a".toList, "x".toList), ("/b".toList, "y".toList)]) bareDesk

/-- The first document is stored as the steps have made it, the other two are failures. -/
theorem repairAll_enters_passesWithRefusal :
    ["/a".toList, "/b".toList, "/c".toList].Nodup ∧
      DocumentStore.read passesWithRefusal.2.1 "/a".toList = .ok "x!".toList ∧
      "/b".toList ∈ passesWithRefusal.1.failures.map Prod.fst ∧
      "/c".toList ∈ passesWithRefusal.1.failures.map Prod.fst := by
  have hnodup : ["/a".toList, "/b".toList, "/c".toList].Nodup := by decide
  obtain ⟨-, hplaced⟩ := repairAll_enters refusingSecond hnodup
    (MemoryStore.mk [("/a".toList, "x".toList), ("/b".toList, "y".toList)]) bareDesk
  obtain ⟨-, -, -, hchanged⟩ := hplaced [] "/a".toList ["/b".toList, "/c".toList] rfl _ _ rfl
  obtain ⟨-, old, new, hcomes, -, hstored⟩ := hchanged.1 (by decide +kernel)
  refine ⟨hnodup, ?_, by decide +kernel, by decide +kernel⟩
  have hold : old = "x".toList := Except.ok.inj (hcomes.read_eq.symm.trans (by decide +kernel))
  obtain ⟨applied, last, hleads⟩ := hcomes.leads
  have hnew : new = "x!".toList := by
    rw [hold] at hleads
    have htext := congrArg (fun run => run.1.toOption.map Prod.fst) hleads
    exact (Option.some.inj (htext.symm.trans (by decide +kernel)))
  rw [← hnew]
  exact hstored rfl _ (MemoryStore.keepsApart fun _ => True) fun _ _ => trivial

def unsaying : Executor where
  steps := [{ name := "f".toList, action := .edit fun _ => .error (.reported []) }]
  exclusions := []
  writeChanges := true

/-- The document that the step failed on is entered as one that stayed as it was. -/
theorem unchanged_of_unsaying :
    unsaying.IsStopped "/a".toList (MemoryStore.mk [("/a".toList, "x".toList)]) bareDesk .unsaid ∧
      (unsaying.repairAll ["/a".toList] {} (MemoryStore.mk [("/a".toList, "x".toList)]) bareDesk).1 =
        { unchanged := ["/a".toList] } := by
  have hread : DocumentStore.read (MemoryStore.mk [("/a".toList, "x".toList)]) "/a".toList =
      .ok "x".toList := by decide +kernel
  exact ⟨.raised hread ⟨[], _, [], _, [], _, rfl, rfl, rfl⟩, by decide +kernel⟩

end Executor

end Scenarist
