import Scenarist.Proofs.Pass
import Mathlib.Data.List.Induction

set_option autoImplicit false

/-! # One pass over a document at a time

A pass asks the session for a document before it works on it, and one that asks meanwhile is refused. The
session keeps a marker for the document, but not whose it is. So the marker can be taken from a pass that
is still at work: when the document is closed, which forgets everything about it, or by a caller that was
refused and calls the end all the same. A pass that asks after that is let in beside the first one. There is
no other way for two passes to get at one document.

Passes are listed here beside the session in the order in which they asked, whatever each of them does with
the session in between.

Main statements: `Roster.isExclusive_step_iff` (one event), `Roster.isExclusive_run_iff` (any events) and
`Executor.exists_run_eq_repair` (a repair is such a pass). -/

namespace Scenarist

/-! ## What a session takes in -/

/-- What is remembered or forgotten about a document while passes are at work. -/
inductive SessionChange where
  | merge (uri : Text) (data : Table ParameterData)
  | remember (uri name : Text) (data : ParameterData)
  | clearOverrides (uri : Text)
  | recordSaved (uri text : Text)

namespace Session

def take (session : Session) : SessionChange → Session
  | .merge uri data => session.merge uri data
  | .remember uri name data => session.remember uri name data
  | .clearOverrides uri => session.clearOverrides uri
  | .recordSaved uri text => session.recordSaved uri text

/-- No change touches the markers. -/
theorem processing_take (session : Session) (change : SessionChange) :
    (session.take change).processing = session.processing := by
  cases change <;> rfl

theorem isProcessing_begin (session : Session) (uri other : Text) :
    (session.begin uri).2.isProcessing other = true ↔ other = uri ∨ session.isProcessing other = true := by
  unfold begin
  split
  · next hat =>
    constructor
    · exact Or.inr
    · rintro (rfl | h)
      · exact hat
      · exact h
  · simp [isProcessing]

theorem begin_eq_true_iff (session : Session) (uri : Text) :
    (session.begin uri).1 = true ↔ session.isProcessing uri = false := by
  unfold begin
  split <;> simp_all

theorem isProcessing_finish (session : Session) (uri other : Text) :
    (session.finish uri).isProcessing other = true ↔ other ≠ uri ∧ session.isProcessing other = true := by
  simp [finish, isProcessing, and_comm]

end Session

/-! ## Passes -/

/-- A pass over a document. -/
structure Pass where
  uri : Text
  /-- Whether it frees the document only if it was let in. Other passes call the end in any case. -/
  isGuarded : Bool
  /-- Whether the session let it in. -/
  isAdmitted : Bool
  /-- Whether the session was told since that nobody is at work on the document. -/
  isEvicted : Bool := false
  isFinished : Bool := false
  deriving DecidableEq, Repr

namespace Pass

/-- Whether a pass was let in and has not finished. -/
def isAtWork (pass : Pass) : Bool := pass.isAdmitted && !pass.isFinished

/-- Whether a pass frees its document when it finishes. -/
def frees (pass : Pass) : Bool := pass.isAdmitted || !pass.isGuarded

def evict (uri : Text) (pass : Pass) : Pass :=
  if pass.uri = uri then { pass with isEvicted := true } else pass

def finished (pass : Pass) : Pass := { pass with isFinished := true }

@[simp]
theorem uri_evict (uri : Text) (pass : Pass) : (pass.evict uri).uri = pass.uri := by
  unfold evict
  split <;> rfl

@[simp]
theorem isAtWork_evict (uri : Text) (pass : Pass) : (pass.evict uri).isAtWork = pass.isAtWork := by
  unfold evict
  split <;> rfl

theorem isEvicted_evict (uri : Text) (pass : Pass) :
    (pass.evict uri).isEvicted = true ↔ pass.uri = uri ∨ pass.isEvicted = true := by
  unfold evict
  split
  · next h => simp [h]
  · next h => simp [h]

@[simp]
theorem isAtWork_finished (pass : Pass) : pass.finished.isAtWork = false := by
  simp [finished, isAtWork]

end Pass

/-- What happens to a session and the passes over its documents. -/
inductive PassEvent where
  /-- A pass asks for a document. -/
  | enter (uri : Text) (isGuarded : Bool)
  /-- The pass with this number finishes. -/
  | leave (number : Nat)
  /-- A document is closed. -/
  | close (uri : Text)
  /-- Something is remembered or forgotten. -/
  | change (change : SessionChange)

/-- A session and the passes that have asked it for a document, in this order. -/
structure Roster where
  session : Session
  passes : List Pass := []
  deriving DecidableEq

namespace Roster

/-- The session and the passes after an event. A pass finishes once. -/
def step (roster : Roster) : PassEvent → Roster
  | .enter uri isGuarded =>
    let (isAdmitted, session) := roster.session.begin uri
    ⟨session, roster.passes ++ [{ uri, isGuarded, isAdmitted }]⟩
  | .leave number => match roster.passes[number]? with
    | some pass =>
      if pass.isFinished then roster
      else if pass.frees then
        ⟨roster.session.finish pass.uri, (roster.passes.set number pass.finished).map (Pass.evict pass.uri)⟩
      else { roster with passes := roster.passes.set number pass.finished }
    | none => roster
  | .close uri => ⟨roster.session.close uri, roster.passes.map (Pass.evict uri)⟩
  | .change change => { roster with session := roster.session.take change }

def run (roster : Roster) (events : List PassEvent) : Roster := events.foldl step roster

theorem run_concat (roster : Roster) (events : List PassEvent) (event : PassEvent) :
    roster.run (events ++ [event]) = (roster.run events).step event := List.foldl_append ..

def countOf (roster : Roster) (uri : Text) : Nat :=
  roster.passes.countP fun pass => pass.isAtWork && pass.uri == uri

/-- Whether there is at most one pass at work on each document. -/
def IsExclusive (roster : Roster) : Prop := ∀ uri, roster.countOf uri ≤ 1

/-- Whether a pass is at work on a document that was freed since it was let in. -/
def IsTaken (roster : Roster) (uri : Text) : Prop :=
  ∃ pass ∈ roster.passes, pass.uri = uri ∧ pass.isAtWork = true ∧ pass.isEvicted = true

instance (roster : Roster) (uri : Text) : Decidable (roster.IsTaken uri) :=
  inferInstanceAs (Decidable (∃ pass ∈ roster.passes, _))

/-- Whether an event is that a pass asks for a document that was freed while another pass is at work on
it. -/
def IsIntrusion (roster : Roster) : PassEvent → Prop
  | .enter uri _ => roster.IsTaken uri
  | _ => False

/-! ## What an event keeps -/

/-- What holds as long as no pass intrudes: there is at most one pass at work on each document, and the
session has its marker exactly if the document was not freed since. -/
structure IsMarked (roster : Roster) : Prop where
  exclusive : roster.IsExclusive
  isProcessing_iff : ∀ pass ∈ roster.passes, pass.isAtWork = true →
    (roster.session.isProcessing pass.uri = true ↔ pass.isEvicted = false)

variable {roster : Roster} {session session' : Session} {passes : List Pass} {uri : Text}

theorem countOf_concat (session other : Session) (passes : List Pass) (pass : Pass) (uri : Text) :
    countOf ⟨session, passes ++ [pass]⟩ uri =
      countOf ⟨other, passes⟩ uri + if pass.isAtWork && pass.uri == uri then 1 else 0 := by
  unfold countOf
  rw [List.countP_append, List.countP_singleton]

theorem countOf_eq_zero_iff : roster.countOf uri = 0 ↔
    ∀ pass ∈ roster.passes, pass.isAtWork = true → pass.uri ≠ uri := by
  simp [countOf, List.countP_eq_zero]

/-- A document that the session has no marker for is freed under every pass at work on it. -/
theorem IsMarked.isTaken_iff (h : roster.IsMarked) :
    roster.IsTaken uri ↔ roster.session.isProcessing uri = false ∧ roster.countOf uri ≠ 0 := by
  rw [Ne, countOf_eq_zero_iff]
  constructor
  · rintro ⟨pass, hmem, rfl, hwork, hevicted⟩
    refine ⟨?_, fun hnone => hnone pass hmem hwork rfl⟩
    by_contra hmarked
    rw [Bool.not_eq_false, h.isProcessing_iff pass hmem hwork, hevicted] at hmarked
    exact Bool.noConfusion hmarked
  · rintro ⟨hfree, hsome⟩
    simp only [not_forall, not_not] at hsome
    obtain ⟨pass, hmem, hwork, rfl⟩ := hsome
    refine ⟨pass, hmem, rfl, hwork, ?_⟩
    by_contra hkept
    rw [(h.isProcessing_iff pass hmem hwork).2 (by simpa using hkept)] at hfree
    exact Bool.noConfusion hfree

/-- A pass that asks for a document comes beside another one exactly if it intrudes. -/
theorem IsMarked.isExclusive_enter_iff (h : roster.IsMarked) (uri : Text) (isGuarded : Bool) :
    (roster.step (.enter uri isGuarded)).IsExclusive ↔ ¬ roster.IsTaken uri := by
  have hcount : ∀ other, (roster.step (.enter uri isGuarded)).countOf other =
      roster.countOf other + if (roster.session.begin uri).1 && uri == other then 1 else 0 := by
    intro other
    have hconcat := countOf_concat (roster.session.begin uri).2 roster.session roster.passes
      { uri, isGuarded, isAdmitted := (roster.session.begin uri).1 } other
    exact hconcat.trans (by simp [Pass.isAtWork])
  rw [h.isTaken_iff]
  constructor
  · rintro hexclusive ⟨hfree, hsome⟩
    have hle := hexclusive uri
    rw [hcount, (Session.begin_eq_true_iff _ _).2 hfree] at hle
    simp at hle
    exact hsome hle
  · intro hnot other
    have hle := h.exclusive other
    rw [hcount]
    split
    · next hadmitted =>
      -- the pass was let in, so the marker was free, and only an intruder finds another one at work then
      obtain ⟨hbegin, hother⟩ := Bool.and_eq_true_iff.1 hadmitted
      obtain rfl : uri = other := by simpa using hother
      have hzero : roster.countOf uri = 0 := by
        by_contra hsome
        exact hnot ⟨(Session.begin_eq_true_iff _ _).1 hbegin, hsome⟩
      omega
    · omega

theorem IsMarked.enter (h : roster.IsMarked) {isGuarded : Bool} (hnot : ¬ roster.IsTaken uri) :
    (roster.step (.enter uri isGuarded)).IsMarked where
  exclusive := (h.isExclusive_enter_iff uri isGuarded).2 hnot
  isProcessing_iff pass hmem hwork := by
    show (roster.session.begin uri).2.isProcessing pass.uri = true ↔ _
    rw [Session.isProcessing_begin]
    rcases List.mem_append.1 hmem with hold | hnew
    · rw [← h.isProcessing_iff pass hold hwork]
      refine ⟨fun hmarked => hmarked.elim ?_ id, Or.inr⟩
      -- a pass at work on the same document has its marker, or it would be taken
      rintro rfl
      by_contra hfree
      exact hnot (h.isTaken_iff.2 ⟨by simpa using hfree, fun hzero =>
        countOf_eq_zero_iff.1 hzero pass hold hwork rfl⟩)
    · obtain rfl := List.mem_singleton.1 hnew
      simp

/-- Freeing a document takes the marker from the pass at work on it. -/
theorem IsMarked.free (h : IsMarked ⟨session, passes⟩)
    (hfreed : ∀ other, session'.isProcessing other = true ↔
      other ≠ uri ∧ session.isProcessing other = true) :
    IsMarked ⟨session', passes.map (Pass.evict uri)⟩ where
  exclusive other := by
    have hle := h.exclusive other
    unfold countOf at hle ⊢
    rw [List.countP_map]
    simpa [Function.comp_def] using hle
  isProcessing_iff pass hmem hwork := by
    obtain ⟨old, hold, rfl⟩ := List.mem_map.1 hmem
    rw [Pass.isAtWork_evict] at hwork
    have hiff := h.isProcessing_iff old hold hwork
    rw [Pass.uri_evict, hfreed, hiff, ← Bool.not_eq_true, ← Bool.not_eq_true, Pass.isEvicted_evict, not_or]

theorem IsMarked.finish {number : Nat} {pass : Pass} (h : IsMarked ⟨session, passes⟩) :
    IsMarked ⟨session, passes.set number pass.finished⟩ where
  exclusive uri := by
    refine Nat.le_trans ?_ (h.exclusive uri)
    unfold countOf
    by_cases hlt : number < passes.length
    · rw [List.countP_set hlt]
      simp
    · have hsame : passes.set number pass.finished = passes := List.set_eq_of_length_le (by omega)
      exact Nat.le_of_eq (by rw [hsame])
  isProcessing_iff other hmem hwork := by
    rcases List.mem_or_eq_of_mem_set hmem with hmem | rfl
    · exact h.isProcessing_iff other hmem hwork
    · exact absurd hwork (by simp)

/-- An event that is no intrusion keeps the markers. -/
theorem IsMarked.step (h : roster.IsMarked) {event : PassEvent} (hnot : ¬ roster.IsIntrusion event) :
    (roster.step event).IsMarked := by
  cases event with
  | enter uri isGuarded => exact h.enter hnot
  | leave number =>
      simp only [Roster.step]
      split
      · split
        · exact h
        · split
          · exact h.finish.free (Session.isProcessing_finish _ _)
          · exact h.finish
      · exact h
  | close uri => exact IsMarked.free h (Session.isProcessing_finish (roster.session.clearOverrides uri) uri)
  | change change =>
      refine ⟨h.exclusive, fun pass hmem hwork => ?_⟩
      show (roster.session.take change).isProcessing pass.uri = true ↔ _
      unfold Session.isProcessing
      rw [Session.processing_take]
      exact h.isProcessing_iff pass hmem hwork

/-- As long as no pass has intruded, an event brings two passes to one document exactly if it is an
intrusion. -/
theorem IsMarked.isExclusive_step_iff (h : roster.IsMarked) (event : PassEvent) :
    (roster.step event).IsExclusive ↔ ¬ roster.IsIntrusion event := by
  cases event with
  | enter uri isGuarded => exact h.isExclusive_enter_iff uri isGuarded
  | leave | close | change => exact iff_of_true (h.step id).exclusive id

/-! ## Any events -/

theorem isMarked_start (session : Session) : IsMarked ⟨session, []⟩ where
  exclusive _ := Nat.zero_le _
  isProcessing_iff _ hmem := absurd hmem List.not_mem_nil

/-- Whether nothing in a sequence of events is an intrusion when it happens. -/
def IsCalm (roster : Roster) (events : List PassEvent) : Prop :=
  ∀ before event after, events = before ++ event :: after → ¬ (roster.run before).IsIntrusion event

theorem isCalm_concat_iff (roster : Roster) (events : List PassEvent) (event : PassEvent) :
    roster.IsCalm (events ++ [event]) ↔ roster.IsCalm events ∧ ¬ (roster.run events).IsIntrusion event := by
  constructor
  · refine fun hcalm => ⟨fun before found after heq => ?_, hcalm events event [] rfl⟩
    exact hcalm before found (after ++ [event]) (by rw [heq]; simp)
  · rintro ⟨hcalm, hlast⟩ before found after heq
    rcases List.eq_nil_or_concat after with rfl | ⟨after, last, rfl⟩
    · obtain ⟨rfl, hfound⟩ := List.append_inj' heq rfl
      obtain rfl : event = found := List.singleton_inj.1 hfound
      exact hlast
    · rw [List.concat_eq_append, ← List.cons_append, ← List.append_assoc] at heq
      exact hcalm before found after (List.append_inj' heq rfl).1

/-- Without intrusions the markers are kept. -/
theorem IsMarked.run (h : roster.IsMarked) {events : List PassEvent} (hcalm : roster.IsCalm events) :
    (roster.run events).IsMarked := by
  induction events using List.reverseRecOn with
  | nil => exact h
  | append_singleton events event ih =>
      obtain ⟨hbefore, hlast⟩ := (isCalm_concat_iff ..).1 hcalm
      rw [run_concat]
      exact (ih hbefore).step hlast

/-- There is at most one pass at work on each document at every moment exactly if no pass ever asks for a
document that was freed, by its being closed or by the end of a pass that had been refused it, while the
pass that it was taken from is at work. -/
theorem isExclusive_run_iff (session : Session) (events : List PassEvent) :
    (∀ before after, events = before ++ after → (run ⟨session, []⟩ before).IsExclusive) ↔
      ∀ before uri isGuarded after, events = before ++ .enter uri isGuarded :: after →
        ¬ (run ⟨session, []⟩ before).IsTaken uri := by
  have hstart := isMarked_start session
  constructor
  · -- the first intrusion is seen in the state that it leads to
    intro hexclusive before uri isGuarded after heq
    have hcalm : ∀ earlier later, events = earlier ++ later → IsCalm ⟨session, []⟩ earlier := by
      intro earlier
      induction earlier using List.reverseRecOn with
      | nil =>
          intro later _ before event after heq
          exact absurd heq (by simp)
      | append_singleton earlier event ih =>
          intro later hsplit
          have hbefore := ih (event :: later) (by rw [hsplit]; simp)
          refine (isCalm_concat_iff ..).2 ⟨hbefore, ?_⟩
          rw [← (hstart.run hbefore).isExclusive_step_iff, ← run_concat]
          exact hexclusive _ later hsplit
    have hlast := hcalm (before ++ [.enter uri isGuarded]) after (by rw [heq]; simp)
    exact ((isCalm_concat_iff ..).1 hlast).2
  · intro hnone before after heq
    refine (hstart.run fun earlier event later hsplit => ?_).exclusive
    cases event with
    | enter uri isGuarded =>
        exact hnone earlier uri isGuarded (later ++ after) (by rw [heq, hsplit]; simp)
    | leave | close | change => exact id

def closedMeanwhile : List PassEvent :=
  [.enter "/a".toList true, .close "/a".toList, .enter "/a".toList true]

def endedUnasked : List PassEvent :=
  [.enter "/b".toList false, .enter "/b".toList false, .leave 1, .enter "/b".toList false]

/-- Either way two passes are at work on one document. -/
theorem countOf_closedMeanwhile :
    (run ⟨{}, []⟩ closedMeanwhile).countOf "/a".toList = 2 ∧
      (run ⟨{}, []⟩ endedUnasked).countOf "/b".toList = 2 ∧
      ¬ ∀ events, (run ⟨{}, []⟩ events).IsExclusive := by
  have htwo : (run ⟨{}, []⟩ closedMeanwhile).countOf "/a".toList = 2 := by decide +kernel
  refine ⟨htwo, by decide +kernel, fun hall => ?_⟩
  have hle := hall closedMeanwhile "/a".toList
  omega

end Roster

/-! ## Repairs -/

/-- Whether a session has come out of another one by changes. -/
def Session.Becomes (session later : Session) : Prop :=
  ∃ changes : List SessionChange, later = changes.foldl Session.take session

namespace Session.Becomes

variable {session between later : Session}

protected theorem refl (session : Session) : session.Becomes session := ⟨[], rfl⟩

protected theorem trans (h : session.Becomes between) (h' : between.Becomes later) :
    session.Becomes later := by
  obtain ⟨changes, rfl⟩ := h
  obtain ⟨others, rfl⟩ := h'
  exact ⟨changes ++ others, List.foldl_append.symm⟩

theorem take (session : Session) (change : SessionChange) : session.Becomes (session.take change) :=
  ⟨[change], rfl⟩

theorem regenerateParameters (session : Session) (uri text : Text) (exclusions : List Text) :
    session.Becomes (Scenarist.regenerateParameters session uri text exclusions).2 := by
  have hmade : ∀ (names : List Text) (start : Session), start.Becomes
      (names.foldl (fun session name => session.remember uri name (ParameterData.ofName name)) start) := by
    intro names
    induction names with
    | nil => exact Becomes.refl
    | cons name names ih =>
        exact fun start => (take start (.remember uri name (ParameterData.ofName name))).trans (ih _)
  have hmerged := take session (.merge uri (Declaration.parameterData text))
  unfold Scenarist.regenerateParameters
  dsimp only
  split
  · exact hmerged.trans (hmade _ _)
  · exact hmerged

end Session.Becomes

namespace Executor

theorem becomes_run (executor : Executor) (uri text : Text) (action : StepAction) (desk : Desk) :
    desk.session.Becomes (action.run executor uri text desk).2.session := by
  cases action with
  | rewrite change => exact .refl _
  | index =>
      unfold StepAction.run
      dsimp only
      split <;> exact .refl _
  | nested =>
      unfold StepAction.run
      dsimp only
      split
      · exact .refl _
      · split <;> exact .refl _
  | parameters =>
      unfold StepAction.run
      dsimp only
      split
      · exact .refl _
      · exact .regenerateParameters ..

theorem becomes_runSteps (executor : Executor) (uri : Text) (steps : List RepairStep) (text : Text)
    (desk : Desk) : desk.session.Becomes (executor.runSteps uri steps text desk).2.session :=
  @runSteps_relates executor uri (fun first second => first.session.Becomes second.session) (fun _ => .refl _)
    .trans steps (fun step _ text => executor.becomes_run uri text step.action) text desk

theorem becomes_repairText (executor : Executor) (uri text : Text) (desk : Desk) :
    desk.session.Becomes (executor.repairText uri text desk).2.session := by
  rw [snd_repairText]
  exact executor.becomes_runSteps uri executor.steps text desk

theorem becomes_restore (uri before : Text) (overrides : Table ParameterData) (desk : Desk) :
    desk.session.Becomes (restore uri before overrides desk).session := by
  have hcleared := Session.Becomes.take desk.session (.clearOverrides uri)
  unfold restore
  dsimp only
  split
  · exact hcleared
  · exact hcleared.trans (.take _ (.merge uri overrides))

/-- Between its beginning and its end a repair does nothing to a session but to remember and to forget. -/
theorem becomes_handle {σ : Type} [DocumentStore σ] (executor : Executor) (uri : Text)
    (overrides : Table ParameterData) (fetched : Except StoreError Text) (store : σ) (desk : Desk) :
    desk.session.Becomes (executor.handle uri overrides fetched store desk).2.2.session := by
  have hsteps : ∀ {before outcome between}, executor.repairText uri before desk = (outcome, between) →
      desk.session.Becomes between.session := by
    intro before outcome between htext
    have hpass := executor.becomes_repairText uri before desk
    rwa [htext] at hpass
  generalize hended : executor.handle uri overrides fetched store desk = ended
  cases ends_of_handle hended with
  | unread error => exact .refl _
  | rolledBack htext => exact (hsteps htext).trans (becomes_restore ..)
  | written htext => exact (hsteps htext).trans (.take _ (.recordSaved ..))
  | unrestored htext | refused htext | reported htext | raised htext | unwritten htext | kept htext =>
      exact hsteps htext

end Executor

theorem Roster.run_changes (roster : Roster) (changes : List SessionChange) :
    roster.run (changes.map .change) =
      { roster with session := changes.foldl Session.take roster.session } := by
  induction changes generalizing roster with
  | nil => rfl
  | cons change changes ih => exact ih _

/-- A repair is a pass that frees its document only if it was let in. -/
theorem Executor.exists_run_eq_repair {σ : Type} [DocumentStore σ] (executor : Executor) (uri : Text)
    (store : σ) (desk : Desk) (passes : List Pass) :
    ∃ changes : List SessionChange,
      (Roster.run ⟨desk.session, passes⟩
        (.enter uri true :: (changes.map .change ++ [.leave passes.length]))).session =
          (executor.repair uri store desk).2.2.session := by
  have hstart : ∀ changes : List SessionChange, Roster.run ⟨desk.session, passes⟩
      (.enter uri true :: (changes.map .change ++ [.leave passes.length])) =
      Roster.step ⟨changes.foldl Session.take (desk.session.begin uri).2,
        passes ++ [{ uri, isGuarded := true, isAdmitted := (desk.session.begin uri).1 }]⟩
          (.leave passes.length) := by
    intro changes
    show Roster.run (Roster.step _ (.enter uri true)) (_ ++ _) = _
    rw [Roster.run_concat, Roster.run_changes]
    rfl
  unfold repair
  rcases hbegin : desk.session.begin uri with ⟨_ | _, session⟩
  · have hsame : session = desk.session := by
      unfold Session.begin at hbegin
      split at hbegin
      · exact (Prod.mk.inj hbegin).2.symm
      · exact absurd (Prod.mk.inj hbegin).1 (by simp)
    refine ⟨[], ?_⟩
    rw [hstart, hbegin]
    simp [Roster.step, Pass.frees, hsame]
  · obtain ⟨changes, hchanges⟩ := executor.becomes_handle uri (desk.session.overridesOf uri)
      (DocumentStore.read store uri) store { desk with session }
    refine ⟨changes, ?_⟩
    rw [hstart, hbegin]
    simp [Roster.step, Pass.frees, release, hchanges]

end Scenarist
