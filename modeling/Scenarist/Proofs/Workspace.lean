import Scenarist.Proofs.Index.Overlap
import Scenarist.Proofs.Pass
import Scenarist.Workspace.Request

set_option autoImplicit false

/-! # What a workspace does to its index

Whatever happens to a workspace at work, its index goes through a run of index events: commands and repair
passes change it as anything else may change it between two parts of a scan, and the scans of a request and
of the refresh in the background go on part by part. So what holds of every run of index events holds of
the index of every workspace.

Main statements: `Command.changesTo_apply` (what a command does to the index), `Activity.ComesOf.turn` (what
a turn does to the index and the scans) and `Workspace.exists_index_run` (what a request does). -/

namespace Scenarist

/-! ## Changes -/

namespace Index

/-- Whether an index becomes another one by changes that are no part of a scan. -/
def ChangesTo (index next : Index) : Prop :=
  ∃ changes : List IndexChange, changes.foldl react index = next

variable {index index' index'' : Index}

theorem ChangesTo.refl (index : Index) : index.ChangesTo index := ⟨[], rfl⟩

theorem ChangesTo.trans (h : index.ChangesTo index') (h' : index'.ChangesTo index'') :
    index.ChangesTo index'' := by
  obtain ⟨changes, rfl⟩ := h
  obtain ⟨later, rfl⟩ := h'
  exact ⟨changes ++ later, List.foldl_append ..⟩

theorem changesTo_react (index : Index) (change : IndexChange) : index.ChangesTo (index.react change) :=
  ⟨[change], rfl⟩

theorem changesTo_of_tryUpsert {uri text : Text} {result : Bool × Index}
    (h : index.tryUpsert uri text = .ok result) : index.ChangesTo result.2 := by
  have hreact : index.react (.upsert uri text) = result.2 := by
    simp only [react, h]
  exact hreact ▸ index.changesTo_react _

theorem changesTo_refresher (index : Index) (refresher : Refresher) :
    index.ChangesTo { index with refresher } :=
  index.changesTo_react (.reschedule fun _ => refresher)

end Index

/-! ## Repair passes -/

theorem StepAction.changesTo_run (action : StepAction) (executor : Executor) (uri text : Text)
    (desk : Desk) : desk.index.ChangesTo (action.run executor uri text desk).2.index := by
  cases action with
  | rewrite change => exact .refl _
  | index =>
      unfold run
      dsimp only
      split
      · next hentered => exact Index.changesTo_of_tryUpsert hentered
      · exact .refl _
  | nested =>
      unfold run
      dsimp only
      split
      · exact .refl _
      · split <;> exact .refl _
  | parameters =>
      unfold run
      dsimp only
      split <;> exact .refl _

namespace Executor

theorem changesTo_runSteps (executor : Executor) (uri : Text) (steps : List RepairStep) (text : Text)
    (desk : Desk) : desk.index.ChangesTo (executor.runSteps uri steps text desk).2.index :=
  @runSteps_relates executor uri (fun first second => first.index.ChangesTo second.index) (fun _ => .refl _)
    .trans steps (fun step _ => step.action.changesTo_run executor uri) text desk

theorem changesTo_repairText (executor : Executor) (uri text : Text) (desk : Desk) :
    desk.index.ChangesTo (executor.repairText uri text desk).2.index := by
  rw [snd_repairText]
  exact executor.changesTo_runSteps uri executor.steps text desk

theorem changesTo_handle {σ : Type} [DocumentStore σ] (executor : Executor) (uri : Text)
    (overrides : Table ParameterData) (fetched : Except StoreError Text) (store : σ) (desk : Desk) :
    desk.index.ChangesTo (executor.handle uri overrides fetched store desk).2.2.index := by
  have hsteps : ∀ {before outcome between}, executor.repairText uri before desk = (outcome, between) →
      desk.index.ChangesTo between.index := by
    intro before outcome between htext
    have hpass := executor.changesTo_repairText uri before desk
    rwa [htext] at hpass
  generalize hended : executor.handle uri overrides fetched store desk = ended
  cases ends_of_handle hended with
  | unread error => exact .refl _
  | rolledBack htext hguard =>
      -- the document can be entered again as it was
      exact (hsteps htext).trans (Index.changesTo_of_tryUpsert (guardScalars_eq_ok_of_eq_ok hguard _))
  | unrestored htext | refused htext | reported htext | raised htext | unwritten htext | written htext
  | kept htext =>
      have hindex := hsteps htext
      exact hindex

end Executor

/-! ## Commands -/

namespace Workspace

theorem changesTo_upsert (w : Workspace) (uri : Text) (given : Option Text) :
    w.index.ChangesTo (w.upsert uri given).2.index := by
  unfold upsert
  split
  · exact .refl _
  · split
    · exact .refl _
    · next hentered => exact Index.changesTo_of_tryUpsert hentered

theorem changesTo_noteEvent (w : Workspace) (path : Text) :
    w.index.ChangesTo (w.noteEvent path).2.index := by
  unfold noteEvent
  split
  · exact Index.changesTo_react _ (.markDirty w.now w.timersServed)
  · exact .refl _

theorem index_relate (w : Workspace) (uri : Text) (given : Option Text) :
    (w.relate uri given).2.index = w.index := by
  unfold relate
  split <;> rfl

theorem index_fixAll (document : Document) (withSteps : Bool) (findings : List (DiagnosticCode × Nat))
    (w : Workspace) : (fixAll document withSteps findings w).2.index = w.index := by
  induction findings generalizing w with
  | nil => rfl
  | cons finding findings ih =>
      obtain ⟨code, line⟩ := finding
      unfold fixAll
      split
      · rfl
      · split
        · rfl
        · exact ih _

theorem index_fixes (w : Workspace) (uri : Text) (given : Option Text) (options : ValidationOptions)
    (finding : Option (DiagnosticCode × Nat)) (withSteps : Bool) :
    (w.fixes uri given options finding withSteps).2.index = w.index := by
  unfold fixes
  split
  · rfl
  · dsimp only
    split
    · rfl
    · exact index_fixAll ..

theorem changesTo_repairText (w : Workspace) (uri : Text) (given : Option Text) :
    w.index.ChangesTo (w.repairText uri given).2.index := by
  unfold repairText
  split
  · exact .refl _
  · next text _ =>
    have hpass := w.executor.changesTo_repairText uri text w.toDesk
    dsimp only
    split <;> exact hpass

theorem index_regenerateParameters (w : Workspace) (uri : Text) (given : Option Text)
    (exclusions : List Text) : (w.regenerateParameters uri given exclusions).2.index = w.index := by
  unfold regenerateParameters
  split
  · rfl
  · split <;> rfl

end Workspace

/-- A command changes the index as anything may between two parts of a scan. -/
theorem Command.changesTo_apply (command : Command) (w : Workspace) :
    w.index.ChangesTo (command.apply w).index := by
  cases command with
  | put | drop | session | expect | cancelRequest | listen | unlisten | forgetGraph =>
      exact .refl w.index
  | markDirty => exact Index.changesTo_react _ (.markDirty w.now w.timersServed)
  | cancelRefresh => exact Index.changesTo_refresher ..
  | noteEvent path => exact w.changesTo_noteEvent path
  | upsert uri given => exact w.changesTo_upsert uri given
  | remove uri => exact Index.changesTo_react _ (.remove uri)
  | relate uri given => exact (w.index_relate uri given).symm ▸ .refl _
  | repairText uri given => exact w.changesTo_repairText uri given
  | regenerateParameters uri given exclusions =>
      exact (w.index_regenerateParameters uri given exclusions).symm ▸ .refl _
  | fix uri given options finding withSteps =>
      exact (w.index_fixes uri given options finding withSteps).symm ▸ .refl _

namespace Workspace

theorem changesTo_fetch (w : Workspace) (uri : Text) : w.index.ChangesTo (w.fetch uri).2.index := by
  have hcommands : ∀ (commands : List Command) (w : Workspace),
      w.index.ChangesTo (commands.foldl (fun w command => command.apply w) w).index := by
    intro commands
    induction commands with
    | nil => exact fun w => .refl _
    | cons command commands ih => exact fun w => (command.changesTo_apply w).trans (ih _)
  unfold fetch
  split
  · exact .refl _
  · exact hcommands _ { w with arrivals := w.arrivals.erase uri }

theorem changesTo_repair (w : Workspace) (uri : Text) : w.index.ChangesTo (w.repair uri).2.index := by
  unfold repair
  split
  · exact .refl _
  · next session _ =>
    have hfetched := changesTo_fetch { w with session } uri
    dsimp only
    exact hfetched.trans (Executor.changesTo_handle ..)

theorem changesTo_surveyOn (w : Workspace) (survey : Survey) :
    w.index.ChangesTo (w.surveyOn survey).2.index := by
  unfold surveyOn
  split
  · exact .refl _
  · next uri _ _ =>
    have hfetched := w.changesTo_fetch uri
    split
    · exact .refl _
    · dsimp only
      split
      · exact hfetched
      · split <;> exact hfetched

theorem changesTo_repairOn (w : Workspace) (remaining : List Text) (count : Nat) (batch : BatchResult) :
    w.index.ChangesTo (w.repairOn remaining count batch).2.index := by
  unfold repairOn
  split
  · exact .refl _
  · next uri _ =>
    split
    · exact .refl _
    · exact w.changesTo_repair uri

end Workspace

/-! ## Scans under way -/

namespace Traffic

variable {traffic : Traffic} {number : Nat} {scan : Scan}

theorem run_changes (traffic : Traffic) (changes : List IndexChange) :
    traffic.run (changes.map .change) =
      { traffic with index := changes.foldl Index.react traffic.index } := by
  induction changes generalizing traffic with
  | nil => rfl
  | cons change changes ih => exact ih _

/-- Whether a scan is under way under this number and has taken in what it has read. -/
def IsSweeping (traffic : Traffic) (number : Nat) (scan : Scan) : Prop :=
  ∃ taken, traffic.scans[number]? = some (.sweeping { scan, taken })

theorem IsSweeping.lt_length (h : traffic.IsSweeping number scan) : number < traffic.scans.length :=
  (List.getElem?_eq_some_iff.1 h.choose_spec).1

end Traffic

/-- What is left to do. -/
def Continuation.rest? {α β : Type} : Continuation α β → Option α
  | .atOnce rest | .later rest => some rest
  | .done _ => none

/-- One more file of a scan, or its end, is a run of events that moves no other scan. -/
theorem Workspace.exists_run_scanOn (w : Workspace) (scan : Scan) (cancelled : Bool) {traffic : Traffic}
    {number : Nat} (hindex : traffic.index = w.index) (hscan : traffic.IsSweeping number scan) :
    ∃ events stage,
      traffic.run events = ⟨(w.scanOn scan cancelled).2.index, traffic.scans.set number stage⟩ ∧
      ∀ rest, (w.scanOn scan cancelled).1.rest? = some rest →
        ∃ taken, stage = .sweeping { scan := rest, taken } := by
  obtain ⟨taken, hstage⟩ := hscan
  unfold scanOn
  cases hremaining : scan.remaining with
  | nil =>
      refine ⟨[.goOn number cancelled (.ok [])], .ended true, ?_, by simp [Continuation.rest?]⟩
      rw [Traffic.run_goOn hstage, Sweep.goOn_of_remaining_nil hremaining, hindex]
      rfl
  | cons uri rest =>
      cases cancelled with
      | true =>
          refine ⟨[.goOn number true (.ok [])], .ended false, ?_, by simp [Continuation.rest?]⟩
          rw [Traffic.run_goOn hstage, Sweep.goOn_cancelled hremaining rfl, hindex]
          rfl
      | false =>
          -- the file is read, commands come in, and what was read is taken in
          obtain ⟨changes, hchanges⟩ := w.changesTo_fetch uri
          rcases hfetch : w.fetch uri with ⟨fetched, later⟩
          rw [hfetch] at hchanges
          refine ⟨.goOn number false fetched :: (changes.map .change ++ [.goOn number false (.ok [])]),
            (Sweep.goOn { scan, taken, inHand := some fetched } later.index false (.ok [])).1, ?_, ?_⟩
          · have hlt := (List.getElem?_eq_some_iff.1 hstage).1
            rw [Traffic.run_goOn hstage, Sweep.goOn_fetch hremaining rfl, Traffic.run_append,
              Traffic.run_changes, hindex, hchanges, Traffic.run_goOn (List.getElem?_set_self hlt),
              List.set_set, Sweep.goOn_take hremaining rfl]
            simp only [hfetch]
            cases scan.tryTake later.index.sourceOf uri fetched <;> rfl
          · intro rest hrest
            simp only [hfetch, Bool.false_eq_true, if_false] at hrest
            cases htaken : scan.tryTake later.index.sourceOf uri fetched with
            | error fault =>
                rw [htaken] at hrest
                exact absurd hrest (by simp [Continuation.rest?])
            | ok scan' =>
                rw [htaken] at hrest
                refine ⟨taken ++ [(uri, fetched)], ?_⟩
                rw [Sweep.goOn_take hremaining rfl, htaken]
                obtain rfl : scan' = rest := by
                  dsimp only at hrest
                  split at hrest <;> exact Option.some.inj hrest
                rfl

namespace Traffic

variable {traffic : Traffic} {own other own' other' : Option Scan} {scan : Scan}

/-- Whether these scans, as far as there are any, are under way under numbers of their own. -/
def AreSweeping (traffic : Traffic) (own other : Option Scan) : Prop :=
  ∃ number number', (∀ scan ∈ own, traffic.IsSweeping number scan) ∧
    (∀ scan ∈ other, traffic.IsSweeping number' scan) ∧
    (own.isSome → other.isSome → number ≠ number')

theorem AreSweeping.symm (h : traffic.AreSweeping own other) : traffic.AreSweeping other own := by
  obtain ⟨number, number', hown, hother, hne⟩ := h
  exact ⟨number', number, hother, hown, fun hsome hsome' => (hne hsome' hsome).symm⟩

theorem AreSweeping.mono (h : traffic.AreSweeping own other) (hown : ∀ scan ∈ own', scan ∈ own)
    (hother : ∀ scan ∈ other', scan ∈ other) : traffic.AreSweeping own' other' := by
  obtain ⟨number, number', hsweeps, hsweeps', hne⟩ := h
  refine ⟨number, number', fun scan hscan => hsweeps scan (hown scan hscan),
    fun scan hscan => hsweeps' scan (hother scan hscan), fun hsome hsome' => hne ?_ ?_⟩
  · obtain ⟨scan, hscan⟩ := Option.isSome_iff_exists.1 hsome
    exact Option.isSome_of_mem (hown scan hscan)
  · obtain ⟨scan, hscan⟩ := Option.isSome_iff_exists.1 hsome'
    exact Option.isSome_of_mem (hother scan hscan)

theorem areSweeping_none (traffic : Traffic) : traffic.AreSweeping none none :=
  ⟨0, 0, by simp, by simp, by simp⟩

theorem AreSweeping.begin (h : traffic.AreSweeping own other) (uris : List Text) :
    (traffic.run [.beginRebuild uris]).AreSweeping (some (traffic.index.beginScan uris)) other := by
  -- the scan that begins has a number that no scan had before
  obtain ⟨-, number, -, hother, -⟩ := h
  refine ⟨traffic.scans.length, number, ?_, ?_, fun _ hsome => ?_⟩
  · rintro scan ⟨rfl⟩
    exact ⟨[], List.getElem?_concat_length⟩
  · intro scan hscan
    obtain ⟨taken, hstage⟩ := hother scan hscan
    exact ⟨taken, (List.getElem?_append_left (hother scan hscan).lt_length).trans hstage⟩
  · obtain ⟨scan, hscan⟩ := Option.isSome_iff_exists.1 hsome
    exact (hother scan hscan).lt_length.ne'

theorem AreSweeping.scanOn (h : traffic.AreSweeping (some scan) other) {w : Workspace}
    (hindex : traffic.index = w.index) (cancelled : Bool) :
    ∃ events, (traffic.run events).index = (w.scanOn scan cancelled).2.index ∧
      (traffic.run events).AreSweeping (w.scanOn scan cancelled).1.rest? other := by
  obtain ⟨number, number', hown, hother, hne⟩ := h
  have hsweeps := hown scan rfl
  obtain ⟨events, stage, hrun, hrest⟩ := w.exists_run_scanOn scan cancelled hindex hsweeps
  refine ⟨events, by rw [hrun], number, number', ?_, ?_, fun _ => hne rfl⟩
  · intro rest hmem
    obtain ⟨taken, rfl⟩ := hrest rest hmem
    rw [hrun]
    exact ⟨taken, List.getElem?_set_self hsweeps.lt_length⟩
  · intro scan' hscan'
    obtain ⟨taken, hstage⟩ := hother scan' hscan'
    rw [hrun]
    exact ⟨taken, (List.getElem?_set_ne (hne rfl (Option.isSome_of_mem hscan'))).trans hstage⟩

end Traffic

/-! ## Turns -/

namespace Activity

def ownScan? (a : Activity) : Option Scan :=
  match a.progress with
  | some (.scanning scan) => some scan
  | _ => none

def backgroundScan? (a : Activity) : Option Scan :=
  match a.background with
  | some (.scanning scan) => some scan
  | _ => none

/-- Whether an activity comes about in a traffic: events bring the index to where it is, with the scans
under way that are under way. -/
def ComesOf (a : Activity) (traffic : Traffic) : Prop :=
  ∃ events, (traffic.run events).index = a.workspace.index ∧
    (traffic.run events).AreSweeping a.ownScan? a.backgroundScan?

variable {a b : Activity} {traffic : Traffic}

/-- An activity without scans comes about in every traffic of its index. -/
theorem comesOf_of_index_eq (hindex : traffic.index = a.workspace.index) (hown : a.ownScan? = none)
    (hbackground : a.backgroundScan? = none) : a.ComesOf traffic := by
  refine ⟨[], hindex, ?_⟩
  rw [hown, hbackground]
  exact Traffic.areSweeping_none _

theorem comesOf_of_run (events later : List IndexEvent)
    (hindex : ((traffic.run events).run later).index = a.workspace.index)
    (hsweeps : ((traffic.run events).run later).AreSweeping a.ownScan? a.backgroundScan?) :
    a.ComesOf traffic := by
  rw [← Traffic.run_append] at hindex hsweeps
  exact ⟨events ++ later, hindex, hsweeps⟩

/-- What happens to the index between two parts of the scans leaves them where they are. -/
theorem ComesOf.change (h : a.ComesOf traffic)
    (hindex : a.workspace.index.ChangesTo b.workspace.index)
    (hown : ∀ scan ∈ b.ownScan?, scan ∈ a.ownScan?)
    (hbackground : ∀ scan ∈ b.backgroundScan?, scan ∈ a.backgroundScan?) : b.ComesOf traffic := by
  obtain ⟨events, hreached, hsweeps⟩ := h
  obtain ⟨changes, hchanges⟩ := hindex
  have hchanged := Traffic.run_changes (traffic.run events) changes
  refine comesOf_of_run events (changes.map .change) ?_ ?_
  · rw [hchanged, hreached, hchanges]
  · rw [hchanged]
    exact hsweeps.mono hown hbackground

/-- The request begins a scan. -/
theorem ComesOf.begin_own (h : a.ComesOf traffic) (uris : List Text)
    (hindex : b.workspace.index = a.workspace.index)
    (hown : b.ownScan? = some (a.workspace.index.beginScan uris))
    (hbackground : b.backgroundScan? = a.backgroundScan?) : b.ComesOf traffic := by
  obtain ⟨events, hreached, hsweeps⟩ := h
  refine comesOf_of_run events [.beginRebuild uris] (hreached.trans hindex.symm) ?_
  rw [hown, hbackground, ← hreached]
  exact hsweeps.begin uris

/-- The refresh in the background begins its scan. -/
theorem ComesOf.begin_background (h : a.ComesOf traffic) (uris : List Text)
    (hindex : b.workspace.index = a.workspace.index) (hown : b.ownScan? = a.ownScan?)
    (hbackground : b.backgroundScan? = some (a.workspace.index.beginScan uris)) : b.ComesOf traffic := by
  obtain ⟨events, hreached, hsweeps⟩ := h
  refine comesOf_of_run events [.beginRebuild uris] (hreached.trans hindex.symm) ?_
  rw [hown, hbackground, ← hreached]
  exact (hsweeps.symm.begin uris).symm

/-- The scan of the request goes on. -/
theorem ComesOf.scanOn_own (h : a.ComesOf traffic) {scan : Scan} (hscan : a.ownScan? = some scan)
    (cancelled : Bool) (hindex : b.workspace.index = (a.workspace.scanOn scan cancelled).2.index)
    (hown : b.ownScan? = (a.workspace.scanOn scan cancelled).1.rest?)
    (hbackground : b.backgroundScan? = a.backgroundScan?) : b.ComesOf traffic := by
  obtain ⟨events, hreached, hsweeps⟩ := h
  rw [hscan] at hsweeps
  obtain ⟨later, hscanned, hleft⟩ := hsweeps.scanOn hreached cancelled
  refine comesOf_of_run events later (hscanned.trans hindex.symm) ?_
  rwa [hown, hbackground]

/-- The scan in the background goes on. -/
theorem ComesOf.scanOn_background (h : a.ComesOf traffic) {scan : Scan}
    (hscan : a.backgroundScan? = some scan)
    (hindex : b.workspace.index = (a.workspace.scanOn scan false).2.index)
    (hown : b.ownScan? = a.ownScan?)
    (hbackground : b.backgroundScan? = (a.workspace.scanOn scan false).1.rest?) :
    b.ComesOf traffic := by
  obtain ⟨events, hreached, hsweeps⟩ := h
  rw [hscan] at hsweeps
  obtain ⟨later, hscanned, hleft⟩ := hsweeps.symm.scanOn hreached false
  refine comesOf_of_run events later (hscanned.trans hindex.symm) ?_
  rw [hown, hbackground]
  exact hleft.symm

/-! ### One turn -/

theorem ComesOf.beginRefresh (h : a.ComesOf traffic) : a.beginRefresh.ComesOf traffic :=
  h.change (Index.changesTo_refresher ..) (fun _ hscan => hscan)
    fun _ hscan => absurd hscan (by simp [Activity.beginRefresh, backgroundScan?])

theorem ComesOf.withRefresher (h : a.ComesOf traffic) (refresher : Refresher) :
    (a.withRefresher refresher).ComesOf traffic :=
  h.change (Index.changesTo_refresher ..) (fun _ hscan => hscan) fun _ hscan => hscan

theorem ComesOf.proceedFresh (h : a.ComesOf traffic) (next : Option ValidationOptions) :
    (a.proceedFresh next).ComesOf traffic := by
  cases next with
  | none =>
      exact h.change (.refl _)
        (fun _ hscan => absurd hscan (by simp [Activity.proceedFresh, answer, ownScan?]))
        fun _ hscan => hscan
  | some options =>
      exact h.change (.refl _)
        (fun _ hscan => absurd hscan (by simp [Activity.proceedFresh, goOn, ownScan?])) fun _ hscan => hscan

section

variable {α : Type} (a : Activity) (wrap : α → Progress)
  (result : Continuation α (Except WorkspaceError Outcome) × Workspace)

theorem workspace_continueWith : (a.continueWith wrap result).workspace = result.2 := by
  rcases result with ⟨_ | _ | _, w⟩ <;> rfl

theorem background_continueWith : (a.continueWith wrap result).background = a.background := by
  rcases result with ⟨_ | _ | _, w⟩ <;> rfl

theorem progress_continueWith : (a.continueWith wrap result).progress = result.1.rest?.map wrap := by
  rcases result with ⟨_ | _ | _, w⟩ <;> rfl

end

/-- A part of the request that is no scan. -/
theorem ComesOf.continueWith {α : Type} (h : a.ComesOf traffic) (wrap : α → Progress)
    {result : Continuation α (Except WorkspaceError Outcome) × Workspace}
    (hindex : a.workspace.index.ChangesTo result.2.index)
    (hwrap : ∀ rest ∈ result.1.rest?, ∀ scan, wrap rest ≠ .scanning scan) :
    (a.continueWith wrap result).ComesOf traffic := by
  refine h.change ?_ (fun scan hscan => ?_) fun scan hscan => ?_
  · rwa [workspace_continueWith]
  · unfold ownScan? at hscan
    rw [progress_continueWith] at hscan
    cases hrest : result.1.rest? with
    | none =>
        rw [hrest] at hscan
        exact absurd hscan (by simp)
    | some rest =>
        rw [hrest] at hscan
        dsimp only [Option.map_some] at hscan
        split at hscan
        · next hwrapped => exact absurd (Option.some.inj hwrapped) (hwrap rest hrest _)
        · exact absurd hscan (by simp)
  · unfold backgroundScan? at hscan
    rwa [background_continueWith] at hscan

theorem ComesOf.continueRequest (h : a.ComesOf traffic) : a.continueRequest.ComesOf traffic := by
  unfold Activity.continueRequest
  split
  · exact h
  · split
    · exact h.beginRefresh
    · exact h.proceedFresh _
  · next scan hprogress =>
    have hscan : a.ownScan? = some scan := by simp only [ownScan?, hprogress]
    refine h.scanOn_own hscan a.workspace.cancelled ?_ ?_ ?_
    · rw [workspace_continueWith]
    · unfold ownScan?
      rw [progress_continueWith]
      cases (a.workspace.scanOn scan a.workspace.cancelled).1.rest? <;> rfl
    · unfold backgroundScan?
      rw [background_continueWith]
  · next survey hprogress =>
    exact h.continueWith _ (a.workspace.changesTo_surveyOn survey) (by simp)
  · next uri hprogress =>
    exact h.change (a.workspace.changesTo_repair uri)
      (fun _ hscan => absurd hscan (by simp [answer, ownScan?])) fun _ hscan => hscan
  · next remaining count batch hprogress =>
    refine h.continueWith _ (a.workspace.changesTo_repairOn remaining count batch) ?_
    unfold Workspace.repairOn
    intro rest hrest scan
    split at hrest
    · exact absurd hrest (by simp [Continuation.rest?])
    · split at hrest
      · exact absurd hrest (by simp [Continuation.rest?])
      · dsimp only at hrest
        split at hrest <;>
          · obtain rfl := Option.some.inj hrest
            simp

theorem ComesOf.endRefresh (h : a.ComesOf traffic) : a.endRefresh.ComesOf traffic :=
  h.change (Index.changesTo_refresher ..) (fun _ hscan => hscan)
    fun _ hscan => absurd hscan (by simp [Activity.endRefresh, backgroundScan?])

theorem ComesOf.continueRefresh (h : a.ComesOf traffic) : a.continueRefresh.ComesOf traffic := by
  unfold Activity.continueRefresh
  split
  · exact h
  · exact h.begin_background (a.workspace.index.filesIn a.workspace.store) rfl rfl rfl
  · next scan hbackground =>
    have hscan : a.backgroundScan? = some scan := by simp only [backgroundScan?, hbackground]
    split
    · next rest w hgoes =>
      exact h.scanOn_background hscan (by rw [hgoes]) rfl (by rw [hgoes]; rfl)
    · next rest w hgoes =>
      exact h.scanOn_background hscan (by rw [hgoes]) rfl (by rw [hgoes]; rfl)
    · next outcome w hgoes =>
      -- the scan is over before the refresh is
      have hended : ComesOf { a with workspace := w, background := none } traffic :=
        h.scanOn_background hscan (by rw [hgoes]) rfl (by rw [hgoes]; rfl)
      exact hended.endRefresh

theorem ComesOf.turn (h : a.ComesOf traffic) : a.turn.ComesOf traffic := by
  unfold Activity.turn
  split
  · exact h
  · next next turns _ =>
    have htaken : ComesOf { a with turns } traffic := h
    cases next with
    | request => exact htaken.continueRequest
    | refresh => exact htaken.continueRefresh
    | timer marks =>
        dsimp only
        unfold Activity.runOut
        split
        · split
          · exact htaken.withRefresher _
          · exact htaken.beginRefresh
        · exact htaken
    | round => exact htaken

theorem ComesOf.turnsWithin (h : a.ComesOf traffic) (fuel : Nat) :
    (turnsWithin fuel a).ComesOf traffic := by
  induction fuel generalizing a with
  | zero => exact h
  | succ fuel ih =>
      unfold Activity.turnsWithin
      split
      · exact h
      · exact ih h.turn

theorem ComesOf.freshen (h : a.ComesOf traffic) (next : Option ValidationOptions) :
    (a.freshen next).ComesOf traffic := by
  unfold Activity.freshen
  split
  · exact h.proceedFresh next
  · unfold flush
    have hwaits : ComesOf { a with progress := some (.waiting next) } traffic :=
      h.change (.refl _) (fun _ hscan => absurd hscan (by simp [ownScan?])) fun _ hscan => hscan
    dsimp only
    split
    · exact hwaits.withRefresher _
    · exact hwaits.beginRefresh

end Activity

/-! ## Requests -/

namespace Workspace

theorem comesOf_beginRequest (w : Workspace) (request : Request) {traffic : Traffic}
    (hindex : traffic.index = w.index) : (w.beginRequest request).ComesOf traffic := by
  have hidle : Activity.ComesOf { workspace := w } traffic :=
    Activity.comesOf_of_index_eq hindex rfl rfl
  cases request with
  | ensureFresh => exact hidle.freshen none
  | refresh =>
      unfold beginRequest
      dsimp only
      split
      · exact Activity.comesOf_of_index_eq hindex rfl rfl
      · exact hidle.begin_own (w.index.filesIn w.store) rfl rfl rfl
  | rebuild uris => exact hidle.begin_own uris rfl rfl rfl
  | validateAll uris options =>
      cases uris with
      | none => exact hidle.freshen (some options)
      | some uris => exact Activity.comesOf_of_index_eq hindex rfl rfl
  | validateRelated uri text options =>
      have hrelated := w.index_relate uri (some text)
      unfold beginRequest
      dsimp only
      split
      · split
        · next hrelate =>
          rw [hrelate] at hrelated
          exact Activity.comesOf_of_index_eq (hindex.trans hrelated.symm) rfl rfl
        · next hrelate =>
          rw [hrelate] at hrelated
          exact Activity.comesOf_of_index_eq (hindex.trans hrelated.symm) rfl rfl
      · exact Activity.comesOf_of_index_eq hindex rfl rfl
  | repair uri => exact Activity.comesOf_of_index_eq hindex rfl rfl
  | repairAll uris => exact Activity.comesOf_of_index_eq hindex rfl rfl

/-- What a request does to the index is a run of index events, whatever happened before. -/
theorem exists_index_run (w : Workspace) (request : Request) (cancelled : Bool) {traffic : Traffic}
    (hindex : traffic.index = w.index) :
    ∃ events, (traffic.run events).index = (w.run request cancelled).2.index := by
  have hbegun := comesOf_beginRequest { w with cancelled } request hindex
  obtain ⟨events, hreached, -⟩ := hbegun.turnsWithin (w.turnBound (Request.uris request).length)
  exact ⟨events, hreached⟩

theorem exists_index_settle (w : Workspace) {traffic : Traffic} (hindex : traffic.index = w.index) :
    ∃ events, (traffic.run events).index = w.settle.index := by
  have hidle : Activity.ComesOf { workspace := w, turns := [.round] } traffic :=
    Activity.comesOf_of_index_eq hindex rfl rfl
  obtain ⟨events, hreached, -⟩ := hidle.turnsWithin (w.turnBound 0)
  exact ⟨events, hreached⟩

theorem exists_index_advanceWithin (limit : Seconds) (fuel : Nat) (w : Workspace) {traffic : Traffic}
    (hindex : traffic.index = w.index) :
    ∃ events, (traffic.run events).index = (advanceWithin limit fuel w).index := by
  induction fuel generalizing w traffic with
  | zero => exact ⟨[], hindex⟩
  | succ fuel ih =>
      unfold advanceWithin
      split
      · exact ⟨[], hindex⟩
      · next due _ =>
        split
        · obtain ⟨events, hsettled⟩ :=
            exists_index_settle { w with now := Seconds.later w.now due } hindex
          obtain ⟨later, hreached⟩ := ih _ hsettled
          exact ⟨events ++ later, by rw [Traffic.run_append, hreached]⟩
        · exact ⟨[], hindex⟩

/-- What the passing of time does to the index is a run of index events. -/
theorem exists_index_advance (w : Workspace) (span : Seconds) {traffic : Traffic}
    (hindex : traffic.index = w.index) :
    ∃ events, (traffic.run events).index = (w.advance span).index :=
  exists_index_advanceWithin (w.now + span) (w.arrivalCount + 2) w hindex

end Workspace

end Scenarist
