import Scenarist.Proofs.Index.Names
import Scenarist.Proofs.Workspace

set_option autoImplicit false

/-! # Workspaces over a store that stays as it is

As long as the stored documents stay as they are, whatever else is done with a workspace, no name is lost
from an index that has every name that the files of the directory declare: entering a document takes none
away, and the end of a scan brings all of them in. And a refresh that has begun does end: while it runs no
timer is set, so at most one round comes between two of its files.

So an index that cannot be relied on has every name after it was asked to be fresh, whatever comes in
meanwhile.

Main statements: `Activity.IsCalm.turn` (what a turn keeps), `Activity.IsCalm.isComplete_turnsWithin` (a
refresh ends) and `Workspace.IsCalm.isComplete_ensureFresh`. -/

namespace Scenarist

namespace Index

variable {index : Index} {store : MemoryStore} {uri text : Text}

/-- Entering a document changes nothing but the records, the state and the generation. -/
theorem exists_upsert_eq (index : Index) (uri text : Text) :
    ∃ records state generation,
      (index.upsert uri text).2 = { index with records, state, generation } := by
  unfold upsert
  split
  · unfold enter
    split
    · exact ⟨_, _, _, rfl⟩
    · exact ⟨_, _, _, rfl⟩
  · unfold remove
    split
    · exact ⟨_, _, _, rfl⟩
    · exact ⟨_, _, _, rfl⟩

/-- Entering a document of the store makes an empty index populated if the document declares a name, and
changes the state in no other way. -/
theorem state_upsert (hempty : index.state = .empty → index.names = [])
    (hread : store.read uri = .ok text) (hguard : guardScalars (Record.scalarsOf text) () = .ok ()) :
    ((index.upsert uri text).2.state = .dirty ↔ index.state = .dirty) ∧
      ((index.upsert uri text).2.state = .empty ↔
        index.state = .empty ∧ ∀ name, ¬ store.Declares uri name) := by
  cases hrecord : Record.ofText? (index.sourceOf uri) text with
  | none =>
      have hnone : ∀ name, ¬ store.Declares uri name := by
        intro name hdeclares
        obtain ⟨record, hfound, -⟩ := (declares_iff_ofText? index hread hguard).1 hdeclares
        exact absurd (hrecord.symm.trans hfound) (by simp)
      rw [upsert_of_none hrecord, (index.remove_keeps uri).2]
      exact ⟨Iff.rfl, (and_iff_left hnone).symm⟩
  | some record =>
      have hdeclares : store.Declares uri record.name :=
        (declares_iff_ofText? index hread hguard).2 ⟨record, hrecord, rfl⟩
      have hnot : ¬ (index.state = .empty ∧ ∀ name, ¬ store.Declares uri name) :=
        fun h => h.2 record.name hdeclares
      rw [upsert_of_some hrecord]
      unfold enter
      split
      · next hholds =>
        -- an index that holds a record is not empty
        refine ⟨Iff.rfl, iff_of_false (fun hstate => ?_) hnot⟩
        have hmem : record.name ∈ index.names := mem_names_iff.2 ⟨record, (holds_iff.1 hholds).1⟩
        rw [hempty hstate] at hmem
        exact absurd hmem List.not_mem_nil
      · dsimp only [bump]
        split
        · next hstate => exact ⟨by simp [hstate], iff_of_false (by simp) hnot⟩
        · next hstate => exact ⟨Iff.rfl, iff_of_false hstate hnot⟩

end Index

/-! ## Calls -/

/-- A call that changes the index but not the store. -/
inductive Update where
  /-- A stored document is entered. -/
  | upsert (uri : Text)
  /-- The index is marked dirty. -/
  | markDirty
  deriving DecidableEq, Repr

def Update.command : Update → Command
  | .upsert uri => .upsert uri none
  | .markDirty => .markDirty

namespace Workspace

def files (w : Workspace) : List Text := w.index.filesIn w.store

/-- Whether the index has every name that a scanned file declares. -/
def IsComplete (w : Workspace) : Prop := w.index.IsComplete w.store w.files

/-- Whether a workspace has the store and the directory of another one, and nothing comes in but calls
that leave them as they are. -/
structure IsCalm (base w : Workspace) : Prop where
  store_eq : w.store = base.store
  scanRoot_eq : w.index.scanRoot = base.index.scanRoot
  patterns_eq : w.index.patterns = base.index.patterns
  agrees : w.index.AgreesWith base.store
  arrivals : ∀ entry ∈ w.arrivals, ∃ updates : List Update, entry.2 = updates.map Update.command
  timer_eq : w.index.refresher.running = true → w.index.refresher.timer = none

/-- Whether a calm workspace comes after another one, in the same state of refreshing, and no name is lost
from an index that has all. -/
structure GoesOn (base w next : Workspace) : Prop where
  calm : base.IsCalm next
  complete : w.IsComplete → next.IsComplete
  running_eq : next.index.refresher.running = w.index.refresher.running

variable {base w next last : Workspace} {uri text name : Text}

theorem GoesOn.refl (h : base.IsCalm w) : base.GoesOn w w := ⟨h, id, rfl⟩

theorem GoesOn.trans (h : base.GoesOn w next) (h' : base.GoesOn next last) : base.GoesOn w last :=
  ⟨h'.calm, h'.complete ∘ h.complete, h'.running_eq.trans h.running_eq⟩

theorem IsCalm.files_eq (h : base.IsCalm w) : w.files = base.files := by
  unfold files Index.filesIn
  rw [h.store_eq, h.scanRoot_eq, h.patterns_eq]

theorem IsCalm.sourceOf_eq (h : base.IsCalm w) : w.index.sourceOf = base.index.sourceOf :=
  Chronicle.sourceOf_congr h.scanRoot_eq

/-- Nothing but the store, the index and what comes in matters. -/
theorem IsCalm.of_index_eq (h : base.IsCalm w) (hstore : next.store = w.store)
    (hindex : next.index = w.index)
    (harrivals : ∀ entry ∈ next.arrivals, ∃ updates : List Update,
      entry.2 = updates.map Update.command) : base.IsCalm next where
  store_eq := hstore.trans h.store_eq
  scanRoot_eq := hindex ▸ h.scanRoot_eq
  patterns_eq := hindex ▸ h.patterns_eq
  agrees := hindex ▸ h.agrees
  arrivals := harrivals
  timer_eq := hindex ▸ h.timer_eq

/-- A document of the store is entered, or nothing can be entered. -/
theorem upsert_cases (w : Workspace) (uri : Text) :
    (∃ text, w.store.read uri = .ok text ∧ guardScalars (Record.scalarsOf text) () = .ok () ∧
      (w.upsert uri none).2 = notify { w with index := (w.index.upsert uri text).2 }) ∨
    ((∀ name, ¬ w.store.Declares uri name) ∧ (w.upsert uri none).2 = w) := by
  unfold upsert textOf
  cases hread : w.store.read uri with
  | error error =>
      refine Or.inr ⟨?_, rfl⟩
      rintro name ⟨text, hfound, -⟩
      exact absurd (hread.symm.trans hfound) (by simp)
  | ok text =>
      dsimp only [Except.mapError]
      cases hresult : w.index.tryUpsert uri text with
      | error fault =>
          refine Or.inr ⟨fun name hdeclares => ?_, rfl⟩
          have hguard := ((MemoryStore.declares_iff hread).1 hdeclares).1
          have hok : w.index.tryUpsert uri text = .ok (w.index.upsert uri text) :=
            guardScalars_eq_ok_of_eq_ok hguard _
          exact absurd (hresult.symm.trans hok) (by simp)
      | ok result =>
          refine Or.inl ⟨text, rfl, guardScalars_eq_ok_of_eq_ok hresult (), ?_⟩
          rw [← Index.tryUpsert_eq_ok hresult]

/-- After a stored document was entered a name is there if it was before or the document declares it. -/
theorem IsCalm.upsert (h : base.IsCalm w) (hnormal : base.store.IsNormal) (uri : Text) :
    base.IsCalm (w.upsert uri none).2 ∧
      (∀ name, name ∈ (w.upsert uri none).2.index.names ↔
        name ∈ w.index.names ∨ base.store.Declares uri name) ∧
      (w.upsert uri none).2.index.refresher = w.index.refresher := by
  rcases w.upsert_cases uri with ⟨text, hread, hguard, hentered⟩ | ⟨hnone, hentered⟩ <;> rw [hentered]
  · rw [h.store_eq] at hread
    have hagrees := h.agrees.upsert hnormal hread hguard
    have hnames : ∀ name, name ∈ (w.index.upsert uri text).2.names ↔
        name ∈ w.index.names ∨ base.store.Declares uri name :=
      fun name => h.agrees.mem_names_upsert hnormal hread hguard
    obtain ⟨records, state, generation, hindex⟩ := w.index.exists_upsert_eq uri text
    refine ⟨⟨h.store_eq, ?_, ?_, hagrees, h.arrivals, ?_⟩, hnames, ?_⟩ <;>
      simp only [notify, hindex]
    · exact h.scanRoot_eq
    · exact h.patterns_eq
    · exact h.timer_eq
  · rw [h.store_eq] at hnone
    exact ⟨h, fun name => (or_iff_left (hnone name)).symm, rfl⟩

theorem IsCalm.markDirty (h : base.IsCalm w) : base.IsCalm w.markDirty := by
  refine ⟨h.store_eq, h.scanRoot_eq, h.patterns_eq, ⟨h.agrees.nodup_names, h.agrees.declares⟩,
    h.arrivals, ?_⟩
  unfold Workspace.markDirty Index.markDirty Refresher.request
  dsimp only
  split
  · split
    · exact h.timer_eq
    · next hserved =>
      intro hrunning
      replace hrunning : w.index.refresher.running = true := hrunning
      exact absurd (by simp [hrunning]) hserved
  · exact h.timer_eq

theorem running_markDirty (w : Workspace) :
    w.markDirty.index.refresher.running = w.index.refresher.running := by
  unfold markDirty Index.markDirty Refresher.request
  dsimp only
  split
  · split <;> rfl
  · rfl

theorem IsCalm.goesOn_apply (h : base.IsCalm w) (hnormal : base.store.IsNormal) (update : Update) :
    base.GoesOn w (update.command.apply w) := by
  cases update with
  | upsert uri =>
      obtain ⟨hcalm, hnames, hrefresher⟩ := h.upsert hnormal uri
      refine ⟨hcalm, fun hcomplete file hfile name hdeclares => ?_, by rw [← hrefresher]; rfl⟩
      refine (hnames name).2 (Or.inl (hcomplete file ?_ name ?_))
      · rwa [h.files_eq, ← hcalm.files_eq]
      · rwa [h.store_eq, ← hcalm.store_eq]
  | markDirty => exact ⟨h.markDirty, id, w.running_markDirty⟩

theorem IsCalm.fetch (h : base.IsCalm w) (hnormal : base.store.IsNormal) (uri : Text) :
    (w.fetch uri).1 = base.store.read uri ∧ base.GoesOn w (w.fetch uri).2 := by
  have hcommands : ∀ (updates : List Update) {w : Workspace}, base.IsCalm w →
      base.GoesOn w ((updates.map Update.command).foldl (fun w command => command.apply w) w) := by
    intro updates
    induction updates with
    | nil => exact fun h => .refl h
    | cons update updates ih =>
        intro w h
        have hgoes := h.goesOn_apply hnormal update
        exact hgoes.trans (ih hgoes.calm)
  rw [← h.store_eq]
  unfold Workspace.fetch
  cases w.store.read uri with
  | error error => exact ⟨rfl, .refl h⟩
  | ok text =>
      have hcalm : base.IsCalm { w with arrivals := w.arrivals.erase uri } :=
        h.of_index_eq rfl rfl fun entry hentry => h.arrivals entry (List.mem_of_mem_filter hentry)
      refine ⟨rfl, ?_⟩
      obtain ⟨updates, hupdates⟩ : ∃ updates : List Update,
          (w.arrivals.get? uri).getD [] = updates.map Update.command := by
        cases hget : w.arrivals.get? uri with
        | none => exact ⟨[], rfl⟩
        | some commands => exact h.arrivals (uri, commands) (Table.mem_of_get?_eq_some hget)
      -- the calls that come in while the document is read are made before it is handed over
      dsimp only
      rw [hupdates]
      exact ⟨(hcommands updates hcalm).calm, (hcommands updates hcalm).complete,
        (hcommands updates hcalm).running_eq⟩

end Workspace

/-! ## Scans -/

/-- Whether a scan has read the first of the files of a workspace and is to read the others. -/
def Scan.IsOf (scan : Scan) (base : Workspace) : Prop :=
  ∃ done, base.files = done ++ scan.remaining ∧
    scan.found = recordsOf base.index.sourceOf (base.store.readAll done)

namespace Workspace

variable {base w : Workspace} {scan : Scan}

theorem IsCalm.isOf_beginScan (h : base.IsCalm w) : (w.index.beginScan w.files).IsOf base :=
  ⟨[], h.files_eq.symm ▸ rfl, rfl⟩

/-- A scan that has read all files puts their records into the index, and one that has not reads the next
one. -/
theorem IsCalm.scanOn (h : base.IsCalm w) (hnormal : base.store.IsNormal)
    (hreadable : base.store.IsReadable base.files) (hscan : scan.IsOf base) :
    (∃ outcome next, w.scanOn scan false = (.done outcome, next) ∧ base.GoesOn w next ∧ next.IsComplete) ∨
    ∃ rest next,
      (w.scanOn scan false = (.atOnce rest, next) ∨ w.scanOn scan false = (.later rest, next)) ∧
      base.GoesOn w next ∧ rest.IsOf base ∧ scan.remaining.length = rest.remaining.length + 1 := by
  obtain ⟨done, hfiles, hfound⟩ := hscan
  unfold Workspace.scanOn
  cases hremaining : scan.remaining with
  | nil =>
      -- whatever came in meanwhile, the scan leaves the records of the files alone
      rw [hremaining, List.append_nil] at hfiles
      left
      have hrecords : (w.index.install scan false).records =
          recordsOf (w.index.install scan false).sourceOf (base.store.readAll base.files) := by
        show scan.found = recordsOf w.index.sourceOf _
        rw [hfound, h.sourceOf_eq, hfiles]
      have hagrees := Index.agreesWith_of_records hnormal hreadable hrecords
      have hcalm : base.IsCalm (notify { w with index := w.index.install scan false }) :=
        ⟨h.store_eq, h.scanRoot_eq, h.patterns_eq, hagrees, h.arrivals, h.timer_eq⟩
      have hnext : (notify { w with index := w.index.install scan false }).IsComplete := by
        unfold IsComplete
        rw [hcalm.files_eq, hcalm.store_eq]
        exact Index.isComplete_of_records hrecords
      exact ⟨_, _, rfl, ⟨hcalm, fun _ => hnext, rfl⟩, hnext⟩
  | cons uri rest =>
      -- calls that come in while the file is read change the index, but not what the scan has found
      right
      obtain ⟨hfetched, hgoes⟩ := h.fetch hnormal uri
      rcases hfetch : w.fetch uri with ⟨fetched, next⟩
      rw [hfetch] at hfetched hgoes
      dsimp only at hfetched hgoes
      have huri : uri ∈ base.files := by simp [hfiles, hremaining]
      have hguard : guardScalars ((fetched.toOption.map Record.scalarsOf).getD []) () = .ok () :=
        hfetched ▸ hreadable uri huri
      have htaken : scan.tryTake next.index.sourceOf uri fetched =
          .ok (scan.take next.index.sourceOf uri fetched) := guardScalars_eq_ok_of_eq_ok hguard _
      have hrest := scan.take_eq next.index.sourceOf (uri, fetched)
      dsimp only at hrest
      refine ⟨scan.take next.index.sourceOf uri fetched, next, ?_, hgoes, ?_, ?_⟩
      · simp only [hfetch, htaken, Bool.false_eq_true, if_false]
        split
        · exact Or.inr rfl
        · exact Or.inl rfl
      · refine ⟨done ++ [uri], by simp [hrest, hfiles, hremaining], ?_⟩
        rw [hrest, hfound, hgoes.calm.sourceOf_eq, hfetched]
        unfold MemoryStore.readAll
        rw [List.map_append]
        exact (recordsOf_concat ..).symm
      · simp [hrest, hremaining]

end Workspace

/-! ## Turns -/

namespace Activity

variable {base : Workspace} {a : Activity}

/-- Whether an activity is calm: its workspace is, the scan in the background is one of the files, and the
request waits for the index to be fresh if it does anything. -/
structure IsCalm (base : Workspace) (a : Activity) : Prop where
  workspace : base.IsCalm a.workspace
  background : ∀ scan, a.background = some (.scanning scan) → scan.IsOf base
  progress : ∀ progress, a.progress = some progress → progress = .waiting none

/-- Whether a calm activity comes after another one, and no name is lost from an index that has all. -/
structure GoesOn (base : Workspace) (a b : Activity) : Prop where
  calm : b.IsCalm base
  complete : a.workspace.IsComplete → b.workspace.IsComplete

theorem GoesOn.trans {b c : Activity} (h : GoesOn base a b) (h' : GoesOn base b c) : GoesOn base a c :=
  ⟨h'.calm, h'.complete ∘ h.complete⟩

theorem IsCalm.withRefresher (h : a.IsCalm base) (refresher : Refresher)
    (htimer : refresher.running = true → refresher.timer = none) :
    GoesOn base a (a.withRefresher refresher) :=
  ⟨⟨⟨h.workspace.store_eq, h.workspace.scanRoot_eq, h.workspace.patterns_eq,
      ⟨h.workspace.agrees.nodup_names, h.workspace.agrees.declares⟩, h.workspace.arrivals, htimer⟩,
    h.background, h.progress⟩, id⟩

theorem IsCalm.beginRefresh (h : a.IsCalm base) : GoesOn base a a.beginRefresh := by
  obtain ⟨hcalm, hcomplete⟩ := h.withRefresher a.refresher.dropTimer.start fun _ => rfl
  exact ⟨⟨hcalm.workspace, fun scan hscan => absurd hscan (by simp [Activity.beginRefresh]),
    hcalm.progress⟩, hcomplete⟩

theorem IsCalm.endRefresh (h : a.IsCalm base) : GoesOn base a a.endRefresh := by
  have hfinish : ∀ now, (a.refresher.finish now).running = true →
      (a.refresher.finish now).timer = none := by
    intro now hrunning
    unfold Refresher.finish at hrunning
    split at hrunning <;> exact absurd hrunning (by simp)
  obtain ⟨hcalm, hcomplete⟩ := h.withRefresher _ (hfinish a.workspace.now)
  exact ⟨⟨hcalm.workspace, fun scan hscan => absurd hscan (by simp [Activity.endRefresh]),
    hcalm.progress⟩, hcomplete⟩

theorem IsCalm.continueRequest (h : a.IsCalm base) : GoesOn base a a.continueRequest := by
  unfold Activity.continueRequest
  split
  · exact ⟨h, id⟩
  · next next hprogress =>
    split
    · exact h.beginRefresh
    · cases h.progress _ hprogress
      exact ⟨⟨h.workspace, h.background,
        fun progress hnone => absurd hnone (by simp [proceedFresh, answer])⟩, id⟩
  all_goals
    next hprogress => exact absurd (h.progress _ hprogress) (by simp)

/-- The turns to come do not matter. -/
theorem IsCalm.withTurns (h : a.IsCalm base) (turns : List Turn) : GoesOn base a { a with turns } :=
  ⟨⟨h.workspace, h.background, h.progress⟩, id⟩

variable (hnormal : base.store.IsNormal) (hreadable : base.store.IsReadable base.files)

include hnormal hreadable

theorem IsCalm.continueRefresh (h : a.IsCalm base) : GoesOn base a a.continueRefresh := by
  unfold Activity.continueRefresh
  split
  · exact ⟨h, id⟩
  · refine ⟨⟨h.workspace, fun scan hscan => ?_, h.progress⟩, id⟩
    cases hscan
    exact h.workspace.isOf_beginScan
  · next scan hbackground =>
    rcases h.workspace.scanOn hnormal hreadable (h.background scan hbackground) with
      ⟨outcome, next, hscanned, hgoes, -⟩ | ⟨rest, next, hscanned | hscanned, hgoes, hrest, -⟩ <;>
      rw [hscanned]
    · have hended : GoesOn base a { a with workspace := next } :=
        ⟨⟨hgoes.calm, h.background, h.progress⟩, hgoes.complete⟩
      exact hended.trans hended.calm.endRefresh
    · exact ⟨⟨hgoes.calm, fun scan hscan => by cases hscan; exact hrest, h.progress⟩, hgoes.complete⟩
    · exact ⟨⟨hgoes.calm, fun scan hscan => by cases hscan; exact hrest, h.progress⟩, hgoes.complete⟩

/-- A turn leaves an activity calm and takes no name from an index that has all. -/
theorem IsCalm.turn (h : a.IsCalm base) : GoesOn base a a.turn := by
  unfold Activity.turn
  split
  · exact ⟨h, id⟩
  · next next turns _ =>
    have hturns := h.withTurns turns
    cases next with
    | request => exact hturns.trans hturns.calm.continueRequest
    | refresh => exact hturns.trans (hturns.calm.continueRefresh hnormal hreadable)
    | timer marks =>
        dsimp only
        unfold Activity.runOut
        split
        · split
          · exact hturns.trans (hturns.calm.withRefresher _ fun _ => rfl)
          · exact hturns.trans hturns.calm.beginRefresh
        · exact hturns
    | round => exact hturns.trans (hturns.calm.withTurns _)

omit hnormal hreadable in
theorem turnsWithin_succ (h : a.turns ≠ []) (fuel : Nat) :
    Activity.turnsWithin (fuel + 1) a = Activity.turnsWithin fuel a.turn := by
  rw [Activity.turnsWithin, if_neg (by simpa using h)]

theorem IsCalm.turnsWithin (h : a.IsCalm base) (fuel : Nat) : GoesOn base a (turnsWithin fuel a) := by
  induction fuel generalizing a with
  | zero => exact ⟨h, id⟩
  | succ fuel ih =>
      unfold Activity.turnsWithin
      split
      · exact ⟨h, id⟩
      · have hturn := h.turn hnormal hreadable
        exact hturn.trans (ih hturn.calm)

/-! ### The end of a refresh -/

omit hnormal hreadable in
/-- The turns that the refresh in the background takes at most to read its files, but for rounds. -/
def toRead (a : Activity) : Nat :=
  match a.background with
  | none => 0
  | some .begun => a.workspace.files.length + 1
  | some (.scanning scan) => scan.remaining.length

omit hnormal hreadable in
/-- While no timer is set a new round brings no new turns. -/
theorem turn_of_round (hturns : a.turns = [.round, .refresh]) (htimer : a.refresher.timer = none) :
    a.turn = { a with turns := [.refresh, .round] } := by
  obtain ⟨w, turns, background, progress, outcome⟩ := a
  obtain rfl := hturns
  simp only [Activity.turn, Activity.beginRound, Activity.refresher] at htimer ⊢
  simp [htimer]

/-- In a turn the refresh in the background ends with every name that the index needs, or it has fewer
files to read, and its next turn comes at once or after a round. -/
theorem IsCalm.turn_of_reading (h : a.IsCalm base) (hbackground : a.background.isSome = true)
    (hturns : a.turns = [.refresh, .round]) :
    a.turn.workspace.IsComplete ∨
      a.turn.background.isSome = true ∧ a.turn.refresher.running = a.refresher.running ∧
        a.turn.toRead + 1 = a.toRead ∧
        (a.turn.turns = [.refresh, .round] ∨ a.turn.turns = [.round, .refresh]) := by
  obtain ⟨w, turns, background, progress, outcome⟩ := a
  obtain rfl := hturns
  cases background with
  | none => exact absurd hbackground (by simp)
  | some background => cases background with
    | begun => exact Or.inr ⟨rfl, rfl, rfl, Or.inl rfl⟩
    | scanning scan =>
        -- the scan is done, or it has taken in one file more
        rcases h.workspace.scanOn hnormal hreadable (h.background scan rfl) with
          ⟨result, next, hscanned, -, hcomplete⟩ | ⟨rest, next, hscanned, hnext, -, hlength⟩
        · left
          simp only [Activity.turn, Activity.continueRefresh, hscanned]
          exact hcomplete
        · right
          rcases hscanned with hscanned | hscanned
          · have hturn : Activity.turn ⟨w, [.refresh, .round], some (.scanning scan), progress, outcome⟩ =
                ⟨next, [.refresh, .round], some (.scanning rest), progress, outcome⟩ := by
              simp only [Activity.turn, Activity.continueRefresh, hscanned]
            rw [hturn]
            exact ⟨rfl, hnext.running_eq, hlength.symm, Or.inl rfl⟩
          · have hturn : Activity.turn ⟨w, [.refresh, .round], some (.scanning scan), progress, outcome⟩ =
                ⟨next, [.round, .refresh], some (.scanning rest), progress, outcome⟩ := by
              simp only [Activity.turn, Activity.continueRefresh, hscanned, List.cons_append,
                List.nil_append]
            rw [hturn]
            exact ⟨rfl, hnext.running_eq, hlength.symm, Or.inr rfl⟩

/-- The refresh in the background reads its files one after the other, and while it does no timer runs
out; so it ends within turns that are known beforehand, and then the index has every name that it needs. -/
theorem IsCalm.isComplete_turnsWithin (h : a.IsCalm base) (hrunning : a.refresher.running = true)
    (hbackground : a.background.isSome = true) {fuel : Nat}
    (hturns : a.turns = [.refresh, .round] ∧ 2 * a.toRead < fuel ∨
      a.turns = [.round, .refresh] ∧ 2 * a.toRead + 1 < fuel) :
    (Activity.turnsWithin fuel a).workspace.IsComplete := by
  -- the fuel goes down by one with every turn, and what is to be read with every second one at least
  induction fuel generalizing a with
  | zero => rcases hturns with ⟨-, hfuel⟩ | ⟨-, hfuel⟩ <;> exact absurd hfuel (Nat.not_lt_zero _)
  | succ fuel ih =>
      have hgoes := h.turn hnormal hreadable
      rw [turnsWithin_succ (by rcases hturns with ⟨hturns, -⟩ | ⟨hturns, -⟩ <;> simp [hturns])]
      rcases hturns with ⟨hturns, hfuel⟩ | ⟨hturns, hfuel⟩
      · rcases h.turn_of_reading hnormal hreadable hbackground hturns with
          hcomplete | ⟨hnext, hruns, hread, hturns⟩
        · exact (hgoes.calm.turnsWithin hnormal hreadable fuel).complete hcomplete
        · refine ih hgoes.calm (hruns.trans hrunning) hnext (hturns.imp (fun hturns => ?_) fun hturns => ?_)
          · exact ⟨hturns, by omega⟩
          · exact ⟨hturns, by omega⟩
      · rw [turn_of_round hturns (h.workspace.timer_eq hrunning)] at hgoes ⊢
        exact ih hgoes.calm hrunning hbackground (Or.inl ⟨rfl, Nat.lt_of_succ_lt_succ hfuel⟩)

end Activity

/-! ## Requests and the passing of time -/

namespace Workspace

variable {base w : Workspace}

theorem length_files_le (w : Workspace) : w.files.length ≤ w.store.files.length := by
  unfold files Index.filesIn
  split
  · rw [List.length_map]
    show (MemoryStore.list w.store _ _).length ≤ _
    unfold MemoryStore.list Text.sortBy
    rw [List.length_mergeSort]
    exact (List.length_filter_le _ _).trans (by simp [Table.keys])
  · exact Nat.zero_le _

/-- A request may take more turns than a refresh needs. -/
theorem lt_turnBound (w : Workspace) (documents : Nat) :
    2 * w.files.length + 8 < w.turnBound documents := by
  have hfiles := w.length_files_le
  have hbound : 2 * 4 * (w.store.files.length + 8) ≤ w.turnBound documents := by
    unfold turnBound
    exact Nat.mul_le_mul (Nat.mul_le_mul_left 2 (by omega)) (by omega)
  omega

theorem IsCalm.withCancelled (h : base.IsCalm w) (cancelled : Bool) : base.IsCalm { w with cancelled } :=
  h.of_index_eq rfl rfl h.arrivals

/-- The clock does not matter. -/
theorem IsCalm.withNow (h : base.IsCalm w) (now : Seconds) : base.IsCalm { w with now } :=
  h.of_index_eq rfl rfl h.arrivals

/-- An activity with neither a refresh nor a request is calm. -/
theorem IsCalm.activity (h : base.IsCalm w) (turns : List Turn) :
    Activity.IsCalm base { workspace := w, turns } where
  workspace := h
  background := fun scan hscan => absurd hscan (by simp)
  progress := fun progress hprogress => absurd hprogress (by simp)

theorem IsCalm.freshen (h : base.IsCalm w) :
    Activity.GoesOn base { workspace := w } (w.beginRequest .ensureFresh) := by
  have hidle : Activity.IsCalm base { workspace := w } := h.activity []
  have hfresh : Activity.GoesOn base { workspace := w } (Activity.freshen { workspace := w } none) := by
    unfold Activity.freshen
    split
    · exact ⟨⟨h, hidle.background, fun progress hnone =>
        absurd hnone (by simp [Activity.proceedFresh, Activity.answer])⟩, id⟩
    · have hwaits : Activity.GoesOn base { workspace := w }
          { workspace := w, progress := some (.waiting none) } :=
        ⟨⟨h, hidle.background, fun progress hprogress => (Option.some.inj hprogress).symm⟩, id⟩
      unfold Activity.flush
      dsimp only
      split
      · exact hwaits.trans (hwaits.calm.withRefresher _ fun _ => rfl)
      · exact hwaits.trans hwaits.calm.beginRefresh
  exact ⟨⟨hfresh.calm.workspace, hfresh.calm.background, hfresh.calm.progress⟩, hfresh.complete⟩

section

variable (hnormal : base.store.IsNormal) (hreadable : base.store.IsReadable base.files)

include hnormal hreadable

theorem IsCalm.ensureFresh (h : base.IsCalm w) :
    base.IsCalm (w.run .ensureFresh false).2 ∧
      (w.IsComplete → (w.run .ensureFresh false).2.IsComplete) := by
  have hbegun := (h.withCancelled false).freshen
  have hturns := hbegun.calm.turnsWithin hnormal hreadable (w.turnBound 0)
  exact ⟨hturns.calm.workspace, hturns.complete ∘ hbegun.complete⟩

/-- An index that cannot be relied on is complete after it was asked to be fresh. -/
theorem IsCalm.isComplete_ensureFresh (h : base.IsCalm w) (hidle : w.index.refresher.running = false)
    (hroot : w.index.scanRoot.isSome = true) (hstate : w.index.state ≠ .populated) :
    (w.run .ensureFresh false).2.IsComplete := by
  have hbegun := (h.withCancelled false).freshen
  have hbound := w.lt_turnBound 0
  have hrefresh : beginRequest { w with cancelled := false } .ensureFresh =
      { Activity.beginRefresh
          { workspace := { w with cancelled := false }, progress := some (.waiting none) } with
        turns := [.refresh, .round] } := by
    have hflush : Activity.freshen { workspace := { w with cancelled := false } } none =
        Activity.beginRefresh
          { workspace := { w with cancelled := false }, progress := some (.waiting none) } := by
      unfold Activity.freshen Activity.flush Activity.refresher
      rw [if_neg (by simp [hstate, ← Option.isSome_iff_ne_none, hroot]), if_neg (by simp [hidle])]
    unfold beginRequest
    simp only [hflush]
    rfl
  rw [hrefresh] at hbegun
  show (Activity.turnsWithin (w.turnBound 0) _).workspace.IsComplete
  rw [hrefresh]
  refine hbegun.calm.isComplete_turnsWithin hnormal hreadable rfl rfl (Or.inl ⟨rfl, ?_⟩)
  show 2 * (w.files.length + 1) < w.turnBound 0
  omega

theorem IsCalm.settle (h : base.IsCalm w) :
    base.IsCalm w.settle ∧ (w.IsComplete → w.settle.IsComplete) := by
  have hturns := (h.activity [.round]).turnsWithin hnormal hreadable (w.turnBound 0)
  exact ⟨hturns.calm.workspace, hturns.complete⟩

/-- An index is complete after the timer has run out. -/
theorem IsCalm.isComplete_settle (h : base.IsCalm w) (hidle : w.index.refresher.running = false)
    {due : Seconds} (htimer : w.index.refresher.timer = some due) (hdue : due ≤ w.now) :
    w.settle.IsComplete := by
  have hbegun := (h.activity [.round]).beginRefresh
  have hbound := w.lt_turnBound 0
  obtain ⟨fuel, hfuel⟩ : ∃ fuel, w.turnBound 0 = fuel + 2 := ⟨w.turnBound 0 - 2, by omega⟩
  -- the timer joins the queue in the first round and begins the refresh
  have hround : Activity.turn { workspace := w, turns := [.round] } =
      { workspace := w, turns := [.timer w.index.dirtyMarks, .round] } := by
    unfold Activity.turn Activity.beginRound Activity.refresher
    simp [htimer, hdue]
  have hruns : Activity.turn { workspace := w, turns := [.timer w.index.dirtyMarks, .round] } =
      Activity.beginRefresh { workspace := w, turns := [.round] } := by
    unfold Activity.turn Activity.runOut Activity.refresher
    simp [Refresher.isPending, htimer, hidle]
  unfold Workspace.settle
  rw [hfuel, Activity.turnsWithin_succ (by simp), hround, Activity.turnsWithin_succ (by simp), hruns]
  refine hbegun.calm.isComplete_turnsWithin hnormal hreadable rfl rfl (Or.inr ⟨rfl, ?_⟩)
  show 2 * (w.files.length + 1) + 1 < fuel
  omega

theorem IsCalm.advanceWithin (h : base.IsCalm w) (limit : Seconds) (fuel : Nat) :
    base.IsCalm (advanceWithin limit fuel w) ∧
      (w.IsComplete → (Workspace.advanceWithin limit fuel w).IsComplete) := by
  induction fuel generalizing w with
  | zero => exact ⟨h, id⟩
  | succ fuel ih =>
      unfold Workspace.advanceWithin
      split
      · exact ⟨h, id⟩
      · next due _ =>
        split
        · obtain ⟨hsettled, hcomplete⟩ := (h.withNow (Seconds.later w.now due)).settle hnormal hreadable
          exact ⟨(ih hsettled).1, fun hstart => (ih hsettled).2 (hcomplete hstart)⟩
        · exact ⟨h, id⟩

/-- While time passes nothing happens to the index, or the timer runs out and the index is complete. -/
theorem IsCalm.advance_cases (h : base.IsCalm w) (hidle : w.index.refresher.running = false)
    (span : Seconds) :
    w.advance span = { w with now := w.now + span } ∨
      w.index.refresher.timer ≠ none ∧ (w.advance span).IsComplete := by
  unfold advance Workspace.advanceWithin
  cases htimer : w.index.refresher.timer with
  | none => exact Or.inl rfl
  | some due =>
      dsimp only
      split
      · refine Or.inr ⟨by simp, ?_⟩
        have hlater := h.withNow (Seconds.later w.now due)
        have hdue : due ≤ Seconds.later w.now due := by
          unfold Seconds.later
          split
          · exact Rat.le_refl
          · next hlate => exact Rat.le_of_lt (Rat.not_le.1 hlate)
        have hsettled := hlater.isComplete_settle hnormal hreadable hidle htimer hdue
        have hcalm := (hlater.settle hnormal hreadable).1
        exact (hcalm.advanceWithin hnormal hreadable _ _).2 hsettled
      · exact Or.inl rfl

end

/-- An index that counts as populated is left as it is when it is asked to be fresh. -/
theorem ensureFresh_of_populated (hstate : w.index.state = .populated)
    (htimer : w.index.refresher.timer = none) :
    (w.run .ensureFresh false).2 = { w with cancelled := false } := by
  have hbound := w.lt_turnBound 0
  obtain ⟨fuel, hfuel⟩ : ∃ fuel, w.turnBound 0 = fuel + 1 := ⟨w.turnBound 0 - 1, by omega⟩
  have hbegun : beginRequest { w with cancelled := false } .ensureFresh =
      { workspace := { w with cancelled := false }, turns := [.round], outcome := some (.ok .fresh) } := by
    unfold beginRequest Activity.freshen
    simp only [hstate, if_true, decide_true, Bool.true_or]
    rfl
  have hround : Activity.turn
      { workspace := { w with cancelled := false }, turns := [.round], outcome := some (.ok .fresh) } =
      { workspace := { w with cancelled := false }, outcome := some (.ok .fresh) } := by
    unfold Activity.turn Activity.beginRound Activity.refresher
    simp [htimer]
  have hdone : ∀ fuel, Activity.turnsWithin fuel
      { workspace := { w with cancelled := false }, outcome := some (.ok .fresh) } =
      { workspace := { w with cancelled := false }, outcome := some (.ok .fresh) } := by
    intro fuel
    cases fuel <;> rfl
  show (Activity.turnsWithin (w.turnBound 0) _).workspace = _
  rw [hbegun, hfuel, Activity.turnsWithin_succ (by simp), hround, hdone]

end Workspace

end Scenarist
