import Scenarist.Proofs.Workspace.Calm

set_option autoImplicit false

/-! # How fresh the index is

An index over a directory is asked to be fresh so that it has every name that a file of the directory
declares. Whether it scans the directory for this is told by its state: empty, populated or dirty. The first
document that is entered makes an empty index populated, though nothing was scanned, and then the index is
not scanned until it is marked dirty.

Steps are calls that leave the store as it is, made at once or while a document is read, requests and the
passing of time. After steps the index has been scanned and has every name, or it has not been scanned and
has the names that were entered (`Workspace.Follows`).

Main statements: `Workspace.Follows.take` (what a step does) and `Workspace.isComplete_ensureFresh_iff`
(what holds after any steps). -/

namespace Scenarist

/-- What is done with a workspace whose store stays as it is. -/
inductive FreshStep where
  /-- A call is made. -/
  | update (update : Update)
  /-- These calls come in when a document is next read. -/
  | expect (uri : Text) (updates : List Update)
  /-- Timers are served from now on, or they are not. -/
  | serveTimers (served : Bool)
  /-- The index is asked to be fresh, and the answer is waited for. -/
  | ensureFresh
  /-- A span of time passes. -/
  | advance (span : Seconds)
  deriving DecidableEq, Repr

namespace Workspace

def take (w : Workspace) : FreshStep → Workspace
  | .update update => update.command.apply w
  | .expect uri updates => (Command.expect uri (updates.map Update.command)).apply w
  | .serveTimers served => { w with timersServed := served }
  | .ensureFresh => (w.run .ensureFresh false).2
  | .advance span => w.advance span

def takeAll (w : Workspace) (steps : List FreshStep) : Workspace := steps.foldl take w

def Enters (base : Workspace) (steps : List FreshStep) (name : Text) : Prop :=
  ∃ uri, .update (.upsert uri) ∈ steps ∧ base.store.Declares uri name

/-- Whether steps asked the index to be fresh when it had been marked dirty, or when no document that
declares a name had been entered. -/
def Provokes (base : Workspace) (steps : List FreshStep) : Prop :=
  ∃ earlier later, steps = earlier ++ .ensureFresh :: later ∧
    (.update .markDirty ∈ earlier ∨ ∀ name, ¬ base.Enters earlier name)

/-- Whether an index has not been scanned yet: what it has are the names that were entered. -/
structure IsUnscanned (base w : Workspace) (steps : List FreshStep) : Prop where
  running_eq : w.index.refresher.running = false
  dirty_iff : w.index.state = .dirty ↔ .update .markDirty ∈ steps
  timer_eq : .update .markDirty ∉ steps → w.index.refresher.timer = none
  empty_iff : .update .markDirty ∉ steps → (w.index.state = .empty ↔ ∀ name, ¬ base.Enters steps name)
  mem_names_iff : ∀ name, name ∈ w.index.names ↔ base.Enters steps name

section

variable {base w next : Workspace} {steps : List FreshStep} {step : FreshStep} {name : Text}

theorem enters_concat : base.Enters (steps ++ [step]) name ↔
    base.Enters steps name ∨ ∃ uri, step = .update (.upsert uri) ∧ base.store.Declares uri name := by
  unfold Enters
  simp only [List.mem_append, List.mem_singleton, or_and_right, exists_or, eq_comm]

theorem provokes_concat : base.Provokes (steps ++ [step]) ↔
    base.Provokes steps ∨
      step = .ensureFresh ∧ (.update .markDirty ∈ steps ∨ ∀ name, ¬ base.Enters steps name) := by
  constructor
  · rintro ⟨earlier, later, heq, hprovokes⟩
    rcases List.eq_nil_or_concat later with rfl | ⟨later, last, rfl⟩
    · obtain ⟨rfl, hstep⟩ := List.append_inj' heq rfl
      exact Or.inr ⟨List.singleton_inj.1 hstep, hprovokes⟩
    · rw [List.concat_eq_append, ← List.cons_append, ← List.append_assoc] at heq
      obtain ⟨rfl, -⟩ := List.append_inj' heq rfl
      exact Or.inl ⟨earlier, later, rfl, hprovokes⟩
  · rintro (⟨earlier, later, rfl, hprovokes⟩ | ⟨rfl, hprovokes⟩)
    · exact ⟨earlier, later ++ [step], by simp, hprovokes⟩
    · exact ⟨steps, [], rfl, hprovokes⟩

/-- An unscanned index counts as populated exactly if asking it to be fresh would not provoke a scan. -/
theorem IsUnscanned.state_eq_populated_iff (h : base.IsUnscanned w steps) :
    w.index.state = .populated ↔
      ¬ (.update .markDirty ∈ steps ∨ ∀ name, ¬ base.Enters steps name) := by
  rw [← h.dirty_iff, not_or]
  cases hstate : w.index.state with
  | dirty => simp
  | empty =>
      have hmarked : .update .markDirty ∉ steps := mt h.dirty_iff.2 (by simp [hstate])
      exact iff_of_false (by simp) fun hentered => hentered.2 ((h.empty_iff hmarked).1 hstate)
  | populated =>
      have hmarked : .update .markDirty ∉ steps := mt h.dirty_iff.2 (by simp [hstate])
      refine iff_of_true rfl ⟨by simp, fun hnone => ?_⟩
      exact absurd (hstate.symm.trans ((h.empty_iff hmarked).2 hnone)) (by simp)

/-- A step that is no call leaves the index unscanned if it does nothing to it. -/
theorem IsUnscanned.concat (h : base.IsUnscanned w steps) (hindex : next.index = w.index)
    (hstep : ∀ update, step ≠ .update update) : base.IsUnscanned next (steps ++ [step]) := by
  have hmarked : FreshStep.update .markDirty ∈ steps ++ [step] ↔ .update .markDirty ∈ steps := by
    simp [(hstep .markDirty).symm]
  have henters : ∀ name, base.Enters (steps ++ [step]) name ↔ base.Enters steps name := by
    intro name
    rw [enters_concat, or_iff_left]
    rintro ⟨uri, heq, -⟩
    exact hstep _ heq
  refine ⟨?_, ?_, ?_, ?_, ?_⟩ <;> simp only [hindex, hmarked, henters]
  · exact h.running_eq
  · exact h.dirty_iff
  · exact h.timer_eq
  · exact h.empty_iff
  · exact h.mem_names_iff

theorem IsUnscanned.markDirty (h : base.IsUnscanned w steps) :
    base.IsUnscanned w.markDirty (steps ++ [.update .markDirty]) where
  running_eq := w.running_markDirty.trans h.running_eq
  dirty_iff := iff_of_true rfl (by simp)
  timer_eq hnot := absurd hnot (by simp)
  empty_iff hnot := absurd hnot (by simp)
  mem_names_iff name := by
    rw [enters_concat, or_iff_left (by simp)]
    exact h.mem_names_iff name

theorem IsUnscanned.upsert (h : base.IsUnscanned w steps) (hcalm : base.IsCalm w)
    (hnormal : base.store.IsNormal) (uri : Text) :
    base.IsUnscanned (w.upsert uri none).2 (steps ++ [.update (.upsert uri)]) := by
  obtain ⟨-, hnames, hrefresher⟩ := hcalm.upsert hnormal uri
  have hempty : w.index.state = .empty → w.index.names = [] := by
    intro hstate
    have hmarked : .update .markDirty ∉ steps := mt h.dirty_iff.2 (by simp [hstate])
    rw [List.eq_nil_iff_forall_not_mem]
    exact fun name hmem => (h.empty_iff hmarked).1 hstate name ((h.mem_names_iff name).1 hmem)
  have hstate : ((w.upsert uri none).2.index.state = .dirty ↔ w.index.state = .dirty) ∧
      ((w.upsert uri none).2.index.state = .empty ↔
        w.index.state = .empty ∧ ∀ name, ¬ base.store.Declares uri name) := by
    rcases w.upsert_cases uri with ⟨text, hread, hguard, hentered⟩ | ⟨hnone, hentered⟩ <;>
      rw [hentered] <;> rw [hcalm.store_eq] at *
    · exact Index.state_upsert hempty hread hguard
    · exact ⟨Iff.rfl, (and_iff_left hnone).symm⟩
  have hmarked : FreshStep.update .markDirty ∈ steps ++ [.update (.upsert uri)] ↔
      .update .markDirty ∈ steps := by
    simp
  have henters : ∀ name, base.Enters (steps ++ [.update (.upsert uri)]) name ↔
      base.Enters steps name ∨ base.store.Declares uri name := by
    intro name
    rw [enters_concat]
    simp
  refine ⟨?_, ?_, fun hnot => ?_, fun hnot => ?_, fun name => ?_⟩
  · rw [hrefresher]
    exact h.running_eq
  · rw [hstate.1, hmarked]
    exact h.dirty_iff
  · rw [hrefresher]
    exact h.timer_eq (mt hmarked.2 hnot)
  · rw [hstate.2, h.empty_iff (mt hmarked.2 hnot)]
    simp only [henters, not_or, forall_and]
  · rw [hnames, henters, h.mem_names_iff]

end

/-! ## After any steps -/

section

variable {base w : Workspace} {steps : List FreshStep} {step : FreshStep}

/-- What holds after steps: the index has every name that it needs and was marked or provoked, or it has
not been scanned and was not provoked. -/
structure Follows (base w : Workspace) (steps : List FreshStep) : Prop where
  calm : base.IsCalm w
  scanned_or_not : w.IsComplete ∧ (base.Provokes steps ∨ .update .markDirty ∈ steps) ∨
    base.IsUnscanned w steps ∧ ¬ base.Provokes steps

/-- A workspace over a directory with an index in which nothing has been entered. -/
structure IsNew (base : Workspace) : Prop where
  index_eq : ∃ root config, base.index = .ofConfig (some root) config
  arrivals_eq : base.arrivals = []

theorem IsNew.follows (h : base.IsNew) : base.Follows base [] := by
  obtain ⟨⟨root, config, hindex⟩, harrivals⟩ := h
  have hrecords : base.index.records = [] := by rw [hindex]; rfl
  have henters : ∀ name, ¬ base.Enters [] name := fun name ⟨uri, hmem, _⟩ => absurd hmem List.not_mem_nil
  refine ⟨⟨rfl, rfl, rfl, Index.agreesWith_of_empty hrecords _, ?_, ?_⟩,
    Or.inr ⟨⟨?_, ?_, ?_, ?_, ?_⟩, ?_⟩⟩
  · simp [harrivals]
  · rw [hindex]; exact fun _ => rfl
  · rw [hindex]; rfl
  · rw [hindex]; exact iff_of_false (by simp [Index.ofConfig]) List.not_mem_nil
  · rw [hindex]; exact fun _ => rfl
  · rw [hindex]; exact fun _ => iff_of_true rfl henters
  · intro name
    refine iff_of_false ?_ (henters name)
    simp [Index.names, Table.keys, hrecords]
  · rintro ⟨earlier, later, heq, -⟩
    exact absurd heq (by simp)

variable (hnormal : base.store.IsNormal) (hreadable : base.store.IsReadable base.files)

include hnormal hreadable

/-- A step takes no name from an index that has all. -/
theorem IsCalm.take (h : base.IsCalm w) (step : FreshStep) :
    base.IsCalm (w.take step) ∧ (w.IsComplete → (w.take step).IsComplete) := by
  cases step with
  | update update =>
      have hgoes := h.goesOn_apply hnormal update
      exact ⟨hgoes.calm, hgoes.complete⟩
  | ensureFresh => exact h.ensureFresh hnormal hreadable
  | serveTimers served =>
      exact ⟨h.of_index_eq rfl rfl h.arrivals, id⟩
  | advance span =>
      obtain ⟨hcalm, hcomplete⟩ := h.advanceWithin hnormal hreadable (w.now + span) (w.arrivalCount + 2)
      exact ⟨hcalm.withNow _, hcomplete⟩
  | expect uri updates =>
      refine ⟨h.of_index_eq rfl rfl fun entry hentry => ?_, id⟩
      rcases Table.mem_put hentry with hentry | hentry
      · exact ⟨updates, by rw [hentry]⟩
      · exact h.arrivals entry hentry

theorem Follows.take (h : base.Follows w steps) (hroot : base.index.scanRoot.isSome = true)
    (step : FreshStep) : base.Follows (w.take step) (steps ++ [step]) := by
  obtain ⟨hcalm, hcomplete⟩ := h.calm.take hnormal hreadable step
  refine ⟨hcalm, ?_⟩
  rcases h.scanned_or_not with ⟨hscanned, hcause⟩ | ⟨hunscanned, hnot⟩
  · refine Or.inl ⟨hcomplete hscanned, ?_⟩
    exact hcause.imp (fun hprovokes => provokes_concat.2 (Or.inl hprovokes)) (List.mem_append_left _)
  have hother : step ≠ .ensureFresh → ¬ base.Provokes (steps ++ [step]) := by
    intro hstep hprovokes
    exact (provokes_concat.1 hprovokes).elim hnot fun hfresh => hstep hfresh.1
  cases step with
  | update update => cases update with
    | upsert uri => exact Or.inr ⟨hunscanned.upsert h.calm hnormal uri, hother (by simp)⟩
    | markDirty => exact Or.inr ⟨hunscanned.markDirty, hother (by simp)⟩
  | expect | serveTimers => exact Or.inr ⟨hunscanned.concat rfl (by simp), hother (by simp)⟩
  | advance span =>
      rcases h.calm.advance_cases hnormal hreadable hunscanned.running_eq span with
        hsame | ⟨htimer, hscanned⟩
      · exact Or.inr ⟨hunscanned.concat (congrArg (·.index) hsame) (by simp), hother (by simp)⟩
      · -- only a mark sets the timer
        have hmarked : .update .markDirty ∈ steps := by
          by_contra hmarked
          exact htimer (hunscanned.timer_eq hmarked)
        exact Or.inl ⟨hscanned, Or.inr (List.mem_append_left _ hmarked)⟩
  | ensureFresh =>
      by_cases hstate : w.index.state = .populated
      · -- nothing is done, as if everything had been scanned
        have hcause := hunscanned.state_eq_populated_iff.1 hstate
        have hmarked : .update .markDirty ∉ steps := fun hmarked => hcause (Or.inl hmarked)
        have hsame := ensureFresh_of_populated hstate (hunscanned.timer_eq hmarked)
        refine Or.inr ⟨hunscanned.concat (congrArg (·.index) hsame) (by simp), fun hprovokes => ?_⟩
        exact (provokes_concat.1 hprovokes).elim hnot fun hfresh => hcause hfresh.2
      · refine Or.inl ⟨h.calm.isComplete_ensureFresh hnormal hreadable hunscanned.running_eq ?_ hstate,
          Or.inl (provokes_concat.2 (Or.inr ⟨rfl, ?_⟩))⟩
        · rw [h.calm.scanRoot_eq]
          exact hroot
        · exact not_not.1 (mt hunscanned.state_eq_populated_iff.2 hstate)

theorem follows_takeAll (hnew : base.IsNew) (steps : List FreshStep) :
    base.Follows (base.takeAll steps) steps := by
  have hroot : base.index.scanRoot.isSome = true := by
    obtain ⟨⟨root, config, hindex⟩, -⟩ := hnew
    rw [hindex]
    rfl
  induction steps using List.reverseRecOn with
  | nil => exact hnew.follows
  | append_singleton steps step ih =>
      unfold takeAll at ih ⊢
      rw [List.foldl_concat]
      exact ih.take hnormal hreadable hroot step

/-- After the index was asked to be fresh it has every name that a file of the directory declares,
whatever was done before, if and only if it was asked to be fresh, now or earlier, when it had been marked
dirty or no document that declares a name had been entered, or every such name was entered with some
document. -/
theorem isComplete_ensureFresh_iff (hnew : base.IsNew) (steps : List FreshStep) :
    (base.takeAll (steps ++ [.ensureFresh])).index.IsComplete base.store base.files ↔
      base.Provokes (steps ++ [.ensureFresh]) ∨
        ∀ file ∈ base.files, ∀ name, base.store.Declares file name → base.Enters steps name := by
  have hfollows := follows_takeAll hnormal hreadable hnew (steps ++ [.ensureFresh])
  have henters : ∀ name, base.Enters (steps ++ [.ensureFresh]) name ↔ base.Enters steps name := by
    intro name
    rw [enters_concat]
    simp
  rcases hfollows.scanned_or_not with ⟨hcomplete, hcause⟩ | ⟨hunscanned, hnot⟩
  · refine iff_of_true ?_ (Or.inl (hcause.elim id fun hmarked => ?_))
    · unfold IsComplete at hcomplete
      rwa [hfollows.calm.files_eq, hfollows.calm.store_eq] at hcomplete
    · exact provokes_concat.2 (Or.inr ⟨rfl, Or.inl (by simpa using hmarked)⟩)
  · unfold Index.IsComplete
    simp only [hunscanned.mem_names_iff, henters, hnot, false_or]

end

def twoFiles : Workspace where
  index := .ofConfig (some (Path.ofText "/ws".toList)) {}
  session := {}
  supply := .random 0
  cwd := Path.ofText "/".toList
  store := ⟨[("/ws/a.scen.yaml".toList, declaring "A".toList),
    ("/ws/b.scen.yaml".toList, declaring "B".toList)]⟩
  catalog := { steps := [], threshold := StepCatalog.defaultThreshold }
  config := {}
  executor := { steps := [], exclusions := [], writeChanges := false }

theorem files_twoFiles : twoFiles.files = ["/ws/a.scen.yaml".toList, "/ws/b.scen.yaml".toList] := by
  show (twoFiles.store.list (Path.ofText "/ws".toList) twoFiles.index.patterns).map Path.toText = _
  unfold MemoryStore.list Text.sortBy
  rw [List.mergeSort_of_pairwise (by decide +kernel)]
  decide +kernel

theorem isComplete_ensureFresh_iff_twoFiles :
    twoFiles.store.IsNormal ∧ twoFiles.store.IsReadable twoFiles.files ∧ twoFiles.IsNew ∧
      ((twoFiles.takeAll ([.update .markDirty, .update (.upsert "/ws/a.scen.yaml".toList)] ++
          [.ensureFresh])).index.IsComplete twoFiles.store twoFiles.files ↔
        twoFiles.Provokes
            ([.update .markDirty, .update (.upsert "/ws/a.scen.yaml".toList)] ++ [.ensureFresh]) ∨
          ∀ file ∈ twoFiles.files, ∀ name, twoFiles.store.Declares file name →
            twoFiles.Enters [.update .markDirty, .update (.upsert "/ws/a.scen.yaml".toList)] name) :=
  have hnormal : twoFiles.store.IsNormal := by decide +kernel
  have hreadable : twoFiles.store.IsReadable twoFiles.files := by
    rw [files_twoFiles]
    decide +kernel
  have hnew : twoFiles.IsNew := ⟨⟨_, _, rfl⟩, rfl⟩
  ⟨hnormal, hreadable, hnew, isComplete_ensureFresh_iff hnormal hreadable hnew _⟩

/-- After one of the two documents was entered the index counts as populated, so that asking it to be
fresh does not bring in the other one. -/
theorem not_isComplete_ensureFresh_twoFiles :
    ¬ (twoFiles.takeAll
      [.update (.upsert "/ws/a.scen.yaml".toList), .ensureFresh]).index.IsComplete twoFiles.store
        twoFiles.files := by
  intro hcomplete
  have hdeclares : twoFiles.store.Declares "/ws/b.scen.yaml".toList "B".toList :=
    ⟨declaring "B".toList, by decide +kernel, by decide +kernel, by decide +kernel⟩
  have hname := hcomplete "/ws/b.scen.yaml".toList (by simp [files_twoFiles]) "B".toList hdeclares
  revert hname
  decide +kernel

end Workspace

end Scenarist
