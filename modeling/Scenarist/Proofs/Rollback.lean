import Scenarist.Proofs.Index.Withdrawal
import Scenarist.Proofs.Repair
import Scenarist.Proofs.Session

set_option autoImplicit false

/-! # A pass that is rolled back

The steps of a pass work on the index and on the session as they go, whatever they do with the text. Each
of them keeps what the session knows of other documents, and what is found under the names that the texts
on the way do not declare. A rollback enters the original into the index again and puts the parameter
data back, so that nothing of the pass is left but records under names that it took.

The record of the document is compared with its uri as it is given, while it is entered under the path
that the uri writes; so it is found again only if the uri is written the way its path is.

Main statements: `Executor.keeps_of_run` (one step), `Executor.keeps_of_runSteps` (the steps one after the
other) and `Executor.repair_of_rollback` (a pass that is rolled back). -/

namespace Scenarist

open Text

/-! ## What is kept -/

/-- Whether a record is of another document than this one, however the uri of this one is written. -/
def Record.IsOfOther (uri : Text) (record : Record) : Prop :=
  record.uri ≠ uri ∧ record.uri ≠ (Path.ofText uri).toText

/-- What an index keeps under a name while a document is entered that does not declare it: the records of
other documents. -/
def Index.KeepsOthers (uri name : Text) (old new : Index) : Prop :=
  ∀ record, record.IsOfOther uri → (new.lookup? name = some record ↔ old.lookup? name = some record)

namespace Index.KeepsOthers

variable {uri name : Text} {old between new index : Index}

protected theorem refl (uri name : Text) (index : Index) : index.KeepsOthers uri name index :=
  fun _ _ => Iff.rfl

protected theorem trans (h : old.KeepsOthers uri name between) (h' : between.KeepsOthers uri name new) :
    old.KeepsOthers uri name new :=
  fun record hother => (h' record hother).trans (h record hother)

theorem upsert {text : Text} (hnames : index.names.Nodup) (hname : Record.nameOf? text ≠ some name) :
    index.KeepsOthers uri name (index.upsert uri text).2 := by
  rintro record ⟨huri, hpath⟩
  -- A document without a name is removed by its uri, one with a name takes the place of its path: what is
  -- filtered out differs, and a record of another document is neither.
  have hfilter : ∀ place : Text, record.uri ≠ place →
      ((index.lookup? name).filter (fun found => found.uri ≠ place) = some record ↔
        index.lookup? name = some record) := by
    intro place hplace
    rw [Option.filter_eq_some_iff]
    exact ⟨fun h => h.1, fun h => ⟨h, by simpa using hplace⟩⟩
  cases hrecord : Record.ofText? (index.sourceOf uri) text with
  | none =>
      rw [upsert_of_none hrecord, lookup?_remove hnames]
      exact hfilter uri huri
  | some entered =>
      have hdeclared : name ≠ entered.name := by
        rintro rfl
        rw [← Record.name_ofText? (index.sourceOf uri), hrecord] at hname
        exact hname rfl
      have hentered : entered.uri = (Path.ofText uri).toText := uri_of_ofText? hrecord
      rw [upsert_of_some hrecord, lookup?_enter hnames, if_neg hdeclared, hentered]
      exact hfilter _ hpath

end Index.KeepsOthers

namespace Executor

variable {executor : Executor} {uri text updated final before name : Text} {desk desk' between : Desk}
  {applied : List Text}

/-! ## Steps -/

/-- What a desk keeps while a pass is at work on one document. -/
structure KeepsOthers (uri : Text) (old new : Desk) : Prop where
  session : old.session.KeepsOthers uri new.session
  scanRoot_eq : new.index.scanRoot = old.index.scanRoot
  nodup_names : old.index.names.Nodup → new.index.names.Nodup

/-- A step keeps what the session knows of other documents. Under a name that its text does not declare
the index keeps the records of other documents. -/
theorem keeps_of_run {action : StepAction} (name : Text)
    (h : action.run executor uri text desk = (.ok updated, desk')) :
    KeepsOthers uri desk desk' ∧ (desk.index.names.Nodup → Record.nameOf? text ≠ some name →
      desk.index.KeepsOthers uri name desk'.index) := by
  -- Only `index` touches the index, only `parameters` the session.
  cases action with
  | rewrite change =>
      obtain ⟨-, rfl⟩ := Prod.mk.inj h
      exact ⟨⟨.refl uri _, rfl, id⟩, fun _ _ => .refl uri name _⟩
  | index =>
      obtain ⟨-, -, rfl⟩ := run_index_iff.1 h
      exact ⟨⟨.refl uri _, Index.scanRoot_upsert _ uri text, fun hnames =>
        Index.nodup_names_upsert hnames uri text⟩, fun hnames hname => .upsert hnames hname⟩
  | nested =>
      rcases run_nested_iff.1 h with ⟨-, -, rfl⟩ | ⟨-, -, -, rfl⟩
      · exact ⟨⟨.refl uri _, rfl, id⟩, fun _ _ => .refl uri name _⟩
      · exact ⟨⟨.refl uri _, rfl, id⟩, fun _ _ => .refl uri name _⟩
  | parameters =>
      obtain ⟨-, -, rfl⟩ := run_parameters_iff.1 h
      exact ⟨⟨.regenerateParameters _ uri text _, rfl, id⟩, fun _ _ => .refl uri name _⟩

/-- Whether no text that one of the steps is taken on declares a name. -/
def NeverDeclares (executor : Executor) (uri : Text) (steps : List RepairStep) (text : Text) (desk : Desk)
    (name : Text) : Prop :=
  ∀ front step middle applied between, front ++ [step] <+: steps →
    executor.runSteps uri front text desk = (.ok (middle, applied), between) →
      Record.nameOf? middle ≠ some name

theorem NeverDeclares.head {step : RepairStep} {steps : List RepairStep}
    (h : executor.NeverDeclares uri (step :: steps) text desk name) : Record.nameOf? text ≠ some name :=
  h [] step text [] desk (List.prefix_append [step] steps) rfl

theorem NeverDeclares.tail {step : RepairStep} {steps : List RepairStep}
    (h : executor.NeverDeclares uri (step :: steps) text desk name)
    (hstep : step.action.run executor uri text desk = (.ok updated, between)) :
    executor.NeverDeclares uri steps updated between name :=
  fun front next middle applied last hfront hrun =>
    h (step :: front) next middle _ last (List.cons_prefix_cons.2 ⟨rfl, hfront⟩)
      (runSteps_cons_iff.2 ⟨updated, between, applied, hstep, hrun, rfl⟩)

/-- What the steps keep, one after the other. -/
theorem keeps_of_runSteps {steps : List RepairStep} (name : Text)
    (h : executor.runSteps uri steps text desk = (.ok (final, applied), desk')) :
    KeepsOthers uri desk desk' ∧
      (desk.index.names.Nodup → executor.NeverDeclares uri steps text desk name →
        desk.index.KeepsOthers uri name desk'.index) := by
  induction steps generalizing text desk applied with
  | nil =>
      obtain ⟨-, rfl⟩ : (text = final ∧ [] = applied) ∧ desk = desk' := by simpa [runSteps] using h
      exact ⟨⟨.refl uri _, rfl, id⟩, fun _ _ => .refl uri name _⟩
  | cons step steps ih =>
      obtain ⟨updated, between, rest, hstep, hrest, -⟩ := runSteps_cons_iff.1 h
      obtain ⟨hkeeps, hindex⟩ := keeps_of_run name hstep
      obtain ⟨hkeeps', hindex'⟩ := ih hrest
      refine ⟨⟨hkeeps.session.trans hkeeps'.session, hkeeps'.scanRoot_eq.trans hkeeps.scanRoot_eq,
        fun hnames => hkeeps'.nodup_names (hkeeps.nodup_names hnames)⟩, fun hnames hnever => ?_⟩
      exact (hindex hnames hnever.head).trans
        (hindex' (hkeeps.nodup_names hnames) (hnever.tail hstep))

/-- A pass that is rolled back took all of its steps, and sections have disappeared. -/
theorem runSteps_of_rollback {missing : List SectionKey}
    (h : executor.repairText uri text desk = (.error (.rollback missing), desk')) :
    missing ≠ [] ∧ ∃ final applied,
      executor.runSteps uri executor.steps text desk = (.ok (final, applied), desk') ∧
        missing = missingSections text final := by
  obtain ⟨final, applied, hsteps, hmissing, hlost⟩ := repairText_eq_rollback_iff.1 (congrArg Prod.fst h)
  have hdesk := executor.snd_repairText uri text desk
  rw [h] at hdesk
  exact ⟨hlost, final, applied, Prod.ext hsteps hdesk.symm, hmissing.symm⟩

/-! ## Putting things back -/

/-- A rollback puts the parameter data of the document back and leaves those of the others. -/
theorem overridesOf_restore {overrides : Table ParameterData} (hkeys : overrides.keys.Nodup)
    (uri before : Text) (desk : Desk) :
    desk.session.KeepsOthers uri (restore uri before overrides desk).session ∧
      (restore uri before overrides desk).session.overridesOf uri = overrides := by
  have hcleared := Session.KeepsOthers.clearOverrides desk.session uri
  have hnone : (desk.session.clearOverrides uri).overridesOf uri = [] := by
    unfold Session.overridesOf Session.clearOverrides
    rw [Table.get?_erase, if_pos rfl, Option.getD_none]
  unfold restore
  simp only
  split
  · next hempty => exact ⟨hcleared, hnone.trans (List.isEmpty_iff.1 hempty).symm⟩
  · refine ⟨hcleared.trans (.merge _ uri overrides), ?_⟩
    rw [Session.merge, hnone, Table.putAll_eq_append (by simpa using hkeys)]
    unfold Session.overridesOf
    rw [Table.get?_put, if_pos rfl]
    rfl

/-! ## The whole pass -/

def takeOn (uri : Text) (desk : Desk) : Desk := { desk with session := (desk.session.begin uri).2 }

section

variable {σ : Type} [DocumentStore σ] {store store' : σ} {result : RepairResult}
  {missing : List SectionKey}

/-- A pass over a document that no other one is at work on handles the text that it fetches. -/
theorem repair_of_free (hfree : desk.session.isProcessing uri = false) :
    executor.repair uri store desk =
      let (result, store, desk) := executor.handle uri (desk.session.overridesOf uri)
        (DocumentStore.read store uri) store (takeOn uri desk)
      (result, store, release uri desk) := by
  unfold repair takeOn
  simp only [Session.begin, hfree, Bool.false_eq_true, if_false]

/-- A pass over a text that is rolled back, if it comes back with a result, leaves the store and puts the
desk back. -/
theorem handle_of_rollback {overrides : Table ParameterData}
    (hrollback : executor.repairText uri before desk = (.error (.rollback missing), between))
    (h : executor.handle uri overrides (.ok before) store desk = (.ok result, store', desk')) :
    result = { path := uri, text := before, error := some (rollbackMessage uri missing) } ∧
      store' = store ∧ desk' = restore uri before overrides between := by
  unfold handle at h
  simp only [hrollback] at h
  cases hguard : guardScalars (Record.scalarsOf before) () with
  | error fault => simp [hguard] at h
  | ok _ =>
      simp only [hguard, Prod.mk.injEq, Except.ok.injEq] at h
      exact ⟨h.1.symm, h.2.1.symm, h.2.2.symm⟩

/-- A marker that is set for a pass and taken off again leaves the others. -/
theorem processing_finish_begin {session : Session} (hfree : session.isProcessing uri = false) :
    (session.begin uri).2.processing.filter (· ≠ uri) = session.processing := by
  have hfree' : uri ∉ session.processing := by simpa [Session.isProcessing] using hfree
  have hkept : session.processing.filter (· ≠ uri) = session.processing :=
    List.filter_eq_self.2 fun other hother => by
      simpa using fun heq : other = uri => hfree' (heq ▸ hother)
  simp only [Session.begin, hfree, Bool.false_eq_true, if_false]
  rw [List.filter_cons_of_neg (by simp), hkept]

/-- When a pass is over that was rolled back, the session says what it said before. -/
theorem session_release_restore (hkeys : (desk.session.overridesOf uri).keys.Nodup)
    (hfree : desk.session.isProcessing uri = false) (hkeeps : KeepsOthers uri (takeOn uri desk) between)
    (hdone : desk' = release uri (restore uri before (desk.session.overridesOf uri) between)) :
    (∀ other, desk'.session.overridesOf other = desk.session.overridesOf other) ∧
      desk'.session.processing = desk.session.processing ∧ desk'.session.saved = desk.session.saved := by
  obtain ⟨hsession, hoverrides⟩ := overridesOf_restore hkeys uri before between
  have hothers := hkeeps.session.trans hsession
  have hbegun : (takeOn uri desk).session.overrides = desk.session.overrides ∧
      (takeOn uri desk).session.saved = desk.session.saved := by
    simp [takeOn, Session.begin, hfree]
  subst hdone
  refine ⟨fun other => ?_, ?_, hothers.saved_eq.trans hbegun.2⟩
  · by_cases hother : other = uri
    · rw [hother]
      exact hoverrides
    · have hkept := hothers.overridesOf_eq other hother
      unfold Session.overridesOf at hkept ⊢
      rw [hbegun.1] at hkept
      exact hkept
  · show List.filter _ _ = _
    rw [hothers.processing_eq]
    exact processing_finish_begin hfree

/-- A pass that is rolled back leaves the store, all that the session says, and what the index finds of
other documents under names that no text on the way declares. The document is entered into the index as it
was; it is found under the path of its uri, and under the uri exactly if that is written the way the path
is, unless there is nothing to be found. -/
theorem repair_of_rollback (hnames : desk.index.names.Nodup)
    (hkeys : (desk.session.overridesOf uri).keys.Nodup) (hfree : desk.session.isProcessing uri = false)
    (hread : DocumentStore.read store uri = .ok before)
    (hrollback : (executor.repairText uri before (takeOn uri desk)).1 = .error (.rollback missing))
    (h : executor.repair uri store desk = (.ok result, store', desk')) :
    (missing ≠ [] ∧
      result = { path := uri, text := before, error := some (rollbackMessage uri missing) } ∧
      store' = store) ∧
    ((∀ other, desk'.session.overridesOf other = desk.session.overridesOf other) ∧
      desk'.session.processing = desk.session.processing ∧ desk'.session.isProcessing uri = false ∧
      desk'.session.saved = desk.session.saved) ∧
    (desk'.index.recordOf? uri = Record.ofText? (desk.index.sourceOf uri) before ↔
      IsNormal uri ∨ Record.nameOf? before = none) ∧
    (Record.nameOf? before ≠ none → desk'.index.recordOf? (Path.ofText uri).toText =
      Record.ofText? (desk.index.sourceOf uri) before) ∧
    ∀ name, Record.nameOf? before ≠ some name →
      executor.NeverDeclares uri executor.steps before (takeOn uri desk) name →
        desk.index.KeepsOthers uri name desk'.index := by
  rcases htext : executor.repairText uri before (takeOn uri desk) with ⟨outcome, between⟩
  rw [htext] at hrollback
  obtain rfl : outcome = .error (.rollback missing) := hrollback
  obtain ⟨hmissing, final, applied, hrun, -⟩ := runSteps_of_rollback htext
  rw [repair_of_free hfree, hread] at h
  rcases hhandle : executor.handle uri (desk.session.overridesOf uri) (.ok before) store
    (takeOn uri desk) with ⟨handled, left, restored⟩
  rw [hhandle] at h
  obtain ⟨rfl, rfl, rfl⟩ : handled = .ok result ∧ left = store' ∧ release uri restored = desk' := by
    simpa using h
  obtain ⟨hresult, hstore, rfl⟩ := handle_of_rollback htext hhandle
  have hkeeps := (keeps_of_runSteps [] hrun).1
  obtain ⟨hoverrides, hprocessing, hsaved⟩ := session_release_restore hkeys hfree hkeeps rfl
  have hsource : between.index.sourceOf uri = desk.index.sourceOf uri := by
    unfold Index.sourceOf
    rw [hkeeps.scanRoot_eq]
    rfl
  have hindex : (release uri (restore uri before (desk.session.overridesOf uri) between)).index =
      (between.index.upsert uri before).2 := rfl
  rw [hindex, ← hsource]
  refine ⟨⟨hmissing, hresult, hstore⟩, ⟨hoverrides, hprocessing, ?_, hsaved⟩,
    between.index.recordOf?_upsert_iff uri before, between.index.recordOf?_path_upsert uri before,
    fun name hname hnever => ?_⟩
  · unfold Session.isProcessing at hfree ⊢
    rw [hprocessing]
    exact hfree
  · exact ((keeps_of_runSteps name hrun).2 hnames hnever).trans
      (.upsert (hkeeps.nodup_names hnames) hname)

end

/-! ## A pass that renames a document and loses its text -/

deriving instance DecidableEq for RepairError

/-- A pass that gives a document another name, enters it, writes its parameters anew and then empties
it. -/
def emptyingExecutor : Executor where
  steps := [.ofFunction "rename" fun _ => declaring "B".toList, .index, .regenerateParameters,
    .ofFunction "empty" fun _ => []]
  exclusions := []
  writeChanges := true

def busyDesk (uri : Text) : Desk :=
  { bareDesk with
    index := (bareIndex.upsert "/b".toList (declaring "K".toList)).2
    session := ({} : Session).remember uri "P".toList (ParameterData.ofName "P".toList) }

def emptyingPass (uri : Text) : Except StepError RepairResult × MemoryStore × Desk :=
  emptyingExecutor.repair uri (MemoryStore.mk [(uri, declaring "A".toList)]) (busyDesk uri)

theorem repair_of_rollback_emptyingPass :
    ∃ result, (emptyingPass "/a".toList).1 = .ok result ∧ result.changed = false ∧
      result.text = declaring "A".toList ∧
      (emptyingPass "/a".toList).2.2.session.overridesOf "/a".toList =
        [("P".toList, ParameterData.ofName "P".toList)] ∧
      (emptyingPass "/a".toList).2.2.index.recordOf? "/a".toList =
        some (soleRecord "/a".toList "A".toList) := by
  have hended : (emptyingPass "/a".toList).1.toOption.isSome = true := by decide +kernel
  rcases hrun : emptyingPass "/a".toList with ⟨_ | result, store, desk⟩
  · rw [hrun] at hended
    simp [Except.toOption] at hended
  · obtain ⟨⟨-, hresult, -⟩, ⟨hoverrides, -⟩, hrecord, -⟩ :=
      @repair_of_rollback emptyingExecutor "/a".toList (declaring "A".toList) (busyDesk "/a".toList) desk
        MemoryStore _ (MemoryStore.mk [("/a".toList, declaring "A".toList)]) store result [.metadata]
        (by decide +kernel) (by decide +kernel) (by decide +kernel) rfl (by decide +kernel) hrun
    rw [hresult]
    refine ⟨_, rfl, rfl, rfl, (hoverrides _).trans (by decide +kernel), ?_⟩
    exact (hrecord.2 (.inl (by decide +kernel))).trans (by decide +kernel)

/-- If the uri is not written the way its path is, the document is not found by it after the rollback. -/
theorem recordOf?_emptyingPass_lost :
    (emptyingExecutor.repairText "./a".toList (declaring "A".toList)
        (takeOn "./a".toList (busyDesk "./a".toList))).1 = .error (.rollback [.metadata]) ∧
      (emptyingPass "./a".toList).1.toOption.map RepairResult.text = some (declaring "A".toList) ∧
      (emptyingPass "./a".toList).2.2.index.recordOf? "./a".toList = none ∧
      Record.ofText? ((busyDesk "./a".toList).index.sourceOf "./a".toList) (declaring "A".toList) ≠
        none := by
  decide +kernel

end Executor

end Scenarist
