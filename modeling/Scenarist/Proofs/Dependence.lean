import Scenarist.Proofs.Nested
import Scenarist.Proofs.Rollback

set_option autoImplicit false

/-! # What a pass depends on

A pass looks the scenarios that its document calls up in the index, and enters the document into it. For the
former it needs the identifier under each name, for the latter the place of the document that each record
was made of, since other records of the same place go. Besides, it reads the parameter data of its own
document and takes identifiers from the supply. So the outcome of a pass is the same at two desks that agree
in this, whatever its steps.

Main statements: `Index.LooksLike.upsert` (entering a document), `Executor.runSteps_congr` (the steps) and
`Executor.repair_congr` (a whole pass). -/

namespace Scenarist

open Text

/-! ## Indexes that look alike -/

/-- What passes find under a name: the identifier of the scenario and the path of its document. -/
def Index.placeOf? (index : Index) (name : Text) : Option (Option Text × Text) :=
  (index.lookup? name).map fun record => (record.uid, record.uri)

/-- Two indexes over the same directory in which passes find the same under each name. -/
structure Index.LooksLike (index index' : Index) : Prop where
  scanRoot_eq : index'.scanRoot = index.scanRoot
  nodup_names : index.names.Nodup
  nodup_names' : index'.names.Nodup
  placeOf?_eq : ∀ name, index'.placeOf? name = index.placeOf? name

namespace Index

variable {index index' : Index} {record : Record} {uri text name : Text}

theorem placeOf?_remove (hnames : index.names.Nodup) (uri name : Text) :
    (index.remove uri).2.placeOf? name = (index.placeOf? name).filter fun place => place.2 ≠ uri := by
  unfold placeOf?
  rw [lookup?_remove hnames, Option.filter_map]
  rfl

theorem placeOf?_enter (hnames : index.names.Nodup) (record : Record) (name : Text) :
    (index.enter record).2.placeOf? name =
      if name = record.name then some (record.uid, record.uri)
      else (index.placeOf? name).filter fun place => place.2 ≠ record.uri := by
  unfold placeOf?
  rw [lookup?_enter hnames]
  split
  · rfl
  · rw [Option.filter_map]
    rfl

theorem uidOf?_eq_placeOf? (index : Index) (name : Text) :
    index.uidOf? name = (index.placeOf? name).map Prod.fst := by
  unfold uidOf? placeOf?
  rw [Option.map_map]
  rfl

theorem isEmpty_records_iff : index.records.isEmpty = true ↔ ∀ name, index.placeOf? name = none := by
  unfold placeOf? lookup?
  cases hrecords : index.records with
  | nil => simp [Table.get?]
  | cons entry records =>
      refine iff_of_false (by simp) fun hnone => ?_
      have hfirst := hnone entry.1
      rw [Table.get?_cons, if_pos rfl] at hfirst
      simp at hfirst

namespace LooksLike

protected theorem refl (hnames : index.names.Nodup) : index.LooksLike index :=
  ⟨rfl, hnames, hnames, fun _ => rfl⟩

theorem sourceOf_eq (h : index.LooksLike index') (uri : Text) : index'.sourceOf uri = index.sourceOf uri := by
  unfold sourceOf
  rw [h.scanRoot_eq]

theorem uidOf?_eq (h : index.LooksLike index') (name : Text) : index'.uidOf? name = index.uidOf? name := by
  rw [uidOf?_eq_placeOf?, uidOf?_eq_placeOf?, h.placeOf?_eq]

theorem isEmpty_eq (h : index.LooksLike index') : index'.records.isEmpty = index.records.isEmpty := by
  rw [Bool.eq_iff_iff]
  calc index'.records.isEmpty = true ↔ ∀ name, index'.placeOf? name = none := isEmpty_records_iff
    _ ↔ ∀ name, index.placeOf? name = none := by simp only [h.placeOf?_eq]
    _ ↔ index.records.isEmpty = true := isEmpty_records_iff.symm

/-- Indexes that look alike still do after the same document was entered into both. -/
theorem upsert (h : index.LooksLike index') (uri text : Text) :
    (index.upsert uri text).2.LooksLike (index'.upsert uri text).2 where
  scanRoot_eq := by rw [scanRoot_upsert, scanRoot_upsert, h.scanRoot_eq]
  nodup_names := nodup_names_upsert h.nodup_names uri text
  nodup_names' := nodup_names_upsert h.nodup_names' uri text
  placeOf?_eq name := by
    have hsource := h.sourceOf_eq uri
    cases hrecord : Record.ofText? (index.sourceOf uri) text with
    | none =>
        rw [upsert_of_none hrecord, upsert_of_none (hsource ▸ hrecord), placeOf?_remove h.nodup_names,
          placeOf?_remove h.nodup_names', h.placeOf?_eq]
    | some record =>
        rw [upsert_of_some hrecord, upsert_of_some (hsource ▸ hrecord), placeOf?_enter h.nodup_names,
          placeOf?_enter h.nodup_names', h.placeOf?_eq]

end LooksLike

end Index

/-! ## Desks that are alike -/

/-- Two desks that are alike for passes over some documents. -/
structure Desk.Alike (whom : Text → Prop) (desk desk' : Desk) : Prop where
  index : desk.index.LooksLike desk'.index
  overridesOf_eq : ∀ uri, whom uri → desk'.session.overridesOf uri = desk.session.overridesOf uri
  processing_eq : desk'.session.processing = desk.session.processing
  supply_eq : desk'.supply = desk.supply

namespace Desk.Alike

variable {whom whom' : Text → Prop} {desk desk' : Desk}

protected theorem refl (whom : Text → Prop) (hnames : desk.index.names.Nodup) : desk.Alike whom desk :=
  ⟨.refl hnames, fun _ _ => rfl, rfl, rfl⟩

theorem mono (h : desk.Alike whom desk') (himp : ∀ uri, whom' uri → whom uri) : desk.Alike whom' desk' :=
  ⟨h.index, fun uri huri => h.overridesOf_eq uri (himp uri huri), h.processing_eq, h.supply_eq⟩

end Desk.Alike

/-! ## What is written anew -/

theorem resolveUids_congr {index index' : Index} (h : ∀ name, index'.uidOf? name = index.uidOf? name)
    (declared : Table Text) (names : List Text) (supply : UidSupply) :
    resolveUids index' declared names supply = resolveUids index declared names supply := by
  induction names generalizing supply with
  | nil => rfl
  | cons name names ih =>
      rw [resolveUids_cons, resolveUids_cons, ih, ih]
      unfold knownUid?
      rw [recordUid?_congr (h name)]

/-- The declared calls depend on the identifiers that the index knows. -/
theorem regenerateNested_congr {index index' : Index} (h : ∀ name, index'.uidOf? name = index.uidOf? name)
    (supply : UidSupply) (text : Text) :
    regenerateNested index' supply text = regenerateNested index supply text := by
  have hcalls : expectedCalls index' text = expectedCalls index text := expectedCalls_congr rfl h
  unfold regenerateNested
  simp only [hcalls, resolveUids_congr h]

namespace Session

variable {session session' : Session} {uri : Text}

theorem overridesOf_merge (session : Session) (uri : Text) (data : Table ParameterData) :
    (session.merge uri data).overridesOf uri = (session.overridesOf uri).putAll data := by
  unfold merge overridesOf
  rw [Table.get?_put, if_pos rfl]
  rfl

theorem overridesOf_remember (session : Session) (uri name : Text) (data : ParameterData) :
    (session.remember uri name data).overridesOf uri = (session.overridesOf uri).put name data := by
  unfold remember overridesOf
  rw [Table.get?_put, if_pos rfl]
  rfl

theorem overridesOf_clearOverrides (session : Session) (uri : Text) :
    (session.clearOverrides uri).overridesOf uri = [] := by
  unfold clearOverrides overridesOf
  rw [Table.get?_erase, if_pos rfl]
  rfl

/-- The declared parameters depend on the data that are remembered for the document. -/
theorem regenerateParameters_congr (h : session'.overridesOf uri = session.overridesOf uri)
    (text : Text) (exclusions : List Text) :
    (regenerateParameters session' uri text exclusions).1 =
        (regenerateParameters session uri text exclusions).1 ∧
      (regenerateParameters session' uri text exclusions).2.overridesOf uri =
        (regenerateParameters session uri text exclusions).2.overridesOf uri := by
  -- remembering names for the document adds the same to the same data
  have hfold : ∀ (names : List Text) {start start' : Session},
      start'.overridesOf uri = start.overridesOf uri →
      (names.foldl (fun session name => session.remember uri name (ParameterData.ofName name))
        start').overridesOf uri =
      (names.foldl (fun session name => session.remember uri name (ParameterData.ofName name))
        start).overridesOf uri := by
    intro names
    induction names with
    | nil => exact fun hstart => hstart
    | cons name names ih =>
        intro start start' hstart
        refine ih ?_
        rw [overridesOf_remember, overridesOf_remember, hstart]
  have hmerged : (session'.merge uri (Declaration.parameterData text)).overridesOf uri =
      (session.merge uri (Declaration.parameterData text)).overridesOf uri := by
    rw [overridesOf_merge, overridesOf_merge, h]
  unfold regenerateParameters
  simp only [hmerged, true_and]
  split
  · exact hfold _ hmerged
  · exact hmerged

end Session

/-! ## Steps -/

namespace Executor

variable (executor : Executor) {uri : Text} {desk desk' : Desk}

/-- What a step makes of a text, or why it fails, is the same at desks that are alike, and they still are
afterwards. -/
theorem run_congr (action : StepAction) (text : Text) (h : desk.Alike (· = uri) desk') :
    (action.run executor uri text desk').1 = (action.run executor uri text desk).1 ∧
      (action.run executor uri text desk).2.Alike (· = uri) (action.run executor uri text desk').2 := by
  cases action with
  | rewrite change => exact ⟨rfl, h⟩
  | index =>
      rw [run_index, run_index]
      cases guardScalars (Record.scalarsOf text) () with
      | error fault => exact ⟨rfl, h⟩
      | ok _ => exact ⟨rfl, h.index.upsert uri text, h.overridesOf_eq, h.processing_eq, h.supply_eq⟩
  | nested =>
      simp only [StepAction.run, h.index.isEmpty_eq, h.supply_eq,
        regenerateNested_congr h.index.uidOf?_eq]
      split
      · exact ⟨rfl, h⟩
      · cases guardScalars (Declaration.scalarsOfNestedUids text) () with
        | error fault => exact ⟨rfl, h⟩
        | ok _ => exact ⟨rfl, h.index, h.overridesOf_eq, h.processing_eq, rfl⟩
  | parameters =>
      obtain ⟨hresult, hoverrides⟩ :=
        Session.regenerateParameters_congr (h.overridesOf_eq uri rfl) text executor.exclusions
      simp only [StepAction.run]
      cases guardScalars (Declaration.scalarsOfParameterData text) () with
      | error fault => exact ⟨rfl, h⟩
      | ok _ =>
          refine ⟨congrArg (fun result => Except.ok result.text) hresult, h.index, ?_, ?_, h.supply_eq⟩
          · rintro _ rfl
            exact hoverrides
          · rw [(Session.KeepsOthers.regenerateParameters desk'.session uri text _).processing_eq,
              (Session.KeepsOthers.regenerateParameters desk.session uri text _).processing_eq]
            exact h.processing_eq

/-- So it is with steps one after the other. -/
theorem runSteps_congr (steps : List RepairStep) (text : Text) (h : desk.Alike (· = uri) desk') :
    (executor.runSteps uri steps text desk').1 = (executor.runSteps uri steps text desk).1 ∧
      (executor.runSteps uri steps text desk).2.Alike (· = uri)
        (executor.runSteps uri steps text desk').2 := by
  induction steps generalizing text desk desk' with
  | nil => exact ⟨rfl, h⟩
  | cons step steps ih =>
      obtain ⟨hresult, halike⟩ := run_congr executor step.action text h
      rcases hrun : step.action.run executor uri text desk with ⟨outcome, between⟩
      rcases hrun' : step.action.run executor uri text desk' with ⟨outcome', between'⟩
      rw [hrun, hrun'] at hresult halike
      obtain rfl : outcome' = outcome := hresult
      rw [runSteps, runSteps]
      simp only [hrun, hrun']
      cases outcome' with
      | error error => exact ⟨rfl, halike⟩
      | ok updated =>
          obtain ⟨hrest, hlast⟩ := ih updated halike
          rcases hsteps : executor.runSteps uri steps updated between with ⟨reached, last⟩
          rcases hsteps' : executor.runSteps uri steps updated between' with ⟨reached', last'⟩
          rw [hsteps, hsteps'] at hrest hlast
          obtain rfl : reached' = reached := hrest
          simp only [hsteps, hsteps']
          cases reached' with
          | error error => exact ⟨rfl, hlast⟩
          | ok result => exact ⟨rfl, hlast⟩

theorem repairText_congr (text : Text) (h : desk.Alike (· = uri) desk') :
    (executor.repairText uri text desk').1 = (executor.repairText uri text desk).1 ∧
      (executor.repairText uri text desk).2.Alike (· = uri) (executor.repairText uri text desk').2 := by
  obtain ⟨hresult, halike⟩ := runSteps_congr executor executor.steps text h
  unfold repairText
  rcases hrun : executor.runSteps uri executor.steps text desk with ⟨outcome, between⟩
  rcases hrun' : executor.runSteps uri executor.steps text desk' with ⟨outcome', between'⟩
  rw [hrun, hrun'] at hresult halike
  obtain rfl : outcome' = outcome := hresult
  cases outcome' with
  | error error => exact ⟨rfl, halike⟩
  | ok reached => exact ⟨rfl, halike⟩

/-! ## Whole passes -/

theorem alike_restore (h : desk.Alike (· = uri) desk') (before : Text) (overrides : Table ParameterData) :
    (restore uri before overrides desk).Alike (· = uri) (restore uri before overrides desk') := by
  have hcleared : (desk'.session.clearOverrides uri).overridesOf uri =
      (desk.session.clearOverrides uri).overridesOf uri := by
    rw [Session.overridesOf_clearOverrides, Session.overridesOf_clearOverrides]
  refine ⟨h.index.upsert uri before, ?_, ?_, h.supply_eq⟩
  · rintro _ rfl
    unfold restore
    dsimp only
    split
    · exact hcleared
    · rw [Session.overridesOf_merge, Session.overridesOf_merge, hcleared]
  · unfold restore
    dsimp only
    split <;> exact h.processing_eq

section

variable {σ : Type} [DocumentStore σ] {store store' : σ}

/-- Whether a store is another one with a text written under a path, or the same if there is no text. -/
def Takes (uri : Text) (written : Option Text) (store after : σ) : Prop :=
  match written with
  | none => after = store
  | some text => DocumentStore.write store uri text = .ok after

/-- What a pass makes of a text that was fetched, and what it writes, is the same at desks that are alike. -/
theorem handle_congr (overrides : Table ParameterData) (fetched : Except StoreError Text)
    (h : desk.Alike (· = uri) desk')
    (hwrite : ∀ text, (DocumentStore.write store' uri text).map (fun _ => ()) =
      (DocumentStore.write store uri text).map (fun _ => ())) :
    (executor.handle uri overrides fetched store' desk').1 =
        (executor.handle uri overrides fetched store desk).1 ∧
      (∃ written, Takes uri written store (executor.handle uri overrides fetched store desk).2.1 ∧
        Takes uri written store' (executor.handle uri overrides fetched store' desk').2.1) ∧
      (executor.handle uri overrides fetched store desk).2.2.Alike (· = uri)
        (executor.handle uri overrides fetched store' desk').2.2 := by
  cases fetched with
  | error error => exact ⟨rfl, ⟨none, rfl, rfl⟩, h⟩
  | ok before =>
      obtain ⟨hresult, halike⟩ := repairText_congr executor before h
      rcases hrun : executor.repairText uri before desk with ⟨outcome, between⟩
      rcases hrun' : executor.repairText uri before desk' with ⟨outcome', between'⟩
      rw [hrun, hrun'] at hresult halike
      obtain rfl : outcome' = outcome := hresult
      unfold handle
      simp only [hrun, hrun']
      match outcome' with
      | .error (.rollback missing) =>
          dsimp only
          cases guardScalars (Record.scalarsOf before) () with
          | error fault => exact ⟨rfl, ⟨none, rfl, rfl⟩, halike⟩
          | ok _ => exact ⟨rfl, ⟨none, rfl, rfl⟩, alike_restore halike before overrides⟩
      | .error (.step (.refused reason)) => exact ⟨rfl, ⟨none, rfl, rfl⟩, halike⟩
      | .error (.step (.reported message)) => exact ⟨rfl, ⟨none, rfl, rfl⟩, halike⟩
      | .error (.step (.unexpected kind message)) => exact ⟨rfl, ⟨none, rfl, rfl⟩, halike⟩
      | .ok result =>
          dsimp only
          by_cases hwritten : (result.changed && executor.writeChanges) = true
          · -- the stores answer the same, so either both take the text or both refuse it alike
            have hsame := hwrite result.text
            rw [if_pos hwritten, if_pos hwritten]
            rcases hto : DocumentStore.write store uri result.text with error | after <;>
              rcases hto' : DocumentStore.write store' uri result.text with error' | after' <;>
              rw [hto, hto'] at hsame
            · obtain rfl : error' = error := by simpa [Except.map] using hsame
              exact ⟨rfl, ⟨none, rfl, rfl⟩, halike⟩
            · simp [Except.map] at hsame
            · simp [Except.map] at hsame
            · exact ⟨rfl, ⟨some result.text, hto, hto'⟩, halike.index, halike.overridesOf_eq,
                halike.processing_eq, halike.supply_eq⟩
          · rw [if_neg hwritten, if_neg hwritten]
            exact ⟨rfl, ⟨none, rfl, rfl⟩, halike⟩

/-- A pass over a document that reads the same from two stores has the same outcome at desks that are alike,
if the stores answer the same when the document is written, and it writes the same. -/
theorem repair_congr (h : desk.Alike (· = uri) desk')
    (hread : DocumentStore.read store' uri = DocumentStore.read store uri)
    (hwrite : ∀ text, (DocumentStore.write store' uri text).map (fun _ => ()) =
      (DocumentStore.write store uri text).map (fun _ => ())) :
    (executor.repair uri store' desk').1 = (executor.repair uri store desk).1 ∧
      ∃ written, Takes uri written store (executor.repair uri store desk).2.1 ∧
        Takes uri written store' (executor.repair uri store' desk').2.1 := by
  have hprocessing : desk'.session.isProcessing uri = desk.session.isProcessing uri := by
    unfold Session.isProcessing
    rw [h.processing_eq]
  unfold repair Session.begin
  rw [hprocessing]
  by_cases hbusy : desk.session.isProcessing uri = true
  · rw [if_pos hbusy, if_pos hbusy]
    exact ⟨rfl, none, rfl, rfl⟩
  · rw [if_neg hbusy, if_neg hbusy, hread, h.overridesOf_eq uri rfl]
    have hbegun : Desk.Alike (· = uri)
        { desk with session := { desk.session with processing := uri :: desk.session.processing } }
        { desk' with session := { desk'.session with processing := uri :: desk'.session.processing } } :=
      ⟨h.index, h.overridesOf_eq, congrArg (uri :: ·) h.processing_eq, h.supply_eq⟩
    obtain ⟨hresult, hwritten, -⟩ := handle_congr executor (desk.session.overridesOf uri)
      (DocumentStore.read store uri) hbegun hwrite
    exact ⟨hresult, hwritten⟩

end

end Executor

end Scenarist
