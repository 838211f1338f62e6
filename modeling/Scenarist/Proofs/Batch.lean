import Scenarist.Proofs.Calls
import Scenarist.Proofs.Dependence
import Scenarist.Proofs.Frame
import Scenarist.Proofs.Index.Names

set_option autoImplicit false

/-! # Passes over many documents

Passes one after the other share an index and a session. Each enters its document, and the later ones look
up the scenarios that their documents call. If the index was made anew from documents that declare different
scenarios, all with identifiers, a pass with the default steps changes nothing that the others look up: it
enters the name, the identifier and the place that are there already. So every document comes out as if it
were the only one, whatever the order.

Records of documents at the same place drive each other out, so this needs that no document of a batch is
also stored under another spelling of its path.

Main statements: `Executor.alike_repair` (what one pass leaves), `Executor.reached_repairAll` (passes one
after the other) and `Executor.repairAll_perm` (the same documents in another order). -/

namespace Scenarist

open Text

/-! ## Stores -/

/-- Whether documents that are written under some paths are read back and leave those under the others. -/
structure DocumentStore.KeepsApart (σ : Type) [DocumentStore σ] (among : Text → Prop) : Prop where
  read_write : ∀ {store after : σ} {uri text : Text}, among uri → write store uri text = .ok after →
    ∀ other, among other → read after other = if other = uri then .ok text else read store other
  write_write : ∀ {store after : σ} {uri text : Text}, among uri → write store uri text = .ok after →
    ∀ other, among other → other ≠ uri → ∀ others,
      (write after other others).map (fun _ => ()) = (write store other others).map (fun _ => ())

theorem MemoryStore.keepsApart (among : Text → Prop) : DocumentStore.KeepsApart MemoryStore among where
  read_write := by
    rintro store after uri text - hwrite other -
    obtain rfl : store.write uri text = after := Except.ok.inj hwrite
    show MemoryStore.read _ other = _
    unfold MemoryStore.read MemoryStore.write
    rw [Table.get?_put]
    by_cases hother : other = uri
    · rw [if_pos hother, if_pos hother]
    · rw [if_neg hother, if_neg hother]
      rfl
  write_write _ _ _ _ _ _ := rfl

namespace Executor

section

variable {σ : Type} [DocumentStore σ] {among : Text → Prop} {store after : σ} {uri path : Text}
  {written : Option Text}

theorem Takes.read_eq (h : Takes uri written store after) (hstore : DocumentStore.KeepsApart σ among)
    (huri : among uri) (hpath : among path) :
    DocumentStore.read after path =
      if path = uri then (written.map .ok).getD (DocumentStore.read store uri)
      else DocumentStore.read store path := by
  cases written with
  | none =>
      obtain rfl : after = store := h
      split
      · next heq => rw [heq]; rfl
      · rfl
  | some text => exact hstore.read_write huri h path hpath

theorem Takes.write_eq (h : Takes uri written store after) (hstore : DocumentStore.KeepsApart σ among)
    (huri : among uri) (hpath : among path) (hne : path ≠ uri) (text : Text) :
    (DocumentStore.write after path text).map (fun _ => ()) =
      (DocumentStore.write store path text).map (fun _ => ()) := by
  cases written with
  | none =>
      obtain rfl : after = store := h
      rfl
  | some text => exact hstore.write_write huri h path hpath hne _

end

end Executor

/-! ## What a pass leaves -/

def Index.IsIdentified (index : Index) : Prop :=
  ∀ name place, index.placeOf? name = some place → ∃ uid, place.1 = some uid ∧ uid ≠ []

/-- Whether an index knows a document as it is: it holds the scenario that the document declares, and nothing
else from the same place. -/
def Index.Knows (index : Index) (uri text : Text) : Prop :=
  ∃ own, Record.ofText? (index.sourceOf uri) text = some own ∧
    index.placeOf? own.name = some (own.uid, own.uri) ∧
    ∀ name place, index.placeOf? name = some place → place.2 = own.uri → name = own.name

/-- Entering a document that an index knows already, with its layout put in order, leaves what passes
find. -/
theorem Index.LooksLike.upsert_laidOut {start index : Index} (h : start.LooksLike index) {uri text : Text}
    (hknows : start.Knows uri text) (config : RepairConfig) :
    start.LooksLike (index.upsert uri (config.laidOut text)).2 := by
  obtain ⟨own, hown, hplace, hsole⟩ := hknows
  have hsource := h.sourceOf_eq uri
  have hidentity := config.identity_laidOut (index.sourceOf uri) text
  rw [hsource, hown, Option.map_some, ← hsource] at hidentity
  obtain ⟨record, hrecord, hsame⟩ := Option.map_eq_some_iff.1 hidentity
  have hname : record.name = own.name := congrArg Identity.name hsame
  have huid : record.uid = own.uid := congrArg Identity.uid hsame
  have huri : record.uri = own.uri := calc
    record.uri = (index.sourceOf uri).uri := uri_of_ofText? hrecord
    _ = (start.sourceOf uri).uri := congrArg Source.uri hsource
    _ = own.uri := (uri_of_ofText? hown).symm
  refine ⟨(scanRoot_upsert _ _ _).trans h.scanRoot_eq, h.nodup_names,
    nodup_names_upsert h.nodup_names' _ _, fun name => ?_⟩
  rw [upsert_of_some hrecord, placeOf?_enter h.nodup_names', hname, huid, huri, h.placeOf?_eq]
  split
  · next heq => rw [heq, hplace]
  · next hne =>
    -- entering a record drives out the others from its place, but there are none
    refine filter_eq_self_of_forall fun place hfound => ?_
    simpa using fun heq => hne (hsole name place hfound heq)

/-- No identifier is asked for if every scenario has one. -/
theorem supply_regenerateNested_of_isIdentified {index : Index} (h : index.IsIdentified)
    (supply : UidSupply) (text : Text) : (regenerateNested index supply text).2 = supply := by
  rw [supply_regenerateNested, (resolveUids_unknown ..).1]
  have hnone : ((expectedCalls index text).filter fun name =>
      (knownUid? index (Declaration.nestedUids text) name).isNone) = [] := by
    refine List.filter_eq_nil_iff.2 fun name hname => ?_
    obtain ⟨-, record, hrecord⟩ := mem_expectedCalls hname
    obtain ⟨uid, huid, hne⟩ := h name (record.uid, record.uri) (by rw [Index.placeOf?, hrecord]; rfl)
    have hknown : recordUid? index name = some uid := by
      have huid' : record.uid = some uid := huid
      unfold recordUid?
      rw [hrecord, Option.bind_some, huid', Option.filter_some, if_pos (by simpa using hne)]
    unfold knownUid?
    rw [hknown]
    simp
  rw [hnone]
  rfl

namespace Executor

variable {executor : Executor} {uri : Text} {start desk : Desk} {whom : Text → Prop}

/-- Writing the declarations anew leaves what passes over other documents depend on. -/
theorem alike_run {action : StepAction} (haction : action = .nested ∨ action = .parameters)
    (h : start.Alike whom desk) (hidentified : start.index.IsIdentified) (hwhom : ¬ whom uri) (text : Text) :
    start.Alike whom (action.run executor uri text desk).2 := by
  rcases haction with rfl | rfl
  -- the supply is asked only for calls that have no identifier
  · have hidentified' : desk.index.IsIdentified :=
      fun name place hplace => hidentified name place ((h.index.placeOf?_eq name).symm.trans hplace)
    simp only [StepAction.run]
    split
    · exact h
    · cases guardScalars (Declaration.scalarsOfNestedUids text) () with
      | error fault => exact h
      | ok _ => exact ⟨h.index, h.overridesOf_eq, h.processing_eq,
          (supply_regenerateNested_of_isIdentified hidentified' _ _).trans h.supply_eq⟩
  · have hkeeps := Session.KeepsOthers.regenerateParameters desk.session uri text executor.exclusions
    simp only [StepAction.run]
    cases guardScalars (Declaration.scalarsOfParameterData text) () with
    | error fault => exact h
    | ok _ =>
        refine ⟨h.index, fun other hother => ?_, hkeeps.processing_eq.trans h.processing_eq, h.supply_eq⟩
        have hne : other ≠ uri := fun heq => hwhom (heq ▸ hother)
        exact (hkeeps.overridesOf_eq other hne).trans (h.overridesOf_eq other hother)

theorem alike_runSteps_of_back {steps : List RepairStep}
    (hsteps : ∀ step ∈ steps, step.action = .nested ∨ step.action = .parameters)
    (h : start.Alike whom desk) (hidentified : start.index.IsIdentified) (hwhom : ¬ whom uri) (text : Text) :
    start.Alike whom (executor.runSteps uri steps text desk).2 := by
  have hkeeps : ∀ step ∈ steps, ∀ text desk, start.Alike whom desk →
      start.Alike whom (step.action.run executor uri text desk).2 :=
    fun step hstep text _ halike => alike_run (hsteps step hstep) halike hidentified hwhom text
  exact @runSteps_relates executor uri (fun first second => start.Alike whom first → start.Alike whom second)
    (fun _ => id) (fun hfirst hsecond halike => hsecond (hfirst halike)) steps hkeeps text desk h

/-- A step that changes the text by a function leaves the desk to the steps behind it. -/
theorem snd_runSteps_ofFunction (flag : Bool) {name : String} {change : Text → Text}
    (steps : List RepairStep) (text : Text) :
    (executor.runSteps uri ((if flag then [RepairStep.ofFunction name change] else []) ++ steps) text desk).2 =
      (executor.runSteps uri steps (if flag then change text else text) desk).2 := by
  cases flag with
  | false => rfl
  | true =>
      rw [if_pos rfl, List.singleton_append, snd_runSteps_cons]
      rfl

/-- The default steps over a document that the index knows leave what passes over other documents depend
on, whether they come to a result or not. -/
theorem alike_runSteps_ofConfig (config : RepairConfig) {text : Text} (h : start.Alike whom desk)
    (hidentified : start.index.IsIdentified) (hknows : start.index.Knows uri text) (hwhom : ¬ whom uri) :
    start.Alike whom (executor.runSteps uri (RepairStep.ofConfig config) text desk).2 := by
  obtain ⟨back, hsteps, hback⟩ := RepairStep.exists_ofConfig_eq config
  have hentered : start.Alike whom (entered uri (config.laidOut text) desk) :=
    ⟨h.index.upsert_laidOut hknows config, h.overridesOf_eq, h.processing_eq, h.supply_eq⟩
  have hrest : start.Alike whom (executor.runSteps uri back (config.laidOut text)
      (entered uri (config.laidOut text) desk)).2 :=
    alike_runSteps_of_back hback hentered hidentified hwhom _
  rw [hsteps, RepairStep.normalizeTabs, RepairStep.alignTables, RepairStep.alignAssignments,
    snd_runSteps_ofFunction, snd_runSteps_ofFunction, snd_runSteps_ofFunction]
  show start.Alike whom (executor.runSteps uri (RepairStep.index :: back) (config.laidOut text) desk).2
  have haction : RepairStep.index.action = .index := rfl
  rw [snd_runSteps_cons, haction, run_index]
  cases guardScalars (Record.scalarsOf (config.laidOut text)) () with
  | error fault => exact h
  | ok _ => exact hrest

section

variable {σ : Type} [DocumentStore σ] {store : σ}

theorem alike_handle (config : RepairConfig) (exclusions : List Text) (overrides : Table ParameterData)
    {fetched : Except StoreError Text} (h : start.Alike whom desk) (hidentified : start.index.IsIdentified)
    (hknows : ∀ text, fetched = .ok text → start.index.Knows uri text) (hwhom : ¬ whom uri) :
    start.Alike whom ((config.executor exclusions).handle uri overrides fetched store desk).2.2 := by
  have hsteps : ∀ {before outcome between}, fetched = .ok before →
      (config.executor exclusions).repairText uri before desk = (outcome, between) →
        start.Alike whom between := by
    intro before outcome between hfetched htext
    have hdesk : ((config.executor exclusions).repairText uri before desk).2 = between := by rw [htext]
    rw [← hdesk, snd_repairText]
    exact alike_runSteps_ofConfig config h hidentified (hknows before hfetched) hwhom
  generalize hended : (config.executor exclusions).handle uri overrides fetched store desk = ended
  cases ends_of_handle hended with
  | unread error => exact h
  | rolledBack htext | unrestored htext =>
      -- the default steps remove no section
      exact absurd (congrArg Prod.fst htext)
        (repairText_ne_rollback (RepairStep.keepsSections_ofConfig config) _)
  | refused htext | reported htext | raised htext | unwritten htext | kept htext => exact hsteps rfl htext
  | written htext =>
      have hkept := hsteps rfl htext
      exact ⟨hkept.index, hkept.overridesOf_eq, hkept.processing_eq, hkept.supply_eq⟩

/-- A pass with the default steps over a document that the index knows leaves what passes over other
documents depend on. -/
theorem alike_repair (config : RepairConfig) (exclusions : List Text) (h : start.Alike whom desk)
    (hidentified : start.index.IsIdentified)
    (hknows : ∀ text, DocumentStore.read store uri = .ok text → start.index.Knows uri text)
    (hwhom : ¬ whom uri) :
    start.Alike whom ((config.executor exclusions).repair uri store desk).2.2 := by
  by_cases hfree : desk.session.isProcessing uri = false
  · have hfree' : start.session.isProcessing uri = false := by
      unfold Session.isProcessing at hfree ⊢
      rwa [← h.processing_eq]
    -- both begin the pass, go through it alike, and end it
    have hbegun : (takeOn uri start).Alike whom (takeOn uri desk) := by
      unfold takeOn Session.begin
      simp only [hfree, hfree', Bool.false_eq_true, if_false]
      exact ⟨h.index, h.overridesOf_eq, congrArg (uri :: ·) h.processing_eq, h.supply_eq⟩
    have hdone : (takeOn uri start).Alike whom ((config.executor exclusions).handle uri
        (desk.session.overridesOf uri) (DocumentStore.read store uri) store (takeOn uri desk)).2.2 :=
      alike_handle config exclusions _ hbegun hidentified hknows hwhom
    rw [repair_of_free hfree]
    refine ⟨hdone.index, fun other hother => ?_, ?_, hdone.supply_eq⟩
    · refine (hdone.overridesOf_eq other hother).trans ?_
      unfold takeOn Session.begin
      simp only [hfree', Bool.false_eq_true, if_false]
      rfl
    · refine Eq.trans ?_ (processing_finish_begin hfree')
      exact congrArg (List.filter (· ≠ uri)) hdone.processing_eq
  · have hbusy : desk.session.isProcessing uri = true := by simpa using hfree
    unfold repair Session.begin
    rw [if_pos hbusy]
    exact h

/-! ## Passes one after the other -/

/-- Where passes over some documents have led from a store and a desk: each of the documents has come out as if
the pass over it had been the only one, and what passes over the other documents depend on is as it was. -/
structure Reached (executor : Executor) (among : Text → Prop) (origin : σ) (start : Desk) (done : List Text)
    (store : σ) (desk : Desk) : Prop where
  alike : start.Alike (· ∉ done) desk
  read_eq : ∀ path, among path → DocumentStore.read store path =
    if path ∈ done then DocumentStore.read (executor.repair path origin start).2.1 path
    else DocumentStore.read origin path
  write_eq : ∀ path, among path → path ∉ done → ∀ text,
    (DocumentStore.write store path text).map (fun _ => ()) =
      (DocumentStore.write origin path text).map (fun _ => ())

variable {among : Text → Prop} {origin : σ} {done : List Text} {config : RepairConfig}
  {exclusions : List Text}

theorem Reached.nil (executor : Executor) (among : Text → Prop) (origin : σ)
    (hnames : start.index.names.Nodup) : Reached executor among origin start [] origin start where
  alike := .refl _ hnames
  read_eq _ _ := by rw [if_neg List.not_mem_nil]
  write_eq _ _ _ _ := rfl

/-- One more pass has the outcome that it would have had alone. -/
theorem Reached.repair (hstore : DocumentStore.KeepsApart σ among)
    (h : Reached (config.executor exclusions) among origin start done store desk)
    (hidentified : start.index.IsIdentified)
    (hknows : ∀ text, DocumentStore.read origin uri = .ok text → start.index.Knows uri text)
    (huri : among uri) (hnew : uri ∉ done) :
    ((config.executor exclusions).repair uri store desk).1 =
        ((config.executor exclusions).repair uri origin start).1 ∧
      Reached (config.executor exclusions) among origin start (done ++ [uri])
        ((config.executor exclusions).repair uri store desk).2.1
        ((config.executor exclusions).repair uri store desk).2.2 := by
  have hread : DocumentStore.read store uri = DocumentStore.read origin uri := by
    rw [h.read_eq uri huri, if_neg hnew]
  -- of what the passes before have left, this one depends on its own document alone
  obtain ⟨hresult, written, halone, htaken⟩ := repair_congr (config.executor exclusions)
    (h.alike.mono fun other (heq : other = uri) => heq ▸ hnew) hread (h.write_eq uri huri hnew)
  refine ⟨hresult, ?_, fun path hpath => ?_, fun path hpath hother text => ?_⟩
  · refine alike_repair config exclusions ?_ hidentified (fun text htext => hknows text (hread ▸ htext)) ?_
    · exact h.alike.mono fun other hother hmem => hother (List.mem_append_left _ hmem)
    · simp
  · rw [htaken.read_eq hstore huri hpath]
    by_cases hsame : path = uri
    · subst hsame
      rw [if_pos rfl, if_pos (by simp), halone.read_eq hstore huri huri, if_pos rfl, hread]
    · rw [if_neg hsame, h.read_eq path hpath]
      simp [hsame]
  · obtain ⟨hbefore, hne⟩ : path ∉ done ∧ path ≠ uri := by simpa [not_or] using hother
    rw [htaken.write_eq hstore huri hpath hne, h.write_eq path hpath hbefore]

/-- Passes over different documents that the index knows: each has the outcome that it would have had
alone. -/
theorem reached_repairAll (hstore : DocumentStore.KeepsApart σ among)
    (h : Reached (config.executor exclusions) among origin start done store desk)
    (hidentified : start.index.IsIdentified) {uris : List Text}
    (hknows : ∀ uri ∈ uris, ∀ text, DocumentStore.read origin uri = .ok text → start.index.Knows uri text)
    (hamong : ∀ uri ∈ uris, among uri) (hnodup : (done ++ uris).Nodup) (batch : BatchResult) :
    ((config.executor exclusions).repairAll uris batch store desk).1 =
        uris.foldl (fun batch uri =>
          batch.add uri ((config.executor exclusions).repair uri origin start).1) batch ∧
      Reached (config.executor exclusions) among origin start (done ++ uris)
        ((config.executor exclusions).repairAll uris batch store desk).2.1
        ((config.executor exclusions).repairAll uris batch store desk).2.2 := by
  induction uris generalizing done store desk batch with
  | nil => exact ⟨rfl, by rwa [List.append_nil]⟩
  | cons uri uris ih =>
      have hnew : uri ∉ done := fun hmem =>
        (List.nodup_append.1 hnodup).2.2 uri hmem uri List.mem_cons_self rfl
      obtain ⟨hresult, hreached⟩ := h.repair hstore hidentified (hknows uri List.mem_cons_self)
        (hamong uri List.mem_cons_self) hnew
      obtain ⟨hbatch, hlast⟩ := ih hreached (fun other hother => hknows other (List.mem_cons_of_mem _ hother))
        (fun other hother => hamong other (List.mem_cons_of_mem _ hother)) (by simpa using hnodup)
        (batch.add uri ((config.executor exclusions).repair uri origin start).1)
      rw [← hresult] at hbatch hlast
      rw [List.append_assoc, List.singleton_append] at hlast
      refine ⟨?_, hlast⟩
      rw [List.foldl_cons, ← hresult]
      exact hbatch

end

end Executor

/-! ## Outcomes in another order -/

/-- Whether two batches have the same outcomes, in whatever orders. -/
structure BatchResult.SameOutcomes (batch other : BatchResult) : Prop where
  changed : batch.changed.Perm other.changed
  unchanged : batch.unchanged.Perm other.unchanged
  skipped : batch.skipped.Perm other.skipped
  failures : batch.failures.Perm other.failures

namespace BatchResult

variable {batch other third : BatchResult}

def append (batch other : BatchResult) : BatchResult where
  changed := batch.changed ++ other.changed
  unchanged := batch.unchanged ++ other.unchanged
  skipped := batch.skipped ++ other.skipped
  failures := batch.failures ++ other.failures

/-- One more outcome goes to the end of its list. -/
theorem add_eq_append (batch : BatchResult) (uri : Text) (outcome : Except StepError RepairResult) :
    batch.add uri outcome = batch.append (({} : BatchResult).add uri outcome) := by
  match outcome with
  | .error (.refused _) => simp [add, append]
  | .error (.reported _) => simp [add, append]
  | .error (.unexpected _ _) => simp [add, append]
  | .ok result =>
      unfold add
      dsimp only
      split
      · simp [append]
      · split
        · simp [append]
        · split <;> simp [append]

namespace SameOutcomes

protected theorem refl (batch : BatchResult) : batch.SameOutcomes batch := ⟨.refl _, .refl _, .refl _, .refl _⟩

protected theorem trans (h : batch.SameOutcomes other) (h' : other.SameOutcomes third) :
    batch.SameOutcomes third :=
  ⟨h.changed.trans h'.changed, h.unchanged.trans h'.unchanged, h.skipped.trans h'.skipped,
    h.failures.trans h'.failures⟩

theorem add (h : batch.SameOutcomes other) (uri : Text) (outcome : Except StepError RepairResult) :
    (batch.add uri outcome).SameOutcomes (other.add uri outcome) := by
  rw [add_eq_append, add_eq_append other]
  exact ⟨h.changed.append_right _, h.unchanged.append_right _, h.skipped.append_right _,
    h.failures.append_right _⟩

theorem add_add (batch : BatchResult) (uri uri' : Text) (outcome outcome' : Except StepError RepairResult) :
    ((batch.add uri outcome).add uri' outcome').SameOutcomes
      ((batch.add uri' outcome').add uri outcome) := by
  rw [add_eq_append (batch.add uri outcome), add_eq_append (batch.add uri' outcome'),
    add_eq_append batch uri, add_eq_append batch uri']
  have hswap : ∀ {α : Type} (xs ys zs : List α), (xs ++ ys ++ zs).Perm (xs ++ zs ++ ys) := by
    intro α xs ys zs
    rw [List.append_assoc, List.append_assoc]
    exact List.perm_append_comm.append_left xs
  exact ⟨hswap _ _ _, hswap _ _ _, hswap _ _ _, hswap _ _ _⟩

theorem foldl_add (outcomeOf : Text → Except StepError RepairResult) (uris : List Text)
    (h : batch.SameOutcomes other) :
    (uris.foldl (fun batch uri => batch.add uri (outcomeOf uri)) batch).SameOutcomes
      (uris.foldl (fun batch uri => batch.add uri (outcomeOf uri)) other) := by
  induction uris generalizing batch other with
  | nil => exact h
  | cons uri uris ih => exact ih (h.add uri (outcomeOf uri))

/-- Outcomes that are collected in another order are the same. -/
theorem foldl_add_perm (outcomeOf : Text → Except StepError RepairResult) {uris uris' : List Text}
    (h : uris.Perm uris') (batch : BatchResult) :
    (uris.foldl (fun batch uri => batch.add uri (outcomeOf uri)) batch).SameOutcomes
      (uris'.foldl (fun batch uri => batch.add uri (outcomeOf uri)) batch) := by
  induction h generalizing batch with
  | nil => exact .refl _
  | cons uri _ ih => exact ih _
  | swap uri uri' uris =>
      exact foldl_add outcomeOf uris (add_add batch uri' uri (outcomeOf uri') (outcomeOf uri))
  | trans _ _ ih ih' => exact (ih batch).trans (ih' batch)

end SameOutcomes

end BatchResult

/-! ## Documents that declare different scenarios -/

section

variable {σ : Type} [DocumentStore σ]

/-- The name that a stored document declares, if it can be read. -/
def declaredIn? (store : σ) (uri : Text) : Option Text :=
  (DocumentStore.read store uri).toOption.bind Record.nameOf?

/-- Whether an index was made anew from exactly the documents that a store has under some paths, which all
declare different scenarios, and every record has an identifier. -/
structure Index.IsFreshOver (index : Index) (store : σ) (among : Text → Prop) (files : List Text) : Prop where
  rebuilt : ∃ earlier : Index,
    earlier.rebuild (files.map fun uri => (uri, DocumentStore.read store uri)) = .ok index
  declares : ∀ uri ∈ files, declaredIn? store uri ≠ none
  differ : (files.map (declaredIn? store)).Nodup
  others : ∀ uri, among uri → uri ∉ files → (DocumentStore.read store uri).isOk = false
  identified : ∀ record ∈ index.allRecords, record.uid ≠ none

namespace Index.IsFreshOver

variable {index : Index} {store : σ} {among : Text → Prop} {files : List Text} {uri name : Text}
  {record : Record}

theorem nodup_names (h : index.IsFreshOver store among files) : index.names.Nodup := by
  obtain ⟨earlier, hrebuilt⟩ := h.rebuilt
  unfold names
  rw [(rebuild_eq_ok hrebuilt).1]
  exact nodup_keys_recordsOf _ _

/-- A document that declares the name of a record is the one that the record was made of. -/
theorem declaredIn?_eq (h : recordOfFile? index.sourceOf (uri, DocumentStore.read store uri) = some record) :
    declaredIn? store uri = some record.name := by
  obtain ⟨text, htext, hrecord⟩ := Option.bind_eq_some_iff.1 h
  unfold declaredIn?
  rw [htext, Option.bind_some, ← Record.name_ofText? (index.sourceOf uri), hrecord]
  rfl

/-- Under a name stands the record of the document that declares it. -/
theorem lookup?_eq_some_iff (h : index.IsFreshOver store among files) :
    index.lookup? name = some record ↔
      ∃ uri ∈ files, recordOfFile? index.sourceOf (uri, DocumentStore.read store uri) = some record ∧
        record.name = name := by
  obtain ⟨earlier, hrebuilt⟩ := h.rebuilt
  obtain ⟨hrecords, hroot, -⟩ := rebuild_eq_ok hrebuilt
  rw [lookup?, hrecords, ← Chronicle.sourceOf_congr hroot, get?_recordsOf_eq_some_iff]
  constructor
  · rintro ⟨before, file, after, hsplit, hfound, hname, -⟩
    have hfile : file ∈ files.map fun uri => (uri, DocumentStore.read store uri) := by simp [hsplit]
    obtain ⟨uri, huri, rfl⟩ := List.mem_map.1 hfile
    exact ⟨uri, huri, hfound, hname⟩
  · rintro ⟨uri, huri, hfound, hname⟩
    obtain ⟨before, after, rfl⟩ := List.append_of_mem huri
    refine ⟨before.map fun uri => (uri, DocumentStore.read store uri), (uri, DocumentStore.read store uri),
      after.map fun uri => (uri, DocumentStore.read store uri), by simp, hfound, hname, ?_⟩
    intro other hother found hrecord hsame
    obtain ⟨later, hlater, rfl⟩ := List.mem_map.1 hother
    -- a later document with the same name would declare a scenario twice
    have hdiffer := h.differ
    rw [List.map_append, List.map_cons] at hdiffer
    have hnotin := (List.nodup_cons.1 (List.nodup_append.1 hdiffer).2.1).1
    refine hnotin (List.mem_map.2 ⟨later, hlater, ?_⟩)
    rw [declaredIn?_eq hrecord, declaredIn?_eq hfound, hsame, hname]

theorem isIdentified (h : index.IsFreshOver store among files) : index.IsIdentified := by
  intro name place hplace
  obtain ⟨record, hrecord, rfl⟩ := Option.map_eq_some_iff.1 hplace
  obtain ⟨uri, -, hfound, -⟩ := h.lookup?_eq_some_iff.1 hrecord
  obtain ⟨text, -, htext⟩ := Option.bind_eq_some_iff.1 hfound
  have hmem : record ∈ index.allRecords :=
    List.mem_map_of_mem (f := Prod.snd) (Table.mem_of_get?_eq_some hrecord)
  obtain ⟨uid, huid⟩ := Option.ne_none_iff_exists'.1 (h.identified record hmem)
  exact ⟨uid, huid, (Record.strip_uid htext huid).2⟩

/-- The index knows a document that is not stored under another spelling of its path as well. -/
theorem knows (h : index.IsFreshOver store among files) {text : Text} (huri : among uri)
    (hread : DocumentStore.read store uri = .ok text)
    (hsole : uri ∈ files → ∀ other ∈ files,
      (Path.ofText other).toText = (Path.ofText uri).toText → other = uri) : index.Knows uri text := by
  have hmem : uri ∈ files := by
    by_contra hnot
    have hunread := h.others uri huri hnot
    rw [hread] at hunread
    exact Bool.noConfusion hunread
  obtain ⟨name, hname⟩ := Option.ne_none_iff_exists'.1 (h.declares uri hmem)
  unfold declaredIn? at hname
  rw [hread] at hname
  have hnamed : (Record.ofText? (index.sourceOf uri) text).map Record.name = some name :=
    (Record.name_ofText? _ _).trans hname
  obtain ⟨own, hown, -⟩ := Option.map_eq_some_iff.1 hnamed
  have hfile : recordOfFile? index.sourceOf (uri, DocumentStore.read store uri) = some own := by
    unfold recordOfFile?
    rw [hread]
    exact hown
  refine ⟨own, hown, ?_, fun other place hplace hsame => ?_⟩
  · rw [placeOf?, h.lookup?_eq_some_iff.2 ⟨uri, hmem, hfile, rfl⟩]
    rfl
  · obtain ⟨record, hrecord, rfl⟩ := Option.map_eq_some_iff.1 hplace
    obtain ⟨file, hfile', hfound, hrecordname⟩ := h.lookup?_eq_some_iff.1 hrecord
    obtain ⟨found, -, hfoundtext⟩ := Option.bind_eq_some_iff.1 hfound
    have hpath : (Path.ofText file).toText = (Path.ofText uri).toText := calc
      (Path.ofText file).toText = record.uri := (uri_of_ofText? hfoundtext).symm
      _ = own.uri := hsame
      _ = (Path.ofText uri).toText := uri_of_ofText? hown
    obtain rfl := hsole hmem file hfile' hpath
    rw [hfile] at hfound
    rw [← hrecordname, Option.some.inj hfound]

end Index.IsFreshOver

namespace Executor

/-- If the index was made anew from the documents of the store, which declare different scenarios with
identifiers, and no document of a batch is also stored under another spelling of its path, then the order of
the batch has no influence: every document reads the same afterwards, and has the same outcome. -/
theorem repairAll_perm {among : Text → Prop} (hstore : DocumentStore.KeepsApart σ among) {store : σ}
    {files : List Text} {desk : Desk} (hfresh : desk.index.IsFreshOver store among files)
    {uris uris' : List Text} (hperm : uris.Perm uris') (hnodup : uris.Nodup) (hamong : ∀ uri ∈ uris, among uri)
    (hsole : ∀ uri ∈ uris, uri ∈ files → ∀ other ∈ files,
      (Path.ofText other).toText = (Path.ofText uri).toText → other = uri)
    (config : RepairConfig) (exclusions : List Text) :
    let batch := (config.executor exclusions).repairAll uris {} store desk
    let batch' := (config.executor exclusions).repairAll uris' {} store desk
    (∀ path, among path → DocumentStore.read batch.2.1 path = DocumentStore.read batch'.2.1 path) ∧
      batch.1.SameOutcomes batch'.1 := by
  have hknows : ∀ uri ∈ uris, ∀ text, DocumentStore.read store uri = .ok text → desk.index.Knows uri text :=
    fun uri huri text hread => hfresh.knows (hamong uri huri) hread (hsole uri huri)
  have hstart := Reached.nil (config.executor exclusions) among store hfresh.nodup_names
  obtain ⟨hbatch, hreached⟩ := reached_repairAll hstore hstart hfresh.isIdentified hknows hamong hnodup {}
  obtain ⟨hbatch', hreached'⟩ := reached_repairAll hstore hstart hfresh.isIdentified
    (fun uri huri => hknows uri (hperm.mem_iff.2 huri)) (fun uri huri => hamong uri (hperm.mem_iff.2 huri))
    (hperm.nodup_iff.1 hnodup) {}
  refine ⟨fun path hpath => ?_, ?_⟩
  · rw [hreached.read_eq path hpath, hreached'.read_eq path hpath]
    simp only [List.nil_append, hperm.mem_iff]
  · -- both collect the outcomes that the passes have alone
    rw [hbatch, hbatch']
    exact BatchResult.SameOutcomes.foldl_add_perm _ hperm {}

end Executor

end

/-! ## A scenario that calls two others -/

/-- A store with two scenarios, the second of them under this path, and one that calls both. -/
def threeFiles (second : String) : MemoryStore :=
  ⟨[("/a".toList, namingDocument "A".toList "u-A".toList),
    (second.toList, namingDocument "B".toList "u-B".toList),
    ("/c".toList, unlines [namingDocument "C".toList "u-C".toList, "ВложенныеСценарии:".toList,
      "ТекстСценария: |".toList, "    И A".toList, "    И B".toList, []])]⟩

/-- A desk whose index was made anew from all documents of a store. -/
def deskOver (store : MemoryStore) : Desk :=
  { Executor.bareDesk with
    index := (bareIndex.rebuild (store.readAll store.files.keys)).toOption.getD bareIndex }

theorem isFreshOver_deskOver {store : MemoryStore}
    (hrebuilt : (bareIndex.rebuild (store.readAll store.files.keys)).isOk = true)
    (hdeclares : ∀ uri ∈ store.files.keys, declaredIn? store uri ≠ none)
    (hdiffer : (store.files.keys.map (declaredIn? store)).Nodup)
    (hidentified : ∀ record ∈ (deskOver store).index.allRecords, record.uid ≠ none) :
    (deskOver store).index.IsFreshOver store (fun _ => True) store.files.keys where
  rebuilt := by
    refine ⟨bareIndex, ?_⟩
    show bareIndex.rebuild (store.readAll store.files.keys) = _
    unfold deskOver
    cases hindex : bareIndex.rebuild (store.readAll store.files.keys) with
    | error fault => simp [hindex, Except.isOk, Except.toBool] at hrebuilt
    | ok index => rfl
  declares := hdeclares
  differ := hdiffer
  others uri _ hnot := by
    cases hread : DocumentStore.read store uri with
    | error error => rfl
    | ok text => exact absurd (MemoryStore.mem_keys_of_read hread) hnot
  identified := hidentified

def passesOver (second : String) (uris : List Text) : BatchResult × MemoryStore × Desk :=
  (RepairConfig.executor {} []).repairAll uris {} (threeFiles second) (deskOver (threeFiles second))

def callerFirst : List Text := ["/c".toList, "/a".toList]

def callerLast : List Text := ["/a".toList, "/c".toList]

namespace Executor

theorem repairAll_perm_threeFiles :
    (∀ path, DocumentStore.read (passesOver "/b" callerFirst).2.1 path =
        DocumentStore.read (passesOver "/b" callerLast).2.1 path) ∧
      (passesOver "/b" callerFirst).1.SameOutcomes (passesOver "/b" callerLast).1 ∧
      (passesOver "/b" callerFirst).1.changed = ["/c".toList] := by
  have hfresh : (deskOver (threeFiles "/b")).index.IsFreshOver (threeFiles "/b") (fun _ => True)
      (threeFiles "/b").files.keys :=
    isFreshOver_deskOver (by decide +kernel) (by decide +kernel) (by decide +kernel) (by decide +kernel)
  have hperm : callerFirst.Perm callerLast := .swap _ _ []
  obtain ⟨hreads, houtcomes⟩ :=
    @repairAll_perm MemoryStore _ _ (MemoryStore.keepsApart _) (threeFiles "/b") _ (deskOver (threeFiles "/b"))
      hfresh _ _ hperm (by decide) (fun _ _ => trivial) (by decide +kernel) {} []
  refine ⟨?_, houtcomes, by decide +kernel⟩
  unfold passesOver
  exact fun path => hreads path trivial

/-- Stored under another spelling of the path of the first scenario, the second one is driven out when that is
entered, and a caller that comes later declares only one call. -/
theorem repairAll_perm_respelled :
    (deskOver (threeFiles "/./a")).index.IsFreshOver (threeFiles "/./a") (fun _ => True)
        (threeFiles "/./a").files.keys ∧
      callerFirst.Perm callerLast ∧ callerFirst.Nodup ∧
      DocumentStore.read (passesOver "/./a" callerFirst).2.1 "/c".toList ≠
        DocumentStore.read (passesOver "/./a" callerLast).2.1 "/c".toList :=
  ⟨isFreshOver_deskOver (by decide +kernel) (by decide +kernel) (by decide +kernel) (by decide +kernel),
    .swap _ _ [], by decide, by decide +kernel⟩

end Executor

end Scenarist
