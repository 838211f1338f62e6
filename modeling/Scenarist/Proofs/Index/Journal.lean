import Scenarist.Proofs.Index.Lookup
import Mathlib.Data.List.Nodup

set_option autoImplicit false

/-! # The index and what was entered into it

A journal is kept beside the index: the text that was last entered of each document, and the document that
was last entered under each name. After any calls the index is what the journal says. A name finds the
record of the document that was last entered under it, if the text of this document still declares the
name, and nothing otherwise; in particular a name is lost if the document that took it over from another
one gives it up.

Main statements: `Chronicle.IsSound.after` (what one call keeps), `Chronicle.lookup?_of_current` (when the
name of a document is found) and `Chronicle.isHonest_run` (what holds of the index after any calls). -/

namespace Scenarist

/-! ## Files that were read -/

/-- The record of a file that was read: there is none if it could not be read or declares no scenario. -/
def recordOfFile? (source : Text → Source) (file : Text × Except StoreError Text) : Option Record :=
  file.2.toOption.bind (Record.ofText? (source file.1))

def enterFile (source : Text → Source) (found : Table Record) (file : Text × Except StoreError Text) :
    Table Record :=
  match recordOfFile? source file with
  | some record => found.put record.name record
  | none => found

def recordsOf (source : Text → Source) (files : Table (Except StoreError Text)) : Table Record :=
  files.foldl (enterFile source) []

section

variable {source : Text → Source} {files : Table (Except StoreError Text)}

theorem recordsOf_concat (source : Text → Source) (files : Table (Except StoreError Text))
    (file : Text × Except StoreError Text) :
    recordsOf source (files ++ [file]) = enterFile source (recordsOf source files) file :=
  List.foldl_concat ..

theorem get?_enterFile (found : Table Record) (file : Text × Except StoreError Text) (name : Text) :
    (enterFile source found file).get? name =
      ((recordOfFile? source file).filter fun record => record.name = name).or (found.get? name) := by
  unfold enterFile
  cases recordOfFile? source file with
  | none => rfl
  | some record =>
      rw [Table.get?_put, Option.filter_some]
      by_cases hname : name = record.name
      · rw [if_pos hname, if_pos (by simpa using hname.symm), Option.some_or]
      · rw [if_neg hname, if_neg (by simpa using Ne.symm hname), Option.none_or]

theorem nodup_keys_recordsOf (source : Text → Source) (files : Table (Except StoreError Text)) :
    (recordsOf source files).keys.Nodup := by
  induction files using List.reverseRecOn with
  | nil => exact List.nodup_nil
  | append_singleton files file ih =>
      rw [recordsOf_concat]
      unfold enterFile
      split
      · exact Table.nodup_keys_put ih _ _
      · exact ih

/-- A name finds the record of the last file that declares it. -/
theorem get?_recordsOf_eq_some_iff {name : Text} {record : Record} :
    (recordsOf source files).get? name = some record ↔
      ∃ earlier file later, files = earlier ++ file :: later ∧ recordOfFile? source file = some record ∧
        record.name = name ∧
        ∀ other ∈ later, ∀ found, recordOfFile? source other = some found → found.name ≠ name := by
  induction files using List.reverseRecOn with
  | nil => simp [recordsOf, Table.get?]
  | append_singleton files file ih =>
      rw [recordsOf_concat, get?_enterFile, Option.or_eq_some_iff, ih, Option.filter_eq_some_iff,
        Option.filter_eq_none_iff]
      -- the file that is found is the last one, or an earlier one and the last one is later than it
      constructor
      · rintro (⟨hfile, hname⟩ | ⟨hother, earlier, found, later, rfl, hfound, hname, hlater⟩)
        · exact ⟨files, file, [], rfl, hfile, by simpa using hname, by simp⟩
        · refine ⟨earlier, found, later ++ [file], by simp, hfound, hname, fun other hmem => ?_⟩
          rcases List.mem_append.1 hmem with hmem | hmem
          · exact hlater other hmem
          · rw [List.mem_singleton.1 hmem]
            exact fun declared hdeclared => by simpa using hother declared hdeclared
      · rintro ⟨earlier, found, later, heq, hfound, hname, hlater⟩
        rcases List.eq_nil_or_concat later with rfl | ⟨later, last, rfl⟩
        · obtain ⟨-, hlast⟩ := List.append_inj' heq rfl
          obtain rfl : file = found := List.singleton_inj.1 hlast
          exact Or.inl ⟨hfound, by simpa using hname⟩
        · rw [List.concat_eq_append, ← List.cons_append, ← List.append_assoc] at heq
          obtain ⟨rfl, hlast⟩ := List.append_inj' heq rfl
          obtain rfl : file = last := List.singleton_inj.1 hlast
          refine Or.inr ⟨fun declared hdeclared => ?_, earlier, found, later, rfl, hfound, hname,
            fun other hmem => hlater other (by simp [hmem])⟩
          simpa using hlater file (by simp) declared hdeclared

end

namespace Scan

theorem take_eq (scan : Scan) (source : Text → Source) (file : Text × Except StoreError Text) :
    scan.take source file.1 file.2 = { scan with
      remaining := scan.remaining.tail
      count := scan.count + 1
      found := enterFile source scan.found file } := by
  obtain ⟨uri, fetched⟩ := file
  unfold take enterFile recordOfFile?
  cases fetched <;> rfl

theorem tryTake_eq_ok {scan scan' : Scan} {source : Text → Source} {file : Text × Except StoreError Text}
    (h : scan.tryTake source file.1 file.2 = .ok scan') : scan' = scan.take source file.1 file.2 :=
  eq_of_guardScalars_eq_ok h

theorem found_of_foldlM_tryTake {source : Text → Source} (files : Table (Except StoreError Text))
    {scan scan' : Scan}
    (h : files.foldlM (fun scan file => tryTake scan source file.1 file.2) scan = .ok scan') :
    scan'.found = files.foldl (enterFile source) scan.found := by
  induction files generalizing scan with
  | nil =>
      obtain rfl : scan = scan' := Except.ok.inj h
      rfl
  | cons file files ih =>
      rw [List.foldlM_cons] at h
      cases htaken : scan.tryTake source file.1 file.2 with
      | error fault =>
          rw [htaken] at h
          exact absurd h (by simp [bind, Except.bind])
      | ok taken =>
          rw [htaken] at h
          rw [ih h, tryTake_eq_ok htaken, take_eq, List.foldl_cons]

end Scan

namespace Index

/-- The index made anew from these files, each with what reading it gave; a file with a scalar without a
value refuses it. -/
def rebuild (index : Index) (files : Table (Except StoreError Text)) : Except ScalarFault Index :=
  (files.foldlM (fun scan file => Scan.tryTake scan index.sourceOf file.1 file.2)
    (index.beginScan files.keys)).map (index.install · false)

/-- A refresh makes the index anew from the files of the directory. -/
theorem refresh_eq_rebuild {σ : Type} [DocumentStore σ] (index : Index) (store : σ) :
    index.refresh store =
      index.rebuild ((index.filesIn store).map fun uri => (uri, DocumentStore.read store uri)) := by
  have hkeys : Table.keys ((index.filesIn store).map fun uri => (uri, DocumentStore.read store uri)) =
      index.filesIn store := by
    unfold Table.keys
    rw [List.map_map]
    exact List.map_id _
  unfold refresh rebuild
  rw [hkeys, List.foldlM_map]

theorem rebuild_eq_ok {index next : Index} {files : Table (Except StoreError Text)}
    (h : index.rebuild files = .ok next) :
    next.records = recordsOf index.sourceOf files ∧ next.scanRoot = index.scanRoot ∧
      next.generation = index.generation + 1 := by
  unfold rebuild at h
  cases hscan : files.foldlM (fun scan file => Scan.tryTake scan index.sourceOf file.1 file.2)
      (index.beginScan files.keys) with
  | error fault =>
      rw [hscan] at h
      exact absurd h (by simp [Except.map])
  | ok scan =>
      rw [hscan] at h
      obtain rfl : index.install scan false = next := Except.ok.inj h
      exact ⟨Scan.found_of_foldlM_tryTake files hscan, rfl, rfl⟩

end Index

/-! ## The journal -/

/-- What was entered into an index. -/
structure Journal where
  /-- The text that was last entered of each document since the document was last removed. -/
  texts : Table Text := []
  /-- The document that was last entered with a text that declares this name. -/
  holders : Table Text := []
  deriving DecidableEq, Repr

namespace Journal

variable {journal : Journal} {source : Text → Source} {uri text name : Text} {record : Record}

def enter (journal : Journal) (uri text : Text) : Journal where
  texts := journal.texts.put uri text
  holders := match Record.nameOf? text with
    | some name => journal.holders.put name uri
    | none => journal.holders

def strike (journal : Journal) (uri : Text) : Journal :=
  { journal with texts := journal.texts.erase uri }

def enterFile (journal : Journal) (file : Text × Except StoreError Text) : Journal :=
  match file.2 with
  | .ok text => journal.enter file.1 text
  | .error _ => journal

/-- The journal after the index was made anew: a document that was not read is as if removed. -/
def renew (journal : Journal) (files : Table (Except StoreError Text)) : Journal :=
  files.foldl enterFile { journal with texts := [] }

def recordAt? (journal : Journal) (source : Text → Source) (uri : Text) : Option Record :=
  (journal.texts.get? uri).bind (Record.ofText? (source uri))

/-- The record of the document that was last entered under a name, if its current text declares the
name. -/
def recordUnder? (journal : Journal) (source : Text → Source) (name : Text) : Option Record :=
  (journal.holders.get? name).bind fun uri =>
    (journal.recordAt? source uri).filter fun record => record.name = name

/-- Whether the documents of the journal are written the way their paths are. -/
def IsNormal (journal : Journal) : Prop :=
  ∀ uri text, journal.texts.get? uri = some text → Scenarist.IsNormal uri

theorem recordUnder?_eq_some_iff : journal.recordUnder? source name = some record ↔
    ∃ uri text, journal.holders.get? name = some uri ∧ journal.texts.get? uri = some text ∧
      Record.ofText? (source uri) text = some record ∧ record.name = name := by
  unfold recordUnder? recordAt?
  simp only [Option.bind_eq_some_iff, Option.filter_eq_some_iff, decide_eq_true_eq]
  constructor
  · rintro ⟨uri, hholder, ⟨text, htext, hrecord⟩, hname⟩
    exact ⟨uri, text, hholder, htext, hrecord, hname⟩
  · rintro ⟨uri, text, hholder, htext, hrecord, hname⟩
    exact ⟨uri, hholder, ⟨text, htext, hrecord⟩, hname⟩

/-! ### Entering and striking -/

theorem get?_texts_enter (journal : Journal) (uri text other : Text) :
    (journal.enter uri text).texts.get? other =
      if other = uri then some text else journal.texts.get? other :=
  Table.get?_put ..

theorem get?_holders_enter (journal : Journal) (uri text name : Text) :
    (journal.enter uri text).holders.get? name =
      if Record.nameOf? text = some name then some uri else journal.holders.get? name := by
  unfold enter
  cases Record.nameOf? text with
  | none => rfl
  | some declared =>
      show (journal.holders.put declared uri).get? name = _
      rw [Table.get?_put]
      simp only [Option.some.injEq, eq_comm]

theorem IsNormal.enter (h : journal.IsNormal) (huri : Scenarist.IsNormal uri) (text : Text) :
    (journal.enter uri text).IsNormal := by
  intro other found hfound
  rw [get?_texts_enter] at hfound
  split at hfound
  · next heq => exact heq ▸ huri
  · exact h other found hfound

theorem IsNormal.strike (h : journal.IsNormal) (uri : Text) : (journal.strike uri).IsNormal := by
  intro other found hfound
  unfold Journal.strike at hfound
  rw [Table.get?_erase] at hfound
  split at hfound
  · exact absurd hfound (by simp)
  · exact h other found hfound

/-- What a name finds of other documents is what it finds after this one was struck. -/
theorem filter_recordUnder? (h : journal.IsNormal) (index : Index) (uri name : Text) :
    (journal.recordUnder? index.sourceOf name).filter (fun record => record.uri ≠ uri) =
      (journal.strike uri).recordUnder? index.sourceOf name := by
  unfold recordUnder? recordAt? Journal.strike
  cases journal.holders.get? name with
  | none => rfl
  | some holder =>
      rw [Option.bind_some, Option.bind_some, Table.get?_erase]
      cases htext : journal.texts.get? holder with
      | none => simp
      | some text =>
          rw [Option.bind_some]
          cases hrecord : Record.ofText? (index.sourceOf holder) text with
          | none => split <;> simp [hrecord]
          | some record =>
              have huri : record.uri = holder := Index.uri_ofText?_sourceOf (h holder text htext) hrecord
              by_cases heq : holder = uri
              · simp [heq, huri, Option.filter_filter]
              · by_cases hname : record.name = name <;>
                  simp [heq, huri, hrecord, hname, Option.filter_some]

/-- Entering a document gives it its name and leaves the other names to the other documents. -/
theorem recordUnder?_enter (h : journal.IsNormal) (index : Index) (uri text name : Text) :
    (journal.enter uri text).recordUnder? index.sourceOf name =
      ((Record.ofText? (index.sourceOf uri) text).filter fun record => record.name = name).or
        ((journal.recordUnder? index.sourceOf name).filter fun record => record.uri ≠ uri) := by
  have hdeclared := Record.name_ofText? (index.sourceOf uri) text
  rw [filter_recordUnder? h]
  -- the document takes its own name, and any other name finds what it would without the document
  by_cases hname : Record.nameOf? text = some name
  · rw [hname, Option.map_eq_some_iff] at hdeclared
    obtain ⟨record, hrecord, rfl⟩ := hdeclared
    unfold recordUnder? recordAt?
    rw [get?_holders_enter, if_pos hname, Option.bind_some, get?_texts_enter, if_pos rfl,
      Option.bind_some, hrecord, Option.filter_some, if_pos (by simp), Option.some_or]
  · have hother : (Record.ofText? (index.sourceOf uri) text).filter (fun record => record.name = name) =
        none := by
      rw [Option.filter_eq_none_iff]
      intro record hrecord hfound
      rw [hrecord] at hdeclared
      exact hname (hdeclared.symm.trans (congrArg some (by simpa using hfound)))
    rw [hother, Option.none_or]
    unfold recordUnder? recordAt? Journal.strike
    rw [get?_holders_enter, if_neg hname]
    congr 1
    funext holder
    rw [get?_texts_enter, Table.get?_erase]
    by_cases hholder : holder = uri
    · rw [if_pos hholder, if_pos hholder, hholder, Option.bind_some, hother]
      rfl
    · rw [if_neg hholder, if_neg hholder]

/-! ### Making the index anew -/

theorem renew_concat (journal : Journal) (files : Table (Except StoreError Text))
    (file : Text × Except StoreError Text) :
    journal.renew (files ++ [file]) = (journal.renew files).enterFile file :=
  List.foldl_concat ..

theorem mem_keys_of_get?_texts_renew (journal : Journal) (files : Table (Except StoreError Text))
    (h : (journal.renew files).texts.get? uri = some text) : uri ∈ files.keys := by
  induction files using List.reverseRecOn with
  | nil => exact absurd h (by simp [renew, Table.get?])
  | append_singleton files file ih =>
      obtain ⟨read, fetched⟩ := file
      rw [renew_concat] at h
      unfold Table.keys at ih ⊢
      rw [List.map_append, List.mem_append]
      cases fetched with
      | error error => exact Or.inl (ih h)
      | ok found =>
          unfold enterFile at h
          rw [get?_texts_enter] at h
          split at h
          · next heq => exact Or.inr (List.mem_singleton.2 heq)
          · exact Or.inl (ih h)

theorem isNormal_renew (journal : Journal) {files : Table (Except StoreError Text)}
    (hnormal : ∀ uri ∈ files.keys, Scenarist.IsNormal uri) : (journal.renew files).IsNormal :=
  fun _ _ hfound => hnormal _ (mem_keys_of_get?_texts_renew journal files hfound)

/-- The records of files that were read are those of the journal that was renewed with them. -/
theorem get?_recordsOf (journal : Journal) (index : Index) {files : Table (Except StoreError Text)}
    (hfiles : files.keys.Nodup) (hnormal : ∀ uri ∈ files.keys, Scenarist.IsNormal uri) (name : Text) :
    (recordsOf index.sourceOf files).get? name =
      (journal.renew files).recordUnder? index.sourceOf name := by
  induction files using List.reverseRecOn with
  | nil =>
      unfold recordUnder? recordAt?
      simp [recordsOf, renew, Table.get?]
  | append_singleton files file ih =>
      obtain ⟨uri, fetched⟩ := file
      unfold Table.keys at hfiles hnormal
      rw [List.map_append, List.nodup_append] at hfiles
      simp only [List.map_append, List.mem_append] at hnormal
      have ih := ih hfiles.1 fun other hother => hnormal other (Or.inl hother)
      have hrenewed := isNormal_renew journal fun other hother => hnormal other (Or.inl hother)
      rw [recordsOf_concat, renew_concat, get?_enterFile, ih]
      cases fetched with
      | error error => rfl
      | ok text =>
          show _ = ((journal.renew files).enter uri text).recordUnder? index.sourceOf name
          rw [recordUnder?_enter hrenewed]
          congr 1
          -- no file before this one is the same document
          refine (filter_eq_self_of_forall fun record hrecord => ?_).symm
          obtain ⟨holder, held, -, htext, hheld, -⟩ := recordUnder?_eq_some_iff.1 hrecord
          have hholder := mem_keys_of_get?_texts_renew journal files htext
          rw [Index.uri_ofText?_sourceOf (hrenewed holder held htext) hheld]
          simpa using hfiles.2.2 holder hholder uri (List.mem_singleton.2 rfl)

end Journal

/-! ## Calls -/

/-- A call that changes the index. -/
inductive IndexCall where
  /-- A document is entered. -/
  | upsert (uri text : Text)
  /-- A document is removed. -/
  | remove (uri : Text)
  /-- The index is made anew from these files, each with what reading it gives. -/
  | rebuild (files : Table (Except StoreError Text))

/-- Whether the documents of a call are written the way their paths are, and none is there twice. -/
def IndexCall.IsNormal : IndexCall → Prop
  | .upsert uri _ => Scenarist.IsNormal uri
  | .remove uri => Scenarist.IsNormal uri
  | .rebuild files => files.keys.Nodup ∧ ∀ uri ∈ files.keys, Scenarist.IsNormal uri

instance (call : IndexCall) : Decidable call.IsNormal :=
  match call with
  | .upsert uri _ => inferInstanceAs (Decidable (Scenarist.IsNormal uri))
  | .remove uri => inferInstanceAs (Decidable (Scenarist.IsNormal uri))
  | .rebuild files =>
    inferInstanceAs (Decidable (files.keys.Nodup ∧ ∀ uri ∈ files.keys, Scenarist.IsNormal uri))

/-! ## Documents that only have a name -/

def bareIndex : Index where
  scanRoot := none
  patterns := []
  scanYield := 1
  refresher := { debounce := 0 }

/-- A document that declares a name and nothing else. -/
def declaring (name : Text) : Text :=
  Text.unlines ["ДанныеСценария:".toList, "    Имя: \"".toList ++ name ++ ['"'], []]

def soleRecord (uri name : Text) : Record where
  name := name
  source := ⟨uri, []⟩
  uid := none
  code := none
  codeSpan := none
  parameters := []
  defaults := []
  nestedCalls := []
  description := none
  tab := none

/-! ## The index beside its journal -/

/-- An index and its journal. -/
structure Chronicle where
  index : Index
  journal : Journal := {}

namespace Chronicle

/-- The index and its journal after a call. A call that is refused leaves both. -/
def after (chronicle : Chronicle) : IndexCall → Chronicle
  | .upsert uri text => match chronicle.index.tryUpsert uri text with
    | .ok (_, index) => ⟨index, chronicle.journal.enter uri text⟩
    | .error _ => chronicle
  | .remove uri => ⟨(chronicle.index.remove uri).2, chronicle.journal.strike uri⟩
  | .rebuild files => match chronicle.index.rebuild files with
    | .ok index => ⟨index, chronicle.journal.renew files⟩
    | .error _ => chronicle

def run (chronicle : Chronicle) (calls : List IndexCall) : Chronicle := calls.foldl after chronicle

def recordUnder? (chronicle : Chronicle) (name : Text) : Option Record :=
  chronicle.journal.recordUnder? chronicle.index.sourceOf name

/-- The index is what the journal says. -/
structure IsSound (chronicle : Chronicle) : Prop where
  nodup_names : chronicle.index.names.Nodup
  isNormal : chronicle.journal.IsNormal
  lookup?_eq : ∀ name, chronicle.index.lookup? name = chronicle.recordUnder? name

variable {chronicle : Chronicle} {uri text name : Text} {record : Record}

/-! ### Soundness -/

theorem isSound_of_empty {index : Index} (h : index.records = []) : IsSound ⟨index, {}⟩ where
  nodup_names := by simp [Index.names, Table.keys, h]
  isNormal := fun _ _ hfound => absurd hfound (by simp [Table.get?])
  lookup?_eq := fun _ => by simp [Index.lookup?, recordUnder?, Journal.recordUnder?, Table.get?, h]

theorem sourceOf_congr {index next : Index} (h : next.scanRoot = index.scanRoot) :
    next.sourceOf = index.sourceOf := by
  funext uri
  unfold Index.sourceOf
  rw [h]

theorem IsSound.upsert (h : chronicle.IsSound) (huri : Scenarist.IsNormal uri) (text : Text) :
    IsSound ⟨(chronicle.index.upsert uri text).2, chronicle.journal.enter uri text⟩ where
  nodup_names := Index.nodup_names_upsert h.nodup_names uri text
  isNormal := h.isNormal.enter huri text
  lookup?_eq name := by
    show _ = Journal.recordUnder? _ (Index.sourceOf _) name
    rw [sourceOf_congr (Index.scanRoot_upsert chronicle.index uri text),
      Journal.recordUnder?_enter h.isNormal, Index.lookup?_upsert h.nodup_names huri, h.lookup?_eq]
    rfl

theorem IsSound.remove (h : chronicle.IsSound) (uri : Text) :
    IsSound ⟨(chronicle.index.remove uri).2, chronicle.journal.strike uri⟩ where
  nodup_names := Index.nodup_names_remove h.nodup_names uri
  isNormal := h.isNormal.strike uri
  lookup?_eq name := by
    show _ = Journal.recordUnder? _ (Index.sourceOf _) name
    rw [sourceOf_congr (Index.scanRoot_remove chronicle.index uri),
      ← Journal.filter_recordUnder? h.isNormal, Index.lookup?_remove h.nodup_names, h.lookup?_eq]
    rfl

theorem isSound_renew {index : Index} {files : Table (Except StoreError Text)}
    (hfiles : files.keys.Nodup) (hnormal : ∀ uri ∈ files.keys, Scenarist.IsNormal uri)
    (hrecords : index.records = recordsOf index.sourceOf files) (journal : Journal) :
    IsSound ⟨index, journal.renew files⟩ where
  nodup_names := by
    unfold Index.names
    rw [hrecords]
    exact nodup_keys_recordsOf index.sourceOf files
  isNormal := Journal.isNormal_renew journal hnormal
  lookup?_eq name := by
    show Table.get? index.records name = _
    rw [hrecords]
    exact Journal.get?_recordsOf journal index hfiles hnormal name

/-- A call keeps the index what the journal says. -/
theorem IsSound.after (h : chronicle.IsSound) {call : IndexCall} (hcall : call.IsNormal) :
    (chronicle.after call).IsSound := by
  cases call with
  | upsert uri text =>
      cases hresult : chronicle.index.tryUpsert uri text with
      | error fault => simpa only [Chronicle.after, hresult] using h
      | ok result =>
          have hsound := h.upsert hcall text
          rw [← Index.tryUpsert_eq_ok hresult] at hsound
          simpa only [Chronicle.after, hresult] using hsound
  | remove uri => exact h.remove uri
  | rebuild files =>
      cases hresult : chronicle.index.rebuild files with
      | error fault => simpa only [Chronicle.after, hresult] using h
      | ok next =>
          obtain ⟨hrecords, hroot, -⟩ := Index.rebuild_eq_ok hresult
          rw [← sourceOf_congr hroot] at hrecords
          simpa only [Chronicle.after, hresult] using
            isSound_renew hcall.1 hcall.2 hrecords chronicle.journal

theorem IsSound.run (h : chronicle.IsSound) {calls : List IndexCall}
    (hcalls : ∀ call ∈ calls, call.IsNormal) : (chronicle.run calls).IsSound := by
  induction calls generalizing chronicle with
  | nil => exact h
  | cons call calls ih =>
      exact ih (h.after (hcalls call List.mem_cons_self))
        fun other hother => hcalls other (List.mem_cons_of_mem _ hother)

theorem scanRoot_after (chronicle : Chronicle) (call : IndexCall) :
    (chronicle.after call).index.scanRoot = chronicle.index.scanRoot := by
  cases call with
  | upsert uri text =>
      cases hresult : chronicle.index.tryUpsert uri text with
      | error fault => simp only [Chronicle.after, hresult]
      | ok result =>
          simp only [Chronicle.after, hresult, Index.tryUpsert_eq_ok hresult, Index.scanRoot_upsert]
  | remove uri => exact Index.scanRoot_remove chronicle.index uri
  | rebuild files =>
      cases hresult : chronicle.index.rebuild files with
      | error fault => simp only [Chronicle.after, hresult]
      | ok next => simp only [Chronicle.after, hresult, (Index.rebuild_eq_ok hresult).2.1]

theorem sourceOf_run (chronicle : Chronicle) (calls : List IndexCall) :
    (chronicle.run calls).index.sourceOf = chronicle.index.sourceOf := by
  refine sourceOf_congr ?_
  induction calls generalizing chronicle with
  | nil => rfl
  | cons call calls ih => exact (ih (chronicle.after call)).trans (scanRoot_after chronicle call)

/-! ### When a name is found -/

theorem IsSound.lookup?_eq_some_iff (h : chronicle.IsSound) :
    chronicle.index.lookup? name = some record ↔
      ∃ uri text, chronicle.journal.holders.get? name = some uri ∧
        chronicle.journal.texts.get? uri = some text ∧
        Record.ofText? (chronicle.index.sourceOf uri) text = some record ∧ record.name = name := by
  rw [h.lookup?_eq]
  exact Journal.recordUnder?_eq_some_iff

theorem IsSound.lookup?_ne_none_iff (h : chronicle.IsSound) :
    chronicle.index.lookup? name ≠ none ↔
      ∃ holder held, chronicle.journal.holders.get? name = some holder ∧
        chronicle.journal.texts.get? holder = some held ∧ Record.nameOf? held = some name := by
  rw [Option.ne_none_iff_exists']
  constructor
  · rintro ⟨record, hfound⟩
    obtain ⟨holder, held, hholder, hheld, hrecord, hname⟩ := h.lookup?_eq_some_iff.1 hfound
    refine ⟨holder, held, hholder, hheld, ?_⟩
    rw [← Record.name_ofText? (chronicle.index.sourceOf holder), hrecord, Option.map_some, hname]
  · rintro ⟨holder, held, hholder, hheld, hname⟩
    rw [← Record.name_ofText? (chronicle.index.sourceOf holder), Option.map_eq_some_iff] at hname
    obtain ⟨record, hrecord, hname⟩ := hname
    exact ⟨record, h.lookup?_eq_some_iff.2 ⟨holder, held, hholder, hheld, hrecord, hname⟩⟩

/-- The name that the current text of a document declares is found if and only if the document that was
last entered under this name still declares it. The document's own record is found if and only if it was
the last one entered under its name. -/
theorem lookup?_of_current {index : Index} (hempty : index.records = []) {calls : List IndexCall}
    (hcalls : ∀ call ∈ calls, call.IsNormal)
    (htext : (run ⟨index, {}⟩ calls).journal.texts.get? uri = some text)
    (hrecord : Record.ofText? (index.sourceOf uri) text = some record) :
    ((run ⟨index, {}⟩ calls).index.lookup? record.name ≠ none ↔
      ∃ holder held, (run ⟨index, {}⟩ calls).journal.holders.get? record.name = some holder ∧
        (run ⟨index, {}⟩ calls).journal.texts.get? holder = some held ∧
        Record.nameOf? held = some record.name) ∧
      ((run ⟨index, {}⟩ calls).index.lookup? record.name = some record ↔
        (run ⟨index, {}⟩ calls).journal.holders.get? record.name = some uri) := by
  have hsound := (isSound_of_empty hempty).run hcalls
  have hsource := sourceOf_run ⟨index, {}⟩ calls
  refine ⟨hsound.lookup?_ne_none_iff, ?_⟩
  rw [hsound.lookup?_eq_some_iff, hsource]
  constructor
  · -- the record tells which document it is of, so its holder is the document
    rintro ⟨holder, held, hholder, hheld, hfound, -⟩
    have hnormal := hsound.isNormal
    rw [hholder, ← Index.uri_ofText?_sourceOf (hnormal holder held hheld) hfound,
      Index.uri_ofText?_sourceOf (hnormal uri text htext) hrecord]
  · intro hholder
    exact ⟨uri, text, hholder, htext, hrecord, rfl⟩

/-- A document takes a name over from another one and is removed. -/
def takeover : List IndexCall :=
  [.upsert "/a".toList (declaring "N".toList), .upsert "/b".toList (declaring "N".toList),
    .remove "/b".toList]

theorem lookup?_takeover :
    ((run ⟨bareIndex, {}⟩ takeover).index.lookup? "N".toList ≠ none ↔
      ∃ holder held, (run ⟨bareIndex, {}⟩ takeover).journal.holders.get? "N".toList = some holder ∧
        (run ⟨bareIndex, {}⟩ takeover).journal.texts.get? holder = some held ∧
        Record.nameOf? held = some "N".toList) ∧
      ((run ⟨bareIndex, {}⟩ takeover).index.lookup? "N".toList =
          some (soleRecord "/a".toList "N".toList) ↔
        (run ⟨bareIndex, {}⟩ takeover).journal.holders.get? "N".toList = some "/a".toList) :=
  @lookup?_of_current "/a".toList (declaring "N".toList) (soleRecord "/a".toList "N".toList) bareIndex rfl
    takeover (by decide +kernel) (by decide +kernel) (by decide +kernel)

/-- The document that had the name first still declares it, and the name is not found. -/
theorem lookup?_takeover_lost :
    (∀ call ∈ takeover, call.IsNormal) ∧
      (run ⟨bareIndex, {}⟩ takeover).journal.texts.get? "/a".toList = some (declaring "N".toList) ∧
      Record.nameOf? (declaring "N".toList) = some "N".toList ∧
      (run ⟨bareIndex, {}⟩ takeover).index.lookup? "N".toList = none := by
  decide +kernel

/-! ### What the index holds -/

end Chronicle

/-- Every record of the index stands under its own name, no two are of one document, and each is that of
its document's text. -/
structure Index.IsHonest (index : Index) (texts : Table Text) : Prop where
  nodup_names : index.names.Nodup
  name_eq : ∀ entry ∈ index.records, entry.1 = entry.2.name
  nodup_uris : (index.allRecords.map Record.uri).Nodup
  record_eq : ∀ record ∈ index.allRecords, ∃ text, texts.get? record.uri = some text ∧
    Record.ofText? (index.sourceOf record.uri) text = some record

theorem Index.IsHonest.recordOf?_eq_some_iff {index : Index} {texts : Table Text}
    (h : index.IsHonest texts) {uri : Text} {record : Record} :
    index.recordOf? uri = some record ↔ index.lookup? record.name = some record ∧ record.uri = uri := by
  constructor
  · intro hfound
    obtain ⟨entry, hentry, rfl⟩ := List.mem_map.1 (List.mem_of_find?_eq_some hfound)
    refine ⟨?_, by simpa using List.find?_some hfound⟩
    rw [← h.name_eq entry hentry]
    exact Table.get?_eq_some_of_mem h.nodup_names hentry
  · rintro ⟨hlookup, rfl⟩
    have hmem : record ∈ index.allRecords := List.mem_map_of_mem (Table.mem_of_get?_eq_some hlookup)
    obtain ⟨found, hfound⟩ : ∃ found, index.recordOf? record.uri = some found :=
      Option.isSome_iff_exists.1 (List.find?_isSome.2 ⟨record, hmem, by simp⟩)
    -- what is found first of the document is its only record
    have hsame : found.uri = record.uri := by simpa using List.find?_some hfound
    rw [hfound, List.inj_on_of_nodup_map h.nodup_uris (List.mem_of_find?_eq_some hfound) hmem hsame]

namespace Chronicle

variable {chronicle : Chronicle}

theorem IsSound.of_mem (h : chronicle.IsSound) {entry : Text × Record}
    (hentry : entry ∈ chronicle.index.records) :
    entry.1 = entry.2.name ∧ ∃ text, chronicle.journal.texts.get? entry.2.uri = some text ∧
      Record.ofText? (chronicle.index.sourceOf entry.2.uri) text = some entry.2 := by
  obtain ⟨uri, text, -, htext, hrecord, hname⟩ :=
    h.lookup?_eq_some_iff.1 (Table.get?_eq_some_of_mem h.nodup_names hentry)
  rw [Index.uri_ofText?_sourceOf (h.isNormal uri text htext) hrecord]
  exact ⟨hname.symm, text, htext, hrecord⟩

theorem IsSound.isHonest (h : chronicle.IsSound) :
    chronicle.index.IsHonest chronicle.journal.texts where
  nodup_names := h.nodup_names
  name_eq entry hentry := (h.of_mem hentry).1
  nodup_uris := by
    unfold Index.allRecords Table.values
    rw [List.map_map]
    have hentries : chronicle.index.records.Nodup := List.Nodup.of_map Prod.fst h.nodup_names
    refine hentries.map_on fun entry hentry other hother huri => ?_
    obtain ⟨hname, text, htext, hrecord⟩ := h.of_mem hentry
    obtain ⟨hname', text', htext', hrecord'⟩ := h.of_mem hother
    replace huri : entry.2.uri = other.2.uri := huri
    -- one document has one text, and so one record
    rw [← huri, htext] at htext'
    obtain rfl := Option.some.inj htext'
    rw [← huri, hrecord] at hrecord'
    have heq := Option.some.inj hrecord'
    exact Prod.ext (by rw [hname, hname', heq]) heq
  record_eq record hrecord := by
    obtain ⟨entry, hentry, rfl⟩ := List.mem_map.1 hrecord
    exact (h.of_mem hentry).2

/-- An index with the records of files that were read has the record of one of them if and only if no file
that was read later declares the same name. -/
theorem recordOf?_eq_some_iff_of_read {index : Index} {files : Table (Except StoreError Text)}
    (hrecords : index.records = recordsOf index.sourceOf files) (hfiles : files.keys.Nodup)
    (hnormal : ∀ uri ∈ files.keys, Scenarist.IsNormal uri) {uri : Text} {fetched : Except StoreError Text}
    (hread : (uri, fetched) ∈ files) {record : Record} (huri : record.uri = uri) :
    index.recordOf? uri = some record ↔
      recordOfFile? index.sourceOf (uri, fetched) = some record ∧
        ∃ earlier later, files = earlier ++ (uri, fetched) :: later ∧
          ∀ other ∈ later, ∀ found, recordOfFile? index.sourceOf other = some found →
            found.name ≠ record.name := by
  have hhonest := (isSound_renew hfiles hnormal hrecords {}).isHonest
  have hlookup : index.lookup? record.name = (recordsOf index.sourceOf files).get? record.name := by
    unfold Index.lookup?
    rw [hrecords]
  rw [hhonest.recordOf?_eq_some_iff, hlookup, get?_recordsOf_eq_some_iff]
  constructor
  · rintro ⟨⟨earlier, file, later, hsplit, hfile, -, hlater⟩, -⟩
    have hmem : file ∈ files := by
      rw [hsplit]
      exact List.mem_append_right _ List.mem_cons_self
    -- the record tells which file it was made of, and no file was read twice
    have hsame : file.1 = uri := by
      obtain ⟨text, -, hrecord⟩ := Option.bind_eq_some_iff.1 hfile
      rw [← huri, Index.uri_ofText?_sourceOf (hnormal _ (List.mem_map_of_mem hmem)) hrecord]
    obtain rfl : file = (uri, fetched) := List.inj_on_of_nodup_map hfiles hmem hread hsame
    exact ⟨hfile, earlier, later, hsplit, hlater⟩
  · rintro ⟨hfile, earlier, later, hsplit, hlater⟩
    exact ⟨⟨earlier, _, later, hsplit, hfile, rfl, hlater⟩, huri⟩

/-- After any calls the index is honest. The next call tells of a change if and only if some name finds
something else afterwards, and the changes are counted; making the index anew counts as one. -/
theorem isHonest_run {index : Index} (hempty : index.records = []) {calls : List IndexCall}
    (hcalls : ∀ call ∈ calls, call.IsNormal) :
    (run ⟨index, {}⟩ calls).index.IsHonest (run ⟨index, {}⟩ calls).journal.texts ∧
      (∀ uri text changed next,
        (run ⟨index, {}⟩ calls).index.tryUpsert uri text = .ok (changed, next) →
          (changed = true ↔ next.lookup? ≠ (run ⟨index, {}⟩ calls).index.lookup?) ∧
          next.generation = (run ⟨index, {}⟩ calls).index.generation + changed.toNat) ∧
      (∀ uri changed next, (run ⟨index, {}⟩ calls).index.remove uri = (changed, next) →
          (changed = true ↔ next.lookup? ≠ (run ⟨index, {}⟩ calls).index.lookup?) ∧
          next.generation = (run ⟨index, {}⟩ calls).index.generation + changed.toNat) ∧
      (∀ files next, (run ⟨index, {}⟩ calls).index.rebuild files = .ok next →
          next.generation = (run ⟨index, {}⟩ calls).index.generation + 1) := by
  have hsound := (isSound_of_empty hempty).run hcalls
  generalize run ⟨index, {}⟩ calls = reached at hsound
  refine ⟨hsound.isHonest, fun uri text changed next hresult => ?_,
    fun uri changed next hresult => ?_, fun files next hresult => ?_⟩
  · exact ⟨Index.tryUpsert_changed_iff hsound.nodup_names hresult, Index.generation_tryUpsert hresult⟩
  · have hchanged := Index.remove_changed_iff hsound.nodup_names uri
    have hgeneration := Index.generation_remove reached.index uri
    rw [hresult] at hchanged hgeneration
    exact ⟨hchanged, hgeneration⟩
  · exact (Index.rebuild_eq_ok hresult).2.2

/-- A name changes hands, a document changes its name, and the index is made anew from files of which one
cannot be read and two declare one name. -/
def mixedCalls : List IndexCall :=
  [.upsert "/a".toList (declaring "N".toList), .upsert "/b".toList (declaring "N".toList),
    .upsert "/a".toList (declaring "M".toList), .remove "/b".toList,
    .rebuild [("/b".toList, .ok (declaring "N".toList)), ("/c".toList, .error (.notFound "/c".toList)),
      ("/d".toList, .ok (declaring "N".toList))],
    .upsert "/b".toList (declaring "L".toList)]

theorem isHonest_mixedCalls :
    (run ⟨bareIndex, {}⟩ mixedCalls).index.IsHonest (run ⟨bareIndex, {}⟩ mixedCalls).journal.texts ∧
      (run ⟨bareIndex, {}⟩ mixedCalls).index.allRecords =
        [soleRecord "/d".toList "N".toList, soleRecord "/b".toList "L".toList] ∧
      (run ⟨bareIndex, {}⟩ mixedCalls).index.generation = 6 :=
  ⟨(@isHonest_run bareIndex rfl mixedCalls (by decide +kernel)).1,
    by decide +kernel, by decide +kernel⟩

end Chronicle

end Scenarist
