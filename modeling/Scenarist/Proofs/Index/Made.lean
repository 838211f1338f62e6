import Scenarist.Proofs.Index.Names
import Scenarist.Proofs.Index.Overlap

set_option autoImplicit false

/-! # Where the records of an index come from

Records are entered into an index one document at a time, or by a scan that makes them of the documents it has
read. Whatever happens to an index that began empty, each of its records was made of a document, and stands
under the name that the document declares.

Main statements: `Traffic.Steps.isMade` (one event) and `Traffic.isMade_run`. -/

namespace Scenarist

/-- Whether a record is what some document says. -/
def Record.IsMade (record : Record) : Prop := ∃ source document, ofText? source document = some record

/-- The records of files that were read are those of single files, each under its name. -/
theorem exists_file_of_mem_recordsOf {source : Text → Source} {files : Table (Except StoreError Text)}
    {entry : Text × Record} (h : entry ∈ recordsOf source files) :
    entry.1 = entry.2.name ∧ ∃ file ∈ files, recordOfFile? source file = some entry.2 := by
  induction files using List.reverseRecOn with
  | nil => exact absurd h List.not_mem_nil
  | append_singleton files file ih =>
      have hearlier : entry ∈ recordsOf source files →
          entry.1 = entry.2.name ∧ ∃ file' ∈ files ++ [file], recordOfFile? source file' = some entry.2 := by
        intro hold
        obtain ⟨hname, file', hmem, hrecord⟩ := ih hold
        exact ⟨hname, file', List.mem_append_left _ hmem, hrecord⟩
      rw [recordsOf_concat, enterFile] at h
      cases hrecord : recordOfFile? source file with
      | none => exact hearlier (by rwa [hrecord] at h)
      | some record =>
          rw [hrecord] at h
          rcases Table.mem_put h with rfl | hold
          · exact ⟨rfl, file, List.mem_append_right _ List.mem_cons_self, hrecord⟩
          · exact hearlier hold

theorem uri_of_recordOfFile? {source : Text → Source} {file : Text × Except StoreError Text} {record : Record}
    (h : recordOfFile? source file = some record) : record.uri = (source file.1).uri := by
  obtain ⟨document, -, hrecord⟩ := Option.bind_eq_some_iff.1 h
  exact Index.uri_of_ofText? hrecord

theorem mem_recordsOf {source : Text → Source} {files : Table (Except StoreError Text)} {entry : Text × Record}
    (h : entry ∈ recordsOf source files) : entry.1 = entry.2.name ∧ entry.2.IsMade := by
  obtain ⟨hname, file, -, hrecord⟩ := exists_file_of_mem_recordsOf h
  obtain ⟨document, -, hmade⟩ := Option.bind_eq_some_iff.1 hrecord
  exact ⟨hname, _, document, hmade⟩

namespace Index

variable {index : Index}

/-- Whether the records of an index are what documents say, each under its name. -/
def IsMade (index : Index) : Prop := ∀ entry ∈ index.records, entry.1 = entry.2.name ∧ entry.2.IsMade

theorem isMade_of_empty (h : index.records = []) : index.IsMade := by
  intro entry hentry
  rw [h] at hentry
  exact absurd hentry List.not_mem_nil

theorem IsMade.of_lookup? (h : index.IsMade) {name : Text} {record : Record}
    (hrecord : index.lookup? name = some record) : record.IsMade :=
  (h _ (Table.mem_of_get?_eq_some hrecord)).2

theorem IsMade.upsert (h : index.IsMade) (uri text : Text) : (index.upsert uri text).2.IsMade := by
  intro entry hentry
  rcases mem_records_upsert hentry with hold | ⟨record, hrecord, rfl⟩
  · exact h entry hold
  · exact ⟨rfl, _, text, hrecord⟩

theorem IsMade.remove (h : index.IsMade) (uri : Text) : (index.remove uri).2.IsMade := by
  intro entry hentry
  exact h entry (mem_records_remove hentry)

theorem IsMade.react (h : index.IsMade) (change : IndexChange) : (index.react change).IsMade :=
  react_induction (motive := IsMade) h h.upsert h.remove (fun _ _ => h) (fun _ => h) change

end Index

namespace Traffic

variable {traffic next : Traffic}

/-- An event brings in nothing but records of documents, since these are what a scan has found. -/
theorem Steps.isMade (h : traffic.Steps next) (hsound : traffic.IsSound) (hmade : traffic.index.IsMade) :
    next.index.IsMade := by
  cases h with
  | change change => exact hmade.react change
  | skip | begin | move => exact hmade
  | @install number sweep hstage cut =>
      intro entry hentry
      have hfound : sweep.scan.found = recordsOf traffic.index.sourceOf sweep.taken :=
        hsound _ (List.mem_of_getElem? hstage)
      have hmem : entry ∈ sweep.scan.found := hentry
      rw [hfound] at hmem
      exact mem_recordsOf hmem

theorem isMade_run (hsound : traffic.IsSound) (hmade : traffic.index.IsMade) (events : List IndexEvent) :
    (traffic.run events).index.IsMade := by
  induction events generalizing traffic with
  | nil => exact hmade
  | cons event events ih =>
      exact ih ((steps_step traffic event).isSound hsound) ((steps_step traffic event).isMade hsound hmade)

end Traffic

end Scenarist
