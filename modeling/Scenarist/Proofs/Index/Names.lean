import Scenarist.Proofs.Index.Journal

set_option autoImplicit false

/-! # The names that an index has of a store

As long as a store stays as it is, entering its documents into the index and scanning it never take a name
away from a document: every record in the index is of a document that declares the record's name, so a
document that is entered finds no records of its own under other names. Entering a document adds the name
that it declares, and a scan leaves the names that the scanned files declare.

Main statements: `Index.AgreesWith.mem_names_upsert` (entering a document) and
`Index.isComplete_of_records` (a scan). -/

namespace Scenarist

/-- Whether a store has a document that declares a name and can be read as a scenario. -/
def MemoryStore.Declares (store : MemoryStore) (uri name : Text) : Prop :=
  ∃ text, store.read uri = .ok text ∧ guardScalars (Record.scalarsOf text) () = .ok () ∧
    Record.nameOf? text = some name

/-- Whether the documents of a store are written the way their paths are. -/
def MemoryStore.IsNormal (store : MemoryStore) : Prop :=
  ∀ uri ∈ store.files.keys, Scenarist.IsNormal uri

instance (store : MemoryStore) : Decidable store.IsNormal :=
  inferInstanceAs (Decidable (∀ uri ∈ store.files.keys, Scenarist.IsNormal uri))

/-- Whether no scan of these files of a store is refused. -/
def MemoryStore.IsReadable (store : MemoryStore) (files : List Text) : Prop :=
  ∀ uri ∈ files, guardScalars (((store.read uri).toOption.map Record.scalarsOf).getD []) () = .ok ()

instance (store : MemoryStore) (files : List Text) : Decidable (store.IsReadable files) :=
  inferInstanceAs (Decidable (∀ uri ∈ files, _ = _))

def MemoryStore.readAll (store : MemoryStore) (files : List Text) : Table (Except StoreError Text) :=
  files.map fun uri => (uri, store.read uri)

section

variable {store : MemoryStore} {uri text name : Text}

theorem MemoryStore.mem_keys_of_read (h : store.read uri = .ok text) : uri ∈ store.files.keys := by
  unfold read at h
  split at h
  · next hget => exact Table.mem_keys_iff.2 (by rw [hget]; rfl)
  · exact absurd h (by simp)

theorem MemoryStore.declares_iff (h : store.read uri = .ok text) :
    store.Declares uri name ↔
      guardScalars (Record.scalarsOf text) () = .ok () ∧ Record.nameOf? text = some name := by
  constructor
  · rintro ⟨found, hread, hdeclares⟩
    rwa [Except.ok.inj (h.symm.trans hread)]
  · exact fun hdeclares => ⟨text, h, hdeclares⟩

end

namespace Index

variable {index : Index} {store : MemoryStore} {files : List Text} {uri text name : Text}

theorem mem_names_iff : name ∈ index.names ↔ ∃ record, index.lookup? name = some record :=
  Table.mem_keys_iff.trans Option.isSome_iff_exists

/-- Whether every record of an index is of a document of the store that declares its name. -/
structure AgreesWith (index : Index) (store : MemoryStore) : Prop where
  nodup_names : index.names.Nodup
  declares : ∀ name record, index.lookup? name = some record → store.Declares record.uri name

/-- Whether an index has every name that one of these files declares. -/
def IsComplete (index : Index) (store : MemoryStore) (files : List Text) : Prop :=
  ∀ uri ∈ files, ∀ name, store.Declares uri name → name ∈ index.names

theorem agreesWith_of_empty (h : index.records = []) (store : MemoryStore) : index.AgreesWith store where
  nodup_names := by simp [names, Table.keys, h]
  declares := fun name record hfound => absurd hfound (by simp [lookup?, Table.get?, h])

/-! ## Entering a document of the store -/

/-- A document that can be read declares the name of the record that is made of it. -/
theorem declares_iff_ofText? (index : Index) (hread : store.read uri = .ok text)
    (hguard : guardScalars (Record.scalarsOf text) () = .ok ()) :
    store.Declares uri name ↔
      ∃ record, Record.ofText? (index.sourceOf uri) text = some record ∧ record.name = name := by
  rw [MemoryStore.declares_iff hread, ← Record.name_ofText? (index.sourceOf uri) text,
    Option.map_eq_some_iff]
  exact and_iff_right hguard

theorem AgreesWith.upsert (h : index.AgreesWith store) (hnormal : store.IsNormal)
    (hread : store.read uri = .ok text) (hguard : guardScalars (Record.scalarsOf text) () = .ok ()) :
    (index.upsert uri text).2.AgreesWith store where
  nodup_names := nodup_names_upsert h.nodup_names uri text
  declares name record hfound := by
    have huri : Scenarist.IsNormal uri := hnormal uri (MemoryStore.mem_keys_of_read hread)
    rw [lookup?_upsert h.nodup_names huri text, Option.or_eq_some_iff, Option.filter_eq_some_iff] at hfound
    rcases hfound with ⟨hrecord, hname⟩ | ⟨-, hfound⟩
    · rw [uri_ofText?_sourceOf huri hrecord, declares_iff_ofText? index hread hguard]
      exact ⟨record, hrecord, by simpa using hname⟩
    · exact h.declares name record (Option.mem_filter_iff.1 hfound).1

/-- A name is found after a document was entered if it was found before or the document declares it. -/
theorem AgreesWith.mem_names_upsert (h : index.AgreesWith store) (hnormal : store.IsNormal)
    (hread : store.read uri = .ok text) (hguard : guardScalars (Record.scalarsOf text) () = .ok ()) :
    name ∈ (index.upsert uri text).2.names ↔ name ∈ index.names ∨ store.Declares uri name := by
  have huri : Scenarist.IsNormal uri := hnormal uri (MemoryStore.mem_keys_of_read hread)
  rw [mem_names_iff, mem_names_iff, declares_iff_ofText? index hread hguard]
  simp only [lookup?_upsert h.nodup_names huri text, Option.or_eq_some_iff, Option.filter_eq_some_iff,
    decide_eq_true_eq]
  constructor
  · rintro ⟨record, ⟨hrecord, hname⟩ | ⟨-, hfound, -⟩⟩
    · exact Or.inr ⟨record, hrecord, hname⟩
    · exact Or.inl ⟨record, hfound⟩
  · rintro (⟨record, hfound⟩ | ⟨record, hrecord, hname⟩)
    · by_cases hself : record.uri = uri
      · -- what the name found was the document's own record, and the document still declares it
        have hdeclares : store.Declares uri name := hself ▸ h.declares name record hfound
        obtain ⟨own, hrecord, hname⟩ := (declares_iff_ofText? index hread hguard).1 hdeclares
        exact ⟨own, Or.inl ⟨hrecord, hname⟩⟩
      · cases hrecord : Record.ofText? (index.sourceOf uri) text with
        | none => exact ⟨record, Or.inr ⟨by simp, hfound, hself⟩⟩
        | some own =>
            by_cases hname : own.name = name
            · exact ⟨own, Or.inl ⟨rfl, hname⟩⟩
            · exact ⟨record, Or.inr ⟨by simpa using hname, hfound, hself⟩⟩
    · exact ⟨record, Or.inl ⟨hrecord, hname⟩⟩

/-! ## Scanning the store -/

theorem mem_keys_recordsOf {source : Text → Source} {read : Table (Except StoreError Text)} :
    name ∈ (recordsOf source read).keys ↔
      ∃ file ∈ read, ∃ record, recordOfFile? source file = some record ∧ record.name = name := by
  induction read using List.reverseRecOn with
  | nil => simp [recordsOf, Table.keys]
  | append_singleton read file ih =>
      rw [Table.mem_keys_iff] at ih ⊢
      rw [recordsOf_concat, get?_enterFile, Option.isSome_or, Bool.or_eq_true, ih,
        Option.isSome_iff_exists]
      simp only [Option.filter_eq_some_iff, decide_eq_true_eq, List.mem_append, List.mem_singleton,
        or_and_right, exists_or, exists_eq_left, or_comm]

/-- An index with the records of all files of a scan has only records of documents that declare them. -/
theorem agreesWith_of_records (hnormal : store.IsNormal) (hreadable : store.IsReadable files)
    (hrecords : index.records = recordsOf index.sourceOf (store.readAll files)) :
    index.AgreesWith store where
  nodup_names := by
    unfold names
    rw [hrecords]
    exact nodup_keys_recordsOf ..
  declares name record hfound := by
    unfold lookup? at hfound
    rw [hrecords] at hfound
    obtain ⟨earlier, file, later, hfiles, hrecord, rfl, -⟩ := get?_recordsOf_eq_some_iff.1 hfound
    have hfile : file ∈ store.readAll files := hfiles ▸ List.mem_append_cons_self
    obtain ⟨uri, huri, rfl⟩ := List.mem_map.1 hfile
    have hguard := hreadable uri huri
    cases hread : store.read uri with
    | error error =>
        simp only [recordOfFile?, hread] at hrecord
        exact absurd hrecord (by simp [Except.toOption])
    | ok text =>
        have hrecord : Record.ofText? (index.sourceOf uri) text = some record := by
          simpa [recordOfFile?, hread, Except.toOption] using hrecord
        rw [hread] at hguard
        rw [uri_ofText?_sourceOf (hnormal uri (MemoryStore.mem_keys_of_read hread)) hrecord,
          declares_iff_ofText? index hread hguard]
        exact ⟨record, hrecord, rfl⟩

/-- An index with the records of all files of a scan has all of their names. -/
theorem isComplete_of_records
    (hrecords : index.records = recordsOf index.sourceOf (store.readAll files)) :
    index.IsComplete store files := by
  intro uri huri name hdeclares
  obtain ⟨text, hread, hguard, hname⟩ := hdeclares
  obtain ⟨record, hrecord, hname⟩ :=
    (declares_iff_ofText? index hread hguard).1 ⟨text, hread, hguard, hname⟩
  unfold names
  rw [hrecords, mem_keys_recordsOf]
  refine ⟨(uri, store.read uri), List.mem_map_of_mem huri, record, ?_, hname⟩
  simpa [recordOfFile?, hread, Except.toOption] using hrecord

end Index

end Scenarist
