import Scenarist.Index
import Scenarist.Proofs.Record
import Scenarist.Proofs.Table

set_option autoImplicit false

/-! # The index after a document was entered

Entering a document makes its record the one under its name and the only one of its place, whatever the
index held before. Entered again with another text that says the same of the scenario's name and
identifier, the document leaves all that steps look up.

Main statements: `Index.recordOf?_upsert` (the record of a document that was entered) and
`Index.uidOf?_upsert_upsert` (what entering it again changes). -/

namespace Scenarist.Index

variable {index : Index} {record : Record} {records : Table Record} {uri text : Text}

/-! ## The record of a document -/

theorem holds_iff : holds record records = true ↔
    records.get? record.name = some record ∧
      ∀ entry ∈ records, entry.2.uri = record.uri → entry.1 = record.name := by
  unfold holds
  simp only [Bool.and_eq_true, decide_eq_true_eq, List.all_eq_true, Bool.or_eq_true,
    ← imp_iff_not_or, ne_eq]

/-- A record that is entered is the one under its name and the only one of its document. -/
theorem holds_putRecord (record : Record) (records : Table Record) :
    holds record (putRecord record records) = true := by
  rw [holds_iff]
  constructor
  · unfold putRecord
    rw [Table.get?_put, if_pos rfl]
  · have hfiltered : ∀ entry ∈ records.filter fun entry =>
        entry.2.uri ≠ record.uri || entry.1 = record.name,
        entry.2.uri = record.uri → entry.1 = record.name := by
      intro entry hentry huri
      obtain ⟨-, hkept⟩ := List.mem_filter.1 hentry
      simpa [huri] using hkept
    intro entry hentry huri
    rcases Table.mem_put hentry with rfl | hentry
    · rfl
    · exact hfiltered entry hentry huri

theorem find?_values_of_holds (h : holds record records = true) :
    records.values.find? (fun found => found.uri == record.uri) = some record := by
  obtain ⟨hget, hplace⟩ := holds_iff.1 h
  clear h
  induction records with
  | nil => simp [Table.get?] at hget
  | cons entry records ih =>
      rw [Table.get?_cons] at hget
      by_cases hname : record.name = entry.1
      · rw [if_pos hname] at hget
        obtain rfl := Option.some.inj hget
        simp [Table.values]
      · rw [if_neg hname] at hget
        -- a record of the same document would stand under the same name
        have huri : entry.2.uri ≠ record.uri :=
          fun huri => hname (hplace entry List.mem_cons_self huri).symm
        have hrest := ih hget fun e he => hplace e (List.mem_cons_of_mem _ he)
        simpa [Table.values, huri] using hrest

theorem holds_records_enter (index : Index) (record : Record) :
    holds record (index.enter record).2.records = true := by
  unfold enter
  split
  · assumption
  · exact holds_putRecord record index.records

/-- Removing a document leaves the records of the others, whether there was one of it or not. -/
theorem records_remove (index : Index) (uri : Text) :
    (index.remove uri).2.records = index.records.filter fun entry => entry.2.uri ≠ uri := by
  unfold remove
  split
  · rfl
  · next hany =>
    refine (List.filter_eq_self.2 fun entry hentry => ?_).symm
    exact decide_eq_true fun huri => hany (List.any_eq_true.2 ⟨entry, hentry, decide_eq_true huri⟩)

theorem recordOf?_remove (index : Index) (uri : Text) : (index.remove uri).2.recordOf? uri = none := by
  unfold recordOf? allRecords
  rw [records_remove, List.find?_eq_none]
  intro found hfound
  obtain ⟨entry, hentry, rfl⟩ := List.mem_map.1 hfound
  simpa using (List.mem_filter.1 hentry).2

theorem scanRoot_upsert (index : Index) (uri text : Text) :
    (index.upsert uri text).2.scanRoot = index.scanRoot := by
  unfold upsert
  split
  · unfold enter
    split <;> rfl
  · unfold remove
    split <;> rfl

/-- The record of a document that was entered is that of its text; there is none if the text declares no
scenario. -/
theorem recordOf?_upsert (index : Index) (huri : (Path.ofText uri).toText = uri) (text : Text) :
    (index.upsert uri text).2.recordOf? uri = Record.ofText? (index.sourceOf uri) text := by
  unfold upsert
  cases hrecord : Record.ofText? (index.sourceOf uri) text with
  | none => exact recordOf?_remove index uri
  | some record =>
      have hplace : record.uri = uri := by
        obtain ⟨name, -, rfl⟩ := Option.map_eq_some_iff.1 hrecord
        exact huri
      have hfind := find?_values_of_holds (holds_records_enter index record)
      rw [hplace] at hfind
      exact hfind

theorem mem_records_enter {entry : Text × Record} (h : entry ∈ (index.enter record).2.records) :
    entry ∈ index.records ∨ entry = (record.name, record) := by
  unfold enter at h
  split at h
  · exact Or.inl h
  · rcases Table.mem_put h with rfl | h
    · exact Or.inr rfl
    · exact Or.inl (List.mem_filter.1 h).1

theorem mem_records_remove {entry : Text × Record} (h : entry ∈ (index.remove uri).2.records) :
    entry ∈ index.records := by
  rw [records_remove] at h
  exact (List.mem_filter.1 h).1

/-- Entering a document brings in nothing but its record. -/
theorem mem_records_upsert {entry : Text × Record} (h : entry ∈ (index.upsert uri text).2.records) :
    entry ∈ index.records ∨
      ∃ record, Record.ofText? (index.sourceOf uri) text = some record ∧ entry = (record.name, record) := by
  unfold upsert at h
  cases hrecord : Record.ofText? (index.sourceOf uri) text with
  | none =>
      simp only [hrecord] at h
      exact Or.inl (mem_records_remove h)
  | some record =>
      simp only [hrecord] at h
      exact (mem_records_enter h).imp_right fun heq => ⟨record, rfl, heq⟩

/-! ## A document that is entered again -/

theorem uri_of_ofText? {source : Source} (h : Record.ofText? source text = some record) :
    record.uri = source.uri := by
  obtain ⟨name, -, rfl⟩ := Option.map_eq_some_iff.1 h
  rfl

/-- Entering a record in place of one of the same name and place puts it there. -/
theorem records_enter_of_holds {old : Record} (hold : holds old index.records = true)
    (hname : record.name = old.name) (huri : record.uri = old.uri) :
    (index.enter record).2.records = index.records ∨
      (index.enter record).2.records = Table.put record.name record index.records := by
  unfold enter
  split
  · exact Or.inl rfl
  · refine Or.inr ?_
    have hfilter : (index.records.filter fun entry =>
        entry.2.uri ≠ record.uri || entry.1 = record.name) = index.records := by
      refine List.filter_eq_self.2 fun entry hentry => ?_
      have hplace := (holds_iff.1 hold).2 entry hentry
      by_cases h : entry.2.uri = record.uri
      · simp [hname, hplace (h.trans huri)]
      · simp [h]
    show Table.put record.name record (index.records.filter fun entry =>
      entry.2.uri ≠ record.uri || entry.1 = record.name) = _
    rw [hfilter]

/-- What steps look up of a scenario: its identifier, if the index knows it. -/
def uidOf? (index : Index) (name : Text) : Option (Option Text) := (index.lookup? name).map (·.uid)

theorem uidOf?_enter_of_holds {old : Record} (hold : holds old index.records = true)
    (hname : record.name = old.name) (huri : record.uri = old.uri) (huid : record.uid = old.uid)
    (name : Text) : (index.enter record).2.uidOf? name = index.uidOf? name := by
  unfold uidOf? lookup?
  rcases records_enter_of_holds hold hname huri with heq | heq
  · rw [heq]
  · rw [heq, Table.get?_put]
    by_cases h : name = record.name
    · rw [if_pos h, h, hname, (holds_iff.1 hold).1, Option.map_some, Option.map_some, huid]
    · rw [if_neg h]

theorem remove_remove (index : Index) (uri : Text) :
    (index.remove uri).2.remove uri = (false, (index.remove uri).2) := by
  have hnone : ¬ ((index.remove uri).2.records.any fun entry => entry.2.uri = uri) = true := by
    intro hany
    obtain ⟨entry, hentry, huri⟩ := List.any_eq_true.1 hany
    rw [records_remove] at hentry
    exact of_decide_eq_true (List.mem_filter.1 hentry).2 (of_decide_eq_true huri)
  generalize (index.remove uri).2 = again at hnone
  exact if_neg hnone

theorem upsert_of_some (h : Record.ofText? (index.sourceOf uri) text = some record) :
    index.upsert uri text = index.enter record := by
  unfold upsert
  rw [h]

theorem upsert_of_none (h : Record.ofText? (index.sourceOf uri) text = none) :
    index.upsert uri text = index.remove uri := by
  unfold upsert
  rw [h]

theorem isEmpty_eq_false_of_holds (h : holds record records = true) : records.isEmpty = false := by
  cases records with
  | nil => simp [holds, Table.get?] at h
  | cons entry rest => rfl

/-- A document that is entered again with the same name and identifier leaves what steps look up, and the
index as empty as it was. -/
theorem uidOf?_upsert_upsert (index : Index) (uri : Text) {text text' : Text}
    (h : (Record.ofText? (index.sourceOf uri) text').map Record.identity =
      (Record.ofText? (index.sourceOf uri) text).map Record.identity) :
    (∀ name, ((index.upsert uri text).2.upsert uri text').2.uidOf? name =
      (index.upsert uri text).2.uidOf? name) ∧
      (((index.upsert uri text).2.upsert uri text').2.records.isEmpty =
        (index.upsert uri text).2.records.isEmpty) := by
  have hsource : (index.upsert uri text).2.sourceOf uri = index.sourceOf uri := by
    unfold sourceOf
    rw [scanRoot_upsert]
  cases hold : Record.ofText? (index.sourceOf uri) text with
  | none =>
      have hnew : Record.ofText? (index.sourceOf uri) text' = none := by
        rw [hold] at h
        simpa using h
      rw [← hsource] at hnew
      rw [upsert_of_none hnew, upsert_of_none hold, remove_remove]
      exact ⟨fun _ => rfl, rfl⟩
  | some old =>
      rw [hold, Option.map_some, Option.map_eq_some_iff] at h
      obtain ⟨record, hnew, hidentity⟩ := h
      have hname : record.name = old.name := congrArg Identity.name hidentity
      have huid : record.uid = old.uid := congrArg Identity.uid hidentity
      have huri : record.uri = old.uri := (uri_of_ofText? hnew).trans (uri_of_ofText? hold).symm
      -- the record under the name is replaced by one with the same identifier
      have hholds : holds old (index.upsert uri text).2.records = true := by
        rw [upsert_of_some hold]
        exact holds_records_enter index old
      rw [← hsource] at hnew
      rw [upsert_of_some hnew]
      refine ⟨uidOf?_enter_of_holds hholds hname huri huid, ?_⟩
      rw [isEmpty_eq_false_of_holds (holds_records_enter _ record), isEmpty_eq_false_of_holds hholds]

end Scenarist.Index
