import Scenarist.Proofs.Index.Journal

set_option autoImplicit false

/-! # Withdrawing what was entered

A document is entered under the path that its uri writes. A lookup by uri, a removal and the entry of a
text that declares no scenario compare the records with the uri as it is given. So all three reach the
record of a document under the uri that the record has, which is the one that the document was entered with
if this is written the way its path is, and another one otherwise.

Main statements: `Index.not_mem_remove_enter_iff` (which uris withdraw a record that was entered) and
`Index.withdraws_iff` (when the uri of a document withdraws its record). -/

namespace Scenarist.Index

variable {index : Index} {record : Record} {uri text blank : Text}

/-! ## What a uri reaches -/

theorem mem_allRecords_remove_iff : record ∈ (index.remove uri).2.allRecords ↔
    record ∈ index.allRecords ∧ record.uri ≠ uri := by
  unfold allRecords Table.values
  rw [records_remove]
  simp only [List.mem_map, List.mem_filter, decide_eq_true_eq]
  constructor
  · rintro ⟨entry, ⟨hentry, huri⟩, rfl⟩
    exact ⟨⟨entry, hentry, rfl⟩, huri⟩
  · rintro ⟨⟨entry, hentry, rfl⟩, huri⟩
    exact ⟨entry, ⟨hentry, huri⟩, rfl⟩

theorem recordOf?_uri_enter (index : Index) (record : Record) :
    (index.enter record).2.recordOf? record.uri = some record :=
  find?_values_of_holds (holds_records_enter index record)

theorem mem_allRecords_enter (index : Index) (record : Record) :
    record ∈ (index.enter record).2.allRecords :=
  List.mem_of_find?_eq_some (recordOf?_uri_enter index record)

/-- A record that was entered is found under its own uri alone. -/
theorem recordOf?_enter_iff : (index.enter record).2.recordOf? uri = some record ↔ record.uri = uri := by
  constructor
  · intro hfound
    simpa using List.find?_some hfound
  · rintro rfl
    exact recordOf?_uri_enter index record

/-- A record that was entered is withdrawn under its own uri alone. -/
theorem not_mem_remove_enter_iff :
    record ∉ ((index.enter record).2.remove uri).2.allRecords ↔ record.uri = uri := by
  rw [mem_allRecords_remove_iff, not_and, not_ne_iff]
  exact ⟨fun h => h (mem_allRecords_enter index record), fun h _ => h⟩

/-! ## The record of a document -/

/-- The record that a document was entered with is found by the path that its uri writes. -/
theorem recordOf?_path_upsert (index : Index) (uri text : Text) (hname : Record.nameOf? text ≠ none) :
    (index.upsert uri text).2.recordOf? (Path.ofText uri).toText =
      Record.ofText? (index.sourceOf uri) text := by
  cases hrecord : Record.ofText? (index.sourceOf uri) text with
  | none =>
      rw [← Record.name_ofText? (index.sourceOf uri), hrecord] at hname
      exact absurd rfl hname
  | some record =>
      have hplace : record.uri = (Path.ofText uri).toText := uri_of_ofText? hrecord
      rw [upsert_of_some hrecord, recordOf?_enter_iff]
      exact hplace

/-- After a document was entered its record is found by its uri exactly if the uri is written the way its
path is, or there is no record to be found. -/
theorem recordOf?_upsert_iff (index : Index) (uri text : Text) :
    (index.upsert uri text).2.recordOf? uri = Record.ofText? (index.sourceOf uri) text ↔
      IsNormal uri ∨ Record.nameOf? text = none := by
  rw [← Record.name_ofText? (index.sourceOf uri), Option.map_eq_none_iff]
  cases hrecord : Record.ofText? (index.sourceOf uri) text with
  | none =>
      rw [upsert_of_none hrecord, recordOf?_remove]
      exact iff_of_true rfl (Or.inr rfl)
  | some record =>
      have hplace : record.uri = (Path.ofText uri).toText := uri_of_ofText? hrecord
      rw [upsert_of_some hrecord, recordOf?_enter_iff, hplace, or_iff_left (Option.some_ne_none record)]
      exact Iff.rfl

theorem tryUpsert_of_read_some (h : Record.read (index.sourceOf uri) text = .ok (some record)) :
    index.tryUpsert uri text = .ok (index.enter record) := by
  rw [← upsert_of_some (eq_of_guardScalars_eq_ok h).symm]
  exact guardScalars_eq_ok_of_eq_ok h _

theorem tryUpsert_of_read_none (h : Record.read (index.sourceOf uri) text = .ok none) :
    index.tryUpsert uri text = .ok (index.remove uri) := by
  rw [← upsert_of_none (eq_of_guardScalars_eq_ok h).symm]
  exact guardScalars_eq_ok_of_eq_ok h _

theorem sourceOf_enter (index : Index) (record : Record) :
    (index.enter record).2.sourceOf = index.sourceOf := by
  unfold enter
  split <;> rfl

/-- Whatever an index holds, a document that declares a scenario is entered, and so is, under the same uri,
a text that declares none. The record of the document is found under this uri in between, gone when the
uri is removed, and gone when the other text is entered, each of them if and only if the uri is written
the way its path is. Under its own uri the record is found and withdrawn whatever uri the document has. -/
theorem withdraws_iff (index : Index)
    (htext : Record.read (index.sourceOf uri) text = .ok (some record))
    (hblank : Record.read (index.sourceOf uri) blank = .ok none) :
    ∃ changed entered changed' left, index.tryUpsert uri text = .ok (changed, entered) ∧
      entered.tryUpsert uri blank = .ok (changed', left) ∧
      (entered.recordOf? uri = some record ↔ IsNormal uri) ∧
      (record ∉ (entered.remove uri).2.allRecords ↔ IsNormal uri) ∧
      (record ∉ left.allRecords ↔ IsNormal uri) ∧
      entered.recordOf? record.uri = some record ∧
      record ∉ (entered.remove record.uri).2.allRecords := by
  have hplace : record.uri = (Path.ofText uri).toText := uri_of_ofText? (eq_of_guardScalars_eq_ok htext).symm
  have hnormal : record.uri = uri ↔ IsNormal uri := by
    rw [hplace]
    exact Iff.rfl
  rw [← sourceOf_enter index record] at hblank
  exact ⟨_, _, _, _, tryUpsert_of_read_some htext, tryUpsert_of_read_none hblank,
    recordOf?_enter_iff.trans hnormal, not_mem_remove_enter_iff.trans hnormal,
    not_mem_remove_enter_iff.trans hnormal, recordOf?_enter_iff.2 rfl, not_mem_remove_enter_iff.2 rfl⟩

theorem withdraws_iff_plainUri :
    ∃ changed entered changed' left,
      bareIndex.tryUpsert "/ws/a".toList (declaring "N".toList) = .ok (changed, entered) ∧
      entered.tryUpsert "/ws/a".toList [] = .ok (changed', left) ∧
      entered.recordOf? "/ws/a".toList = some (soleRecord "/ws/a".toList "N".toList) ∧
      soleRecord "/ws/a".toList "N".toList ∉ (entered.remove "/ws/a".toList).2.allRecords ∧
      soleRecord "/ws/a".toList "N".toList ∉ left.allRecords := by
  obtain ⟨changed, entered, changed', left, hentered, hleft, hfound, hremoved, hemptied, -⟩ :=
    @withdraws_iff (soleRecord "/ws/a".toList "N".toList) "/ws/a".toList (declaring "N".toList) [] bareIndex
      (by decide +kernel) (by decide +kernel)
  have hnormal : IsNormal "/ws/a".toList := by decide +kernel
  exact ⟨changed, entered, changed', left, hentered, hleft, hfound.2 hnormal, hremoved.2 hnormal,
    hemptied.2 hnormal⟩

def doubledSlash : Text := "/ws//a".toList

/-- What is entered under it is neither found nor withdrawn under it. -/
theorem allRecords_doubledSlash_kept :
    ∃ entered, bareIndex.tryUpsert doubledSlash (declaring "N".toList) = .ok (true, entered) ∧
      entered.allRecords = [soleRecord "/ws/a".toList "N".toList] ∧
      entered.recordOf? doubledSlash = none ∧
      entered.remove doubledSlash = (false, entered) ∧
      Record.nameOf? [] = none ∧ entered.tryUpsert doubledSlash [] = .ok (false, entered) :=
  ⟨(bareIndex.upsert doubledSlash (declaring "N".toList)).2, by decide +kernel⟩

end Scenarist.Index
