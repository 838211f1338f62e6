import Scenarist.Proofs.Regeneration

set_option autoImplicit false

/-! # Readings that are not refused

A reading is refused if one of its scalars has no value. What stands between double quotes after it was
written has one, and escapes nothing but backslashes and quotes in it, so a section that was written anew is
read without refusal, and a record that could be made of a document can be made of it still.

Main statements: `Declaration.guard_scalarsOfNestedUids`, `Declaration.guard_scalarsOfParameterData` and
`Record.guard_scalarsOf_refill`. -/

namespace Scenarist

open Text

theorem guardScalars_eq_ok_iff {raws : List Text} :
    guardScalars raws () = .ok () ↔ ∀ raw ∈ raws, Scalar.fault? raw = none := by
  rw [← List.findSome?_eq_none_iff, guardScalars]
  cases raws.findSome? Scalar.fault? with
  | some code => simp
  | none => simp

/-- Whether the tables are those of items that were written. -/
def AreWritten (tables : List (Table Text)) : Prop :=
  ∀ fields ∈ tables, ∃ written : List (Field × Text), ListItem.tableOf written = fields

theorem areWritten_map_tableOf (items : List (List (Field × Text))) :
    AreWritten (items.map ListItem.tableOf) := by
  intro fields hfields
  obtain ⟨written, -, heq⟩ := List.mem_map.1 hfields
  exact ⟨written, heq⟩

theorem AreWritten.exists_eq_quote {tables : List (Table Text)} (h : AreWritten tables)
    {fields : Table Text} (hfields : fields ∈ tables) {word raw : Text}
    (hraw : fields.get? word = some raw) : ∃ value, raw = Scalar.quote value := by
  obtain ⟨written, rfl⟩ := h fields hfields
  unfold ListItem.tableOf at hraw
  rw [Table.get?_ofEntries] at hraw
  obtain ⟨entry, -, heq⟩ := List.mem_map.1 (Table.mem_of_get?_eq_some hraw)
  obtain ⟨-, rfl⟩ := Prod.mk.inj heq
  exact ⟨entry.2, rfl⟩

theorem AreWritten.fault?_eq {tables : List (Table Text)} (h : AreWritten tables)
    {fields : Table Text} (hfields : fields ∈ tables) {word raw : Text}
    (hraw : fields.get? word = some raw) : Scalar.fault? raw = none := by
  obtain ⟨value, rfl⟩ := h.exists_eq_quote hfields hraw
  exact Scalar.fault?_quote value

theorem areWritten_tablesIn_refill {key : SectionKey} {items : List (List (Field × Text))}
    (hitems : KeepLines items) (names : List Text) (text : Text) :
    AreWritten (key.tablesIn (lines (key.refill names (key.render items) text).text)) := by
  intro fields hfields
  obtain ⟨written, -, heq⟩ := exists_of_mem_tablesIn_refill hitems names text hfields
  exact ⟨written, heq⟩

/-! ## Declarations -/

namespace Declaration

variable {text : Text}

theorem guard_scalarsOfNestedUids (h : AreWritten (SectionKey.nested.tablesIn (lines text))) :
    guardScalars (scalarsOfNestedUids text) () = .ok () := by
  rw [guardScalars_eq_ok_iff]
  intro raw hraw
  obtain ⟨fields, hfields, field, hget⟩ := exists_field_of_mem_scalarsOfNestedUids hraw
  exact h.fault?_eq hfields hget

theorem guard_scalarsOfParameterData (h : AreWritten (SectionKey.parameters.tablesIn (lines text))) :
    guardScalars (scalarsOfParameterData text) () = .ok () := by
  rw [guardScalars_eq_ok_iff]
  intro raw hraw
  obtain ⟨fields, hfields, field, hget⟩ := exists_field_of_mem_scalarsOfParameterData hraw
  exact h.fault?_eq hfields hget

theorem namesHalf_of_mem_scalarsOfParameterData (h : AreWritten (SectionKey.parameters.tablesIn (lines text)))
    {raw : Text} (hraw : raw ∈ scalarsOfParameterData text) : Scalar.namesHalf raw = false := by
  obtain ⟨fields, hfields, field, hget⟩ := exists_field_of_mem_scalarsOfParameterData hraw
  obtain ⟨value, rfl⟩ := h.exists_eq_quote hfields hget
  exact Scalar.namesHalf_quote value

theorem fault?_of_areWritten_parameters
    (h : AreWritten (SectionKey.parameters.tablesIn (lines text))) {raw : Text}
    (hraw : raw ∈ scalarsOfParameterNames text) : Scalar.fault? raw = none := by
  rw [scalarsOfParameterNames_eq] at hraw
  obtain ⟨fields, hfields, hget⟩ := List.mem_filterMap.1 hraw
  exact h.fault?_eq hfields (Option.filter_eq_some_iff.1 hget).1

theorem fault?_of_areWritten_nested (h : AreWritten (SectionKey.nested.tablesIn (lines text)))
    {raw : Text} (hraw : raw ∈ scalarsOfNestedNames text) : Scalar.fault? raw = none := by
  rw [scalarsOfNestedNames_eq] at hraw
  obtain ⟨fields, hfields, hget⟩ := List.mem_filterMap.1 hraw
  exact h.fault?_eq hfields hget

/-- The names that a record lists are read as before, or of items that were written. -/
theorem fault?_of_mem_scalarsOfParameterNames {text' raw : Text}
    (h : SectionKey.parameters.tablesIn (lines text') = SectionKey.parameters.tablesIn (lines text) ∨
      AreWritten (SectionKey.parameters.tablesIn (lines text')))
    (hold : ∀ raw ∈ scalarsOfParameterNames text, Scalar.fault? raw = none)
    (hraw : raw ∈ scalarsOfParameterNames text') : Scalar.fault? raw = none := by
  rcases h with h | h
  · refine hold raw ?_
    rwa [scalarsOfParameterNames_eq, ← h, ← scalarsOfParameterNames_eq]
  · exact fault?_of_areWritten_parameters h hraw

theorem fault?_of_mem_scalarsOfNestedNames {text' raw : Text}
    (h : SectionKey.nested.tablesIn (lines text') = SectionKey.nested.tablesIn (lines text) ∨
      AreWritten (SectionKey.nested.tablesIn (lines text')))
    (hold : ∀ raw ∈ scalarsOfNestedNames text, Scalar.fault? raw = none)
    (hraw : raw ∈ scalarsOfNestedNames text') : Scalar.fault? raw = none := by
  rcases h with h | h
  · refine hold raw ?_
    rwa [scalarsOfNestedNames_eq, ← h, ← scalarsOfNestedNames_eq]
  · exact fault?_of_areWritten_nested h hraw

end Declaration

/-! ## Records -/

theorem SameIdentity.scalarsOfMetadata_eq {text text' : Text} (h : SameIdentity (lines text) (lines text'))
    (field : Field) :
    Declaration.scalarsOfMetadata field text = Declaration.scalarsOfMetadata field text' := by
  unfold Declaration.scalarsOfMetadata
  rw [Declaration.metadataLines_map_raw, Declaration.metadataLines_map_raw, h.metadataRaws_eq]

theorem SameIdentity.scenarioName?_eq {text text' : Text} (h : SameIdentity (lines text) (lines text')) :
    Declaration.scenarioName? text = Declaration.scenarioName? text' :=
  h.metadataField?_eq .name

/-- A record of the document is made without refusal after a section was written anew if it was before. -/
theorem Record.guard_scalarsOf_refill {key : SectionKey} {items : List (List (Field × Text))}
    (hitems : KeepLines items) (hmetadata : key ≠ .metadata) (hextended : key ≠ .extended)
    (names : List Text) {text : Text} (h : guardScalars (scalarsOf text) () = .ok ()) :
    guardScalars (scalarsOf (key.refill names (key.render items) text).text) () = .ok () := by
  have hkeeps := keepsOthers_refill hitems key names text
  -- what a section says now was either said before or is written by the program itself
  have htables : ∀ other : SectionKey,
      other.tablesIn (unmarkedLines (lines (key.refill names (key.render items) text).text)) =
          other.tablesIn (unmarkedLines (lines text)) ∨
        AreWritten
          (other.tablesIn (unmarkedLines (lines (key.refill names (key.render items) text).text))) := by
    intro other
    by_cases hother : other = key
    · rw [hother]
      rcases tablesIn_unmarkedLines_refill hitems names text with heq | heq
      · exact Or.inl heq
      · rw [heq]
        exact Or.inr (areWritten_map_tableOf items)
    · refine Or.inl ?_
      unfold SectionKey.tablesIn
      rw [hkeeps.unmarked other hother]
  have hidentity := SameIdentity.of_keepsOthers hkeeps hmetadata hextended
  generalize (key.refill names (key.render items) text).text = new at *
  rw [← lines_dropMark, ← lines_dropMark] at hidentity htables
  rw [guardScalars_eq_ok_iff] at h ⊢
  simp only [scalarsOf] at h ⊢
  rw [hidentity.scalarsOfMetadata_eq, hidentity.scalarsOfMetadata_eq, hidentity.scalarsOfMetadata_eq,
    hidentity.scenarioName?_eq]
  intro raw hraw
  -- the identity is as before, and so are the scalars that it is taken from
  rcases List.mem_append.1 hraw with hraw | hraw
  · exact h raw (List.mem_append_left _ hraw)
  · have hrest := fun r hr => h r (List.mem_append_right _ hr)
    split at hraw
    · exact absurd hraw List.not_mem_nil
    · next hname =>
      simp only [hname, Bool.false_eq_true, if_false] at hrest
      simp only [List.mem_append] at hraw hrest
      rcases hraw with ((hraw | hraw) | hraw) | hraw
      · exact hrest raw (Or.inl (Or.inl (Or.inl hraw)))
      · exact hrest raw (Or.inl (Or.inl (Or.inr hraw)))
      · exact Declaration.fault?_of_mem_scalarsOfParameterNames (htables .parameters)
          (fun r hr => hrest r (Or.inl (Or.inr hr))) hraw
      · exact Declaration.fault?_of_mem_scalarsOfNestedNames (htables .nested)
          (fun r hr => hrest r (Or.inr hr)) hraw

end Scenarist
