import Scenarist.Proofs.Declaration
import Scenarist.Proofs.Document
import Scenarist.Proofs.Regeneration
import Scenarist.Proofs.StepLine

set_option autoImplicit false

/-! # Values that calls can assign

A call assigns literals and references. The default that a document has for a parameter is one of these, whatever
the document declares: a value that is neither is put between quotes, and where there is none the name of the
parameter stands in. What is declared stands in one line, and so does the default.

Main statements: `Scalar.isCallWritten_callValue` (one value) and
`Declaration.isCallWritten_of_get?_parameterDefaults` (the defaults of a document). -/

namespace Scenarist

open Text

/-! ## Values -/

namespace Scalar

variable {value : Text}

/-- Whether a value is a literal or a reference in one line, without blanks around it. -/
structure IsCallWritten (value : Text) : Prop where
  isCallValue : isCallValue value = true
  strip_eq : strip value = value
  lineFeed_not_mem : '\n' ∉ value

theorem IsCallWritten.ne_nil (h : IsCallWritten value) : value ≠ [] := by
  rintro rfl
  exact absurd h.isCallValue (by decide)

theorem IsCallWritten.stripLeft_eq (h : IsCallWritten value) : stripLeft value = value := by
  rw [← h.strip_eq, stripLeft_strip]

theorem IsCallWritten.exists_eq_concat (h : IsCallWritten value) :
    ∃ front last, value = front ++ [last] ∧ last ≠ '\r' := by
  obtain ⟨front, last, rfl⟩ := (List.eq_nil_or_concat' value).resolve_left h.ne_nil
  refine ⟨front, last, rfl, ?_⟩
  rintro rfl
  have hlast : (strip (front ++ ['\r'])).getLast? = some '\r' := by rw [h.strip_eq, List.getLast?_concat]
  exact absurd (not_isBlank_getLast_strip hlast) (by decide)

theorem isCallWritten_quote (h : '\n' ∉ value) : IsCallWritten (quote value) where
  isCallValue := by rw [isCallValue, strip_quote, isQuoted_quote, Bool.true_or]
  strip_eq := strip_quote value
  lineFeed_not_mem := lineFeed_not_mem_quote h

/-- A declared value as a call writes it is one that a call can assign. -/
theorem isCallWritten_callValue {raw : Option Text} {name : Text} (hraw : ∀ text ∈ raw, '\n' ∉ text)
    (hname : '\n' ∉ name) : IsCallWritten (callValue raw name) := by
  have hfree : '\n' ∉ strip (raw.getD []) := by
    intro hmem
    cases raw with
    | none => exact absurd (mem_of_mem_strip hmem) List.not_mem_nil
    | some text => exact hraw text rfl (mem_of_mem_strip hmem)
  unfold callValue
  dsimp only
  split
  · exact isCallWritten_quote hname
  · split
    · next hwritten =>
      refine ⟨?_, strip_strip _, hfree⟩
      rw [isCallValue, strip_strip, Bool.or_comm]
      exact hwritten
    · exact isCallWritten_quote hfree

end Scalar

/-! ## Fields of items -/

namespace ListItem

theorem mem_of_fieldOf? {line word raw : Text} {c : Char} (h : fieldOf? line = some (word, raw)) (hc : c ∈ raw) :
    c ∈ line := by
  unfold fieldOf? at h
  dsimp only at h
  split at h
  · next colon rest first hrest hfirst =>
    split at h
    · cases h
    · obtain ⟨-, rfl⟩ := Prod.mk.inj (Option.some.inj h)
      have hbody : c ∈ (stripLeft line).dropWhile (· ≠ ':') := by
        rw [hrest]
        exact List.mem_cons_of_mem _ (mem_of_mem_strip hc)
      exact (List.dropWhile_sublist _).mem ((List.dropWhile_sublist _).mem hbody)
  · cases h

theorem mem_enter {fields : Table Text} {line : Text} {entry : Text × Text} (h : entry ∈ enter fields line) :
    entry ∈ fields ∨ fieldOf? line = some entry := by
  unfold enter at h
  dsimp only at h
  split at h
  · exact Or.inl h
  · split at h
    · exact Or.inl h
    · next word raw hfield =>
      unfold Table.putNew at h
      split at h
      · exact Or.inl h
      · rcases Table.mem_put h with rfl | hold
        · exact Or.inr hfield
        · exact Or.inl hold

/-- The fields of the items among lines are fields of the open item or of these lines. -/
theorem mem_tablesFrom {itemKey : Text} {current : Option (Table Text)} {lines : List Text} {fields : Table Text}
    {entry : Text × Text} (hfields : fields ∈ tablesFrom itemKey current lines) (hentry : entry ∈ fields) :
    (∃ item ∈ current, entry ∈ item) ∨ ∃ line ∈ lines, fieldOf? line = some entry := by
  induction lines generalizing current with
  | nil => exact Or.inl ⟨fields, Option.mem_toList.1 hfields, hentry⟩
  | cons line lines ih =>
      have hlater : (∃ line ∈ lines, fieldOf? line = some entry) →
          ∃ found ∈ line :: lines, fieldOf? found = some entry :=
        fun ⟨found, hfound, hfield⟩ => ⟨found, List.mem_cons_of_mem _ hfound, hfield⟩
      rw [tablesFrom] at hfields
      split at hfields
      · rcases List.mem_append.1 hfields with hclosed | hopened
        · exact Or.inl ⟨fields, Option.mem_toList.1 hclosed, hentry⟩
        · rcases ih hopened with ⟨item, hitem, hin⟩ | hline
          · obtain rfl := Option.some.inj hitem
            exact absurd hin List.not_mem_nil
          · exact Or.inr (hlater hline)
      · rcases ih hfields with ⟨item, hitem, hin⟩ | hline
        · obtain ⟨old, hold, rfl⟩ := Option.map_eq_some_iff.1 hitem
          rcases mem_enter hin with hin | hfield
          · exact Or.inl ⟨old, hold, hin⟩
          · exact Or.inr ⟨line, List.mem_cons_self, hfield⟩
        · exact Or.inr (hlater hline)

end ListItem

/-- The fields of the items of a section stand in one line each. -/
theorem SectionKey.lineFeed_not_mem_of_mem_itemsOf {key : SectionKey} {text : Text} {item : ListItem}
    (hitem : item ∈ key.itemsOf text) {field : Field} {raw : Text} (hraw : item.get? field = some raw) :
    '\n' ∉ raw := by
  have hfields : item.fields ∈ key.tablesIn (lines text) := by
    rw [← key.itemsOf_map_fields]
    exact List.mem_map_of_mem hitem
  rcases ListItem.mem_tablesFrom hfields (Table.mem_of_get?_eq_some hraw) with
    ⟨fields, hnone, -⟩ | ⟨line, hline, hfield⟩
  · exact absurd hnone (by simp)
  · rw [← linesOf_map_snd] at hline
    obtain ⟨entry, hentry, rfl⟩ := List.mem_map.1 hline
    exact fun hmem => lineFeed_not_mem_of_mem_linesOf hentry (ListItem.mem_of_fieldOf? hfield hmem)

/-! ## Defaults -/

namespace Declaration

/-- The default of a parameter is the value of an item as a call writes it, and only identifiers have one. -/
theorem exists_of_get?_parameterDefaults {text name value : Text}
    (h : (parameterDefaults text).get? name = some value) :
    isIdentifier name = true ∧
      ∃ item ∈ SectionKey.parameters.itemsOf text, value = Scalar.callValue (item.get? .value) name := by
  revert h
  unfold parameterDefaults
  -- a default that is in the table was put there by one of the items
  refine List.foldlRecOn (motive := fun known => Table.get? known name = some value → _) _ _ ?_
    fun known ih entry hentry hfound => ?_
  · intro hnone
    exact absurd hnone (by simp [Table.get?])
  · dsimp only at hfound
    split at hfound
    · next hidentifier =>
      rw [Table.get?_putNew, Option.or_eq_some_iff] at hfound
      rcases hfound with hknown | ⟨-, hnew⟩
      · exact ih hknown
      · obtain ⟨rfl, hvalue⟩ := Option.ite_none_right_eq_some.1 hnew
        exact ⟨hidentifier, entry.1, (mem_namedParameters hentry).1, (Option.some.inj hvalue).symm⟩
    · exact ih hfound

/-- The defaults that a document has for its parameters are values that a call can assign. -/
theorem isCallWritten_of_get?_parameterDefaults {text name value : Text}
    (h : (parameterDefaults text).get? name = some value) : Scalar.IsCallWritten value := by
  obtain ⟨hname, item, hitem, rfl⟩ := exists_of_get?_parameterDefaults h
  exact Scalar.isCallWritten_callValue (fun raw hraw => SectionKey.lineFeed_not_mem_of_mem_itemsOf hitem hraw)
    (Scalar.lineFeed_not_mem_of_isIdentifier hname)

end Declaration

end Scenarist
