import Scenarist.Proofs.ListItem

set_option autoImplicit false

/-! # What declarations depend on

The declared parameters and calls of a document depend on the tables of its items alone, and its metadata
on the scalars of one section; indentation does not matter to either.

Main statements: `Declaration.get?_parameterData`, `Declaration.get?_nestedUids` (the first table that
declares a name counts) and `Declaration.metadataField?_map_value`. -/

namespace Scenarist.Declaration

open Text

/-! ## Parameters -/

/-- The parameter that the fields of an item declare with a value. -/
def declaredParameter? (fields : Table Text) : Option (Text × ParameterData) :=
  match fields.get? Field.name.word with
  | none => none
  | some raw =>
    let name := Scalar.parameterName raw
    if raw.isEmpty || name.isEmpty then none
    else (dataOf? ⟨0, fields⟩).map fun data => (name, data)

/-- The parameters that the items of a section declare with a value. -/
def parameterEntries (lines : List Text) : List (Text × ParameterData) :=
  (SectionKey.parameters.tablesIn lines).filterMap declaredParameter?

theorem foldl_namedParameters (items : List ListItem) (known : Table ParameterData) :
    (items.filterMap fun item => match item.get? .name with
      | some raw => if raw.isEmpty then none else some (item, raw)
      | none => none).foldl (fun known (item, raw) =>
        let name := Scalar.parameterName raw
        match dataOf? item with
        | some data => if name.isEmpty then known else known.putNew name data
        | none => known) known =
    ((items.map (·.fields)).filterMap declaredParameter?).foldl
      (fun table entry => Table.putNew entry.1 entry.2 table) known := by
  induction items generalizing known with
  | nil => rfl
  | cons item items ih =>
      have hdata : dataOf? ⟨0, item.fields⟩ = dataOf? item := rfl
      have hname : item.fields.get? Field.name.word = item.get? .name := rfl
      simp only [List.filterMap_cons, List.map_cons, declaredParameter?, hdata, hname]
      cases item.get? .name with
      | none => exact ih known
      | some raw =>
          cases hraw : raw.isEmpty with
          | true =>
              simp only [hraw, if_true, Bool.true_or]
              exact ih known
          | false =>
              cases hempty : (Scalar.parameterName raw).isEmpty <;> cases hd : dataOf? item <;>
                simp only [hraw, hempty, hd, Bool.false_eq_true, Bool.or_true, Bool.or_false,
                  Option.map_some, Option.map_none, if_true, if_false, List.foldl_cons] <;>
                exact ih _

theorem parameterData_eq (text : Text) :
    parameterData text = Table.ofEntries (parameterEntries (lines text)) := by
  unfold parameterEntries
  rw [← SectionKey.itemsOf_map_fields]
  exact foldl_namedParameters (SectionKey.parameters.itemsOf text) []

/-- The first item that declares a parameter with a value counts. -/
theorem get?_parameterData (text name : Text) :
    (parameterData text).get? name = Table.get? (parameterEntries (lines text)) name := by
  rw [parameterData_eq, Table.get?_ofEntries]

theorem nodup_keys_parameterData (text : Text) : (Table.keys (parameterData text)).Nodup := by
  rw [parameterData_eq]
  exact Table.nodup_keys_ofEntries _

/-- The parameter that the fields of an item declare, with or without a value. -/
def declaredName? (fields : Table Text) : Option Text :=
  (fields.get? Field.name.word).bind fun raw =>
    if raw.isEmpty || (Scalar.parameterName raw).isEmpty then none else some (Scalar.parameterName raw)

theorem declaredParameters_eq (text : Text) :
    declaredParameters text = (SectionKey.parameters.tablesIn (lines text)).filterMap declaredName? := by
  rw [← SectionKey.itemsOf_map_fields, List.filterMap_map]
  unfold declaredParameters namedParameters
  rw [List.filterMap_filterMap]
  refine List.filterMap_congr fun item _ => ?_
  have hname : item.fields.get? Field.name.word = item.get? .name := rfl
  rw [Function.comp_apply, declaredName?, hname]
  cases item.get? .name with
  | none => rfl
  | some raw =>
      cases hraw : raw.isEmpty with
      | true => simp only [hraw, Option.bind_some, Option.bind_none, Bool.true_or, if_true]
      | false => simp only [hraw, Option.bind_some, Bool.false_or, Bool.false_eq_true, if_false]

/-! ## Called scenarios -/

/-- The scenario that the fields of an item declare to be called, with its identifier. -/
def declaredCall? (fields : Table Text) : Option (Text × Text) :=
  let name := nestedName ⟨0, fields⟩
  let uid := nestedUid ⟨0, fields⟩
  if name.isEmpty || uid.isEmpty then none else some (name, uid)

/-- The scenario that the fields of an item declare to be called, with or without an identifier. -/
def calledScenario? (fields : Table Text) : Option Text :=
  let name := nestedName ⟨0, fields⟩
  if name.isEmpty then none else some name

theorem nestedNames_eq (text : Text) :
    nestedNames text = (SectionKey.nested.tablesIn (lines text)).filterMap calledScenario? := by
  rw [← SectionKey.itemsOf_map_fields, List.filterMap_map]
  rfl

/-- The scenarios that the items of a section declare to be called, with their identifiers. -/
def nestedEntries (lines : List Text) : List (Text × Text) :=
  (SectionKey.nested.tablesIn lines).filterMap declaredCall?

theorem nestedUids_eq (text : Text) :
    nestedUids text = Table.ofEntries (nestedEntries (lines text)) := by
  have key : ∀ (items : List ListItem) (uids : Table Text),
      items.foldl (fun uids item =>
        let name := nestedName item
        let uid := nestedUid item
        if name.isEmpty || uid.isEmpty then uids else uids.putNew name uid) uids =
      ((items.map (·.fields)).filterMap declaredCall?).foldl
        (fun table entry => Table.putNew entry.1 entry.2 table) uids := by
    intro items
    induction items with
    | nil => exact fun _ => rfl
    | cons item items ih =>
        intro uids
        have hname : nestedName ⟨0, item.fields⟩ = nestedName item := rfl
        have huid : nestedUid ⟨0, item.fields⟩ = nestedUid item := rfl
        simp only [List.foldl_cons, List.map_cons, List.filterMap_cons, declaredCall?, hname, huid]
        split
        · exact ih uids
        · exact ih _
  unfold nestedEntries
  rw [← SectionKey.itemsOf_map_fields]
  exact key (SectionKey.nested.itemsOf text) []

/-- The first item that declares a called scenario with an identifier counts. -/
theorem get?_nestedUids (text name : Text) :
    (nestedUids text).get? name = Table.get? (nestedEntries (lines text)) name := by
  rw [nestedUids_eq, Table.get?_ofEntries]

/-! ## Scalars of items -/

theorem scalarsOfParameterNames_eq (text : Text) :
    scalarsOfParameterNames text =
      (SectionKey.parameters.tablesIn (lines text)).filterMap fun fields =>
        (fields.get? Field.name.word).filter (!·.isEmpty) := by
  unfold scalarsOfParameterNames namedParameters
  rw [← SectionKey.itemsOf_map_fields, List.map_filterMap, List.filterMap_map]
  refine List.filterMap_congr fun item _ => ?_
  have hname : item.fields.get? Field.name.word = item.get? .name := rfl
  simp only [Function.comp_apply, hname]
  cases item.get? .name with
  | none => rfl
  | some raw => cases hraw : raw.isEmpty <;> simp only [hraw, Option.filter_some] <;> rfl

theorem scalarsOfNestedNames_eq (text : Text) :
    scalarsOfNestedNames text =
      (SectionKey.nested.tablesIn (lines text)).filterMap (·.get? Field.nestedName.word) := by
  unfold scalarsOfNestedNames
  rw [← SectionKey.itemsOf_map_fields, List.filterMap_map]
  rfl

theorem mem_namedParameters {text raw : Text} {item : ListItem} (h : (item, raw) ∈ namedParameters text) :
    item ∈ SectionKey.parameters.itemsOf text ∧ item.get? .name = some raw := by
  obtain ⟨found, hfound, heq⟩ := List.mem_filterMap.1 h
  cases hname : found.get? .name with
  | none => simp [hname] at heq
  | some name =>
      rw [hname] at heq
      simp only [Option.ite_none_left_eq_some, Option.some.injEq, Prod.mk.injEq] at heq
      obtain ⟨-, rfl, rfl⟩ := heq
      exact ⟨hfound, hname⟩

theorem mem_or_of_mem_foldl_scalars {raw : Text} (named : List (ListItem × Text)) (raws seen : List Text)
    (h : raw ∈ (named.foldl (fun (raws, seen) (item, raw) =>
      match item.get? .value with
      | none => (raws, seen)
      | some value =>
        let name := Scalar.parameterName raw
        if name.isEmpty || name ∈ seen then (raws ++ [raw], seen)
        else (raws ++ [raw, value] ++ (item.get? .type).toList ++ (item.get? .outgoing).toList,
          name :: seen)) (raws, seen)).1) :
    raw ∈ raws ∨ ∃ entry ∈ named, raw = entry.2 ∨ ∃ field, entry.1.get? field = some raw := by
  induction named generalizing raws seen with
  | nil => exact Or.inl h
  | cons entry named ih =>
      -- what is added for an entry is its name or one of its fields
      have hlater : (∃ found ∈ named, raw = found.2 ∨ ∃ field, found.1.get? field = some raw) →
          ∃ found ∈ entry :: named, raw = found.2 ∨ ∃ field, found.1.get? field = some raw :=
        fun ⟨found, hfound, hraw⟩ => ⟨found, List.mem_cons_of_mem _ hfound, hraw⟩
      have hhere : (raw = entry.2 ∨ ∃ field, entry.1.get? field = some raw) →
          ∃ found ∈ entry :: named, raw = found.2 ∨ ∃ field, found.1.get? field = some raw :=
        fun hraw => ⟨entry, List.mem_cons_self, hraw⟩
      rw [List.foldl_cons] at h
      cases hvalue : entry.1.get? .value with
      | none =>
          simp only [hvalue] at h
          exact (ih raws seen h).imp_right hlater
      | some value =>
          simp only [hvalue] at h
          split at h
          · rcases ih _ _ h with hmem | hmem
            · rcases List.mem_append.1 hmem with hmem | hmem
              · exact Or.inl hmem
              · exact Or.inr (hhere (Or.inl (List.mem_singleton.1 hmem)))
            · exact Or.inr (hlater hmem)
          · rcases ih _ _ h with hmem | hmem
            · simp only [List.mem_append, List.mem_cons, List.not_mem_nil, or_false,
                Option.mem_toList] at hmem
              rcases hmem with ((hmem | rfl | rfl) | hmem) | hmem
              · exact Or.inl hmem
              · exact Or.inr (hhere (Or.inl rfl))
              · exact Or.inr (hhere (Or.inr ⟨.value, hvalue⟩))
              · exact Or.inr (hhere (Or.inr ⟨.type, hmem⟩))
              · exact Or.inr (hhere (Or.inr ⟨.outgoing, hmem⟩))
            · exact Or.inr (hlater hmem)

/-- Every scalar that is read of declared parameters is a field of an item. -/
theorem exists_field_of_mem_scalarsOfParameterData {text raw : Text}
    (h : raw ∈ scalarsOfParameterData text) :
    ∃ fields ∈ SectionKey.parameters.tablesIn (lines text), ∃ field : Field,
      fields.get? field.word = some raw := by
  rcases mem_or_of_mem_foldl_scalars (namedParameters text) [] [] h with hmem | ⟨entry, hentry, hraw⟩
  · exact absurd hmem (List.not_mem_nil)
  · obtain ⟨hitem, hname⟩ := mem_namedParameters hentry
    rw [← SectionKey.itemsOf_map_fields]
    refine ⟨entry.1.fields, List.mem_map_of_mem hitem, ?_⟩
    rcases hraw with rfl | ⟨field, hfield⟩
    · exact ⟨.name, hname⟩
    · exact ⟨field, hfield⟩

theorem exists_field_of_mem_scalarsOfNestedUids {text raw : Text}
    (h : raw ∈ scalarsOfNestedUids text) :
    ∃ fields ∈ SectionKey.nested.tablesIn (lines text), ∃ field : Field,
      fields.get? field.word = some raw := by
  rw [← SectionKey.itemsOf_map_fields]
  obtain ⟨item, hitem, hraw⟩ := List.mem_flatMap.1 h
  refine ⟨item.fields, List.mem_map_of_mem hitem, ?_⟩
  rcases List.mem_append.1 hraw with hraw | hraw
  · exact ⟨.nestedName, Option.mem_toList.1 hraw⟩
  · exact ⟨.nestedUid, Option.mem_toList.1 hraw⟩

/-! ## Metadata -/

def metadataRaws (field : Field) (lines : List Text) : List Text :=
  ((SectionKey.metadata.bodyIn lines).map trimReturns).filterMap fun line =>
    (after? (field.word ++ [':']) (stripLeft line)).map strip

theorem metadataLines_map_raw (field : Field) (text : Text) :
    (metadataLines field text).map (·.2.2) = metadataRaws field (lines text) := by
  unfold metadataLines metadataRaws
  rw [← SectionKey.linesOf_map_snd, List.map_filterMap, List.filterMap_map]
  refine List.filterMap_congr fun entry _ => ?_
  simp [Function.comp_def]

/-- The value of a metadata field is the first that is not blank. -/
theorem metadataField?_map_value (field : Field) (text : Text) :
    (metadataField? field text).map (·.value) =
      (metadataRaws field (lines text)).findSome? fun raw =>
        let value := strip (Scalar.unquote raw)
        if value.isEmpty then none else some value := by
  rw [← metadataLines_map_raw]
  unfold metadataField?
  induction metadataLines field text with
  | nil => rfl
  | cons entry entries ih =>
      simp only [List.findSome?_cons, List.map_cons]
      cases (strip (Scalar.unquote entry.2.2)).isEmpty with
      | true => simpa using ih
      | false => simp

end Scenarist.Declaration
