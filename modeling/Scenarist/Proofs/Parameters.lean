import Scenarist.Proofs.Guard

set_option autoImplicit false

/-! # Declared parameters, written anew

The parameters that a script uses are identifiers, so their names are read back whatever else is written.
Their data come from the document, then from the session, then from their names, and they are read back if
each of them is faithful: a value is cut off at its first line feed, and a value that is no scalar between
double quotes changes. All this is about documents that can be read: a scalar without a value ends a reading,
and half of a surrogate pair, which an escape may name, is no character of a text here.

Main statements: `Declaration.get?_parameterData_refill` (what is read of the items) and
`parameterData_regenerateParameters_iff` (when the data of a document survive). -/

namespace Scenarist

open Text

/-! ## Used parameters -/

theorem isIdentifier_of_mem_referencesFrom (scan : ReferenceScan) (line : Text)
    (hscan : ∀ passed, scan = .inside passed → ∀ c ∈ passed, isNameLetter c = true) {name : Text}
    (h : name ∈ referencesFrom scan line) : isIdentifier name = true := by
  -- inside brackets, all that was passed are letters of a name; outside nothing is claimed
  have houtside : ∀ escaped passed, ReferenceScan.outside escaped = .inside passed →
      ∀ c ∈ passed, isNameLetter c = true := by
    intro escaped passed hscan
    exact ReferenceScan.noConfusion hscan
  have hopened : ∀ passed, ReferenceScan.inside [] = .inside passed →
      ∀ c ∈ passed, isNameLetter c = true := by
    rintro passed hscan c hc
    obtain rfl := ReferenceScan.inside.inj hscan
    exact absurd hc List.not_mem_nil
  induction line generalizing scan with
  | nil => simp [referencesFrom] at h
  | cons d ds ih =>
      cases scan with
      | outside escaped =>
          unfold referencesFrom at h
          split at h
          · exact ih _ hopened h
          · exact ih _ (houtside _) h
      | inside passed =>
          have hpassed := hscan passed rfl
          unfold referencesFrom at h
          split at h
          · next hletter =>
            refine ih _ ?_ h
            intro found hfound c hc
            obtain rfl := ReferenceScan.inside.inj hfound
            rcases List.mem_cons.1 hc with rfl | hc
            · exact hletter
            · exact hpassed c hc
          · split at h
            · next hclose =>
              rcases List.mem_cons.1 h with rfl | h
              · have hall : ∀ c ∈ passed.reverse, isNameLetter c = true :=
                  fun c hc => hpassed c (List.mem_reverse.1 hc)
                simpa [isIdentifier, hclose.2] using hpassed
              · exact ih _ (houtside _) h
            · split at h
              · exact ih _ hopened h
              · exact ih _ (houtside _) h

theorem isIdentifier_of_mem_usedParameters {text name : Text} {exclusions : List Text}
    (h : name ∈ usedParameters text exclusions) : isIdentifier name = true := by
  obtain ⟨hmem, -⟩ := List.mem_filter.1 (mem_distinct.1 h)
  obtain ⟨entry, -, hentry⟩ := List.mem_flatMap.1 hmem
  exact isIdentifier_of_mem_referencesFrom _ _ (fun _ hscan => ReferenceScan.noConfusion hscan) hentry

theorem nodup_usedParameters (text : Text) (exclusions : List Text) :
    (usedParameters text exclusions).Nodup := nodup_distinct _

/-- The used parameters depend on the script alone. -/
theorem usedParameters_congr {text text' : Text}
    (h : SectionKey.script.bodyIn (lines text) = SectionKey.script.bodyIn (lines text'))
    (exclusions : List Text) : usedParameters text exclusions = usedParameters text' exclusions := by
  have key : ∀ document, (scriptLines document).flatMap (fun entry => references entry.2) =
      ((SectionKey.script.bodyIn (lines document)).map trimReturns).flatMap references := by
    intro document
    rw [← SectionKey.linesOf_map_snd, List.flatMap_map]
    rfl
  unfold usedParameters
  rw [key text, key text', h]

/-! ## What is written -/

namespace ParameterData

def filled (data : ParameterData) : ParameterData where
  value := data.value
  type := Declaration.orElse data.type defaultType
  outgoing := Declaration.orElse data.outgoing defaultOutgoing

/-- The data that are read of data that are written. -/
def reread (data : ParameterData) : ParameterData where
  value := Scalar.reread data.value
  type := Declaration.orElse (Scalar.reread data.type) defaultType
  outgoing := Declaration.orElse (Scalar.reread data.outgoing) defaultOutgoing

/-- Whether data are read back from what they are written as. -/
structure IsFaithful (data : ParameterData) : Prop where
  value : Scalar.IsFaithful data.value
  type : Scalar.IsFaithful data.type
  outgoing : Scalar.IsFaithful data.outgoing

instance (data : ParameterData) : Decidable data.IsFaithful :=
  decidable_of_iff (Scalar.IsFaithful data.value ∧ Scalar.IsFaithful data.type ∧
    Scalar.IsFaithful data.outgoing)
    ⟨fun h => ⟨h.1, h.2.1, h.2.2⟩, fun h => ⟨h.value, h.type, h.outgoing⟩⟩

end ParameterData

def parameterFields (data : ParameterData) (number : Nat) (name : Text) : List (Field × Text) :=
  [(.number, ofNat number), (.name, name), (.value, data.value), (.type, data.type),
    (.outgoing, data.outgoing)]

def parameterItems (data : Text → ParameterData) (names : List Text) : List (List (Field × Text)) :=
  names.zipIdx.map fun entry => parameterFields (data entry.1) (entry.2 + 1) entry.1

/-- Parameters are written only if there is a script. -/
theorem bodyIn_ne_nil_of_render_parameterItems {data : Text → ParameterData} {text : Text}
    {exclusions : List Text}
    (h : SectionKey.parameters.render (parameterItems data (usedParameters text exclusions)) ≠ []) :
    SectionKey.script.bodyIn (lines text) ≠ [] := by
  cases hlisted : usedParameters text exclusions with
  | nil =>
      rw [hlisted] at h
      exact absurd rfl h
  | cons name names =>
      have hname : name ∈ usedParameters text exclusions := hlisted ▸ List.mem_cons_self
      obtain ⟨hmem, -⟩ := List.mem_filter.1 (mem_distinct.1 hname)
      obtain ⟨entry, hentry, -⟩ := List.mem_flatMap.1 hmem
      obtain ⟨raw, hraw, -⟩ := SectionKey.exists_of_mem_linesOf hentry
      exact List.ne_nil_of_mem hraw

theorem map_zipIdx_map {α β γ : Type} (f : α → Nat → β) (g : β → Nat → γ) (items : List α) :
    ((items.zipIdx.map fun entry => f entry.1 entry.2).zipIdx.map fun entry => g entry.1 entry.2) =
      items.zipIdx.map fun entry => g (f entry.1 entry.2) entry.2 := by
  have key : ∀ n, (((items.zipIdx n).map fun entry => f entry.1 entry.2).zipIdx n).map
      (fun entry => g entry.1 entry.2) =
        (items.zipIdx n).map fun entry => g (f entry.1 entry.2) entry.2 := by
    induction items with
    | nil => exact fun _ => rfl
    | cons item items ih =>
        intro n
        simp only [List.zipIdx_cons, List.map_cons]
        rw [ih (n + 1)]
  exact key 0

theorem renderNumbered_parameterItem (data : Text → ParameterData) (names : List Text) :
    renderNumbered (fun number name => parameterItem (data name) number name) names =
      SectionKey.parameters.render (parameterItems (fun name => (data name).filled) names) := by
  unfold renderNumbered SectionKey.render parameterItems
  rw [map_zipIdx_map (fun name i => parameterFields (data name).filled (i + 1) name)
    fun fields i => renderItem .parameters (i + 1) fields]
  rfl

/-- The data that are written for a parameter: those of the document, those of the session, or those that
follow from the name. -/
def writtenData (session : Session) (uri text name : Text) : ParameterData :=
  ((((session.merge uri (Declaration.parameterData text)).overridesOf uri).get? name).getD
    (ParameterData.ofName name)).filled

theorem regenerateParameters_eq (session : Session) (uri text : Text) (exclusions : List Text) :
    (regenerateParameters session uri text exclusions).1 =
      SectionKey.parameters.refill (usedParameters text exclusions)
        (SectionKey.parameters.render (parameterItems (writtenData session uri text)
          (usedParameters text exclusions))) text := by
  have hrender := renderNumbered_parameterItem
    (fun name => (((session.merge uri (Declaration.parameterData text)).overridesOf uri).get? name).getD
      (ParameterData.ofName name)) (usedParameters text exclusions)
  exact congrArg (fun rendered => SectionKey.parameters.refill (usedParameters text exclusions)
    rendered text) hrender

/-! ## What is read back -/

namespace Declaration

theorem orElse_filled (text otherwise : Text) :
    orElse (orElse text otherwise) otherwise = orElse text otherwise := by
  unfold orElse
  cases h : text.isEmpty with
  | true => cases h' : otherwise.isEmpty <;> simp [h']
  | false => simp [h]

theorem filled_of_declaredParameter? {fields : Table Text} {name : Text} {data : ParameterData}
    (h : declaredParameter? fields = some (name, data)) : data.filled = data := by
  have hdata : ∃ item, dataOf? item = some data := by
    unfold declaredParameter? at h
    cases hname : fields.get? Field.name.word with
    | none => simp [hname] at h
    | some raw =>
        simp only [hname, Option.ite_none_left_eq_some, Option.map_eq_some_iff, Prod.mk.injEq] at h
        obtain ⟨-, found, hfound, -, rfl⟩ := h
        exact ⟨_, hfound⟩
  obtain ⟨item, hitem⟩ := hdata
  obtain ⟨raw, -, rfl⟩ := Option.map_eq_some_iff.1 hitem
  unfold ParameterData.filled
  simp only [orElse_filled]

theorem filled_of_get?_parameterData {text name : Text} {data : ParameterData}
    (h : (parameterData text).get? name = some data) : data.filled = data := by
  rw [get?_parameterData] at h
  obtain ⟨fields, -, hfields⟩ := List.mem_filterMap.1 (Table.mem_of_get?_eq_some h)
  exact filled_of_declaredParameter? hfields

/-- What the fields of an item declare if they hold an identifier and a value. -/
theorem declaredParameter?_of_get? {fields : Table Text} {name value : Text}
    (hname : fields.get? Field.name.word = some (Scalar.quote name)) (hidentifier : isIdentifier name = true)
    (hvalue : fields.get? Field.value.word = some value) :
    declaredParameter? fields = some (name, {
      value := Scalar.unquote value
      type := orElse (Scalar.unquote ((fields.get? Field.type.word).getD [])) ParameterData.defaultType
      outgoing := orElse (Scalar.unquote ((fields.get? Field.outgoing.word).getD []))
        ParameterData.defaultOutgoing }) := by
  have hnonempty : name.isEmpty = false := by
    cases name with
    | nil => exact absurd hidentifier (by decide)
    | cons c cs => rfl
  have hquote : (Scalar.quote name).isEmpty = false := rfl
  unfold declaredParameter?
  rw [hname]
  simp only [Scalar.parameterName_quote hidentifier, hnonempty, hquote, Bool.or_self,
    Bool.false_eq_true, if_false]
  have hitem : ListItem.get? ⟨0, fields⟩ .value = some value := hvalue
  unfold dataOf?
  rw [hitem]
  rfl

/-- What is read of an item of which some fields are there, cut off at their first line feeds. -/
theorem declaredParameter?_of_fields {fields : Table Text} {data : ParameterData} {number : Nat}
    {name : Text} {written : List (Field × Text)} (hidentifier : isIdentifier name = true)
    (hwritten : written <+: parameterFields data number name)
    (hname : (.name, name) ∈ written) (hvalue : (.value, data.value) ∈ written)
    (hfields : ∀ word raw, Table.get? (written.map fun e =>
      (e.1.word, strip ((Scalar.quote e.2).takeWhile (· ≠ '\n')))) word = some raw →
        fields.get? word = some raw) :
    ∃ found : ParameterData, declaredParameter? fields = some (name, found) ∧
      found.value = data.reread.value ∧
      ((.type, data.type) ∈ written → found.type = data.reread.type) ∧
      ((.outgoing, data.outgoing) ∈ written → found.outgoing = data.reread.outgoing) := by
  have hnodup : (written.map Prod.fst).Nodup := by
    have hall : ((parameterFields data number name).map Prod.fst).Nodup := by
      show [Field.number, .name, .value, .type, .outgoing].Nodup
      decide
    exact hall.sublist (hwritten.sublist.map Prod.fst)
  have hget : ∀ field value, (field, value) ∈ written →
      fields.get? field.word = some (strip ((Scalar.quote value).takeWhile (· ≠ '\n'))) :=
    fun field value hmem => hfields _ _ (ListItem.get?_map_word hnodup hmem
      fun value => strip ((Scalar.quote value).takeWhile (· ≠ '\n')))
  have hnamed : fields.get? Field.name.word = some (Scalar.quote name) := by
    have hfree := Scalar.lineFeed_not_mem_of_isIdentifier hidentifier
    rw [hget .name name hname, Scalar.takeWhile_quote_of_not_mem hfree, Scalar.strip_quote]
  refine ⟨_, declaredParameter?_of_get? hnamed hidentifier (hget .value data.value hvalue), ?_, ?_, ?_⟩
  · simp only [Scalar.unquote_strip]
    rfl
  · intro htype
    simp only [hget .type data.type htype, Option.getD_some, Scalar.unquote_strip]
    rfl
  · intro houtgoing
    simp only [hget .outgoing data.outgoing houtgoing, Option.getD_some, Scalar.unquote_strip]
    rfl

section

variable {data : Text → ParameterData} {names : List Text}

theorem exists_of_mem_parameterItems {fields : List (Field × Text)}
    (h : fields ∈ parameterItems data names) :
    ∃ name ∈ names, ∃ number, fields = parameterFields (data name) number name := by
  obtain ⟨entry, hentry, rfl⟩ := List.mem_map.1 h
  exact ⟨entry.1, List.fst_mem_of_mem_zipIdx hentry, entry.2 + 1, rfl⟩

/-- A character that is not literal is in no item if it is in no data. -/
theorem not_mem_of_mem_parameterItems {c : Char} (hc : Scalar.isLiteral c = false)
    (hnames : ∀ name ∈ names, isIdentifier name = true)
    (hdata : ∀ name ∈ names, c ∉ (data name).value ∧ c ∉ (data name).type ∧ c ∉ (data name).outgoing) :
    ∀ fields ∈ parameterItems data names, ∀ entry ∈ fields, c ∉ entry.2 := by
  intro fields hfields entry hentry
  obtain ⟨name, hname, number, rfl⟩ := exists_of_mem_parameterItems hfields
  obtain ⟨hvalue, htype, houtgoing⟩ := hdata name hname
  simp only [parameterFields, List.mem_cons, List.not_mem_nil, or_false] at hentry
  rcases hentry with rfl | rfl | rfl | rfl | rfl
  · exact (ListItem.isLiteral_ofNat number).not_mem hc
  · exact (Scalar.isLiteral_of_isIdentifier (hnames name hname)).not_mem hc
  · exact hvalue
  · exact htype
  · exact houtgoing

theorem declaredParameter?_tableOf {data : ParameterData} {number : Nat} {name : Text}
    (hidentifier : isIdentifier name = true)
    (hfree : ∀ entry ∈ parameterFields data number name, '\n' ∉ entry.2) :
    declaredParameter? (ListItem.tableOf (parameterFields data number name)) = some (name, data.reread) := by
  have hfields : ListItem.tableOf (parameterFields data number name) =
      Table.ofEntries ((parameterFields data number name).map fun e =>
        (e.1.word, strip ((Scalar.quote e.2).takeWhile (· ≠ '\n')))) := by
    refine congrArg Table.ofEntries (List.map_congr_left fun e he => ?_)
    rw [Scalar.takeWhile_quote_of_not_mem (hfree e he), Scalar.strip_quote]
  have hget : ∀ word raw, Table.get? ((parameterFields data number name).map fun e =>
      (e.1.word, strip ((Scalar.quote e.2).takeWhile (· ≠ '\n')))) word = some raw →
        (ListItem.tableOf (parameterFields data number name)).get? word = some raw := by
    intro word raw h
    rw [hfields, Table.get?_ofEntries]
    exact h
  obtain ⟨found, hfound, hvalue, htype, houtgoing⟩ := declaredParameter?_of_fields hidentifier
    (List.prefix_refl _) (by simp [parameterFields]) (by simp [parameterFields]) hget
  have heq : found = data.reread := by
    have htype := htype (by simp [parameterFields])
    have houtgoing := houtgoing (by simp [parameterFields])
    cases found
    simp only at hvalue htype houtgoing
    rw [hvalue, htype, houtgoing]
  rw [hfound, heq]

theorem filterMap_declaredParameter? (hnames : ∀ name ∈ names, isIdentifier name = true)
    (hitems : KeepLines (parameterItems data names)) :
    ((parameterItems data names).map ListItem.tableOf).filterMap declaredParameter? =
      names.map fun name => (name, (data name).reread) := by
  have hall : ∀ entry ∈ names.zipIdx,
      declaredParameter? (ListItem.tableOf (parameterFields (data entry.1) (entry.2 + 1) entry.1)) =
        some (entry.1, (data entry.1).reread) := by
    intro entry hentry
    refine declaredParameter?_tableOf (hnames _ (List.fst_mem_of_mem_zipIdx hentry)) ?_
    exact hitems _ (List.mem_map_of_mem hentry)
  unfold parameterItems
  simp only [List.map_map, List.filterMap_map, Function.comp_def]
  rw [List.filterMap_congr hall, List.filterMap_eq_map']
  conv_rhs => rw [← List.zipIdx_map_fst 0 names, List.map_map]
  simp only [Function.comp_def]

/-- The data of items that keep to their lines are read back as far as scalars go. -/
theorem get?_parameterData_refill {text : Text} (hin : SectionKey.isIn text .parameters = true)
    (hnames : ∀ name ∈ names, isIdentifier name = true)
    (hitems : KeepLines (parameterItems data names)) (listed : List Text) {name : Text}
    (h : name ∈ names) :
    (parameterData (SectionKey.parameters.refill listed
      (SectionKey.parameters.render (parameterItems data names)) text).text).get? name =
        some (data name).reread := by
  rw [get?_parameterData, parameterEntries, tablesIn_refill hitems hin, filterMap_declaredParameter? hnames hitems]
  exact Table.get?_map_of_mem h fun name => (data name).reread

theorem declaredName?_tableOf {data : ParameterData} {number : Nat} {name : Text}
    (hidentifier : isIdentifier name = true) :
    declaredName? (ListItem.tableOf (parameterFields data number name)) = some name := by
  have hget : (ListItem.tableOf (parameterFields data number name)).get? Field.name.word =
      some (Scalar.quote name) := by
    have hnodup : ((parameterFields data number name).map Prod.fst).Nodup := by
      show [Field.number, .name, .value, .type, .outgoing].Nodup
      decide
    rw [ListItem.tableOf, Table.get?_ofEntries]
    exact ListItem.get?_map_word hnodup (by simp [parameterFields]) Scalar.quote
  have hnonempty : name ≠ [] := by
    rintro rfl
    exact absurd hidentifier (by decide)
  have hquote : (Scalar.quote name).isEmpty = false := rfl
  rw [declaredName?, hget, Option.bind_some, Scalar.parameterName_quote hidentifier, hquote]
  simp [hnonempty]

/-- A section that is written anew declares the parameters that it is given, in order. -/
theorem declaredParameters_refill {text : Text}
    (hin : SectionKey.isIn text .parameters = true) (hnames : ∀ name ∈ names, isIdentifier name = true)
    (hitems : KeepLines (parameterItems data names)) (listed : List Text) :
    declaredParameters (SectionKey.parameters.refill listed
      (SectionKey.parameters.render (parameterItems data names)) text).text = names := by
  have hall : ∀ entry ∈ names.zipIdx,
      declaredName? (ListItem.tableOf (parameterFields (data entry.1) (entry.2 + 1) entry.1)) =
        some entry.1 :=
    fun entry hentry => declaredName?_tableOf (hnames _ (List.fst_mem_of_mem_zipIdx hentry))
  rw [declaredParameters_eq, tablesIn_refill hitems hin]
  unfold parameterItems
  simp only [List.map_map, List.filterMap_map, Function.comp_def]
  rw [List.filterMap_congr hall, List.filterMap_eq_map', List.zipIdx_map_fst]

theorem parameterItems_append_cons (data : Text → ParameterData) (earlier later : List Text)
    (name : Text) :
    parameterItems data (earlier ++ name :: later) =
      parameterItems data earlier ++ parameterFields (data name) (earlier.length + 1) name ::
        (later.zipIdx (earlier.length + 1)).map fun entry =>
          parameterFields (data entry.1) (entry.2 + 1) entry.1 := by
  unfold parameterItems
  simp [List.zipIdx_append]

/-- If an item is read back behind others, so is every part of it behind which no value is cut off. -/
theorem eq_reread_of_get?_parameterData {text : Text} (hin : SectionKey.isIn text .parameters = true)
    {earlier later listed : List Text} {name : Text} (hnew : name ∉ earlier)
    (hnames : ∀ n ∈ earlier, isIdentifier n = true) (hidentifier : isIdentifier name = true)
    (hlines : KeepLines (parameterItems data earlier))
    (h : (parameterData (SectionKey.parameters.refill listed
      (SectionKey.parameters.render (parameterItems data (earlier ++ name :: later))) text).text).get?
        name = some (data name))
    (front back : List (Field × Text)) (entry : Field × Text)
    (hsplit : parameterFields (data name) (earlier.length + 1) name = front ++ entry :: back)
    (hfront : ∀ e ∈ front, '\n' ∉ e.2) (hname : (.name, name) ∈ front ++ [entry])
    (hvalue : (.value, (data name).value) ∈ front ++ [entry]) :
    (data name).value = (data name).reread.value ∧
      ((.type, (data name).type) ∈ front ++ [entry] → (data name).type = (data name).reread.type) ∧
      ((.outgoing, (data name).outgoing) ∈ front ++ [entry] →
        (data name).outgoing = (data name).reread.outgoing) := by
  have hothers : Table.get?
      (((parameterItems data earlier).map ListItem.tableOf).filterMap declaredParameter?) name = none := by
    rw [filterMap_declaredParameter? hnames hlines, ← Option.not_isSome_iff_eq_none, ← Table.mem_keys_iff]
    intro hmem
    exact hnew (by simpa [Table.keys] using hmem)
  have hprefix : front ++ [entry] <+: parameterFields (data name) (earlier.length + 1) name := by
    rw [hsplit]
    exact ⟨back, by simp⟩
  rw [get?_parameterData, parameterEntries, parameterItems_append_cons, hsplit] at h
  obtain ⟨table, more, htables, hkeep⟩ := exists_tablesIn_refill hlines hfront hin listed entry back
    ((later.zipIdx (earlier.length + 1)).map fun entry =>
      parameterFields (data entry.1) (entry.2 + 1) entry.1)
  obtain ⟨found, hfound, hrest⟩ := declaredParameter?_of_fields hidentifier hprefix hname hvalue hkeep
  rw [htables, List.filterMap_append, List.filterMap_cons, hfound, Table.get?_append, hothers,
    Option.none_or, Table.get?_cons, if_pos rfl] at h
  obtain rfl := Option.some.inj h
  exact hrest

theorem isFaithful_of_eq_orElse {value otherwise : Text} (hotherwise : Scalar.IsLiteral otherwise)
    (h : value = orElse (Scalar.reread value) otherwise) : Scalar.IsFaithful value := by
  unfold orElse at h
  split at h
  · rw [h]
    exact hotherwise.isFaithful
  · exact Scalar.isFaithful_iff.2 h.symm

theorem keepLines_of_isFaithful (hnames : ∀ name ∈ names, isIdentifier name = true)
    (hfaithful : ∀ name ∈ names, (data name).IsFaithful) : KeepLines (parameterItems data names) :=
  not_mem_of_mem_parameterItems (by decide) hnames fun name hname =>
    ⟨(hfaithful name hname).value.1, (hfaithful name hname).type.1, (hfaithful name hname).outgoing.1⟩

/-- Behind items that are read back, an item is read back only if its data are faithful. -/
theorem isFaithful_of_get?_parameterData {text : Text} (hin : SectionKey.isIn text .parameters = true)
    {earlier later listed : List Text} {name : Text} (hnew : name ∉ earlier)
    (hnames : ∀ n ∈ earlier, isIdentifier n = true) (hidentifier : isIdentifier name = true)
    (hearlier : ∀ n ∈ earlier, (data n).IsFaithful)
    (h : (parameterData (SectionKey.parameters.refill listed
      (SectionKey.parameters.render (parameterItems data (earlier ++ name :: later))) text).text).get?
        name = some (data name)) : (data name).IsFaithful := by
  have hlines := keepLines_of_isFaithful hnames hearlier
  have hnumber : '\n' ∉ ofNat (earlier.length + 1) :=
    (ListItem.isLiteral_ofNat _).not_mem (by decide)
  have hfree : '\n' ∉ name := Scalar.lineFeed_not_mem_of_isIdentifier hidentifier
  -- The fields one by one: each is read as far as those in front of it keep to their lines.
  have hvalue : Scalar.IsFaithful (data name).value := by
    have hread := eq_reread_of_get?_parameterData hin hnew hnames hidentifier hlines h
      [(.number, ofNat (earlier.length + 1)), (.name, name)] _ (.value, (data name).value) rfl
      (by simp [hnumber, hfree]) (by simp) (by simp)
    exact Scalar.isFaithful_iff.2 hread.1.symm
  have htype : Scalar.IsFaithful (data name).type := by
    have hread := eq_reread_of_get?_parameterData hin hnew hnames hidentifier hlines h
      [(.number, ofNat (earlier.length + 1)), (.name, name), (.value, (data name).value)] _
      (.type, (data name).type) rfl (by simp [hnumber, hfree, hvalue.1]) (by simp) (by simp)
    exact isFaithful_of_eq_orElse (by decide) (hread.2.1 (by simp))
  have houtgoing : Scalar.IsFaithful (data name).outgoing := by
    have hread := eq_reread_of_get?_parameterData hin hnew hnames hidentifier hlines h
      [(.number, ofNat (earlier.length + 1)), (.name, name), (.value, (data name).value),
        (.type, (data name).type)] _ (.outgoing, (data name).outgoing) rfl
      (by simp [hnumber, hfree, hvalue.1, htype.1]) (by simp) (by simp)
    exact isFaithful_of_eq_orElse (by decide) (hread.2.2 (by simp))
  exact ⟨hvalue, htype, houtgoing⟩

end

end Declaration

/-! ## The data of a document -/

/-- Data that are merged in count before those that the session knew. -/
theorem get?_overridesOf_merge (session : Session) (uri : Text) {data : Table ParameterData}
    (h : (Table.keys data).Nodup) (name : Text) :
    ((session.merge uri data).overridesOf uri).get? name =
      (data.get? name).or ((session.overridesOf uri).get? name) := by
  unfold Session.overridesOf Session.merge
  rw [Table.get?_put, if_pos rfl, Option.getD_some, Table.get?_putAll h]
  rfl

/-- What the document declares is what is written, whatever the session knows. -/
theorem writtenData_of_declared (session : Session) (uri : Text) {text name : Text}
    {data : ParameterData} (h : (Declaration.parameterData text).get? name = some data) :
    writtenData session uri text name = data := by
  have hknown := get?_overridesOf_merge session uri (Declaration.nodup_keys_parameterData text) name
  rw [h, Option.some_or] at hknown
  rw [writtenData, hknown, Option.getD_some, Declaration.filled_of_get?_parameterData h]

theorem reread_of_isFaithful {data : ParameterData} (h : data.filled.IsFaithful) :
    data.filled.reread = data.filled := by
  have hvalue := Scalar.isFaithful_iff.1 h.value
  have htype := Scalar.isFaithful_iff.1 h.type
  have houtgoing := Scalar.isFaithful_iff.1 h.outgoing
  unfold ParameterData.reread
  rw [hvalue, htype, houtgoing]
  unfold ParameterData.filled
  simp only [Declaration.orElse_filled]

/-- Whether the data of a document's parameters can be read, and are these: every scalar in it has a value, and
none writes half of a surrogate pair, for which another character would be read. -/
structure Declaration.Reads (text : Text) (data : Table ParameterData) : Prop where
  eq_ok : guardScalars (scalarsOfParameterData text) (parameterData text) = .ok data
  namesHalf : ∀ raw ∈ scalarsOfParameterData text, Scalar.namesHalf raw = false

theorem Declaration.Reads.eq {text : Text} {data : Table ParameterData} (h : Reads text data) :
    data = parameterData text :=
  eq_of_guardScalars_eq_ok h.eq_ok

/-- A section whose items keep to their lines can be read after it was written. -/
theorem Declaration.reads_refill {items : List (List (Field × Text))} (hitems : KeepLines items)
    (names : List Text) (text : Text) :
    let final := (SectionKey.parameters.refill names (SectionKey.parameters.render items) text).text
    Reads final (parameterData final) := by
  intro final
  have hwritten : AreWritten (SectionKey.parameters.tablesIn (lines final)) :=
    areWritten_tablesIn_refill hitems names text
  exact ⟨guardScalars_eq_ok_of_eq_ok (guard_scalarsOfParameterData hwritten) _,
    fun raw hraw => namesHalf_of_mem_scalarsOfParameterData hwritten hraw⟩

/-- If all items are read back, all of their data are faithful. -/
theorem Declaration.isFaithful_of_forall_get? {data : Text → ParameterData} {names listed : List Text} {text : Text}
    (hin : SectionKey.isIn text .parameters = true) (hnames : ∀ name ∈ names, isIdentifier name = true)
    (hnodup : names.Nodup)
    (h : ∀ name ∈ names, (parameterData (SectionKey.parameters.refill listed
      (SectionKey.parameters.render (parameterItems data names)) text).text).get? name = some (data name)) :
    ∀ name ∈ names, (data name).IsFaithful := by
  -- One item after the other: those in front of it are read back, so it is what it is read as.
  have key : ∀ earlier later, names = earlier ++ later → (∀ n ∈ earlier, (data n).IsFaithful) →
      ∀ n ∈ later, (data n).IsFaithful := by
    intro earlier later
    induction later generalizing earlier with
    | nil => exact fun _ _ n hn => absurd hn List.not_mem_nil
    | cons name later ih =>
        intro hsplit hearlier
        have hname : (data name).IsFaithful := by
          have hread := h name (by simp [hsplit])
          rw [hsplit] at hread hnames hnodup
          refine isFaithful_of_get?_parameterData hin ?_
            (fun n hn => hnames n (List.mem_append_left _ hn)) (hnames name (by simp)) hearlier hread
          exact fun hmem => (List.nodup_append.1 hnodup).2.2 name hmem name List.mem_cons_self rfl
        have hnext := ih (earlier ++ [name]) (by simp [hsplit]) fun n hn => by
          rcases List.mem_append.1 hn with hn | hn
          · exact hearlier n hn
          · rw [List.mem_singleton.1 hn]
            exact hname
        intro n hn
        rcases List.mem_cons.1 hn with rfl | hn
        · exact hname
        · exact hnext n hn
  exact key [] names rfl fun n hn => absurd hn List.not_mem_nil

/-- If the data of a document's parameters can be read, what it declares about those that its script uses is what
is written when the section is written anew; and the new document can be read for all that was written if and only
if all of it is faithful. -/
theorem parameterData_regenerateParameters_iff (session : Session) (uri text : Text)
    (exclusions : List Text) (hin : SectionKey.isIn text .parameters = true) {declared : Table ParameterData}
    (hdeclared : Declaration.Reads text declared) :
    (∀ name ∈ usedParameters text exclusions, ∀ data, declared.get? name = some data →
      writtenData session uri text name = data) ∧
    ((∃ again, Declaration.Reads (regenerateParameters session uri text exclusions).1.text again ∧
        ∀ name ∈ usedParameters text exclusions, again.get? name = some (writtenData session uri text name)) ↔
      ∀ name ∈ usedParameters text exclusions, (writtenData session uri text name).IsFaithful) := by
  obtain rfl := hdeclared.eq
  refine ⟨fun name _ data h => writtenData_of_declared session uri h, ?_⟩
  rw [regenerateParameters_eq]
  generalize hlisted : usedParameters text exclusions = names
  have hnames : ∀ n ∈ names, isIdentifier n = true :=
    fun n hn => isIdentifier_of_mem_usedParameters (hlisted ▸ hn)
  have hnodup : names.Nodup := hlisted ▸ nodup_usedParameters text exclusions
  constructor
  · rintro ⟨again, hagain, hread⟩
    obtain rfl := hagain.eq
    exact Declaration.isFaithful_of_forall_get? hin hnames hnodup hread
  · intro hfaithful
    have hitems := Declaration.keepLines_of_isFaithful hnames hfaithful
    refine ⟨_, Declaration.reads_refill hitems names text, fun name hname => ?_⟩
    rw [Declaration.get?_parameterData_refill hin hnames hitems names hname]
    exact congrArg some (reread_of_isFaithful (hfaithful name hname))

/-- Written anew once more, the section stays as it is, whatever the session knows by then. -/
theorem regenerateParameters_regenerateParameters {session : Session} (session' : Session)
    {uri text : Text} {exclusions : List Text} {lineEnd : LineEnd} (hend : lineEnd.IsUsedIn (lines text))
    (hfaithful : ∀ name ∈ usedParameters text exclusions, (writtenData session uri text name).IsFaithful)
    {final : Text} (hfinal : final = (regenerateParameters session uri text exclusions).1.text) :
    (regenerateParameters session' uri final exclusions).1.text = final := by
  have hnames : ∀ name ∈ usedParameters text exclusions, isIdentifier name = true :=
    fun name hname => isIdentifier_of_mem_usedParameters hname
  have hitems := Declaration.keepLines_of_isFaithful hnames hfaithful
  rw [regenerateParameters_eq] at hfinal
  have hscript : SectionKey.script.bodyIn (lines final) = SectionKey.script.bodyIn (lines text) := by
    rw [hfinal]
    exact (keepsOthers_refill hitems _ _ _).bodyIn (by decide)
  have hused : usedParameters final exclusions = usedParameters text exclusions :=
    usedParameters_congr hscript exclusions
  rw [regenerateParameters_eq, hused]
  by_cases hin : SectionKey.isIn text .parameters = true
  · have hwritten : ∀ name ∈ usedParameters text exclusions,
        writtenData session' uri final name = writtenData session uri text name := by
      intro name hname
      refine writtenData_of_declared session' uri ?_
      rw [hfinal, Declaration.get?_parameterData_refill hin hnames hitems _ hname]
      exact congrArg some (reread_of_isFaithful (hfaithful name hname))
    -- a declared value is written again as it was read
    have hsame : parameterItems (writtenData session' uri final) (usedParameters text exclusions) =
        parameterItems (writtenData session uri text) (usedParameters text exclusions) := by
      refine List.map_congr_left fun entry hentry => ?_
      rw [hwritten entry.1 (List.fst_mem_of_mem_zipIdx hentry)]
    have hlong : SectionKey.parameters.render (parameterItems (writtenData session uri text)
        (usedParameters text exclusions)) ≠ [] → SectionKey.script.bodyIn (lines text) ≠ [] :=
      bodyIn_ne_nil_of_render_parameterItems
    have hlength := fun hne => SectionKey.two_le_length_of_bodyIn_ne_nil (hlong hne)
    have hend' := isUsedIn_refill hitems hend hlength (usedParameters text exclusions)
    rw [← hfinal] at hend'
    rw [hsame]
    refine text_refill_again hitems hend hlength (congrArg _ (congrArg lines hfinal)) hend'
      (fun hne => ?_) _
    exact SectionKey.two_le_length_of_bodyIn_ne_nil (hscript ▸ hlong hne)
  · have hin' : SectionKey.isIn text .parameters = false := by simpa using hin
    have hkept : final = text := hfinal.trans (text_refill_of_isIn_eq_false hin' _ _)
    rw [hkept]
    exact text_refill_of_isIn_eq_false hin' _ _

def documentWithValue (raw : Text) : Text :=
  unlines ["ПараметрыСценария:".toList, "    - ПараметрыСценария1:".toList, "        Имя: \"P\"".toList,
    "        Значение: ".toList ++ raw, "ТекстСценария: |".toList, "    [P]".toList, []]

theorem parameterData_of_quotedValue :
    SectionKey.isIn (documentWithValue "'a \"b\"'".toList) .parameters = true ∧
      (∃ declared, Declaration.Reads (documentWithValue "'a \"b\"'".toList) declared) ∧
      ∃ again, Declaration.Reads (regenerateParameters {} []
        (documentWithValue "'a \"b\"'".toList) []).1.text again ∧
          again.get? "P".toList =
            some ⟨"a \"b\"".toList, ParameterData.defaultType, ParameterData.defaultOutgoing⟩ := by
  have hin : SectionKey.isIn (documentWithValue "'a \"b\"'".toList) .parameters = true := by
    decide +kernel
  have hguard : guardScalars (Declaration.scalarsOfParameterData (documentWithValue "'a \"b\"'".toList)) () =
      .ok () := by decide +kernel
  have hdeclared : Declaration.Reads (documentWithValue "'a \"b\"'".toList)
      (Declaration.parameterData (documentWithValue "'a \"b\"'".toList)) :=
    ⟨guardScalars_eq_ok_of_eq_ok hguard _, by decide +kernel⟩
  obtain ⟨again, hagain, hread⟩ := (parameterData_regenerateParameters_iff {} []
    (documentWithValue "'a \"b\"'".toList) [] hin hdeclared).2.2 (by decide +kernel)
  have hvalue := hread "P".toList (by decide +kernel)
  exact ⟨hin, ⟨_, hdeclared⟩, again, hagain, hvalue.trans (by decide +kernel)⟩

/-- A value of two lines, which an escape makes, is cut off at its line feed. -/
theorem parameterData_of_twoLineValue :
    "P".toList ∈ usedParameters (documentWithValue "\"a\\nb\"".toList) [] ∧
      (Declaration.parameterData (documentWithValue "\"a\\nb\"".toList)).get? "P".toList =
        some ⟨"a\nb".toList, ParameterData.defaultType, ParameterData.defaultOutgoing⟩ ∧
      (Declaration.parameterData (regenerateParameters {} []
        (documentWithValue "\"a\\nb\"".toList) []).1.text).get? "P".toList =
          some ⟨"\"a".toList, ParameterData.defaultType, ParameterData.defaultOutgoing⟩ := by
  decide +kernel

end Scenarist
