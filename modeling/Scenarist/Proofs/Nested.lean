import Scenarist.Proofs.Index
import Scenarist.Proofs.Regeneration

set_option autoImplicit false

/-! # Declared calls, written anew

A call is declared under the name that the script calls, with the identifier that the index knows, that
the document declared before, or that is new. If names and identifiers are literal, what is written is read
back, and so the calls that are resolved once are resolved to the same identifiers again.

Main statements: `Declaration.get?_nestedUids_refill` (identifiers are read back) and
`resolveUids_of_known` (what is known already is taken as it is). -/

namespace Scenarist

open Text

/-! ## Called names -/

theorem append_of_cutAt? {needle text before rest : Text} (h : cutAt? needle text = some (before, rest)) :
    ∃ tail, text = before ++ tail := by
  induction text generalizing before with
  | nil =>
      obtain ⟨tail, -, heq⟩ := Option.map_eq_some_iff.1 h
      obtain ⟨rfl, -⟩ := Prod.mk.inj heq
      exact ⟨[], rfl⟩
  | cons c cs ih =>
      unfold cutAt? at h
      split at h
      · obtain ⟨rfl, -⟩ := Prod.mk.inj (Option.some.inj h)
        exact ⟨c :: cs, rfl⟩
      · obtain ⟨⟨front, back⟩, hcut, heq⟩ := Option.map_eq_some_iff.1 h
        obtain ⟨rfl, rfl⟩ := Prod.mk.inj heq
        obtain ⟨tail, rfl⟩ := ih hcut
        exact ⟨tail, rfl⟩

/-- A name without its inline parameters is stripped, and a part of what it was. -/
theorem dropInlineParameters_spec {name : Text} (h : strip name = name) :
    strip (dropInlineParameters name) = dropInlineParameters name ∧
      ∀ c ∈ dropInlineParameters name, c ∈ name := by
  unfold dropInlineParameters
  split
  · next before rest hcut =>
    split
    · refine ⟨strip_strip before, fun c hc => ?_⟩
      obtain ⟨tail, rfl⟩ := append_of_cutAt? hcut
      exact List.mem_append_left _ (mem_of_mem_strip hc)
    · exact ⟨h, fun c hc => hc⟩
  · exact ⟨h, fun c hc => hc⟩

/-- A name that a line calls is stripped, not empty, and a part of the line. -/
theorem calledName?_spec {line name : Text} (h : calledName? line = some name) :
    strip name = name ∧ name ≠ [] ∧ ∀ c ∈ name, c ∈ line := by
  unfold calledName? at h
  simp only [] at h
  split at h
  · simp at h
  · split at h
    · simp at h
    · next parts hparts =>
      split at h
      · simp at h
      · next hne =>
        obtain rfl := Option.some.inj h
        have hspec := dropInlineParameters_spec (strip_strip parts.content)
        refine ⟨hspec.1, by simpa using hne, fun c hc => ?_⟩
        have htext := StepLine.text_of_parse? hparts
        have hcontent : c ∈ parts.text := by
          have := mem_of_mem_strip (hspec.2 c hc)
          simp [StepLine.text, this]
        rw [htext] at hcontent
        exact mem_of_mem_strip hcontent

theorem calledName_spec {text name : Text} (h : name ∈ calledNames text) :
    strip name = name ∧ name ≠ [] ∧ '\n' ∉ name := by
  obtain ⟨entry, hentry, hname⟩ := List.mem_filterMap.1 (mem_distinct.1 h)
  obtain ⟨hstrip, hne, hmem⟩ := calledName?_spec hname
  refine ⟨hstrip, hne, fun hfeed => ?_⟩
  obtain ⟨raw, hraw, heq⟩ := SectionKey.exists_of_mem_linesOf hentry
  have hfree := SectionKey.script.lineFeed_not_mem_of_mem_bodyIn hraw
  obtain ⟨tail, hsplit, -⟩ := exists_trimReturns_append raw
  rw [hsplit, heq] at hfree
  exact hfree (List.mem_append_left _ (hmem _ hfeed))

/-- The called names depend on the script alone. -/
theorem calledNames_congr {text text' : Text}
    (h : SectionKey.script.bodyIn (lines text) = SectionKey.script.bodyIn (lines text')) :
    calledNames text = calledNames text' := by
  have key : ∀ document, (scriptLines document).filterMap (fun entry => calledName? entry.2) =
      ((SectionKey.script.bodyIn (lines document)).map trimReturns).filterMap calledName? := by
    intro document
    rw [← SectionKey.linesOf_map_snd, List.filterMap_map]
    rfl
  unfold calledNames
  rw [key text, key text', h]

theorem mem_expectedCalls {index : Index} {text name : Text} (h : name ∈ expectedCalls index text) :
    name ∈ calledNames text ∧ ∃ record, index.lookup? name = some record := by
  obtain ⟨hmem, hsome⟩ := List.mem_filter.1 h
  exact ⟨hmem, Option.isSome_iff_exists.1 hsome⟩

theorem nodup_expectedCalls (index : Index) (text : Text) : (expectedCalls index text).Nodup :=
  (nodup_distinct _).filter _

theorem expectedCalls_congr {index index' : Index} {text text' : Text}
    (hbody : SectionKey.script.bodyIn (lines text) = SectionKey.script.bodyIn (lines text'))
    (hindex : ∀ name, index.uidOf? name = index'.uidOf? name) :
    expectedCalls index text = expectedCalls index' text' := by
  unfold expectedCalls
  rw [calledNames_congr hbody]
  refine List.filter_congr fun name _ => ?_
  have hsome := congrArg Option.isSome (hindex name)
  unfold Index.uidOf? at hsome
  simpa using hsome

/-! ## Resolved calls -/

def recordUid? (index : Index) (name : Text) : Option Text :=
  ((index.lookup? name).bind (·.uid)).filter (!·.isEmpty)

theorem recordUid?_congr {index index' : Index} {name : Text}
    (h : index.uidOf? name = index'.uidOf? name) : recordUid? index name = recordUid? index' name := by
  have hbind : ∀ found : Option Record, found.bind (·.uid) = (found.map (·.uid)).bind id := by
    intro found
    cases found <;> rfl
  unfold Index.uidOf? at h
  unfold recordUid?
  rw [hbind, hbind, h]

/-- The identifier that is known of a scenario: that of the record, else the declared one. -/
def knownUid? (index : Index) (declared : Table Text) (name : Text) : Option Text :=
  (recordUid? index name).or (declared.get? name)

theorem resolveUids_cons (index : Index) (declared : Table Text) (name : Text) (names : List Text)
    (supply : UidSupply) :
    resolveUids index declared (name :: names) supply =
      match knownUid? index declared name with
      | some uid => ((name, uid) :: (resolveUids index declared names supply).1,
          (resolveUids index declared names supply).2)
      | none => ((name, supply.next.1) :: (resolveUids index declared names supply.next.2).1,
          (resolveUids index declared names supply.next.2).2) := by
  rw [resolveUids]
  unfold knownUid? recordUid?
  cases (((index.lookup? name).bind (·.uid)).filter (!·.isEmpty)).or (declared.get? name) <;> rfl

/-- Every name is resolved, to what is known of it or to something new. -/
theorem resolveUids_spec (index : Index) (declared : Table Text) (names : List Text)
    (supply : UidSupply) :
    (resolveUids index declared names supply).1.map Prod.fst = names ∧
      ∀ entry ∈ (resolveUids index declared names supply).1,
        knownUid? index declared entry.1 = some entry.2 ∨
          knownUid? index declared entry.1 = none ∧ ∃ n, entry.2 = supply.make n := by
  induction names generalizing supply with
  | nil => exact ⟨rfl, fun entry hentry => absurd hentry List.not_mem_nil⟩
  | cons name names ih =>
      rw [resolveUids_cons]
      cases hknown : knownUid? index declared name with
      | some uid =>
          obtain ⟨hnames, hall⟩ := ih supply
          refine ⟨by simp [hnames], fun entry hentry => ?_⟩
          rcases List.mem_cons.1 hentry with rfl | hentry
          · exact Or.inl hknown
          · exact hall entry hentry
      | none =>
          obtain ⟨hnames, hall⟩ := ih supply.next.2
          refine ⟨by simp [hnames], fun entry hentry => ?_⟩
          rcases List.mem_cons.1 hentry with rfl | hentry
          · exact Or.inr ⟨hknown, supply.used + 1, rfl⟩
          · exact hall entry hentry

/-- The supply hands out one identifier for each name of which none is known, in order. -/
theorem resolveUids_unknown (index : Index) (declared : Table Text) (names : List Text)
    (supply : UidSupply) :
    (resolveUids index declared names supply).2 = { supply with
        used := supply.used + (names.filter fun name => (knownUid? index declared name).isNone).length } ∧
      (resolveUids index declared names supply).1.filter
          (fun entry => (knownUid? index declared entry.1).isNone) =
        (names.filter fun name => (knownUid? index declared name).isNone).zipIdx.map fun entry =>
          (entry.1, supply.make (supply.used + entry.2 + 1)) := by
  induction names generalizing supply with
  | nil => exact ⟨rfl, rfl⟩
  | cons name names ih =>
      rw [resolveUids_cons]
      cases hknown : knownUid? index declared name with
      | some uid =>
          obtain ⟨hsupply, hnew⟩ := ih supply
          have hskip : (knownUid? index declared name).isNone = false := by rw [hknown]; rfl
          simp only [List.filter_cons, hskip, Bool.false_eq_true, if_false]
          exact ⟨hsupply, hnew⟩
      | none =>
          obtain ⟨hsupply, hnew⟩ := ih supply.next.2
          have htake : (knownUid? index declared name).isNone = true := by rw [hknown]; rfl
          simp only [List.filter_cons, htake, if_true, hsupply, hnew, List.length_cons,
            List.zipIdx_cons, List.map_cons]
          refine ⟨?_, ?_⟩
          · simp only [UidSupply.next, UidSupply.mk.injEq, true_and]
            omega
          · rw [List.zipIdx_succ, List.map_map]
            refine congrArg₂ List.cons rfl (List.map_congr_left fun entry _ => ?_)
            have hnumber : supply.used + 1 + entry.2 + 1 = supply.used + (entry.2 + 1) + 1 := by omega
            simp only [UidSupply.next, Function.comp_apply, hnumber]

/-- Calls of which everything is known are resolved to that. -/
theorem resolveUids_of_known {index : Index} {declared : Table Text} {resolved : List (Text × Text)}
    (h : ∀ entry ∈ resolved, knownUid? index declared entry.1 = some entry.2) (supply : UidSupply) :
    resolveUids index declared (resolved.map Prod.fst) supply = (resolved, supply) := by
  induction resolved with
  | nil => rfl
  | cons entry resolved ih =>
      have hrest := ih fun e he => h e (List.mem_cons_of_mem _ he)
      rw [List.map_cons, resolveUids_cons, h entry List.mem_cons_self, hrest]

/-! ## What is written and read back -/

def nestedFields (entry : Text × Text) : List (Field × Text) :=
  [(.nestedUid, entry.2), (.nestedName, entry.1)]

def resolvedCalls (index : Index) (supply : UidSupply) (text : Text) : List (Text × Text) :=
  (resolveUids index (Declaration.nestedUids text) (expectedCalls index text) supply).1

theorem map_fst_resolvedCalls (index : Index) (supply : UidSupply) (text : Text) :
    (resolvedCalls index supply text).map Prod.fst = expectedCalls index text :=
  (resolveUids_spec index (Declaration.nestedUids text) (expectedCalls index text) supply).1

theorem mem_expectedCalls_of_mem_resolvedCalls {index : Index} {supply : UidSupply} {text : Text}
    {entry : Text × Text} (h : entry ∈ resolvedCalls index supply text) :
    entry.1 ∈ expectedCalls index text := by
  rw [← map_fst_resolvedCalls index supply]
  exact List.mem_map_of_mem h

/-- The identifier of a resolved call is that of its record, the declared one or a new one. -/
theorem resolvedCalls_cases {index : Index} {supply : UidSupply} {text : Text} {entry : Text × Text}
    (h : entry ∈ resolvedCalls index supply text) :
    recordUid? index entry.1 = some entry.2 ∨
      (Declaration.nestedUids text).get? entry.1 = some entry.2 ∨ ∃ n, entry.2 = supply.make n := by
  obtain ⟨-, hall⟩ := resolveUids_spec index (Declaration.nestedUids text) (expectedCalls index text) supply
  rcases hall entry h with hknown | ⟨-, hnew⟩
  · rcases Option.or_eq_some_iff.1 hknown with hrecord | ⟨-, hdeclared⟩
    · exact Or.inl hrecord
    · exact Or.inr (Or.inl hdeclared)
  · exact Or.inr (Or.inr hnew)

/-- If no identifier holds a line feed, the items of calls keep to their lines. -/
theorem keepLines_resolvedCalls {index : Index} {supply : UidSupply} {text : Text}
    (h : ∀ entry ∈ resolvedCalls index supply text, '\n' ∉ entry.2) :
    KeepLines ((resolvedCalls index supply text).map nestedFields) := by
  intro fields hfields
  obtain ⟨entry, hentry, rfl⟩ := List.mem_map.1 hfields
  have hcalled := (mem_expectedCalls (mem_expectedCalls_of_mem_resolvedCalls hentry)).1
  simp [nestedFields, h entry hentry, (calledName_spec hcalled).2.2]

theorem regenerateNested_eq (index : Index) (supply : UidSupply) (text : Text) :
    (regenerateNested index supply text).1 =
      SectionKey.nested.refill (expectedCalls index text)
        (SectionKey.nested.render ((resolvedCalls index supply text).map nestedFields)) text := by
  have hrender : ∀ resolved : List (Text × Text),
      SectionKey.nested.render (resolved.map nestedFields) =
        resolved.zipIdx.map fun entry => renderItem .nested (entry.2 + 1) (nestedFields entry.1) := by
    intro resolved
    unfold SectionKey.render
    rw [List.zipIdx_map, List.map_map]
    rfl
  rw [hrender]
  rfl

/-- Calls are written only if there is a script. -/
theorem bodyIn_ne_nil_of_render_nestedFields {index : Index} {supply : UidSupply} {text : Text}
    (h : SectionKey.nested.render ((resolvedCalls index supply text).map nestedFields) ≠ []) :
    SectionKey.script.bodyIn (lines text) ≠ [] := by
  cases hresolved : resolvedCalls index supply text with
  | nil =>
      rw [hresolved] at h
      exact absurd rfl h
  | cons entry entries =>
      have hname : entry.1 ∈ expectedCalls index text :=
        mem_expectedCalls_of_mem_resolvedCalls (hresolved ▸ List.mem_cons_self)
      obtain ⟨line, hline, -⟩ := List.mem_filterMap.1 (mem_distinct.1 (mem_expectedCalls hname).1)
      obtain ⟨raw, hraw, -⟩ := SectionKey.exists_of_mem_linesOf hline
      exact List.ne_nil_of_mem hraw

namespace Declaration

section

variable {name uid : Text}

theorem get?_tableOf_nestedFields (field : Field) (value : Text)
    (h : (field, value) ∈ nestedFields (name, uid)) :
    ListItem.get? ⟨0, ListItem.tableOf (nestedFields (name, uid))⟩ field = some (Scalar.quote value) := by
  have hnodup : ((nestedFields (name, uid)).map Prod.fst).Nodup := by
    show [Field.nestedUid, .nestedName].Nodup
    decide
  unfold ListItem.get? ListItem.tableOf
  rw [Table.get?_ofEntries]
  exact ListItem.get?_map_word hnodup h Scalar.quote

/-- What is read of a name that is written between double quotes. -/
def rereadName (name : Text) : Text := strip (Scalar.unquote (Scalar.quote name))

/-- A stripped name that its escaped form stands for is read back. -/
theorem rereadName_eq (hname : Scalar.IsFaithful name) (hstrip : strip name = name) :
    rereadName name = name := by
  rw [rereadName, hname.2, hstrip]

theorem nestedName_tableOf (name uid : Text) :
    nestedName ⟨0, ListItem.tableOf (nestedFields (name, uid))⟩ = rereadName name := by
  unfold nestedName
  rw [get?_tableOf_nestedFields .nestedName name (by simp [nestedFields]), Option.getD_some]
  rfl

theorem calledScenario?_tableOf (name uid : Text) :
    calledScenario? (ListItem.tableOf (nestedFields (name, uid))) =
      if (rereadName name).isEmpty then none else some (rereadName name) := by
  unfold calledScenario?
  simp only [nestedName_tableOf]

theorem declaredCall?_tableOf (hname : Scalar.IsFaithful name) (hstrip : strip name = name)
    (hne : name ≠ []) :
    declaredCall? (ListItem.tableOf (nestedFields (name, uid))) =
      if (strip (Scalar.unquote (Scalar.quote uid))).isEmpty then none
      else some (name, strip (Scalar.unquote (Scalar.quote uid))) := by
  have huid : nestedUid ⟨0, ListItem.tableOf (nestedFields (name, uid))⟩ =
      strip (Scalar.unquote (Scalar.quote uid)) := by
    unfold nestedUid
    rw [get?_tableOf_nestedFields .nestedUid uid (by simp [nestedFields]),
      Option.getD_some]
  have hempty : name.isEmpty = false := by simpa using hne
  unfold declaredCall?
  simp only [nestedName_tableOf, rereadName_eq hname hstrip, huid, hempty, Bool.false_or]

end

section

variable {resolved : List (Text × Text)}

/-- Among calls with different names, each is read back whose identifier is literal and stripped. -/
theorem get?_filterMap_declaredCall? (hnodup : (resolved.map Prod.fst).Nodup)
    (hnames : ∀ entry ∈ resolved,
      Scalar.IsLiteral entry.1 ∧ strip entry.1 = entry.1 ∧ entry.1 ≠ [])
    {name uid : Text} (hmem : (name, uid) ∈ resolved) (huid : Scalar.IsLiteral uid)
    (hstrip : strip uid = uid) (hne : uid ≠ []) :
    Table.get? (((resolved.map nestedFields).map ListItem.tableOf).filterMap declaredCall?) name =
      some uid := by
  induction resolved with
  | nil => exact absurd hmem List.not_mem_nil
  | cons entry resolved ih =>
      have hnodup' := List.nodup_cons.1 hnodup
      have hrest := fun hmem => ih hnodup'.2 (fun e he => hnames e (List.mem_cons_of_mem _ he)) hmem
      obtain ⟨hliteral, hstripped, hnonempty⟩ := hnames entry List.mem_cons_self
      have hentry : declaredCall? (ListItem.tableOf (nestedFields entry)) = _ :=
        declaredCall?_tableOf hliteral.isFaithful hstripped hnonempty
      rw [List.map_cons, List.map_cons, List.filterMap_cons, hentry]
      rcases List.mem_cons.1 hmem with rfl | hmem
      · rw [Scalar.unquote_quote huid, hstrip, if_neg (by simpa using hne), Table.get?_cons, if_pos rfl]
      -- another call comes first, and its name is another one
      · have hother : name ≠ entry.1 := by
          rintro rfl
          exact hnodup'.1 (List.mem_map.2 ⟨_, hmem, rfl⟩)
        split
        · exact hrest hmem
        · next heq =>
          split at heq
          · simp at heq
          · obtain rfl := Option.some.inj heq
            rw [Table.get?_cons, if_neg hother]
            exact hrest hmem

/-- Literal identifiers are read back. -/
theorem get?_nestedUids_refill {text : Text} (hin : SectionKey.isIn text .nested = true)
    (hitems : KeepLines (resolved.map nestedFields)) (hnodup : (resolved.map Prod.fst).Nodup)
    (hnames : ∀ entry ∈ resolved,
      Scalar.IsLiteral entry.1 ∧ strip entry.1 = entry.1 ∧ entry.1 ≠ [])
    (listed : List Text) {name uid : Text} (hmem : (name, uid) ∈ resolved)
    (huid : Scalar.IsLiteral uid) (hstrip : strip uid = uid) (hne : uid ≠ []) :
    (nestedUids (SectionKey.nested.refill listed
      (SectionKey.nested.render (resolved.map nestedFields)) text).text).get? name = some uid := by
  rw [get?_nestedUids, nestedEntries, tablesIn_refill hitems hin]
  exact get?_filterMap_declaredCall? hnodup hnames hmem huid hstrip hne

/-- Names are read back in order, each as what its escaped form stands for. -/
theorem nestedNames_refill_eq_filter {text : Text} (hin : SectionKey.isIn text .nested = true)
    (hitems : KeepLines (resolved.map nestedFields)) (listed : List Text) :
    nestedNames (SectionKey.nested.refill listed
      (SectionKey.nested.render (resolved.map nestedFields)) text).text =
        (resolved.map fun entry => rereadName entry.1).filter (!·.isEmpty) := by
  rw [nestedNames_eq, tablesIn_refill hitems hin, ← List.filterMap_eq_filter, List.filterMap_map,
    List.filterMap_map, List.filterMap_map]
  refine List.filterMap_congr fun entry _ => ?_
  simp only [Function.comp_apply]
  rw [calledScenario?_tableOf entry.1 entry.2]
  cases h : (rereadName entry.1).isEmpty <;> simp [h, Option.guard]

/-- Names that their escaped forms stand for are read back, in order. -/
theorem nestedNames_refill {text : Text} (hin : SectionKey.isIn text .nested = true)
    (hitems : KeepLines (resolved.map nestedFields))
    (hnames : ∀ entry ∈ resolved,
      Scalar.IsFaithful entry.1 ∧ strip entry.1 = entry.1 ∧ entry.1 ≠ []) (listed : List Text) :
    nestedNames (SectionKey.nested.refill listed
      (SectionKey.nested.render (resolved.map nestedFields)) text).text = resolved.map Prod.fst := by
  have hread : ∀ entry ∈ resolved, rereadName entry.1 = entry.1 :=
    fun entry hentry => rereadName_eq (hnames entry hentry).1 (hnames entry hentry).2.1
  rw [nestedNames_refill_eq_filter hin hitems, List.map_congr_left hread, List.filter_eq_self]
  intro name hname
  obtain ⟨entry, hentry, rfl⟩ := List.mem_map.1 hname
  simpa using (hnames entry hentry).2.2

/-- Calls with different names and literal identifiers are read back, in order. -/
theorem nestedUids_refill {text : Text} (hin : SectionKey.isIn text .nested = true)
    (hitems : KeepLines (resolved.map nestedFields)) (hnodup : (resolved.map Prod.fst).Nodup)
    (hnames : ∀ entry ∈ resolved,
      Scalar.IsFaithful entry.1 ∧ strip entry.1 = entry.1 ∧ entry.1 ≠ [])
    (huids : ∀ entry ∈ resolved, Scalar.IsLiteral entry.2 ∧ strip entry.2 = entry.2 ∧ entry.2 ≠ [])
    (listed : List Text) :
    nestedUids (SectionKey.nested.refill listed
      (SectionKey.nested.render (resolved.map nestedFields)) text).text = resolved := by
  have hread : ∀ entry ∈ resolved,
      declaredCall? (ListItem.tableOf (nestedFields entry)) = some entry := by
    intro entry hentry
    obtain ⟨hfaithful, hstrip, hne⟩ := hnames entry hentry
    obtain ⟨hliteral, huid, hnonempty⟩ := huids entry hentry
    refine (declaredCall?_tableOf hfaithful hstrip hne).trans ?_
    rw [Scalar.unquote_quote hliteral, huid, if_neg (by simpa using hnonempty)]
  have hentries : nestedEntries (lines (SectionKey.nested.refill listed
      (SectionKey.nested.render (resolved.map nestedFields)) text).text) = resolved := by
    rw [nestedEntries, tablesIn_refill hitems hin]
    simp only [List.map_map, List.filterMap_map, Function.comp_def]
    rw [List.filterMap_congr hread, List.filterMap_some]
  rw [nestedUids_eq, hentries]
  exact Table.ofEntries_eq_self hnodup

end

/-- What is declared as an identifier is stripped and not empty. -/
theorem strip_of_get?_nestedUids {text name uid : Text} (h : (nestedUids text).get? name = some uid) :
    strip uid = uid ∧ uid ≠ [] := by
  rw [get?_nestedUids] at h
  obtain ⟨fields, -, hentry⟩ := List.mem_filterMap.1 (Table.mem_of_get?_eq_some h)
  unfold declaredCall? at hentry
  simp only [Option.ite_none_left_eq_some, Bool.or_eq_true, not_or, Option.some.injEq,
    Prod.mk.injEq] at hentry
  obtain ⟨⟨-, hne⟩, -, rfl⟩ := hentry
  exact ⟨strip_strip _, by simpa using hne⟩

end Declaration

/-! ## Calls that are declared once more -/

section

variable {index index' : Index} {supply : UidSupply} {text final : Text}
  (hindex : ∀ name, index'.uidOf? name = index.uidOf? name)
  (hitems : KeepLines ((resolvedCalls index supply text).map nestedFields))
  (hnames : ∀ entry ∈ resolvedCalls index supply text, Scalar.IsLiteral entry.1)
  (huids : ∀ entry ∈ resolvedCalls index supply text, recordUid? index entry.1 = some entry.2 ∨
    Scalar.IsLiteral entry.2 ∧ strip entry.2 = entry.2 ∧ entry.2 ≠ [])

include hindex hitems hnames huids

/-- Identifiers that the index knows, or that are read back, are found again. -/
theorem resolvedCalls_again (supply' : UidSupply)
    (hin : SectionKey.isIn text .nested = true)
    (hscript : SectionKey.script.bodyIn (lines final) = SectionKey.script.bodyIn (lines text))
    (hnested : SectionKey.nested.tablesIn (lines final) =
      SectionKey.nested.tablesIn (lines (regenerateNested index supply text).1.text)) :
    resolvedCalls index' supply' final = resolvedCalls index supply text := by
  have hexpected : expectedCalls index' final = expectedCalls index text :=
    expectedCalls_congr hscript hindex
  have hdeclared : Declaration.nestedUids final = Declaration.nestedUids
      (SectionKey.nested.refill (expectedCalls index text)
        (SectionKey.nested.render ((resolvedCalls index supply text).map nestedFields)) text).text := by
    rw [← regenerateNested_eq, Declaration.nestedUids_eq, Declaration.nestedUids_eq,
      Declaration.nestedEntries, Declaration.nestedEntries, hnested]
  have hnodup : ((resolvedCalls index supply text).map Prod.fst).Nodup := by
    rw [map_fst_resolvedCalls]
    exact nodup_expectedCalls index text
  have hspec : ∀ entry ∈ resolvedCalls index supply text,
      Scalar.IsLiteral entry.1 ∧ strip entry.1 = entry.1 ∧ entry.1 ≠ [] := by
    intro entry hentry
    have hname := mem_expectedCalls_of_mem_resolvedCalls hentry
    obtain ⟨hstrip, hne, -⟩ := calledName_spec (mem_expectedCalls hname).1
    exact ⟨hnames entry hentry, hstrip, hne⟩
  have hknown : ∀ entry ∈ resolvedCalls index supply text,
      knownUid? index' (Declaration.nestedUids final) entry.1 = some entry.2 := by
    intro entry hentry
    unfold knownUid?
    rw [recordUid?_congr (hindex entry.1)]
    cases hrecord : recordUid? index entry.1 with
    | some uid =>
        -- What the index knows was written already.
        obtain ⟨-, hall⟩ := resolveUids_spec index (Declaration.nestedUids text)
          (expectedCalls index text) supply
        rcases hall entry hentry with h | ⟨h, -⟩
        · unfold knownUid? at h
          rw [hrecord, Option.some_or] at h
          rw [Option.some_or]
          exact h
        · unfold knownUid? at h
          rw [hrecord, Option.some_or] at h
          exact absurd h (by simp)
    | none =>
        rw [Option.none_or, hdeclared]
        rcases huids entry hentry with h | ⟨hliteral, hstrip, hne⟩
        · rw [hrecord] at h
          exact absurd h (by simp)
        · exact Declaration.get?_nestedUids_refill hin hitems hnodup hspec _ hentry hliteral hstrip hne
  have hresolved := resolveUids_of_known hknown supply'
  rw [map_fst_resolvedCalls, ← hexpected] at hresolved
  show (resolveUids index' _ (expectedCalls index' final) supply').1 = _
  rw [hresolved]

/-- Written anew once more, the section stays as it is, even if other sections have changed in between. -/
theorem regenerateNested_again (supply' : UidSupply)
    (hothers : SectionKey.parameters.KeepsOthers
      (lines (regenerateNested index supply text).1.text) (lines final))
    {lineEnd : LineEnd} (hend : lineEnd.IsUsedIn (lines text)) (hend' : lineEnd.IsUsedIn (lines final)) :
    (regenerateNested index' supply' final).1.text = final := by
  have hscript : SectionKey.script.bodyIn (lines final) = SectionKey.script.bodyIn (lines text) := by
    rw [hothers.bodyIn (by decide), regenerateNested_eq]
    exact (keepsOthers_refill hitems _ _ _).bodyIn (by decide)
  rw [regenerateNested_eq]
  cases hin : SectionKey.isIn final .nested with
  | false => exact text_refill_of_isIn_eq_false hin _ _
  | true =>
      have hblock := hothers.blockIn .nested (by decide)
      have hin' : SectionKey.isIn text .nested = true := by
        by_contra hnot
        have hkept : (regenerateNested index supply text).1.text = text := by
          rw [regenerateNested_eq]
          exact text_refill_of_isIn_eq_false (by simpa using hnot) _ _
        rw [hkept, ← SectionKey.find?_map_block, ← SectionKey.find?_map_block] at hblock
        have hsome := congrArg Option.isSome hblock
        rw [Option.isSome_map, Option.isSome_map] at hsome
        exact hnot (hsome.symm.trans hin)
      rw [resolvedCalls_again hindex hitems hnames huids supply' hin' hscript
        (hothers.tablesIn (by decide))]
      rw [regenerateNested_eq] at hblock
      refine text_refill_again hitems hend (fun hne => ?_) hblock hend' (fun hne => ?_) _
      · exact SectionKey.two_le_length_of_bodyIn_ne_nil (bodyIn_ne_nil_of_render_nestedFields hne)
      · exact SectionKey.two_le_length_of_bodyIn_ne_nil
          (hscript ▸ bodyIn_ne_nil_of_render_nestedFields hne)

end

end Scenarist
