import Scenarist.Proofs.Guard
import Scenarist.Proofs.Nested
import Scenarist.Proofs.Presence
import Scenarist.Proofs.Repair

set_option autoImplicit false

/-! # Calls that are declared from the script

After the calls of a document were written anew, it declares the scenarios that its script calls and the
index knows, in the order of the calls. Each keeps the identifier of its record, or else the declared one;
the supply hands out one identifier for each of the others. All of this is read back, so a second run finds
nothing to write and asks for no identifier, whatever line ends the document mixes.

Main statements: `regenerateNested_declares` and `Record.strip_uid` (the identifiers of an index are
stripped, since they were read from documents). -/

namespace Scenarist

open Text

/-! ## Identifiers of records -/

theorem Declaration.strip_of_metadataField? {field : Field} {text : Text} {found : FoundField}
    (h : metadataField? field text = some found) : strip found.value = found.value ∧ found.value ≠ [] := by
  obtain ⟨⟨number, line, raw⟩, -, hread⟩ := List.exists_of_findSome?_eq_some h
  simp only [Option.ite_none_left_eq_some, Option.some.injEq] at hread
  obtain ⟨hne, rfl⟩ := hread
  exact ⟨strip_strip _, by simpa using hne⟩

/-- The identifier of a record that was made of a document is stripped and not empty. -/
theorem Record.strip_uid {source : Source} {document : Text} {record : Record}
    (h : ofText? source document = some record) {uid : Text} (huid : uid ∈ record.uid) :
    strip uid = uid ∧ uid ≠ [] := by
  obtain ⟨name, -, rfl⟩ := Option.map_eq_some_iff.1 h
  obtain ⟨found, hfound, rfl⟩ := Option.map_eq_some_iff.1 huid
  exact Declaration.strip_of_metadataField? hfound

theorem recordUid?_spec {index : Index} {name uid : Text} (h : recordUid? index name = some uid) :
    ∃ entry ∈ index.records, entry.1 = name ∧ entry.2.uid = some uid ∧ uid ≠ [] := by
  obtain ⟨hbind, hne⟩ := Option.filter_eq_some_iff.1 h
  obtain ⟨record, hrecord, huid⟩ := Option.bind_eq_some_iff.1 hbind
  exact ⟨(name, record), Table.mem_of_get?_eq_some hrecord, rfl, huid, by simpa using hne⟩

/-! ## The second run -/

/-- Calls with different names that were resolved are known from then on. -/
theorem resolveUids_resolved (index : Index) (declared : Table Text) {names : List Text}
    (hnodup : names.Nodup) (supply later : UidSupply) :
    resolveUids index (resolveUids index declared names supply).1 names later =
      ((resolveUids index declared names supply).1, later) := by
  obtain ⟨hnames, hall⟩ := resolveUids_spec index declared names supply
  have hkeys : ((resolveUids index declared names supply).1.map Prod.fst).Nodup := by
    rwa [hnames]
  have hknown : ∀ entry ∈ (resolveUids index declared names supply).1,
      knownUid? index (resolveUids index declared names supply).1 entry.1 = some entry.2 := by
    intro entry hentry
    have hget := Table.get?_eq_some_of_mem hkeys hentry
    unfold knownUid?
    rw [hget]
    -- the identifier of a record goes before one that is declared, and where there is one it was taken
    rcases hall entry hentry with hknown | ⟨hknown, -⟩
    · unfold knownUid? at hknown
      cases hrecord : recordUid? index entry.1 with
      | none => rfl
      | some uid => rwa [hrecord] at hknown
    · rw [(Option.or_eq_none_iff.1 hknown).1, Option.none_or]
  have hresolved := resolveUids_of_known hknown later
  rwa [hnames] at hresolved

/-- Written anew with the same items, a section that was written anew is reported as it is. -/
theorem refill_refill {key : SectionKey} {text : Text} {items : List (List (Field × Text))}
    (hitems : KeepLines items) (hin : SectionKey.isIn text key = true)
    (hlength : key.render items ≠ [] → 2 ≤ (lines text).length) (names names' : List Text) :
    key.refill names' (key.render items) (key.refill names (key.render items) text).text =
      { changed := false, text := (key.refill names (key.render items) text).text, found := true
        items := names' } := by
  have hkept : SectionKey.isIn (key.refill names (key.render items) text).text key = true :=
    SectionKey.mem_presentIn.1 (KeepsSections.refill key _ _ text key (SectionKey.mem_presentIn.2 hin))
  exact refill_eq_of_text hkept (text_refill_refill hitems hlength names names')

/-! ## What a document declares afterwards -/

/-- The expected calls of a document of which no identifier is known. -/
def unknownCalls (index : Index) (text : Text) : List Text :=
  (expectedCalls index text).filter fun name =>
    (knownUid? index (Declaration.nestedUids text) name).isNone

/-- Whether a document declares the calls that were expected of another one: each with the identifier of
its record, else with the one that the other document declared, else with a new one. -/
structure DeclaresExpected (index : Index) (supply : UidSupply) (before after : Text) : Prop where
  names : Declaration.nestedNames after = expectedCalls index before
  keys : (Declaration.nestedUids after).keys = expectedCalls index before
  ofRecord : ∀ name ∈ expectedCalls index before, ∀ uid, recordUid? index name = some uid →
    (Declaration.nestedUids after).get? name = some uid
  ofDeclaration : ∀ name ∈ expectedCalls index before, recordUid? index name = none →
    ∀ uid, (Declaration.nestedUids before).get? name = some uid →
      (Declaration.nestedUids after).get? name = some uid
  ofSupply : ∀ i (h : i < (unknownCalls index before).length),
    (Declaration.nestedUids after).get? (unknownCalls index before)[i] =
      some (supply.make (supply.used + i + 1))

section

variable {index : Index} {supply : UidSupply} {text : Text}

/-- The calls with their identifiers are what is expected, if they are read back. -/
theorem declaresExpected_of_read {after : Text}
    (hnames : Declaration.nestedNames after = expectedCalls index text)
    (huids : Declaration.nestedUids after = resolvedCalls index supply text) :
    DeclaresExpected index supply text after := by
  have hkeys : (Declaration.nestedUids after).keys = expectedCalls index text := by
    rw [huids]
    exact map_fst_resolvedCalls index supply text
  have hnodup : (Declaration.nestedUids after).keys.Nodup := hkeys ▸ nodup_expectedCalls index text
  have hknown : ∀ name ∈ expectedCalls index text, ∀ uid,
      knownUid? index (Declaration.nestedUids text) name = some uid →
        (Declaration.nestedUids after).get? name = some uid := by
    intro name hname uid huid
    rw [← map_fst_resolvedCalls index supply] at hname
    obtain ⟨entry, hentry, rfl⟩ := List.mem_map.1 hname
    -- the identifier that is written is the known one, and it is read back
    have hread := Table.get?_eq_some_of_mem hnodup (huids ▸ hentry)
    rcases (resolveUids_spec index (Declaration.nestedUids text) (expectedCalls index text) supply).2
      entry hentry with h | ⟨h, -⟩
    · rw [hread, ← h, huid]
    · rw [huid] at h
      exact absurd h (by simp)
  refine ⟨hnames, hkeys, fun name hname uid huid => ?_, fun name hname hnone uid huid => ?_,
    fun i hi => ?_⟩
  · exact hknown name hname uid (by rw [knownUid?, huid, Option.some_or])
  · exact hknown name hname uid (by rw [knownUid?, hnone, Option.none_or, huid])
  · have hnew := (resolveUids_unknown index (Declaration.nestedUids text) (expectedCalls index text)
      supply).2
    have hentry : ((unknownCalls index text)[i], supply.make (supply.used + i + 1)) ∈
        (resolvedCalls index supply text).filter fun entry =>
          (knownUid? index (Declaration.nestedUids text) entry.1).isNone := by
      unfold resolvedCalls
      rw [hnew]
      exact List.mem_map.2 ⟨((unknownCalls index text)[i], i),
        List.mem_zipIdx_iff_getElem?.2 (List.getElem?_eq_getElem hi), rfl⟩
    exact Table.get?_eq_some_of_mem hnodup (huids ▸ (List.mem_filter.1 hentry).1)

theorem supply_regenerateNested (index : Index) (supply : UidSupply) (text : Text) :
    (regenerateNested index supply text).2 =
      (resolveUids index (Declaration.nestedUids text) (expectedCalls index text) supply).2 := rfl

/-- The names of resolved calls are literal, stripped and not empty. -/
theorem name_of_mem_resolvedCalls (hindex : ∀ entry ∈ index.records, Scalar.IsLiteral entry.1)
    {entry : Text × Text} (hentry : entry ∈ resolvedCalls index supply text) :
    Scalar.IsLiteral entry.1 ∧ strip entry.1 = entry.1 ∧ entry.1 ≠ [] := by
  obtain ⟨hcalled, record, hrecord⟩ := mem_expectedCalls (mem_expectedCalls_of_mem_resolvedCalls hentry)
  obtain ⟨hstrip, hne, -⟩ := calledName_spec hcalled
  exact ⟨hindex _ (Table.mem_of_get?_eq_some hrecord), hstrip, hne⟩

/-- The identifiers of resolved calls are literal, stripped and not empty, wherever they come from. -/
theorem uid_of_mem_resolvedCalls
    (hindex : ∀ entry ∈ index.records, ∀ uid ∈ entry.2.uid, Scalar.IsLiteral uid ∧ strip uid = uid)
    (hdeclared : ∀ entry ∈ Declaration.nestedUids text, Scalar.IsLiteral entry.2)
    (hfresh : ∀ n, Scalar.IsLiteral (supply.make n) ∧ strip (supply.make n) = supply.make n ∧
      supply.make n ≠ [])
    {entry : Text × Text} (hentry : entry ∈ resolvedCalls index supply text) :
    Scalar.IsLiteral entry.2 ∧ strip entry.2 = entry.2 ∧ entry.2 ≠ [] := by
  rcases resolvedCalls_cases hentry with hrecord | hget | ⟨n, hnew⟩
  · obtain ⟨found, hfound, -, huid, hne⟩ := recordUid?_spec hrecord
    obtain ⟨hliteral, hstrip⟩ := hindex found hfound entry.2 huid
    exact ⟨hliteral, hstrip, hne⟩
  · exact ⟨hdeclared _ (Table.mem_of_get?_eq_some hget), Declaration.strip_of_get?_nestedUids hget⟩
  · rw [hnew]
    exact hfresh n

/-- Written anew from the script, the declared calls are the expected ones with their identifiers, read
back as they were written, and stay as they are from then on. Names and identifiers are to be literal,
identifiers stripped. -/
theorem regenerateNested_declares (hin : SectionKey.isIn text .nested = true)
    (hindex : ∀ entry ∈ index.records, Scalar.IsLiteral entry.1 ∧
      ∀ uid ∈ entry.2.uid, Scalar.IsLiteral uid ∧ strip uid = uid)
    (hdeclared : ∀ entry ∈ Declaration.nestedUids text, Scalar.IsLiteral entry.2)
    (hfresh : ∀ n, Scalar.IsLiteral (supply.make n) ∧ strip (supply.make n) = supply.make n ∧
      supply.make n ≠ []) :
    ∃ result, regenerateNested index supply text =
        (result, { supply with used := supply.used + (unknownCalls index text).length }) ∧
      result.found = true ∧ result.items = expectedCalls index text ∧
      DeclaresExpected index supply text result.text ∧
      nestedDiffer (expectedCalls index result.text) result.text = false ∧
      guardScalars (Declaration.scalarsOfNestedUids result.text) () = .ok () ∧
      ∀ later, regenerateNested index later result.text =
        ({ changed := false, text := result.text, found := true, items := expectedCalls index text },
          later) := by
  have hnames : ∀ entry ∈ resolvedCalls index supply text,
      Scalar.IsLiteral entry.1 ∧ strip entry.1 = entry.1 ∧ entry.1 ≠ [] :=
    fun entry hentry => name_of_mem_resolvedCalls (fun found hfound => (hindex found hfound).1) hentry
  have huids : ∀ entry ∈ resolvedCalls index supply text,
      Scalar.IsLiteral entry.2 ∧ strip entry.2 = entry.2 ∧ entry.2 ≠ [] :=
    fun entry hentry => uid_of_mem_resolvedCalls (fun found hfound => (hindex found hfound).2) hdeclared
      hfresh hentry
  have hfaithful : ∀ entry ∈ resolvedCalls index supply text,
      Scalar.IsFaithful entry.1 ∧ strip entry.1 = entry.1 ∧ entry.1 ≠ [] :=
    fun entry hentry => ⟨(hnames entry hentry).1.isFaithful, (hnames entry hentry).2⟩
  have hitems : KeepLines ((resolvedCalls index supply text).map nestedFields) :=
    keepLines_resolvedCalls fun entry hentry => (huids entry hentry).1.not_mem (by decide)
  have hnodup : ((resolvedCalls index supply text).map Prod.fst).Nodup := by
    rw [map_fst_resolvedCalls]
    exact nodup_expectedCalls index text
  have hwritten := regenerateNested_eq index supply text
  set result := (regenerateNested index supply text).1
  have hread : Declaration.nestedUids result.text = resolvedCalls index supply text := by
    rw [hwritten]
    exact Declaration.nestedUids_refill hin hitems hnodup hfaithful huids _
  have hreadNames : Declaration.nestedNames result.text = expectedCalls index text := by
    rw [hwritten, Declaration.nestedNames_refill hin hitems hfaithful, map_fst_resolvedCalls]
  have hexpected : expectedCalls index result.text = expectedCalls index text := by
    refine expectedCalls_congr ?_ fun name => rfl
    rw [hwritten]
    exact (keepsOthers_refill hitems _ _ _).bodyIn (by decide)
  have hagain : ∀ later, resolveUids index (Declaration.nestedUids result.text)
      (expectedCalls index result.text) later = (resolvedCalls index supply text, later) := by
    intro later
    rw [hread, hexpected]
    exact resolveUids_resolved index _ (nodup_expectedCalls index text) supply later
  obtain ⟨hfound, hlisted⟩ := hwritten ▸ found_refill hin (expectedCalls index text) _
  refine ⟨result, Prod.ext rfl ?_, hfound, hlisted, declaresExpected_of_read hreadNames hread, ?_, ?_,
    fun later => Prod.ext ?_ ?_⟩
  · rw [supply_regenerateNested]
    exact (resolveUids_unknown index (Declaration.nestedUids text) (expectedCalls index text) supply).1
  · rw [nestedDiffer, hreadNames, hexpected]
    simp
  · refine Declaration.guard_scalarsOfNestedUids ?_
    rw [hwritten]
    exact areWritten_tablesIn_refill hitems _ _
  · have hlength : SectionKey.nested.render ((resolvedCalls index supply text).map nestedFields) ≠ [] →
        2 ≤ (lines text).length :=
      fun hne => SectionKey.two_le_length_of_bodyIn_ne_nil (bodyIn_ne_nil_of_render_nestedFields hne)
    rw [regenerateNested_eq, resolvedCalls, hagain, hexpected, hwritten]
    exact refill_refill hitems hin hlength _ _
  · rw [supply_regenerateNested, hagain]

end

/-! ## Three calls, known in three ways -/

/-- A document that declares a scenario, with an identifier if there is one. -/
def namingDocument (name uid : Text) : Text :=
  unlines ["ДанныеСценария:".toList, "    Имя: ".toList ++ Scalar.quote name,
    "    UID: ".toList ++ Scalar.quote uid]

def threeScenarios : Index :=
  [("/b", "B:", "u-B"), ("/c", "C\\", ""), ("/d", "D", "")].foldl
    (fun index document => (index.upsert document.1.toList
      (namingDocument document.2.1.toList document.2.2.toList)).2) Executor.bareDesk.index

/-- A document that calls them and declares the second one, with a carriage return on one line alone. -/
def callingDocument : Text :=
  unlines ["ВложенныеСценарии:".toList, "    - ВложенныеСценарии1:".toList,
    "        UIDВложенныйСценарий: \"u-C\"".toList, "        ИмяСценария: \"C\\\\\"".toList,
    "ТекстСценария: |\r".toList, "    И D".toList, "    И B:".toList, "    And C\\".toList,
    "    И нажимаю кнопку".toList]

/-- One identifier is new: that of the call that neither the index nor the document knows one of. -/
theorem regenerateNested_declares_three :
    unknownCalls threeScenarios callingDocument = ["D".toList] ∧
      ∃ result, regenerateNested threeScenarios Executor.bareDesk.supply callingDocument =
          (result, { Executor.bareDesk.supply with used := 1 }) ∧
        DeclaresExpected threeScenarios Executor.bareDesk.supply callingDocument result.text ∧
        ∀ later, regenerateNested threeScenarios later result.text =
          ({ changed := false, text := result.text, found := true
             items := ["D".toList, "B:".toList, "C\\".toList] }, later) := by
  have hunknown : unknownCalls threeScenarios callingDocument = ["D".toList] := by decide +kernel
  have hexpected : expectedCalls threeScenarios callingDocument =
      ["D".toList, "B:".toList, "C\\".toList] := by
    decide +kernel
  have hfresh : ∀ n, Scalar.IsLiteral (Executor.bareDesk.supply.make n) ∧
      strip (Executor.bareDesk.supply.make n) = Executor.bareDesk.supply.make n ∧
      Executor.bareDesk.supply.make n ≠ [] := by
    intro n
    refine ⟨(show Scalar.IsLiteral ['u'] by decide).append (ListItem.isLiteral_ofNat n),
      strip_of_not_blank fun c hc => ?_, List.cons_ne_nil _ _⟩
    rcases List.mem_cons.1 hc with rfl | hc
    · decide
    · exact Scalar.isBlank_of_isNameLetter (ListItem.isNameLetter_of_mem_ofNat hc)
  obtain ⟨result, hrun, -, -, hdeclares, -, -, hagain⟩ :=
    @regenerateNested_declares threeScenarios Executor.bareDesk.supply callingDocument
      (by decide +kernel) (by decide +kernel) (by decide +kernel) hfresh
  rw [hunknown] at hrun
  rw [hexpected] at hagain
  exact ⟨hunknown, result, hrun, hdeclares, hagain⟩

end Scenarist
