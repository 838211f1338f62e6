import Scenarist.Proofs.Calls
import Scenarist.Proofs.Index.Distinct
import Scenarist.Proofs.Text.Order
import Scenarist.Proofs.Text.Plain

set_option autoImplicit false

/-! # Codes that several scenarios share

Records are gathered under their codes, and each record of a code that another one has too gets a warning
with the names of the others. The warnings are gathered by document. An index has one record for each
document, so a document has one warning at most, and to be of another document is to be another record.

Main statements: `DuplicateCodes.codeOf?_eq_some_iff` (the codes that count), `DuplicateCodes.reports_all`
(the warnings about records) and `Watched.reports_run` (what is answered after any acts). -/

namespace Scenarist

open Text

/-! ## The placeholder -/

/-- Whether a code is the one that no scenario is meant to keep, its letters in any case. -/
def DuplicateCodes.IsPlaceholder (code : Text) : Prop := code.map Char.toLower = "code_placeholder".toList

instance (code : Text) : Decidable (DuplicateCodes.IsPlaceholder code) := inferInstanceAs (Decidable (_ = _))

/-! ## Groups of records -/

namespace Record

/-- Whether another record has the code of this one, and the code counts. -/
def SharesCode (record other : Record) : Prop :=
  other ≠ record ∧ other.code = record.code ∧ ∃ code ∈ record.code, ¬ DuplicateCodes.IsPlaceholder code

instance (record other : Record) : Decidable (record.SharesCode other) :=
  inferInstanceAs (Decidable (_ ∧ _ ∧ _))

theorem SharesCode.symm {record other : Record} (h : record.SharesCode other) : other.SharesCode record :=
  ⟨h.1.symm, h.2.1.symm, h.2.1 ▸ h.2.2⟩

/-- The code of a record that was made of a document is stripped and not empty. -/
theorem strip_code {source : Source} {document : Text} {record : Record}
    (h : ofText? source document = some record) {code : Text} (hcode : code ∈ record.code) :
    strip code = code ∧ code ≠ [] := by
  obtain ⟨name, -, rfl⟩ := Option.map_eq_some_iff.1 h
  obtain ⟨found, hfound, rfl⟩ := Option.map_eq_some_iff.1 hcode
  exact Declaration.strip_of_metadataField? hfound

/-- The record of a document that declares a code has the place of the code. -/
theorem exists_codeSpan {source : Source} {document : Text} {record : Record}
    (h : ofText? source document = some record) {code : Text} (hcode : code ∈ record.code) :
    ∃ span, record.codeSpan = some span := by
  obtain ⟨name, -, rfl⟩ := Option.map_eq_some_iff.1 h
  obtain ⟨found, hfound, rfl⟩ := Option.map_eq_some_iff.1 hcode
  exact ⟨_, Option.map_eq_some_iff.2 ⟨found, hfound, rfl⟩⟩

end Record

theorem map_filterMap_sublist {α β γ : Type} {f : α → Option β} {g : β → γ} {key : α → γ}
    (h : ∀ a b, f a = some b → g b = key a) (values : List α) :
    ((values.filterMap f).map g).Sublist (values.map key) := by
  induction values with
  | nil => exact List.Sublist.refl _
  | cons a values ih =>
      cases hvalue : f a with
      | none =>
          rw [List.filterMap_cons_none hvalue]
          exact ih.cons _
      | some b =>
          rw [List.filterMap_cons_some hvalue, List.map_cons, List.map_cons, h a b hvalue]
          exact ih.cons_cons _

namespace DuplicateCodes

variable {records group : List Record} {record other : Record} {code uri : Text}

theorem afterLetters?_placeholder_iff : afterLetters? placeholder code = some [] ↔ IsPlaceholder code := by
  have hlower : placeholder.map letterKey = "code_placeholder".toList.map letterKey := by decide +kernel
  have hspells : Spells placeholder code ↔ Spells "code_placeholder".toList code := by
    unfold Spells
    rw [hlower]
  have hafter : afterLetters? placeholder code = some [] ↔ Spells placeholder code := by
    rw [afterLetters?_eq_some_iff]
    constructor
    · rintro ⟨written, hwritten, rfl⟩
      rwa [List.append_nil]
    · exact fun h => ⟨code, h, (List.append_nil code).symm⟩
  have hplain : ("code_placeholder".toList.all fun w => w.toNat ∈ plainCodes) = true := by decide
  rw [hafter, hspells, spells_iff_of_plain fun w hw => of_decide_eq_true (List.all_eq_true.1 hplain w hw)]
  exact Iff.rfl

/-- The code of a record counts unless it is the placeholder. -/
theorem codeOf?_eq_some_iff (hmade : record.IsMade) :
    codeOf? record = some code ↔ record.code = some code ∧ ¬ IsPlaceholder code := by
  obtain ⟨source, document, hrecord⟩ := hmade
  unfold codeOf?
  cases hcode : record.code with
  | none =>
      have hempty : strip [] = [] := by decide
      simp [hempty]
  | some held =>
      obtain ⟨hstrip, hne⟩ := Record.strip_code hrecord hcode
      simp only [Option.getD_some, hstrip, Option.some.injEq, Bool.or_eq_true, List.isEmpty_iff, hne, false_or,
        decide_eq_true_eq, afterLetters?_placeholder_iff]
      split
      · next hplaceholder =>
        refine iff_of_false (by simp) ?_
        rintro ⟨rfl, hnot⟩
        exact hnot hplaceholder
      · next hnot =>
        rw [Option.some.injEq]
        refine ⟨?_, And.left⟩
        rintro rfl
        exact ⟨rfl, hnot⟩

theorem groups_eq (records : List Record) :
    groups records = Table.collect (records.filterMap fun record => (codeOf? record).map (·, record)) := by
  unfold groups Table.collect
  rw [List.foldl_filterMap]
  congr 1
  funext found record
  cases codeOf? record <;> rfl

/-- The records of a code, in order. -/
theorem mem_groups_iff : (code, group) ∈ groups records ↔
    group = records.filter (codeOf? · = some code) ∧ group ≠ [] := by
  have hvalues : Table.valuesAt (records.filterMap fun record => (codeOf? record).map (·, record)) code =
      records.filter (codeOf? · = some code) := by
    unfold Table.valuesAt
    induction records with
    | nil => rfl
    | cons record records ih =>
        cases hcode : codeOf? record with
        | none => simpa [hcode] using ih
        | some held => by_cases heq : held = code <;> simpa [hcode, heq] using ih
  rw [groups_eq, Table.mem_collect_iff, hvalues]

/-- The warnings of all groups, each with the document that it is about. -/
def pairs (records : List Record) : List (Text × Diagnostic) :=
  (groups records).flatMap fun entry => warningsOf entry.1 entry.2

theorem all_eq (records : List Record) : all records = Table.collect (pairs records) := rfl

/-- The names of the records that share the code of a record, as they are listed. -/
def rivals (records : List Record) (record : Record) : List Text :=
  sortLower ((records.filter fun other => record.SharesCode other).map Record.name)

theorem rivals_eq_nil_iff : rivals records record = [] ↔ ∀ other ∈ records, ¬ record.SharesCode other := by
  have hperm := perm_sortBy lower ((records.filter fun other => record.SharesCode other).map Record.name)
  unfold rivals sortLower
  rw [← List.length_eq_zero_iff, hperm.length_eq, List.length_eq_zero_iff, List.map_eq_nil_iff,
    List.filter_eq_nil_iff]
  simp only [decide_eq_true_eq]

section

variable (hmade : ∀ record ∈ records, record.IsMade) (huris : (records.map Record.uri).Nodup)

include hmade huris

/-- In a group the records of other documents are those that share the code. -/
theorem filter_group (hrecord : record ∈ records) (hcode : codeOf? record = some code) :
    (records.filter (codeOf? · = some code)).filter (·.uri ≠ record.uri) =
      records.filter fun other => record.SharesCode other := by
  obtain ⟨hheld, hnot⟩ := (codeOf?_eq_some_iff (hmade record hrecord)).1 hcode
  rw [List.filter_filter]
  refine List.filter_congr fun other hother => ?_
  rw [← Bool.decide_and, decide_eq_decide, codeOf?_eq_some_iff (hmade other hother)]
  constructor
  · rintro ⟨huri, hshared, -⟩
    refine ⟨?_, hshared.trans hheld.symm, code, hheld, hnot⟩
    rintro rfl
    exact huri rfl
  · rintro ⟨hne, hshared, -⟩
    exact ⟨fun huri => hne (List.inj_on_of_nodup_map huris hother hrecord huri), hshared.trans hheld, hnot⟩

/-- A record has a warning if another one shares its code. -/
theorem mem_pairs_iff {diagnostic : Diagnostic} : (uri, diagnostic) ∈ pairs records ↔
    ∃ record ∈ records, ∃ code, codeOf? record = some code ∧ rivals records record ≠ [] ∧
      uri = record.uri ∧ diagnostic = warning code record (rivals records record) := by
  -- the group of the code without the record are its rivals
  have hothers : ∀ record ∈ records, ∀ code, codeOf? record = some code →
      sortLower (((records.filter (codeOf? · = some code)).filter (·.uri ≠ record.uri)).map Record.name) =
        rivals records record := by
    intro record hrecord code hcode
    rw [filter_group hmade huris hrecord hcode]
    rfl
  unfold pairs warningsOf
  simp only [List.mem_flatMap, List.mem_filterMap, Option.ite_none_left_eq_some, Option.some.injEq, Prod.mk.injEq,
    List.isEmpty_iff]
  constructor
  · rintro ⟨⟨code, group⟩, hgroup, record, hmem, hne, rfl, rfl⟩
    obtain ⟨rfl, -⟩ := mem_groups_iff.1 hgroup
    obtain ⟨hrecord, hcode⟩ := List.mem_filter.1 hmem
    have heq := hothers record hrecord code (of_decide_eq_true hcode)
    rw [heq] at hne ⊢
    exact ⟨record, hrecord, code, of_decide_eq_true hcode, hne, rfl, rfl⟩
  · rintro ⟨record, hrecord, code, hcode, hne, rfl, rfl⟩
    have hmem : record ∈ records.filter (codeOf? · = some code) :=
      List.mem_filter.2 ⟨hrecord, decide_eq_true hcode⟩
    refine ⟨(code, records.filter (codeOf? · = some code)),
      mem_groups_iff.2 ⟨rfl, List.ne_nil_of_mem hmem⟩, record, hmem, ?_⟩
    rw [hothers record hrecord code hcode]
    exact ⟨hne, rfl, rfl⟩

omit hmade in
/-- No document has two warnings. -/
theorem nodup_pairs : ((pairs records).map Prod.fst).Nodup := by
  have hsublist : ∀ code group, ((warningsOf code group).map Prod.fst).Sublist (group.map Record.uri) := by
    intro code group
    refine map_filterMap_sublist (fun record pair hpair => ?_) group
    obtain ⟨-, hwarning⟩ := Option.ite_none_left_eq_some.1 hpair
    exact congrArg Prod.fst (Option.some.inj hwarning).symm
  have hgroups : (groups records).Pairwise fun entry other => entry.1 ≠ other.1 := by
    rw [groups_eq]
    exact List.pairwise_map.1 (Table.nodup_keys_collect _)
  unfold pairs
  rw [List.map_flatMap, List.nodup_flatMap]
  constructor
  · rintro ⟨code, group⟩ hgroup
    obtain ⟨rfl, -⟩ := mem_groups_iff.1 hgroup
    exact (huris.sublist (List.filter_sublist.map Record.uri)).sublist (hsublist code _)
  · -- one record is in one group alone
    refine hgroups.imp_of_mem ?_
    rintro ⟨code, group⟩ ⟨code', group'⟩ hgroup hgroup' hne uri huri huri'
    obtain ⟨rfl, -⟩ := mem_groups_iff.1 hgroup
    obtain ⟨rfl, -⟩ := mem_groups_iff.1 hgroup'
    obtain ⟨record, hrecord, rfl⟩ := List.mem_map.1 ((hsublist code _).subset huri)
    obtain ⟨other, hother, hsame⟩ := List.mem_map.1 ((hsublist code' _).subset huri')
    obtain ⟨hrecord, hcode⟩ := List.mem_filter.1 hrecord
    obtain ⟨hother, hcode'⟩ := List.mem_filter.1 hother
    obtain rfl := List.inj_on_of_nodup_map huris hother hrecord hsame
    exact hne (Option.some.inj ((of_decide_eq_true hcode).symm.trans (of_decide_eq_true hcode')))

/-- A document is given a warning if it is that of a record whose code another one shares, and this alone. -/
theorem get?_all_eq_some_iff {found : List Diagnostic} : (all records).get? uri = some found ↔
    ∃ record ∈ records, ∃ code, codeOf? record = some code ∧ rivals records record ≠ [] ∧
      uri = record.uri ∧ found = [warning code record (rivals records record)] := by
  rw [all_eq, Table.get?_collect_eq_some_iff (nodup_pairs huris)]
  constructor
  · rintro ⟨diagnostic, hmem, rfl⟩
    obtain ⟨record, hrecord, code, hcode, hne, rfl, rfl⟩ := (mem_pairs_iff hmade huris).1 hmem
    exact ⟨record, hrecord, code, hcode, hne, rfl, rfl⟩
  · rintro ⟨record, hrecord, code, hcode, hne, rfl, rfl⟩
    exact ⟨_, (mem_pairs_iff hmade huris).2 ⟨record, hrecord, code, hcode, hne, rfl, rfl⟩, rfl⟩

end

/-- What a warning is to say of a record: where its code stands, that scenarios with these names share the
code, a line for each of them. -/
structure Warns (record : Record) (code : Text) (names : List Text) (diagnostic : Diagnostic) : Prop where
  code_eq : diagnostic.code = .duplicateScenarioCode
  severity_eq : diagnostic.severity = .warning
  message_eq : diagnostic.message =
    "Duplicate scenario code \"".toList ++ code ++ "\" found in other scenarios:".toList ++
      names.flatMap (fun name => "\n- ".toList ++ name) ++ ['\n']
  range_eq : ∃ span ∈ record.codeSpan,
    diagnostic.range = ⟨span.line, span.start, span.line, max (span.start + 1) span.stop⟩

theorem warns_warning (hmade : record.IsMade) (hcode : record.code = some code) {names : List Text}
    (hnames : names ≠ []) : Warns record code names (warning code record names) where
  code_eq := rfl
  severity_eq := rfl
  message_eq := by simp [warning, Message.duplicateCode, listMessage, hnames]
  range_eq := by
    obtain ⟨source, document, hrecord⟩ := hmade
    obtain ⟨span, hspan⟩ := Record.exists_codeSpan hrecord hcode
    exact ⟨span, hspan, by simp [warning, hspan]⟩

/-- What warnings by document are to say of records that share codes. -/
structure Reports (records : List Record) (found : Table (List Diagnostic)) : Prop where
  /-- A record whose code another one shares has one warning, with the names of the others. -/
  warned : ∀ record ∈ records, ∀ code, record.code = some code →
    (∃ other ∈ records, record.SharesCode other) →
    ∃ diagnostic, found.get? record.uri = some [diagnostic] ∧
      Warns record code (rivals records record) diagnostic
  /-- Any other record has none. -/
  unwarned : ∀ record ∈ records, (∀ other ∈ records, ¬ record.SharesCode other) →
    found.get? record.uri = none
  /-- The names are those of all others with the code. -/
  perm : ∀ record ∈ records,
    (rivals records record).Perm ((records.filter fun other => record.SharesCode other).map Record.name)
  /-- They are sorted by their lower-case forms. -/
  sorted : ∀ record ∈ records,
    ((rivals records record).map lower).Pairwise fun name later => le name later = true
  /-- Records name each other. -/
  symm : ∀ record ∈ records, ∀ other ∈ records,
    (other.name ∈ rivals records record ↔ record.name ∈ rivals records other)
  /-- There are no other documents. -/
  of_mem : ∀ uri ∈ found.keys, ∃ record ∈ records, record.uri = uri ∧ ∃ other ∈ records, record.SharesCode other

theorem mem_rivals_iff (hnames : (records.map Record.name).Nodup) (hother : other ∈ records) :
    other.name ∈ rivals records record ↔ record.SharesCode other := by
  unfold rivals sortLower
  rw [mem_sortBy, List.mem_map]
  constructor
  · rintro ⟨named, hnamed, hname⟩
    obtain ⟨hmem, hshares⟩ := List.mem_filter.1 hnamed
    obtain rfl := List.inj_on_of_nodup_map hnames hmem hother hname
    exact of_decide_eq_true hshares
  · exact fun hshares => ⟨other, List.mem_filter.2 ⟨hother, decide_eq_true hshares⟩, rfl⟩

theorem reports_all (hmade : ∀ record ∈ records, record.IsMade) (hnames : (records.map Record.name).Nodup)
    (huris : (records.map Record.uri).Nodup) : Reports records (all records) where
  warned record hrecord code hcode := by
    rintro ⟨other, hother, hshares⟩
    obtain ⟨held, hheld, hnot⟩ := hshares.2.2
    obtain rfl : held = code := Option.some.inj (hheld.symm.trans hcode)
    have hne : rivals records record ≠ [] := fun hnil => rivals_eq_nil_iff.1 hnil other hother hshares
    refine ⟨_, (get?_all_eq_some_iff hmade huris).2 ⟨record, hrecord, held, ?_, hne, rfl, rfl⟩,
      warns_warning (hmade record hrecord) hcode hne⟩
    exact (codeOf?_eq_some_iff (hmade record hrecord)).2 ⟨hcode, hnot⟩
  unwarned record hrecord hnone := by
    rw [Option.eq_none_iff_forall_ne_some]
    intro found hfound
    obtain ⟨other, hother, -, -, hne, huri, -⟩ := (get?_all_eq_some_iff hmade huris).1 hfound
    obtain rfl := List.inj_on_of_nodup_map huris hrecord hother huri
    exact hne (rivals_eq_nil_iff.2 hnone)
  perm record _ := perm_sortBy lower _
  sorted record _ := pairwise_sortBy lower _
  symm record hrecord other hother := by
    rw [mem_rivals_iff hnames hother, mem_rivals_iff hnames hrecord]
    exact ⟨Record.SharesCode.symm, Record.SharesCode.symm⟩
  of_mem uri huri := by
    obtain ⟨found, hfound⟩ := Option.isSome_iff_exists.1 (Table.mem_keys_iff.1 huri)
    obtain ⟨record, hrecord, -, -, hne, rfl, -⟩ := (get?_all_eq_some_iff hmade huris).1 hfound
    rw [Ne, rivals_eq_nil_iff] at hne
    push Not at hne
    exact ⟨record, hrecord, rfl, hne⟩

end DuplicateCodes

/-! ## What is answered -/

theorem Index.IsMade.map_name {index : Index} (h : index.IsMade) :
    index.allRecords.map Record.name = index.names := by
  unfold allRecords names Table.values Table.keys
  rw [List.map_map]
  exact List.map_congr_left fun entry hentry => (h entry hentry).1.symm

namespace Watched

/-- Whatever was done to an index that began empty, if no scan reads a path twice, a question for the
warnings about shared codes is answered, be it from what is kept or not: every document has one record at
most, and the answer is as it is to be of the records that the index has. -/
theorem reports_run {index : Index} (hempty : index.records = []) {acts : List IndexAct}
    (hacts : ∀ act ∈ acts, act.HasDistinctPaths) :
    ((run { traffic := ⟨index, []⟩ } acts).traffic.index.allRecords.map Record.uri).Nodup ∧
      ∃ found, ((run { traffic := ⟨index, []⟩ } acts).reply .duplicates).1 = .duplicates found ∧
        DuplicateCodes.Reports (run { traffic := ⟨index, []⟩ } acts).traffic.index.allRecords found := by
  have hdistinct := isDistinct_run (w := { traffic := ⟨index, []⟩ }) (.of_empty hempty) hacts
  have hsound := isSound_run (isSound_of_traffic ⟨index, []⟩) acts
  generalize run { traffic := ⟨index, []⟩ } acts = w at hdistinct hsound
  have hmade : ∀ record ∈ w.traffic.index.allRecords, record.IsMade := by
    intro record hrecord
    obtain ⟨entry, hentry, rfl⟩ := List.mem_map.1 hrecord
    exact (hdistinct.isMade entry hentry).2
  have hnames : (w.traffic.index.allRecords.map Record.name).Nodup := by
    rw [hdistinct.isMade.map_name]
    exact hdistinct.index.nodup_names
  exact ⟨hdistinct.index.nodup_uris, _, (hsound.reply .duplicates).1,
    DuplicateCodes.reports_all hmade hnames hdistinct.index.nodup_uris⟩

def coded (name code : Text) : Text :=
  Text.unlines ["ДанныеСценария:".toList, "    Имя: \"".toList ++ name ++ ['"'],
    "    Код: \"".toList ++ code ++ ['"'], []]

def codedRecord (uri name code : Text) : Record :=
  { soleRecord uri name with code := some code, codeSpan := some ⟨2, 4, 11 + code.length⟩ }

/-- A rebuild reads three documents, one of them with the placeholder for its code; then the warnings are
asked for, two documents with the code of the first one are entered, and one with the placeholder. -/
def codesEntered : List IndexAct :=
  [.event (.beginRebuild ["/a".toList, "/b".toList, "/c".toList]),
    .event (.goOn 0 false (.ok (coded "A".toList "X-1".toList))), .event (.goOn 0 false (.ok [])),
    .event (.goOn 0 false (.ok (coded "B".toList "Y-2".toList))), .event (.goOn 0 false (.ok [])),
    .event (.goOn 0 false (.ok (coded "C".toList "Code_Placeholder".toList))), .event (.goOn 0 false (.ok [])),
    .event (.goOn 0 false (.ok [])), .ask .duplicates,
    .event (.change (.upsert "/e".toList (coded "c".toList "X-1".toList))),
    .event (.change (.upsert "/d".toList (coded "B1".toList "X-1".toList))),
    .event (.change (.upsert "/f".toList (coded "F".toList "code_placeholder".toList)))]

def codedRecords : List Record :=
  [codedRecord "/a".toList "A".toList "X-1".toList, codedRecord "/b".toList "B".toList "Y-2".toList,
    codedRecord "/c".toList "C".toList "Code_Placeholder".toList,
    codedRecord "/e".toList "c".toList "X-1".toList, codedRecord "/d".toList "B1".toList "X-1".toList,
    codedRecord "/f".toList "F".toList "code_placeholder".toList]

/-- There is a warning where a code is shared, and none about a code that stands alone or a placeholder. -/
theorem reports_codesEntered :
    ∃ found, ((run { traffic := ⟨bareIndex, []⟩ } codesEntered).reply .duplicates).1 = .duplicates found ∧
      (∃ diagnostic, found.get? "/a".toList = some [diagnostic] ∧ diagnostic.message =
        "Duplicate scenario code \"X-1\" found in other scenarios:\n- B1\n- c\n".toList) ∧
      found.get? "/b".toList = none ∧ found.get? "/c".toList = none ∧
      ∀ uri ∈ found.keys, uri ∈ ["/a".toList, "/e".toList, "/d".toList] := by
  obtain ⟨-, found, hfound, hreports⟩ :=
    @reports_run bareIndex rfl codesEntered (by decide +kernel)
  have hrecords : (run { traffic := ⟨bareIndex, []⟩ } codesEntered).traffic.index.allRecords = codedRecords := by
    decide +kernel
  rw [hrecords] at hreports
  have hrivals : DuplicateCodes.rivals codedRecords (codedRecord "/a".toList "A".toList "X-1".toList) =
      ["B1".toList, "c".toList] := by
    have hnames : (codedRecords.filter fun other =>
        (codedRecord "/a".toList "A".toList "X-1".toList).SharesCode other).map Record.name =
          ["c".toList, "B1".toList] := by
      decide +kernel
    have hle : le (lower ['c']) (lower ['B', '1']) = false := by decide +kernel
    unfold DuplicateCodes.rivals
    rw [hnames]
    simp [sortLower, sortBy, List.mergeSort, hle]
  refine ⟨found, hfound, ?_, ?_, ?_, fun uri huri => ?_⟩
  · obtain ⟨diagnostic, hdiagnostic, hwarns⟩ :=
      hreports.warned (codedRecord "/a".toList "A".toList "X-1".toList) (by decide +kernel) _ rfl
        (by decide +kernel)
    rw [hrivals] at hwarns
    exact ⟨diagnostic, hdiagnostic, hwarns.message_eq⟩
  · exact hreports.unwarned (codedRecord "/b".toList "B".toList "Y-2".toList) (by decide +kernel)
      (by decide +kernel)
  · exact hreports.unwarned (codedRecord "/c".toList "C".toList "Code_Placeholder".toList) (by decide +kernel)
      (by decide +kernel)
  · obtain ⟨record, hrecord, rfl, hshares⟩ := hreports.of_mem uri huri
    have hall : ∀ record ∈ codedRecords, (∃ other ∈ codedRecords, record.SharesCode other) →
        record.uri ∈ ["/a".toList, "/e".toList, "/d".toList] := by
      decide +kernel
    exact hall record hrecord hshares

end Watched

end Scenarist
