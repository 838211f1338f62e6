import Scenarist.Proofs.Calls
import Scenarist.Proofs.Index.Made
import Scenarist.Proofs.Validation

set_option autoImplicit false

/-! # Findings and the order of entry

The names of an index stand in the order in which they were entered, and the scenarios that are proposed
instead of a name are sorted by their scores, those with equal scores in that order. So two indexes with
the same records may propose different scenarios first. But these are then equally like the name, and that
is all that a validation asks of the first proposal when it tells a call from a step: the findings differ
in nothing but what they propose.

The score by which proposals are sorted takes a name as it stands, and the score that tells calls from
steps without the blanks around it. They are the same since no name of an index has blanks around it.

Main statements: `score_closest_congr` (the first proposals of two lists with the same members),
`Index.IsMade.isTrimmed` (the names of an index), `Checker.judge_rephrases` (one line) and
`Traffic.endsAlike_of_lookup?_eq` (a document, after two histories). -/

namespace Scenarist

open Text

/-! ## The first proposal -/

section

variable {count : Int} {scored : List (Rat × Text)} {best : Text}

theorem bestOf_eq_nil_iff : bestOf count scored = [] ↔ scored = [] := by
  have hcount : (max 1 count).toNat ≠ 0 := by omega
  have hlength : (scored.mergeSort fun a b => decide (b.1 ≤ a.1)).length = scored.length :=
    List.length_mergeSort scored
  unfold bestOf
  rw [List.take_eq_nil_iff, List.map_eq_nil_iff, or_iff_right hcount, ← List.length_eq_zero_iff, hlength,
    List.length_eq_zero_iff]

/-- The first of the best has the highest score. -/
theorem exists_score_of_head?_bestOf (h : (bestOf count scored).head? = some best) :
    ∃ score, (score, best) ∈ scored ∧ ∀ entry ∈ scored, entry.1 ≤ score := by
  have hcount : (max 1 count).toNat ≠ 0 := by omega
  have hsorted : (scored.mergeSort fun a b => decide (b.1 ≤ a.1)).Pairwise
      fun a b => decide (b.1 ≤ a.1) = true :=
    List.pairwise_mergeSort
      (fun a b c hab hbc => by simp only [decide_eq_true_eq] at hab hbc ⊢; exact Rat.le_trans hbc hab)
      (fun a b => by simp only [Bool.or_eq_true, decide_eq_true_eq]; exact Rat.le_total) scored
  have hmem : ∀ entry, entry ∈ scored.mergeSort (fun a b => decide (b.1 ≤ a.1)) ↔ entry ∈ scored :=
    fun _ => List.mem_mergeSort
  unfold bestOf at h
  rw [List.head?_take, if_neg hcount, List.head?_map] at h
  obtain ⟨⟨score, first⟩, hfirst, rfl⟩ := Option.map_eq_some_iff.1 h
  obtain ⟨others, hothers⟩ := List.head?_eq_some_iff.1 hfirst
  rw [hothers] at hsorted hmem
  refine ⟨score, (hmem _).1 List.mem_cons_self, fun entry hentry => ?_⟩
  rcases List.mem_cons.1 ((hmem entry).2 hentry) with rfl | hlater
  · exact Rat.le_refl
  · simpa using (List.pairwise_cons.1 hsorted).1 entry hlater

end

/-- The score of a candidate among those that may be proposed instead of a text. -/
def scoreOf (text candidate : Text) : Rat := similarity (lower (strip text)) (lower candidate)

theorem looseSimilarity_eq_scoreOf (text : Text) {candidate : Text} (h : strip candidate = candidate) :
    looseSimilarity text candidate = scoreOf text candidate := by
  unfold looseSimilarity scoreOf
  rw [h]

section

variable {text best : Text} {candidates candidates' : List Text} {count : Int} {threshold : Float}

theorem closest_eq (hblank : (lower (strip text)).isEmpty = false) :
    closest text candidates count threshold =
      bestOf count ((candidates.map fun candidate => (scoreOf text candidate, candidate)).filter
        fun scored => meets threshold scored.1) := by
  unfold closest
  simp only [hblank, Bool.false_eq_true, if_false]
  rfl

/-- The first proposal is a candidate that reaches the threshold, and none that does has a higher score. -/
theorem head?_closest (h : (closest text candidates count threshold).head? = some best) :
    best ∈ candidates ∧ meets threshold (scoreOf text best) = true ∧
      ∀ other ∈ candidates, meets threshold (scoreOf text other) = true →
        scoreOf text other ≤ scoreOf text best := by
  cases hblank : (lower (strip text)).isEmpty with
  | true =>
      unfold closest at h
      simp [hblank] at h
  | false =>
      rw [closest_eq hblank] at h
      obtain ⟨score, hmem, hbest⟩ := exists_score_of_head?_bestOf h
      obtain ⟨hscored, hmeets⟩ := List.mem_filter.1 hmem
      obtain ⟨candidate, hcandidate, heq⟩ := List.mem_map.1 hscored
      obtain ⟨rfl, rfl⟩ := Prod.mk.inj heq
      refine ⟨hcandidate, hmeets, fun other hother hreaches => ?_⟩
      exact hbest (scoreOf text other, other) (List.mem_filter.2 ⟨List.mem_map_of_mem hother, hreaches⟩)

/-- Where one of the candidates is proposed, something is proposed of any list that has them all, and its
score is at least as high. -/
theorem exists_head?_closest (hall : ∀ candidate ∈ candidates, candidate ∈ candidates')
    (h : (closest text candidates count threshold).head? = some best) :
    ∃ best', (closest text candidates' count threshold).head? = some best' ∧
      scoreOf text best ≤ scoreOf text best' := by
  obtain ⟨hmem, hmeets, -⟩ := head?_closest h
  have hblank : (lower (strip text)).isEmpty = false := by
    cases hblank : (lower (strip text)).isEmpty with
    | false => rfl
    | true =>
        unfold closest at h
        simp [hblank] at h
  cases hhead : (closest text candidates' count threshold).head? with
  | some best' => exact ⟨best', rfl, (head?_closest hhead).2.2 best (hall best hmem) hmeets⟩
  | none =>
      rw [List.head?_eq_none_iff, closest_eq hblank, bestOf_eq_nil_iff, List.filter_eq_nil_iff] at hhead
      exact absurd hmeets (hhead (scoreOf text best, best) (List.mem_map_of_mem (hall best hmem)))

/-- The first proposals of lists with the same members have the same score. -/
theorem score_closest_congr (hsame : ∀ candidate, candidate ∈ candidates ↔ candidate ∈ candidates') :
    (closest text candidates count threshold).head?.map (scoreOf text) =
      (closest text candidates' count threshold).head?.map (scoreOf text) := by
  cases hhead : (closest text candidates count threshold).head? with
  | some best =>
      obtain ⟨best', hhead', hle⟩ := exists_head?_closest (fun candidate => (hsame candidate).1) hhead
      -- each of the two first proposals is a candidate of the other list
      obtain ⟨again, hagain, hge⟩ := exists_head?_closest (fun candidate => (hsame candidate).2) hhead'
      obtain rfl : best = again := Option.some.inj (hhead.symm.trans hagain)
      rw [hhead', Option.map_some, Option.map_some, Rat.le_antisymm hle hge]
  | none =>
      cases hhead' : (closest text candidates' count threshold).head? with
      | none => rfl
      | some best' =>
          obtain ⟨best, hbest, -⟩ := exists_head?_closest (fun candidate => (hsame candidate).2) hhead'
          exact absurd (hbest.symm.trans hhead) (by simp)

/-- Among candidates without blanks around them, the score of the first proposal tells whether the text is
like it. -/
theorem any_head?_closest (htrimmed : ∀ candidate ∈ candidates, strip candidate = candidate)
    {strong : Float} :
    ((closest text candidates count threshold).head?.any fun best =>
        meets strong (looseSimilarity text best)) =
      ((closest text candidates count threshold).head?.map (scoreOf text)).any (meets strong) := by
  cases hhead : (closest text candidates count threshold).head? with
  | none => rfl
  | some best =>
      rw [Option.any_some, Option.map_some, Option.any_some,
        looseSimilarity_eq_scoreOf text (htrimmed best (head?_closest hhead).1)]

end

/-! ## The names of an index -/

/-- Whether the names of an index have no blanks around them. -/
def Index.IsTrimmed (index : Index) : Prop := ∀ name ∈ index.names, strip name = name

theorem Record.strip_name {source : Source} {document : Text} {record : Record}
    (h : ofText? source document = some record) : strip record.name = record.name := by
  obtain ⟨name, hname, rfl⟩ := Option.map_eq_some_iff.1 h
  obtain ⟨found, hfound, rfl⟩ := Option.map_eq_some_iff.1 hname
  exact (Declaration.strip_of_metadataField? hfound).1

/-- What the document of a record declares has no blanks around it. -/
theorem Index.IsMade.isTrimmed {index : Index} (h : index.IsMade) : index.IsTrimmed := by
  intro name hname
  obtain ⟨entry, hentry, rfl⟩ := List.mem_map.1 hname
  obtain ⟨hkey, source, document, hmade⟩ := h entry hentry
  rw [hkey]
  exact Record.strip_name hmade

/-! ## Findings that differ in what they propose -/

/-- Whether two findings are the same but for the suggestions at the end of the message. -/
structure Diagnostic.Rephrases (diagnostic other : Diagnostic) : Prop where
  mark_eq : diagnostic.mark = other.mark
  message : ∃ reason suggestions others : _,
    diagnostic.message = reason ++ suggestionSuffix suggestions ∧
      other.message = reason ++ suggestionSuffix others

theorem Diagnostic.Rephrases.refl (diagnostic : Diagnostic) : diagnostic.Rephrases diagnostic :=
  ⟨rfl, diagnostic.message, [], [], by simp [suggestionSuffix], by simp [suggestionSuffix]⟩

/-- Whether two lists of findings are the same but for the suggestions. -/
def Rephrase (findings others : List Diagnostic) : Prop := List.Forall₂ Diagnostic.Rephrases findings others

theorem Rephrase.refl (findings : List Diagnostic) : Rephrase findings findings :=
  List.forall₂_same.2 fun diagnostic _ => .refl diagnostic

theorem Rephrase.append {a a' b b' : List Diagnostic} (ha : Rephrase a a') (hb : Rephrase b b') :
    Rephrase (a ++ b) (a' ++ b') := List.rel_append ha hb

theorem Rephrase.marks_eq {findings others : List Diagnostic} (h : Rephrase findings others) :
    marks findings = marks others := by
  induction h with
  | nil => rfl
  | cons hfirst _ ih =>
      unfold marks at ih ⊢
      rw [List.map_cons, List.map_cons, hfirst.mark_eq, ih]

namespace Checker

variable {checker checker' : Checker} {document : Document} {options : ValidationOptions}
  {block : CallBlock}

theorem rephrases_finding (document : Document) (line : Nat) (severity : Severity) (code : DiagnosticCode)
    (reason : Text) (suggestions others : List Text) :
    (finding document line severity code (reason ++ suggestionSuffix suggestions)).Rephrases
      (finding document line severity code (reason ++ suggestionSuffix others)) :=
  ⟨rfl, reason, suggestions, others, rfl, rfl⟩

/-- Whether two verdicts differ in the suggestions alone. -/
def Verdict.Rephrases (verdict other : Verdict) : Prop :=
  verdict.isCall = other.isCall ∧ Rephrase verdict.findings other.findings

theorem Verdict.Rephrases.refl (verdict : Verdict) : verdict.Rephrases verdict :=
  ⟨rfl, .refl _⟩

theorem Verdict.Rephrases.call {findings others : List Diagnostic} (h : Rephrase findings others) :
    (Verdict.call findings).Rephrases (.call others) := ⟨rfl, h⟩

theorem Verdict.Rephrases.agrees {verdict other : Verdict} (h : verdict.Rephrases other) :
    verdict.Agrees other := ⟨h.1, h.2.marks_eq⟩

/-- What two checkers have in common whose records were entered in different orders. -/
structure SharesRecords (checker checker' : Checker) : Prop where
  catalog_eq : checker.catalog = checker'.catalog
  config_eq : checker.config = checker'.config
  get?_eq : ∀ name, checker.records.get? name = checker'.records.get? name
  trimmed : ∀ name ∈ checker.records.keys, strip name = name

namespace SharesRecords

theorem mem_keys_iff (h : checker.SharesRecords checker') (name : Text) :
    name ∈ checker.records.keys ↔ name ∈ checker'.records.keys := by
  rw [Table.mem_keys_iff, Table.mem_keys_iff, h.get?_eq]

theorem isEmpty_eq (h : checker.SharesRecords checker') :
    checker.records.isEmpty = checker'.records.isEmpty := by
  have hkeys : checker.records.keys = [] ↔ checker'.records.keys = [] := by
    rw [List.eq_nil_iff_forall_not_mem, List.eq_nil_iff_forall_not_mem]
    exact forall_congr' fun name => not_congr (h.mem_keys_iff name)
  unfold Table.keys at hkeys
  rw [List.map_eq_nil_iff, List.map_eq_nil_iff] at hkeys
  rw [Bool.eq_iff_iff, List.isEmpty_iff, List.isEmpty_iff, hkeys]

/-- The first proposals may differ, but not whether a name is like the first one. -/
theorem isLikeScenario_eq (h : checker.SharesRecords checker') (name : Text) :
    checker.isLikeScenario name = checker'.isLikeScenario name := by
  unfold isLikeScenario proposals
  rw [any_head?_closest h.trimmed,
    any_head?_closest fun other hother => h.trimmed other ((h.mem_keys_iff other).2 hother), h.config_eq,
    score_closest_congr h.mem_keys_iff]

theorem stepVerdict?_eq (h : checker.SharesRecords checker') :
    checker.stepVerdict? options document block = checker'.stepVerdict? options document block := by
  unfold stepVerdict? checksSteps
  rw [h.catalog_eq, h.config_eq]

theorem unknownCall_rephrases (h : checker.SharesRecords checker') :
    (checker.unknownCall options document block).Rephrases
      (checker'.unknownCall options document block) := by
  unfold unknownCall
  rw [h.isEmpty_eq]
  split
  · exact .refl _
  · exact .call (.cons (rephrases_finding ..) .nil)

end SharesRecords

/-- Checkers with the same records judge a line in the same way, but for what they propose. -/
theorem judge_rephrases (h : checker.SharesRecords checker') :
    (checker.judge options document block).Rephrases (checker'.judge options document block) := by
  have hcalls : (checker.unknownCall options document block).Rephrases
      (checker'.unknownCall options document block) := h.unknownCall_rephrases
  cases hname : checker.records.get? block.name with
  | some record =>
      have hname' := (h.get?_eq block.name).symm.trans hname
      rw [judge_of_known hname, judge_of_known hname']
      exact .refl _
  | none =>
      have hname' := (h.get?_eq block.name).symm.trans hname
      -- the proposals stand in the finding about an unknown call alone
      by_cases hparameters : block.parameters = []
      · rw [judge_of_no_parameters hname hparameters, judge_of_no_parameters hname' hparameters,
          h.isLikeScenario_eq, h.stepVerdict?_eq]
        split
        · exact hcalls
        · cases checker'.stepVerdict? options document block with
          | some verdict => exact .refl verdict
          | none =>
              simp only [Option.getD_none]
              split
              · exact .refl _
              · exact hcalls
      · rw [judge_of_parameters hname hparameters, judge_of_parameters hname' hparameters]
        exact hcalls

/-- Checkers with the same records settle the same lines, take the same ones as calls and find the same, but
for what they propose. -/
theorem calls_rephrase (h : checker.SharesRecords checker') (options : ValidationOptions)
    (document : Document) :
    checker.settledIn options document = checker'.settledIn options document ∧
      checker.callsIn options document = checker'.callsIn options document ∧
      Rephrase (checker.callFindings options document) (checker'.callFindings options document) := by
  have hjudge : ∀ block, (checker.judge options document block).Rephrases
      (checker'.judge options document block) := fun block => judge_rephrases h
  refine ⟨?_, ?_, ?_⟩
  · unfold settledIn
    exact List.flatMap_congr fun block _ => (hjudge block).agrees.settled_eq
  · unfold callsIn
    rw [List.filter_congr fun block _ => (hjudge block).1]
  · unfold callFindings
    exact List.rel_flatMap (List.forall₂_same.2 fun block _ => rfl) fun block other heq =>
      heq ▸ (hjudge block).2

theorem stepFindings_eq (h : checker.SharesRecords checker') (options : ValidationOptions)
    (document : Document) :
    checker.stepFindings options document = checker'.stepFindings options document := by
  unfold stepFindings checksSteps checkSteps
  rw [(calls_rephrase h options document).1, h.catalog_eq, h.config_eq]

theorem checkCompleteness_eq (h : checker.SharesRecords checker') (document : Document)
    (headerLine : Nat) (calls : List Text) :
    checker.checkCompleteness document headerLine calls =
      checker'.checkCompleteness document headerLine calls := by
  unfold checkCompleteness
  rw [h.isEmpty_eq, h.config_eq]

theorem scalarsOf_eq (h : checker.SharesRecords checker') (text : Text) :
    checker.scalarsOf text = checker'.scalarsOf text := by
  unfold scalarsOf
  rw [h.isEmpty_eq]

/-- Checkers with the same records find the same about a document, but for what they propose. -/
theorem rephrase_validate (h : checker.SharesRecords checker') (document : Document)
    (options : ValidationOptions) :
    Rephrase (checker.validate document options) (checker'.validate document options) := by
  cases hscript : SectionKey.script.find? document.text with
  | none =>
      unfold validate
      simp only [hscript]
      exact .refl _
  | some script =>
      obtain ⟨-, hcalls, hfindings⟩ := calls_rephrase h options document
      rw [validate_eq hscript, validate_eq hscript, hcalls, stepFindings_eq h, checkCompleteness_eq h]
      exact ((((Rephrase.refl _).append hfindings).append (.refl _)).append (.refl _)).append (.refl _)

/-- Whether two validations end alike: both are refused for the same scalar, or they make the same findings
but for the suggestions. -/
def EndsAlike : Except ScalarFault (List Diagnostic) → Except ScalarFault (List Diagnostic) → Prop
  | .ok findings, .ok others => Rephrase findings others
  | .error fault, .error other => fault = other
  | _, _ => False

theorem EndsAlike.map_marks_eq {result other : Except ScalarFault (List Diagnostic)}
    (h : EndsAlike result other) : result.map marks = other.map marks := by
  cases result with
  | ok findings => cases other with
    | ok others => exact congrArg Except.ok (Rephrase.marks_eq h)
    | error fault => exact h.elim
  | error fault => cases other with
    | ok others => exact h.elim
    | error other => exact congrArg Except.error h

theorem endsAlike_tryValidate (h : checker.SharesRecords checker') (document : Document)
    (options : ValidationOptions) :
    EndsAlike (checker.tryValidate document options) (checker'.tryValidate document options) := by
  have hfindings := rephrase_validate h document options
  unfold tryValidate guardScalars
  rw [scalarsOf_eq h]
  split
  · rfl
  · exact hfindings

end Checker

/-! ## Two histories -/

namespace Traffic

/-- Whatever order of scans and changes has led to an index, a validation against it finds the same, but for
what it proposes, as one against any other index that has the same records under the same names. -/
theorem endsAlike_of_lookup?_eq {index : Index} (hempty : index.records = []) (events : List IndexEvent)
    {other : Index} (hsame : ∀ name, (run ⟨index, []⟩ events).index.lookup? name = other.lookup? name)
    (catalog : StepCatalog) (config : Config) (document : Document) (options : ValidationOptions) :
    let checker : Checker := ⟨(run ⟨index, []⟩ events).index.records, catalog, config⟩
    let checker' : Checker := ⟨other.records, catalog, config⟩
    (checker.tryValidate document options).map marks = (checker'.tryValidate document options).map marks ∧
      Checker.EndsAlike (checker.tryValidate document options) (checker'.tryValidate document options) := by
  intro checker checker'
  have htrimmed : (run ⟨index, []⟩ events).index.IsTrimmed :=
    (isMade_run (fun stage hmem => absurd hmem List.not_mem_nil) (Index.isMade_of_empty hempty) events).isTrimmed
  have hshares : checker.SharesRecords checker' := ⟨rfl, rfl, hsame, htrimmed⟩
  have halike := Checker.endsAlike_tryValidate hshares document options
  exact ⟨halike.map_marks_eq, halike⟩

def enteredAndScanned : List IndexEvent :=
  [.change (.upsert "/b".toList (declaring "Log in B".toList)),
    .change (.upsert "/a".toList (declaring "Log in A".toList)),
    .beginRebuild ["/a".toList, "/b".toList], .goOn 0 false (.ok (declaring "Log in A".toList)),
    .goOn 0 false (.ok []), .goOn 0 false (.ok (declaring "Log in B".toList)), .goOn 0 false (.ok []),
    .goOn 0 false (.ok [])]

def enteredBackwards : List IndexEvent :=
  [.change (.upsert "/b".toList (declaring "Log in B".toList)),
    .change (.upsert "/a".toList (declaring "Log in A".toList))]

/-- A call of a scenario whose name is as much like the one as like the other. -/
def callOfC : Document :=
  { uri := "/c".toList, text := "ТекстСценария: |
    И Log in C
".toList }

def checkerOf (records : Table Record) : Checker where
  records
  catalog := { steps := [], threshold := StepCatalog.defaultThreshold }
  config := {}

/-- The two histories leave the names in different orders, and the findings about a call that could be of
either are the same. -/
theorem endsAlike_enteredBackwards :
    (run ⟨bareIndex, []⟩ enteredAndScanned).index.names ≠
        (run ⟨bareIndex, []⟩ enteredBackwards).index.names ∧
      (∀ name, (run ⟨bareIndex, []⟩ enteredAndScanned).index.lookup? name =
        (run ⟨bareIndex, []⟩ enteredBackwards).index.lookup? name) ∧
      let checker := checkerOf (run ⟨bareIndex, []⟩ enteredAndScanned).index.records
      let checker' := checkerOf (run ⟨bareIndex, []⟩ enteredBackwards).index.records
      (checker.tryValidate callOfC .full).map marks = (checker'.tryValidate callOfC .full).map marks ∧
        Checker.EndsAlike (checker.tryValidate callOfC .full) (checker'.tryValidate callOfC .full) := by
  -- one evaluation of both histories
  obtain ⟨hperm, hnodup, hnames⟩ :
      (run ⟨bareIndex, []⟩ enteredAndScanned).index.records.Perm
          (run ⟨bareIndex, []⟩ enteredBackwards).index.records ∧
        (run ⟨bareIndex, []⟩ enteredAndScanned).index.names.Nodup ∧
        (run ⟨bareIndex, []⟩ enteredAndScanned).index.names ≠
          (run ⟨bareIndex, []⟩ enteredBackwards).index.names := by decide +kernel
  have hsame : ∀ name, (run ⟨bareIndex, []⟩ enteredAndScanned).index.lookup? name =
      (run ⟨bareIndex, []⟩ enteredBackwards).index.lookup? name := Table.get?_eq_of_perm hperm hnodup
  exact ⟨hnames, hsame,
    endsAlike_of_lookup?_eq rfl enteredAndScanned hsame (checkerOf []).catalog {} callOfC .full⟩

end Traffic

end Scenarist
