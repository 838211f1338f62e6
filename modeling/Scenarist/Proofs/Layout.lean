import Scenarist.Proofs.Repair
import Scenarist.Proofs.Script

set_option autoImplicit false

/-! # The text that is laid out

Putting the layout of a document in order changes indentation everywhere and lines of the script body, so
all that is declared stays declared. If the line ends of the script body are even, remarks stay remarks,
and each of the steps leaves what it and the steps before it have put in order.

Main statements: `RepairConfig.tablesIn_laidOut`, `RepairConfig.sameIdentity_laidOut` and
`RepairConfig.remarksIn_laidOut` (what stays), `RepairConfig.realign_laidOut` (what is in order then). -/

namespace Scenarist

open Text

theorem aligns_alignTables : Aligns alignTables := forall₂_realigned_alignTables

theorem aligns_alignAssignments : Aligns alignAssignments := forall₂_realigned_alignAssignments

theorem alignScriptTables_eq (text : Text) : alignScriptTables text = mapScript alignTables text := rfl

theorem alignScriptAssignments_eq (text : Text) :
    alignScriptAssignments text = mapScript alignAssignments text := rfl

theorem lines_expandLeadingTabs (text : Text) :
    lines (expandLeadingTabs text) = (lines text).map expandTabs := by
  have hne : (lines text).map expandTabs ≠ [] := by simpa using lines_ne_nil text
  refine lines_unlines hne fun l hl => ?_
  obtain ⟨line, hline, rfl⟩ := List.mem_map.1 hl
  exact not_mem_expandTabs (by decide) (not_mem_of_mem_lines hline)

/-- Whether the script body of a document is cut into lines when it is aligned. -/
def HasCutScript (text : Text) : Prop :=
  LineEnd.IsCutIntoLines (unlines (SectionKey.script.bodyIn (lines text)))

theorem HasCutScript.mapScript {change : List Text → List Text} {text : Text} (h : HasCutScript text)
    (hchange : Aligns change) : HasCutScript (mapScript change text) := by
  unfold HasCutScript
  rw [bodyIn_mapScript hchange]
  exact isCutIntoLines_realign hchange h

namespace RepairConfig

/-! ## What is declared -/

/-- Whatever holds of a text holds of the text that is laid out if each step keeps it. -/
theorem laidOut_induction (config : RepairConfig) {motive : Text → Prop} (text : Text) (htext : motive text)
    (htabs : ∀ t, motive t → motive (expandLeadingTabs t))
    (htables : ∀ t, motive t → motive (alignScriptTables t))
    (hassignments : ∀ t, motive t → motive (alignScriptAssignments t)) : motive (config.laidOut text) := by
  have hnormalized : motive (config.normalized text) := by
    unfold normalized
    split
    · exact htabs text htext
    · exact htext
  have hwithTables : motive (config.withTables text) := by
    unfold withTables
    split
    · exact htables _ hnormalized
    · exact hnormalized
  unfold laidOut
  split
  · exact hassignments _ hwithTables
  · exact hwithTables

/-- The bodies of the sections other than the script stay as they are, up to indentation. -/
theorem bodyIn_laidOut (config : RepairConfig) {key : SectionKey} (hne : key ≠ .script) (text : Text) :
    (key.bodyIn (lines (config.laidOut text))).map expandTabs =
      (key.bodyIn (lines text)).map expandTabs := by
  refine config.laidOut_induction
    (motive := fun t => (key.bodyIn (lines t)).map expandTabs = (key.bodyIn (lines text)).map expandTabs)
    text rfl (fun t ht => ?_) (fun t ht => ?_) fun t ht => ?_
  · rw [lines_expandLeadingTabs, SectionKey.bodyIn_map_expandTabs, List.map_map]
    refine Eq.trans (List.map_congr_left fun l _ => expandTabs_expandTabs l) ht
  · rw [← ht]
    unfold SectionKey.bodyIn
    rw [alignScriptTables_eq, blockIn_mapScript aligns_alignTables hne t]
  · rw [← ht]
    unfold SectionKey.bodyIn
    rw [alignScriptAssignments_eq, blockIn_mapScript aligns_alignAssignments hne t]

theorem tablesIn_laidOut (config : RepairConfig) {key : SectionKey} (hne : key ≠ .script) (text : Text) :
    key.tablesIn (lines (config.laidOut text)) = key.tablesIn (lines text) := by
  have htables : ∀ t, key.tablesIn (lines t) =
      ListItem.tablesFrom key.name none (((key.bodyIn (lines t)).map expandTabs).map trimReturns) := by
    intro t
    rw [← SectionKey.bodyIn_map_expandTabs]
    exact (key.tablesIn_map_expandTabs (lines t)).symm
  rw [htables, config.bodyIn_laidOut hne, ← htables]

theorem parameterData_laidOut (config : RepairConfig) (text : Text) :
    Declaration.parameterData (config.laidOut text) = Declaration.parameterData text := by
  rw [Declaration.parameterData_eq, Declaration.parameterData_eq, Declaration.parameterEntries,
    Declaration.parameterEntries, config.tablesIn_laidOut (by decide)]

theorem nestedUids_laidOut (config : RepairConfig) (text : Text) :
    Declaration.nestedUids (config.laidOut text) = Declaration.nestedUids text := by
  rw [Declaration.nestedUids_eq, Declaration.nestedUids_eq, Declaration.nestedEntries,
    Declaration.nestedEntries, config.tablesIn_laidOut (by decide)]

theorem sameIdentity_laidOut (config : RepairConfig) (text : Text) :
    SameIdentity (unmarkedLines (lines (config.laidOut text))) (unmarkedLines (lines text)) := by
  refine config.laidOut_induction
    (motive := fun t => SameIdentity (unmarkedLines (lines t)) (unmarkedLines (lines text)))
    text ⟨rfl, rfl⟩ (fun t ht => ?_) (fun t ht => ?_) fun t ht => ?_
  · rw [lines_expandLeadingTabs]
    exact (SameIdentity.of_map_expandTabs_eq (unmarkedLines_map_expandTabs (lines t))).trans ht
  · exact (sameIdentity_mapScript aligns_alignTables t).trans ht
  · exact (sameIdentity_mapScript aligns_alignAssignments t).trans ht

/-! ## Scripts with even line ends -/

theorem hasCutScript_normalized (config : RepairConfig) {text : Text}
    (h : LineEnd.IsEven (SectionKey.script.bodyIn (lines text))) :
    HasCutScript (config.normalized text) := by
  have hfree : ∀ l ∈ SectionKey.script.bodyIn (lines text), '\n' ∉ l :=
    fun l hl => SectionKey.script.lineFeed_not_mem_of_mem_bodyIn hl
  unfold normalized HasCutScript
  split
  · rw [lines_expandLeadingTabs, SectionKey.bodyIn_map_expandTabs]
    refine h.map_expandTabs.isCutIntoLines fun l hl => ?_
    obtain ⟨line, hline, rfl⟩ := List.mem_map.1 hl
    exact not_mem_expandTabs (by decide) (hfree line hline)
  · exact h.isCutIntoLines hfree

theorem hasCutScript_withTables (config : RepairConfig) {text : Text}
    (h : LineEnd.IsEven (SectionKey.script.bodyIn (lines text))) :
    HasCutScript (config.withTables text) := by
  have hnormalized := config.hasCutScript_normalized h
  unfold withTables
  split
  · exact hnormalized.mapScript aligns_alignTables
  · exact hnormalized

/-- Putting the layout of a script with even line ends in order leaves the remarks of the document. -/
theorem remarksIn_laidOut (config : RepairConfig) {text : Text}
    (h : LineEnd.IsEven (SectionKey.script.bodyIn (lines text))) :
    remarksIn (lines (config.laidOut text)) = remarksIn (lines text) ∧
      remarksIn (unmarkedLines (lines (config.laidOut text))) =
        remarksIn (unmarkedLines (lines text)) := by
  -- one after the other: the indentation, the tables, the assignments
  have hnormalized : remarksIn (lines (config.normalized text)) = remarksIn (lines text) ∧
      remarksIn (unmarkedLines (lines (config.normalized text))) =
        remarksIn (unmarkedLines (lines text)) := by
    unfold normalized
    split
    · rw [lines_expandLeadingTabs]
      refine ⟨remarksIn_map_expandTabs _, ?_⟩
      rw [← remarksIn_map_expandTabs, unmarkedLines_map_expandTabs, remarksIn_map_expandTabs]
    · exact ⟨rfl, rfl⟩
  have hwithTables : remarksIn (lines (config.withTables text)) = remarksIn (lines text) ∧
      remarksIn (unmarkedLines (lines (config.withTables text))) =
        remarksIn (unmarkedLines (lines text)) := by
    have htables := remarksIn_mapScript aligns_alignTables (config.hasCutScript_normalized h)
    unfold withTables
    split
    · exact ⟨htables.1.trans hnormalized.1, htables.2.trans hnormalized.2⟩
    · exact hnormalized
  have hassignments := remarksIn_mapScript aligns_alignAssignments (config.hasCutScript_withTables h)
  unfold laidOut
  split
  · exact ⟨hassignments.1.trans hwithTables.1, hassignments.2.trans hwithTables.2⟩
  · exact hwithTables

theorem remarksIn_bodyIn_laidOut (config : RepairConfig) (key : SectionKey) (hne : key ≠ .script)
    (text : Text) :
    remarksIn (key.bodyIn (lines (config.laidOut text))) = remarksIn (key.bodyIn (lines text)) := by
  rw [← remarksIn_map_expandTabs, config.bodyIn_laidOut hne, remarksIn_map_expandTabs]

/-! ## What is in order -/

/-- The pieces of the script that is laid out stay as they are when they are aligned again. -/
theorem realign_laidOut (config : RepairConfig) {text : Text}
    (h : LineEnd.IsEven (SectionKey.script.bodyIn (lines text))) :
    (config.alignTables = true →
      realign Scenarist.alignTables (unlines (SectionKey.script.bodyIn (lines (config.laidOut text)))) =
        unlines (SectionKey.script.bodyIn (lines (config.laidOut text)))) ∧
      (config.alignAssignments = true →
        realign Scenarist.alignAssignments (unlines (SectionKey.script.bodyIn (lines (config.laidOut text)))) =
          unlines (SectionKey.script.bodyIn (lines (config.laidOut text)))) := by
  have hnormalized := config.hasCutScript_normalized h
  have hwithTables := config.hasCutScript_withTables h
  constructor
  · intro htables
    have hbody : unlines (SectionKey.script.bodyIn (lines (config.withTables text))) =
        realign Scenarist.alignTables (unlines (SectionKey.script.bodyIn (lines (config.normalized text)))) := by
      unfold withTables
      rw [if_pos htables]
      exact bodyIn_mapScript aligns_alignTables _
    unfold laidOut
    split
    · rw [alignScriptAssignments_eq, bodyIn_mapScript aligns_alignAssignments]
      -- the assignments come after the tables, and no row is touched by them
      refine realign_realign aligns_alignAssignments hwithTables (alignTables_alignAssignments ?_)
      rw [hbody, split_realign aligns_alignTables hnormalized, alignTables_alignTables]
    · rw [hbody]
      exact realign_realign aligns_alignTables hnormalized (alignTables_alignTables _)
  · intro hassignments
    unfold laidOut
    rw [if_pos hassignments, alignScriptAssignments_eq, bodyIn_mapScript aligns_alignAssignments]
    exact realign_realign aligns_alignAssignments hwithTables (alignAssignments_alignAssignments _)

theorem expandTabs_laidOut (config : RepairConfig) {text : Text}
    (h : LineEnd.IsEven (SectionKey.script.bodyIn (lines text))) (htabs : config.normalizeTabs = true) :
    ∀ l ∈ lines (config.laidOut text), expandTabs l = l := by
  have hnormalized : ∀ l ∈ lines (config.normalized text), expandTabs l = l := by
    unfold normalized
    rw [if_pos htabs, lines_expandLeadingTabs]
    intro l hl
    obtain ⟨line, -, rfl⟩ := List.mem_map.1 hl
    exact expandTabs_expandTabs line
  have hwithTables : ∀ l ∈ lines (config.withTables text), expandTabs l = l := by
    unfold withTables
    split
    · exact expandTabs_mapScript aligns_alignTables (config.hasCutScript_normalized h) hnormalized
    · exact hnormalized
  unfold laidOut
  split
  · exact expandTabs_mapScript aligns_alignAssignments (config.hasCutScript_withTables h) hwithTables
  · exact hwithTables

/-- A text that keeps to one line end is laid out with it. -/
theorem exists_isUsedIn_laidOut (config : RepairConfig) {text : Text} (h : LineEnd.IsThroughout text) :
    ∃ lineEnd : LineEnd, lineEnd.IsUsedIn (lines (config.laidOut text)) := by
  rcases h with h | h
  · refine ⟨.lf, LineEnd.isUsedIn_lf_of_not_mem ?_⟩
    refine config.laidOut_induction (motive := fun t => ∀ l ∈ lines t, '\r' ∉ l) text
      (fun l hl hmem => h (mem_of_mem_splitOn hl hmem)) (fun t ht => ?_)
      (fun t ht => return_not_mem_mapScript aligns_alignTables ht)
      fun t ht => return_not_mem_mapScript aligns_alignAssignments ht
    rw [lines_expandLeadingTabs]
    intro l hl
    obtain ⟨line, hline, rfl⟩ := List.mem_map.1 hl
    exact not_mem_expandTabs (by decide) (ht line hline)
  · refine ⟨.crlf, ?_⟩
    -- the first line alone shows pairs, and aligning leaves it
    have hmapped : ∀ change : List Text → List Text, Aligns change → ∀ t,
        LineEnd.crlf.IsUsedIn (lines t) → LineEnd.crlf.IsUsedIn (lines (mapScript change t)) := by
      intro change hchange t ht hlong
      obtain ⟨hhead, hlength⟩ := head?_lines_mapScript hchange t
      rw [hhead]
      exact ht (hlength hlong)
    refine config.laidOut_induction (motive := fun t => LineEnd.crlf.IsUsedIn (lines t)) text
      (LineEnd.isUsedIn_crlf_of_dropLast h) (fun t ht => ?_) (hmapped _ aligns_alignTables)
      (hmapped _ aligns_alignAssignments)
    rw [lines_expandLeadingTabs]
    intro hlength l hl
    rw [List.head?_map] at hl
    obtain ⟨line, hline, rfl⟩ := Option.map_eq_some_iff.1 hl
    exact (LineEnd.getLast?_expandTabs line).2 (ht (by simpa using hlength) line hline)

/-- A text is laid out already if its indentation and its script are in order. -/
theorem laidOut_eq_self (config : RepairConfig) {text : Text}
    (htabs : config.normalizeTabs = true → ∀ l ∈ lines text, expandTabs l = l)
    (htables : config.alignTables = true →
      realign Scenarist.alignTables (unlines (SectionKey.script.bodyIn (lines text))) =
        unlines (SectionKey.script.bodyIn (lines text)))
    (hassignments : config.alignAssignments = true →
      realign Scenarist.alignAssignments (unlines (SectionKey.script.bodyIn (lines text))) =
        unlines (SectionKey.script.bodyIn (lines text))) :
    config.laidOut text = text ∧ config.layoutNames text = [] := by
  have hnormalized : config.normalized text = text := by
    unfold normalized
    split
    · next h =>
      unfold expandLeadingTabs
      rw [(List.map_congr_left fun l hl => htabs h l hl).trans (List.map_id' _), unlines_lines]
    · rfl
  have hwithTables : config.withTables text = text := by
    unfold withTables
    rw [hnormalized]
    split
    · next h => exact mapScript_eq_self (htables h)
    · rfl
  have hlaidOut : config.laidOut text = text := by
    unfold laidOut
    rw [hwithTables]
    split
    · next h => exact mapScript_eq_self (hassignments h)
    · rfl
  refine ⟨hlaidOut, ?_⟩
  unfold layoutNames
  rw [hlaidOut, hwithTables, hnormalized]
  simp [RepairStep.nameIfChanged]

end RepairConfig

end Scenarist
