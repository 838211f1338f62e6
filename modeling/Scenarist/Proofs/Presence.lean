import Scenarist.Proofs.Layout

set_option autoImplicit false

/-! # Sections stay

A document has a section if one of its lines is the header. New content for one section leaves every
header where it is, whatever the content and whatever line ends it mixes: the lines that it takes the
place of are no top-level keys, the header in front keeps its key, and the lines around stay. So no
default step removes a section, and a pass of default steps is never rolled back.

Main statements: `SectionKey.isIn_withContent` (new content), `RepairStep.keepsSections_ofConfig` (one
step) and `Executor.keepsSections_of_runSteps` (steps one after the other). -/

namespace Scenarist

open Text

/-! ## Headers among lines -/

namespace SectionKey

variable {key other : SectionKey} {text : Text}

theorem blockIn_isSome_iff {all : List Text} :
    (key.blockIn all).isSome = true ↔ ∃ rest, key.name ++ ':' :: rest ∈ all := by
  induction all with
  | nil => simp [blockIn]
  | cons line all ih =>
      rw [blockIn]
      cases hline : key.afterHeader? line with
      | some rest =>
          rw [afterHeader?_eq_some_iff.1 hline]
          exact iff_of_true rfl ⟨rest, List.mem_cons_self⟩
      | none =>
          have hne : ∀ rest, key.name ++ ':' :: rest ≠ line := by
            rintro rest rfl
            rw [afterHeader?_self] at hline
            simp at hline
          simp [ih, hne]

/-- A document has a section if one of its lines is the header. -/
theorem isIn_iff : isIn text key = true ↔ ∃ rest, key.name ++ ':' :: rest ∈ lines text := by
  rw [← blockIn_isSome_iff, ← find?_map_block, Option.isSome_map, isIn]

theorem mem_presentIn : key ∈ presentIn text ↔ isIn text key = true := by
  cases key <;> simp [presentIn, all]

/-! ## New content -/

/-- A section stays if one of its lines stays a header of its key. -/
theorem isIn_withContent {s : Section} (hs : other.Found text s) (content : Text)
    (h : isIn text key = true) : isIn (s.withContent content) key = true := by
  obtain ⟨others, hcontent⟩ := exists_lines_eq_cons content
  obtain ⟨rest, hheader⟩ := isIn_iff.1 h
  refine isIn_iff.2 ?_
  rw [lines_withContent hs hcontent]
  rw [hs.lines_eq] at hheader
  rcases List.mem_append.1 hheader with habove | hheader
  · exact ⟨rest, List.mem_append_left _ habove⟩
  rcases List.mem_cons.1 hheader with hself | hheader
  · -- The header of the section itself: no other key has it.
    by_cases hkey : key = other
    · rw [hkey]
      exact ⟨_, List.mem_append_right _ List.mem_cons_self⟩
    · have := afterHeader?_of_ne hkey s.rest
      rw [← hself, afterHeader?_self] at this
      simp at this
  rcases List.mem_append.1 hheader with hbody | hbelow
  · -- The lines that are replaced are no top-level keys, so no header is lost with them.
    have := hs.body _ hbody
    rw [isTopLevelKey_header] at this
    simp at this
  · exact ⟨rest, by simp [hbelow]⟩

end SectionKey

/-! ## Changes that keep sections -/

/-- Every known section that one text has is in the other. -/
def KeepsSections (before after : Text) : Prop :=
  ∀ key ∈ SectionKey.presentIn before, key ∈ SectionKey.presentIn after

namespace KeepsSections

variable {before middle after : Text}

protected theorem refl (text : Text) : KeepsSections text text := fun _ hkey => hkey

protected theorem trans (h : KeepsSections before middle) (h' : KeepsSections middle after) :
    KeepsSections before after :=
  fun key hkey => h' key (h key hkey)

theorem of_isIn (h : ∀ key, SectionKey.isIn before key = true → SectionKey.isIn after key = true) :
    KeepsSections before after :=
  fun key hkey => SectionKey.mem_presentIn.2 (h key (SectionKey.mem_presentIn.1 hkey))

/-- Nothing is missing exactly if every section stays. -/
theorem missingSections_eq_nil_iff : missingSections before after = [] ↔ KeepsSections before after := by
  unfold missingSections
  rw [← List.length_eq_zero_iff, show ∀ keys : List SectionKey, (sortBy SectionKey.name keys).length =
    keys.length by simp [sortBy], List.length_eq_zero_iff, List.filter_eq_nil_iff]
  exact ⟨fun h key hkey => SectionKey.mem_presentIn.2 (by simpa using h key hkey),
    fun h key hkey => by simpa using SectionKey.mem_presentIn.1 (h key hkey)⟩

theorem expandLeadingTabs (text : Text) : KeepsSections text (Text.expandLeadingTabs text) := by
  refine of_isIn fun key hin => SectionKey.isIn_iff.2 ?_
  obtain ⟨rest, hheader⟩ := SectionKey.isIn_iff.1 hin
  have hexpanded := key.afterHeader?_expandTabs (key.name ++ ':' :: rest)
  rw [SectionKey.afterHeader?_self, SectionKey.afterHeader?_eq_some_iff] at hexpanded
  refine ⟨rest, ?_⟩
  rw [lines_expandLeadingTabs, ← hexpanded]
  exact List.mem_map_of_mem hheader

/-- Any change of the script body keeps the sections. -/
theorem mapScript (change : List Text → List Text) (text : Text) :
    KeepsSections text (Scenarist.mapScript change text) := by
  unfold Scenarist.mapScript
  cases hfind : SectionKey.script.find? text with
  | none => exact .refl text
  | some s =>
      simp only
      split
      · exact .refl text
      · exact of_isIn fun key => SectionKey.isIn_withContent (SectionKey.found_of_find? hfind) _

/-- A section written anew, with any items at all, keeps the sections. -/
theorem refill (key : SectionKey) (names rendered : List Text) (text : Text) :
    KeepsSections text (key.refill names rendered text).text := by
  unfold SectionKey.refill
  cases hfind : key.find? text with
  | none => exact .refl text
  | some s => exact of_isIn fun other => SectionKey.isIn_withContent (SectionKey.found_of_find? hfind) _

end KeepsSections

/-! ## Passes -/

/-- A step after which every section is still there, whatever document it is taken on. -/
def RepairStep.KeepsSections (step : RepairStep) : Prop :=
  ∀ (executor : Executor) (uri text updated : Text) (desk desk' : Desk),
    step.action.run executor uri text desk = (.ok updated, desk') → Scenarist.KeepsSections text updated

namespace RepairStep

theorem keepsSections_ofFunction {name : String} {change : Text → Text}
    (h : ∀ text, Scenarist.KeepsSections text (change text)) :
    (ofFunction name change).KeepsSections := by
  intro executor uri text updated desk desk' hrun
  obtain ⟨rfl, -⟩ : change text = updated ∧ desk = desk' := by
    simpa [ofFunction, StepAction.edit, StepAction.run] using hrun
  exact h text

theorem keepsSections_index : index.KeepsSections := by
  intro executor uri text updated desk desk' hrun
  obtain ⟨-, rfl, -⟩ := Executor.run_index_iff.1 hrun
  exact .refl _

theorem keepsSections_regenerateNested : regenerateNested.KeepsSections := by
  intro executor uri text updated desk desk' hrun
  rcases Executor.run_nested_iff.1 hrun with ⟨-, rfl, -⟩ | ⟨-, -, rfl, -⟩
  · exact .refl _
  · exact .refill _ _ _ text

theorem keepsSections_regenerateParameters : regenerateParameters.KeepsSections := by
  intro executor uri text updated desk desk' hrun
  obtain ⟨-, rfl, -⟩ := Executor.run_parameters_iff.1 hrun
  exact .refill _ _ _ text

/-- Every default step keeps the sections. -/
theorem keepsSections_ofConfig (config : RepairConfig) : ∀ step ∈ ofConfig config, step.KeepsSections := by
  have htabs : normalizeTabs.KeepsSections := keepsSections_ofFunction .expandLeadingTabs
  have htables : alignTables.KeepsSections := keepsSections_ofFunction (.mapScript _)
  have hassignments : alignAssignments.KeepsSections := keepsSections_ofFunction (.mapScript _)
  have hoptional : ∀ {flag : Bool} {step optional : RepairStep}, optional.KeepsSections →
      step ∈ (if flag then [optional] else []) → step.KeepsSections := by
    rintro (_ | _) step optional hkeeps hstep
    · simp at hstep
    · rwa [List.mem_singleton.1 hstep]
  intro step hstep
  simp only [ofConfig, List.mem_append] at hstep
  rcases hstep with ((((hstep | hstep) | hstep) | hstep) | hstep) | hstep
  · exact hoptional htabs hstep
  · exact hoptional htables hstep
  · exact hoptional hassignments hstep
  · rw [List.mem_singleton.1 hstep]
    exact keepsSections_index
  · exact hoptional keepsSections_regenerateNested hstep
  · exact hoptional keepsSections_regenerateParameters hstep

end RepairStep

namespace Executor

variable {executor : Executor} {uri text final : Text} {desk desk' : Desk} {applied : List Text}

/-- Steps that keep the sections keep them one after the other. -/
theorem keepsSections_of_runSteps {steps : List RepairStep} (hsteps : ∀ step ∈ steps, step.KeepsSections)
    (hrun : executor.runSteps uri steps text desk = (.ok (final, applied), desk')) :
    KeepsSections text final := by
  induction steps generalizing text desk applied with
  | nil =>
      obtain ⟨⟨rfl, -⟩, -⟩ : (text = final ∧ [] = applied) ∧ desk = desk' := by
        simpa [runSteps] using hrun
      exact .refl _
  | cons step steps ih =>
      obtain ⟨updated, between, rest, hstep, hrest, -⟩ := runSteps_cons_iff.1 hrun
      have hfirst := hsteps step List.mem_cons_self executor uri text updated desk between hstep
      exact hfirst.trans (ih (fun other hother => hsteps other (List.mem_cons_of_mem _ hother)) hrest)

/-- A pass of steps that keep the sections is not rolled back. -/
theorem repairText_ne_rollback (hsteps : ∀ step ∈ executor.steps, step.KeepsSections)
    (missing : List SectionKey) :
    (executor.repairText uri text desk).1 ≠ .error (.rollback missing) := by
  intro hrollback
  obtain ⟨final, applied, hrun, rfl, hlost⟩ := repairText_eq_rollback_iff.1 hrollback
  exact hlost (KeepsSections.missingSections_eq_nil_iff.2 (keepsSections_of_runSteps hsteps (Prod.ext hrun rfl)))

/-- A pass with the default steps is never rolled back: every section of the document is there after each
of the steps, and so in the result. -/
theorem keepsSections_repairText (config : RepairConfig) (exclusions : List Text) (uri text : Text)
    (desk : Desk) :
    (∀ missing, ((config.executor exclusions).repairText uri text desk).1 ≠ .error (.rollback missing)) ∧
      (∀ result desk', (config.executor exclusions).repairText uri text desk = (.ok result, desk') →
        KeepsSections text result.text) ∧
      ∀ front middle applied desk', front <+: RepairStep.ofConfig config →
        (config.executor exclusions).runSteps uri front text desk = (.ok (middle, applied), desk') →
          KeepsSections text middle := by
  have hsteps := RepairStep.keepsSections_ofConfig config
  refine ⟨repairText_ne_rollback hsteps, fun result desk' hresult => ?_, fun front _ _ _ hfront hrun => ?_⟩
  · exact keepsSections_of_runSteps hsteps (repairText_eq_ok hresult)
  · exact keepsSections_of_runSteps (fun step hstep => hsteps step (hfront.subset hstep)) hrun

/-- The first steps over a document whose script uses a parameter that is not declared. -/
theorem keepsSections_undeclaringDocument :
    ∃ middle applied desk', (RepairConfig.executor {} []).runSteps "/a".toList
        ((RepairStep.ofConfig {}).take 4) undeclaringDocument bareDesk = (.ok (middle, applied), desk') ∧
      KeepsSections undeclaringDocument middle := by
  have hended : ((RepairConfig.executor {} []).runSteps "/a".toList ((RepairStep.ofConfig {}).take 4)
      undeclaringDocument bareDesk).1.toOption.isSome = true := by decide +kernel
  rcases hrun : (RepairConfig.executor {} []).runSteps "/a".toList ((RepairStep.ofConfig {}).take 4)
    undeclaringDocument bareDesk with ⟨_ | ⟨middle, applied⟩, desk'⟩
  · rw [hrun] at hended
    simp [Except.toOption] at hended
  · exact ⟨middle, applied, desk', rfl, (keepsSections_repairText {} [] "/a".toList undeclaringDocument
      bareDesk).2.2 _ middle applied desk' (List.take_prefix 4 _) hrun⟩

end Executor

end Scenarist
