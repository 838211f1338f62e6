import Scenarist.Proofs.Renaming

set_option autoImplicit false

/-! # The call around a line

A call holds the lines below it as long as those that say something are indented deeper than it. While a script is
read, the calls that still hold the next line form a stack: each one is indented deeper than the one below it, so
the calls that a line closes are on top, and the innermost call is the one that stands last.

Main statements: `CallBlock.mem_foldl_enclosingStep` (the calls on the stack), `CallBlock.enclosing?_eq_some_iff` and
`CallBlock.enclosing?_innermost`. -/

namespace Scenarist

/-- What is taken of a list as long as a condition holds is what meets it, if none that meets it comes behind one
that does not. -/
theorem takeWhile_eq_filter {α : Type} {p : α → Bool} {items : List α}
    (h : items.Pairwise fun a b => p b = true → p a = true) : items.takeWhile p = items.filter p := by
  induction items with
  | nil => rfl
  | cons item items ih =>
      obtain ⟨hitem, hitems⟩ := List.pairwise_cons.1 h
      by_cases hp : p item = true
      · rw [List.takeWhile_cons_of_pos hp, List.filter_cons_of_pos hp, ih hitems]
      · have hnone : items.filter p = [] :=
          List.filter_eq_nil_iff.2 fun other hother hp' => hp (hitem other hother hp')
        rw [List.takeWhile_cons_of_neg hp, List.filter_cons_of_neg hp, hnone]

/-- What is left of it does not meet the condition. -/
theorem dropWhile_eq_filter {α : Type} {p : α → Bool} {items : List α}
    (h : items.Pairwise fun a b => p b = true → p a = true) :
    items.dropWhile p = items.filter fun item => !p item := by
  induction items with
  | nil => rfl
  | cons item items ih =>
      obtain ⟨hitem, hitems⟩ := List.pairwise_cons.1 h
      by_cases hp : p item = true
      · rw [List.dropWhile_cons_of_pos hp, List.filter_cons_of_neg (by simpa using hp), ih hitems]
      · have hall : items.filter (fun item => !p item) = items :=
          List.filter_eq_self.2 fun other hother => by simpa using fun hp' => hp (hitem other hother hp')
        rw [List.dropWhile_cons_of_neg hp, List.filter_cons_of_pos (by simpa using hp), hall]

namespace CallBlock

open Text

variable {block : CallBlock} {number : Nat} {line : Text}

/-! ## One line -/

/-- The call without assignments that a line has the shape of; its name may be blank, but holds no double quote. -/
def shapedBy? (number : Nat) (line : Text) : Option CallBlock :=
  (ofLine? number line).filter fun block => !block.name.elem '"'

theorem shapedBy?_eq_some (h : shapedBy? number line = some block) :
    ofLine? number line = some block ∧ block.line = number ∧ block.indent = indentWidth line := by
  obtain ⟨hline, -⟩ := Option.filter_eq_some_iff.1 h
  obtain ⟨parts, -, rfl⟩ := Option.map_eq_some_iff.1 hline
  exact ⟨hline, rfl, rfl⟩

/-- A line that opens a call has its shape. -/
theorem shapedBy?_of_openedBy? (h : openedBy? number line = some block) :
    shapedBy? number line = some block := by
  obtain ⟨hline, hname⟩ := Option.filter_eq_some_iff.1 h
  rw [Bool.and_eq_true] at hname
  exact Option.filter_eq_some_iff.2 ⟨hline, hname.2⟩

/-- A line with the shape of a call says something. -/
theorem isSilent_of_ofLine? (h : ofLine? number line = some block) : isSilent line = false := by
  obtain ⟨parts, hparts, -⟩ := Option.map_eq_some_iff.1 h
  obtain ⟨word, hword, w, hw, c, hc, hkey⟩ := StepLine.exists_head_of_parse? hparts (by decide)
  obtain ⟨rest, hrest⟩ : ∃ rest, stripLeft line = c :: rest := by
    cases hline : stripLeft line with
    | nil => simp [hline] at hc
    | cons d rest =>
        rw [hline] at hc
        exact ⟨rest, by rw [Option.some.inj hc]⟩
  have hmark : c ≠ '#' := by
    rintro rfl
    exact letterKey_ne_mark (callKeywords_subset word hword) (List.mem_of_mem_head? hw) (by simp) hkey
  have hstrip : strip line = c :: stripRight rest := by
    rw [strip, hrest, stripRight_cons_of_not_blank (not_isBlank_head_stripLeft (Option.mem_def.1 hc))]
  simp [isSilent, hstrip, hmark]

/-- The quotes of a call's wording are those of its name. -/
theorem shapedBy?_eq (number : Nat) (line : Text) :
    shapedBy? number line = ((StepLine.ofCall? line).filter fun parts => !parts.content.elem '"').bind
      fun _ => ofLine? number line := by
  unfold shapedBy? ofLine?
  cases StepLine.ofCall? line with
  | none => rfl
  | some parts =>
      have hquote : (strip parts.content).elem '"' = parts.content.elem '"' := by
        rw [Bool.eq_iff_iff, List.elem_iff, List.elem_iff]
        exact mem_strip_iff (by decide)
      rw [Option.map_some, Option.filter_some, Option.filter_some, hquote]
      split <;> rfl

/-! ## The stack -/

/-- Whether a call among numbered lines holds the line behind them: all that say something below it are indented deeper
than it. -/
def IsOpenAfter (lines : List (Nat × Text)) (block : CallBlock) : Prop :=
  (∃ line, (block.line, line) ∈ lines ∧ shapedBy? block.line line = some block) ∧
    ∀ entry ∈ lines, block.line < entry.1 → isSilent entry.2 = false → block.indent < indentWidth entry.2

theorem isOpenAfter_concat {lines : List (Nat × Text)} (hnew : ∀ entry ∈ lines, entry.1 < number) :
    IsOpenAfter (lines ++ [(number, line)]) block ↔ shapedBy? number line = some block ∨
      IsOpenAfter lines block ∧ (isSilent line = false → block.indent < indentWidth line) := by
  unfold IsOpenAfter
  simp only [List.mem_append, List.mem_singleton]
  constructor
  · rintro ⟨⟨found, hfound | hfound, hshape⟩, hdeeper⟩
    · exact Or.inr ⟨⟨⟨found, hfound, hshape⟩, fun entry hentry => hdeeper entry (Or.inl hentry)⟩,
        hdeeper (number, line) (Or.inr rfl) (hnew _ hfound)⟩
    · obtain ⟨rfl, rfl⟩ := Prod.mk.inj hfound
      exact Or.inl hshape
  · rintro (hshape | ⟨⟨⟨found, hfound, hshape⟩, hdeeper⟩, hline⟩)
    · obtain ⟨-, rfl, -⟩ := shapedBy?_eq_some hshape
      refine ⟨⟨line, Or.inr rfl, hshape⟩, ?_⟩
      rintro entry (hentry | rfl) hbelow
      · exact absurd hbelow (Nat.lt_asymm (hnew entry hentry))
      · exact absurd hbelow (Nat.lt_irrefl _)
    · refine ⟨⟨found, Or.inl hfound, hshape⟩, ?_⟩
      rintro entry (hentry | rfl) hbelow
      · exact hdeeper entry hentry hbelow
      · exact hline

/-- Whether calls are stacked: each one is indented deeper than those below it, and stands behind them. -/
def IsStacked (stack : List CallBlock) : Prop :=
  stack.Pairwise fun inner outer => outer.indent < inner.indent ∧ outer.line < inner.line

/-- On a stack, a line closes the calls that it is not indented deeper than. -/
theorem enclosingStep_eq {stack : List CallBlock} (h : IsStacked stack) (number : Nat) (line : Text) :
    enclosingStep stack number line = (shapedBy? number line).toList ++
      stack.filter fun outer => isSilent line || outer.indent < indentWidth line := by
  have hdrop : (stack.dropWhile fun outer => indentWidth line ≤ outer.indent) =
      stack.filter fun outer => outer.indent < indentWidth line := by
    rw [dropWhile_eq_filter (h.imp fun hlt hle => ?_)]
    · refine List.filter_congr fun outer _ => ?_
      rw [← decide_not, decide_eq_decide]
      exact Nat.not_le
    · simp only [decide_eq_true_eq] at hle ⊢
      omega
  unfold enclosingStep
  dsimp only
  rw [← shapedBy?_eq]
  cases hshape : shapedBy? number line with
  | some block =>
      obtain ⟨hline, -, hindent⟩ := shapedBy?_eq_some hshape
      simp only [isSilent_of_ofLine? hline, hindent, hdrop, Bool.false_or, Option.toList_some,
        List.singleton_append]
  | none =>
      cases isSilent line with
      | true => simp
      | false => simp [hdrop]

/-- The stack behind numbered lines holds the calls that hold the next line. -/
theorem mem_foldl_enclosingStep {lines : List (Nat × Text)} (h : (lines.map Prod.fst).Pairwise (· < ·)) :
    let stack := lines.foldl (fun stack entry => enclosingStep stack entry.1 entry.2) []
    IsStacked stack ∧ ∀ block, block ∈ stack ↔ IsOpenAfter lines block := by
  induction lines using List.reverseRecOn with
  | nil => exact ⟨List.Pairwise.nil, fun block => by simp [IsOpenAfter]⟩
  | append_singleton lines entry ih =>
      obtain ⟨number, line⟩ := entry
      rw [List.map_append, List.pairwise_append] at h
      obtain ⟨hlines, -, hlt⟩ := h
      -- the last line closes what is not less indented and then opens a call of its own
      have hnew : ∀ entry ∈ lines, entry.1 < number :=
        fun entry hentry => hlt entry.1 (List.mem_map_of_mem hentry) number (by simp)
      obtain ⟨hstacked, hmem⟩ := ih hlines
      rw [List.foldl_append, List.foldl_cons, List.foldl_nil, enclosingStep_eq hstacked]
      refine ⟨List.pairwise_append.2 ⟨?_, hstacked.sublist List.filter_sublist, ?_⟩, fun block => ?_⟩
      · cases shapedBy? number line with
        | none => exact List.Pairwise.nil
        | some block => exact List.pairwise_singleton _ block
      · intro inner hinner outer houter
        obtain ⟨hline, rfl, hindent⟩ := shapedBy?_eq_some (Option.mem_toList.1 hinner)
        obtain ⟨houter, hdeeper⟩ := List.mem_filter.1 houter
        obtain ⟨⟨found, hfound, -⟩, -⟩ := (hmem outer).1 houter
        rw [isSilent_of_ofLine? hline, Bool.false_or, decide_eq_true_eq] at hdeeper
        exact ⟨hindent ▸ hdeeper, hnew _ hfound⟩
      · rw [isOpenAfter_concat hnew, List.mem_append, List.mem_filter, hmem, Option.mem_toList]
        refine or_congr Iff.rfl (and_congr_right fun _ => ?_)
        cases isSilent line <;> simp

/-! ## The innermost call -/

/-- Whether a call of a document holds a line: the line is that of the call, or one below it down to which all that say
something are indented deeper than the call. -/
def Encloses (text : Text) (number : Nat) (block : CallBlock) : Prop :=
  block.line ≤ number ∧ (∃ line, (block.line, line) ∈ scriptLines text ∧ shapedBy? block.line line = some block) ∧
    ∀ entry ∈ scriptLines text, block.line < entry.1 → entry.1 ≤ number → isSilent entry.2 = false →
      block.indent < indentWidth entry.2

/-- On a stack, the call on top is the last one. -/
theorem head?_eq_some_iff_of_isStacked {stack : List CallBlock} (h : IsStacked stack) :
    stack.head? = some block ↔ block ∈ stack ∧ ∀ other ∈ stack, other.line ≤ block.line := by
  cases stack with
  | nil => simp
  | cons top stack =>
      have htop := (List.pairwise_cons.1 h).1
      rw [List.head?_cons, Option.some_inj]
      constructor
      · rintro rfl
        exact ⟨List.mem_cons_self, List.forall_mem_cons.2 ⟨le_rfl, fun other hother => (htop other hother).2.le⟩⟩
      · rintro ⟨hmem, hlast⟩
        refine ((List.mem_cons.1 hmem).resolve_right fun hbelow => ?_).symm
        exact absurd (hlast top List.mem_cons_self) (Nat.not_le_of_lt (htop block hbelow).2)

/-- The innermost call at a line is on top of a stack of those that hold it. -/
theorem exists_stack (text : Text) (number : Nat) : ∃ stack, enclosing? text number = stack.head? ∧
    IsStacked stack ∧ ∀ block, block ∈ stack ↔ Encloses text number block := by
  have hsorted := SectionKey.pairwise_linesOf .script text
  have htake : (scriptLines text).takeWhile (fun entry => entry.1 ≤ number) =
      (scriptLines text).filter fun entry => entry.1 ≤ number := by
    refine takeWhile_eq_filter ((List.pairwise_map.1 hsorted).imp fun hlt hle => ?_)
    simp only [decide_eq_true_eq] at hle ⊢
    omega
  have hsorted' : (((scriptLines text).filter fun entry => entry.1 ≤ number).map Prod.fst).Pairwise (· < ·) :=
    hsorted.sublist (List.filter_sublist.map Prod.fst)
  obtain ⟨hstacked, hmem⟩ := mem_foldl_enclosingStep hsorted'
  refine ⟨_, ?_, hstacked, fun block => (hmem block).trans ?_⟩
  · rw [← htake]
    rfl
  · unfold IsOpenAfter Encloses
    simp only [List.mem_filter, decide_eq_true_eq]
    constructor
    · rintro ⟨⟨line, ⟨hline, hle⟩, hshape⟩, hdeeper⟩
      exact ⟨hle, ⟨line, hline, hshape⟩, fun entry hentry hbelow hle => hdeeper entry ⟨hentry, hle⟩ hbelow⟩
    · rintro ⟨hle, ⟨line, hline, hshape⟩, hdeeper⟩
      exact ⟨⟨line, ⟨hline, hle⟩, hshape⟩, fun entry hentry hbelow => hdeeper entry hentry.1 hbelow hentry.2⟩

theorem enclosing?_eq_some_iff {text : Text} :
    enclosing? text number = some block ↔
      Encloses text number block ∧ ∀ other, Encloses text number other → other.line ≤ block.line := by
  obtain ⟨stack, henclosing, hstacked, hmem⟩ := exists_stack text number
  rw [henclosing, head?_eq_some_iff_of_isStacked hstacked, hmem]
  simp only [hmem]

theorem enclosing?_eq_none_iff {text : Text} :
    enclosing? text number = none ↔ ∀ block, ¬ Encloses text number block := by
  obtain ⟨stack, henclosing, -, hmem⟩ := exists_stack text number
  rw [henclosing, List.head?_eq_none_iff, List.eq_nil_iff_forall_not_mem]
  simp only [hmem]

/-! ## The lines of a block -/

/-- Lines that are read with a call open begin with those that assign to it. -/
theorem exists_run_of_readFrom (block : CallBlock) (lines : List (Nat × Text)) :
    ∃ run rest parameters, lines = run ++ rest ∧
      readFrom (some block) lines =
        { block with parameters := block.parameters ++ parameters } :: readFrom none rest ∧
      run.map (fun entry => block.assignedBy? entry.1 entry.2) = parameters.map some ∧
      ∀ entry ∈ rest.head?, block.assignedBy? entry.1 entry.2 = none := by
  induction lines generalizing block with
  | nil => exact ⟨[], [], [], rfl, by simp [readFrom], rfl, by simp⟩
  | cons entry lines ih =>
      obtain ⟨number, line⟩ := entry
      cases hassigned : block.assignedBy? number line with
      | none =>
          have hends : ∀ entry ∈ ((number, line) :: lines).head?, block.assignedBy? entry.1 entry.2 = none := by
            rintro entry hentry
            rw [← Option.some.inj hentry]
            exact hassigned
          exact ⟨[], (number, line) :: lines, [], rfl, by simp [readFrom_of_ends hends], rfl, hends⟩
      | some parameter =>
          obtain ⟨run, rest, parameters, rfl, hread, hrun, hends⟩ := ih (block.assign parameter)
          refine ⟨(number, line) :: run, rest, parameter :: parameters, rfl, ?_,
            congrArg₂ List.cons hassigned hrun, hends⟩
          simp only [readFrom, hassigned, hread]
          simp [assign]

theorem lt_of_assignedBy? {parameter : CallParameter} (h : block.assignedBy? number line = some parameter) :
    block.indent < indentWidth line := by
  unfold assignedBy? at h
  split at h
  · simp at h
  · split at h
    · simp at h
    · split at h
      · simp at h
      · next hdeeper => exact Nat.lt_of_not_le hdeeper

/-- A script cut at a block: the line of the call, the lines of its assignments directly below it, and the rest, whose
first line does not assign to the call. -/
theorem exists_run_of_mem_ofText {text : Text} (h : block ∈ ofText text) :
    ∃ above line run rest, scriptLines text = above ++ (block.line, line) :: (run ++ rest) ∧
      openedBy? block.line line = some block.bare ∧
      run.map (fun entry => block.assignedBy? entry.1 entry.2) = block.parameters.map some ∧
      ∀ entry ∈ rest.head?, block.assignedBy? entry.1 entry.2 = none := by
  obtain ⟨above, line, below, -, -, later, hlines, hopened, -, -, -, hread⟩ :=
    @exists_split_of_mem_ofText block { uri := [], text } h
  obtain ⟨run, rest, parameters, rfl, hread', hrun, hends⟩ := exists_run_of_readFrom block.bare below
  obtain ⟨hblock, -⟩ := List.cons.inj (hread.symm.trans hread')
  have hparameters : block.parameters = parameters := congrArg CallBlock.parameters hblock
  exact ⟨above, line, run, rest, hlines, hopened, hparameters ▸ hrun, hends⟩

/-- Down to an assignment of a call, all lines below the call are assignments of it. -/
theorem assigned_of_mem_ofText {text : Text} (h : block ∈ ofText text) {parameter : CallParameter}
    (hparameter : parameter ∈ block.parameters) :
    block.line < parameter.line ∧ ∀ entry ∈ scriptLines text, block.line < entry.1 →
      entry.1 ≤ parameter.line → ∃ other ∈ block.parameters, block.assignedBy? entry.1 entry.2 = some other := by
  obtain ⟨above, line, run, rest, hlines, -, hrun, -⟩ := exists_run_of_mem_ofText h
  obtain ⟨assigning, hassigning, hassigned⟩ : ∃ entry ∈ run, block.assignedBy? entry.1 entry.2 = some parameter :=
    List.mem_map.1 (hrun ▸ List.mem_map_of_mem hparameter)
  have hsorted := SectionKey.pairwise_linesOf .script text
  rw [← scriptLines, hlines, List.pairwise_map] at hsorted
  obtain ⟨-, hsorted, habove⟩ := List.pairwise_append.1 hsorted
  obtain ⟨hcall, hsorted⟩ := List.pairwise_cons.1 hsorted
  obtain ⟨-, -, hrest⟩ := List.pairwise_append.1 hsorted
  rw [line_of_assignedBy? hassigned]
  refine ⟨hcall assigning (List.mem_append_left _ hassigning), fun entry hentry hbelow hle => ?_⟩
  rw [hlines, List.mem_append, List.mem_cons, List.mem_append] at hentry
  rcases hentry with hentry | rfl | hentry | hentry
  · exact absurd (habove entry hentry _ List.mem_cons_self) (Nat.lt_asymm hbelow)
  · exact absurd hbelow (Nat.lt_irrefl _)
  · have hmem := List.mem_map_of_mem (f := fun entry : Nat × Text => block.assignedBy? entry.1 entry.2) hentry
    obtain ⟨other, hother, heq⟩ := List.mem_map.1 (hrun ▸ hmem)
    exact ⟨other, hother, heq.symm⟩
  · exact absurd (hrest assigning hassigning entry hentry) (Nat.not_lt_of_le hle)

/-- The innermost call at a line is the last one that holds it, if there is one. At an assignment of a block none of
whose assignments has the shape of a call, it is the call of the block. -/
theorem enclosing?_innermost (text : Text) :
    (∀ number block, enclosing? text number = some block ↔
        Encloses text number block ∧ ∀ other, Encloses text number other → other.line ≤ block.line) ∧
      (∀ number, enclosing? text number = none ↔ ∀ block, ¬ Encloses text number block) ∧
      ∀ block ∈ ofText text,
        (∀ parameter ∈ block.parameters, ∀ line, (parameter.line, line) ∈ scriptLines text →
          shapedBy? parameter.line line = none) →
        ∀ parameter ∈ block.parameters, enclosing? text parameter.line = some block.bare := by
  refine ⟨fun number block => enclosing?_eq_some_iff, fun number => enclosing?_eq_none_iff,
    fun block hblock hshapes parameter hparameter => ?_⟩
  obtain ⟨line, hline, hopened⟩ :=
    @Checker.exists_line_of_mem_blocksOf { uri := [], text } block hblock
  obtain ⟨hlt, hassigned⟩ := assigned_of_mem_ofText hblock hparameter
  refine enclosing?_eq_some_iff.2 ⟨⟨hlt.le, ⟨line, hline, shapedBy?_of_openedBy? hopened⟩, ?_⟩, ?_⟩
  · intro entry hentry hbelow hle _
    obtain ⟨other, -, hother⟩ := hassigned entry hentry hbelow hle
    exact lt_of_assignedBy? hother
  · -- a call further down would stand on a line of an assignment
    rintro call ⟨hle, ⟨found, hfound, hshape⟩, -⟩
    by_contra hbelow
    obtain ⟨other, hother, heq⟩ := hassigned _ hfound (Nat.lt_of_not_le hbelow) hle
    have hline : other.line = call.line := line_of_assignedBy? heq
    rw [← hline] at hfound hshape
    rw [hshapes other hother found hfound] at hshape
    simp at hshape

def nestedCalls : Text :=
  unlines ["ТекстСценария: |".toList, "    И Внешний".toList, "        Параметр = 1".toList,
    "        И Внутренний".toList, "            Другой = 2".toList, "    И Следующий".toList]

theorem enclosing?_innermost_nestedCalls :
    ∃ inner ∈ ofText nestedCalls, inner.line = 3 ∧
      (∀ parameter ∈ inner.parameters, ∀ line, (parameter.line, line) ∈ scriptLines nestedCalls →
        shapedBy? parameter.line line = none) ∧
      enclosing? nestedCalls 4 = some inner.bare := by
  let inner : CallBlock :=
    { line := 3, keyword := "И".toList, name := "Внутренний".toList, indent := 8, nameStart := 10,
      parameters := [{ line := 4, name := "Другой".toList, value := "2".toList }] }
  have hinner : inner ∈ ofText nestedCalls := by decide +kernel
  have hshapes : ∀ parameter ∈ inner.parameters, ∀ entry ∈ scriptLines nestedCalls,
      entry.1 = parameter.line → shapedBy? entry.1 entry.2 = none := by decide +kernel
  have hshape : ∀ parameter ∈ inner.parameters, ∀ line, (parameter.line, line) ∈ scriptLines nestedCalls →
      shapedBy? parameter.line line = none :=
    fun parameter hparameter line hline => hshapes parameter hparameter (parameter.line, line) hline rfl
  exact ⟨inner, hinner, rfl, hshape,
    (enclosing?_innermost nestedCalls).2.2 inner hinner hshape _ List.mem_cons_self⟩

end CallBlock

end Scenarist
