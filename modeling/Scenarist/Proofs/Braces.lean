import Mathlib.Data.List.Induction
import Mathlib.Data.List.Nodup
import Mathlib.Order.Bounds.Basic

set_option autoImplicit false

/-! # Braces that pair

Numbered braces are read from the left, with the opening ones that are not closed yet on a stack. A closing brace
closes the one on top; it is left over if there is none. What stands between a brace on the stack and the end of
what has been read is balanced but for the braces further up, so the braces that are left over in the end are
those that pair with none.

Main statements: `Unmatched.exists_split_of_run` (what stands above a brace on the stack),
`Unmatched.mem_run_iff` (what is left over), `Unmatched.run_eq_nil_iff` and `Brace.pairs_iff_isGreatest` (a
closing brace pairs with the nearest one before it that no earlier one pairs with). -/

namespace Scenarist

/-- The two kinds of braces. -/
inductive Brace where
  | opening
  | closing
  deriving DecidableEq, Repr

namespace Brace

/-- Whether all braces pair. -/
inductive IsBalanced : List (Nat × Brace) → Prop
  | nil : IsBalanced []
  | block (m n : Nat) {inner rest : List (Nat × Brace)} : IsBalanced inner → IsBalanced rest →
      IsBalanced ((m, .opening) :: (inner ++ (n, .closing) :: rest))

variable {braces inner rest : List (Nat × Brace)} {m n : Nat}

theorem IsBalanced.append (h : IsBalanced inner) (h' : IsBalanced rest) : IsBalanced (inner ++ rest) := by
  induction h with
  | nil => exact h'
  | block m n hinner _ _ ih => simpa using IsBalanced.block m n hinner ih

/-- Whether an opening brace and a closing one behind it pair: what stands between them is balanced. -/
def Pairs (braces : List (Nat × Brace)) (m n : Nat) : Prop :=
  ∃ above inner below, braces = above ++ (m, .opening) :: (inner ++ (n, .closing) :: below) ∧ IsBalanced inner

theorem Pairs.append (h : Pairs inner m n) (above below : List (Nat × Brace)) :
    Pairs (above ++ (inner ++ below)) m n := by
  obtain ⟨before, between, behind, rfl, hbalanced⟩ := h
  exact ⟨above ++ before, between, behind ++ below, by simp, hbalanced⟩

/-- Whether a brace pairs with none. -/
def IsUnpaired (braces : List (Nat × Brace)) (n : Nat) : Prop :=
  n ∈ braces.map Prod.fst ∧ ∀ m, ¬ Pairs braces m n ∧ ¬ Pairs braces n m

end Brace

open Brace

/-- The braces that have found no partner so far, the last ones first. -/
structure Unmatched where
  closings : List Nat := []
  openings : List Nat := []

namespace Unmatched

def step (left : Unmatched) : Nat × Brace → Unmatched
  | (n, .opening) => { left with openings := n :: left.openings }
  | (n, .closing) => match left.openings with
    | _ :: openings => { left with openings }
    | [] => { left with closings := n :: left.closings }

def run (left : Unmatched) (braces : List (Nat × Brace)) : Unmatched := braces.foldl step left

def of (left : Unmatched) : Brace → List Nat
  | .opening => left.openings
  | .closing => left.closings

variable {left : Unmatched} {braces inner above below : List (Nat × Brace)} {brace : Nat × Brace}
  {side : Brace} {closings openings : List Nat} {m n : Nat}

theorem run_append (left : Unmatched) (above below : List (Nat × Brace)) :
    left.run (above ++ below) = (left.run above).run below := List.foldl_append

theorem run_cons (left : Unmatched) (brace : Nat × Brace) (below : List (Nat × Brace)) :
    left.run (brace :: below) = (left.step brace).run below := rfl

/-! ## What the braces between change -/

/-- Balanced braces leave nothing over. -/
theorem run_of_isBalanced (h : IsBalanced inner) (left : Unmatched) : left.run inner = left := by
  induction h generalizing left with
  | nil => rfl
  | block m n _ _ ih ih' =>
      -- the first brace stays on top of the stack until its partner takes it off
      rw [run_cons, run_append, ih, run_cons, ih']
      rfl

/-- Nor do two braces that pair. -/
theorem run_of_pairs (h : IsBalanced inner) (left : Unmatched) (above below : List (Nat × Brace)) (m n : Nat) :
    left.run (above ++ (m, .opening) :: (inner ++ (n, .closing) :: below)) = (left.run above).run below := by
  rw [run_append, run_cons, run_append, run_of_isBalanced h, run_cons]
  rfl

theorem mem_step (h : n ∈ (left.step brace).of side) : n ∈ left.of side ∨ (n, side) = brace := by
  obtain ⟨k, _ | _⟩ := brace
  · cases side with
    | opening => simpa [step, of, or_comm] using h
    | closing => exact Or.inl h
  · obtain ⟨closings, _ | ⟨top, openings⟩⟩ := left
    · cases side with
      | opening => exact Or.inl h
      | closing => simpa [step, of, or_comm] using h
    · cases side with
      | opening => exact Or.inl (List.mem_cons_of_mem top h)
      | closing => exact Or.inl h

/-- What is left over has been left over before or is one of the braces. -/
theorem mem_run (h : n ∈ (left.run braces).of side) : n ∈ left.of side ∨ (n, side) ∈ braces := by
  induction braces generalizing left with
  | nil => exact Or.inl h
  | cons brace braces ih =>
      rcases ih h with h | h
      · rcases mem_step h with h | h
        · exact Or.inl h
        · exact Or.inr (List.mem_cons.2 (Or.inl h))
      · exact Or.inr (List.mem_cons_of_mem brace h)

/-- A closing brace that is left over stays so. -/
theorem mem_closings_run (h : n ∈ left.closings) : n ∈ (left.run braces).closings := by
  induction braces generalizing left with
  | nil => exact h
  | cons brace braces ih =>
      refine ih ?_
      obtain ⟨k, _ | _⟩ := brace
      · exact h
      · obtain ⟨closings, _ | ⟨top, openings⟩⟩ := left
        · exact List.mem_cons_of_mem k h
        · exact h

/-! ## What stands behind an open brace -/

/-- What stands behind the brace on top of the stack is balanced, and what stands before it has left over the
others. -/
theorem exists_split_of_run (h : run {} braces = ⟨closings, m :: openings⟩) :
    ∃ above inner, braces = above ++ (m, .opening) :: inner ∧ IsBalanced inner ∧
      run {} above = ⟨closings, openings⟩ := by
  -- the brace that the last one closes is open before it, and the one below that in what stands before both
  induction hlength : braces.length using Nat.strong_induction_on generalizing braces m openings with
  | _ length ih =>
    obtain rfl | ⟨before, ⟨n, side⟩, rfl⟩ := List.eq_nil_or_concat' braces
    · cases h
    · have hbefore : before.length < length := by simp [← hlength]
      rw [run_append] at h
      cases hrun : run {} before with
      | mk closings' openings' =>
        rw [hrun] at h
        cases side with
        | opening =>
            cases h
            exact ⟨before, [], rfl, .nil, hrun⟩
        | closing =>
            obtain _ | ⟨top, openings'⟩ := openings'
            · cases h
            · cases h
              obtain ⟨middle, inner', rfl, hinner', hmiddle⟩ := ih _ hbefore hrun rfl
              have hshort : middle.length < length := by
                simp only [List.length_append, List.length_cons] at hbefore
                omega
              obtain ⟨above, inner, rfl, hinner, habove⟩ := ih _ hshort hmiddle rfl
              exact ⟨above, inner ++ (top, .opening) :: (inner' ++ [(n, .closing)]), by simp,
                hinner.append (.block top n hinner' .nil), habove⟩

/-- Braces that leave nothing over are balanced. -/
theorem isBalanced_of_run (h : run {} braces = {}) : IsBalanced braces := by
  induction hlength : braces.length using Nat.strong_induction_on generalizing braces with
  | _ length ih =>
    obtain rfl | ⟨before, ⟨n, side⟩, rfl⟩ := List.eq_nil_or_concat' braces
    · exact .nil
    · have hbefore : before.length < length := by simp [← hlength]
      rw [run_append] at h
      cases hrun : run {} before with
      | mk closings openings =>
        rw [hrun] at h
        cases side with
        | opening => cases h
        | closing =>
            obtain _ | ⟨top, openings⟩ := openings
            · cases h
            · cases h
              -- the last brace closes the open one, and what stands before both leaves nothing over either
              obtain ⟨above, inner, rfl, hinner, habove⟩ := exists_split_of_run hrun
              have hshort : above.length < length := by
                simp only [List.length_append, List.length_cons] at hbefore
                omega
              have hrest := (ih _ hshort habove rfl).append (.block top n hinner .nil)
              simpa using hrest

theorem run_eq_nil_iff : run {} braces = {} ↔ IsBalanced braces :=
  ⟨isBalanced_of_run, fun h => run_of_isBalanced h {}⟩

/-! ## What is left over -/

/-- A brace is left over or pairs. -/
theorem mem_run_or_pairs (h : (n, side) ∈ braces) :
    n ∈ (run {} braces).of side ∨ ∃ m, Pairs braces m n ∨ Pairs braces n m := by
  induction braces using List.reverseRecOn with
  | nil => cases h
  | append_singleton before brace ih =>
      have hmore : ∀ {k l : Nat}, Pairs before k l → Pairs (before ++ [brace]) k l :=
        fun hpairs => hpairs.append [] [brace]
      obtain ⟨k, kind⟩ := brace
      rw [run_append]
      cases hrun : run {} before with
      | mk closings openings =>
        rw [hrun] at ih
        rcases List.mem_append.1 h with h | h
        · rcases ih h with hleft | ⟨m, hpairs⟩
          -- a brace left over before is left over still, unless it is on top and the last one closes it
          · cases kind with
            | opening =>
                cases side with
                | opening => exact Or.inl (List.mem_cons_of_mem k hleft)
                | closing => exact Or.inl hleft
            | closing =>
                obtain _ | ⟨top, openings⟩ := openings
                · cases side with
                  | opening => cases hleft
                  | closing => exact Or.inl (List.mem_cons_of_mem k hleft)
                · cases side with
                  | closing => exact Or.inl hleft
                  | opening =>
                      rcases List.mem_cons.1 hleft with rfl | hleft
                      · obtain ⟨above, inner, rfl, hinner, -⟩ := exists_split_of_run hrun
                        exact Or.inr ⟨k, Or.inr ⟨above, inner, [], by simp, hinner⟩⟩
                      · exact Or.inl hleft
          · exact Or.inr ⟨m, hpairs.imp hmore hmore⟩
        · obtain ⟨rfl, rfl⟩ := Prod.mk.inj (List.mem_singleton.1 h)
          cases side with
          | opening => exact Or.inl List.mem_cons_self
          | closing =>
              obtain _ | ⟨top, openings⟩ := openings
              · exact Or.inl List.mem_cons_self
              · obtain ⟨above, inner, rfl, hinner, -⟩ := exists_split_of_run hrun
                exact Or.inr ⟨top, Or.inl ⟨above, inner, [], by simp, hinner⟩⟩

/-- Braces that pair are not left over. -/
theorem not_mem_run_of_pairs (hnodup : (braces.map Prod.fst).Nodup) (h : Pairs braces m n) (side : Brace) :
    m ∉ (run {} braces).of side ∧ n ∉ (run {} braces).of side := by
  obtain ⟨above, inner, below, rfl, hinner⟩ := h
  rw [run_of_pairs hinner, ← run_append]
  -- what is left over stands around the pair, where its two braces do not stand once more
  have hkept : ∀ k, k ∈ (run {} (above ++ below)).of side → k ∈ (above ++ below).map Prod.fst := by
    intro k hk
    rcases mem_run hk with hk | hk
    · cases side <;> cases hk
    · exact List.mem_map_of_mem hk
  rw [List.map_append, List.map_cons, List.map_append, List.map_cons] at hnodup
  obtain ⟨hm, hrest⟩ := List.nodup_cons.1 (List.nodup_middle.1 hnodup)
  obtain ⟨hn, -⟩ := List.nodup_cons.1 (List.nodup_middle.1 (List.append_assoc _ _ _ ▸ hrest))
  constructor
  · intro hleft
    have hmem := hkept m hleft
    simp only [List.map_append, List.mem_append] at hmem hm
    tauto
  · intro hleft
    have hmem := hkept n hleft
    simp only [List.map_append, List.mem_append] at hmem hn
    tauto

/-- The braces that are left over are those that pair with none. -/
theorem mem_run_iff (hnodup : (braces.map Prod.fst).Nodup) :
    n ∈ (run {} braces).closings ++ (run {} braces).openings ↔ IsUnpaired braces n := by
  have hleft : n ∈ (run {} braces).closings ++ (run {} braces).openings ↔
      ∃ side, n ∈ (run {} braces).of side := by
    rw [List.mem_append]
    exact ⟨fun h => h.elim (fun h => ⟨.closing, h⟩) fun h => ⟨.opening, h⟩,
      fun ⟨side, h⟩ => by cases side; exacts [Or.inr h, Or.inl h]⟩
  rw [hleft]
  constructor
  · rintro ⟨side, hmem⟩
    refine ⟨?_, fun m => ⟨fun hpairs => ?_, fun hpairs => ?_⟩⟩
    · rcases mem_run hmem with h | h
      · cases side <;> cases h
      · exact List.mem_map_of_mem h
    · exact (not_mem_run_of_pairs hnodup hpairs side).2 hmem
    · exact (not_mem_run_of_pairs hnodup hpairs side).1 hmem
  · rintro ⟨hmem, hunpaired⟩
    obtain ⟨⟨k, side⟩, hbrace, rfl⟩ := List.mem_map.1 hmem
    rcases mem_run_or_pairs hbrace with h | ⟨m, h | h⟩
    · exact ⟨side, h⟩
    · exact absurd h (hunpaired m).1
    · exact absurd h (hunpaired m).2

/-- No brace is left over twice. -/
theorem nodup_run (hnodup : (braces.map Prod.fst).Nodup) :
    ((run {} braces).closings ++ (run {} braces).openings).Nodup := by
  induction braces using List.reverseRecOn with
  | nil => exact List.nodup_nil
  | append_singleton before brace ih =>
      obtain ⟨n, side⟩ := brace
      rw [List.map_append, List.nodup_append] at hnodup
      obtain ⟨hbefore, -, hdisjoint⟩ := hnodup
      -- the last brace has a number of its own
      have hnew : n ∉ (run {} before).closings ++ (run {} before).openings := by
        rw [mem_run_iff hbefore]
        exact fun hunpaired => hdisjoint n hunpaired.1 n (by simp) rfl
      have hold := ih hbefore
      rw [run_append]
      cases hrun : run {} before with
      | mk closings openings =>
        rw [hrun] at hold hnew
        cases side with
        | opening => exact List.nodup_middle.2 (List.nodup_cons.2 ⟨hnew, hold⟩)
        | closing =>
            obtain _ | ⟨top, openings⟩ := openings
            · exact List.nodup_cons.2 ⟨hnew, hold⟩
            · exact (List.nodup_cons.1 (List.nodup_middle.1 hold)).2

end Unmatched

namespace Brace

/-! ## The nearest brace -/

variable {braces inner above below : List (Nat × Brace)} {brace : Nat × Brace} {k l m n : Nat}

/-- Braces are no longer balanced with a closing one more, whatever stands behind it. -/
theorem not_isBalanced_append_closing (h : IsBalanced inner) (n : Nat) (rest : List (Nat × Brace)) :
    ¬ IsBalanced (inner ++ (n, .closing) :: rest) := by
  intro hbalanced
  have hrun := Unmatched.run_of_isBalanced hbalanced {}
  rw [Unmatched.run_append, Unmatched.run_of_isBalanced h, Unmatched.run_cons] at hrun
  have hleft : n ∈ ((Unmatched.step {} (n, .closing)).run rest).closings :=
    Unmatched.mem_closings_run List.mem_cons_self
  rw [hrun] at hleft
  cases hleft

/-- A brace that opens is closed once. -/
theorem Pairs.closing_unique (hnodup : (braces.map Prod.fst).Nodup) (h : Pairs braces m n)
    (h' : Pairs braces m l) : n = l := by
  obtain ⟨above, inner, below, rfl, hinner⟩ := h
  obtain ⟨above', inner', below', heq, hinner'⟩ := h'
  rw [List.map_append, List.map_cons] at hnodup
  have hnot := (List.nodup_cons.1 (List.nodup_middle.1 hnodup)).1
  rw [← List.map_append] at hnot
  -- the opening brace stands once, so both splits are made there, and neither end can go beyond the other
  have habove : (m, Brace.opening) ∉ above :=
    fun hmem => hnot (List.mem_map_of_mem (List.mem_append_left _ hmem))
  have hbehind : (m, Brace.opening) ∉ inner ++ (n, .closing) :: below :=
    fun hmem => hnot (List.mem_map_of_mem (List.mem_append_right _ hmem))
  obtain ⟨-, -, heq⟩ := (List.append_cons_inj_of_notMem habove hbehind).1 heq
  rcases List.append_eq_append_iff.1 heq with ⟨more, hinner_eq, hrest⟩ | ⟨more, hinner_eq, hrest⟩
  · obtain _ | ⟨brace, more⟩ := more
    · cases hrest
      rfl
    · cases hrest
      exact absurd (hinner_eq ▸ hinner') (not_isBalanced_append_closing hinner n more)
  · obtain _ | ⟨brace, more⟩ := more
    · cases hrest
      rfl
    · cases hrest
      exact absurd (hinner_eq ▸ hinner) (not_isBalanced_append_closing hinner' l more)

theorem Pairs.mem (h : Pairs braces m n) : (m, .opening) ∈ braces ∧ (n, .closing) ∈ braces := by
  obtain ⟨above, inner, below, rfl, -⟩ := h
  simp

theorem lt_of_pairwise (h : ((above ++ brace :: below).map Prod.fst).Pairwise (· < ·)) :
    (∀ entry ∈ above, entry.1 < brace.1) ∧ ∀ entry ∈ below, brace.1 < entry.1 := by
  obtain ⟨-, hbelow, habove⟩ := List.pairwise_append.1 (List.pairwise_map.1 h)
  exact ⟨fun entry hentry => habove entry hentry brace List.mem_cons_self, (List.pairwise_cons.1 hbelow).1⟩

/-- A brace that opens does not close. -/
theorem not_pairs_of_opening (hnodup : (braces.map Prod.fst).Nodup) (h : (n, .opening) ∈ braces) (m : Nat) :
    ¬ Pairs braces m n := by
  intro hpairs
  have heq := List.inj_on_of_nodup_map hnodup h hpairs.mem.2 rfl
  cases heq

/-- The opening braces before a closing one that pair with no earlier one. -/
def freeBefore (braces : List (Nat × Brace)) (n : Nat) : Set Nat :=
  {k | (k, .opening) ∈ braces ∧ k < n ∧ ∀ l < n, ¬ Pairs braces k l}

theorem isGreatest_of_pairs (hsorted : (braces.map Prod.fst).Pairwise (· < ·)) (h : Pairs braces m n) :
    IsGreatest (freeBefore braces n) m := by
  have hnodup : (braces.map Prod.fst).Nodup := hsorted.imp Nat.ne_of_lt
  obtain ⟨above, inner, below, rfl, hinner⟩ := id h
  obtain ⟨habove, hbehind⟩ := lt_of_pairwise hsorted
  have hsplit : above ++ (m, Brace.opening) :: (inner ++ (n, .closing) :: below) =
      (above ++ (m, .opening) :: inner) ++ (n, .closing) :: below := by simp
  obtain ⟨hbefore, hbelow⟩ := lt_of_pairwise (hsplit ▸ hsorted)
  have hmn : m < n := hbehind (n, .closing) (by simp)
  refine ⟨⟨h.mem.1, hmn, fun l hlt hother => absurd (h.closing_unique hnodup hother) hlt.ne'⟩, fun k hk => ?_⟩
  obtain ⟨hopening, hlt, hfree⟩ := hk
  by_contra hnot
  -- a nearer brace would stand between the two, where every brace pairs
  have hin : (k, Brace.opening) ∈ inner := by
    rw [List.mem_append, List.mem_cons, List.mem_append, List.mem_cons] at hopening
    rcases hopening with h | h | h | h | h
    · exact absurd (habove _ h) (by simp; omega)
    · cases h
      exact absurd le_rfl hnot
    · exact h
    · cases h
    · exact absurd (hbelow _ h) (by simp; omega)
  have hmore : ∀ {k l}, Pairs inner k l →
      Pairs (above ++ (m, .opening) :: (inner ++ (n, .closing) :: below)) k l := by
    intro k l hpairs
    have hwhole := hpairs.append (above ++ [(m, .opening)]) ((n, .closing) :: below)
    rwa [List.append_assoc, List.singleton_append] at hwhole
  rcases Unmatched.mem_run_or_pairs hin with hleft | ⟨l, hpairs | hpairs⟩
  · rw [Unmatched.run_of_isBalanced hinner] at hleft
    cases hleft
  · exact not_pairs_of_opening hnodup hopening l (hmore hpairs)
  · have hl : l < n := hbefore _ (List.mem_append_right _ (List.mem_cons_of_mem _ hpairs.mem.2))
    exact hfree l hl (hmore hpairs)

theorem pairs_of_isGreatest (hsorted : (braces.map Prod.fst).Pairwise (· < ·)) (hclosing : (n, .closing) ∈ braces)
    (h : IsGreatest (freeBefore braces n) m) : Pairs braces m n := by
  obtain ⟨⟨hopening, hlt, hfree⟩, -⟩ := id h
  obtain ⟨before, below, rfl⟩ := List.append_of_mem hclosing
  obtain ⟨hbefore, hbelow⟩ := lt_of_pairwise hsorted
  have hin : (m, Brace.opening) ∈ before := by
    rw [List.mem_append, List.mem_cons] at hopening
    rcases hopening with h | h | h
    · exact h
    · cases h
    · exact absurd (hbelow _ h) (by simp; omega)
  -- so it is on the stack when the closing brace is read, and the one on top pairs
  rcases Unmatched.mem_run_or_pairs hin with hleft | ⟨l, hpairs | hpairs⟩
  · cases hrun : Unmatched.run {} before with
    | mk closings openings =>
      rw [hrun] at hleft
      obtain _ | ⟨top, openings⟩ := openings
      · cases hleft
      · obtain ⟨above, inner, rfl, hinner, -⟩ := Unmatched.exists_split_of_run hrun
        have hpairs : Pairs (above ++ (top, Brace.opening) :: inner ++ (n, .closing) :: below) top n :=
          ⟨above, inner, below, by simp, hinner⟩
        exact (isGreatest_of_pairs hsorted hpairs).unique h ▸ hpairs
  · exact absurd (hpairs.append [] _) (not_pairs_of_opening (hsorted.imp Nat.ne_of_lt) hopening l)
  · exact absurd (hpairs.append [] _) (hfree l (hbefore _ hpairs.mem.2))

/-- A closing brace pairs with the nearest opening one before it that pairs with no earlier one. -/
theorem pairs_iff_isGreatest (hsorted : (braces.map Prod.fst).Pairwise (· < ·)) :
    Pairs braces m n ↔ (n, .closing) ∈ braces ∧ IsGreatest (freeBefore braces n) m :=
  ⟨fun h => ⟨h.mem.2, isGreatest_of_pairs hsorted h⟩, fun h => pairs_of_isGreatest hsorted h.1 h.2⟩

end Brace

end Scenarist
