import Scenarist.Similarity
import Mathlib.Algebra.Order.Field.Rat
import Mathlib.Data.List.Basic
import Mathlib.Data.List.Induction
import Mathlib.Order.Bounds.Basic

set_option autoImplicit false

/-! # The edit distance is the least number of edits

The table of distances gains a row with each character of the first text and a column with each character of the
second one, so the distance of two texts is that of the texts without their last characters, one step on. An edit
of the first text changes its distance to any text by at most one; so no script is shorter than the distance, and
along the least entries of the table runs one that is not longer.

Main statements: `editDistance_concat`, `editDistance_le_of_edit` (one edit), `editsTo_editDistance` and
`editDistance_isLeast`. -/

namespace Scenarist

variable {a b c : Text} {x y : Char}

/-! ## The table -/

/-- The last row of the table: the distances from `a` to the beginnings of `b`. -/
def lastRow (a b : Text) : List Nat := a.foldl (distanceRow b) (List.range (b.length + 1))

theorem lastRow_concat (a b : Text) (x : Char) : lastRow (a ++ [x]) b = distanceRow b (lastRow a b) x := by
  simp [lastRow]

theorem length_lastRow (a b : Text) : (lastRow a b).length = b.length + 1 := by
  induction a using List.reverseRecOn with
  | nil => simp [lastRow]
  | append_singleton a x ih => rw [lastRow_concat, length_distanceRow b _ x ih]

/-- The row ends with the distance. -/
theorem editDistance_of_lastRow {init : List Nat} {last : Nat} (h : lastRow a b = init ++ [last]) :
    editDistance a b = last := by
  show (lastRow a b).getLast?.getD 0 = last
  simp [h]

theorem exists_lastRow_eq (a b : Text) :
    ∃ init, lastRow a b = init ++ [editDistance a b] ∧ init.length = b.length := by
  have hlength := length_lastRow a b
  obtain hnil | ⟨init, last, hrow⟩ := List.eq_nil_or_concat' (lastRow a b)
  · simp [hnil] at hlength
  · rw [hrow] at hlength
    exact ⟨init, by rw [hrow, editDistance_of_lastRow hrow], by simpa using hlength⟩

/-- A row along one character more has one entry more, which is read off its three neighbours. -/
theorem exists_distanceRowFrom_eq (x y : Char) (b : Text) (init : List Nat) (diagonal up left : Nat)
    (h : init.length = b.length) :
    ∃ before last, left :: distanceRowFrom x left b (init ++ [diagonal]) = before ++ [last] ∧
      left :: distanceRowFrom x left (b ++ [y]) (init ++ [diagonal, up]) =
        before ++ [last, min (min (up + 1) (last + 1)) (diagonal + if x = y then 0 else 1)] := by
  induction b generalizing init left with
  | nil =>
      obtain rfl := List.eq_nil_of_length_eq_zero h
      exact ⟨[], left, by simp [distanceRowFrom], by simp [distanceRowFrom]⟩
  | cons z b ih =>
      obtain _ | ⟨corner, init⟩ := init
      · simp at h
      · obtain ⟨above, init', hinit⟩ : ∃ above init', init ++ [diagonal] = above :: init' := by
          cases init <;> simp
        have hlong : init ++ [diagonal, up] = above :: (init' ++ [up]) := by
          rw [← List.cons_append, ← hinit]
          simp
        obtain ⟨before, last, hshort, hfull⟩ :=
          ih init (min (min (above + 1) (left + 1)) (corner + if x = z then 0 else 1)) (by simpa using h)
        refine ⟨left :: before, last, ?_, ?_⟩
        · rw [hinit] at hshort
          rw [List.cons_append, hinit, distanceRowFrom, hshort, List.cons_append]
        · rw [hlong] at hfull
          rw [List.cons_append, List.cons_append, hlong, distanceRowFrom, hfull, List.cons_append]

/-- The entry in the corner of the table is read off its three neighbours. -/
theorem lastRow_concat_concat (h : lastRow a (b ++ [y]) = lastRow a b ++ [editDistance a (b ++ [y])]) :
    lastRow (a ++ [x]) (b ++ [y]) = lastRow (a ++ [x]) b ++
      [min (min (editDistance a (b ++ [y]) + 1) (editDistance (a ++ [x]) b + 1))
        (editDistance a b + if x = y then 0 else 1)] := by
  obtain ⟨init, hrow, hlength⟩ := exists_lastRow_eq a b
  have hhead : (init ++ [editDistance a b, editDistance a (b ++ [y])]).head? =
      (init ++ [editDistance a b]).head? := by
    cases init <;> rfl
  obtain ⟨before, last, hshort, hlong⟩ := exists_distanceRowFrom_eq x y b init (editDistance a b)
    (editDistance a (b ++ [y])) ((init ++ [editDistance a b]).head?.getD 0 + 1) hlength
  have hleft : lastRow (a ++ [x]) b = before ++ [last] := by
    rw [lastRow_concat, hrow, distanceRow, hshort]
  rw [lastRow_concat, h, hrow, List.append_assoc, List.singleton_append, distanceRow, hhead, hlong, hleft,
    editDistance_of_lastRow hleft]
  simp

/-- The table for one character more of the second text has one column more. -/
theorem lastRow_concat_right (a b : Text) (y : Char) :
    lastRow a (b ++ [y]) = lastRow a b ++ [editDistance a (b ++ [y])] := by
  induction a using List.reverseRecOn with
  | nil =>
      have hrow : lastRow [] (b ++ [y]) = lastRow [] b ++ [b.length + 1] := by
        simp [lastRow, List.range_succ]
      rw [hrow, editDistance_of_lastRow hrow]
  | append_singleton a x ih =>
      have hrow := lastRow_concat_concat (x := x) ih
      rw [hrow, editDistance_of_lastRow hrow]

/-! ## The distance -/

theorem editDistance_nil_left (b : Text) : editDistance [] b = b.length := by
  simp [editDistance, List.range_succ]

theorem editDistance_nil_right (a : Text) : editDistance a [] = a.length := by
  have hrow : lastRow a [] = [a.length] := by
    induction a using List.reverseRecOn with
    | nil => rfl
    | append_singleton a x ih => simp [lastRow_concat, ih, distanceRow, distanceRowFrom]
  exact @editDistance_of_lastRow a [] [] _ hrow

/-- The distance of two texts, from those without their last characters. -/
theorem editDistance_concat (a b : Text) (x y : Char) :
    editDistance (a ++ [x]) (b ++ [y]) =
      min (min (editDistance a (b ++ [y]) + 1) (editDistance (a ++ [x]) b + 1))
        (editDistance a b + if x = y then 0 else 1) :=
  editDistance_of_lastRow (lastRow_concat_concat (lastRow_concat_right a b y))

/-! ## One edit -/

/-- One edit of a single character: it is put in, taken out, or put in another's place. -/
inductive Edit : Text → Text → Prop
  | insertion (front back : Text) (x : Char) : Edit (front ++ back) (front ++ x :: back)
  | deletion (front back : Text) (x : Char) : Edit (front ++ x :: back) (front ++ back)
  | substitution (front back : Text) (x y : Char) : Edit (front ++ x :: back) (front ++ y :: back)

theorem Edit.symm (h : Edit a b) : Edit b a := by
  cases h with
  | insertion front back x => exact .deletion front back x
  | deletion front back x => exact .insertion front back x
  | substitution front back x y => exact .substitution front back y x

theorem Edit.append_right (h : Edit a b) (c : Text) : Edit (a ++ c) (b ++ c) := by
  cases h with
  | insertion front back x => simpa using Edit.insertion front (back ++ c) x
  | deletion front back x => simpa using Edit.deletion front (back ++ c) x
  | substitution front back x y => simpa using Edit.substitution front (back ++ c) x y

/-- A character more at the end of the second text puts the distance up by at most one. -/
theorem editDistance_concat_right_le (a b : Text) (y : Char) :
    editDistance a (b ++ [y]) ≤ editDistance a b + 1 := by
  obtain rfl | ⟨a, x, rfl⟩ := List.eq_nil_or_concat' a
  · simp [editDistance_nil_left]
  · rw [editDistance_concat]
    omega

theorem editDistance_concat_left_le (a b : Text) (x : Char) :
    editDistance (a ++ [x]) b ≤ editDistance a b + 1 := by
  obtain rfl | ⟨b, y, rfl⟩ := List.eq_nil_or_concat' b
  · simp [editDistance_nil_right]
  · rw [editDistance_concat]
    omega

/-- A character less at the end of the first text puts the distance up by at most one. -/
theorem editDistance_le_concat_left (a b : Text) (x : Char) :
    editDistance a b ≤ editDistance (a ++ [x]) b + 1 := by
  induction b using List.reverseRecOn with
  | nil => simp only [editDistance_nil_right, List.length_append, List.length_singleton]; omega
  | append_singleton b y ih =>
      have hright := editDistance_concat_right_le a b y
      rw [editDistance_concat]
      omega

theorem editDistance_concat_le_concat (a b : Text) (x y : Char) :
    editDistance (a ++ [x]) b ≤ editDistance (a ++ [y]) b + 1 := by
  induction b using List.reverseRecOn with
  | nil => simp [editDistance_nil_right]
  | append_singleton b z ih =>
      rw [editDistance_concat, editDistance_concat]
      split <;> split <;> omega

/-- A text that is never more than one edit farther off than another one stays so with the same end behind both. -/
theorem editDistance_append_le (h : ∀ c, editDistance a c ≤ editDistance b c + 1) (back c : Text) :
    editDistance (a ++ back) c ≤ editDistance (b ++ back) c + 1 := by
  induction back using List.reverseRecOn generalizing c with
  | nil => simpa using h c
  | append_singleton back x ih =>
      rw [← List.append_assoc, ← List.append_assoc]
      induction c using List.reverseRecOn with
      | nil =>
          have hlength := ih []
          simp only [editDistance_nil_right, List.length_append, List.length_singleton] at hlength ⊢
          omega
      | append_singleton c y ihc =>
          have hup := ih (c ++ [y])
          have hdiagonal := ih c
          rw [editDistance_concat, editDistance_concat]
          omega

/-- An edit changes the distance to any text by at most one. -/
theorem editDistance_le_of_edit (h : Edit a b) (c : Text) : editDistance a c ≤ editDistance b c + 1 := by
  cases h with
  | insertion front back x =>
      simpa using editDistance_append_le (fun c => editDistance_le_concat_left front c x) back c
  | deletion front back x =>
      simpa using editDistance_append_le (fun c => editDistance_concat_left_le front c x) back c
  | substitution front back x y =>
      simpa using editDistance_append_le (fun c => editDistance_concat_le_concat front c x y) back c

/-! ## Scripts -/

/-- Whether a script of so many edits leads from one text to another. -/
inductive EditsTo : Nat → Text → Text → Prop
  | refl (a : Text) : EditsTo 0 a a
  | step {n : Nat} {a b c : Text} : Edit a b → EditsTo n b c → EditsTo (n + 1) a c

variable {m n : Nat}

namespace EditsTo

theorem trans (h : EditsTo m a b) (h' : EditsTo n b c) : EditsTo (m + n) a c := by
  induction h with
  | refl => simpa using h'
  | @step m a b d hedit _ ih => exact Nat.succ_add_eq_add_succ m n ▸ step hedit (ih h')

theorem single (h : Edit a b) : EditsTo 1 a b := step h (refl b)

theorem symm (h : EditsTo n a b) : EditsTo n b a := by
  induction h with
  | refl a => exact refl a
  | step hedit _ ih => exact ih.trans (single hedit.symm)

theorem append_right (h : EditsTo n a b) (c : Text) : EditsTo n (a ++ c) (b ++ c) := by
  induction h with
  | refl a => exact refl (a ++ c)
  | step hedit _ ih => exact step (hedit.append_right c) ih

theorem eq_of_zero (h : EditsTo 0 a b) : a = b := by
  cases h
  rfl

end EditsTo

theorem editDistance_self (a : Text) : editDistance a a = 0 := by
  induction a using List.reverseRecOn with
  | nil => exact editDistance_nil_left []
  | append_singleton a x ih =>
      rw [editDistance_concat, ih, if_pos rfl]
      omega

/-- No script is shorter than the distance. -/
theorem editDistance_le_of_editsTo (h : EditsTo n a b) : editDistance a b ≤ n := by
  induction h with
  | refl a => rw [editDistance_self]
  | @step n a c b hedit _ ih =>
      have hle := editDistance_le_of_edit hedit b
      omega

/-- Some script is as short as the distance. -/
theorem editsTo_editDistance (a b : Text) : EditsTo (editDistance a b) a b := by
  induction a using List.reverseRecOn generalizing b with
  | nil =>
      induction b using List.reverseRecOn with
      | nil => exact editDistance_self [] ▸ .refl []
      | append_singleton b y ih =>
          have hinsert : Edit b (b ++ [y]) := by simpa using Edit.insertion b [] y
          rw [editDistance_nil_left] at ih ⊢
          simpa using ih.trans (.single hinsert)
  | append_singleton a x iha =>
      have hdelete : Edit (a ++ [x]) a := by simpa using Edit.deletion a [] x
      induction b using List.reverseRecOn with
      | nil =>
          have hscript := iha []
          rw [editDistance_nil_right] at hscript ⊢
          simpa using EditsTo.step hdelete hscript
      | append_singleton b y ihb =>
          have hinsert : Edit b (b ++ [y]) := by simpa using Edit.insertion b [] y
          have hup : EditsTo (editDistance a (b ++ [y]) + 1) (a ++ [x]) (b ++ [y]) :=
            .step hdelete (iha (b ++ [y]))
          have hleft : EditsTo (editDistance (a ++ [x]) b + 1) (a ++ [x]) (b ++ [y]) :=
            ihb.trans (.single hinsert)
          have hdiagonal : EditsTo (editDistance a b + if x = y then 0 else 1) (a ++ [x]) (b ++ [y]) := by
            have happend := (iha b).append_right [x]
            by_cases hxy : x = y
            · rw [if_pos hxy, ← hxy]
              exact happend
            · have hsubstitute : Edit (b ++ [x]) (b ++ [y]) := Edit.substitution b [] x y
              rw [if_neg hxy]
              exact happend.trans (.single hsubstitute)
          -- the entry is one of the three that it is read off
          rw [editDistance_concat]
          rcases min_choice (min (editDistance a (b ++ [y]) + 1) (editDistance (a ++ [x]) b + 1))
            (editDistance a b + if x = y then 0 else 1) with h | h
          · rw [h]
            rcases min_choice (editDistance a (b ++ [y]) + 1) (editDistance (a ++ [x]) b + 1) with h | h
            · rwa [h]
            · rwa [h]
          · rwa [h]

/-- The distance is at most that of replacing one text by the other, character by character. -/
theorem editDistance_le_max (a b : Text) : editDistance a b ≤ max a.length b.length := by
  induction a using List.reverseRecOn generalizing b with
  | nil => simp [editDistance_nil_left]
  | append_singleton a x ih =>
      obtain rfl | ⟨b, y, rfl⟩ := List.eq_nil_or_concat' b
      · simp [editDistance_nil_right]
      · have hle := ih b
        rw [editDistance_concat, List.length_append, List.length_append, List.length_singleton, List.length_singleton]
        split <;> omega

theorem editDistance_comm (a b : Text) : editDistance a b = editDistance b a :=
  le_antisymm (editDistance_le_of_editsTo (editsTo_editDistance b a).symm)
    (editDistance_le_of_editsTo (editsTo_editDistance a b).symm)

theorem editDistance_eq_zero_iff : editDistance a b = 0 ↔ a = b := by
  constructor
  · intro hzero
    exact (hzero ▸ editsTo_editDistance a b).eq_of_zero
  · rintro rfl
    exact editDistance_self a

theorem editDistance_triangle (a b c : Text) : editDistance a c ≤ editDistance a b + editDistance b c :=
  editDistance_le_of_editsTo ((editsTo_editDistance a b).trans (editsTo_editDistance b c))

/-- A score is a share of one. -/
theorem similarity_mem_unit (a b : Text) : 0 ≤ similarity a b ∧ similarity a b ≤ 1 := by
  unfold similarity
  split
  · exact ⟨le_refl 0, zero_le_one⟩
  · have hmax : (editDistance a b : Rat) ≤ (max a.length b.length : Nat) :=
      Nat.cast_le.2 (editDistance_le_max a b)
    have hle : (editDistance a b : Rat) / (max a.length b.length : Nat) ≤ 1 :=
      div_le_one_of_le₀ hmax (Nat.cast_nonneg _)
    have hnonneg : 0 ≤ (editDistance a b : Rat) / (max a.length b.length : Nat) :=
      div_nonneg (Nat.cast_nonneg _) (Nat.cast_nonneg _)
    exact ⟨sub_nonneg.2 hle, sub_le_self 1 hnonneg⟩

/-- The distance of two texts is the least number of edits that turn one into the other; so it is a metric, it is at
most the length of the longer text, and scores lie between none and one. -/
theorem editDistance_isLeast (a b : Text) :
    IsLeast {n | EditsTo n a b} (editDistance a b) ∧ (editDistance a b = 0 ↔ a = b) ∧
      editDistance a b = editDistance b a ∧
      (∀ c, editDistance a c ≤ editDistance a b + editDistance b c) ∧
      editDistance a b ≤ max a.length b.length ∧ 0 ≤ similarity a b ∧ similarity a b ≤ 1 :=
  ⟨⟨editsTo_editDistance a b, fun _ hscript => editDistance_le_of_editsTo hscript⟩, editDistance_eq_zero_iff,
    editDistance_comm a b, editDistance_triangle a b, editDistance_le_max a b, similarity_mem_unit a b⟩

example : editDistance "kitten".toList "sitting".toList = 3 := by decide

end Scenarist
