import Scenarist.Text.Order
import Mathlib.Data.Char
import Mathlib.Data.List.Lex

set_option autoImplicit false

/-! # Sorted texts

The order of texts by code points is that of lists of characters, hence total, so what is sorted by texts is in
their order.

Main statements: `le_iff` and `pairwise_sortBy`. -/

namespace Scenarist.Text

/-- The order by code points is that of lists. -/
theorem le_iff {a b : Text} : le a b = true ↔ a ≤ b := by
  rw [← not_lt]
  induction a generalizing b with
  | nil => simp [le]
  | cons c cs ih =>
      cases b with
      | nil => simp [le]
      | cons d ds =>
          rw [le, Bool.or_eq_true, Bool.and_eq_true, ih, List.cons_lt_cons_iff, decide_eq_true_iff, decide_eq_true_iff]
          constructor
          · rintro (hlt | ⟨rfl, hle⟩) (hgt | ⟨heq, hgt⟩)
            · exact lt_asymm hlt hgt
            · exact hlt.ne' heq
            · exact lt_irrefl c hgt
            · exact hle hgt
          · intro hnot
            rcases lt_trichotomy c d with hlt | rfl | hgt
            · exact Or.inl hlt
            · exact Or.inr ⟨rfl, fun hgt => hnot (Or.inr ⟨rfl, hgt⟩)⟩
            · exact absurd (Or.inl hgt) hnot

variable {α : Type}

/-- Values sorted by texts are in the order of these. -/
theorem pairwise_sortBy (key : α → Text) (values : List α) :
    ((sortBy key values).map key).Pairwise fun a b => le a b = true := by
  rw [List.pairwise_map]
  refine List.pairwise_mergeSort (fun a b c hab hbc => ?_) (fun a b => ?_) values
  · exact le_iff.2 (le_trans (le_iff.1 hab) (le_iff.1 hbc))
  · rw [Bool.or_eq_true, le_iff, le_iff]
    exact le_total (key a) (key b)

theorem mem_sortBy {key : α → Text} {values : List α} {value : α} :
    value ∈ sortBy key values ↔ value ∈ values :=
  List.mem_mergeSort

theorem perm_sortBy (key : α → Text) (values : List α) : (sortBy key values).Perm values :=
  List.mergeSort_perm values _

end Scenarist.Text
