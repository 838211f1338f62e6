import Scenarist.Proofs.Text.LineEnd

set_option autoImplicit false

/-! # Paired line feeds

A text is paired if every line feed in it follows a carriage return. A part of a text is looked at behind
what stands in front of it, since it may begin with the line feed of a pair.

Main statements: `LineEnd.isPaired_iff_lines` (paired texts by their lines) and
`LineEnd.isPairedBehind_append` (a text in two parts). -/

namespace Scenarist

namespace LineEnd

open Text

/-- Whether every line feed of a text that stands behind another one follows a carriage return. -/
def IsPairedBehind (front text : Text) : Prop :=
  ∀ before after, text = before ++ '\n' :: after → (front ++ before).getLast? = some '\r'

/-- Whether every line feed of a text follows a carriage return. -/
def IsPaired (text : Text) : Prop :=
  ∀ before after, text = before ++ '\n' :: after → before.getLast? = some '\r'

variable {front front' text : Text}

/-! ## Parts -/

theorem isPairedBehind_nil (text : Text) : IsPairedBehind [] text ↔ IsPaired text := Iff.rfl

theorem isPairedBehind_of_not_mem (front : Text) (h : '\n' ∉ text) : IsPairedBehind front text := by
  rintro before after rfl
  exact absurd (by simp) h

theorem isPairedBehind_cons (front : Text) (c : Char) (text : Text) :
    IsPairedBehind front (c :: text) ↔
      (c = '\n' → front.getLast? = some '\r') ∧ IsPairedBehind (front ++ [c]) text := by
  constructor
  · refine fun h => ⟨?_, fun before after heq => ?_⟩
    · rintro rfl
      simpa using h [] text rfl
    · have hlast := h (c :: before) after (by rw [heq, List.cons_append])
      rwa [List.append_assoc, List.singleton_append]
  · rintro ⟨hhere, hrest⟩ before after heq
    cases before with
    | nil =>
        obtain ⟨rfl, -⟩ := List.cons.inj heq
        rw [List.append_nil]
        exact hhere rfl
    | cons d before =>
        obtain ⟨rfl, rfl⟩ := List.cons.inj heq
        have hlast := hrest before after rfl
        rwa [List.append_assoc, List.singleton_append] at hlast

/-- A text in two parts: the second stands behind the first. -/
theorem isPairedBehind_append (front text others : Text) :
    IsPairedBehind front (text ++ others) ↔
      IsPairedBehind front text ∧ IsPairedBehind (front ++ text) others := by
  induction text generalizing front with
  | nil => simpa using fun _ => isPairedBehind_of_not_mem front List.not_mem_nil
  | cons c text ih =>
      rw [List.cons_append, isPairedBehind_cons, ih, isPairedBehind_cons, and_assoc, List.append_assoc,
        List.singleton_append]

/-- Only the last character in front of a text matters. -/
theorem IsPairedBehind.congr (h : IsPairedBehind front text) (hlast : front.getLast? = front'.getLast?) :
    IsPairedBehind front' text := by
  cases text with
  | nil => exact isPairedBehind_of_not_mem front' List.not_mem_nil
  | cons c text =>
      rw [isPairedBehind_cons] at h ⊢
      refine ⟨hlast ▸ h.1, fun before after heq => ?_⟩
      have hbehind := h.2 before after heq
      simpa [List.getLast?_append] using hbehind

theorem isPairedBehind_flatMap {α : Type} {items : List α} {write : α → Text}
    (h : ∀ item ∈ items, ∀ front, IsPairedBehind front (write item)) (front : Text) :
    IsPairedBehind front (items.flatMap write) := by
  induction items generalizing front with
  | nil => exact isPairedBehind_of_not_mem front List.not_mem_nil
  | cons item items ih =>
      rw [List.flatMap_cons, isPairedBehind_append]
      exact ⟨h item List.mem_cons_self front, ih (fun x hx => h x (List.mem_cons_of_mem _ hx)) _⟩

theorem isPairedBehind_crlf (front : Text) : IsPairedBehind front ['\r', '\n'] := by
  rw [isPairedBehind_cons, isPairedBehind_cons]
  exact ⟨fun h => absurd h (by decide), fun _ => by simp,
    isPairedBehind_of_not_mem _ List.not_mem_nil⟩

/-! ## Lines -/

theorem eq_flatMap_append_of_lines {front : List Text} {last : Text} (h : lines text = front ++ [last]) :
    text = front.flatMap (· ++ ['\n']) ++ last := by
  rw [← unlines_lines text, h, unlines_append front (by simp)]
  exact congrArg _ (joinWith_singleton ['\n'] last)

theorem getLast?_flatMap_append_iff (front : List Text) (line : Text) :
    (front.flatMap (· ++ ['\n']) ++ line).getLast? = some '\r' ↔ line.getLast? = some '\r' := by
  rcases List.eq_nil_or_concat line with rfl | ⟨stem, c, rfl⟩
  · rcases List.eq_nil_or_concat front with rfl | ⟨before, l, rfl⟩
    · simp
    · simp [List.flatMap_append]
  · simp

/-- A text is paired exactly if every line but the last ends with a carriage return. -/
theorem isPaired_iff_lines :
    IsPaired text ↔ ∀ line ∈ (lines text).dropLast, line.getLast? = some '\r' := by
  constructor
  · intro h line hline
    obtain ⟨front, last, hlines⟩ := exists_lines_eq_concat text
    rw [hlines, List.dropLast_concat] at hline
    obtain ⟨before, after, rfl⟩ := List.append_of_mem hline
    refine (getLast?_flatMap_append_iff before line).1 ?_
    obtain ⟨next, others, hnext⟩ := List.exists_cons_of_ne_nil (l := after ++ [last]) (by simp)
    -- the text up to the line stands in front of a line feed
    refine h _ (unlines (next :: others)) ?_
    calc text = unlines (before ++ line :: (after ++ [last])) := by
          rw [← unlines_lines text, hlines, List.append_assoc, List.cons_append]
      _ = before.flatMap (· ++ ['\n']) ++ unlines (line :: next :: others) := by
          rw [unlines_append before (by simp), hnext]
      _ = before.flatMap (· ++ ['\n']) ++ line ++ '\n' :: unlines (next :: others) := by
          rw [unlines, joinWith_cons_cons]
          simp [unlines]
  · rintro h before after rfl
    -- what stands in front of the line feed ends with a line of the text, which is not the last one
    obtain ⟨front, last, hlines⟩ := exists_lines_eq_concat before
    rw [eq_flatMap_append_of_lines hlines]
    refine (getLast?_flatMap_append_iff front last).2 (h last ?_)
    rw [lines_append_cons, hlines, List.dropLast_append_of_ne_nil (lines_ne_nil after)]
    simp

instance : DecidablePred IsPaired := fun _ => decidable_of_iff _ isPaired_iff_lines.symm

theorem IsPaired.ofText_eq (h : IsPaired text) (hmem : '\n' ∈ text) : ofText text = crlf := by
  obtain ⟨before, after, rfl⟩ := List.append_of_mem hmem
  obtain ⟨stem, rfl⟩ := List.getLast?_eq_some_iff.1 (h before after rfl)
  exact ofText_eq_crlf_iff.2 ⟨stem, after, by simp⟩

/-! ## Joined pieces -/

/-- The lines of pieces that were joined by pairs. -/
theorem lines_joinWith_crlf {pieces : List Text} {last : Text} (h : ∀ p ∈ pieces ++ [last], '\n' ∉ p) :
    lines (joinWith crlf.text (pieces ++ [last])) = pieces.map (· ++ ['\r']) ++ [last] := by
  induction pieces with
  | nil =>
      rw [List.nil_append, joinWith_singleton]
      exact lines_of_not_mem (h last (by simp))
  | cons p pieces ih =>
      obtain ⟨q, others, hq⟩ := List.exists_cons_of_ne_nil (l := pieces ++ [last]) (by simp)
      have hp : '\n' ∉ p ++ ['\r'] := by simp [h p (by simp)]
      have hrest := ih fun x hx => h x (by simpa using Or.inr hx)
      rw [hq] at hrest
      rw [List.cons_append, hq, joinWith_cons_cons]
      have hsplit : p ++ crlf.text ++ joinWith crlf.text (q :: others) =
          (p ++ ['\r']) ++ '\n' :: joinWith crlf.text (q :: others) := by simp [LineEnd.text]
      rw [hsplit, lines_cons_append_cons hp, hrest]
      rfl

end LineEnd

end Scenarist
