import Scenarist.Text.Basic
import Mathlib.Data.List.Forall2
import Mathlib.Data.List.TakeWhile

set_option autoImplicit false

/-! # Cutting texts and joining the pieces

Lines that hold no line feed are what a text is cut into, whichever way it was put together: joined by
line feeds, joined by carriage-return line-feed pairs, or written in front of and behind other lines.

Main statements: `lines_unlines` (cutting undoes joining), `splitOnCrlf_joinWith` (the same for pairs)
and `lines_between` (the lines of a text put between whole lines). -/

namespace Scenarist.Text

/-! ## Pieces that correspond -/

/-- What stands in the second of two lists that correspond has a partner in the first. -/
theorem exists_mem_of_forall₂ {α β : Type} {R : α → β → Prop} {as : List α} {bs : List β}
    (h : List.Forall₂ R as bs) {b : β} (hb : b ∈ bs) : ∃ a ∈ as, R a b := by
  induction h with
  | nil => exact absurd hb List.not_mem_nil
  | @cons a _ as _ hab _ ih =>
      rcases List.mem_cons.1 hb with rfl | hb
      · exact ⟨a, List.mem_cons_self, hab⟩
      · obtain ⟨found, hfound, hr⟩ := ih hb
        exact ⟨found, List.mem_cons_of_mem a hfound, hr⟩

/-! ## Prefixes -/

theorem after?_append (start rest : Text) : after? start (start ++ rest) = some rest := by
  induction start with
  | nil => rfl
  | cons c cs ih => simp [after?, ih]

theorem after?_eq_some_iff {start text rest : Text} :
    after? start text = some rest ↔ text = start ++ rest := by
  constructor
  · intro h
    induction start generalizing text with
    | nil => simpa [after?] using h
    | cons p ps ih =>
        cases text with
        | nil => simp [after?] at h
        | cons c cs =>
            simp only [after?] at h
            split at h
            · next hpc => rw [hpc, ih h, List.cons_append]
            · simp at h
  · rintro rfl
    exact after?_append start rest

theorem contains_iff {needle text : Text} :
    contains needle text = true ↔ ∃ a b, text = a ++ needle ++ b := by
  -- the cut is made at the first occurrence, which need not be the one that is given
  have key : ∀ a b, (cutAt? needle (a ++ needle ++ b)).isSome := by
    intro a b
    induction a with
    | nil =>
        have h := after?_append needle b
        rw [List.nil_append]
        cases hn : needle ++ b with
        | nil =>
            rw [hn] at h
            obtain ⟨rfl, -⟩ := List.append_eq_nil_iff.1 hn
            rfl
        | cons c cs =>
            rw [hn] at h
            simp [cutAt?, h]
    | cons c cs ih =>
        simp only [List.cons_append, cutAt?]
        split
        · rfl
        · simpa using ih
  constructor
  · intro h
    induction text with
    | nil =>
        obtain ⟨cut, hcut⟩ := Option.isSome_iff_exists.1 h
        simp only [cutAt?, Option.map_eq_some_iff] at hcut
        obtain ⟨rest, hrest, -⟩ := hcut
        exact ⟨[], rest, after?_eq_some_iff.1 hrest⟩
    | cons c cs ih =>
        simp only [contains, cutAt?] at h ih
        split at h
        · next rest hrest => exact ⟨[], rest, after?_eq_some_iff.1 hrest⟩
        · obtain ⟨a, b, hab⟩ := ih (by simpa using h)
          exact ⟨c :: a, b, by simp [hab]⟩
  · rintro ⟨a, b, rfl⟩
    exact key a b

/-! ## Cutting at line feeds -/

theorem splitOn_append_cons (sep : Char) (a b : Text) :
    splitOn sep (a ++ sep :: b) = splitOn sep a ++ splitOn sep b := by
  induction a with
  | nil => simp [splitOn]
  | cons c cs ih =>
      by_cases h : c = sep
      · simp [splitOn, h, ih]
      · obtain ⟨piece, pieces, hp⟩ := List.exists_cons_of_ne_nil (splitOn_ne_nil sep cs)
        simp [splitOn, h, ih, hp]

theorem splitOn_of_not_mem {sep : Char} {text : Text} (h : sep ∉ text) :
    splitOn sep text = [text] := by
  induction text with
  | nil => rfl
  | cons c cs ih =>
      have hc : c ≠ sep := fun e => h (e ▸ List.mem_cons_self)
      have hcs : sep ∉ cs := fun m => h (List.mem_cons_of_mem _ m)
      simp [splitOn, hc, ih hcs]

theorem not_mem_of_mem_splitOn {sep : Char} {text piece : Text} (h : piece ∈ splitOn sep text) :
    sep ∉ piece := by
  induction text generalizing piece with
  | nil =>
      have : piece = [] := by simpa [splitOn] using h
      simp [this]
  | cons c cs ih =>
      obtain ⟨first, others, hp⟩ := List.exists_cons_of_ne_nil (splitOn_ne_nil sep cs)
      by_cases hc : c = sep
      · simp only [splitOn, hc, if_true, List.mem_cons] at h
        rcases h with rfl | h
        · simp
        · exact ih h
      · simp only [splitOn, hc, if_false, hp, List.mem_cons] at h
        rcases h with rfl | h
        · have := ih (hp ▸ List.mem_cons_self)
          simp [this, Ne.symm hc]
        · exact ih (hp ▸ List.mem_cons_of_mem _ h)

theorem mem_of_mem_splitOn {sep c : Char} {text piece : Text} (hpiece : piece ∈ splitOn sep text)
    (hc : c ∈ piece) : c ∈ text := by
  induction text generalizing piece with
  | nil =>
      obtain rfl : piece = [] := by simpa [splitOn] using hpiece
      exact absurd hc List.not_mem_nil
  | cons d ds ih =>
      obtain ⟨first, others, hp⟩ := List.exists_cons_of_ne_nil (splitOn_ne_nil sep ds)
      simp only [splitOn, hp] at hpiece
      split at hpiece
      · rcases List.mem_cons.1 hpiece with rfl | hpiece
        · exact absurd hc List.not_mem_nil
        · exact List.mem_cons_of_mem _ (ih (hp ▸ hpiece) hc)
      · rcases List.mem_cons.1 hpiece with rfl | hpiece
        · rcases List.mem_cons.1 hc with rfl | hc
          · exact List.mem_cons_self
          · exact List.mem_cons_of_mem _ (ih (hp ▸ List.mem_cons_self) hc)
        · exact List.mem_cons_of_mem _ (ih (hp ▸ List.mem_cons_of_mem _ hpiece) hc)

theorem not_mem_of_mem_lines {text line : Text} (h : line ∈ lines text) : '\n' ∉ line :=
  not_mem_of_mem_splitOn h

theorem lines_of_not_mem {text : Text} (h : '\n' ∉ text) : lines text = [text] :=
  splitOn_of_not_mem h

/-- The first line of a text ends at its first line feed. -/
theorem exists_lines_eq_cons (text : Text) :
    ∃ others, lines text = text.takeWhile (· ≠ '\n') :: others := by
  by_cases h : '\n' ∈ text
  · obtain ⟨front, back, rfl, hfront⟩ := List.eq_append_cons_of_mem h
    have hall : ∀ c ∈ front, decide (c ≠ '\n') = true := by
      intro c hc
      simp only [decide_eq_true_eq]
      rintro rfl
      exact hfront hc
    refine ⟨lines back, ?_⟩
    rw [List.takeWhile_append_of_pos hall]
    show splitOn '\n' (front ++ '\n' :: back) = _
    rw [splitOn_append_cons, splitOn_of_not_mem hfront]
    simp [lines]
  · refine ⟨[], ?_⟩
    rw [lines_of_not_mem h, List.takeWhile_eq_self_iff.2]
    intro c hc
    simp only [decide_eq_true_eq]
    rintro rfl
    exact h hc

theorem lines_append_cons (a b : Text) : lines (a ++ '\n' :: b) = lines a ++ lines b :=
  splitOn_append_cons '\n' a b

theorem lines_cons_append_cons {line : Text} (h : '\n' ∉ line) (b : Text) :
    lines (line ++ '\n' :: b) = line :: lines b := by
  rw [lines_append_cons, lines_of_not_mem h, List.singleton_append]

theorem joinWith_cons_cons (sep a b : Text) (texts : List Text) :
    joinWith sep (a :: b :: texts) = a ++ sep ++ joinWith sep (b :: texts) :=
  List.intercalate_cons_cons

theorem joinWith_singleton (sep a : Text) : joinWith sep [a] = a := by
  simp [joinWith, List.intercalate]

theorem joinWith_cons (sep first : Text) (others : List Text) :
    joinWith sep (first :: others) = first ++ others.flatMap (sep ++ ·) := by
  induction others generalizing first with
  | nil => rw [joinWith_singleton, List.flatMap_nil, List.append_nil]
  | cons second others ih =>
      rw [joinWith_cons_cons, ih, List.flatMap_cons, List.append_assoc, List.append_assoc]

theorem unlines_append (front : List Text) {more : List Text} (hne : more ≠ []) :
    unlines (front ++ more) = front.flatMap (· ++ ['\n']) ++ unlines more := by
  induction front with
  | nil => rfl
  | cons l ls ih =>
      obtain ⟨m, ms, hm⟩ := List.exists_cons_of_ne_nil (l := ls ++ more) (by simp [hne])
      rw [List.cons_append, List.flatMap_cons, List.append_assoc, ← ih, hm]
      exact joinWith_cons_cons ['\n'] l m ms

/-- Cutting a text undoes the joining of pieces that do not hold the separator. -/
theorem splitOn_joinWith {sep : Char} {pieces : List Text} (hne : pieces ≠ [])
    (h : ∀ p ∈ pieces, sep ∉ p) : splitOn sep (joinWith [sep] pieces) = pieces := by
  induction pieces with
  | nil => exact absurd rfl hne
  | cons p ps ih =>
      have hp := h p List.mem_cons_self
      cases ps with
      | nil => rw [joinWith_singleton, splitOn_of_not_mem hp]
      | cons q qs =>
          rw [joinWith_cons_cons, List.append_assoc, List.singleton_append, splitOn_append_cons,
            splitOn_of_not_mem hp, ih (by simp) fun x hx => h x (List.mem_cons_of_mem _ hx),
            List.singleton_append]

/-- Cutting a text into lines undoes the joining of lines. -/
theorem lines_unlines {texts : List Text} (hne : texts ≠ []) (h : ∀ l ∈ texts, '\n' ∉ l) :
    lines (unlines texts) = texts :=
  splitOn_joinWith hne h

/-- The lines of a text in front of which a piece without a line feed is written. -/
theorem lines_append {start : Text} (h : '\n' ∉ start) {text first : Text} {others : List Text}
    (ht : lines text = first :: others) : lines (start ++ text) = (start ++ first) :: others := by
  have htext : text = unlines (first :: others) := by rw [← ht, unlines_lines]
  have hfirst : '\n' ∉ first := not_mem_of_mem_lines (ht ▸ List.mem_cons_self)
  have hjoin : start ++ text = unlines ((start ++ first) :: others) := by
    rw [htext]
    cases others with
    | nil => simp [unlines, joinWith_singleton]
    | cons l ls => simp [unlines, joinWith_cons_cons]
  rw [hjoin, lines_unlines (by simp)]
  intro l hl
  rcases List.mem_cons.1 hl with rfl | hl
  · simp [h, hfirst]
  · exact not_mem_of_mem_lines (ht ▸ List.mem_cons_of_mem _ hl)

theorem lines_front {above : List Text} (h : ∀ l ∈ above, '\n' ∉ l) (text : Text) :
    lines (above.flatMap (· ++ ['\n']) ++ text) = above ++ lines text := by
  induction above with
  | nil => rfl
  | cons l ls ih =>
      have hl := h l List.mem_cons_self
      have hls := fun x hx => h x (List.mem_cons_of_mem l hx)
      simp only [List.flatMap_cons, List.append_assoc, List.cons_append, List.nil_append]
      rw [lines_cons_append_cons hl, ih hls]

theorem lines_back {below : List Text} (h : ∀ l ∈ below, '\n' ∉ l) (text : Text) :
    lines (text ++ below.flatMap ('\n' :: ·)) = lines text ++ below := by
  induction below generalizing text with
  | nil => simp
  | cons l ls ih =>
      have hls := fun x hx => h x (List.mem_cons_of_mem l hx)
      have hl : lines l = [l] := lines_of_not_mem (h l List.mem_cons_self)
      simp only [List.flatMap_cons, List.cons_append]
      rw [lines_append_cons, ih hls, hl, List.singleton_append]

/-- The lines of a text that stands between whole lines. -/
theorem lines_between {above below : List Text} (habove : ∀ l ∈ above, '\n' ∉ l)
    (hbelow : ∀ l ∈ below, '\n' ∉ l) (text : Text) :
    lines (above.flatMap (· ++ ['\n']) ++ text ++ below.flatMap ('\n' :: ·)) =
      above ++ lines text ++ below := by
  rw [List.append_assoc, lines_front habove, lines_back hbelow, List.append_assoc]

/-! ## Cutting at carriage-return line-feed pairs -/

theorem splitOnCrlf_ne_nil (text : Text) : splitOnCrlf text ≠ [] := by
  fun_cases splitOnCrlf text <;> simp

theorem joinWith_splitOnCrlf (text : Text) : joinWith ['\r', '\n'] (splitOnCrlf text) = text := by
  fun_induction splitOnCrlf text with
  | case1 => rfl
  | case2 cs ih =>
      obtain ⟨piece, pieces, hp⟩ := List.exists_cons_of_ne_nil (splitOnCrlf_ne_nil cs)
      rw [hp] at ih ⊢
      rw [joinWith_cons_cons, ih]
      rfl
  | case3 c cs _ hnil => exact absurd hnil (splitOnCrlf_ne_nil cs)
  | case4 c cs _ piece pieces hp ih =>
      rw [hp] at ih
      cases pieces with
      | nil =>
          rw [joinWith_singleton] at ih ⊢
          rw [ih]
      | cons q qs =>
          rw [joinWith_cons_cons] at ih ⊢
          rw [List.cons_append, List.cons_append, ih]

theorem splitOnCrlf_cons {c : Char} {cs : Text} (h : ∀ rest, c :: cs ≠ '\r' :: '\n' :: rest)
    {piece : Text} {pieces : List Text} (hp : splitOnCrlf cs = piece :: pieces) :
    splitOnCrlf (c :: cs) = (c :: piece) :: pieces := by
  rw [splitOnCrlf, hp]
  rintro rest rfl rfl
  exact h rest rfl

theorem splitOnCrlf_of_not_mem {text : Text} (h : '\n' ∉ text) : splitOnCrlf text = [text] := by
  induction text with
  | nil => rfl
  | cons c cs ih =>
      have hcs : '\n' ∉ cs := fun m => h (List.mem_cons_of_mem _ m)
      refine splitOnCrlf_cons ?_ (ih hcs)
      rintro rest heq
      simp only [List.cons.injEq] at heq
      simp [heq.2] at hcs

theorem splitOnCrlf_append {piece : Text} (h : '\n' ∉ piece) (text : Text) :
    splitOnCrlf (piece ++ '\r' :: '\n' :: text) = piece :: splitOnCrlf text := by
  induction piece with
  | nil => rfl
  | cons c cs ih =>
      have hcs : '\n' ∉ cs := fun m => h (List.mem_cons_of_mem _ m)
      rw [List.cons_append]
      refine splitOnCrlf_cons ?_ (ih hcs)
      rintro rest heq
      cases cs with
      | nil => simp at heq
      | cons d ds =>
          simp only [List.cons_append, List.cons.injEq] at heq
          simp [heq.2.1] at hcs

/-- Cutting a text at its pairs undoes the joining of pieces without line feeds. -/
theorem splitOnCrlf_joinWith {pieces : List Text} (hne : pieces ≠ [])
    (h : ∀ p ∈ pieces, '\n' ∉ p) : splitOnCrlf (joinWith ['\r', '\n'] pieces) = pieces := by
  induction pieces with
  | nil => exact absurd rfl hne
  | cons p ps ih =>
      have hp := h p List.mem_cons_self
      cases ps with
      | nil => rw [joinWith_singleton, splitOnCrlf_of_not_mem hp]
      | cons q qs =>
          rw [joinWith_cons_cons, List.append_assoc]
          show splitOnCrlf (p ++ '\r' :: '\n' :: joinWith ['\r', '\n'] (q :: qs)) = _
          rw [splitOnCrlf_append hp, ih (by simp) fun x hx => h x (List.mem_cons_of_mem _ hx)]

end Scenarist.Text
