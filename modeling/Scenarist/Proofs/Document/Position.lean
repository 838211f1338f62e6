import Scenarist.Proofs.Insertion

set_option autoImplicit false

/-! # Offsets and positions

The table of line starts is in increasing order, so halving it finds the last line that begins no later than an
offset. The number of this line is that of the line feeds in front of the offset, and the column is the distance
from the last of them. A position that was made of an offset leads back to it, unless the offset lies among the
carriage returns at the end of a line.

Main statements: `Document.lastBegun_of_iff` (the search) and `Document.positionAt_offsetAt`. -/

namespace Scenarist

open Text

namespace Text

/-! ## Line feeds -/

/-- How many characters stand behind the last line feed of a text; all of them if it has none. -/
def lengthBehindFeed (text : Text) : Nat := (text.reverse.takeWhile (· ≠ '\n')).length

theorem lengthBehindFeed_append (front : Text) {line : Text} (h : '\n' ∉ line) :
    lengthBehindFeed (front ++ line) = lengthBehindFeed front + line.length := by
  have hline : ∀ c ∈ line.reverse, decide (c ≠ '\n') = true := by
    intro c hc
    simp only [decide_eq_true_eq]
    rintro rfl
    exact h (List.mem_reverse.1 hc)
  rw [lengthBehindFeed, List.reverse_append, List.takeWhile_append_of_pos hline, List.length_append,
    List.length_reverse, Nat.add_comm]
  rfl

theorem lengthBehindFeed_flatMap (front : List Text) : lengthBehindFeed (front.flatMap (· ++ ['\n'])) = 0 := by
  rcases List.eq_nil_or_concat front with rfl | ⟨front, line, rfl⟩
  · rfl
  · simp [lengthBehindFeed]

/-- A text has one line more than line feeds. -/
theorem length_lines (text : Text) : (lines text).length = text.count '\n' + 1 := by
  unfold lines
  induction text with
  | nil => rfl
  | cons c cs ih =>
      obtain ⟨piece, pieces, hpieces⟩ := List.exists_cons_of_ne_nil (splitOn_ne_nil '\n' cs)
      rw [List.count_cons]
      by_cases hc : c = '\n'
      · simp [splitOn, hc, ih]
      · simpa [splitOn, hc, hpieces] using ih

end Text

namespace Document

variable {offset start line : Nat} {starts : List Nat} {text : Text}

/-! ## The table of line starts -/

theorem startsFrom_append (offset : Nat) (front back : Text) :
    startsFrom offset (front ++ back) = startsFrom offset front ++ startsFrom (offset + front.length) back := by
  induction front generalizing offset with
  | nil => rfl
  | cons c cs ih =>
      have hlength : offset + 1 + cs.length = offset + (c :: cs).length := by
        rw [List.length_cons]
        omega
      rw [List.cons_append, startsFrom, startsFrom, ih, hlength]
      split <;> rfl

theorem length_startsFrom (offset : Nat) (text : Text) : (startsFrom offset text).length = text.count '\n' := by
  induction text generalizing offset with
  | nil => rfl
  | cons c cs ih =>
      rw [startsFrom, List.count_cons]
      by_cases hc : c = '\n'
      · simp [hc, ih]
      · simp [hc, ih]

theorem lt_of_mem_startsFrom (h : start ∈ startsFrom offset text) :
    offset < start ∧ start ≤ offset + text.length := by
  induction text generalizing offset with
  | nil => exact absurd h List.not_mem_nil
  | cons c cs ih =>
      rw [List.length_cons]
      rw [startsFrom] at h
      split at h
      · rcases List.mem_cons.1 h with rfl | h
        · omega
        · have hrest := ih h
          omega
      · have hrest := ih h
        omega

/-- The last line of a text begins as far in front of the end as characters stand behind the last line feed. -/
theorem getLast?_startsFrom (offset : Nat) (text : Text) :
    ∃ last, (offset :: startsFrom offset text).getLast? = some last ∧
      last + lengthBehindFeed text = offset + text.length := by
  induction text using List.reverseRecOn with
  | nil => exact ⟨offset, rfl, rfl⟩
  | append_singleton front c ih =>
      obtain ⟨last, hlast, hlength⟩ := ih
      rw [startsFrom_append, List.length_append, List.length_singleton]
      by_cases hc : c = '\n'
      · refine ⟨offset + front.length + 1, ?_, ?_⟩
        · rw [startsFrom, if_pos hc, ← List.cons_append, startsFrom, List.getLast?_concat]
        · simp [lengthBehindFeed, hc]
          omega
      · refine ⟨last, ?_, ?_⟩
        · rw [startsFrom, if_neg hc, startsFrom, List.append_nil, hlast]
        · simp only [lengthBehindFeed, List.reverse_append, List.reverse_singleton, List.singleton_append] at hlength ⊢
          rw [List.takeWhile_cons_of_pos (by simpa using hc), List.length_cons]
          omega

/-! ## The search -/

/-- The search finds the last line that begins no later than an offset. It keeps all lines before `low` among those
that begin no later, `found` being the last of them, and all lines from `stop` on among the others. -/
theorem lastBegun_of_iff (hline : line < starts.length)
    (hiff : ∀ k < starts.length, starts.getD k 0 ≤ offset ↔ k ≤ line) {found low stop : Nat}
    (hfound : found = low - 1) (hlow : low ≤ line + 1) (hstop : line < stop) (hlength : stop ≤ starts.length) :
    lastBegun starts offset found low stop = line := by
  fun_induction lastBegun starts offset found low stop with
  | case1 found low stop hlt middle hbegun ih =>
      have hmiddle : middle ≤ line := (hiff middle (by omega)).1 hbegun
      exact ih (by omega) (by omega) hstop hlength
  | case2 found low stop hlt middle hbegun ih =>
      have hmiddle : ¬ middle ≤ line := fun hle => hbegun ((hiff middle (by omega)).2 hle)
      exact ih hfound hlow (by omega) (by omega)
  | case3 found low stop hdone => omega

/-- Of the lines of a text in two parts those that begin in the first part are as many as its line feeds, and the
first line. -/
theorem getD_startsFrom_le_iff (front back : Text) {k : Nat} (h : k < (0 :: startsFrom 0 (front ++ back)).length) :
    (0 :: startsFrom 0 (front ++ back)).getD k 0 ≤ front.length ↔ k ≤ front.count '\n' := by
  have hlength : (0 :: startsFrom 0 front).length = front.count '\n' + 1 := by
    rw [List.length_cons, length_startsFrom]
  rw [startsFrom_append, ← List.cons_append] at h ⊢
  rw [← List.getElem_eq_getD (h := h) 0]
  -- the lines that begin in the first part come first, and the others begin behind it
  by_cases hk : k < (0 :: startsFrom 0 front).length
  · have hmem : (0 :: startsFrom 0 front)[k] ∈ 0 :: startsFrom 0 front := List.getElem_mem hk
    rw [List.getElem_append_left hk]
    refine iff_of_true ?_ (by omega)
    rcases List.mem_cons.1 hmem with hzero | hstart
    · omega
    · have hle := (lt_of_mem_startsFrom hstart).2
      omega
  · have hk' : (0 :: startsFrom 0 front).length ≤ k := Nat.le_of_not_lt hk
    have hlt := (lt_of_mem_startsFrom (List.getElem_mem
      (show k - (0 :: startsFrom 0 front).length < (startsFrom (0 + front.length) back).length by
        rw [List.length_append] at h
        omega))).1
    rw [List.getElem_append_right hk']
    exact iff_of_false (by omega) (by omega)

/-- The last line that begins in the first part of a text begins behind the last line feed of this part. -/
theorem getD_startsFrom_count (front back : Text) :
    (0 :: startsFrom 0 (front ++ back)).getD (front.count '\n') 0 + lengthBehindFeed front = front.length := by
  obtain ⟨last, hlast, hlength⟩ := getLast?_startsFrom 0 front
  have hat : (0 :: startsFrom 0 front)[front.count '\n']? = some last := by
    rw [← hlast, List.getLast?_eq_getElem?, List.length_cons, length_startsFrom, Nat.add_sub_cancel]
  have hlt : front.count '\n' < (0 :: startsFrom 0 front).length := by
    rw [List.length_cons, length_startsFrom]
    omega
  rw [startsFrom_append, ← List.cons_append, List.getD_eq_getElem?_getD, List.getElem?_append_left hlt, hat,
    Option.getD_some, hlength, Nat.zero_add]

/-! ## The position of an offset -/

variable {document : Document}

theorem lineStarts_eq (document : Document) (place : Nat) : document.lineStarts =
    0 :: startsFrom 0 (document.text.take place ++ document.text.drop place) := by
  rw [List.take_append_drop]
  rfl

/-- The line of an offset begins behind the last line feed in front of the offset. -/
theorem getD_lineStarts_count {place : Nat} (hplace : place ≤ document.text.length) :
    document.lineStarts.getD ((document.text.take place).count '\n') 0 +
      lengthBehindFeed (document.text.take place) = place := by
  have hstart := getD_startsFrom_count (document.text.take place) (document.text.drop place)
  rwa [← lineStarts_eq, List.length_take_of_le hplace] at hstart

theorem count_take_lt (document : Document) (place : Nat) :
    (document.text.take place).count '\n' < document.lineStarts.length := by
  rw [lineStarts_eq document place, startsFrom_append, List.length_cons, List.length_append, length_startsFrom]
  omega

/-- A line begins no later than an offset if and only if no more lines are above it than line feeds are in front of
the offset. -/
theorem getD_lineStarts_le_iff {place k : Nat} (hplace : place ≤ document.text.length)
    (h : k < document.lineStarts.length) :
    document.lineStarts.getD k 0 ≤ place ↔ k ≤ (document.text.take place).count '\n' := by
  rw [lineStarts_eq document place] at h ⊢
  have hiff := getD_startsFrom_le_iff _ _ h
  rwa [List.length_take_of_le hplace] at hiff

/-- The line of an offset is told by the line feeds in front of it, and the column by the distance from the last of
them. -/
theorem positionAt_eq (document : Document) (offset : Int) :
    document.positionAt offset =
      ((document.text.take (min offset.toNat document.text.length)).count '\n',
        lengthBehindFeed (document.text.take (min offset.toNat document.text.length))) := by
  unfold positionAt positionBy
  have hle : min offset.toNat document.text.length ≤ document.text.length := Nat.min_le_right _ _
  generalize min offset.toNat document.text.length = place at hle ⊢
  have hline : lastBegun document.lineStarts place 0 0 document.lineStarts.length =
      (document.text.take place).count '\n' :=
    lastBegun_of_iff (count_take_lt document place) (fun _ hk => getD_lineStarts_le_iff hle hk) rfl (Nat.zero_le _)
      (count_take_lt document place) (Nat.le_refl _)
  have hcolumn := getD_lineStarts_count hle
  simp only [hline, Prod.mk.injEq, true_and]
  omega

theorem lineCount_eq (document : Document) : document.lineCount = (Text.lines document.text).length := by
  rw [lineCount, lineStarts, List.length_cons, length_startsFrom, length_lines]

/-- A column on a line, taken to the nearest end of it, is found again as the position of its offset. -/
theorem positionAt_offsetAt_of_lt (hline : line < document.lineCount) (column : Int) :
    document.positionAt (document.offsetAt line column) =
      (line, min column.toNat (document.lineAt line).length) := by
  rw [lineCount_eq] at hline
  obtain ⟨front, raw, back, hlines, rfl⟩ : ∃ front raw back,
      Text.lines document.text = front ++ raw :: back ∧ front.length = line := by
    refine ⟨_, (Text.lines document.text)[line], (Text.lines document.text).drop (line + 1), ?_,
      List.length_take_of_le (Nat.le_of_lt hline)⟩
    rw [List.getElem_cons_drop hline, List.take_append_drop]
  obtain ⟨n, hraw, htext⟩ := exists_text_eq hlines
  have hfree : ∀ l ∈ front ++ raw :: back, '\n' ∉ l := fun l hl => not_mem_of_mem_lines (hlines ▸ hl)
  have hshown : '\n' ∉ (trimReturns raw).take (min column.toNat (trimReturns raw).length) := by
    have hmem := hfree raw (by simp)
    rw [hraw] at hmem
    exact fun hfeed => hmem (List.mem_append_left _ (List.mem_of_mem_take hfeed))
  -- what stands in front of the offset: the lines above, and the columns of the line in front of this one
  have htake : document.text.take (document.offsetAt front.length column) =
      front.flatMap (· ++ ['\n']) ++ (trimReturns raw).take (min column.toNat (trimReturns raw).length) := by
    rw [offsetAt_of_lines hlines]
    conv_lhs => rw [htext]
    rw [List.append_assoc, List.take_length_add_append, List.take_append_of_le_length (Nat.min_le_right _ _)]
  have hle : document.offsetAt front.length column ≤ document.text.length := by
    rw [offsetAt_of_lines hlines]
    conv_rhs => rw [htext]
    simp only [List.length_append]
    omega
  rw [positionAt_eq, Int.toNat_natCast, Nat.min_eq_left hle, htake, lineAt_of_lines hlines,
    List.count_append, count_flatMap_concat fun l hl => hfree l (List.mem_append_left _ hl),
    List.count_eq_zero_of_not_mem hshown, lengthBehindFeed_append _ hshown, lengthBehindFeed_flatMap,
    List.length_take]
  simp

/-- The offset of a position that was made of an offset is this offset, or the end of the line if the offset lies
behind it. -/
theorem offsetAt_positionAt_eq (document : Document) (offset : Int) :
    document.offsetAt (document.positionAt offset).1 (document.positionAt offset).2 =
      min (min offset.toNat document.text.length)
        (min offset.toNat document.text.length - (document.positionAt offset).2 +
          (document.lineAt (document.positionAt offset).1).length) := by
  rw [positionAt_eq]
  have hle : min offset.toNat document.text.length ≤ document.text.length := Nat.min_le_right _ _
  generalize min offset.toNat document.text.length = place at hle ⊢
  have hstart := getD_lineStarts_count hle
  have hlt := count_take_lt document place
  rw [← List.getElem_eq_getD (h := hlt)] at hstart
  show offsetBy document.lineStarts document.text _ _ = _
  rw [offsetBy, List.getElem?_eq_getElem hlt]
  show _ + min _ (document.lineAt _).length = _
  rw [Int.toNat_natCast]
  omega

/-! ## Positions and offsets -/

/-- A position on a line and its offset lead to each other, columns being taken to the nearest end of the line. The
position of an offset inside the text is told by the line feeds in front of it; its line is the last one that
begins no later; and it leads back to the offset, or to the end of the line from behind it. -/
theorem positionAt_offsetAt (document : Document) :
    (∀ line < document.lineCount, ∀ column : Int,
      document.positionAt (document.offsetAt line column) =
        (line, min column.toNat (document.lineAt line).length)) ∧
    ∀ offset : Int,
      let place := min offset.toNat document.text.length
      let line := (document.positionAt offset).1
      let column := (document.positionAt offset).2
      let lineEnd := place - column + (document.lineAt line).length
      line = (document.text.take place).count '\n' ∧ column = lengthBehindFeed (document.text.take place) ∧
      (∀ k start, document.lineStarts[k]? = some start → (start ≤ place ↔ k ≤ line)) ∧
      document.offsetAt line column = if place ≤ lineEnd then place else lineEnd := by
  refine ⟨fun line hline column => positionAt_offsetAt_of_lt hline column, fun offset => ?_⟩
  have hposition := positionAt_eq document offset
  refine ⟨congrArg Prod.fst hposition, congrArg Prod.snd hposition, fun k start hstart => ?_, ?_⟩
  · obtain ⟨hlt, rfl⟩ := List.getElem?_eq_some_iff.1 hstart
    rw [hposition, List.getElem_eq_getD 0]
    exact getD_lineStarts_le_iff (Nat.min_le_right _ _) hlt
  · rw [offsetAt_positionAt_eq, Nat.min_def]

/-- A document with carriage returns at the ends of its lines, the last one without a line feed. -/
def returning : Document := { uri := "/a".toList, text := "ab\r\n\r\ncd\r".toList }

/-- A column far behind the last line is taken to its end, and an offset between carriage return and line feed to the
end of the first line. -/
theorem positionAt_offsetAt_returning :
    2 < returning.lineCount ∧ returning.positionAt (returning.offsetAt 2 7) = (2, 2) ∧
      returning.positionAt 3 = (0, 3) ∧ returning.offsetAt 0 3 = 2 := by
  have hline : 2 < returning.lineCount := by decide
  have hplace : returning.positionAt 3 = (0, 3) := by decide +kernel
  have hback := ((positionAt_offsetAt returning).2 3).2.2.2
  rw [hplace] at hback
  exact ⟨hline, (positionAt_offsetAt returning).1 2 hline 7, hplace, hback⟩

end Document

end Scenarist
