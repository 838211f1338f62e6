import Scenarist.Proofs.Scalar
import Scenarist.Proofs.Step.Keyword

set_option autoImplicit false

/-! # Instances of a template

The grammar of what is put for a placeholder and of a placeholder itself, and what it takes for a text to be an
instance. The slots of a template forget how long a run of blanks is and what a placeholder is called; here a text is
compared with the pieces of the template, piece by piece.

Main statements: `afterArgument?_eq_some_iff`, `Template.afterPlaceholder?_eq_some_iff` (the two grammars),
`Template.exists_pieces_around` (what is cut off a template holds no placeholder) and
`Template.isInstance_of_renders` (a text that renders the pieces of a template is an instance of it). -/

namespace Scenarist

open Text

/-! ## Blanks and letter case -/

namespace Text

theorem CodeShifts.apply_cases (shifts : CodeShifts) (n : Nat) :
    shifts.apply n = n ∨
      ∃ run ∈ shifts, run.first ≤ n ∧ n ≤ run.last ∧ shifts.apply n = (n + run.distance).toNat := by
  induction shifts with
  | nil => exact Or.inl rfl
  | cons run rest ih =>
      simp only [apply]
      split
      · exact Or.inl rfl
      · next hfirst =>
        split
        · next hlast => exact Or.inr ⟨run, List.mem_cons_self, by omega, hlast.1, rfl⟩
        · exact ih.imp_right fun ⟨other, hother, h⟩ => ⟨other, List.mem_cons_of_mem _ hother, h⟩

/-- No run of letters moves to a blank. -/
theorem blankRanges_has_lowerShifts {n : Nat} (h : blankRanges.has n = false) :
    blankRanges.has (lowerShifts.apply n) = false := by
  have hall : (lowerShifts.all fun run => blankRanges.all fun range =>
      decide ((range.2 : Int) < run.first + run.distance ∨ run.last + run.distance < range.1)) = true := by
    decide +kernel
  rcases lowerShifts.apply_cases n with hsame | ⟨run, hrun, hfirst, hlast, hmove⟩
  · rw [hsame]
    exact h
  · cases hblank : blankRanges.has (lowerShifts.apply n) with
    | false => rfl
    | true =>
        obtain ⟨range, hrange, hlow, hhigh⟩ := CodeRanges.exists_of_has hblank
        have hpositive : 0 < range.1 := by
          have hall : (blankRanges.all fun range => decide (0 < range.1)) = true := by decide
          exact of_decide_eq_true (List.all_eq_true.1 hall range hrange)
        have hapart := of_decide_eq_true (List.all_eq_true.1 (List.all_eq_true.1 hall run hrun) range hrange)
        omega

/-- A blank has no case and no variants, and is the variant of no other character. -/
theorem isBlank_eq_has_letterKey (c : Char) : isBlank c = blankRanges.has (letterKey c) := by
  cases hblank : isBlank c with
  | true => rw [letterKey_of_isBlank hblank]; exact hblank.symm
  | false =>
      have hlower : blankRanges.has (lowerLetter c).toNat = false := by
        by_cases hvalid : (lowerShifts.apply c.toNat).isValidChar
        · rw [lowerLetter, Char.ofNat, dif_pos hvalid]
          exact blankRanges_has_lowerShifts hblank
        · rw [lowerLetter, Char.ofNat, dif_neg hvalid]
          decide
      have hvariants : (letterVariants.all fun entry => !blankRanges.has entry.2) = true := by decide +kernel
      rw [letterKey]
      cases hlookup : letterVariants.lookup (lowerLetter c).toNat with
      | none => exact hlower.symm
      | some key =>
          obtain ⟨front, back, hsplit, -⟩ := List.lookup_eq_some_iff.1 hlookup
          have hkey := List.all_eq_true.1 hvariants ((lowerLetter c).toNat, key) (by simp [hsplit])
          simpa using hkey

theorem isBlank_congr {c d : Char} (h : sameLetter c d = true) : isBlank c = isBlank d := by
  rw [isBlank_eq_has_letterKey, isBlank_eq_has_letterKey, sameLetter_iff.1 h]

theorem sameLetter_self (c : Char) : sameLetter c c = true := sameLetter_iff.2 rfl

theorem isBlank_of_isDigit {c : Char} (h : isDigit c = true) : isBlank c = false := by
  cases hblank : isBlank c with
  | false => rfl
  | true =>
      obtain ⟨range, hrange, hlow, hhigh⟩ := CodeRanges.exists_of_has hblank
      obtain ⟨first, hfirst, hdigit⟩ : ∃ z ∈ digitZeros, z ≤ c.toNat ∧ c.toNat < z + 10 := by
        simpa [isDigit, digitValue?] using h
      have hall : (blankRanges.all fun range =>
          digitZeros.all fun z => decide (range.2 < z ∨ z + 9 < range.1)) = true := by decide +kernel
      have hapart := of_decide_eq_true (List.all_eq_true.1 (List.all_eq_true.1 hall range hrange) first hfirst)
      omega

theorem dropWhile_dropWhile {p q : Char → Bool} (h : ∀ c, p c = true → q c = true) (text : Text) :
    (text.dropWhile p).dropWhile q = text.dropWhile q := by
  induction text with
  | nil => rfl
  | cons c cs ih =>
      by_cases hc : p c = true
      · rw [List.dropWhile_cons_of_pos hc, ih, List.dropWhile_cons_of_pos (h c hc)]
      · rw [List.dropWhile_cons_of_neg hc]

end Text

/-! ## Literals and references -/

/-- What may stand in a literal: a backslash protects the character behind it, save a line feed. -/
inductive IsQuoted (quote : Char) : Text → Prop
  | nil : IsQuoted quote []
  | escaped {c : Char} {content : Text} (hc : c ≠ '\n') (h : IsQuoted quote content) :
      IsQuoted quote ('\\' :: c :: content)
  | plain {c : Char} {content : Text} (hquote : c ≠ quote) (hc : c ≠ '\\') (h : IsQuoted quote content) :
      IsQuoted quote (c :: content)

theorem IsQuoted.of_not_mem {quote : Char} {content : Text} (hquote : quote ∉ content) (h : '\\' ∉ content) :
    IsQuoted quote content := by
  induction content with
  | nil => exact .nil
  | cons c cs ih =>
      simp only [List.mem_cons, not_or] at hquote h
      exact .plain (Ne.symm hquote.1) (Ne.symm h.1) (ih hquote.2 h.2)

theorem afterQuote?_eq_some_iff {quote : Char} (hquote : quote ≠ '\\') {text rest : Text} :
    afterQuote? quote text = some rest ↔ ∃ content, IsQuoted quote content ∧ text = content ++ quote :: rest := by
  constructor
  · intro h
    fun_induction afterQuote? quote text with
    | case1 | case2 | case5 => simp at h
    | case3 c cs hc ih =>
        obtain ⟨content, hcontent, rfl⟩ := ih h
        exact ⟨'\\' :: c :: content, .escaped hc hcontent, rfl⟩
    | case4 cs =>
        obtain rfl := Option.some.inj h
        exact ⟨[], .nil, rfl⟩
    | case6 c cs _ hclose hc ih =>
        obtain ⟨content, hcontent, rfl⟩ := ih h
        exact ⟨c :: content, .plain hclose hc hcontent, rfl⟩
  · rintro ⟨content, hcontent, rfl⟩
    induction hcontent with
    | nil => simp [afterQuote?, hquote]
    | escaped hc _ ih => simpa [afterQuote?, hc] using ih
    | plain hclose hc _ ih => simpa [afterQuote?, hclose, hc] using ih

def IsQuote (c : Char) : Prop := c = '"' ∨ c = '\''

/-- Whether a character is one that an argument begins with. -/
def IsMark (c : Char) : Prop := IsQuote c ∨ c = '['

/-- What may be put for a placeholder: a literal in quotes, or the name of a parameter in brackets. -/
inductive IsArgument (isLetter : Char → Bool) : Text → Prop
  | literal {quote : Char} {content : Text} (hquote : IsQuote quote) (h : IsQuoted quote content) :
      IsArgument isLetter (quote :: (content ++ [quote]))
  | reference {name : Text} (hne : name ≠ []) (h : ∀ c ∈ name, isLetter c = true) :
      IsArgument isLetter ('[' :: (name ++ [']']))

theorem IsQuote.ne_backslash {quote : Char} (h : IsQuote quote) : quote ≠ '\\' := by
  rcases h with rfl | rfl <;> decide

theorem IsQuote.not_isBlank {quote : Char} (h : IsQuote quote) : isBlank quote = false := by
  rcases h with rfl | rfl <;> decide

theorem IsMark.not_isBlank {mark : Char} (h : IsMark mark) : isBlank mark = false := by
  rcases h with hquote | rfl
  · exact hquote.not_isBlank
  · decide

theorem not_isMark_of_isBlank {c : Char} (h : isBlank c = true) : ¬ IsMark c :=
  fun hmark => by simp [hmark.not_isBlank] at h

/-- Neither a keyword nor the blanks behind it have a character that an argument begins with. -/
theorem not_isMark_of_isCutKeyword {keyword : Text} (h : IsCutKeyword keyword) : ∀ c ∈ keyword, ¬ IsMark c := by
  obtain ⟨written, gap, rfl, ⟨word, hword, hspells⟩, -, hblank⟩ := h
  have hall : (strippedKeywords.all fun word => word.all fun w =>
      letterKey w != letterKey '"' && letterKey w != letterKey '\'' && letterKey w != letterKey '[') = true := by
    decide +kernel
  intro c hc
  rcases List.mem_append.1 hc with hc | hc
  · obtain ⟨w, hw, hkey⟩ : ∃ w ∈ word, letterKey w = letterKey c := by
      have hmem := List.mem_map_of_mem (f := letterKey) hc
      rw [show written.map letterKey = word.map letterKey from hspells] at hmem
      exact List.mem_map.1 hmem
    have hne := List.all_eq_true.1 (List.all_eq_true.1 hall word hword) w hw
    simp only [Bool.and_eq_true, bne_iff_ne, hkey] at hne
    rintro ((rfl | rfl) | rfl)
    · exact hne.1.1 rfl
    · exact hne.1.2 rfl
    · exact hne.2 rfl
  · exact not_isMark_of_isBlank (hblank c hc)

theorem IsArgument.mono {isLetter isLetter' : Char → Bool} {argument : Text}
    (hle : ∀ c, isLetter c = true → isLetter' c = true) (h : IsArgument isLetter argument) :
    IsArgument isLetter' argument := by
  cases h with
  | literal hquote h => exact .literal hquote h
  | reference hne h => exact .reference hne fun c hc => hle c (h c hc)

theorem exists_of_afterArgument? {isLetter : Char → Bool} {text rest : Text}
    (h : afterArgument? isLetter text = some rest) :
    ∃ argument, IsArgument isLetter argument ∧ text = argument ++ rest := by
  have hliteral : ∀ {quote : Char} {text : Text}, IsQuote quote → afterQuote? quote text = some rest →
      ∃ argument, IsArgument isLetter argument ∧ quote :: text = argument ++ rest := by
    intro quote text hquote h
    obtain ⟨content, hcontent, rfl⟩ := (afterQuote?_eq_some_iff hquote.ne_backslash).1 h
    exact ⟨_, .literal hquote hcontent, by simp⟩
  unfold afterArgument? at h
  split at h
  · exact hliteral (Or.inl rfl) h
  · exact hliteral (Or.inr rfl) h
  · next text =>
    unfold afterName? at h
    split at h
    · next hdrop htake =>
      obtain rfl := Option.some.inj h
      have hname : text.takeWhile isLetter ≠ [] := by simp [htake]
      refine ⟨_, .reference hname (fun c hc => List.mem_takeWhile_imp hc), ?_⟩
      conv_lhs => rw [← List.takeWhile_append_dropWhile (p := isLetter) (l := text), hdrop]
      simp
    · simp at h
  · simp at h

/-- A text begins with an argument of the grammar where one is read, and only there. -/
theorem afterArgument?_eq_some_iff {isLetter : Char → Bool} (hclosing : isLetter ']' = false) {text rest : Text} :
    afterArgument? isLetter text = some rest ↔ ∃ argument, IsArgument isLetter argument ∧ text = argument ++ rest := by
  refine ⟨exists_of_afterArgument?, ?_⟩
  rintro ⟨_, ⟨hquote, hcontent⟩ | ⟨hne, hname⟩, rfl⟩
  · next quote content =>
    have hafter : afterQuote? quote (content ++ quote :: rest) = some rest :=
      (afterQuote?_eq_some_iff hquote.ne_backslash).2 ⟨content, hcontent, rfl⟩
    rcases hquote with rfl | rfl <;> simpa [afterArgument?] using hafter
  · next name =>
    have hdrop : (name ++ ']' :: rest).dropWhile isLetter = ']' :: rest := by
      rw [List.dropWhile_append_of_pos hname, List.dropWhile_cons_of_neg (by simp [hclosing])]
    have htake : (name ++ ']' :: rest).takeWhile isLetter = name := by
      rw [List.takeWhile_append_of_pos hname, List.takeWhile_cons_of_neg (by simp [hclosing]), List.append_nil]
    obtain ⟨c, cs, rfl⟩ := List.exists_cons_of_ne_nil hne
    rw [List.cons_append] at hdrop htake
    simp [afterArgument?, afterName?, hdrop, htake]

/-- An argument begins and ends with a mark, which is not blank. -/
theorem IsArgument.ends {isLetter : Char → Bool} {argument : Text} (h : IsArgument isLetter argument) :
    ∃ opening content closing, argument = opening :: (content ++ [closing]) ∧
      IsMark opening ∧ isBlank closing = false := by
  cases h with
  | literal hquote _ => exact ⟨_, _, _, rfl, Or.inl hquote, hquote.not_isBlank⟩
  | reference _ _ => exact ⟨_, _, _, rfl, Or.inr rfl, by decide⟩

/-- What is taken from a text is an argument. -/
theorem isArgument_of_mem_argumentsOf {text argument : Text} (h : argument ∈ argumentsOf text) :
    IsArgument isNameLetter argument := by
  obtain ⟨rest, hrest⟩ := exists_of_mem_argumentsOf h
  obtain ⟨argument', hargument, heq⟩ := exists_of_afterArgument? hrest
  rwa [List.append_cancel_right heq]

/-! ## Placeholders -/

namespace Template

/-- A name letter is one among the variants. -/
theorem isNameLetterVariant_of_isNameLetter {c : Char} (h : isNameLetter c = true) : isNameLetterVariant c = true := by
  have hall : ((List.range 0x452).all fun n =>
      !isNameLetter (Char.ofNat n) || isNameLetterVariant (Char.ofNat n)) = true := by
    decide +kernel
  have hle : c.toNat < 0x452 := by
    have := Scalar.toNat_of_isNameLetter h
    omega
  have hletter := List.all_eq_true.1 hall c.toNat (List.mem_range.2 hle)
  rw [Char.ofNat_toNat, h] at hletter
  simpa using hletter

/-- Whether a text is a placeholder: in quotes, a percent sign, a number, blanks, and a name. -/
def IsPlaceholder (text : Text) : Prop :=
  ∃ quote digits gap name, IsQuote quote ∧ (digits ≠ [] ∧ ∀ c ∈ digits, isDigit c = true) ∧
    (gap ≠ [] ∧ ∀ c ∈ gap, isBlank c = true) ∧ quote ∉ name ∧
    text = quote :: '%' :: (digits ++ gap ++ name ++ [quote])

theorem afterPlaceholder?_eq_some_iff {text rest : Text} :
    afterPlaceholder? text = some rest ↔ ∃ front, IsPlaceholder front ∧ text = front ++ rest := by
  constructor
  · intro h
    unfold afterPlaceholder? at h
    split at h
    · next quote body =>
      dsimp only at h
      split at h
      · next hopening =>
        split at h
        · next closing after hclosing =>
          obtain rfl := Option.some.inj h
          simp only [Bool.and_eq_true, Bool.or_eq_true, decide_eq_true_eq, Bool.not_eq_true',
            List.isEmpty_eq_false_iff] at hopening
          obtain rfl : closing = quote := by
            have := List.head?_dropWhile_not (· ≠ quote) (stripLeft (body.dropWhile isDigit))
            rw [hclosing] at this
            simpa using this
          refine ⟨_, ⟨closing, body.takeWhile isDigit, leadingBlanks (body.dropWhile isDigit),
            (stripLeft (body.dropWhile isDigit)).takeWhile (· ≠ closing), hopening.1.1,
            ⟨hopening.1.2, fun c hc => List.mem_takeWhile_imp hc⟩,
            ⟨hopening.2, fun c => isBlank_of_mem_leadingBlanks⟩,
            fun hc => by simpa using List.mem_takeWhile_imp hc, rfl⟩, ?_⟩
          have hbody : body = body.takeWhile isDigit ++ (leadingBlanks (body.dropWhile isDigit) ++
              ((stripLeft (body.dropWhile isDigit)).takeWhile (· ≠ closing) ++ closing :: after)) := by
            rw [← hclosing, List.takeWhile_append_dropWhile, leadingBlanks_append_stripLeft,
              List.takeWhile_append_dropWhile]
          conv_lhs => rw [hbody]
          simp
        · simp at h
      · simp at h
    · simp at h
  · rintro ⟨_, ⟨quote, digits, gap, name, hquote, ⟨hdigits, hdigit⟩, ⟨hgap, hblank⟩, hname, rfl⟩, rfl⟩
    have hgapDigit : ∀ b ∈ gap, ¬ isDigit b = true := fun b hb hdigit => by
      simpa [isBlank_of_isDigit hdigit] using hblank b hb
    obtain ⟨b, bs, rfl⟩ := List.exists_cons_of_ne_nil hgap
    have hb := hgapDigit b List.mem_cons_self
    have hdrop : (digits ++ (b :: (bs ++ (name ++ quote :: rest)))).dropWhile isDigit =
        b :: bs ++ (name ++ quote :: rest) := by
      rw [List.dropWhile_append_of_pos hdigit, List.dropWhile_cons_of_neg hb, List.cons_append]
    have htake : (digits ++ (b :: (bs ++ (name ++ quote :: rest)))).takeWhile isDigit = digits := by
      rw [List.takeWhile_append_of_pos hdigit, List.takeWhile_cons_of_neg hb, List.append_nil]
    have hleading : leadingBlanks (b :: bs ++ (name ++ quote :: rest)) ≠ [] := by
      simp [leadingBlanks, hblank b List.mem_cons_self]
    -- the name may begin with more blanks, which are taken with those before it
    have hclose : (stripLeft (b :: bs ++ (name ++ quote :: rest))).dropWhile (· ≠ quote) = quote :: rest := by
      rw [stripLeft_append hblank, stripLeft, dropWhile_dropWhile fun c hc => ?_,
        List.dropWhile_append_of_pos fun c hc => ?_, List.dropWhile_cons_of_neg (by simp)]
      · simpa using fun heq : c = quote => hname (heq ▸ hc)
      · have := hquote.not_isBlank
        simpa using fun heq : c = quote => by simp [heq, this] at hc
    have hopening : ((quote = '"' || quote = '\'') && !digits.isEmpty &&
        !(leadingBlanks (b :: bs ++ (name ++ quote :: rest))).isEmpty) = true := by
      rw [Bool.and_eq_true, Bool.and_eq_true]
      exact ⟨⟨by simpa [IsQuote] using hquote, by simpa using hdigits⟩, by simpa using hleading⟩
    rw [List.cons_append, List.cons_append, List.append_assoc, List.append_assoc, List.append_assoc,
      List.singleton_append, List.cons_append]
    simp only [afterPlaceholder?, hdrop, htake, hopening, if_true, hclose]

theorem IsPlaceholder.ne_nil {text : Text} (h : IsPlaceholder text) : text ≠ [] := by
  obtain ⟨quote, digits, gap, name, -, -, -, -, rfl⟩ := h
  simp

/-- A placeholder stands between quotes. -/
theorem IsPlaceholder.ends {text : Text} (h : IsPlaceholder text) :
    ∃ quote content, IsQuote quote ∧ quote ∉ content ∧ text = quote :: (content ++ [quote]) := by
  obtain ⟨quote, digits, gap, name, hquote, ⟨-, hdigit⟩, ⟨-, hblank⟩, hname, rfl⟩ := h
  refine ⟨quote, '%' :: (digits ++ gap ++ name), hquote, ?_, rfl⟩
  have hpercent : quote ≠ '%' := by rcases hquote with rfl | rfl <;> decide
  have hnot : isDigit quote = false := by rcases hquote with rfl | rfl <;> decide
  have hsolid := hquote.not_isBlank
  simp only [List.mem_cons, List.mem_append, not_or]
  exact ⟨hpercent, ⟨fun hmem => by simp [hdigit quote hmem] at hnot, fun hmem => by simp [hblank quote hmem] at hsolid⟩,
    hname⟩

/-- A placeholder is itself an argument, unless a backslash in its name protects the quote. -/
theorem IsPlaceholder.isArgument {isLetter : Char → Bool} {text : Text} (h : IsPlaceholder text)
    (hplain : '\\' ∉ text) : IsArgument isLetter text := by
  obtain ⟨quote, content, hquote, hnot, rfl⟩ := h.ends
  exact .literal hquote (.of_not_mem hnot fun hmem => hplain (by simp [hmem]))

/-! ## Pieces -/

/-- A text is read from the left, placeholder or letter by letter. -/
@[elab_as_elim]
theorem pieces_induction {motive : Text → Prop} (nil : motive [])
    (placeholder : ∀ front rest, IsPlaceholder front → motive rest → motive (front ++ rest))
    (letter : ∀ c cs, afterPlaceholder? (c :: cs) = none → motive cs → motive (c :: cs)) (text : Text) :
    motive text := by
  induction hlength : text.length using Nat.strongRecOn generalizing text with
  | ind n ih =>
      cases text with
      | nil => exact nil
      | cons c cs =>
          cases hafter : afterPlaceholder? (c :: cs) with
          | none => exact letter c cs hafter (ih cs.length (by simp [← hlength]) cs rfl)
          | some rest =>
              obtain ⟨front, hfront, heq⟩ := afterPlaceholder?_eq_some_iff.1 hafter
              have hpos := List.length_pos_of_ne_nil hfront.ne_nil
              rw [heq, List.length_append] at hlength
              rw [heq]
              exact placeholder front rest hfront (ih rest.length (by omega) rest rfl)

theorem pieces_placeholder {front : Text} (h : IsPlaceholder front) (rest : Text) :
    pieces (front ++ rest) = .placeholder front :: pieces rest :=
  pieces_of_placeholder h.ne_nil (afterPlaceholder?_eq_some_iff.2 ⟨front, h, rfl⟩)

def Piece.text : Piece → Text
  | .letter c => [c]
  | .placeholder text => text

/-- The pieces make up the text. -/
theorem flatMap_pieces (text : Text) : (pieces text).flatMap Piece.text = text := by
  induction text using pieces_induction with
  | nil => rfl
  | placeholder front rest h ih => rw [pieces_placeholder h, List.flatMap_cons, ih, Piece.text]
  | letter c cs h ih => rw [pieces_of_letter h, List.flatMap_cons, ih, Piece.text, List.singleton_append]

theorem isPlaceholder_of_mem_pieces {text front : Text} (h : .placeholder front ∈ pieces text) :
    IsPlaceholder front := by
  induction text using pieces_induction with
  | nil => simp at h
  | placeholder front' rest h' ih =>
      rw [pieces_placeholder h'] at h
      rcases List.mem_cons.1 h with heq | h
      · rwa [Piece.placeholder.inj heq]
      · exact ih h
  | letter c cs h' ih =>
      rw [pieces_of_letter h'] at h
      exact ih ((List.mem_cons.1 h).resolve_left (by simp))

theorem subset_of_mem_pieces {text : Text} {piece : Piece} (h : piece ∈ pieces text) : piece.text ⊆ text := by
  intro c hc
  rw [← flatMap_pieces text]
  exact List.mem_flatMap.2 ⟨piece, h, hc⟩

/-- Without a quote, no placeholder begins. -/
theorem afterPlaceholder?_of_not_isQuote {c : Char} (h : ¬ IsQuote c) (cs : Text) :
    afterPlaceholder? (c :: cs) = none := by
  rw [Option.eq_none_iff_forall_not_mem]
  intro rest hrest
  obtain ⟨front, hfront, heq⟩ := afterPlaceholder?_eq_some_iff.1 hrest
  obtain ⟨quote, content, hquote, -, rfl⟩ := hfront.ends
  exact h ((List.cons.inj heq).1 ▸ hquote)

theorem pieces_append_left {front : Text} (h : ∀ c ∈ front, ¬ IsQuote c) (text : Text) :
    pieces (front ++ text) = front.map .letter ++ pieces text := by
  induction front with
  | nil => rfl
  | cons c cs ih =>
      rw [List.cons_append, pieces_of_letter (afterPlaceholder?_of_not_isQuote (h c List.mem_cons_self) _),
        ih fun d hd => h d (List.mem_cons_of_mem c hd), List.map_cons, List.cons_append]

/-- Whether a placeholder begins a text does not depend on what stands behind its last quote. -/
theorem afterPlaceholder?_append {back : Text} (h : ∀ c ∈ back, ¬ IsQuote c) {text : Text}
    (hnone : afterPlaceholder? text = none) : afterPlaceholder? (text ++ back) = none := by
  rw [Option.eq_none_iff_forall_not_mem] at hnone ⊢
  intro rest hrest
  obtain ⟨front, hfront, heq⟩ := afterPlaceholder?_eq_some_iff.1 hrest
  rcases List.append_eq_append_iff.1 heq with ⟨excess, hexcess, hback⟩ | ⟨kept, htext, -⟩
  · -- the placeholder would end behind the text, with a quote
    obtain ⟨quote, content, hquote, -, hends⟩ := hfront.ends
    rcases List.eq_nil_or_concat' excess with rfl | ⟨excess, d, rfl⟩
    · rw [List.append_nil] at hexcess
      exact hnone [] (afterPlaceholder?_eq_some_iff.2 ⟨front, hfront, by rw [hexcess, List.append_nil]⟩)
    · rw [hexcess, ← List.append_assoc, ← List.cons_append] at hends
      have hlast := List.append_inj_right' hends rfl
      exact h d (by simp [hback]) ((List.singleton_inj.1 hlast) ▸ hquote)
  · exact hnone kept (afterPlaceholder?_eq_some_iff.2 ⟨front, hfront, htext⟩)

theorem pieces_append_right {back : Text} (h : ∀ c ∈ back, ¬ IsQuote c) (text : Text) :
    pieces (text ++ back) = pieces text ++ back.map .letter := by
  induction text using pieces_induction with
  | nil => simpa using pieces_append_left h []
  | placeholder front rest h' ih =>
      rw [List.append_assoc, pieces_placeholder h', pieces_placeholder h', ih, List.cons_append]
  | letter c cs h' ih =>
      have hnone := afterPlaceholder?_append h h'
      rw [List.cons_append] at hnone ⊢
      rw [pieces_of_letter hnone, pieces_of_letter h', ih, List.cons_append]

/-- The pieces of a template are those of its wording, with what is cut off as letters around them. -/
theorem exists_pieces_around (template : Text) : ∃ before keyword after : Text,
    pieces template = (before ++ keyword).map .letter ++ pieces (stripKeyword template) ++ after.map .letter ∧
      (∀ c ∈ before, isBlank c = true) ∧ (∀ c ∈ after, isBlank c = true) ∧
        (IsCutKeyword keyword ∨
          keyword = [] ∧ ∀ keyword rest, IsCutKeyword keyword → stripKeyword template ≠ keyword ++ rest) := by
  obtain ⟨before, keyword, after, htemplate, hbefore, hafter, -, hkeyword⟩ := exists_around_stripKeyword template
  refine ⟨before, keyword, after, ?_, hbefore, hafter, hkeyword⟩
  have hfront : ∀ c ∈ before ++ keyword, ¬ IsQuote c := by
    intro c hc hquote
    rcases List.mem_append.1 hc with hc | hc
    · exact not_isMark_of_isBlank (hbefore c hc) (Or.inl hquote)
    · rcases hkeyword with hkeyword | ⟨rfl, -⟩
      · exact not_isMark_of_isCutKeyword hkeyword c hc (Or.inl hquote)
      · simp at hc
  have hback : ∀ c ∈ after, ¬ IsQuote c := fun c hc hquote => not_isMark_of_isBlank (hafter c hc) (Or.inl hquote)
  conv_lhs => rw [htemplate, pieces_append_right hback, ← List.append_assoc, pieces_append_left hfront]

/-! ## Rendering -/

/-- Whether a text is made up of the pieces, with a letter that is alike for each letter and an argument for each
placeholder. -/
inductive Renders (alike : Char → Char → Prop) : List Piece → Text → Prop
  | nil : Renders alike [] []
  | letter {c d : Char} {pieces : List Piece} {text : Text} (halike : alike c d) (h : Renders alike pieces text) :
      Renders alike (.letter c :: pieces) (d :: text)
  | placeholder {front argument : Text} {pieces : List Piece} {text : Text}
      (hargument : IsArgument isNameLetterVariant argument) (h : Renders alike pieces text) :
      Renders alike (.placeholder front :: pieces) (argument ++ text)

theorem Renders.mono {alike alike' : Char → Char → Prop} (hle : ∀ c d, alike c d → alike' c d) {pieces : List Piece}
    {text : Text} (h : Renders alike pieces text) : Renders alike' pieces text := by
  induction h with
  | nil => exact .nil
  | letter halike _ ih => exact .letter (hle _ _ halike) ih
  | placeholder hargument _ ih => exact .placeholder hargument ih

theorem Renders.exists_of_append {alike : Char → Char → Prop} {front back : List Piece} {text : Text}
    (h : Renders alike (front ++ back) text) :
    ∃ first last, text = first ++ last ∧ Renders alike front first ∧ Renders alike back last := by
  induction front generalizing text with
  | nil => exact ⟨[], text, rfl, .nil, h⟩
  | cons piece front ih =>
      cases h with
      | letter halike h =>
          obtain ⟨first, last, rfl, hfirst, hlast⟩ := ih h
          exact ⟨_ :: first, last, rfl, .letter halike hfirst, hlast⟩
      | placeholder hargument h =>
          obtain ⟨first, last, rfl, hfirst, hlast⟩ := ih h
          exact ⟨_ ++ first, last, by rw [List.append_assoc], .placeholder hargument hfirst, hlast⟩

/-- Letters in the same case are rendered by themselves. -/
theorem Renders.eq_of_letters {letters text : Text} (h : Renders Eq (letters.map .letter) text) : text = letters := by
  induction letters generalizing text with
  | nil => cases h; rfl
  | cons c cs ih =>
      cases h with
      | letter halike h => rw [← halike, ih h]

/-- An argument stands where the slots of the pieces behind a letter expect one: the blanks before it are those that
the pieces have. -/
theorem fits_of_renders {pieces : List Piece} {text : Text} (h : Renders (sameLetter · ·) pieces text)
    (hplain : ∀ c, .letter c ∈ pieces → c ≠ '\\' ∧ c ≠ '\x00') (last : Option Char) (hlast : last ≠ some '\\') :
    fits (slotsFrom last pieces) (if last.any isBlank then stripLeft text else text) = true := by
  induction h generalizing last with
  | nil => cases last.any isBlank <;> rfl
  | @placeholder front argument pieces text hargument _ ih =>
      have hrest := ih (fun c hc => hplain c (List.mem_cons_of_mem _ hc)) none (by simp)
      have hafter : afterArgument? isNameLetterVariant (argument ++ text) = some text :=
        (afterArgument?_eq_some_iff (by decide +kernel)).2 ⟨argument, hargument, rfl⟩
      -- an argument begins with a mark, so there are no blanks to strip
      have hsolid : stripLeft (argument ++ text) = argument ++ text := by
        obtain ⟨opening, content, closing, rfl, hopening, -⟩ := hargument.ends
        exact stripLeft_cons_of_not_blank hopening.not_isBlank _
      rw [hsolid, ite_self, slotsFrom, fits, hafter]
      exact hrest
  | @letter c d pieces text hsame _ ih =>
      obtain ⟨hbackslash, hnull⟩ := hplain c List.mem_cons_self
      have hrest := ih (fun c hc => hplain c (List.mem_cons_of_mem _ hc)) (some c) (by simpa using hbackslash)
      rw [slotsFrom, if_neg hnull]
      cases hblank : isBlank c with
      | true =>
          have hd : isBlank d = true := isBlank_congr hsame ▸ hblank
          have hstrip : stripLeft (d :: text) = stripLeft text := @stripLeft_append [d] (by simpa) text
          simp only [Option.any_some, hblank, if_true] at hrest ⊢
          cases hany : last.any isBlank with
          | true => simpa [hstrip] using hrest
          | false => simpa [hlast, fits, leadingBlanks, hd, hstrip] using hrest
      | false =>
          have hd : isBlank d = false := isBlank_congr hsame ▸ hblank
          simp only [Option.any_some, hblank, Bool.false_eq_true, if_false] at hrest ⊢
          simp [stripLeft_cons_of_not_blank hd, fits, hsame, hrest]

/-- A text that renders the pieces of a template's wording is an instance of the template. -/
theorem isInstance_of_renders {template wording : Text} (hbackslash : '\\' ∉ template) (hnull : '\x00' ∉ template)
    (h : Renders (sameLetter · ·) (pieces (stripKeyword template)) wording) : isInstance template wording = true := by
  refine fits_of_renders h (fun c hc => ?_) none (by simp)
  have hmem : c ∈ template := mem_of_mem_stripKeyword (subset_of_mem_pieces hc List.mem_cons_self)
  exact ⟨fun heq => hbackslash (heq ▸ hmem), fun heq => hnull (heq ▸ hmem)⟩

end Template

end Scenarist
