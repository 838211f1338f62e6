import Scenarist.Proofs.Scalar

set_option autoImplicit false

/-! # Quoting is undone

A value is escaped in two rounds: a backslash is put in front of every backslash, and then one in front of every double
quote. The reader of metadata takes the rounds back, the last one first, each by one replacement of pairs from left to
right over the whole text. Such a replacement finds the pairs that its round has made and no others, however long the
runs of backslashes in front of them are. The reader of declarations knows more escapes and folds lines, so it gives back
the values that are literal.

Main statements: `Text.replacePair_protect` (one round), `Scalar.escape_eq_protect` (the two rounds) and
`Scalar.readers_undo_quote`. -/

namespace Scenarist

/-! ## One round -/

namespace Text

variable {mark c : Char}

/-- A text with a mark in front of every occurrence of a character. -/
def protect (mark c : Char) (text : Text) : Text :=
  text.flatMap fun d => if d = c then [mark, d] else [d]

theorem protect_cons_self (mark c : Char) (text : Text) :
    protect mark c (c :: text) = mark :: c :: protect mark c text := by
  simp [protect]

theorem protect_cons_of_ne {d : Char} (h : d ≠ c) (text : Text) :
    protect mark c (d :: text) = d :: protect mark c text := by
  simp [protect, h]

/-- What is protected begins with the character itself only if the mark is that character. -/
theorem eq_of_head?_protect {text : Text} (h : (protect mark c text).head? = some c) : mark = c := by
  cases text with
  | nil => exact absurd h (by simp [protect])
  | cons d text =>
      by_cases hd : d = c
      · rw [hd, protect_cons_self] at h
        exact Option.some.inj h
      · rw [protect_cons_of_ne hd] at h
        exact absurd (Option.some.inj h) hd

/-- A character that begins no pair stays. -/
theorem replacePair_cons {a b d : Char} {rest : Text} (h : d = a → rest.head? ≠ some b) :
    replacePair a b c (d :: rest) = d :: replacePair a b c rest := by
  cases rest with
  | nil => rfl
  | cons e rest =>
      rw [replacePair, if_neg]
      rintro ⟨hd, he⟩
      exact h hd (congrArg some he)

/-- Replacing the pairs of mark and character by the character takes the marks away again. -/
theorem replacePair_protect (mark c : Char) (text : Text) :
    replacePair mark c c (protect mark c text) = text := by
  induction text with
  | nil => rfl
  | cons d text ih =>
      by_cases hd : d = c
      · rw [hd, protect_cons_self, replacePair, if_pos ⟨rfl, rfl⟩, ih]
      · -- a pair with `d` as its mark would need the bare character next, so `d` would be this character
        have hpair : d = mark → (protect mark c text).head? ≠ some c := by
          intro hmark hhead
          exact hd (hmark.trans (eq_of_head?_protect hhead))
        rw [protect_cons_of_ne hd, replacePair_cons hpair, ih]

end Text

namespace Scalar

open Text Yaml

/-! ## Both rounds -/

/-- A value is escaped in two rounds: first its backslashes, then its quotes. -/
theorem escape_eq_protect (value : Text) : escape value = protect '\\' '"' (protect '\\' '\\' value) := by
  have hslash : '\\' ≠ '"' := by decide
  induction value with
  | nil => rfl
  | cons c value ih =>
      rw [escape_cons, ih]
      rcases escapeLetter_cases c with ⟨rfl | rfl, hletter⟩ | ⟨hc, hquote, hletter⟩
      · rw [hletter, protect_cons_self, protect_cons_of_ne hslash, protect_cons_of_ne hslash]
        rfl
      · rw [hletter, protect_cons_of_ne hslash.symm, protect_cons_self]
        rfl
      · rw [hletter, protect_cons_of_ne hc, protect_cons_of_ne hquote]
        rfl

theorem inner_quote (value : Text) : inner (quote value) = escape value := by
  simp [inner, quote]

/-- The reader of metadata gives back every value. -/
theorem unquotePlainly_quote (value : Text) : unquotePlainly (quote value) = value := by
  have hhead : (quote value).head? = some '"' := rfl
  unfold unquotePlainly
  simp only [strip_quote, isQuoted_quote, if_true, hhead, inner_quote]
  calc replacePair '\\' '\\' '\\' (replacePair '\\' '"' '"' (escape value))
      = replacePair '\\' '\\' '\\' (protect '\\' '\\' value) := by
        rw [escape_eq_protect, replacePair_protect]
    _ = value := replacePair_protect '\\' '\\' value

/-! ## Literal characters -/

/-- The literal characters by their codes. -/
theorem isLiteral_iff {c : Char} :
    isLiteral c = true ↔ c = '\t' ∨ (0x20 ≤ c.toNat ∧ c.toNat ≤ 0x7e) ∨
      (0xa0 ≤ c.toNat ∧ c.toNat ≠ 0x2028 ∧ c.toNat ≠ 0x2029 ∧ c.toNat ≠ 0xfffe ∧ c.toNat ≠ 0xffff) := by
  have heq : ∀ d : Char, c = d ↔ c.toNat = d.toNat := by
    intro d
    constructor
    · exact congrArg Char.toNat
    · exact fun h => Char.ext (UInt32.toNat_inj.1 h)
  -- no character is half of a surrogate pair
  have hvalid : c.toNat < 0xd800 ∨ 0xdfff < c.toNat ∧ c.toNat < 0x110000 := c.valid
  simp only [isLiteral, isPrintable, isLineBreak, heq, Bool.and_eq_true, Bool.not_eq_true', Bool.or_eq_true,
    Bool.or_eq_false_iff, decide_eq_true_eq, decide_eq_false_iff_not, show '\t'.toNat = 0x9 from rfl,
    show '\n'.toNat = 0xa from rfl, show '\r'.toNat = 0xd from rfl, show '\u0085'.toNat = 0x85 from rfl,
    show '\u2028'.toNat = 0x2028 from rfl, show '\u2029'.toNat = 0x2029 from rfl]
  omega

/-! ## The two readers -/

/-- What a value is written as between double quotes can be read, and is read back: by the reader of declarations if the
value holds no characters but those that may stand inside a line of a stream, and by the reader of metadata whatever it
holds. -/
theorem readers_undo_quote (value : Text) :
    ((∀ c ∈ value, c = '\t' ∨ (0x20 ≤ c.toNat ∧ c.toNat ≤ 0x7e) ∨
        (0xa0 ≤ c.toNat ∧ c.toNat ≠ 0x2028 ∧ c.toNat ≠ 0x2029 ∧ c.toNat ≠ 0xfffe ∧ c.toNat ≠ 0xffff)) →
      fault? (quote value) = none ∧ unquote (quote value) = value) ∧
    unquotePlainly (quote value) = value := by
  constructor
  · intro hcodes
    have hliteral : IsLiteral value := fun c hc => isLiteral_iff.2 (hcodes c hc)
    exact ⟨fault?_quote value, unquote_quote hliteral⟩
  · exact unquotePlainly_quote value

def backslashes : Text := "\\\\\"\\n\t\"«я»\\".toList

theorem readers_undo_quote_backslashes :
    (∀ c ∈ backslashes, c = '\t' ∨ (0x20 ≤ c.toNat ∧ c.toNat ≤ 0x7e) ∨
        (0xa0 ≤ c.toNat ∧ c.toNat ≠ 0x2028 ∧ c.toNat ≠ 0x2029 ∧ c.toNat ≠ 0xfffe ∧ c.toNat ≠ 0xffff)) ∧
      fault? (quote backslashes) = none ∧ unquote (quote backslashes) = backslashes ∧
      unquotePlainly (quote (backslashes ++ ['\n'])) = backslashes ++ ['\n'] := by
  have hliteral : IsLiteral backslashes := by decide +kernel
  have hcodes := fun c hc => isLiteral_iff.1 (hliteral c hc)
  obtain ⟨hfault, hread⟩ := (readers_undo_quote backslashes).1 hcodes
  exact ⟨hcodes, hfault, hread, (readers_undo_quote (backslashes ++ ['\n'])).2⟩

end Scalar

end Scenarist
