import Scenarist.Proofs.Text.Blank
import Scenarist.Scalar

set_option autoImplicit false

/-! # Written scalars read back

A value is written between double quotes with its quotes and backslashes escaped and nothing else. What
the reader makes of it depends on the characters of the value alone: those that may stand in a stream and
break no line stand for themselves.

Main statements: `Scalar.unquote_quote` (a literal value is read back), `Yaml.Quoted.readFrom_escape_error`
(an escaped text holds no closing quote) and `Scalar.mem_unquote_unclosed` (so a value whose quote is
missing is not read as a scalar, and nothing comes in that was not written). -/

namespace Scenarist

open Text

/-! ## The reader between double quotes -/

namespace Yaml.Quoted

/-- Whether the reader expects a character of the value, or a quote, next. -/
def State.IsOpen : State → Prop
  | .escape | .code _ _ => False
  | _ => True

theorem State.IsOpen.ne_escape {state : State} (h : state.IsOpen) : state ≠ .escape := by
  rintro rfl
  exact h

theorem State.IsOpen.ne_code {state : State} (h : state.IsOpen) (missing value : Nat) :
    state ≠ .code missing value := by
  rintro rfl
  exact h

/-- The states of an open reader: between words, behind spaces, or behind line breaks. -/
@[elab_as_elim]
theorem State.IsOpen.cases {motive : (state : State) → state.IsOpen → Prop} (word : motive .word trivial)
    (gap : ∀ spaces, motive (.gap spaces) trivial) (fold : ∀ first further, motive (.fold first further) trivial)
    (state : State) (h : state.IsOpen) : motive state h := by
  cases state with
  | escape => exact absurd h id
  | code => exact absurd h id
  | word => exact word
  | gap spaces => exact gap spaces
  | fold first further => exact fold first further

theorem prepend_prepend (more most : Text) (reading : Except Fault (Text × Text)) :
    prepend more (prepend most reading) = prepend (more ++ most) reading := by
  cases reading <;> simp [prepend, Except.map]

theorem prepend_ok (more value rest : Text) :
    prepend more (.ok (value, rest)) = .ok (more ++ value, rest) := rfl

theorem readFrom_close {state : State} (h : state.IsOpen) (rest : Text) :
    readFrom .double state ('"' :: rest) = .ok (state.pending, rest) := by
  cases state, h using State.IsOpen.cases with
  | word => simp [readFrom, isLineBreak, isSpace, Style.quote]
  | gap spaces => simp [readFrom, isLineBreak, isSpace, Style.quote]
  | fold first further => simp [readFrom, isLineBreak, isSpace, Style.quote]

theorem readFrom_backslash {state : State} (h : state.IsOpen) (rest : Text) :
    readFrom .double state ('\\' :: rest) =
      prepend state.pending (readFrom .double .escape rest) := by
  cases state, h using State.IsOpen.cases with
  | word => simp [readFrom, isLineBreak, isSpace, Style.quote]
  | gap spaces => simp [readFrom, isLineBreak, isSpace, Style.quote]
  | fold first further => simp [readFrom, isLineBreak, isSpace, Style.quote]

theorem readFrom_escaped {c : Char} (h : c = '\\' ∨ c = '"') (rest : Text) :
    readFrom .double .escape (c :: rest) = prepend [c] (readFrom .double .word rest) := by
  rcases h with rfl | rfl
  · rw [readFrom]
    · rfl
    · simp
  · rw [readFrom]
    · rfl
    · simp

private theorem readFrom_letter_of_apart {state : State} (h : state.IsOpen) {c : Char} {rest : Text}
    (hbreak : isLineBreak c = false) (hspace : isSpace c = false) (hquote : c ≠ '"')
    (hslash : c ≠ '\\') (hapart : ∀ tail, c = '\'' → rest = '\'' :: tail → False) :
    readFrom .double state (c :: rest) =
      prepend (state.pending ++ [c]) (readFrom .double .word rest) := by
  have hreturn : ∀ tail, c = '\r' → rest = '\n' :: tail → False := by
    rintro tail rfl -
    exact absurd hbreak (by decide)
  cases state, h using State.IsOpen.cases with
  | word => rw [readFrom] <;> simp_all [Style.quote]
  | gap spaces => rw [readFrom] <;> simp_all [Style.quote]
  | fold first further => rw [readFrom] <;> simp_all [Style.quote]

/-- A character that is nothing special is a character of the value; that two apostrophes are taken at
once makes no difference. -/
theorem readFrom_letter {state : State} (h : state.IsOpen) {c : Char} (hbreak : isLineBreak c = false)
    (hspace : isSpace c = false) (hquote : c ≠ '"') (hslash : c ≠ '\\') (rest : Text) :
    readFrom .double state (c :: rest) =
      prepend (state.pending ++ [c]) (readFrom .double .word rest) := by
  induction rest generalizing state c with
  | nil => exact readFrom_letter_of_apart h hbreak hspace hquote hslash (by simp)
  | cons d ds ih =>
      by_cases hpair : c = '\'' ∧ d = '\''
      · obtain ⟨rfl, rfl⟩ := hpair
        rw [readFrom.eq_8 state ds h.ne_escape h.ne_code,
          @ih .word trivial _ (by decide) (by decide) (by decide) (by decide), prepend_prepend]
        simp [State.pending]
      · refine readFrom_letter_of_apart h hbreak hspace hquote hslash ?_
        intro tail hc hd
        simp only [List.cons.injEq] at hd
        exact hpair ⟨hc, hd.1⟩

/-- Where the reader is behind one more space or tab. -/
def State.spaced (c : Char) : State → State
  | .gap spaces => .gap (c :: spaces)
  | .fold first further => .fold first further
  | _ => .gap [c]

theorem State.isOpen_spaced (c : Char) (state : State) : (state.spaced c).IsOpen := by
  cases state <;> trivial

theorem readFrom_space {state : State} (h : state.IsOpen) {c : Char} (hspace : isSpace c = true)
    (rest : Text) :
    readFrom .double state (c :: rest) = readFrom .double (state.spaced c) rest := by
  have hc : c = ' ' ∨ c = '\t' := by simpa [isSpace] using hspace
  have hbreak : isLineBreak c = false := by
    rcases hc with rfl | rfl <;> decide
  have hreturn : c ≠ '\r' := by
    rcases hc with rfl | rfl <;> decide
  have hapostrophe : c ≠ '\'' := by
    rcases hc with rfl | rfl <;> decide
  cases state, h using State.IsOpen.cases with
  | word => rw [readFrom] <;> simp_all [State.spaced]
  | gap spaces => rw [readFrom] <;> simp_all [State.spaced]
  | fold first further => rw [readFrom] <;> simp_all [State.spaced]

/-- Where the reader is behind one more line break, which stands for this character. -/
def State.broken (value : Char) : State → State
  | .fold first further => .fold first (value :: further)
  | _ => .fold (some value) []

theorem State.isOpen_broken (value : Char) (state : State) : (state.broken value).IsOpen := by
  cases state <;> trivial

/-- Behind a line break, the reader goes on unless the document ends there. -/
theorem readFrom_break {state : State} (h : state.IsOpen) {c : Char} (hbreak : isLineBreak c = true)
    {rest : Text} (hpair : ∀ tail, c = '\r' → rest = '\n' :: tail → False) :
    readFrom .double state (c :: rest) =
      if isSeparator rest then .error .malformed
      else readFrom .double (state.broken (breakValue c)) rest := by
  have hapostrophe : c ≠ '\'' := by
    rintro rfl
    exact absurd hbreak (by decide)
  cases state, h using State.IsOpen.cases with
  | word => rw [readFrom] <;> simp_all [State.broken]
  | gap spaces => rw [readFrom] <;> simp_all [State.broken]
  | fold first further => rw [readFrom] <;> simp_all [State.broken]

theorem readFrom_return_lineFeed {state : State} (h : state.IsOpen) (rest : Text) :
    readFrom .double state ('\r' :: '\n' :: rest) =
      if isSeparator rest then .error .malformed else readFrom .double (state.broken '\n') rest := by
  cases state, h using State.IsOpen.cases with
  | word => simp [readFrom, State.broken]
  | gap spaces => simp [readFrom, State.broken]
  | fold first further => simp [readFrom, State.broken]

end Yaml.Quoted

/-! ## Literal values -/

namespace Scalar

open Yaml Yaml.Quoted

/-- Whether a character stands for itself between double quotes, with a backslash in front of it if it
is a quote or a backslash. -/
def isLiteral (c : Char) : Bool := isPrintable c && !isLineBreak c

/-- Whether a value is read as it is written between double quotes. -/
def IsLiteral (value : Text) : Prop := ∀ c ∈ value, isLiteral c = true

instance (value : Text) : Decidable (IsLiteral value) :=
  List.decidableBAll (fun c => isLiteral c = true) value

theorem IsLiteral.append {a b : Text} (ha : IsLiteral a) (hb : IsLiteral b) : IsLiteral (a ++ b) := by
  intro c hc
  rcases List.mem_append.1 hc with hc | hc
  · exact ha c hc
  · exact hb c hc

theorem IsLiteral.not_mem {value : Text} (h : IsLiteral value) {c : Char} (hc : isLiteral c = false) :
    c ∉ value := by
  intro hmem
  rw [h c hmem] at hc
  exact Bool.noConfusion hc

theorem escapeLetter_cases (c : Char) :
    (c = '\\' ∨ c = '"') ∧ escapeLetter c = ['\\', c] ∨
      c ≠ '\\' ∧ c ≠ '"' ∧ escapeLetter c = [c] := by
  by_cases hslash : c = '\\'
  · exact Or.inl ⟨Or.inl hslash, by simp [escapeLetter, hslash]⟩
  · by_cases hquote : c = '"'
    · exact Or.inl ⟨Or.inr hquote, by simp [escapeLetter, hquote]⟩
    · exact Or.inr ⟨hslash, hquote, by simp [escapeLetter, hslash, hquote]⟩

theorem mem_escape {value : Text} {c : Char} (h : c ∈ escape value) : c ∈ value ∨ c = '\\' := by
  obtain ⟨d, hd, hc⟩ := List.mem_flatMap.1 h
  rcases escapeLetter_cases d with ⟨-, heq⟩ | ⟨-, -, heq⟩
  · rw [heq] at hc
    rcases List.mem_cons.1 hc with rfl | hc
    · exact Or.inr rfl
    · exact Or.inl (List.mem_singleton.1 hc ▸ hd)
  · rw [heq] at hc
    exact Or.inl (List.mem_singleton.1 hc ▸ hd)

/-- The reader that has a literal value in front of it takes it in up to the closing quote. -/
theorem readFrom_escape {value : Text} (h : IsLiteral value) {state : State}
    (hstate : state = .word ∨ ∃ spaces, state = .gap spaces) (rest : Text) :
    readFrom .double state (escape value ++ '"' :: rest) = .ok (state.pending ++ value, rest) := by
  have hopen : state.IsOpen := by
    rcases hstate with rfl | ⟨spaces, rfl⟩ <;> trivial
  induction value generalizing state with
  | nil => rw [escape_nil, List.nil_append, readFrom_close hopen, List.append_nil]
  | cons c cs ih =>
      have hcs : IsLiteral cs := fun d hd => h d (List.mem_cons_of_mem _ hd)
      have hc : isLineBreak c = false := by
        have := h c List.mem_cons_self
        simp only [isLiteral, Bool.and_eq_true, Bool.not_eq_true'] at this
        exact this.2
      have hword := @ih hcs .word (Or.inl rfl) trivial
      rw [escape_cons, List.append_assoc]
      rcases escapeLetter_cases c with ⟨hspecial, heq⟩ | ⟨hslash, hquote, heq⟩
      · rw [heq]
        simp only [List.cons_append, List.nil_append]
        rw [readFrom_backslash hopen, readFrom_escaped hspecial, hword, prepend_ok, prepend_ok]
        simp [State.pending]
      · rw [heq]
        simp only [List.cons_append, List.nil_append]
        -- spaces wait in the state until it is known that no line break follows
        cases hspace : isSpace c with
        | true =>
            have hspaced : ∃ spaces, state.spaced c = .gap spaces ∧
                State.pending (.gap spaces) = state.pending ++ [c] := by
              rcases hstate with rfl | ⟨spaces, rfl⟩
              · exact ⟨[c], rfl, rfl⟩
              · exact ⟨c :: spaces, rfl, by simp [State.pending]⟩
            obtain ⟨spaces, hgap, hpending⟩ := hspaced
            rw [readFrom_space hopen hspace, hgap,
              ih hcs (Or.inr ⟨spaces, rfl⟩) trivial, hpending]
            simp
        | false =>
            rw [readFrom_letter hopen hc hspace hquote hslash, hword, prepend_ok]
            simp [State.pending]

/-- A line feed is not escaped, and nothing else is written with one in front. -/
theorem exists_eq_of_escape_append {value closing tail : Text}
    (hclosing : closing = [] ∨ ∃ rest, closing = '"' :: rest) (h : escape value ++ closing = '\n' :: tail) :
    ∃ rest, value = '\n' :: rest := by
  cases value with
  | nil => rcases hclosing with rfl | ⟨rest, rfl⟩ <;> simp [escape_nil] at h
  | cons c cs =>
      rw [escape_cons] at h
      rcases escapeLetter_cases c with ⟨-, hc⟩ | ⟨-, -, hc⟩
      · simp [hc] at h
      · rw [hc, List.singleton_append, List.cons_append, List.cons.injEq] at h
        exact ⟨cs, by rw [h.1]⟩

/-- An escaped text holds no closing quote and no code of a character: it is read up to what closes it,
or not at all. -/
theorem readFrom_escape_append (value : Text) {state : State} (hopen : state.IsOpen) {closing : Text}
    (hclosing : closing = [] ∨ ∃ rest, closing = '"' :: rest) :
    readFrom .double state (escape value ++ closing) = .error .malformed ∨
      closing ≠ [] ∧ ∃ read, readFrom .double state (escape value ++ closing) = .ok (read, closing.tail) := by
  -- by the length of the value: a carriage return and a line feed are taken at once
  induction hn : value.length using Nat.strong_induction_on generalizing value state with
  | _ n ih =>
    have hshorter : ∀ tail : Text, tail.length < value.length → ∀ next : State, next.IsOpen →
        readFrom .double next (escape tail ++ closing) = .error .malformed ∨
          closing ≠ [] ∧ ∃ read, readFrom .double next (escape tail ++ closing) = .ok (read, closing.tail) :=
      fun tail htail next hnext => ih tail.length (hn ▸ htail) tail hnext rfl
    have hprepend : ∀ more tail, tail.length < value.length →
        prepend more (readFrom .double .word (escape tail ++ closing)) = .error .malformed ∨
          closing ≠ [] ∧ ∃ read,
            prepend more (readFrom .double .word (escape tail ++ closing)) = .ok (read, closing.tail) := by
      intro more tail htail
      rcases hshorter tail htail .word trivial with h | ⟨hne, read, h⟩
      · exact Or.inl (by rw [h]; rfl)
      · exact Or.inr ⟨hne, _, by rw [h]; rfl⟩
    cases value with
    | nil =>
        rw [escape_nil, List.nil_append]
        rcases hclosing with rfl | ⟨rest, rfl⟩
        · exact Or.inl (readFrom_nil .double state)
        · exact Or.inr ⟨by simp, _, readFrom_close hopen rest⟩
    | cons c cs =>
        have hcs := hshorter cs (by simp)
        rw [escape_cons]
        rcases escapeLetter_cases c with ⟨hspecial, heq⟩ | ⟨hslash, hquote, heq⟩
        · rw [heq]
          simp only [List.cons_append, List.nil_append]
          rw [readFrom_backslash hopen, readFrom_escaped hspecial, prepend_prepend]
          exact hprepend _ cs (by simp)
        -- what is not escaped is a line break, a space or an ordinary character
        · rw [heq, List.singleton_append, List.cons_append]
          by_cases hpair : ∃ tail, c = '\r' ∧ cs = '\n' :: tail
          · obtain ⟨tail, rfl, rfl⟩ := hpair
            have hescape : escape ('\n' :: tail) = '\n' :: escape tail := rfl
            rw [hescape, List.cons_append]
            rw [readFrom_return_lineFeed hopen]
            split
            · exact Or.inl rfl
            · exact hshorter tail (by simp only [List.length_cons]; omega) _ (State.isOpen_broken _ _)
          · cases hbreak : isLineBreak c with
            | true =>
                have hapart : ∀ tail, c = '\r' → escape cs ++ closing = '\n' :: tail → False := by
                  intro tail hc htail
                  obtain ⟨ds, rfl⟩ := exists_eq_of_escape_append hclosing htail
                  exact hpair ⟨ds, hc, rfl⟩
                rw [readFrom_break hopen hbreak hapart]
                split
                · exact Or.inl rfl
                · exact hcs _ (State.isOpen_broken _ _)
            | false =>
                cases hspace : isSpace c with
                | true =>
                    rw [readFrom_space hopen hspace]
                    exact hcs _ (State.isOpen_spaced c state)
                | false =>
                    rw [readFrom_letter hopen hbreak hspace hquote hslash]
                    exact hprepend _ cs (by simp)

/-- An escaped text alone is not closed. -/
theorem readFrom_escape_error (value : Text) {state : State} (hopen : state.IsOpen) :
    readFrom .double state (escape value) = .error .malformed := by
  rcases readFrom_escape_append value hopen (Or.inl rfl) with h | ⟨hne, -⟩
  · rwa [List.append_nil] at h
  · exact absurd rfl hne

/-! ## Values between double quotes -/

theorem isQuoted_quote (value : Text) : isQuoted (quote value) = true := by
  have hlast : (quote value).getLast? = some '"' := List.getLast?_concat
  have hhead : (quote value).head? = some '"' := rfl
  have hlength : 2 ≤ (quote value).length := by simp [quote]
  simp [isQuoted, hlast, hhead, hlength]

theorem strip_quote (value : Text) : strip (quote value) = quote value :=
  strip_cons_concat (by decide) (by decide) (escape value)

theorem readDocument_quote {value : Text} (h : IsLiteral value) :
    readDocument (quote value) = .ok (some value) := by
  have hprintable : (quote value).all isPrintable = true := by
    rw [List.all_eq_true]
    intro c hc
    have hcases : c = '"' ∨ c ∈ escape value := by
      simp only [quote, List.cons_append, List.mem_cons, List.mem_append, List.not_mem_nil] at hc
      tauto
    rcases hcases with rfl | hc
    · decide
    · rcases mem_escape hc with hc | rfl
      · have := h c hc
        simp only [isLiteral, Bool.and_eq_true] at this
        exact this.1
      · decide
  have hread : read (quote value) = .ok (value, []) :=
    readFrom_escape h (Or.inl rfl) []
  unfold readDocument
  rw [hprintable, hread]
  rfl

/-- A literal value is read back from what it is written as. -/
theorem unquote_quote {value : Text} (h : IsLiteral value) : unquote (quote value) = value := by
  unfold unquote
  simp only [strip_quote, isQuoted_quote, if_true, readDocument_quote h]

/-- What is written is one scalar, if it is well formed. -/
theorem readDocument_quote_cases (value : Text) :
    readDocument (quote value) = .error .malformed ∨ ∃ read, readDocument (quote value) = .ok (some read) := by
  have hopened : read (quote value) = readFrom .double .word (escape value ++ ['"']) := rfl
  unfold readDocument
  rw [hopened]
  split
  · exact Or.inl rfl
  · rcases readFrom_escape_append value (show State.IsOpen .word from trivial) (Or.inr ⟨[], rfl⟩) with
      heq | ⟨-, read, heq⟩ <;> rw [heq]
    · exact Or.inl rfl
    · exact Or.inr ⟨read, rfl⟩

/-- What is written has a value. -/
theorem fault?_quote (value : Text) : fault? (quote value) = none := by
  unfold fault?
  simp only [strip_quote, isQuoted_quote, if_true]
  rcases readDocument_quote_cases value with h | ⟨read, h⟩ <;> rw [h]

/-- What is written escapes nothing but backslashes and quotes. -/
theorem namesHalf_quote (value : Text) : namesHalf (quote value) = false := by
  have key : Yaml.Quoted.namesHalf (escape value ++ ['"']) = false := by
    induction value with
    | nil => rfl
    | cons c cs ih =>
        rw [escape_cons]
        rcases escapeLetter_cases c with ⟨hspecial, heq⟩ | ⟨hslash, hquote, heq⟩
        · rw [heq]
          rcases hspecial with rfl | rfl <;> exact ih
        · rw [heq, List.singleton_append, List.cons_append, Yaml.Quoted.namesHalf, ih] <;> simp_all
  unfold namesHalf
  rw [strip_quote]
  exact key

theorem unquote_strip (raw : Text) : unquote (strip raw) = unquote raw := by
  unfold unquote
  rw [strip_strip]

/-- Whether a value keeps to its line and is read back from what it is written as. -/
def IsFaithful (value : Text) : Prop := '\n' ∉ value ∧ unquote (quote value) = value

instance (value : Text) : Decidable (IsFaithful value) := by
  unfold IsFaithful
  infer_instance

theorem IsLiteral.isFaithful {value : Text} (h : IsLiteral value) : IsFaithful value :=
  ⟨h.not_mem (by decide), unquote_quote h⟩

/-- What is read of a value that is written: it is cut off at its first line feed. -/
def reread (value : Text) : Text := unquote ((quote value).takeWhile (· ≠ '\n'))

/-! ## Names between double quotes -/

theorem toNat_of_isNameLetter {c : Char} (h : isNameLetter c = true) :
    c.toNat = 0x2d ∨ (0x30 ≤ c.toNat ∧ c.toNat ≤ 0x39) ∨ (0x41 ≤ c.toNat ∧ c.toNat ≤ 0x5a) ∨
      c.toNat = 0x5f ∨ (0x61 ≤ c.toNat ∧ c.toNat ≤ 0x7a) ∨ c.toNat = 0x401 ∨
      (0x410 ≤ c.toNat ∧ c.toNat ≤ 0x44f) ∨ c.toNat = 0x451 := by
  have hle : ∀ a b : Char, a ≤ b ↔ a.toNat ≤ b.toNat := fun _ _ => Iff.rfl
  have heq : ∀ a b : Char, a = b ↔ a.toNat = b.toNat :=
    fun a b => ⟨congrArg _, fun h => Char.ext (UInt32.toNat_inj.1 h)⟩
  simp only [isNameLetter, isKeyLetter, Bool.or_eq_true, Bool.and_eq_true, decide_eq_true_eq, hle, heq,
    show 'A'.toNat = 0x41 from rfl, show 'Z'.toNat = 0x5a from rfl, show 'a'.toNat = 0x61 from rfl,
    show 'z'.toNat = 0x7a from rfl, show 'А'.toNat = 0x410 from rfl, show 'я'.toNat = 0x44f from rfl,
    show 'Ё'.toNat = 0x401 from rfl, show 'ё'.toNat = 0x451 from rfl, show '0'.toNat = 0x30 from rfl,
    show '9'.toNat = 0x39 from rfl, show '_'.toNat = 0x5f from rfl, show '-'.toNat = 0x2d from rfl] at h
  omega

theorem isLiteral_of_isNameLetter {c : Char} (h : isNameLetter c = true) : isLiteral c = true := by
  have hbreak : isLineBreak c = false := by
    cases hb : isLineBreak c with
    | false => rfl
    | true =>
        simp only [isLineBreak, Bool.or_eq_true, decide_eq_true_eq] at hb
        rcases hb with (((rfl | rfl) | rfl) | rfl) | rfl <;> exact absurd h (by decide)
  have hc := toNat_of_isNameLetter h
  simp only [isLiteral, hbreak, isPrintable, Bool.not_false, Bool.and_true, Bool.or_eq_true,
    Bool.and_eq_true, decide_eq_true_eq]
  omega

theorem isBlank_of_isNameLetter {c : Char} (h : isNameLetter c = true) : isBlank c = false := by
  cases hb : isBlank c with
  | false => rfl
  | true =>
      obtain ⟨range, hmem, hrange⟩ := CodeRanges.exists_of_has hb
      have hc := toNat_of_isNameLetter h
      simp only [blankRanges, List.mem_cons, List.not_mem_nil, or_false] at hmem
      rcases hmem with rfl | rfl | rfl | rfl | rfl | rfl | rfl | rfl | rfl | rfl <;> omega

theorem isNameLetter_of_isIdentifier {name : Text} (h : isIdentifier name = true) :
    ∀ c ∈ name, isNameLetter c = true := by
  simp only [isIdentifier, Bool.and_eq_true, List.all_eq_true] at h
  exact h.2

theorem isLiteral_of_isIdentifier {name : Text} (h : isIdentifier name = true) : IsLiteral name :=
  fun c hc => isLiteral_of_isNameLetter (isNameLetter_of_isIdentifier h c hc)

theorem lineFeed_not_mem_of_isIdentifier {name : Text} (h : isIdentifier name = true) : '\n' ∉ name :=
  (isLiteral_of_isIdentifier h).not_mem (by decide)

theorem strip_of_isIdentifier {name : Text} (h : isIdentifier name = true) : strip name = name :=
  strip_of_not_blank fun c hc => isBlank_of_isNameLetter (isNameLetter_of_isIdentifier h c hc)

/-- The name of a parameter is read back from what it is written as. -/
theorem parameterName_quote {name : Text} (h : isIdentifier name = true) :
    parameterName (quote name) = name := by
  have hopening : name.head? ≠ some '[' := by
    intro hhead
    have := isNameLetter_of_isIdentifier h '[' (List.mem_of_mem_head? hhead)
    exact absurd this (by decide)
  have hclosing : name.getLast? ≠ some ']' := by
    intro hlast
    have := isNameLetter_of_isIdentifier h ']' (List.mem_of_mem_getLast? hlast)
    exact absurd this (by decide)
  unfold parameterName
  rw [unquote_quote (isLiteral_of_isIdentifier h), strip_of_isIdentifier h]
  simp only [dropBrackets, if_neg hopening, if_neg hclosing, strip_of_isIdentifier h]

/-! ## Values without a closing quote -/

theorem escape_append (a b : Text) : escape (a ++ b) = escape a ++ escape b :=
  List.flatMap_append

theorem stripRight_escape (value : Text) : stripRight (escape value) = escape (stripRight value) := by
  induction value using List.reverseRecOn with
  | nil => rfl
  | append_singleton front c ih =>
      have hlast : escape [c] = escapeLetter c := by simp [escape]
      cases hc : isBlank c with
      | true =>
          have hletter : escapeLetter c = [c] := by
            rcases escapeLetter_cases c with ⟨rfl | rfl, -⟩ | ⟨-, -, heq⟩
            · exact absurd hc (by decide)
            · exact absurd hc (by decide)
            · exact heq
          have hall : ∀ d ∈ [c], isBlank d = true := by simpa using hc
          rw [escape_append, hlast, hletter, stripRight_append hall, stripRight_append hall, ih]
      | false =>
          have hescape : ∃ before, escape (front ++ [c]) = before ++ [c] := by
            rw [escape_append, hlast]
            rcases escapeLetter_cases c with ⟨-, heq⟩ | ⟨-, -, heq⟩
            · exact ⟨escape front ++ ['\\'], by simp [heq]⟩
            · exact ⟨escape front, by rw [heq]⟩
          obtain ⟨before, hbefore⟩ := hescape
          rw [stripRight_concat_of_not_blank hc, hbefore, stripRight_concat_of_not_blank hc]

theorem strip_unclosed (value : Text) :
    strip ('"' :: escape value) = '"' :: escape (stripRight value) := by
  unfold strip
  rw [stripLeft_cons_of_not_blank (by decide), stripRight_cons_of_not_blank (by decide),
    stripRight_escape]

/-- What is read where a value's closing quote is missing holds no characters but those written. -/
theorem mem_unquote_unclosed {value : Text} {c : Char} (h : c ∈ unquote ('"' :: escape value)) :
    c = '"' ∨ c ∈ escape value := by
  -- a value without a closing quote is no document, so the quotes are cut off by hand
  have hread : ∀ tail, ∃ fault, readDocument ('"' :: escape tail) = .error fault := by
    intro tail
    unfold readDocument
    split
    · exact ⟨_, rfl⟩
    · have : read ('"' :: escape tail) = .error .malformed :=
        @readFrom_escape_error tail .word trivial
      rw [this]
      exact ⟨_, rfl⟩
  obtain ⟨fault, hfault⟩ := hread (stripRight value)
  have hstripped : ∀ d ∈ escape (stripRight value), d ∈ escape value := by
    intro d hd
    rw [← stripRight_escape] at hd
    exact dropEndWhile_subset hd
  simp only [unquote, strip_unclosed, hfault] at h
  split at h
  · have hc : c ∈ escape (stripRight value) := by
      exact List.dropLast_subset _ h
    exact Or.inr (hstripped c hc)
  · rcases List.mem_cons.1 h with rfl | hc
    · exact Or.inl rfl
    · exact Or.inr (hstripped c hc)

theorem lineFeed_not_mem_unquote_unclosed {value : Text} (h : '\n' ∉ value) :
    '\n' ∉ unquote ('"' :: escape value) := by
  intro hmem
  rcases mem_unquote_unclosed hmem with hc | hc
  · exact absurd hc (by decide)
  · rcases mem_escape hc with hc | hc
    · exact h hc
    · exact absurd hc (by decide)

/-! ## Values that are cut off -/

theorem takeWhile_quote_of_not_mem {value : Text} (h : '\n' ∉ value) :
    (quote value).takeWhile (· ≠ '\n') = quote value := by
  refine List.takeWhile_eq_self_iff.2 fun c hc => ?_
  have hescape : '\n' ∉ escape value := by
    intro hmem
    rcases mem_escape hmem with hmem | hmem
    · exact h hmem
    · exact absurd hmem (by decide)
  have hquote : '\n' ∉ quote value := by simp [quote, hescape]
  simp only [decide_eq_true_eq]
  rintro rfl
  exact hquote hc

theorem takeWhile_quote_append {front : Text} (h : '\n' ∉ front) (back : Text) :
    (quote (front ++ '\n' :: back)).takeWhile (· ≠ '\n') = '"' :: escape front := by
  have hescape : ∀ c ∈ '"' :: escape front, (c ≠ '\n') = true := by
    intro c hc
    simp only [ne_eq, eq_iff_iff, iff_true]
    rintro rfl
    rcases List.mem_cons.1 hc with hc | hc
    · exact absurd hc (by decide)
    · rcases mem_escape hc with hc | hc
      · exact h hc
      · exact absurd hc (by decide)
  have hquote : quote (front ++ '\n' :: back) = ('"' :: escape front) ++ '\n' :: (escape back ++ ['"']) := by
    rw [quote, escape_append, escape_cons]
    simp [escapeLetter]
  rw [hquote, List.takeWhile_append_of_pos (by simpa using hescape)]
  simp

/-- A value is faithful if and only if it is what is read of it once it is written. -/
theorem isFaithful_iff {value : Text} : IsFaithful value ↔ reread value = value := by
  unfold IsFaithful reread
  by_cases hvalue : '\n' ∈ value
  · obtain ⟨front, back, rfl, hfront⟩ := List.eq_append_cons_of_mem hvalue
    rw [takeWhile_quote_append hfront]
    constructor
    · exact fun h => absurd hvalue h.1
    · intro h
      have hfree := lineFeed_not_mem_unquote_unclosed hfront
      rw [h] at hfree
      exact absurd hvalue hfree
  · rw [takeWhile_quote_of_not_mem hvalue]
    exact ⟨fun h => h.2, fun h => ⟨hvalue, h⟩⟩

end Scalar

/-! ## Readings that are not refused -/

theorem eq_of_guardScalars_eq_ok {α : Type} {raws : List Text} {reading result : α}
    (h : guardScalars raws reading = .ok result) : result = reading := by
  unfold guardScalars at h
  split at h
  · exact absurd h (by simp)
  · exact (Except.ok.inj h).symm

/-- A reading is not refused if another one of the same scalars is not. -/
theorem guardScalars_eq_ok_of_eq_ok {α β : Type} {raws : List Text} {reading result : α}
    (h : guardScalars raws reading = .ok result) (other : β) : guardScalars raws other = .ok other := by
  unfold guardScalars at h ⊢
  split
  · next hfault => simp [hfault] at h
  · rfl

end Scenarist
