import Scenarist.Text.Basic

set_option autoImplicit false

/-! # UTF-8

The bytes of a text. A character takes one to four bytes: the first says how many, and the others carry
six bits each. Decoding accepts only what encoding writes: no longer forms, no halves of surrogate pairs,
nothing beyond the last code point.

Main statement: `decode_encode`. -/

namespace Scenarist.Text.Utf8

/-- A byte that continues a character, with six bits. -/
def continuation (bits : Nat) : UInt8 := UInt8.ofNat (0x80 + bits % 0x40)

def encodeChar (c : Char) : List UInt8 :=
  let n := c.toNat
  if n < 0x80 then [UInt8.ofNat n]
  else if n < 0x800 then [UInt8.ofNat (0xc0 + n / 0x40), continuation n]
  else if n < 0x10000 then
    [UInt8.ofNat (0xe0 + n / 0x1000), continuation (n / 0x40), continuation n]
  else
    [UInt8.ofNat (0xf0 + n / 0x40000), continuation (n / 0x1000), continuation (n / 0x40),
      continuation n]

def encode (text : Text) : List UInt8 := text.flatMap encodeChar

/-- The six bits of a byte that continues a character. -/
def bits? (byte : UInt8) : Option Nat :=
  if 0x80 ≤ byte.toNat ∧ byte.toNat < 0xc0 then some (byte.toNat - 0x80) else none

/-- The character of a code that is written in the shortest way, given the least code that needs as many
bytes. -/
def char? (least code : Nat) : Option Char :=
  if h : code.isValidChar then
    if least ≤ code then some (Char.ofNatAux code h) else none
  else none

/-- The text that bytes encode, if they encode one. -/
def decode : List UInt8 → Option Text
  | [] => some []
  | first :: rest =>
    let n := first.toNat
    if n < 0x80 then do
      let char ← char? 0 n
      let more ← decode rest
      return char :: more
    else if n < 0xc0 then none
    else if n < 0xe0 then match rest with
      | a :: rest => do
        let char ← char? 0x80 ((n - 0xc0) * 0x40 + (← bits? a))
        let more ← decode rest
        return char :: more
      | _ => none
    else if n < 0xf0 then match rest with
      | a :: b :: rest => do
        let char ← char? 0x800 (((n - 0xe0) * 0x40 + (← bits? a)) * 0x40 + (← bits? b))
        let more ← decode rest
        return char :: more
      | _ => none
    else if n < 0xf8 then match rest with
      | a :: b :: c :: rest => do
        let code := (((n - 0xf0) * 0x40 + (← bits? a)) * 0x40 + (← bits? b)) * 0x40 + (← bits? c)
        let char ← char? 0x10000 code
        let more ← decode rest
        return char :: more
      | _ => none
    else none

theorem toNat_continuation (n : Nat) : (continuation n).toNat = 0x80 + n % 0x40 := by
  have : n % 0x40 < 0x40 := Nat.mod_lt _ (by decide)
  simp only [continuation, UInt8.toNat_ofNat']
  omega

theorem bits?_continuation (n : Nat) : bits? (continuation n) = some (n % 0x40) := by
  have : n % 0x40 < 0x40 := Nat.mod_lt _ (by decide)
  simp only [bits?, toNat_continuation]
  rw [if_pos (by omega)]
  simp

theorem char?_toNat {least : Nat} (c : Char) (h : least ≤ c.toNat) : char? least c.toNat = some c := by
  have valid : c.toNat.isValidChar := c.valid
  unfold char?
  rw [dif_pos valid, if_pos h]
  rfl

theorem toNat_lt (c : Char) : c.toNat < 0x110000 := by
  have : c.toNat.isValidChar := c.valid
  rcases this with h | h <;> omega

theorem toNat_ofNat {n : Nat} (h : n < 0x100) : (UInt8.ofNat n).toNat = n := by
  simp only [UInt8.toNat_ofNat']
  omega

/-- Decoding takes off the front what encoding wrote for a character. -/
theorem decode_encodeChar_append (c : Char) (rest : List UInt8) :
    decode (encodeChar c ++ rest) = (decode rest).map (c :: ·) := by
  -- one case for each number of bytes; `code` puts the number together again from their bits
  have last := toNat_lt c
  unfold encodeChar
  dsimp only
  split
  · rename_i h
    rw [List.singleton_append, decode.eq_def]
    dsimp only
    simp only [toNat_ofNat (show c.toNat < 0x100 by omega), if_pos h]
    rw [char?_toNat c (Nat.zero_le _)]
    cases decode rest <;> rfl
  split
  · rename_i h₀ h
    have first : 0xc0 + c.toNat / 0x40 < 0x100 := by omega
    have code : (0xc0 + c.toNat / 0x40 - 0xc0) * 0x40 + c.toNat % 0x40 = c.toNat := by omega
    rw [List.cons_append, List.singleton_append, decode.eq_def]
    dsimp only
    simp only [toNat_ofNat first, bits?_continuation]
    rw [if_neg (by omega), if_neg (by omega), if_pos (by omega)]
    simp only [Option.bind_eq_bind, Option.bind_some, code]
    rw [char?_toNat c (by omega)]
    cases decode rest <;> rfl
  split
  · rename_i h₀ h₁ h
    have first : 0xe0 + c.toNat / 0x1000 < 0x100 := by omega
    have code : ((0xe0 + c.toNat / 0x1000 - 0xe0) * 0x40 + c.toNat / 0x40 % 0x40) * 0x40 +
        c.toNat % 0x40 = c.toNat := by omega
    rw [List.cons_append, List.cons_append, List.singleton_append, decode.eq_def]
    dsimp only
    simp only [toNat_ofNat first, bits?_continuation]
    rw [if_neg (by omega), if_neg (by omega), if_neg (by omega), if_pos (by omega)]
    simp only [Option.bind_eq_bind, Option.bind_some, code]
    rw [char?_toNat c (by omega)]
    cases decode rest <;> rfl
  · rename_i h₀ h₁ h₂
    have first : 0xf0 + c.toNat / 0x40000 < 0x100 := by omega
    have code : (((0xf0 + c.toNat / 0x40000 - 0xf0) * 0x40 + c.toNat / 0x1000 % 0x40) * 0x40 +
        c.toNat / 0x40 % 0x40) * 0x40 + c.toNat % 0x40 = c.toNat := by omega
    rw [List.cons_append, List.cons_append, List.cons_append, List.singleton_append, decode.eq_def]
    dsimp only
    simp only [toNat_ofNat first, bits?_continuation]
    rw [if_neg (by omega), if_neg (by omega), if_neg (by omega), if_neg (by omega),
      if_pos (by omega)]
    simp only [Option.bind_eq_bind, Option.bind_some, code]
    rw [char?_toNat c (by omega)]
    cases decode rest <;> rfl

/-- Decoding what was encoded gives the text back. -/
theorem decode_encode (text : Text) : decode (encode text) = some text := by
  induction text with
  | nil => rfl
  | cons c cs ih =>
    have : encode (c :: cs) = encodeChar c ++ encode cs := by simp [encode]
    rw [this, decode_encodeChar_append, ih]
    rfl

end Scenarist.Text.Utf8
