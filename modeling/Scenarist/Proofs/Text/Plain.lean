import Scenarist.Proofs.Step.Instance

set_option autoImplicit false

/-! # Letters without variants

Most letters of ASCII are the same letter as their capitals and as nothing else, while `i`, `k` and `s` are
also that of characters beyond ASCII. So a word without these three is spelled by just the texts that become
the word when the capitals of ASCII are made small.

Main statement: `spells_iff_of_plain`. -/

namespace Scenarist

namespace Text

/-- The code points of the low line and of the small letters of ASCII, but for the three that have variants
or capitals beyond it. -/
def plainCodes : List Nat := "abcdefghjlmnopqrtuvwxyz_".toList.map Char.toNat

theorem toNat_lt_of_letterKey_mem {c : Char} (h : letterKey c ∈ plainCodes) : c.toNat < 128 := by
  have hvariants : (letterVariants.all fun entry => entry.2 ∉ plainCodes) = true := by decide +kernel
  have hshifts : (lowerShifts.all fun run => run.last < 128 ∨ ∀ code ∈ plainCodes,
      (code : Int) < run.first + run.distance ∨ run.last + run.distance < code) = true := by decide +kernel
  have hsmall : ∀ code ∈ plainCodes, 0 < code ∧ code < 128 := by decide
  have hlower : (lowerLetter c).toNat ∈ plainCodes := by
    unfold letterKey at h
    cases hlookup : letterVariants.lookup (lowerLetter c).toNat with
    | none => rwa [hlookup] at h
    | some key =>
        rw [hlookup] at h
        obtain ⟨front, back, hsplit, -⟩ := List.lookup_eq_some_iff.1 hlookup
        have hkey := List.all_eq_true.1 hvariants ((lowerLetter c).toNat, key) (by simp [hsplit])
        exact absurd h (by simpa using hkey)
  have hmoved : lowerShifts.apply c.toNat ∈ plainCodes := by
    by_cases hvalid : (lowerShifts.apply c.toNat).isValidChar
    · rwa [lowerLetter, Char.ofNat, dif_pos hvalid] at hlower
    · rw [lowerLetter, Char.ofNat, dif_neg hvalid] at hlower
      exact absurd hlower (by decide)
  rcases lowerShifts.apply_cases c.toNat with hsame | ⟨run, hrun, hfirst, hlast, hmove⟩
  · rw [hsame] at hmoved
    exact (hsmall _ hmoved).2
  · -- only the capitals of ASCII move to one of the letters
    rcases of_decide_eq_true (List.all_eq_true.1 hshifts run hrun) with hascii | hapart
    · omega
    · have hpositive := (hsmall _ hmoved).1
      have hoff := hapart _ hmoved
      omega

theorem toNat_lt_of_toLower_mem {c : Char} (h : c.toLower.toNat ∈ plainCodes) : c.toNat < 128 := by
  have hsmall : ∀ code ∈ plainCodes, code < 128 := by decide
  unfold Char.toLower at h
  split at h
  · next hcapital =>
    exact Nat.lt_of_le_of_lt (UInt32.le_iff_toNat_le.1 hcapital.2) (by decide)
  · exact hsmall _ h

theorem letterKey_eq_iff_of_plain {c : Char} {code : Nat} (hcode : code ∈ plainCodes) :
    letterKey c = code ↔ c.toLower.toNat = code := by
  have hascii : ∀ n < 128, ∀ code ∈ plainCodes,
      (letterKey (Char.ofNat n) = code ↔ (Char.ofNat n).toLower.toNat = code) := by decide +kernel
  have hsmall : c.toNat < 128 → (letterKey c = code ↔ c.toLower.toNat = code) := by
    intro hlt
    have h := hascii c.toNat hlt code hcode
    rwa [Char.ofNat_toNat] at h
  constructor
  · intro h
    exact (hsmall (toNat_lt_of_letterKey_mem (h ▸ hcode))).1 h
  · intro h
    exact (hsmall (toNat_lt_of_toLower_mem (h ▸ hcode))).2 h

/-- A word of these letters is spelled by the texts that it is the lower-case form of, letter by letter. -/
theorem spells_iff_of_plain {word text : Text} (hword : ∀ w ∈ word, w.toNat ∈ plainCodes) :
    Spells word text ↔ text.map Char.toLower = word := by
  have hself : ∀ code ∈ plainCodes, letterKey (Char.ofNat code) = code := by decide +kernel
  induction word generalizing text with
  | nil => simp [Spells]
  | cons w ws ih =>
      cases text with
      | nil => simp [Spells]
      | cons c cs =>
          have hw : letterKey w = w.toNat := by
            have h := hself w.toNat (hword w List.mem_cons_self)
            rwa [Char.ofNat_toNat] at h
          have hletter : letterKey c = letterKey w ↔ c.toLower = w := by
            rw [hw, letterKey_eq_iff_of_plain (hword w List.mem_cons_self), Char.toNat_inj]
          have hrest := @ih cs fun w hmem => hword w (List.mem_cons_of_mem _ hmem)
          unfold Spells at hrest ⊢
          simp only [List.map_cons, List.cons.injEq, hletter, hrest]

end Text

end Scenarist
