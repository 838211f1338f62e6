set_option autoImplicit false

/-! # Exact values of floating-point numbers

A finite floating-point number is a whole number times a power of two. Times and rounded scores are
taken out of floating point by this value. -/

namespace Scenarist

def twoTo (exponent : Nat) : Nat := Nat.pow 2 exponent

/-- The exact value of a floating-point number; absent for infinities and what is no number. -/
def exactValue? (f : Float) : Option Rat :=
  let bits : Nat := f.toBits.toNat
  let exponent : Nat := bits / twoTo 52 % twoTo 11
  let fraction : Nat := bits % twoTo 52
  if exponent = 2047 then none
  else
    let mantissa : Nat := if exponent = 0 then fraction else twoTo 52 + fraction
    let power : Int := (if exponent = 0 then 1 else Int.ofNat exponent) - 1075
    let size : Rat :=
      if power < 0 then mkRat mantissa (twoTo power.natAbs) else mantissa * (twoTo power.natAbs : Nat)
    some (if bits / twoTo 63 = 1 then -size else size)

end Scenarist
