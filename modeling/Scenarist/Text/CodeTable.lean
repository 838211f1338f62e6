set_option autoImplicit false

/-! # Tables of code points

A property of characters is a list of ranges of code points in increasing order; a mapping is a list of
runs that all move by the same distance. A search stops at the first range that begins beyond the
character. -/

namespace Scenarist.Text

/-- Ranges of code points, both ends included, in increasing order. -/
abbrev CodeRanges := List (Nat × Nat)

def CodeRanges.has : CodeRanges → Nat → Bool
  | [], _ => false
  | (first, last) :: rest, n =>
    if n < first then false else if n ≤ last then true else CodeRanges.has rest n

/-- Every `step`-th code point from `first` to `last` moves by `distance`. -/
structure CodeShift where
  first : Nat
  last : Nat
  step : Nat
  distance : Int
  deriving DecidableEq, Repr

/-- Runs of code points that move together, in increasing order. -/
abbrev CodeShifts := List CodeShift

/-- Where the runs move a code point; itself if no run holds it. -/
def CodeShifts.apply : CodeShifts → Nat → Nat
  | [], n => n
  | run :: rest, n =>
    if n < run.first then n
    else if n ≤ run.last ∧ (n - run.first) % run.step = 0 then (n + run.distance).toNat
    else CodeShifts.apply rest n

end Scenarist.Text
