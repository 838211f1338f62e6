import Scenarist.Text.Blank
import Scenarist.Text.Case

set_option autoImplicit false

/-! # Similarity of texts

How alike two texts are: the edit distance, and the share of the longer text that it leaves. Scores are
exact fractions; only the comparison with a threshold is made in floating point, in `meets`, where a
score is rounded first.

Main definitions: `editDistance`, `similarity`, `closest`. Main statement: `length_distanceRow` (a row
of the table has one entry more than the text along it). -/

namespace Scenarist

/-! ## Edit distance -/

/-- The rest of a row of distances: `left` stands in front of it, `above` is the row above from the
entry over `left` on, and the texts along the row begin with `b`. -/
def distanceRowFrom (a : Char) (left : Nat) : (b : Text) → (above : List Nat) → List Nat
  | b :: bs, diagonal :: up :: above =>
    let entry := min (min (up + 1) (left + 1)) (diagonal + if a = b then 0 else 1)
    entry :: distanceRowFrom a entry bs (up :: above)
  | _, _ => []

/-- The row of distances from a text that ends with `a` to the beginnings of `b`, below the row for the
text without its last character. -/
def distanceRow (b : Text) (above : List Nat) (a : Char) : List Nat :=
  let first := above.head?.getD 0 + 1
  first :: distanceRowFrom a first b above

/-- The fewest insertions, deletions and substitutions of single characters that turn one text into
the other. -/
def editDistance (a b : Text) : Nat :=
  (a.foldl (distanceRow b) (List.range (b.length + 1))).getLast?.getD 0

theorem length_distanceRowFrom (a : Char) (left : Nat) (b : Text) (above : List Nat)
    (h : above.length = b.length + 1) : (distanceRowFrom a left b above).length = b.length := by
  induction b generalizing left above with
  | nil => simp [distanceRowFrom]
  | cons b bs ih =>
    match above, h with
    | diagonal :: up :: above, h =>
      simp only [distanceRowFrom, List.length_cons]
      rw [ih]
      simpa using h

/-- A row has one entry more than the text along it. -/
theorem length_distanceRow (b : Text) (above : List Nat) (a : Char)
    (h : above.length = b.length + 1) : (distanceRow b above a).length = b.length + 1 := by
  simp [distanceRow, length_distanceRowFrom _ _ _ _ h]

/-! ## Scores -/

/-- The share of the longer text that the edit distance leaves; nothing is like the empty text. -/
def similarity (a b : Text) : Rat :=
  if a.isEmpty || b.isEmpty then 0
  else 1 - (editDistance a b : Rat) / (max a.length b.length : Nat)

/-- The similarity of two texts but for case and the blanks around them. -/
def looseSimilarity (a b : Text) : Rat :=
  similarity (Text.lower (Text.strip a)) (Text.lower (Text.strip b))

/-- A score in floating point: the share of the distance is rounded, then what it leaves of one. -/
def roundScore (score : Rat) : Float :=
  let share := 1 - score
  1.0 - Float.ofInt share.num / Float.ofNat share.den

def meets (threshold : Float) (score : Rat) : Bool := threshold ≤ roundScore score

/-! ## The closest candidates -/

/-- The candidates from the best score down, equal scores in the order given, and at least one of
them, up to `count`. -/
def bestOf (count : Int) (scored : List (Rat × Text)) : List Text :=
  ((scored.mergeSort fun a b => decide (b.1 ≤ a.1)).map (·.2)).take (max 1 count).toNat

/-- The candidates most like a text, among those that reach the threshold. A blank text is like
none. -/
def closest (text : Text) (candidates : List Text) (count : Int) (threshold : Float) : List Text :=
  let wanted := Text.lower (Text.strip text)
  if wanted.isEmpty then []
  else bestOf count ((candidates.map fun candidate =>
    (similarity wanted (Text.lower candidate), candidate)).filter fun scored =>
      meets threshold scored.1)

end Scenarist
