import Scenarist.Text.Basic
import Scenarist.Text.WordTable

set_option autoImplicit false

/-! # Words

Where a word ends: before the end of the text or a character that is no letter, number or low line. -/

namespace Scenarist.Text

def isWord (c : Char) : Bool := wordRanges.has c.toNat

/-- Whether a word that ran up to here ends here. -/
def wordEnds : Text → Bool
  | [] => true
  | c :: _ => !isWord c

end Scenarist.Text
