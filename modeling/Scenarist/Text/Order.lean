import Scenarist.Text.Case

set_option autoImplicit false

/-! # Orders on texts

Texts are sorted by their code points, or by those of their lower-case forms. Sorting keeps texts of
equal rank in the order given. -/

namespace Scenarist.Text

/-- Whether a text comes no later than another by code points. -/
def le : Text → Text → Bool
  | [], _ => true
  | _ :: _, [] => false
  | a :: as, b :: bs => a < b || (a = b && le as bs)

def sortBy {α : Type} (key : α → Text) (values : List α) : List α :=
  values.mergeSort fun a b => le (key a) (key b)

def sort (texts : List Text) : List Text := sortBy id texts

def sortLower (texts : List Text) : List Text := sortBy lower texts

end Scenarist.Text
