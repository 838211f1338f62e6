import Scenarist.Proofs.Table
import Scenarist.Regeneration

set_option autoImplicit false

/-! # What a session keeps

Parameter data are remembered by document. Taking in those of one document, or dropping them, leaves what
the session knows of the others, and it touches neither the markers of passes at work nor the saved texts.

Main statement: `Session.KeepsOthers.regenerateParameters` (what the session takes in when the declared
parameters of a document are written anew). -/

namespace Scenarist

/-- What a session keeps while it takes in something about one document. -/
structure Session.KeepsOthers (uri : Text) (old new : Session) : Prop where
  overridesOf_eq : ∀ other, other ≠ uri → new.overridesOf other = old.overridesOf other
  processing_eq : new.processing = old.processing
  saved_eq : new.saved = old.saved

namespace Session.KeepsOthers

variable {uri : Text} {old between new : Session}

protected theorem refl (uri : Text) (session : Session) : session.KeepsOthers uri session :=
  ⟨fun _ _ => rfl, rfl, rfl⟩

protected theorem trans (h : old.KeepsOthers uri between) (h' : between.KeepsOthers uri new) :
    old.KeepsOthers uri new where
  overridesOf_eq other hother := (h'.overridesOf_eq other hother).trans (h.overridesOf_eq other hother)
  processing_eq := h'.processing_eq.trans h.processing_eq
  saved_eq := h'.saved_eq.trans h.saved_eq

theorem put (session : Session) (uri : Text) (data : Table ParameterData) :
    session.KeepsOthers uri { session with overrides := session.overrides.put uri data } where
  overridesOf_eq other hother := by
    unfold overridesOf
    rw [Table.get?_put, if_neg hother]
  processing_eq := rfl
  saved_eq := rfl

theorem merge (session : Session) (uri : Text) (data : Table ParameterData) :
    session.KeepsOthers uri (session.merge uri data) := put session uri _

theorem remember (session : Session) (uri name : Text) (data : ParameterData) :
    session.KeepsOthers uri (session.remember uri name data) := put session uri _

theorem clearOverrides (session : Session) (uri : Text) :
    session.KeepsOthers uri (session.clearOverrides uri) where
  overridesOf_eq other hother := by
    unfold overridesOf Session.clearOverrides
    rw [Table.get?_erase, if_neg hother]
  processing_eq := rfl
  saved_eq := rfl

/-- Writing the declared parameters anew touches the parameter data of the document alone. -/
theorem regenerateParameters (session : Session) (uri text : Text) (exclusions : List Text) :
    session.KeepsOthers uri (Scenarist.regenerateParameters session uri text exclusions).2 := by
  have hfold : ∀ (names : List Text) (start : Session), start.KeepsOthers uri
      (names.foldl (fun session name => session.remember uri name (ParameterData.ofName name)) start) := by
    intro names
    induction names with
    | nil => exact fun start => .refl uri start
    | cons name names ih => exact fun start => (remember start uri name _).trans (ih _)
  have hmerged := merge session uri (Declaration.parameterData text)
  unfold Scenarist.regenerateParameters
  simp only
  split
  · exact hmerged.trans (hfold _ _)
  · exact hmerged

end Session.KeepsOthers

end Scenarist
