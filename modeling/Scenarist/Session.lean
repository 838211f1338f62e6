import Scenarist.Declaration

set_option autoImplicit false

/-! # Sessions

What is remembered about open documents between edits: the parameter data that a document once
declared, whether a repair pass is at work on it, and the text that was last saved. -/

namespace Scenarist

/-- What is remembered, by document. -/
structure Session where
  /-- The parameter data of each document. -/
  overrides : Table (Table ParameterData) := []
  /-- The documents that a pass is at work on. -/
  processing : List Text := []
  /-- The last saved text of each document. -/
  saved : Table Text := []
  deriving DecidableEq, Repr

namespace Session

/-! ## Parameter data -/

/-- The parameter data remembered for a document. -/
def overridesOf (session : Session) (uri : Text) : Table ParameterData :=
  (session.overrides.get? uri).getD []

/-- The session with parameter data of a document remembered; it replaces what was known under the same
names. -/
def merge (session : Session) (uri : Text) (data : Table ParameterData) : Session :=
  { session with overrides := session.overrides.put uri ((session.overridesOf uri).putAll data) }

def remember (session : Session) (uri name : Text) (data : ParameterData) : Session :=
  { session with overrides := session.overrides.put uri ((session.overridesOf uri).put name data) }

def clearOverrides (session : Session) (uri : Text) : Session :=
  { session with overrides := session.overrides.erase uri }

/-! ## Passes at work -/

def isProcessing (session : Session) (uri : Text) : Bool := uri ∈ session.processing

/-- A pass takes a document on, unless another one is at work on it: whether it does, and the session
afterwards. -/
def begin (session : Session) (uri : Text) : Bool × Session :=
  if session.isProcessing uri then (false, session)
  else (true, { session with processing := uri :: session.processing })

def finish (session : Session) (uri : Text) : Session :=
  { session with processing := session.processing.filter (· ≠ uri) }

/-! ## Saved texts -/

def recordSaved (session : Session) (uri text : Text) : Session :=
  { session with saved := session.saved.put uri text }

def lastSaved? (session : Session) (uri : Text) : Option Text := session.saved.get? uri

/-- The session without anything about a document. -/
def close (session : Session) (uri : Text) : Session :=
  let session := (session.clearOverrides uri).finish uri
  { session with saved := session.saved.erase uri }

end Session

end Scenarist
