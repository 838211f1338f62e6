import Scenarist.Proofs.Frame
import Scenarist.Proofs.Session

set_option autoImplicit false

/-! # What a session remembers of parameters

While a document is edited, parameters come and go in its script, and each time its declared parameters
are written anew. The session takes in what every text declares, so a parameter that comes back gets the
data that a text of the same document declared last; one that was never declared gets the data that are
made up from its name. Data made up before are remembered too, but they are those that would be made up
again.

Main statements: `ParameterCall.dataOf_run` (what the session knows after any calls) and
`ParameterCall.declared_of_run` (what the text that a call returns declares). -/

namespace Scenarist

open Text

/-! ## What the session knows -/

namespace Session

/-- The data known of a parameter: those that are remembered, or else those made up from its name. -/
def dataOf (session : Session) (uri name : Text) : ParameterData :=
  ((session.overridesOf uri).get? name).getD (ParameterData.ofName name)

variable {session : Session} {uri name : Text}

theorem dataOf_merge (session : Session) (uri : Text) {data : Table ParameterData}
    (h : (Table.keys data).Nodup) (name : Text) :
    (session.merge uri data).dataOf uri name = (data.get? name).getD (session.dataOf uri name) := by
  unfold dataOf
  rw [get?_overridesOf_merge session uri h]
  cases data.get? name <;> rfl

/-- Data made up from a name may be remembered if nothing else is known of it. -/
theorem dataOf_remember_ofName {other : Text}
    (h : session.dataOf uri other = ParameterData.ofName other) :
    (session.remember uri other (ParameterData.ofName other)).dataOf uri name = session.dataOf uri name := by
  have hget : ((session.remember uri other (ParameterData.ofName other)).overridesOf uri).get? name =
      if name = other then some (ParameterData.ofName other) else (session.overridesOf uri).get? name := by
    unfold overridesOf remember
    rw [Table.get?_put, if_pos rfl, Option.getD_some, Table.get?_put]
    rfl
  unfold dataOf
  rw [hget]
  by_cases hname : name = other
  · rw [if_pos hname, hname]
    exact h.symm
  · rw [if_neg hname]

theorem dataOf_foldl_remember {names : List Text}
    (h : ∀ other ∈ names, session.dataOf uri other = ParameterData.ofName other) :
    (names.foldl (fun session other => session.remember uri other (ParameterData.ofName other))
      session).dataOf uri name = session.dataOf uri name := by
  induction names generalizing session with
  | nil => rfl
  | cons first names ih =>
      -- Remembering the first changes no data, so the others still have those of their names.
      have hfirst := h first List.mem_cons_self
      rw [List.foldl_cons, ih fun other hother => ?_, dataOf_remember_ofName hfirst]
      rw [dataOf_remember_ofName hfirst]
      exact h other (List.mem_cons_of_mem _ hother)

/-- When the declared parameters of a document are written anew, the session takes in what the text
declares. -/
theorem dataOf_regenerateParameters (session : Session) (uri text : Text) (exclusions : List Text)
    (name : Text) :
    (regenerateParameters session uri text exclusions).2.dataOf uri name =
      ((Declaration.parameterData text).get? name).getD (session.dataOf uri name) := by
  have hmerge := dataOf_merge session uri (Declaration.nodup_keys_parameterData text)
  rw [← hmerge name]
  unfold regenerateParameters
  simp only
  -- If the text changes, names are remembered of which the merged session knows nothing.
  split
  · refine dataOf_foldl_remember fun other hother => ?_
    have hunknown := (List.mem_filter.1 hother).2
    unfold dataOf
    simp only [Table.has, Bool.not_eq_true', Option.isSome_eq_false_iff, Option.isNone_iff_eq_none]
      at hunknown
    rw [hunknown]
    rfl
  · rfl

/-- What is written for a parameter is what the text declares, or else what the session knows. -/
theorem writtenData_eq_dataOf (session : Session) (uri text name : Text) :
    writtenData session uri text name =
      (((Declaration.parameterData text).get? name).getD (session.dataOf uri name)).filled := by
  rw [← dataOf_merge session uri (Declaration.nodup_keys_parameterData text) name]
  rfl

end Session

/-! ## Calls one after the other -/

/-- A call that writes the declared parameters of a document anew. -/
structure ParameterCall where
  uri : Text
  text : Text
  /-- The parameters that are never declared. -/
  exclusions : List Text
  deriving DecidableEq

namespace ParameterCall

def returned (session : Session) (call : ParameterCall) : Text :=
  (regenerateParameters session call.uri call.text call.exclusions).1.text

def run (session : Session) (calls : List ParameterCall) : Session :=
  calls.foldl (fun session call =>
    (regenerateParameters session call.uri call.text call.exclusions).2) session

/-- The data of a parameter from the last of the calls for a document whose text declares it with a
value. -/
def latestData? (uri name : Text) (calls : List ParameterCall) : Option ParameterData :=
  (calls.filter (·.uri = uri)).reverse.findSome? fun call =>
    (Declaration.parameterData call.text).get? name

/-- Whether all that a text declares consists of characters that stand for themselves between double
quotes. -/
def IsLiteral (call : ParameterCall) : Prop :=
  ∀ entry ∈ Declaration.parameterData call.text, entry.2.All Scalar.IsLiteral

instance (call : ParameterCall) : Decidable call.IsLiteral :=
  inferInstanceAs (Decidable (∀ entry ∈ Declaration.parameterData call.text,
    Scalar.IsLiteral entry.2.value ∧ Scalar.IsLiteral entry.2.type ∧
      Scalar.IsLiteral entry.2.outgoing))

variable {session : Session} {calls : List ParameterCall} {call : ParameterCall} {uri name : Text}

theorem latestData?_concat (calls : List ParameterCall) (call : ParameterCall) (uri name : Text) :
    latestData? uri name (calls ++ [call]) =
      (if call.uri = uri then (Declaration.parameterData call.text).get? name else none).or
        (latestData? uri name calls) := by
  unfold latestData?
  rw [List.filter_append, List.reverse_append, List.findSome?_append]
  by_cases huri : call.uri = uri <;> simp [huri]

theorem exists_of_latestData? {data : ParameterData} (h : latestData? uri name calls = some data) :
    ∃ call ∈ calls, (Declaration.parameterData call.text).get? name = some data := by
  obtain ⟨call, hcall, hdata⟩ := List.exists_of_findSome?_eq_some h
  exact ⟨call, List.mem_of_mem_filter (List.mem_reverse.1 hcall), hdata⟩

/-- What the session knows after calls is what was declared last, or else what it knew. -/
theorem dataOf_run (session : Session) (calls : List ParameterCall) (uri name : Text) :
    (run session calls).dataOf uri name = (latestData? uri name calls).getD (session.dataOf uri name) := by
  induction calls using List.reverseRecOn with
  | nil => rfl
  | append_singleton calls call ih =>
      have hrun : run session (calls ++ [call]) =
          (regenerateParameters (run session calls) call.uri call.text call.exclusions).2 := by
        simp [run]
      rw [hrun, latestData?_concat]
      -- the last call says all there is to say of its own document, and nothing of any other one
      by_cases huri : call.uri = uri
      · rw [if_pos huri, ← huri, Session.dataOf_regenerateParameters, huri, ih]
        cases (Declaration.parameterData call.text).get? name <;> rfl
      · have hkept := Session.KeepsOthers.regenerateParameters (run session calls) call.uri call.text
          call.exclusions
        rw [if_neg huri, Option.none_or, ← ih]
        unfold Session.dataOf
        rw [hkept.overridesOf_eq uri (Ne.symm huri)]

/-- Calls about other documents leave what the session knows of a document. -/
theorem dataOf_run_filter (session : Session) (calls : List ParameterCall) (uri name : Text) :
    (run session (calls.filter (·.uri = uri))).dataOf uri name = (run session calls).dataOf uri name := by
  rw [dataOf_run, dataOf_run]
  unfold latestData?
  rw [List.filter_filter]
  simp

/-- What is written for a parameter is what was declared last, the text of the call included. -/
theorem writtenData_run (calls : List ParameterCall) (call : ParameterCall) (name : Text) :
    writtenData (run {} calls) call.uri call.text name =
      ((latestData? call.uri name (calls ++ [call])).getD (ParameterData.ofName name)).filled := by
  rw [Session.writtenData_eq_dataOf, dataOf_run, latestData?_concat, if_pos rfl]
  cases (Declaration.parameterData call.text).get? name <;> rfl

/-- What was declared last, or made up from the name, is literal if all that was declared is. -/
theorem latestData?_getD_spec (uri : Text) (hliteral : ∀ other ∈ calls, other.IsLiteral)
    (hname : isIdentifier name = true) :
    ((latestData? uri name calls).getD (ParameterData.ofName name)).All Scalar.IsLiteral ∧
      ((latestData? uri name calls).getD (ParameterData.ofName name)).filled =
        (latestData? uri name calls).getD (ParameterData.ofName name) := by
  cases hlatest : latestData? uri name calls with
  | none =>
      have hdefaults : Scalar.IsLiteral ParameterData.defaultType ∧
          Scalar.IsLiteral ParameterData.defaultOutgoing := by decide
      exact ⟨⟨Scalar.isLiteral_of_isIdentifier hname, hdefaults.1, hdefaults.2⟩, rfl⟩
  | some data =>
      obtain ⟨other, hother, hdata⟩ := exists_of_latestData? hlatest
      exact ⟨hliteral other hother _ (Table.mem_of_get?_eq_some hdata),
        Declaration.filled_of_get?_parameterData hdata⟩

/-- After any calls, about whatever documents, the text that a call returns declares the parameters that
its script uses, in order, with the data that were declared last in a text of this document, or else those
made up from the names. Calls about other documents have no influence on it. -/
theorem declared_of_run (hliteral : ∀ other ∈ calls ++ [call], other.IsLiteral)
    (hin : SectionKey.isIn call.text .parameters = true) :
    Declaration.declaredParameters (call.returned (run {} calls)) =
        usedParameters call.text call.exclusions ∧
      parametersDiffer (call.returned (run {} calls)) call.exclusions = false ∧
      (∀ name ∈ usedParameters call.text call.exclusions,
        (Declaration.parameterData (call.returned (run {} calls))).get? name =
          some ((latestData? call.uri name (calls ++ [call])).getD (ParameterData.ofName name))) ∧
      call.returned (run {} (calls.filter (·.uri = call.uri))) = call.returned (run {} calls) := by
  have hnames : ∀ name ∈ usedParameters call.text call.exclusions, isIdentifier name = true :=
    fun name hname => isIdentifier_of_mem_usedParameters hname
  -- What is written is what was declared last, and it is read back as it is written.
  have hwritten : ∀ name ∈ usedParameters call.text call.exclusions,
      writtenData (run {} calls) call.uri call.text name =
          (latestData? call.uri name (calls ++ [call])).getD (ParameterData.ofName name) ∧
        (writtenData (run {} calls) call.uri call.text name).IsFaithful := by
    intro name hname
    obtain ⟨⟨hvalue, htype, houtgoing⟩, hfilled⟩ :=
      latestData?_getD_spec call.uri hliteral (hnames name hname)
    have heq := (writtenData_run calls call name).trans hfilled
    rw [heq]
    exact ⟨rfl, hvalue.isFaithful, htype.isFaithful, houtgoing.isFaithful⟩
  have hitems := Declaration.keepLines_of_isFaithful hnames fun name hname => (hwritten name hname).2
  have hreturned := congrArg Regeneration.text
    (regenerateParameters_eq (run {} calls) call.uri call.text call.exclusions)
  have hdeclared : Declaration.declaredParameters (call.returned (run {} calls)) =
      usedParameters call.text call.exclusions := by
    unfold returned
    rw [hreturned]
    exact Declaration.declaredParameters_refill hin hnames hitems _
  refine ⟨hdeclared, ?_, fun name hname => ?_, ?_⟩
  · have hscript : SectionKey.script.bodyIn (lines (call.returned (run {} calls))) =
        SectionKey.script.bodyIn (lines call.text) := by
      unfold returned
      rw [hreturned]
      exact (keepsOthers_refill hitems _ _ _).bodyIn (by decide)
    unfold parametersDiffer
    rw [hdeclared, usedParameters_congr hscript]
    simp
  · obtain ⟨hlatest, hfaithful⟩ := hwritten name hname
    rw [← hlatest]
    unfold returned
    rw [hreturned, Declaration.get?_parameterData_refill hin hnames hitems _ hname]
    exact congrArg some (reread_of_isFaithful hfaithful)
  · have hsame : writtenData (run {} (calls.filter (·.uri = call.uri))) call.uri call.text =
        writtenData (run {} calls) call.uri call.text := by
      funext name
      rw [Session.writtenData_eq_dataOf, Session.writtenData_eq_dataOf, dataOf_run_filter]
    unfold returned
    rw [regenerateParameters_eq, regenerateParameters_eq, hsame]

def twoDocuments : List ParameterCall :=
  [⟨"/a".toList, documentWithValue "\"1\"".toList, []⟩,
    ⟨"/b".toList, documentWithValue "\"2\"".toList, []⟩]

/-- The parameter is used in the first document, where it is not declared any more. -/
def comesBack : ParameterCall := ⟨"/a".toList, Executor.undeclaringDocument, []⟩

theorem declared_comesBack :
    Declaration.declaredParameters (comesBack.returned (run {} twoDocuments)) = ["P".toList] ∧
      (Declaration.parameterData (comesBack.returned (run {} twoDocuments))).get? "P".toList =
        some ⟨"1".toList, ParameterData.defaultType, ParameterData.defaultOutgoing⟩ := by
  obtain ⟨hdeclared, -, hdata, -⟩ := @declared_of_run twoDocuments comesBack
    (by decide +kernel) (by decide +kernel)
  exact ⟨hdeclared.trans (by decide +kernel),
    (hdata "P".toList (by decide +kernel)).trans (by decide +kernel)⟩

end ParameterCall

end Scenarist
