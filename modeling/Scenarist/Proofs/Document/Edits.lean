import Scenarist.Document.Open
import Mathlib.Data.List.Pairwise

set_option autoImplicit false

/-! # Edits of a document

Edits that lie apart are made one after the other, the last one first, and come to the same as if all were made at
once: the text is the untouched gaps and the new texts in order, whatever order the edits are given in. A document
that is worked on answers questions about its lines as a fresh one of its text does, since the line starts that it
keeps are given up whenever the text changes.

Main statements: `TextEdit.applyAll_eq_weave`, `OpenDocument.IsSound.act` (what one act keeps) and
`OpenDocument.weaves_edit`. -/

namespace Scenarist

/-! ## Changed texts -/

namespace Document

theorem text_setText (document : Document) (text : Text) : (document.setText text).text = text := by
  unfold setText
  split
  · next hsame => exact hsame.symm
  · rfl

theorem text_applyEdits_singleton (document : Document) (edit : TextEdit) :
    (document.applyEdits [edit]).text = edit.applyTo document.text := by
  rw [applyEdits, text_setText, TextEdit.applyAll, List.mergeSort_singleton, List.foldl_cons, List.foldl_nil]

end Document

namespace TextEdit

variable {a b : TextEdit} {edits others ordered : List TextEdit} {text : Text} {start : Nat}

/-! ## Edits in order -/

/-- Whether an edit begins before another one, or ends before it if both begin at the same offset. -/
def IsBefore (a b : TextEdit) : Prop := a.start < b.start ∨ a.start = b.start ∧ a.stop < b.stop

instance (a b : TextEdit) : Decidable (a.IsBefore b) := inferInstanceAs (Decidable (_ ∨ _))

/-- Whether two edits do not overlap and are not of the same part. Where they meet, both may be at one offset. -/
def IsApart (a b : TextEdit) : Prop :=
  (a.stop ≤ b.start ∨ b.stop ≤ a.start) ∧ ¬ (a.start = b.start ∧ a.stop = b.stop)

instance (a b : TextEdit) : Decidable (a.IsApart b) := inferInstanceAs (Decidable (_ ∧ _))

/-- Whether edits lie inside a text and apart from each other. -/
structure AreApart (edits : List TextEdit) (text : Text) : Prop where
  within : ∀ edit ∈ edits, edit.start ≤ edit.stop ∧ edit.stop ≤ text.length
  apart : edits.Pairwise IsApart

instance (edits : List TextEdit) (text : Text) : Decidable (AreApart edits text) :=
  decidable_of_iff ((∀ edit ∈ edits, edit.start ≤ edit.stop ∧ edit.stop ≤ text.length) ∧ edits.Pairwise IsApart)
    ⟨fun ⟨within, apart⟩ => ⟨within, apart⟩, fun h => ⟨h.within, h.apart⟩⟩

theorem precedes_iff : precedes a b = true ↔ a.start < b.start ∨ a.start = b.start ∧ a.stop ≤ b.stop := by
  simp [precedes]

theorem IsApart.symm (h : a.IsApart b) : b.IsApart a :=
  ⟨h.1.symm, fun hsame => h.2 ⟨hsame.1.symm, hsame.2.symm⟩⟩

instance : Std.Symm IsApart := ⟨fun _ _ hapart => hapart.symm⟩

theorem AreApart.perm (h : AreApart edits text) (hperm : others.Perm edits) : AreApart others text where
  within edit hedit := h.within edit (hperm.mem_iff.1 hedit)
  apart := (hperm.pairwise_iff fun hapart => hapart.symm).2 h.apart

/-- Of edits that lie apart the earlier one ends before the later one begins. -/
theorem AreApart.pairwise_le (h : AreApart ordered text) (hordered : ordered.Pairwise IsBefore) :
    ordered.Pairwise fun a b => a.stop ≤ b.start := by
  refine (hordered.and h.apart).imp_of_mem fun {a b} ha hb hab => ?_
  obtain ⟨hbefore, hmeet, -⟩ := hab
  have hwithin := (h.within a ha).1
  have hwithin' := (h.within b hb).1
  unfold IsBefore at hbefore
  omega

/-- The edits as they are made, the last one first. -/
def lastFirst (edits : List TextEdit) : List TextEdit := edits.mergeSort fun a b => precedes b a

theorem perm_lastFirst (edits : List TextEdit) : (lastFirst edits).Perm edits := List.mergeSort_perm edits _

theorem pairwise_lastFirst (edits : List TextEdit) :
    (lastFirst edits).Pairwise fun a b => precedes b a = true := by
  refine List.pairwise_mergeSort (fun a b c hab hbc => ?_) (fun a b => ?_) edits
  · rw [precedes_iff] at hab hbc ⊢
    omega
  · rw [Bool.or_eq_true, precedes_iff, precedes_iff]
    omega

/-- Edits that lie apart have one order. -/
theorem AreApart.lastFirst_eq (h : AreApart edits text) (hperm : others.Perm edits) :
    lastFirst others = lastFirst edits := by
  refine List.Perm.eq_of_pairwise (fun a b ha hb hab hba => ?_) (pairwise_lastFirst others)
    (pairwise_lastFirst edits) (((perm_lastFirst others).trans hperm).trans (perm_lastFirst edits).symm)
  have ha' : a ∈ edits := hperm.mem_iff.1 ((perm_lastFirst others).mem_iff.1 ha)
  have hb' : b ∈ edits := (perm_lastFirst edits).mem_iff.1 hb
  rw [precedes_iff] at hab hba
  by_contra hne
  obtain ⟨-, hdiffer⟩ := h.apart.forall ha' hb' hne
  omega

/-! ## Edits made at once -/

/-- A text from an offset on, with the new texts of edits between the gaps that these leave. -/
def weave (text : Text) : (start : Nat) → List TextEdit → Text
  | start, [] => text.drop start
  | start, edit :: edits => Text.slice start edit.start text ++ edit.replacement ++ weave text edit.stop edits

theorem take_append_slice (text : Text) {stop : Nat} (h : start ≤ stop) :
    text.take start ++ Text.slice start stop text = text.take stop := by
  have hfront : text.take start = (text.take stop).take start := by rw [List.take_take, Nat.min_eq_left h]
  rw [hfront, Text.slice, List.take_append_drop]

/-- Made the last one first, edits leave the text in front of them as it is, and behind it the gaps and the new
texts. -/
theorem foldr_applyTo_eq (hordered : ordered.Pairwise fun a b => a.stop ≤ b.start)
    (hwithin : ∀ edit ∈ ordered, edit.start ≤ edit.stop ∧ edit.stop ≤ text.length)
    (hstart : ∀ edit ∈ ordered, start ≤ edit.start) :
    ordered.foldr (fun edit changed => applyTo changed edit) text = text.take start ++ weave text start ordered := by
  induction ordered generalizing start with
  | nil => exact (List.take_append_drop start text).symm
  | cons edit later ih =>
      obtain ⟨hlater, hrest⟩ := List.pairwise_cons.1 hordered
      obtain ⟨hle, hlength⟩ := hwithin edit List.mem_cons_self
      have hfront : (text.take edit.stop).length = edit.stop := List.length_take_of_le hlength
      rw [List.foldr_cons, ih hrest (fun other hother => hwithin other (List.mem_cons_of_mem _ hother)) hlater,
        applyTo, List.take_append_of_le_length (by omega), List.take_take, Nat.min_eq_left hle,
        List.drop_append_of_le_length (by omega), List.drop_eq_nil_of_le (by omega), List.nil_append, weave,
        ← take_append_slice text (hstart edit List.mem_cons_self)]
      simp only [List.append_assoc]

/-- Edits that lie apart leave the gaps and the new texts in their order. -/
theorem applyAll_eq_weave (h : AreApart edits text) :
    ∃ ordered, ordered.Perm edits ∧ ordered.Pairwise IsBefore ∧ applyAll edits text = weave text 0 ordered := by
  have hperm : (lastFirst edits).reverse.Perm edits := (List.reverse_perm _).trans (perm_lastFirst edits)
  have hapart := h.perm hperm
  have hordered : (lastFirst edits).reverse.Pairwise IsBefore := by
    have hprecedes : (lastFirst edits).reverse.Pairwise fun a b => precedes a b = true :=
      List.pairwise_reverse.2 (pairwise_lastFirst edits)
    refine (hprecedes.and hapart.apart).imp fun {a b} hab => ?_
    obtain ⟨hle, -, hdiffer⟩ := hab
    rw [precedes_iff] at hle
    unfold IsBefore
    omega
  refine ⟨_, hperm, hordered, ?_⟩
  have hfold := foldr_applyTo_eq (hapart.pairwise_le hordered) hapart.within (fun edit _ => Nat.zero_le edit.start)
  rw [List.foldr_reverse, List.take_zero, List.nil_append] at hfold
  exact hfold

theorem AreApart.applyAll_eq (h : AreApart edits text) (hperm : others.Perm edits) :
    applyAll others text = applyAll edits text := by
  show (lastFirst others).foldl applyTo text = (lastFirst edits).foldl applyTo text
  rw [h.lastFirst_eq hperm]

end TextEdit

/-! ## A document at work -/

/-- What is done with a document. -/
inductive DocumentAct where
  /-- A question about its lines is asked. -/
  | ask (question : DocumentQuestion)
  /-- It gets another text. -/
  | assign (text : Text)
  /-- Edits are made. -/
  | edit (edits : List TextEdit)
  /-- The part between two offsets is replaced. -/
  | replace (start stop : Nat) (replacement : Text)

namespace OpenDocument

variable {document : OpenDocument}

def act (document : OpenDocument) : DocumentAct → OpenDocument
  | .ask question => (document.ask question).2
  | .assign text => document.assign text
  | .edit edits => (document.edit edits).2
  | .replace start stop replacement => (document.replace start stop replacement).2

def run (document : OpenDocument) (acts : List DocumentAct) : OpenDocument := acts.foldl act document

/-- Whether the line starts that are kept are those of the text. -/
def IsSound (document : OpenDocument) : Prop := ∀ starts ∈ document.starts?, starts = document.lineStarts

theorem isSound_opened (document : Document) : document.opened.IsSound :=
  fun starts hstarts => absurd hstarts (by simp [Document.opened])

/-! ### Line starts that are kept -/

theorem IsSound.takeStarts (h : document.IsSound) :
    document.takeStarts.1 = document.lineStarts ∧ document.takeStarts.2.IsSound ∧
      document.takeStarts.2.toDocument = document.toDocument := by
  unfold OpenDocument.takeStarts
  cases hkept : document.starts? with
  | none => exact ⟨rfl, fun starts hstarts => (Option.mem_some.1 hstarts).symm, rfl⟩
  | some starts => exact ⟨h starts hkept, h, rfl⟩

/-- A question is answered from the line starts of the text. -/
theorem IsSound.ask (h : document.IsSound) (question : DocumentQuestion) :
    (document.ask question).1 = question.answerBy document.lineStarts document.text ∧
      (document.ask question).2.IsSound ∧ (document.ask question).2.toDocument = document.toDocument := by
  obtain ⟨hstarts, hsound, hdocument⟩ := h.takeStarts
  unfold OpenDocument.ask
  by_cases hneeds : question.needsStarts = true
  · rw [if_pos hneeds]
    exact ⟨congrArg (question.answerBy · document.text) hstarts, hsound, hdocument⟩
  · rw [if_neg hneeds]
    cases question with
    | lines => exact ⟨rfl, h, rfl⟩
    | _ => exact absurd rfl hneeds

theorem IsSound.assign (h : document.IsSound) (text : Text) : (document.assign text).IsSound := by
  unfold OpenDocument.assign
  split
  · exact h
  · exact isSound_opened _

theorem edit_eq_ite (document : OpenDocument) (edits : List TextEdit) : document.edit edits =
    if TextEdit.applyAll edits document.text = document.text then (false, document)
    else (true, document.assign (TextEdit.applyAll edits document.text)) := rfl

theorem IsSound.edit (h : document.IsSound) (edits : List TextEdit) : (document.edit edits).2.IsSound := by
  rw [edit_eq_ite]
  split
  · exact h
  · exact h.assign _

/-- Every act leaves the line starts that are kept right. -/
theorem IsSound.act (h : document.IsSound) (first : DocumentAct) : (document.act first).IsSound := by
  cases first with
  | ask question => exact (h.ask question).2.1
  | assign text => exact h.assign text
  | edit edits => exact h.edit edits
  | replace start stop replacement => exact h.edit _

theorem IsSound.run (h : document.IsSound) (acts : List DocumentAct) : (document.run acts).IsSound := by
  induction acts generalizing document with
  | nil => exact h
  | cons first acts ih => exact ih (h.act first)

/-! ### What edits come to -/

theorem text_assign (document : OpenDocument) (text : Text) : (document.assign text).text = text := by
  unfold OpenDocument.assign Document.opened
  split
  · next hsame => exact hsame.symm
  · exact Document.text_setText document.toDocument text

theorem text_edit (document : OpenDocument) (edits : List TextEdit) :
    (document.edit edits).2.text = TextEdit.applyAll edits document.text := by
  rw [edit_eq_ite]
  split
  · next hsame => exact hsame.symm
  · exact text_assign document _

/-- The answer tells whether the text became another one. -/
theorem edit_changed_iff (document : OpenDocument) (edits : List TextEdit) :
    (document.edit edits).1 = true ↔ (document.edit edits).2.text ≠ document.text := by
  rw [text_edit, edit_eq_ite]
  split <;> simpa

/-- The version counts the changes of the text. -/
theorem version_edit (document : OpenDocument) (edits : List TextEdit) :
    (document.edit edits).2.version = document.version + (document.edit edits).1.toNat := by
  rw [edit_eq_ite]
  split
  · rfl
  · next hother =>
    show (document.assign _).version = document.version + 1
    rw [OpenDocument.assign, if_neg hother]
    exact congrArg Document.version (if_neg hother)

/-- Whatever was done with a document, edits that lie apart leave the gaps of its text and the new texts in order, the
same for every order in which they are given; the answer tells whether the text became another one, and the version
counts it. And every question about its lines is answered as for a fresh document of its text. -/
theorem weaves_edit (document : Document) (acts : List DocumentAct) :
    let reached := document.opened.run acts
    (∀ edits changed edited, TextEdit.AreApart edits reached.text → reached.edit edits = (changed, edited) →
      (∃ ordered, ordered.Perm edits ∧ ordered.Pairwise TextEdit.IsBefore ∧
        edited.text = TextEdit.weave reached.text 0 ordered) ∧
      (∀ others, others.Perm edits → reached.edit others = (changed, edited)) ∧
      (changed = true ↔ edited.text ≠ reached.text) ∧
      edited.version = reached.version + changed.toNat) ∧
    ∀ question uri,
      (reached.ask question).1 = ((Document.opened { uri, text := reached.text }).ask question).1 := by
  intro reached
  have hsound : reached.IsSound := (isSound_opened document).run acts
  refine ⟨fun edits changed edited hapart hresult => ?_, fun question uri => ?_⟩
  · have htext := text_edit reached edits
    have hchanged := edit_changed_iff reached edits
    have hversion := version_edit reached edits
    rw [hresult] at htext hchanged hversion
    obtain ⟨ordered, hperm, hordered, hweave⟩ := TextEdit.applyAll_eq_weave hapart
    refine ⟨⟨ordered, hperm, hordered, htext.trans hweave⟩, fun others hothers => ?_, hchanged, hversion⟩
    rw [← hresult, edit_eq_ite, edit_eq_ite, hapart.applyAll_eq hothers]
  · rw [(hsound.ask question).1, ((isSound_opened _).ask question).1]
    rfl

/-- Edits that meet: two insertions at the ends of a replacement, the second one in front of another replacement. -/
def meetingEdits : List TextEdit :=
  [⟨4, 6, ['z']⟩, ⟨2, 2, ['x']⟩, ⟨4, 4, "ww".toList⟩, ⟨2, 4, ['y']⟩]

/-- A document was asked for the number of its lines and got another text. -/
def askedAndAssigned : OpenDocument :=
  ({ uri := "/a".toList, text := "ab\ncd".toList } : Document).opened.run [.ask .lineCount, .assign "abcdef".toList]

theorem weaves_edit_meetingEdits :
    TextEdit.AreApart meetingEdits askedAndAssigned.text ∧
      askedAndAssigned.edit meetingEdits = (true, askedAndAssigned.assign "abxywwz".toList) ∧
      askedAndAssigned.edit meetingEdits.reverse = (true, askedAndAssigned.assign "abxywwz".toList) ∧
      (askedAndAssigned.ask .lineCount).1 = .number 1 := by
  have hapart : TextEdit.AreApart meetingEdits askedAndAssigned.text := by decide +kernel
  have horder : TextEdit.lastFirst meetingEdits =
      [⟨4, 6, ['z']⟩, ⟨4, 4, "ww".toList⟩, ⟨2, 4, ['y']⟩, ⟨2, 2, ['x']⟩] := by
    simp [TextEdit.lastFirst, meetingEdits, List.mergeSort, TextEdit.precedes]
  have htext : TextEdit.applyAll meetingEdits askedAndAssigned.text = "abxywwz".toList := by
    show (TextEdit.lastFirst meetingEdits).foldl TextEdit.applyTo askedAndAssigned.text = _
    rw [horder]
    decide +kernel
  have hresult : askedAndAssigned.edit meetingEdits = (true, askedAndAssigned.assign "abxywwz".toList) := by
    rw [edit_eq_ite, htext]
    exact if_neg (by decide +kernel)
  obtain ⟨hedits, hanswers⟩ := weaves_edit { uri := "/a".toList, text := "ab\ncd".toList }
    [.ask .lineCount, .assign "abcdef".toList]
  obtain ⟨-, hperm, -, -⟩ := hedits meetingEdits _ _ hapart hresult
  exact ⟨hapart, hresult, hperm _ (List.reverse_perm _), (hanswers .lineCount "/a".toList).trans (by decide +kernel)⟩

end OpenDocument

end Scenarist
