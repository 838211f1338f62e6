import Scenarist.CallGraph
import Scenarist.Proofs.Index.Overlap
import Scenarist.Validation

set_option autoImplicit false

/-! # What is kept of an index

The call graph and the warnings about shared codes are computed from all the records, and kept with the
generation of the index that they were computed from. A kept value is given out again while the index is
at the same generation. That is right because no change of the records goes uncounted: after any event the
index is at a later generation, or its records are the same.

Listeners are called as soon as a change is counted, in the middle of what made it, and may ask and change
the index themselves. What they do is as arbitrary here as what is done otherwise.

Main statements: `Traffic.Steps.goesTo` (one event), `Watched.IsSound.act` (one act) and
`Watched.replies_of_unfolds` (all that is answered on the way). -/

namespace Scenarist

namespace Index

/-! ## Changes are counted -/

/-- An index that has come out of another one: it is at a later generation, or its records are the
same. -/
def GoesTo (old new : Index) : Prop :=
  new.generation = old.generation ∧ new.records = old.records ∨ old.generation < new.generation

variable {index next : Index}

protected theorem GoesTo.refl (index : Index) : index.GoesTo index := .inl ⟨rfl, rfl⟩

theorem goesTo_enter (index : Index) (record : Record) : index.GoesTo (index.enter record).2 := by
  unfold enter
  split
  · exact .refl index
  · exact .inr (Nat.lt_succ_self _)

theorem goesTo_remove (index : Index) (uri : Text) : index.GoesTo (index.remove uri).2 := by
  unfold remove
  split
  · exact .inr (Nat.lt_succ_self _)
  · exact .refl index

theorem goesTo_upsert (index : Index) (uri text : Text) : index.GoesTo (index.upsert uri text).2 := by
  unfold upsert
  split
  · exact goesTo_enter index _
  · exact goesTo_remove index uri

theorem goesTo_install (index : Index) (scan : Scan) (cancelled : Bool) :
    index.GoesTo (index.install scan cancelled) := .inr (Nat.lt_succ_self _)

theorem goesTo_react (index : Index) (change : IndexChange) : index.GoesTo (index.react change) :=
  react_induction (motive := index.GoesTo) (.refl index) (goesTo_upsert index) (goesTo_remove index)
    (fun _ _ => .inl ⟨rfl, rfl⟩) (fun _ => .inl ⟨rfl, rfl⟩) change

/-! ## Kept values -/

/-- Whether what is kept was computed from the records of this index, if it is kept with its generation;
it is not kept with a later one. -/
def Backs {α : Type} (index : Index) (compute : List Record → α) (kept : Option (Nat × α)) : Prop :=
  ∀ entry ∈ kept, entry.1 ≤ index.generation ∧
    (entry.1 = index.generation → entry.2 = compute index.allRecords)

section

variable {α : Type} {compute : List Record → α} {kept : Option (Nat × α)}

theorem backs_none : index.Backs compute none := by
  intro entry hentry
  simp at hentry

theorem backs_some : index.Backs compute (some (index.generation, compute index.allRecords)) := by
  intro entry hentry
  obtain rfl : (index.generation, compute index.allRecords) = entry := by simpa using hentry
  exact ⟨le_refl _, fun _ => rfl⟩

/-- What is kept stays right, or is not asked for any more. -/
theorem Backs.of_goesTo (h : index.Backs compute kept) (hnext : index.GoesTo next) :
    next.Backs compute kept := by
  intro entry hentry
  obtain ⟨hle, heq⟩ := h entry hentry
  rcases hnext with ⟨hgeneration, hrecords⟩ | hlt
  · unfold allRecords at heq ⊢
    rw [hgeneration, hrecords]
    exact ⟨hle, heq⟩
  · -- What is kept is of an earlier generation by now, so it is not given out any more.
    exact ⟨by omega, fun hat => by omega⟩

/-- What is kept with the generation of the index is what would be computed. -/
theorem Backs.eq_of_filter (h : index.Backs compute kept) {entry : Nat × α}
    (hentry : kept.filter (fun entry => entry.1 = index.generation) = some entry) :
    entry.2 = compute index.allRecords := by
  obtain ⟨hkept, hat⟩ := Option.filter_eq_some_iff.1 hentry
  exact (h entry hkept).2 (by simpa using hat)

end

end Index

/-- The graph that is given out is that of the records, and so is the one that is kept. -/
theorem GraphCache.get_of_backs {cache : GraphCache} {index : Index}
    (h : index.Backs CallGraph.ofRecords cache.kept) :
    (cache.get index).1 = CallGraph.ofRecords index.allRecords ∧
      index.Backs CallGraph.ofRecords (cache.get index).2.kept := by
  unfold get
  split
  · next hkept => exact ⟨h.eq_of_filter hkept, h⟩
  · exact ⟨rfl, Index.backs_some⟩

/-- The warnings that are given out are those about the records, and so are those that are kept. -/
theorem DuplicateCache.get_of_backs {cache : DuplicateCache} {index : Index}
    (h : index.Backs DuplicateCodes.all cache.kept) :
    (cache.get index).1 = DuplicateCodes.all index.allRecords ∧
      index.Backs DuplicateCodes.all (cache.get index).2.kept := by
  unfold get
  split
  · next hkept => exact ⟨h.eq_of_filter hkept, h⟩
  · exact ⟨rfl, Index.backs_some⟩

/-- After any event the index is at a later generation, or its records are the same. -/
theorem Traffic.Steps.goesTo {traffic next : Traffic} (h : traffic.Steps next) :
    traffic.index.GoesTo next.index := by
  cases h with
  | change change => exact Index.goesTo_react _ change
  | skip | begin | move => exact .refl _
  | install hstage cut => exact Index.goesTo_install _ _ cut

/-! ## Questions -/

/-- What an index is asked for. -/
inductive IndexQuestion where
  /-- The call graph. -/
  | graph
  /-- The warnings about shared codes. -/
  | duplicates
  deriving DecidableEq

/-- What is answered. -/
inductive IndexAnswer where
  | graph (graph : CallGraph)
  | duplicates (found : Table (List Diagnostic))
  deriving DecidableEq

/-- The answer as it is computed from records. -/
def IndexQuestion.answerFrom (records : List Record) : IndexQuestion → IndexAnswer
  | graph => .graph (CallGraph.ofRecords records)
  | duplicates => .duplicates (DuplicateCodes.all records)

/-- An answer that was given, with the records of the index at that time. -/
structure IndexReply where
  records : List Record
  question : IndexQuestion
  answer : IndexAnswer
  deriving DecidableEq

/-- An index with all that happens to it, what is kept of it, and the answers given so far. -/
structure Watched where
  traffic : Traffic
  graphs : GraphCache := {}
  duplicates : DuplicateCache := {}
  replies : List IndexReply := []

/-- What is done. -/
inductive IndexAct where
  /-- Something happens to the index. -/
  | event (event : IndexEvent)
  /-- A question is asked. -/
  | ask (question : IndexQuestion)
  /-- The kept call graph is thrown away. -/
  | forgetGraph

namespace Watched

/-- The answer to a question, and what is kept afterwards. -/
def reply (w : Watched) : IndexQuestion → IndexAnswer × Watched
  | .graph =>
    let (graph, graphs) := w.graphs.get w.traffic.index
    (.graph graph, { w with graphs })
  | .duplicates =>
    let (found, duplicates) := w.duplicates.get w.traffic.index
    (.duplicates found, { w with duplicates })

/-- What has become of it all after an act. -/
def act (w : Watched) : IndexAct → Watched
  | .event event => { w with traffic := w.traffic.step event }
  | .ask question =>
    let (answer, next) := w.reply question
    { next with replies := w.replies ++ [⟨w.traffic.index.allRecords, question, answer⟩] }
  | .forgetGraph => { w with graphs := w.graphs.invalidate }

/-- Acts one after the other, with what listeners do: when an act has changed the generation of the index,
listeners are called before the next act, and what they do are acts again. -/
inductive Unfolds : Watched → List IndexAct → Watched → Prop
  | done (w : Watched) : Unfolds w [] w
  | quiet {w last : Watched} {first : IndexAct} {acts : List IndexAct}
    (hcount : (w.act first).traffic.index.generation = w.traffic.index.generation)
    (hrest : Unfolds (w.act first) acts last) : Unfolds w (first :: acts) last
  | told {w between last : Watched} {first : IndexAct} {acts reaction : List IndexAct}
    (hcount : (w.act first).traffic.index.generation ≠ w.traffic.index.generation)
    (hreaction : Unfolds (w.act first) reaction between) (hrest : Unfolds between acts last) :
    Unfolds w (first :: acts) last

/-- Whether what is kept is what the index backs, and all answers were as they are computed. -/
structure IsSound (w : Watched) : Prop where
  graphs : w.traffic.index.Backs CallGraph.ofRecords w.graphs.kept
  duplicates : w.traffic.index.Backs DuplicateCodes.all w.duplicates.kept
  replies : ∀ reply ∈ w.replies, reply.answer = reply.question.answerFrom reply.records

variable {w last : Watched} {acts : List IndexAct}

theorem isSound_of_traffic (traffic : Traffic) : IsSound { traffic } :=
  ⟨Index.backs_none, Index.backs_none, fun _ hreply => absurd hreply List.not_mem_nil⟩

theorem IsSound.reply (h : w.IsSound) (question : IndexQuestion) :
    (w.reply question).1 = question.answerFrom w.traffic.index.allRecords ∧
      (w.reply question).2.IsSound := by
  cases question with
  | graph =>
      obtain ⟨hgraph, hkept⟩ := GraphCache.get_of_backs h.graphs
      exact ⟨congrArg IndexAnswer.graph hgraph, hkept, h.duplicates, h.replies⟩
  | duplicates =>
      obtain ⟨hfound, hkept⟩ := DuplicateCache.get_of_backs h.duplicates
      exact ⟨congrArg IndexAnswer.duplicates hfound, h.graphs, hkept, h.replies⟩

/-- Every act leaves what is kept and what was answered right. -/
theorem IsSound.act (h : w.IsSound) (first : IndexAct) : (w.act first).IsSound := by
  cases first with
  | event event =>
      have hnext := (Traffic.steps_step w.traffic event).goesTo
      exact ⟨h.graphs.of_goesTo hnext, h.duplicates.of_goesTo hnext, h.replies⟩
  | ask question =>
      obtain ⟨hanswer, hsound⟩ := h.reply question
      refine ⟨hsound.graphs, hsound.duplicates, fun reply hreply => ?_⟩
      rcases List.mem_append.1 hreply with hreply | hreply
      · exact h.replies reply hreply
      · rw [List.mem_singleton.1 hreply]
        exact hanswer
  | forgetGraph => exact ⟨Index.backs_none, h.duplicates, h.replies⟩

/-- So do acts one after the other, whatever listeners do in between. -/
theorem IsSound.unfolds (h : w.IsSound) (hacts : w.Unfolds acts last) : last.IsSound := by
  induction hacts with
  | done w => exact h
  | quiet _ _ ih => exact ih (h.act _)
  | told _ _ _ ihreaction ihrest => exact ihrest (ihreaction (h.act _))

/-- Every answer that is given on the way, also to a listener, is as it is computed from the records that
the index has at that time. -/
theorem replies_of_unfolds {traffic : Traffic} (h : Unfolds { traffic } acts last) :
    ∀ reply ∈ last.replies, reply.answer = reply.question.answerFrom reply.records :=
  ((isSound_of_traffic traffic).unfolds h).replies

def askedTwice : List IndexAct := [.ask .graph, .event (.change (.upsert "/a".toList (declaring "N".toList))),
  .ask .graph]

/-- What a listener does meanwhile: it asks for both, and enters another document in between. -/
def askedMeanwhile : List IndexAct := [.ask .graph,
  .event (.change (.upsert "/b".toList (declaring "M".toList))), .ask .duplicates]

theorem replies_askedTwice :
    ∃ last, Unfolds { traffic := ⟨bareIndex, []⟩ } askedTwice last ∧
      last.replies.map (·.records.length) = [0, 1, 2, 2] ∧
      ∀ reply ∈ last.replies, reply.answer = reply.question.answerFrom reply.records := by
  have hmeanwhile : Unfolds (List.foldl act { traffic := ⟨bareIndex, []⟩ } (askedTwice.take 2))
      askedMeanwhile _ :=
    .quiet rfl (.told (by decide +kernel) (.done _) (.quiet rfl (.done _)))
  have h : Unfolds { traffic := ⟨bareIndex, []⟩ } askedTwice _ :=
    .quiet rfl (.told (by decide +kernel) hmeanwhile (.quiet rfl (.done _)))
  exact ⟨_, h, by decide +kernel, replies_of_unfolds h⟩

end Watched

end Scenarist
