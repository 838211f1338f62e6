import Scenarist.CallGraph
import Scenarist.Proofs.Table
import Mathlib.Logic.Relation
import Mathlib.Order.Lattice.Nat

set_option autoImplicit false

/-! # Who calls whom

A scenario calls those that its record declares. One is called through `n` calls if it is the last of `n + 1`
scenarios each of which calls the next, and the fewest such calls are its distance. The graph of records with
different names holds their calls and their documents.

Main statements: `CallGraph.mem_callersOf_ofRecords`, `CallGraph.get?_sources_ofRecords` and
`callDistance_le_succ` (a caller is one call further away at most). -/

namespace Scenarist

/-! ## Distances -/

section Distance

variable {records : List Record} {caller middle callee : Text} {n : Nat}

def Calls (records : List Record) (caller callee : Text) : Prop :=
  ∃ record ∈ records, record.name = caller ∧ callee ∈ record.nestedCalls

/-- Whether one scenario calls another one through so many calls. -/
inductive CallsThrough (records : List Record) : Nat → Text → Text → Prop
  | here (name : Text) : CallsThrough records 0 name name
  | call {n : Nat} {caller middle callee : Text} (first : Calls records caller middle)
      (rest : CallsThrough records n middle callee) : CallsThrough records (n + 1) caller callee

/-- The fewest calls through which one scenario calls another one. -/
noncomputable def callDistance (records : List Record) (caller callee : Text) : Nat :=
  sInf {n | CallsThrough records n caller callee}

theorem CallsThrough.reaches (h : CallsThrough records n caller callee) :
    Relation.ReflTransGen (Calls records) caller callee := by
  induction h with
  | here name => exact .refl
  | call first _ ih => exact .head first ih

theorem exists_callsThrough (h : Relation.ReflTransGen (Calls records) caller callee) :
    ∃ n, CallsThrough records n caller callee := by
  induction h using Relation.ReflTransGen.head_induction_on with
  | refl => exact ⟨0, .here callee⟩
  | head first _ ih =>
      obtain ⟨n, hn⟩ := ih
      exact ⟨n + 1, .call first hn⟩

theorem callDistance_le (h : CallsThrough records n caller callee) :
    callDistance records caller callee ≤ n :=
  Nat.sInf_le h

theorem callsThrough_callDistance (h : Relation.ReflTransGen (Calls records) caller callee) :
    CallsThrough records (callDistance records caller callee) caller callee :=
  Nat.sInf_mem (exists_callsThrough h)

/-- A caller is one call further away at most. -/
theorem callDistance_le_succ (first : Calls records caller middle)
    (h : Relation.ReflTransGen (Calls records) middle callee) :
    callDistance records caller callee ≤ callDistance records middle callee + 1 :=
  callDistance_le (.call first (callsThrough_callDistance h))

end Distance

/-! ## The graph of records -/

namespace CallGraph

variable {records : List Record}

theorem sources_foldl (graph : CallGraph) (records : List Record) :
    (records.foldl addRecord graph).sources =
      Table.putAll graph.sources (records.map fun record => (record.name, record.source)) := by
  induction records generalizing graph with
  | nil => rfl
  | cons record records ih => exact ih (graph.addRecord record)

theorem callees_foldl (graph : CallGraph) (records : List Record) :
    (records.foldl addRecord graph).callees =
      Table.putAll graph.callees (records.map fun record => (record.name, record.nestedCalls)) := by
  induction records generalizing graph with
  | nil => rfl
  | cons record records ih => exact ih (graph.addRecord record)

theorem get?_sources_ofRecords (hnames : (records.map (·.name)).Nodup) {record : Record}
    (h : record ∈ records) : (ofRecords records).sources.get? record.name = some record.source := by
  have hkeys : (Table.keys (records.map fun record => (record.name, record.source))).Nodup := by
    simpa [Table.keys, Function.comp_def] using hnames
  have hmem : (record.name, record.source) ∈ records.map fun record => (record.name, record.source) :=
    List.mem_map_of_mem h
  rw [ofRecords, sources_foldl, Table.get?_putAll hkeys, Table.get?_eq_some_of_mem hkeys hmem]
  rfl

theorem length_callees_ofRecords (hnames : (records.map (·.name)).Nodup) :
    (ofRecords records).callees.length = records.length := by
  have hkeys : (Table.keys ([] ++ records.map fun record => (record.name, record.nestedCalls))).Nodup := by
    simpa [Table.keys, Function.comp_def] using hnames
  rw [ofRecords, callees_foldl]
  change (Table.putAll [] _).length = _
  rw [Table.putAll_eq_append hkeys, List.nil_append, List.length_map]

/-- A caller is entered under its callee and nowhere else. -/
theorem mem_get?_addCaller {callers : Table (List Text)} {caller callee name other : Text} :
    other ∈ ((addCaller caller callers callee).get? name).getD [] ↔
      other ∈ (callers.get? name).getD [] ∨ name = callee ∧ other = caller := by
  unfold addCaller
  rw [Table.get?_put]
  by_cases hname : name = callee
  · subst hname
    simp only [if_true, Option.getD_some, true_and]
    split
    · next hknown => exact ⟨Or.inl, fun h => h.elim id fun heq => heq ▸ hknown⟩
    · rw [List.mem_append, List.mem_singleton]
  · simp [hname]

theorem mem_get?_foldl_addCaller {callers : Table (List Text)} {caller name other : Text}
    {callees : List Text} :
    other ∈ ((callees.foldl (addCaller caller) callers).get? name).getD [] ↔
      other ∈ (callers.get? name).getD [] ∨ name ∈ callees ∧ other = caller := by
  induction callees generalizing callers with
  | nil => simp
  | cons callee callees ih =>
      rw [List.foldl_cons, ih, mem_get?_addCaller, List.mem_cons, or_and_right, or_assoc]

/-- The graph of records has the calls that they declare. -/
theorem mem_callersOf_ofRecords {caller callee : Text} :
    caller ∈ (ofRecords records).callersOf callee ↔ Calls records caller callee := by
  have key : ∀ graph : CallGraph, caller ∈ (records.foldl addRecord graph).callersOf callee ↔
      caller ∈ graph.callersOf callee ∨ Calls records caller callee := by
    induction records with
    | nil => simp [Calls]
    | cons record records ih =>
        intro graph
        rw [List.foldl_cons, ih]
        change caller ∈ ((record.nestedCalls.foldl (addCaller record.name) graph.callers).get? callee).getD [] ∨
          _ ↔ _
        rw [mem_get?_foldl_addCaller, or_assoc]
        refine or_congr Iff.rfl ?_
        simp only [Calls, List.mem_cons, exists_eq_or_imp]
        exact or_congr ⟨fun h => ⟨h.2.symm, h.1⟩, fun h => ⟨h.2, h.1.symm⟩⟩ Iff.rfl
  rw [ofRecords, key]
  simp [callersOf, Table.get?]

end CallGraph

end Scenarist
