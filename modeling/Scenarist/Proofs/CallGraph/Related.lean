import Scenarist.Proofs.CallGraph
import Scenarist.Proofs.Text.Order
import Mathlib.Data.Set.Card

set_option autoImplicit false

/-! # Related documents

The documents that a change to a scenario concerns are those of its callers, direct ones or not. The search for
them visits the callers by distance: while those of a scenario are visited, everything visited is at most one
call further away than what still waits, and everything that is not visited lies behind something that waits. So
the search can stop at any time, and nothing that it leaves out is nearer than what it has found.

Main statements: `CallGraph.IsLevelled` with `IsLevelled.visit` and `IsLevelled.leave` (what a step of the search
keeps), `CallGraph.exists_searchWithin` (what a whole search keeps) and `CallGraph.related_ofRecords`. -/

namespace Scenarist.CallGraph

open Text Relation

variable {records : List Record} {name : Text}

/-! ## Callers by distance -/

/-- Whether the scenarios that were visited, of which some still wait for their callers to be visited, are visited
by distance. -/
structure IsLevelled (records : List Record) (name : Text) (visited waiting : List Text) : Prop where
  nodup : visited.Nodup
  name_mem : name ∈ visited
  reaches : ∀ found ∈ visited, ReflTransGen (Calls records) found name
  waiting_subset : waiting ⊆ visited
  /-- The callers of what does not wait any more are visited. -/
  closed : ∀ found ∈ visited, found ∉ waiting → ∀ caller, Calls records caller found → caller ∈ visited
  /-- What waits is in order of distance. -/
  sorted : waiting.Pairwise fun a b => callDistance records a name ≤ callDistance records b name
  /-- What was visited is at most one call further away than what waits. -/
  near : ∀ found ∈ visited, ∀ next ∈ waiting,
    callDistance records found name ≤ callDistance records next name + 1

namespace IsLevelled

variable {visited waiting : List Text} {current : Text}

theorem start (records : List Record) (name : Text) : IsLevelled records name [name] [name] where
  nodup := List.nodup_singleton name
  name_mem := List.mem_singleton_self name
  reaches found h := List.mem_singleton.1 h ▸ .refl
  waiting_subset := List.Subset.refl _
  closed _ h hnot := absurd h hnot
  sorted := List.pairwise_singleton _ name
  near found h next h' := by
    rw [List.mem_singleton.1 h, List.mem_singleton.1 h']
    exact Nat.le_succ _

/-- What is not visited calls the scenario through something that waits. -/
theorem exists_waiting (h : IsLevelled records name visited waiting) {n : Nat} {caller : Text}
    (hcalls : CallsThrough records n caller name) (hnew : caller ∉ visited) :
    ∃ next ∈ waiting, callDistance records next name + 1 ≤ n := by
  generalize hname : name = last at hcalls
  induction hcalls with
  | here caller => exact absurd (hname ▸ h.name_mem) hnew
  | @call n caller middle callee first rest ih =>
      subst hname
      by_cases hmiddle : middle ∈ visited
      · by_cases hwaits : middle ∈ waiting
        · exact ⟨middle, hwaits, Nat.succ_le_succ (callDistance_le rest)⟩
        · exact absurd (h.closed middle hmiddle hwaits caller first) hnew
      · obtain ⟨next, hnext, hle⟩ := ih hmiddle rfl
        exact ⟨next, hnext, hle.trans (Nat.le_succ n)⟩

/-- What is not visited is further away than the first that waits. -/
theorem succ_le (h : IsLevelled records name visited (current :: waiting)) {caller : Text}
    (hreaches : ReflTransGen (Calls records) caller name) (hnew : caller ∉ visited) :
    callDistance records current name + 1 ≤ callDistance records caller name := by
  obtain ⟨next, hnext, hle⟩ := h.exists_waiting (callsThrough_callDistance hreaches) hnew
  refine le_trans (Nat.succ_le_succ ?_) hle
  rcases List.mem_cons.1 hnext with rfl | hnext
  · exact le_rfl
  · exact (List.pairwise_cons.1 h.sorted).1 next hnext

/-- Nothing that is not visited is nearer than what is. -/
theorem le_of_not_mem (h : IsLevelled records name visited waiting) {found caller : Text}
    (hfound : found ∈ visited) (hreaches : ReflTransGen (Calls records) caller name)
    (hnew : caller ∉ visited) : callDistance records found name ≤ callDistance records caller name := by
  obtain ⟨next, hnext, hle⟩ := h.exists_waiting (callsThrough_callDistance hreaches) hnew
  exact (h.near found hfound next hnext).trans hle

/-- Visiting a caller of the first that waits keeps the order of distance. -/
theorem visit (h : IsLevelled records name visited (current :: waiting)) {caller : Text}
    (hcalls : Calls records caller current) (hnew : caller ∉ visited) :
    IsLevelled records name (caller :: visited) (current :: (waiting ++ [caller])) := by
  have hcurrent : current ∈ visited := h.waiting_subset List.mem_cons_self
  have hreaches : ReflTransGen (Calls records) caller name := .head hcalls (h.reaches current hcurrent)
  have hdistance : callDistance records caller name = callDistance records current name + 1 :=
    le_antisymm (callDistance_le_succ hcalls (h.reaches current hcurrent)) (h.succ_le hreaches hnew)
  -- `current` is nearest of those that wait, so that its callers are not nearer than any of them
  have hleast : ∀ next ∈ current :: waiting,
      callDistance records current name ≤ callDistance records next name :=
    List.forall_mem_cons.2 ⟨le_rfl, (List.pairwise_cons.1 h.sorted).1⟩
  rw [← List.cons_append]
  refine ⟨List.nodup_cons.2 ⟨hnew, h.nodup⟩, List.mem_cons_of_mem _ h.name_mem,
    List.forall_mem_cons.2 ⟨hreaches, h.reaches⟩, ?_, ?_, ?_, ?_⟩
  · intro next hnext
    rcases List.mem_append.1 hnext with hnext | hnext
    · exact List.mem_cons_of_mem _ (h.waiting_subset hnext)
    · exact List.mem_singleton.1 hnext ▸ List.mem_cons_self
  · intro found hfound hwaits other hother
    have hold : found ∈ visited := by
      refine (List.mem_cons.1 hfound).resolve_left ?_
      rintro rfl
      exact hwaits (List.mem_append_right _ (List.mem_singleton_self _))
    exact List.mem_cons_of_mem _
      (h.closed found hold (fun hmem => hwaits (List.mem_append_left _ hmem)) other hother)
  · refine List.pairwise_append.2 ⟨h.sorted, List.pairwise_singleton _ _, fun next hnext last hlast => ?_⟩
    rw [List.mem_singleton.1 hlast, hdistance]
    exact h.near next (h.waiting_subset hnext) current List.mem_cons_self
  · intro found hfound next hnext
    have hfoundle : callDistance records found name ≤ callDistance records current name + 1 := by
      rcases List.mem_cons.1 hfound with rfl | hfound
      · exact hdistance.le
      · exact h.near found hfound current List.mem_cons_self
    rcases List.mem_append.1 hnext with hnext | hnext
    · exact hfoundle.trans (Nat.succ_le_succ (hleast next hnext))
    · rw [List.mem_singleton.1 hnext, hdistance]
      exact hfoundle.trans (Nat.le_succ _)

/-- A scenario whose callers are all visited need not wait. -/
theorem leave (h : IsLevelled records name visited (current :: waiting))
    (hcallers : ∀ caller, Calls records caller current → caller ∈ visited) :
    IsLevelled records name visited waiting where
  nodup := h.nodup
  name_mem := h.name_mem
  reaches := h.reaches
  waiting_subset := List.Subset.trans (List.subset_cons_self _ _) h.waiting_subset
  closed found hfound hwaits caller hcaller := by
    by_cases heq : found = current
    · exact hcallers caller (heq ▸ hcaller)
    · exact h.closed found hfound (List.not_mem_cons_of_ne_of_not_mem heq hwaits) caller hcaller
  sorted := (List.pairwise_cons.1 h.sorted).2
  near found hfound next hnext := h.near found hfound next (List.mem_cons_of_mem _ hnext)

/-- When nothing waits, everything that calls the scenario was visited. -/
theorem mem_of_reaches (h : IsLevelled records name visited []) {caller : Text}
    (hreaches : ReflTransGen (Calls records) caller name) : caller ∈ visited := by
  by_contra hnew
  obtain ⟨next, hnext, -⟩ := h.exists_waiting (callsThrough_callDistance hreaches) hnew
  exact List.not_mem_nil hnext

/-- No more can be visited than there are records, apart from the scenario itself. -/
theorem length_le (h : IsLevelled records name visited waiting) : visited.length ≤ records.length + 1 := by
  have hsubset : visited ⊆ name :: records.map (·.name) := by
    intro found hfound
    rcases (h.reaches found hfound).cases_head with rfl | ⟨middle, ⟨record, hrecord, rfl, -⟩, -⟩
    · exact List.mem_cons_self
    · exact List.mem_cons_of_mem _ (List.mem_map_of_mem hrecord)
  simpa using (h.nodup.subperm hsubset).length_le

end IsLevelled

/-! ## The documents found -/

/-- Whether the documents found are those of the scenarios visited, without that of the scenario itself and the
excluded one. -/
structure Search.IsTallied (records : List Record) (name : Text) (exclude : Option Text) (search : Search) :
    Prop where
  nodup : (Table.keys search.found).Nodup
  mem_found_iff : ∀ entry, entry ∈ search.found ↔ ∃ record ∈ records, entry = (record.uri, record.source) ∧
    record.name ∈ search.visited ∧ record.name ≠ name ∧ some record.uri ≠ exclude

/-- The search after a caller that was not visited before. -/
def Search.visiting (search : Search) (exclude : Option Text) (record : Record) : Search where
  visited := record.name :: search.visited
  queue := search.queue ++ [record.name]
  found :=
    if some record.uri = exclude then search.found else search.found.put record.uri record.source

variable {exclude : Option Text} {search : Search} {limit : Nat}

/-- Two records under one path are the same. -/
theorem Search.IsTallied.uri_not_mem (h : search.IsTallied records name exclude)
    (huris : (records.map (·.uri)).Nodup) {record : Record} (hrecord : record ∈ records)
    (hnew : record.name ∉ search.visited) : record.uri ∉ Table.keys search.found := by
  intro hmem
  obtain ⟨entry, hentry, huri⟩ := List.mem_map.1 hmem
  obtain ⟨other, hother, rfl, hvisited, -, -⟩ := (h.mem_found_iff entry).1 hentry
  rw [List.inj_on_of_nodup_map huris hother hrecord huri] at hvisited
  exact hnew hvisited

theorem visit_of_new (hnames : (records.map (·.name)).Nodup) (huris : (records.map (·.uri)).Nodup)
    (h : search.IsTallied records name exclude) (hlimit : search.found.length < limit) {record : Record}
    (hrecord : record ∈ records) (hnew : record.name ∉ search.visited) :
    visit (ofRecords records) limit exclude search record.name = search.visiting exclude record := by
  have hhas : search.found.has record.uri = false := by
    simpa [Table.has] using mt Table.mem_keys_iff.2 (h.uri_not_mem huris hrecord hnew)
  have hgoes : ¬ ((limit : Int) ≤ search.found.length) := by omega
  unfold visit Search.visiting
  simp only [hgoes, hnew, decide_false, Bool.or_self, Bool.false_eq_true, if_false,
    get?_sources_ofRecords hnames hrecord]
  change (if some record.uri = exclude || search.found.has record.uri then _ else _) = _
  rw [hhas, Bool.or_false]
  by_cases hexclude : some record.uri = exclude
  · simp [hexclude]
  · simp only [hexclude, decide_false, Bool.false_eq_true, if_false]
    rfl

theorem visit_of_visited {caller : Text} (h : caller ∈ search.visited) :
    visit (ofRecords records) limit exclude search caller = search := by
  unfold visit
  simp [h]

theorem visit_of_enough {caller : Text} (h : limit ≤ search.found.length) :
    visit (ofRecords records) limit exclude search caller = search := by
  have hstops : (limit : Int) ≤ search.found.length := by omega
  unfold visit
  simp [hstops]

theorem Search.IsTallied.visiting (hnames : (records.map (·.name)).Nodup)
    (huris : (records.map (·.uri)).Nodup) (h : search.IsTallied records name exclude)
    (hname : name ∈ search.visited) {record : Record} (hrecord : record ∈ records)
    (hnew : record.name ∉ search.visited) :
    (search.visiting exclude record).IsTallied records name exclude := by
  have hne : record.name ≠ name := fun heq => hnew (heq ▸ hname)
  -- no other record has the name, so the record is the only one that is visited now
  have hother : ∀ other ∈ records, other.name ∈ record.name :: search.visited ↔
      other.name ∈ search.visited ∨ other = record := by
    intro other hother
    rw [List.mem_cons, or_comm]
    exact or_congr Iff.rfl ⟨List.inj_on_of_nodup_map hnames hother hrecord, congrArg _⟩
  unfold Search.visiting
  by_cases hexclude : some record.uri = exclude
  · rw [if_pos hexclude]
    refine ⟨h.nodup, fun entry => (h.mem_found_iff entry).trans ?_⟩
    refine exists_congr fun other => and_congr_right fun hmem => and_congr_right fun _ => ?_
    dsimp only
    rw [hother other hmem]
    constructor
    · exact fun ⟨hvisited, hrest⟩ => ⟨Or.inl hvisited, hrest⟩
    · rintro ⟨hvisited | rfl, hrest⟩
      · exact ⟨hvisited, hrest⟩
      · exact absurd hexclude hrest.2
  · rw [if_neg hexclude]
    refine ⟨Table.nodup_keys_put h.nodup _ _, fun entry => ?_⟩
    dsimp only
    rw [Table.put_of_not_mem (h.uri_not_mem huris hrecord hnew), List.mem_append, List.mem_singleton,
      h.mem_found_iff]
    constructor
    · rintro (⟨other, hmem, heq, hvisited, hrest⟩ | rfl)
      · exact ⟨other, hmem, heq, List.mem_cons_of_mem _ hvisited, hrest⟩
      · exact ⟨record, hrecord, rfl, List.mem_cons_self, hne, hexclude⟩
    · rintro ⟨other, hmem, heq, hvisited, hrest⟩
      rcases (hother other hmem).1 hvisited with hvisited | rfl
      · exact Or.inl ⟨other, hmem, heq, hvisited, hrest⟩
      · exact Or.inr heq

/-! ## A whole search -/

/-- Whether a search that has found no more than it is to find visits by distance, with these names waiting for
their callers to be visited. -/
structure Search.IsSound (records : List Record) (name : Text) (limit : Nat) (exclude : Option Text)
    (search : Search) (waiting : List Text) : Prop where
  levelled : IsLevelled records name search.visited waiting
  tallied : search.IsTallied records name exclude
  length_le : search.found.length ≤ limit

/-- What visiting a caller of `current`, the first that waits, keeps. -/
theorem Search.IsSound.visit (hnames : (records.map (·.name)).Nodup) (huris : (records.map (·.uri)).Nodup)
    {current caller : Text} (h : search.IsSound records name limit exclude (current :: search.queue))
    (hcalls : Calls records caller current) :
    let next := CallGraph.visit (ofRecords records) limit exclude search caller
    next.IsSound records name limit exclude (current :: next.queue) ∧
      next.visited.length + search.queue.length = search.visited.length + next.queue.length ∧
      search.visited ⊆ next.visited ∧ (limit ≤ next.found.length ∨ caller ∈ next.visited) := by
  by_cases henough : limit ≤ search.found.length
  · rw [visit_of_enough henough]
    exact ⟨h, rfl, List.Subset.refl _, Or.inl henough⟩
  · by_cases hvisited : caller ∈ search.visited
    · rw [visit_of_visited hvisited]
      exact ⟨h, rfl, List.Subset.refl _, Or.inr hvisited⟩
    · obtain ⟨record, hrecord, rfl, -⟩ := id hcalls
      have hlt := Nat.lt_of_not_le henough
      rw [visit_of_new hnames huris h.tallied hlt hrecord hvisited]
      refine ⟨⟨h.levelled.visit hcalls hvisited,
        h.tallied.visiting hnames huris h.levelled.name_mem hrecord hvisited, ?_⟩, ?_,
        List.subset_cons_self _ _, Or.inr List.mem_cons_self⟩
      · unfold Search.visiting
        dsimp only
        split
        · exact h.length_le
        · rw [Table.put_of_not_mem (h.tallied.uri_not_mem huris hrecord hvisited), List.length_append]
          exact hlt
      · simp only [Search.visiting, List.length_cons, List.length_append, List.length_nil]
        omega

/-- What visiting callers of `current`, the first that waits, one after the other, keeps. -/
theorem Search.IsSound.foldl_visit (hnames : (records.map (·.name)).Nodup)
    (huris : (records.map (·.uri)).Nodup) {current : Text} {callers : List Text}
    (hcalls : ∀ caller ∈ callers, Calls records caller current)
    (h : search.IsSound records name limit exclude (current :: search.queue)) :
    let next := callers.foldl (CallGraph.visit (ofRecords records) limit exclude) search
    next.IsSound records name limit exclude (current :: next.queue) ∧
      next.visited.length + search.queue.length = search.visited.length + next.queue.length ∧
      search.visited ⊆ next.visited ∧
      (limit ≤ next.found.length ∨ ∀ caller ∈ callers, caller ∈ next.visited) := by
  induction callers generalizing search with
  | nil => exact ⟨h, rfl, List.Subset.refl _, Or.inr (List.forall_mem_nil _)⟩
  | cons caller callers ih =>
      obtain ⟨hcaller, hcallers⟩ := List.forall_mem_cons.1 hcalls
      obtain ⟨hmiddle, hcount, hsubset, hdone⟩ := h.visit hnames huris hcaller
      obtain ⟨hlast, hcount', hsubset', hdone'⟩ := ih hcallers hmiddle
      refine ⟨hlast, by rw [List.foldl_cons]; omega, List.Subset.trans hsubset hsubset', ?_⟩
      rcases hdone' with henough | hvisited
      · exact Or.inl henough
      · refine hdone.imp (fun henough => ?_)
          fun hmem => List.forall_mem_cons.2 ⟨hsubset' hmem, hvisited⟩
        -- enough was found, so nothing more was done
        have hstays : callers.foldl (CallGraph.visit (ofRecords records) limit exclude)
            (CallGraph.visit (ofRecords records) limit exclude search caller) =
            CallGraph.visit (ofRecords records) limit exclude search caller := by
          clear ih hcalls hcallers hlast hcount' hsubset' hvisited
          induction callers with
          | nil => rfl
          | cons other callers ih => rw [List.foldl_cons, visit_of_enough henough, ih]
        rw [List.foldl_cons, hstays]
        exact henough

theorem searchWithin_of_enough (h : limit ≤ search.found.length) (fuel : Nat) :
    searchWithin (ofRecords records) limit exclude fuel search = search := by
  have hstops : (limit : Int) ≤ search.found.length := by omega
  cases fuel with
  | zero => rfl
  | succ fuel =>
      rw [searchWithin]
      split
      · rfl
      · rw [if_pos hstops]

theorem searchWithin_cons {current : Text} {queue : List Text} (hqueue : search.queue = current :: queue)
    (h : search.found.length < limit) (fuel : Nat) :
    searchWithin (ofRecords records) limit exclude (fuel + 1) search =
      searchWithin (ofRecords records) limit exclude fuel
        ((Text.sort ((ofRecords records).callersOf current)).foldl
          (visit (ofRecords records) limit exclude) { search with queue }) := by
  have hgoes : ¬ ((limit : Int) ≤ search.found.length) := by omega
  rw [searchWithin, hqueue]
  exact if_neg hgoes

/-- A search ends when it has found enough or when nothing waits any more. -/
theorem exists_searchWithin (hnames : (records.map (·.name)).Nodup) (huris : (records.map (·.uri)).Nodup)
    {fuel : Nat} (h : search.IsSound records name limit exclude search.queue)
    (hfuel : records.length + 1 + search.queue.length ≤ fuel + search.visited.length) :
    ∃ waiting, (searchWithin (ofRecords records) limit exclude fuel search).IsSound records name limit exclude
        waiting ∧
      (limit ≤ (searchWithin (ofRecords records) limit exclude fuel search).found.length ∨ waiting = []) := by
  induction fuel generalizing search with
  | zero =>
      refine ⟨search.queue, h, Or.inr (List.length_eq_zero_iff.1 ?_)⟩
      have hvisited := h.levelled.length_le
      omega
  | succ fuel ih =>
      by_cases henough : limit ≤ search.found.length
      · rw [searchWithin_of_enough henough]
        exact ⟨search.queue, h, Or.inl henough⟩
      · cases hqueue : search.queue with
        | nil =>
            rw [hqueue] at h
            refine ⟨[], ?_, Or.inr rfl⟩
            rw [searchWithin, hqueue]
            exact h
        | cons current queue =>
            rw [searchWithin_cons hqueue (Nat.lt_of_not_le henough)]
            rw [hqueue] at h hfuel
            have hcalls : ∀ caller, caller ∈ Text.sort ((ofRecords records).callersOf current) ↔
                Calls records caller current :=
              fun caller => Text.mem_sortBy.trans mem_callersOf_ofRecords
            have hbegun : ({ search with queue } : Search).IsSound records name limit exclude
                (current :: queue) := ⟨h.levelled, ⟨h.tallied.1, h.tallied.2⟩, h.length_le⟩
            obtain ⟨hnext, hcount, -, hdone⟩ :=
              hbegun.foldl_visit hnames huris fun caller hcaller => (hcalls caller).1 hcaller
            rcases hdone with henough | hvisited
            · rw [searchWithin_of_enough henough]
              exact ⟨_, hnext, Or.inl henough⟩
            · -- all callers of `current` are visited, so it waits no longer
              refine ih ⟨hnext.levelled.leave fun caller hcaller => hvisited caller ((hcalls caller).2 hcaller),
                hnext.tallied, hnext.length_le⟩ ?_
              simp only [List.length_cons] at hfuel hcount
              omega

/-! ## The documents of a change -/

/-- The documents of the other scenarios that call one, directly or through others, without an excluded one. -/
def concernedBy (records : List Record) (name : Text) (exclude : Option Text) : Set Source :=
  {source | ∃ record ∈ records, record.source = source ∧ record.name ≠ name ∧
    TransGen (Calls records) record.name name ∧ some record.uri ≠ exclude}

theorem finite_concernedBy (records : List Record) (name : Text) (exclude : Option Text) :
    (concernedBy records name exclude).Finite := by
  refine (List.finite_toSet (records.map (·.source))).subset ?_
  rintro source ⟨record, hrecord, rfl, -⟩
  exact List.mem_map_of_mem hrecord

theorem Search.IsTallied.map_uri (h : search.IsTallied records name exclude) :
    search.found.values.map (·.uri) = Table.keys search.found := by
  rw [Table.values, Table.keys, List.map_map]
  refine List.map_congr_left fun entry hentry => ?_
  obtain ⟨record, -, rfl, -⟩ := (h.mem_found_iff entry).1 hentry
  rfl

variable {waiting : List Text}

/-- What a search has found are the documents concerned of the scenarios that it has visited. -/
theorem Search.IsSound.mem_values_iff (h : search.IsSound records name limit exclude waiting)
    (huris : (records.map (·.uri)).Nodup) {record : Record} (hrecord : record ∈ records) :
    record.source ∈ search.found.values ↔
      record.source ∈ concernedBy records name exclude ∧ record.name ∈ search.visited := by
  constructor
  · intro hsource
    obtain ⟨entry, hentry, heq⟩ := List.mem_map.1 hsource
    obtain ⟨other, hother, rfl, hvisited, hne, hexclude⟩ := (h.tallied.mem_found_iff entry).1 hentry
    obtain rfl := List.inj_on_of_nodup_map huris hother hrecord (congrArg Source.uri heq)
    have hcalls := (reflTransGen_iff_eq_or_transGen.1 (h.levelled.reaches _ hvisited)).resolve_left hne.symm
    exact ⟨⟨other, hother, rfl, hne, hcalls, hexclude⟩, hvisited⟩
  · rintro ⟨⟨other, hother, heq, hne, -, hexclude⟩, hvisited⟩
    obtain rfl := List.inj_on_of_nodup_map huris hother hrecord (congrArg Source.uri heq)
    exact List.mem_map.2 ⟨(other.uri, other.source),
      (h.tallied.mem_found_iff _).2 ⟨other, hother, rfl, hvisited, hne, hexclude⟩, rfl⟩

theorem Search.IsSound.subset_concernedBy (h : search.IsSound records name limit exclude waiting)
    (huris : (records.map (·.uri)).Nodup) {source : Source} (hsource : source ∈ search.found.values) :
    source ∈ concernedBy records name exclude := by
  obtain ⟨entry, hentry, rfl⟩ := List.mem_map.1 hsource
  obtain ⟨record, hrecord, rfl, -⟩ := (h.tallied.mem_found_iff entry).1 hentry
  exact ((h.mem_values_iff huris hrecord).1 hsource).1

/-- A search that is over has found as many documents as there are, up to the limit. -/
theorem Search.IsSound.length_values (h : search.IsSound records name limit exclude waiting)
    (huris : (records.map (·.uri)).Nodup) (hends : limit ≤ search.found.length ∨ waiting = []) :
    search.found.values.length = min limit (concernedBy records name exclude).ncard := by
  have hnodup : search.found.values.Nodup := by
    refine List.Nodup.of_map (·.uri) ?_
    rw [h.tallied.map_uri]
    exact h.tallied.nodup
  have hcount : {source | source ∈ search.found.values}.ncard = search.found.values.length := by
    rw [← List.coe_toFinset, Set.ncard_coe_finset, List.toFinset_card_of_nodup hnodup]
  have hlength : search.found.values.length = search.found.length := List.length_map _
  have hlimit := h.length_le
  have hsubset : {source | source ∈ search.found.values} ⊆ concernedBy records name exclude :=
    fun source => h.subset_concernedBy huris
  rcases hends with henough | rfl
  · have hle := Set.ncard_le_ncard hsubset (finite_concernedBy records name exclude)
    omega
  · have hall : {source | source ∈ search.found.values} = concernedBy records name exclude := by
      refine Set.Subset.antisymm hsubset ?_
      rintro source ⟨record, hrecord, rfl, hconcerned⟩
      exact (h.mem_values_iff huris hrecord).2 ⟨⟨record, hrecord, rfl, hconcerned⟩,
        h.levelled.mem_of_reaches hconcerned.2.1.to_reflTransGen⟩
    rw [← hall, hcount]
    omega

theorem Search.isSound_start (records : List Record) (name : Text) (limit : Nat) (exclude : Option Text) :
    Search.IsSound records name limit exclude { visited := [name], queue := [name] } [name] where
  levelled := IsLevelled.start records name
  tallied := by
    refine ⟨List.nodup_nil, fun entry => iff_of_false List.not_mem_nil ?_⟩
    rintro ⟨record, -, -, hvisited, hne, -⟩
    exact hne (List.mem_singleton.1 hvisited)
  length_le := Nat.zero_le limit

/-- Whether documents are the nearest of those that a change to a scenario concerns, as many as the limit allows. -/
structure AreNearest (records : List Record) (name : Text) (limit : Nat) (exclude : Option Text)
    (related : List Source) : Prop where
  length_eq : related.length = min limit (concernedBy records name exclude).ncard
  nodup : (related.map (·.uri)).Nodup
  concerned : ∀ source ∈ related, source ∈ concernedBy records name exclude
  /-- They are sorted by their paths in lower case. -/
  sorted : (related.map fun source => lower source.uri).Pairwise fun a b => le a b = true
  /-- None that is left out is nearer than one of them. -/
  nearest : ∀ record ∈ records, ∀ other ∈ records, record.source ∈ concernedBy records name exclude →
    record.source ∉ related → other.source ∈ related →
      callDistance records other.name name ≤ callDistance records record.name name

/-- The related documents are those of the scenarios that call one, directly or through others, without the excluded
one; if the limit does not allow for all of them, they are the nearest. -/
theorem related_ofRecords (hnames : (records.map (·.name)).Nodup) (huris : (records.map (·.uri)).Nodup)
    (name : Text) (limit : Nat) (exclude : Option Text) :
    AreNearest records name limit exclude ((ofRecords records).related name limit exclude) := by
  -- every name taken off the queue was visited once, so there is fuel for all of them
  have hfuel : records.length + 1 + [name].length ≤ (ofRecords records).callees.length + 1 + [name].length := by
    rw [length_callees_ofRecords hnames]
  obtain ⟨waiting, hsound, hends⟩ :=
    exists_searchWithin hnames huris (Search.isSound_start records name limit exclude) hfuel
  have hperm := perm_sortBy (fun source => lower source.uri) (searchWithin (ofRecords records) limit exclude
    ((ofRecords records).callees.length + 1) { visited := [name], queue := [name] }).found.values
  have hmem : ∀ source, source ∈ (ofRecords records).related name limit exclude ↔ _ :=
    fun source => hperm.mem_iff
  refine ⟨hperm.length_eq.trans (hsound.length_values huris hends), ?_, fun source hsource =>
    hsound.subset_concernedBy huris ((hmem source).1 hsource), pairwise_sortBy _ _, ?_⟩
  · refine (hperm.map (·.uri)).nodup_iff.2 ?_
    rw [hsound.tallied.map_uri]
    exact hsound.tallied.nodup
  · intro record hrecord other hother hconcerned hleft hfound
    rw [hmem, hsound.mem_values_iff huris hrecord] at hleft
    rw [hmem, hsound.mem_values_iff huris hother] at hfound
    obtain ⟨caller, hcaller, heq, -, hcalls, -⟩ := id hconcerned
    obtain rfl := List.inj_on_of_nodup_map huris hcaller hrecord (congrArg Source.uri heq)
    exact hsound.levelled.le_of_not_mem hfound.2 hcalls.to_reflTransGen fun hvisited =>
      hleft ⟨hconcerned, hvisited⟩

def recordOfCalls (name uri : Text) (nestedCalls : List Text) : Record where
  name
  source := ⟨uri, []⟩
  uid := none
  code := none
  codeSpan := none
  parameters := []
  defaults := []
  nestedCalls
  description := none
  tab := none

/-- Three scenarios that call each other in a circle, one of them also itself, and a fourth that calls the last. -/
def circle : List Record := [
  recordOfCalls "A".toList "/a".toList ["A".toList, "C".toList],
  recordOfCalls "B".toList "/b".toList ["A".toList],
  recordOfCalls "C".toList "/c".toList ["B".toList],
  recordOfCalls "D".toList "/d".toList ["C".toList]]

/-- The excluded document is passed over, but its callers are related. -/
theorem related_ofRecords_circle :
    (circle.map (·.name)).Nodup ∧ (circle.map (·.uri)).Nodup ∧
      AreNearest circle "A".toList 1 (some "/b".toList)
        ((ofRecords circle).related "A".toList 1 (some "/b".toList)) ∧
      (ofRecords circle).related "A".toList 1 (some "/b".toList) = [⟨"/c".toList, []⟩] := by
  have hfirst : Text.sort ((ofRecords circle).callersOf "A".toList) = ["A".toList, "B".toList] :=
    List.mergeSort_of_pairwise (by decide)
  have hsecond : Text.sort ((ofRecords circle).callersOf "B".toList) = ["C".toList] := List.mergeSort_singleton _
  refine ⟨by decide, by decide, related_ofRecords (by decide) (by decide) "A".toList 1 (some "/b".toList), ?_⟩
  show Text.sortBy _ (searchWithin (ofRecords circle) (1 : Nat) (some "/b".toList) (3 + 1 + 1)
    { visited := ["A".toList], queue := ["A".toList] }).found.values = _
  rw [searchWithin_cons rfl (by decide), hfirst, searchWithin_cons rfl (by decide), hsecond,
    searchWithin_of_enough (by decide)]
  exact List.mergeSort_singleton _

end Scenarist.CallGraph
