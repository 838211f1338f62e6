import Scenarist.Proofs.Index.Cached
import Scenarist.Proofs.Index.Made

set_option autoImplicit false

/-! # One record for each document

An index is a table of names, and a record also says which document it is of. That no two records are of one
document is no matter of the table: entering a document clears away what else there was of it, and a scan
that reads no path twice finds no more than one record on each. So it holds after whatever has happened to
an index that began empty, scans that were overtaken or cut short and the listeners of changes included.

Main statements: `Index.IsDistinct.enter` and `recordsOf_isDistinct` (what brings records in),
`Traffic.IsDistinct.step` (one event) and `Watched.isDistinct_run` (any acts). -/

namespace Scenarist

/-! ## Indexes -/

/-- Whether no name and no document has two records. -/
structure Index.IsDistinct (index : Index) : Prop where
  nodup_names : index.names.Nodup
  eq_of_uri : ∀ entry ∈ index.records, ∀ other ∈ index.records, entry.2.uri = other.2.uri → entry = other

namespace Index.IsDistinct

variable {index : Index} {record : Record}

theorem of_empty (h : index.records = []) : index.IsDistinct where
  nodup_names := by simp [names, Table.keys, h]
  eq_of_uri entry hentry := by simp [h] at hentry

theorem nodup_uris (h : index.IsDistinct) : (index.allRecords.map Record.uri).Nodup := by
  unfold allRecords Table.values
  rw [List.map_map]
  have hrecords : index.records.Nodup := List.Nodup.of_map Prod.fst h.nodup_names
  exact hrecords.map_on h.eq_of_uri

theorem enter (h : index.IsDistinct) (record : Record) : (index.enter record).2.IsDistinct where
  nodup_names := nodup_names_enter h.nodup_names record
  eq_of_uri := by
    obtain ⟨hget, hplace⟩ := holds_iff.1 (holds_records_enter index record)
    -- what is of the record's document is the record, and the rest was there before
    have hsame : ∀ entry ∈ (index.enter record).2.records, entry.2.uri = record.uri →
        entry = (record.name, record) := by
      intro entry hentry huri
      have hname := hplace entry hentry huri
      have hfound := Table.get?_eq_some_of_mem (nodup_names_enter h.nodup_names record) hentry
      rw [hname, hget] at hfound
      exact Prod.ext hname (Option.some.inj hfound).symm
    have hold : ∀ entry ∈ (index.enter record).2.records, entry.2.uri ≠ record.uri →
        entry ∈ index.records := by
      intro entry hentry huri
      refine (mem_records_enter hentry).resolve_right ?_
      rintro rfl
      exact huri rfl
    intro entry hentry other hother huri
    by_cases heq : entry.2.uri = record.uri
    · rw [hsame entry hentry heq, hsame other hother (huri.symm.trans heq)]
    · exact h.eq_of_uri entry (hold entry hentry heq) other (hold other hother (huri ▸ heq)) huri

theorem remove (h : index.IsDistinct) (uri : Text) : (index.remove uri).2.IsDistinct where
  nodup_names := nodup_names_remove h.nodup_names uri
  eq_of_uri entry hentry other hother :=
    h.eq_of_uri entry (mem_records_remove hentry) other (mem_records_remove hother)

theorem upsert (h : index.IsDistinct) (uri text : Text) : (index.upsert uri text).2.IsDistinct := by
  unfold Index.upsert
  split
  · exact h.enter _
  · exact h.remove uri

theorem react (h : index.IsDistinct) (change : IndexChange) : (index.react change).IsDistinct :=
  react_induction (motive := IsDistinct) h h.upsert h.remove (fun _ _ => ⟨h.nodup_names, h.eq_of_uri⟩)
    (fun _ => ⟨h.nodup_names, h.eq_of_uri⟩) change

end Index.IsDistinct

/-! ## Scans -/

/-- Whether no two files are written as one path. -/
def HasDistinctPaths (uris : List Text) : Prop := (uris.map fun uri => (Path.ofText uri).toText).Nodup

instance (uris : List Text) : Decidable (HasDistinctPaths uris) := inferInstanceAs (Decidable (List.Nodup _))

/-- Different files that are written the way their paths are have different paths. -/
theorem hasDistinctPaths_of_isNormal {uris : List Text} (hnodup : uris.Nodup) (h : ∀ uri ∈ uris, IsNormal uri) :
    HasDistinctPaths uris := by
  unfold HasDistinctPaths
  rwa [List.map_congr_left h, List.map_id']

/-- Files of different paths give no two records of one document. -/
theorem recordsOf_isDistinct {index : Index} {files : Table (Except StoreError Text)}
    (hfiles : HasDistinctPaths files.keys) (hrecords : index.records = recordsOf index.sourceOf files) :
    index.IsDistinct where
  nodup_names := by
    unfold Index.names
    rw [hrecords]
    exact nodup_keys_recordsOf index.sourceOf files
  eq_of_uri entry hentry other hother huri := by
    rw [hrecords] at hentry hother
    obtain ⟨hname, file, hmem, hfile⟩ := exists_file_of_mem_recordsOf hentry
    obtain ⟨hname', file', hmem', hfile'⟩ := exists_file_of_mem_recordsOf hother
    have hpaths : (files.map fun file => (index.sourceOf file.1).uri).Nodup := by
      unfold HasDistinctPaths Table.keys at hfiles
      rwa [List.map_map] at hfiles
    rw [uri_of_recordOfFile? hfile, uri_of_recordOfFile? hfile'] at huri
    obtain rfl := List.inj_on_of_nodup_map hpaths hmem hmem' huri
    have heq : entry.2 = other.2 := Option.some.inj (hfile.symm.trans hfile')
    exact Prod.ext (by rw [hname, hname', heq]) heq

def Stage.HasDistinctPaths : Stage → Prop
  | .sweeping sweep => Scenarist.HasDistinctPaths sweep.files
  | _ => True

def IndexEvent.HasDistinctPaths : IndexEvent → Prop
  | .beginRebuild uris | .list _ uris => Scenarist.HasDistinctPaths uris
  | _ => True

instance (event : IndexEvent) : Decidable event.HasDistinctPaths :=
  match event with
  | .beginRebuild uris => inferInstanceAs (Decidable (Scenarist.HasDistinctPaths uris))
  | .list _ uris => inferInstanceAs (Decidable (Scenarist.HasDistinctPaths uris))
  | .change _ | .beginRefresh | .fail _ | .goOn _ _ _ => inferInstanceAs (Decidable True)

/-- A scan keeps its files as long as it reads them. -/
theorem Sweep.goOn_hasDistinctPaths {sweep : Sweep} (h : HasDistinctPaths sweep.files) (index : Index)
    (cancelled : Bool) (fetched : Except StoreError Text) :
    (sweep.goOn index cancelled fetched).1.HasDistinctPaths := by
  cases hremaining : sweep.scan.remaining with
  | nil =>
      rw [goOn_of_remaining_nil hremaining]
      trivial
  | cons uri rest =>
      cases hhand : sweep.inHand with
      | some held =>
          rw [goOn_take hremaining hhand]
          cases htaken : sweep.scan.tryTake index.sourceOf uri held with
          | error fault => trivial
          | ok scan =>
              have hscan := @Scan.tryTake_eq_ok _ _ _ (uri, held) htaken
              have hrest : scan.remaining = rest := by
                rw [hscan, Scan.take_eq sweep.scan index.sourceOf (uri, held), hremaining, List.tail_cons]
              have hfiles : Sweep.files { scan, taken := sweep.taken ++ [(uri, held)] } = sweep.files := by
                simp [files, Table.keys, hrest, hremaining]
              show HasDistinctPaths (Sweep.files _)
              rwa [hfiles]
      | none =>
          cases cancelled with
          | true =>
              rw [goOn_cancelled hremaining hhand]
              trivial
          | false =>
              rw [goOn_fetch hremaining hhand]
              exact h

/-! ## Events -/

namespace Traffic

variable {traffic next : Traffic} {event : IndexEvent}

/-- Whether no two records are of one document, and no scan reads a path twice. -/
structure IsDistinct (traffic : Traffic) : Prop where
  isSound : traffic.IsSound
  isMade : traffic.index.IsMade
  index : traffic.index.IsDistinct
  scans : ∀ stage ∈ traffic.scans, stage.HasDistinctPaths

theorem IsDistinct.of_empty {index : Index} (h : index.records = []) : IsDistinct ⟨index, []⟩ where
  isSound _ hstage := absurd hstage List.not_mem_nil
  isMade := Index.isMade_of_empty h
  index := .of_empty h
  scans _ hstage := absurd hstage List.not_mem_nil

theorem Steps.index_isDistinct (hsteps : traffic.Steps next) (h : traffic.IsDistinct) :
    next.index.IsDistinct := by
  cases hsteps with
  | change change => exact h.index.react change
  | skip | begin | move => exact h.index
  | @install number sweep hstage cut =>
      have hmem := List.mem_of_getElem? hstage
      have hpaths : HasDistinctPaths sweep.files := h.scans _ hmem
      -- what a scan has taken in is of the first of its files
      have htaken : HasDistinctPaths sweep.taken.keys := by
        unfold HasDistinctPaths Sweep.files at hpaths
        rw [List.map_append] at hpaths
        exact hpaths.of_append_left
      exact recordsOf_isDistinct htaken (h.isSound _ hmem)

theorem IsDistinct.scans_step (h : traffic.IsDistinct) (hevent : event.HasDistinctPaths) :
    ∀ stage ∈ (traffic.step event).scans, stage.HasDistinctPaths := by
  have hset : ∀ (number : Nat) (stage : Stage), stage.HasDistinctPaths →
      ∀ other ∈ traffic.scans.set number stage, other.HasDistinctPaths := by
    intro number stage hstage other hother
    rcases List.mem_or_eq_of_mem_set hother with hmem | rfl
    · exact h.scans other hmem
    · exact hstage
  have hadd : ∀ stage : Stage, stage.HasDistinctPaths →
      ∀ other ∈ traffic.scans ++ [stage], other.HasDistinctPaths := by
    intro stage hstage other hother
    rcases List.mem_append.1 hother with hmem | hmem
    · exact h.scans other hmem
    · rwa [List.mem_singleton.1 hmem]
  cases event with
  | change change => exact h.scans
  | beginRefresh =>
      simp only [step]
      split
      · exact hadd _ trivial
      · exact h.scans
  | beginRebuild uris => exact hadd _ hevent
  | list number uris =>
      simp only [step]
      split
      · exact hset number _ hevent
      · exact h.scans
  | fail number =>
      simp only [step]
      split
      · exact hset number _ trivial
      · exact hset number _ trivial
      · exact h.scans
  | goOn number cancelled fetched =>
      simp only [step]
      split
      · next sweep hstage =>
        exact hset number _ (Sweep.goOn_hasDistinctPaths (h.scans _ (List.mem_of_getElem? hstage)) _ _ _)
      · exact h.scans

/-- No event brings in a second record of a document. -/
theorem IsDistinct.step (h : traffic.IsDistinct) (hevent : event.HasDistinctPaths) :
    (traffic.step event).IsDistinct where
  isSound := (traffic.steps_step event).isSound h.isSound
  isMade := (traffic.steps_step event).isMade h.isSound h.isMade
  index := (traffic.steps_step event).index_isDistinct h
  scans := h.scans_step hevent

end Traffic

/-! ## Acts -/

def IndexAct.HasDistinctPaths : IndexAct → Prop
  | .event happening => happening.HasDistinctPaths
  | _ => True

instance (act : IndexAct) : Decidable act.HasDistinctPaths :=
  match act with
  | .event happening => inferInstanceAs (Decidable happening.HasDistinctPaths)
  | .ask _ | .forgetGraph => inferInstanceAs (Decidable True)

namespace Watched

/-- What has become of it all after acts. What listeners do comes between the acts that are not theirs. -/
def run (w : Watched) (acts : List IndexAct) : Watched := acts.foldl act w

variable {w : Watched} {acts : List IndexAct}

theorem isSound_run (h : w.IsSound) (acts : List IndexAct) : (w.run acts).IsSound := by
  induction acts generalizing w with
  | nil => exact h
  | cons first acts ih => exact ih (h.act first)

theorem isDistinct_act (h : w.traffic.IsDistinct) {first : IndexAct} (hfirst : first.HasDistinctPaths) :
    (w.act first).traffic.IsDistinct := by
  cases first with
  | event event => exact h.step hfirst
  | ask question => cases question <;> exact h
  | forgetGraph => exact h

/-- After any acts no two records of the index are of one document. -/
theorem isDistinct_run (h : w.traffic.IsDistinct) (hacts : ∀ act ∈ acts, act.HasDistinctPaths) :
    (w.run acts).traffic.IsDistinct := by
  induction acts generalizing w with
  | nil => exact h
  | cons first acts ih =>
      exact ih (isDistinct_act h (hacts first List.mem_cons_self))
        fun act hact => hacts act (List.mem_cons_of_mem _ hact)

end Watched

end Scenarist
