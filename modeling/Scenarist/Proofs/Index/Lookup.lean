import Scenarist.Proofs.Index

set_option autoImplicit false

/-! # What the index looks up after a change

A name is looked up in the index; what a change of the index does is told by what every name finds
afterwards. Entering a document takes its name for its own record and clears what other names found of the
same document; removing it clears what every name found of it. A change that says it was none is none,
and one that says it was one can be seen by looking up a name.

Main statements: `Index.lookup?_upsert`, `Index.lookup?_remove`, `Index.tryUpsert_changed_iff` and
`Index.remove_changed_iff`. -/

namespace Scenarist

/-- A text that is written the way its path is. -/
def IsNormal (uri : Text) : Prop := (Path.ofText uri).toText = uri

instance (uri : Text) : Decidable (IsNormal uri) := inferInstanceAs (Decidable (_ = _))

def Record.nameOf? (document : Text) : Option Text := Declaration.scenarioName? (dropMark document)

theorem Record.name_ofText? (source : Source) (document : Text) :
    (ofText? source document).map Record.name = nameOf? document := by
  unfold ofText? nameOf?
  rw [Option.map_map]
  exact Option.map_id'

theorem filter_eq_self_of_forall {α : Type} {found : Option α} {test : α → Bool}
    (h : ∀ value, found = some value → test value = true) : found.filter test = found := by
  cases found with
  | none => rfl
  | some value => rw [Option.filter_some, if_pos (h value rfl)]

namespace Index

variable {index : Index} {record : Record} {uri text name : Text}

theorem uri_ofText?_sourceOf (huri : IsNormal uri)
    (h : Record.ofText? (index.sourceOf uri) text = some record) : record.uri = uri :=
  (uri_of_ofText? h).trans huri

/-! ## Single documents -/

theorem lookup?_enter (hnames : index.names.Nodup) (record : Record) (name : Text) :
    (index.enter record).2.lookup? name =
      if name = record.name then some record
      else (index.lookup? name).filter fun found => found.uri ≠ record.uri := by
  unfold enter
  split
  · next hholds =>
    obtain ⟨hget, hplace⟩ := holds_iff.1 hholds
    split
    · next hname => exact hname ▸ hget
    · next hname =>
      refine (filter_eq_self_of_forall fun found hfound => ?_).symm
      have hentry := Table.mem_of_get?_eq_some hfound
      simpa using fun huri => hname (hplace _ hentry huri)
  · show (putRecord record index.records).get? name = _
    unfold putRecord
    rw [Table.get?_put]
    split
    · rfl
    · next hname =>
      rw [Table.get?_filter hnames]
      congr 1
      funext found
      simp [hname]

theorem lookup?_remove (hnames : index.names.Nodup) (uri name : Text) :
    (index.remove uri).2.lookup? name =
      (index.lookup? name).filter fun found => found.uri ≠ uri := by
  unfold lookup?
  rw [records_remove]
  exact Table.get?_filter hnames _ name

/-- After a document was entered its name finds its record, and no other name finds one of it. -/
theorem lookup?_upsert (hnames : index.names.Nodup) (huri : IsNormal uri) (text name : Text) :
    (index.upsert uri text).2.lookup? name =
      ((Record.ofText? (index.sourceOf uri) text).filter fun record => record.name = name).or
        ((index.lookup? name).filter fun found => found.uri ≠ uri) := by
  cases hrecord : Record.ofText? (index.sourceOf uri) text with
  | none =>
      rw [upsert_of_none hrecord, lookup?_remove hnames]
      rfl
  | some record =>
      rw [upsert_of_some hrecord, lookup?_enter hnames, uri_ofText?_sourceOf huri hrecord]
      by_cases hname : name = record.name
      · rw [if_pos hname, Option.filter_some, if_pos (by simpa using hname.symm), Option.some_or]
      · rw [if_neg hname, Option.filter_some, if_neg (by simpa using Ne.symm hname), Option.none_or]

theorem nodup_names_enter (hnames : index.names.Nodup) (record : Record) :
    (index.enter record).2.names.Nodup := by
  unfold enter
  split
  · exact hnames
  · exact Table.nodup_keys_put (Table.nodup_keys_filter hnames _) _ _

theorem nodup_names_remove (hnames : index.names.Nodup) (uri : Text) :
    (index.remove uri).2.names.Nodup := by
  unfold names
  rw [records_remove]
  exact Table.nodup_keys_filter hnames _

theorem nodup_names_upsert (hnames : index.names.Nodup) (uri text : Text) :
    (index.upsert uri text).2.names.Nodup := by
  unfold upsert
  split
  · exact nodup_names_enter hnames _
  · exact nodup_names_remove hnames uri

theorem scanRoot_remove (index : Index) (uri : Text) : (index.remove uri).2.scanRoot = index.scanRoot := by
  unfold remove
  split <;> rfl

theorem tryUpsert_eq_ok {result : Bool × Index} (h : index.tryUpsert uri text = .ok result) :
    result = index.upsert uri text := eq_of_guardScalars_eq_ok h

/-! ## Whether something changed -/

theorem enter_changed_iff (hnames : index.names.Nodup) (record : Record) :
    (index.enter record).1 = true ↔ (index.enter record).2.lookup? ≠ index.lookup? := by
  by_cases hholds : holds record index.records = true
  · have hsame : index.enter record = (false, index) := by
      unfold enter
      rw [if_pos hholds]
    simp [hsame]
  · have hchanged : (index.enter record).1 = true := by
      unfold enter
      rw [if_neg hholds]
    refine iff_of_true hchanged fun hsame => hholds (holds_iff.2 ⟨?_, fun entry hentry huri => ?_⟩)
    · have hfound := congrFun hsame record.name
      rw [lookup?_enter hnames, if_pos rfl] at hfound
      exact hfound.symm
    -- another name that found a record of the document would find nothing any more
    · have hget : index.lookup? entry.1 = some entry.2 := Table.get?_eq_some_of_mem hnames hentry
      have hfound := congrFun hsame entry.1
      rw [lookup?_enter hnames, hget] at hfound
      by_contra hname
      rw [if_neg hname, Option.filter_some, if_neg (by simpa using huri)] at hfound
      exact absurd hfound (by simp)

theorem remove_changed_iff (hnames : index.names.Nodup) (uri : Text) :
    (index.remove uri).1 = true ↔ (index.remove uri).2.lookup? ≠ index.lookup? := by
  by_cases hany : (index.records.any fun entry => entry.2.uri = uri) = true
  · have hchanged : (index.remove uri).1 = true := congrArg Prod.fst (if_pos hany)
    refine iff_of_true hchanged fun hsame => ?_
    obtain ⟨entry, hentry, huri⟩ := List.any_eq_true.1 hany
    have hget : index.lookup? entry.1 = some entry.2 := Table.get?_eq_some_of_mem hnames hentry
    have hfound := congrFun hsame entry.1
    rw [lookup?_remove hnames, hget, Option.filter_some, if_neg (by simpa using huri)] at hfound
    exact absurd hfound (by simp)
  · have hsame : index.remove uri = (false, index) := if_neg hany
    simp [hsame]

theorem tryUpsert_changed_iff (hnames : index.names.Nodup) {result : Bool × Index}
    (h : index.tryUpsert uri text = .ok result) :
    result.1 = true ↔ result.2.lookup? ≠ index.lookup? := by
  rw [tryUpsert_eq_ok h]
  unfold upsert
  split
  · exact enter_changed_iff hnames _
  · exact remove_changed_iff hnames uri

theorem generation_remove (index : Index) (uri : Text) :
    (index.remove uri).2.generation = index.generation + (index.remove uri).1.toNat := by
  unfold remove
  split <;> rfl

theorem generation_tryUpsert {result : Bool × Index} (h : index.tryUpsert uri text = .ok result) :
    result.2.generation = index.generation + result.1.toNat := by
  rw [tryUpsert_eq_ok h]
  unfold upsert
  split
  · unfold enter
    split <;> rfl
  · exact generation_remove index uri

end Index

end Scenarist
