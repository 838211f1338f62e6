import Scenarist.Table
import Mathlib.Data.List.Induction
import Mathlib.Data.List.Nodup

set_option autoImplicit false

/-! # Entries into tables

What is found in a table after many entries: with `putNew` the first entry under a key counts, with
`putAll` the entries of the other table, with `collect` all of them.

Main statements: `Table.get?_ofEntries`, `Table.get?_putAll` and `Table.get?_collect`. -/

namespace Scenarist.Table

variable {α : Type}

theorem get?_cons (entry : Text × α) (table : Table α) (key : Text) :
    get? (entry :: table) key = if key = entry.1 then some entry.2 else get? table key := by
  obtain ⟨k, v⟩ := entry
  by_cases h : key = k
  · simp [get?, h]
  · have : (key == k) = false := by simpa using h
    simp [get?, List.lookup_cons, h, this]

theorem get?_append (table others : Table α) (key : Text) :
    get? (table ++ others) key = (get? table key).or (get? others key) := by
  induction table with
  | nil => rfl
  | cons entry table ih =>
      rw [List.cons_append, get?_cons, get?_cons, ih]
      by_cases h : key = entry.1 <;> simp [h]

theorem get?_map_of_mem {names : List Text} {name : Text} (h : name ∈ names) (f : Text → α) :
    get? (names.map fun n => (n, f n)) name = some (f name) := by
  induction names with
  | nil => exact absurd h List.not_mem_nil
  | cons n names ih =>
      rw [List.map_cons, get?_cons]
      by_cases hn : name = n
      · rw [if_pos hn, hn]
      · rw [if_neg hn]
        exact ih ((List.mem_cons.1 h).resolve_left hn)

theorem get?_putNew (table : Table α) (key other : Text) (value : α) :
    get? (putNew key value table) other =
      (get? table other).or (if other = key then some value else none) := by
  unfold putNew has
  split
  · next h =>
    by_cases hkey : other = key
    · obtain ⟨found, hfound⟩ := Option.isSome_iff_exists.1 h
      rw [hkey, hfound]
      rfl
    · simp [hkey]
  · next h =>
    rw [get?_put]
    by_cases hkey : other = key
    · have : get? table key = none := by simpa using h
      simp [hkey, this]
    · simp [hkey]

theorem get?_putNew_of_some {table : Table α} {key other : Text} {value found : α}
    (h : get? table other = some found) : get? (putNew key value table) other = some found := by
  rw [get?_putNew, h]
  rfl

/-- The first of many new entries under a key counts, unless the key was there before. -/
theorem get?_foldl_putNew (entries : List (Text × α)) (table : Table α) (key : Text) :
    get? (entries.foldl (fun table entry => putNew entry.1 entry.2 table) table) key =
      (get? table key).or (get? entries key) := by
  induction entries generalizing table with
  | nil => simp [get?]
  | cons entry entries ih =>
      rw [List.foldl_cons, ih, get?_putNew, get?_cons]
      cases get? table key with
      | some found => rfl
      | none => by_cases h : key = entry.1 <;> simp [h]

/-- The table of entries; the first entry under a key counts. -/
def ofEntries (entries : List (Text × α)) : Table α :=
  entries.foldl (fun table entry => putNew entry.1 entry.2 table) []

theorem get?_ofEntries (entries : List (Text × α)) (key : Text) :
    get? (ofEntries entries) key = get? entries key := by
  rw [ofEntries, get?_foldl_putNew]
  rfl

theorem mem_keys_iff {table : Table α} {key : Text} :
    key ∈ keys table ↔ (get? table key).isSome := by
  induction table with
  | nil => simp [keys, get?]
  | cons entry table ih =>
      rw [get?_cons, show keys (entry :: table) = entry.1 :: keys table from rfl, List.mem_cons, ih]
      by_cases h : key = entry.1 <;> simp [h]

theorem nodup_keys_put {table : Table α} (h : (keys table).Nodup) (key : Text) (value : α) :
    (keys (put key value table)).Nodup := by
  rw [keys_put]
  split
  · exact h
  · next hkey =>
    rw [List.nodup_append]
    refine ⟨h, by simp, ?_⟩
    rintro a ha b hb rfl
    exact hkey (List.mem_singleton.1 hb ▸ ha)

theorem nodup_keys_putNew {table : Table α} (h : (keys table).Nodup) (key : Text) (value : α) :
    (keys (putNew key value table)).Nodup := by
  unfold putNew
  split
  · exact h
  · exact nodup_keys_put h key value

theorem nodup_keys_filter {table : Table α} (h : (keys table).Nodup) (keep : Text × α → Bool) :
    (keys (table.filter keep)).Nodup :=
  h.sublist (List.filter_sublist.map Prod.fst)

theorem nodup_keys_ofEntries (entries : List (Text × α)) : (keys (ofEntries entries)).Nodup := by
  have key : ∀ table : Table α, (keys table).Nodup →
      (keys (entries.foldl (fun table entry => putNew entry.1 entry.2 table) table)).Nodup := by
    induction entries with
    | nil => exact fun _ h => h
    | cons entry entries ih => exact fun table h => ih _ (nodup_keys_putNew h entry.1 entry.2)
  exact key [] List.nodup_nil

/-- The entries of the table that is written over another one count before those of the other. -/
theorem get?_putAll {entries : Table α} (h : (keys entries).Nodup) (table : Table α) (key : Text) :
    get? (putAll table entries) key = (get? entries key).or (get? table key) := by
  unfold putAll
  induction entries generalizing table with
  | nil => rfl
  | cons entry entries ih =>
      have hnodup : entry.1 ∉ keys entries ∧ (keys entries).Nodup := List.nodup_cons.1 h
      rw [List.foldl_cons, ih hnodup.2, get?_put, get?_cons]
      by_cases hkey : key = entry.1
      · have : get? entries key = none := by
          rw [hkey]
          simpa using mt mem_keys_iff.2 hnodup.1
        simp [this, ← hkey]
      · simp [hkey]

theorem put_of_not_mem {table : Table α} {key : Text} (h : key ∉ keys table) (value : α) :
    put key value table = table ++ [(key, value)] := by
  induction table with
  | nil => rfl
  | cons entry table ih =>
      obtain ⟨hentry, hrest⟩ : key ≠ entry.1 ∧ key ∉ keys table := by simpa [keys] using h
      rw [put, if_neg (Ne.symm hentry), ih hrest, List.cons_append]

/-- Entries under new keys come behind those that are there. -/
theorem putAll_eq_append {table entries : Table α} (h : (keys (table ++ entries)).Nodup) :
    putAll table entries = table ++ entries := by
  induction entries generalizing table with
  | nil => exact (List.append_nil table).symm
  | cons entry entries ih =>
      have hkeys : keys (table ++ entry :: entries) = keys table ++ entry.1 :: keys entries := by
        simp [keys]
      have hnew : entry.1 ∉ keys table := by
        rw [hkeys] at h
        exact fun hmem => (List.nodup_append.1 h).2.2 _ hmem _ List.mem_cons_self rfl
      have hstep : put entry.1 entry.2 table = table ++ [entry] := put_of_not_mem hnew entry.2
      show putAll (put entry.1 entry.2 table) entries = _
      rw [hstep, ih (by simpa using h), List.append_assoc, List.singleton_append]

/-- Entries under different keys make up their table as they are. -/
theorem ofEntries_eq_self {entries : List (Text × α)} (h : (keys entries).Nodup) :
    ofEntries entries = entries := by
  have key : ∀ table : Table α, (keys (table ++ entries)).Nodup →
      entries.foldl (fun table entry => putNew entry.1 entry.2 table) table = table ++ entries := by
    induction entries with
    | nil => exact fun table _ => (List.append_nil table).symm
    | cons entry entries ih =>
        intro table hkeys
        have hsplit : keys (table ++ entry :: entries) = keys table ++ entry.1 :: keys entries := by
          simp [keys]
        have hnew : entry.1 ∉ keys table := by
          rw [hsplit] at hkeys
          exact fun hmem => (List.nodup_append.1 hkeys).2.2 _ hmem _ List.mem_cons_self rfl
        have hput : putNew entry.1 entry.2 table = table ++ [entry] := by
          have hhas : has table entry.1 = false := by
            simpa [has] using mt mem_keys_iff.2 hnew
          rw [putNew, hhas, if_neg Bool.false_ne_true]
          exact put_of_not_mem hnew entry.2
        rw [List.foldl_cons, hput, ih (List.nodup_cons.1 h).2 _ (by simpa using hkeys)]
        simp
  exact key [] h

theorem mem_of_get?_eq_some {table : Table α} {key : Text} {value : α}
    (h : get? table key = some value) : (key, value) ∈ table := by
  induction table with
  | nil => simp [get?] at h
  | cons entry table ih =>
      rw [get?_cons] at h
      split at h
      · next heq =>
        obtain rfl := Option.some.inj h
        rw [heq]
        exact List.mem_cons_self
      · exact List.mem_cons_of_mem _ (ih h)

theorem mem_put {table : Table α} {key : Text} {value : α} {entry : Text × α}
    (h : entry ∈ put key value table) : entry = (key, value) ∨ entry ∈ table := by
  induction table with
  | nil => exact Or.inl (List.mem_singleton.1 h)
  | cons found table ih =>
      unfold put at h
      split at h
      · exact (List.mem_cons.1 h).imp_right (List.mem_cons_of_mem _)
      · rcases List.mem_cons.1 h with rfl | h
        · exact Or.inr List.mem_cons_self
        · exact (ih h).imp_right (List.mem_cons_of_mem _)

theorem get?_eq_some_of_mem {table : Table α} (h : (keys table).Nodup) {entry : Text × α}
    (hentry : entry ∈ table) : get? table entry.1 = some entry.2 := by
  induction table with
  | nil => exact absurd hentry List.not_mem_nil
  | cons found table ih =>
      obtain ⟨hnew, hrest⟩ : found.1 ∉ keys table ∧ (keys table).Nodup := List.nodup_cons.1 h
      rw [get?_cons]
      rcases List.mem_cons.1 hentry with rfl | hentry
      · rw [if_pos rfl]
      · rw [if_neg, ih hrest hentry]
        rintro heq
        exact hnew (heq ▸ List.mem_map_of_mem hentry)

/-- Two orders of the same entries find the same, if no key has two of them. -/
theorem get?_eq_of_perm {table others : Table α} (hperm : table.Perm others) (h : (keys table).Nodup)
    (key : Text) : get? table key = get? others key := by
  have h' : (keys others).Nodup := (hperm.map Prod.fst).nodup_iff.1 h
  ext value
  constructor
  · exact fun hfound => get?_eq_some_of_mem h' (hperm.mem_iff.1 (mem_of_get?_eq_some hfound))
  · exact fun hfound => get?_eq_some_of_mem h (hperm.mem_iff.2 (mem_of_get?_eq_some hfound))

theorem get?_filter {table : Table α} (h : (keys table).Nodup) (keep : Text × α → Bool) (key : Text) :
    get? (table.filter keep) key = (get? table key).filter fun value => keep (key, value) := by
  induction table with
  | nil => rfl
  | cons found table ih =>
      obtain ⟨hnew, hrest⟩ : found.1 ∉ keys table ∧ (keys table).Nodup := List.nodup_cons.1 h
      rw [get?_cons]
      by_cases hkey : key = found.1
      · have hnone : get? table key = none := by
          rw [hkey]
          simpa using mt mem_keys_iff.2 hnew
        rw [if_pos hkey, Option.filter_some, hkey]
        by_cases hkeep : keep found = true
        · rw [List.filter_cons_of_pos hkeep, get?_cons, if_pos rfl, if_pos hkeep]
        · rw [List.filter_cons_of_neg hkeep, ← hkey, ih hrest, hnone, hkey, if_neg hkeep]
          rfl
      · rw [if_neg hkey, ← ih hrest]
        by_cases hkeep : keep found = true
        · rw [List.filter_cons_of_pos hkeep, get?_cons, if_neg hkey]
        · rw [List.filter_cons_of_neg hkeep]

/-! ## Values under keys -/

section

variable {pairs : List (Text × α)} {key : Text} {value : α}

def valuesAt (pairs : List (Text × α)) (key : Text) : List α := (pairs.filter (·.1 = key)).map (·.2)

def collect (pairs : List (Text × α)) : Table (List α) :=
  pairs.foldl (fun found (key, value) => found.put key (((found.get? key).getD []) ++ [value])) []

theorem collect_concat (pairs : List (Text × α)) (pair : Text × α) :
    collect (pairs ++ [pair]) =
      (collect pairs).put pair.1 ((((collect pairs).get? pair.1).getD []) ++ [pair.2]) :=
  List.foldl_concat ..

theorem nodup_keys_collect (pairs : List (Text × α)) : (collect pairs).keys.Nodup := by
  induction pairs using List.reverseRecOn with
  | nil => exact List.nodup_nil
  | append_singleton pairs pair ih =>
      rw [collect_concat]
      exact nodup_keys_put ih _ _

theorem get?_collect (pairs : List (Text × α)) (key : Text) :
    (collect pairs).get? key = if valuesAt pairs key = [] then none else some (valuesAt pairs key) := by
  induction pairs using List.reverseRecOn with
  | nil => rfl
  | append_singleton pairs pair ih =>
      rw [collect_concat, get?_put]
      by_cases hkey : key = pair.1
      · subst hkey
        have hvalues : valuesAt (pairs ++ [pair]) pair.1 = valuesAt pairs pair.1 ++ [pair.2] := by
          simp [valuesAt]
        have hget : ((collect pairs).get? pair.1).getD [] = valuesAt pairs pair.1 := by
          rw [ih]
          split
          · next hnil => exact hnil.symm
          · rfl
        rw [if_pos rfl, hvalues, hget, if_neg (by simp)]
      · have hvalues : valuesAt (pairs ++ [pair]) key = valuesAt pairs key := by
          simp [valuesAt, Ne.symm hkey]
        rw [if_neg hkey, hvalues, ih]

theorem mem_collect_iff {values : List α} :
    (key, values) ∈ collect pairs ↔ values = valuesAt pairs key ∧ values ≠ [] := by
  have hget : (key, values) ∈ collect pairs ↔ (collect pairs).get? key = some values :=
    ⟨get?_eq_some_of_mem (nodup_keys_collect pairs), mem_of_get?_eq_some⟩
  rw [hget, get?_collect]
  split
  · next hnil => simp [hnil]
  · next hne =>
    rw [Option.some.injEq]
    constructor
    · rintro rfl
      exact ⟨rfl, hne⟩
    · exact fun h => h.1.symm

theorem valuesAt_of_mem (h : (pairs.map Prod.fst).Nodup) (hmem : (key, value) ∈ pairs) :
    valuesAt pairs key = [value] := by
  obtain ⟨front, back, rfl⟩ := List.append_of_mem hmem
  rw [List.map_append, List.map_cons, List.nodup_middle, List.nodup_cons, List.mem_append, not_or] at h
  have hfront : front.filter (·.1 = key) = [] := by
    rw [List.filter_eq_nil_iff]
    intro pair hpair hkey
    exact h.1.1 (List.mem_map.2 ⟨pair, hpair, of_decide_eq_true hkey⟩)
  have hback : back.filter (·.1 = key) = [] := by
    rw [List.filter_eq_nil_iff]
    intro pair hpair hkey
    exact h.1.2 (List.mem_map.2 ⟨pair, hpair, of_decide_eq_true hkey⟩)
  simp [valuesAt, hfront, hback]

/-- Under keys of their own, values are collected one by one. -/
theorem get?_collect_eq_some_iff (h : (pairs.map Prod.fst).Nodup) {values : List α} :
    (collect pairs).get? key = some values ↔ ∃ value, (key, value) ∈ pairs ∧ values = [value] := by
  rw [get?_collect]
  constructor
  · intro hvalues
    split at hvalues
    · exact absurd hvalues (by simp)
    · next hne =>
      obtain ⟨value, hvalue⟩ := List.exists_mem_of_ne_nil _ hne
      obtain ⟨⟨key', value'⟩, hpair, rfl⟩ := List.mem_map.1 hvalue
      obtain ⟨hmem, hkey⟩ := List.mem_filter.1 hpair
      obtain rfl : key' = key := of_decide_eq_true hkey
      exact ⟨value', hmem, by rw [← Option.some.inj hvalues, valuesAt_of_mem h hmem]⟩
  · rintro ⟨value, hmem, rfl⟩
    rw [valuesAt_of_mem h hmem, if_neg (by simp)]

end

end Scenarist.Table

namespace Scenarist

theorem mem_distinct_and_nodup (texts : List Text) :
    (∀ text, text ∈ distinct texts ↔ text ∈ texts) ∧ (distinct texts).Nodup := by
  -- for the induction, some texts were seen before
  have key : ∀ seen : List Text, seen.Nodup →
      (∀ text, text ∈ texts.foldl (fun seen text => if text ∈ seen then seen else seen ++ [text]) seen ↔
        text ∈ seen ∨ text ∈ texts) ∧
      (texts.foldl (fun seen text => if text ∈ seen then seen else seen ++ [text]) seen).Nodup := by
    induction texts with
    | nil => exact fun seen hseen => ⟨by simp, hseen⟩
    | cons t ts ih =>
        intro seen hseen
        rw [List.foldl_cons]
        by_cases ht : t ∈ seen
        · rw [if_pos ht]
          obtain ⟨hmem, hnodup⟩ := ih seen hseen
          refine ⟨fun text => ?_, hnodup⟩
          rw [hmem]
          constructor
          · rintro (h | h)
            · exact Or.inl h
            · exact Or.inr (List.mem_cons_of_mem _ h)
          · rintro (h | h)
            · exact Or.inl h
            · rcases List.mem_cons.1 h with rfl | h
              · exact Or.inl ht
              · exact Or.inr h
        · rw [if_neg ht]
          have hseen' : (seen ++ [t]).Nodup := by
            rw [List.nodup_append]
            refine ⟨hseen, by simp, ?_⟩
            rintro a ha b hb rfl
            exact ht (List.mem_singleton.1 hb ▸ ha)
          obtain ⟨hmem, hnodup⟩ := ih (seen ++ [t]) hseen'
          refine ⟨fun text => ?_, hnodup⟩
          rw [hmem]
          simp only [List.mem_append, List.mem_cons]
          simp only [List.not_mem_nil, or_false]
          tauto
  obtain ⟨hmem, hnodup⟩ := key [] List.nodup_nil
  exact ⟨fun text => (hmem text).trans (by simp), hnodup⟩

theorem mem_distinct {texts : List Text} {text : Text} : text ∈ distinct texts ↔ text ∈ texts :=
  (mem_distinct_and_nodup texts).1 text

theorem nodup_distinct (texts : List Text) : (distinct texts).Nodup :=
  (mem_distinct_and_nodup texts).2

/-! ## Texts that are left out -/

/-- The texts seen so far and the new ones among others, in order. -/
def distinctFrom (seen texts : List Text) : List Text :=
  texts.foldl (fun seen text => if text ∈ seen then seen else seen ++ [text]) seen

theorem distinctFrom_cons (seen : List Text) (text : Text) (texts : List Text) :
    distinctFrom seen (text :: texts) =
      distinctFrom (if text ∈ seen then seen else seen ++ [text]) texts := rfl

/-- The first new text comes right behind those seen before. -/
theorem distinctFrom_eq (seen texts : List Text) :
    distinctFrom seen texts = match texts.find? (· ∉ seen) with
      | none => seen
      | some text => distinctFrom (seen ++ [text]) texts := by
  induction texts generalizing seen with
  | nil => rfl
  | cons text texts ih =>
      rw [distinctFrom_cons, List.find?_cons]
      by_cases hseen : text ∈ seen
      · rw [if_pos hseen, ih seen]
        simp only [hseen, not_true_eq_false, decide_false]
        cases hfind : texts.find? (· ∉ seen) with
        | none => rfl
        | some found =>
            simp only
            rw [distinctFrom_cons, if_pos (List.mem_append_left _ hseen)]
      · simp only [hseen, not_false_eq_true, decide_true, if_false]
        rw [distinctFrom_cons, if_pos (List.mem_append_right _ (List.mem_singleton_self text))]

theorem prefix_distinctFrom (seen texts : List Text) : seen <+: distinctFrom seen texts := by
  induction texts generalizing seen with
  | nil => exact List.prefix_refl seen
  | cons text texts ih =>
      rw [distinctFrom_cons]
      split
      · exact ih seen
      · exact (List.prefix_append _ _).trans (ih _)

/-- What holds of every way to cut a list in two around an entry. -/
theorem forall_split_cons {α : Type} {entry : α} {entries : List α} {P : List α → α → List α → Prop} :
    (∀ above found below, entry :: entries = above ++ found :: below → P above found below) ↔
      P [] entry entries ∧
        ∀ above found below, entries = above ++ found :: below → P (entry :: above) found below := by
  constructor
  · intro h
    exact ⟨h [] entry entries rfl, fun above found below hsplit => h _ _ _ (by rw [hsplit]; rfl)⟩
  · rintro ⟨hhead, htail⟩ above found below hsplit
    cases above with
    | nil =>
        obtain ⟨rfl, rfl⟩ := List.cons.inj hsplit
        exact hhead
    | cons first above =>
        obtain ⟨rfl, hrest⟩ := List.cons.inj hsplit
        exact htail above found below hrest

/-- Whether a text was seen before or is the first new one among others. -/
def IsAnticipated (seen later : List Text) (text : Text) : Prop :=
  text ∈ seen ∨ later.find? (· ∉ seen) = some text

theorem IsAnticipated.congr {seen seen' : List Text} (h : ∀ text, text ∈ seen ↔ text ∈ seen')
    (later : List Text) (text : Text) :
    IsAnticipated seen later text ↔ IsAnticipated seen' later text := by
  have hfind : later.find? (· ∉ seen) = later.find? (· ∉ seen') := by
    congr 1
    funext other
    rw [decide_eq_decide, h other]
  unfold IsAnticipated
  rw [h text, hfind]

/-- A new text in front of others is left out without a trace exactly if it is the first new one among
them. -/
theorem distinctFrom_concat_eq_iff {seen : List Text} {text : Text} (hnew : text ∉ seen)
    (texts others : List Text) :
    distinctFrom (seen ++ [text]) texts = distinctFrom seen others ↔
      IsAnticipated seen others text ∧
        distinctFrom (seen ++ [text]) texts = distinctFrom (seen ++ [text]) others := by
  constructor
  · intro heq
    have hprefix : seen ++ [text] <+: distinctFrom seen others := heq ▸ prefix_distinctFrom _ texts
    rw [distinctFrom_eq seen others] at hprefix heq
    cases hfind : others.find? (· ∉ seen) with
    | none =>
        rw [hfind] at hprefix
        have hlength := hprefix.length_le
        simp only [List.length_append, List.length_singleton] at hlength
        omega
    | some found =>
        rw [hfind] at hprefix heq
        have hsame : seen ++ [text] = seen ++ [found] :=
          (List.prefix_of_prefix_length_le hprefix (prefix_distinctFrom _ others) (by simp)).eq_of_length
            (by simp)
        obtain rfl : text = found := by simpa using hsame
        exact ⟨Or.inr hfind, heq⟩
  · rintro ⟨hanticipated, heq⟩
    rw [heq, distinctFrom_eq seen, hanticipated.resolve_left hnew]

/-- Leaving out some entries of a list leaves the distinct texts as they are exactly if each text that is
left out was seen before, or comes first among the new ones that are left. -/
theorem distinctFrom_filter_eq_iff {α : Type} (textOf : α → Option Text) (kept : α → Bool)
    (seen : List Text) (entries : List α) :
    distinctFrom seen (entries.filterMap textOf) =
        distinctFrom seen ((entries.filter kept).filterMap textOf) ↔
      ∀ above entry below, entries = above ++ entry :: below → kept entry = false →
        ∀ text ∈ textOf entry,
          IsAnticipated (seen ++ above.filterMap textOf) ((below.filter kept).filterMap textOf) text := by
  induction entries generalizing seen with
  | nil => simp
  | cons entry entries ih =>
      rw [forall_split_cons]
      cases htext : textOf entry with
      | none =>
          -- an entry without a text can be left out or not
          have hnone : (entry :: entries).filterMap textOf = entries.filterMap textOf := by
            rw [List.filterMap_cons, htext]
          have hkept : ((entry :: entries).filter kept).filterMap textOf =
              (entries.filter kept).filterMap textOf := by
            rw [List.filter_cons]
            split
            · rw [List.filterMap_cons, htext]
            · rfl
          rw [hnone, hkept, ih seen]
          simp [htext]
      | some text =>
          have hall : (entry :: entries).filterMap textOf = text :: entries.filterMap textOf := by
            rw [List.filterMap_cons, htext]
          have hmem : ∀ (above : List α) (other : Text),
              other ∈ (if text ∈ seen then seen else seen ++ [text]) ++ above.filterMap textOf ↔
                other ∈ seen ++ (entry :: above).filterMap textOf := by
            intro above other
            rw [List.filterMap_cons, htext]
            split
            · next hseen =>
              simp only [List.mem_append, List.mem_cons]
              exact ⟨fun h => h.imp_right Or.inr, fun h => by
                rcases h with h | rfl | h
                · exact Or.inl h
                · exact Or.inl hseen
                · exact Or.inr h⟩
            · simp
          have hrest := ih (if text ∈ seen then seen else seen ++ [text])
          simp only [IsAnticipated.congr (hmem _)] at hrest
          rw [hall, distinctFrom_cons]
          cases hkept : kept entry with
          | true =>
              have hfilter : ((entry :: entries).filter kept).filterMap textOf =
                  text :: (entries.filter kept).filterMap textOf := by
                rw [List.filter_cons_of_pos hkept, List.filterMap_cons, htext]
              rw [hfilter, distinctFrom_cons, hrest]
              simp
          | false =>
              have hfilter : ((entry :: entries).filter kept).filterMap textOf =
                  (entries.filter kept).filterMap textOf := by
                rw [List.filter_cons_of_neg (by simp [hkept])]
              rw [hfilter]
              -- a new text that is left out must come first among the others, and the rest goes on with it
              by_cases hseen : text ∈ seen
              · rw [if_pos hseen] at hrest ⊢
                rw [hrest]
                simp [htext, IsAnticipated, hseen]
              · rw [if_neg hseen] at hrest ⊢
                rw [distinctFrom_concat_eq_iff hseen, hrest]
                simp [htext]

end Scenarist
