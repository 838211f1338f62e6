import Scenarist.Text.Basic

set_option autoImplicit false

/-! # Tables in order of entry

A table maps texts to values and lists its entries in the order in which their keys were first
entered. Writing under a key that is there keeps its place.

Main statements: `get?_put` (what is read after a write), `keys_put` (a write changes the keys at most
at the end) and `get?_erase`. -/

namespace Scenarist

/-- Values under texts, in order of entry. -/
abbrev Table (α : Type) := List (Text × α)

namespace Table

variable {α : Type}

def get? (table : Table α) (key : Text) : Option α := List.lookup key table

def has (table : Table α) (key : Text) : Bool := (get? table key).isSome

def keys (table : Table α) : List Text := table.map (·.1)

def values (table : Table α) : List α := table.map (·.2)

/-- The table with a value under a key: in the key's old place, or else at the end. -/
def put (key : Text) (value : α) : Table α → Table α
  | [] => [(key, value)]
  | (k, v) :: rest => if k = key then (key, value) :: rest else (k, v) :: put key value rest

/-- The table with a value under a key that has none; a value already there stays. -/
def putNew (key : Text) (value : α) (table : Table α) : Table α :=
  if has table key then table else put key value table

def erase (key : Text) (table : Table α) : Table α := table.filter (·.1 ≠ key)

/-- The table with the entries of another one written over it. -/
def putAll (table entries : Table α) : Table α :=
  entries.foldl (fun table (key, value) => put key value table) table

theorem get?_put (table : Table α) (key other : Text) (value : α) :
    get? (put key value table) other = if other = key then some value else get? table other := by
  induction table with
  | nil =>
    by_cases h : other = key
    · simp [put, get?, h]
    · have : (other == key) = false := by simpa using h
      simp [put, get?, List.lookup_cons, h, this]
  | cons entry rest ih =>
    obtain ⟨k, v⟩ := entry
    by_cases hk : k = key
    · subst hk
      by_cases h : other = k
      · simp [put, get?, h]
      · have : (other == k) = false := by simpa using h
        simp [put, get?, List.lookup_cons, h, this]
    · simp only [put, if_neg hk, get?, List.lookup_cons] at ih ⊢
      by_cases h : other = k
      · subst h
        simp [hk]
      · have : (other == k) = false := by simpa using h
        simp only [this]
        exact ih

theorem keys_put (table : Table α) (key : Text) (value : α) :
    keys (put key value table) = if key ∈ keys table then keys table else keys table ++ [key] := by
  induction table with
  | nil => simp [put, keys]
  | cons entry rest ih =>
    obtain ⟨k, v⟩ := entry
    by_cases hk : k = key
    · simp [put, keys, hk]
    · have hk' : ¬ key = k := fun h => hk h.symm
      simp only [put, if_neg hk, keys, List.map_cons, List.mem_cons, hk', false_or] at ih ⊢
      rw [ih]
      split <;> simp [*]

theorem get?_erase (table : Table α) (key other : Text) :
    get? (erase key table) other = if other = key then none else get? table other := by
  induction table with
  | nil => simp [erase, get?]
  | cons entry rest ih =>
    obtain ⟨k, v⟩ := entry
    simp only [erase, get?] at ih ⊢
    by_cases hk : k = key
    · subst hk
      by_cases h : other = k
      · subst h
        simpa using ih
      · have : (other == k) = false := by simpa using h
        simpa [List.filter, List.lookup_cons, this, h] using ih
    · by_cases h : other = k
      · subst h
        simp [List.filter, hk]
      · have : (other == k) = false := by simpa using h
        simpa [List.filter, List.lookup_cons, hk, this] using ih

end Table

/-- A list without the repetitions of its members: the first occurrence of each stays. -/
def distinct (texts : List Text) : List Text :=
  texts.foldl (fun seen text => if text ∈ seen then seen else seen ++ [text]) []

end Scenarist
