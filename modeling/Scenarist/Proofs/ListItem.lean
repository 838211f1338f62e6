import Scenarist.Proofs.Scalar
import Scenarist.Proofs.Section
import Scenarist.Proofs.Table
import Scenarist.Regeneration

set_option autoImplicit false

/-! # Items of a section, written and read back

An item is a line that opens it and one line for each field. Its reader keeps the first value of every
field, so whatever follows a field that was read cannot change it. Numbers of lines aside, the items are
a list of tables, and a function of the lines of the body (`SectionKey.tablesIn`).

Main statements: `ListItem.enter_fieldLine` (a line that writes a field is read as that field),
`ListItem.tablesFrom_append_opening` (an opening line separates items) and `ListItem.tablesFrom_itemLines`
(an item that is written is read back). -/

namespace Scenarist

open Text

namespace Field

theorem colon_not_mem_word (field : Field) : ':' ∉ field.word := by
  cases field <;> decide

theorem exists_word_eq_cons (field : Field) :
    ∃ c cs, field.word = c :: cs ∧ isBlank c = false ∧ c ≠ '-' ∧ c ≠ '#' := by
  cases field <;> exact ⟨_, _, rfl, by decide, by decide, by decide⟩

theorem isLiteral_word (field : Field) : Scalar.IsLiteral field.word := by
  cases field <;> decide

theorem word_inj {field other : Field} : field.word = other.word ↔ field = other := by
  constructor
  · intro h
    revert h
    cases field <;> cases other <;> decide
  · exact congrArg word

end Field

/-! ## The tables of items -/

namespace ListItem

/-- The fields of an open item after one more line that opens no other. -/
def enter (fields : Table Text) (line : Text) : Table Text :=
  let text := strip line
  if text.isEmpty || text.head? = some '#' then fields
  else match fieldOf? line with
    | none => fields
    | some (word, raw) => fields.putNew word raw

/-- The fields of the items among lines, `current` holding those of the open one. -/
def tablesFrom (itemKey : Text) : (current : Option (Table Text)) → List Text → List (Table Text)
  | current, [] => current.toList
  | current, line :: rest =>
    if isOpenedBy itemKey line then current.toList ++ tablesFrom itemKey (some []) rest
    else tablesFrom itemKey (current.map (enter · line)) rest

theorem readFrom_map_fields (itemKey : Text) (done : List ListItem) (current : Option ListItem)
    (numbered : List (Nat × Text)) :
    (readFrom itemKey done current numbered).map (·.fields) =
      done.reverse.map (·.fields) ++
        tablesFrom itemKey (current.map (·.fields)) (numbered.map (·.2)) := by
  induction numbered generalizing done current with
  | nil => cases current <;> simp [readFrom, tablesFrom]
  | cons entry numbered ih =>
      obtain ⟨number, line⟩ := entry
      rw [List.map_cons, tablesFrom]
      cases hopen : isOpenedBy itemKey line with
      | true =>
          simp only [readFrom, hopen, if_true]
          rw [ih]
          cases current <;> simp
      | false =>
          simp only [Bool.false_eq_true, if_false]
          cases current with
          | none =>
              simp only [readFrom, hopen, Bool.false_eq_true, if_false]
              exact ih done none
          | some item =>
              simp only [readFrom, hopen, Bool.false_eq_true, if_false, Option.map_some, enter]
              split
              · exact ih done (some item)
              · cases fieldOf? line with
                | none => exact ih done (some item)
                | some found =>
                    exact ih done (some { item with fields := item.fields.putNew found.1 found.2 })

/-- An opening line separates the items in front of it from those behind it. -/
theorem tablesFrom_append_opening {itemKey line : Text} (hopen : isOpenedBy itemKey line = true)
    (current : Option (Table Text)) (front rest : List Text) :
    tablesFrom itemKey current (front ++ line :: rest) =
      tablesFrom itemKey current front ++ tablesFrom itemKey (some []) rest := by
  induction front generalizing current with
  | nil => simp [tablesFrom, hopen]
  | cons l ls ih =>
      rw [List.cons_append, tablesFrom, tablesFrom]
      split
      · rw [ih, List.append_assoc]
      · rw [ih]

theorem tablesFrom_append {itemKey : Text} {rest : List Text}
    (h : ∀ l ∈ rest.head?, isOpenedBy itemKey l = true) (current : Option (Table Text))
    (front : List Text) :
    tablesFrom itemKey current (front ++ rest) =
      tablesFrom itemKey current front ++ tablesFrom itemKey none rest := by
  cases rest with
  | nil => simp [tablesFrom]
  | cons l ls =>
      have hl := h l rfl
      rw [tablesFrom_append_opening hl, tablesFrom, if_pos hl]
      rfl

theorem tablesFrom_append_of_not_opening {itemKey : Text} {front : List Text}
    (h : ∀ l ∈ front, isOpenedBy itemKey l = false) (fields : Table Text) (rest : List Text) :
    tablesFrom itemKey (some fields) (front ++ rest) =
      tablesFrom itemKey (some (front.foldl enter fields)) rest := by
  induction front generalizing fields with
  | nil => rfl
  | cons l ls ih =>
      have hl := h l List.mem_cons_self
      have hls := fun x hx => h x (List.mem_cons_of_mem l hx)
      rw [List.cons_append, tablesFrom]
      simp only [hl, Bool.false_eq_true, if_false, Option.map_some, List.foldl_cons]
      exact ih hls (enter fields l)

theorem enter_get?_of_some {fields : Table Text} {word raw : Text} (h : fields.get? word = some raw)
    (line : Text) : (enter fields line).get? word = some raw := by
  simp only [enter]
  split
  · exact h
  · split
    · exact h
    · exact Table.get?_putNew_of_some h

/-- What was read of an open item stays, whatever follows. -/
theorem exists_tablesFrom_some (itemKey : Text) (fields : Table Text) (lines : List Text) :
    ∃ table others, tablesFrom itemKey (some fields) lines = table :: others ∧
      ∀ word raw, fields.get? word = some raw → table.get? word = some raw := by
  induction lines generalizing fields with
  | nil => exact ⟨fields, [], rfl, fun _ _ h => h⟩
  | cons line lines ih =>
      rw [tablesFrom]
      split
      · exact ⟨fields, _, rfl, fun _ _ h => h⟩
      · obtain ⟨table, others, heq, hkeep⟩ := ih (enter fields line)
        exact ⟨table, others, heq, fun word raw h => hkeep word raw (enter_get?_of_some h line)⟩

theorem isOpenedBy_of_blank (itemKey : Text) {line : Text} (h : ∀ c ∈ line, isBlank c = true) :
    isOpenedBy itemKey line = false := by
  unfold isOpenedBy
  rw [stripLeft_eq_nil_iff.2 h]
  rfl

theorem enter_of_blank (fields : Table Text) {line : Text} (h : ∀ c ∈ line, isBlank c = true) :
    enter fields line = fields := by
  simp [enter, strip_eq_nil_iff.2 h]

theorem tablesFrom_of_blank (itemKey : Text) (current : Option (Table Text)) {lines : List Text}
    (h : ∀ l ∈ lines, ∀ c ∈ l, isBlank c = true) :
    tablesFrom itemKey current lines = current.toList := by
  induction lines with
  | nil => rfl
  | cons l ls ih =>
      have hl := h l List.mem_cons_self
      rw [tablesFrom, isOpenedBy_of_blank itemKey hl]
      cases current with
      | none => exact ih fun x hx => h x (List.mem_cons_of_mem _ hx)
      | some fields =>
          simp only [Option.map_some, enter_of_blank fields hl]
          exact ih fun x hx => h x (List.mem_cons_of_mem _ hx)

/-- Blank lines at the end do not matter. -/
theorem tablesFrom_append_of_blank (itemKey : Text) (current : Option (Table Text))
    (front : List Text) {lines : List Text} (h : ∀ l ∈ lines, ∀ c ∈ l, isBlank c = true) :
    tablesFrom itemKey current (front ++ lines) = tablesFrom itemKey current front := by
  induction front generalizing current with
  | nil => exact tablesFrom_of_blank itemKey current h
  | cons l ls ih =>
      rw [List.cons_append, tablesFrom, tablesFrom, ih, ih]

/-! ## Indentation -/

theorem isOpenedBy_expandTabs (itemKey line : Text) :
    isOpenedBy itemKey (expandTabs line) = isOpenedBy itemKey line := by
  unfold isOpenedBy
  rw [stripLeft_expandTabs]

theorem enter_expandTabs (fields : Table Text) (line : Text) :
    enter fields (expandTabs line) = enter fields line := by
  simp only [enter, fieldOf?, strip_expandTabs, stripLeft_expandTabs]

theorem tablesFrom_map_expandTabs (itemKey : Text) (current : Option (Table Text))
    (lines : List Text) :
    tablesFrom itemKey current (lines.map expandTabs) = tablesFrom itemKey current lines := by
  induction lines generalizing current with
  | nil => rfl
  | cons line lines ih =>
      simp only [List.map_cons, tablesFrom, isOpenedBy_expandTabs, enter_expandTabs, ih]

/-! ## Lines as they are written -/

def itemLine (key : SectionKey) (number : Nat) : Text :=
  List.replicate 4 ' ' ++ '-' :: ' ' :: (key.name ++ (ofNat number ++ [':']))

/-- The line that writes a field, with what stands behind the colon. -/
def fieldLine (field : Field) (tail : Text) : Text :=
  List.replicate 8 ' ' ++ (field.word ++ ':' :: ' ' :: tail)

theorem isBlank_of_mem_replicate {n : Nat} : ∀ c ∈ List.replicate n ' ', isBlank c = true := by
  intro c hc
  rw [List.eq_of_mem_replicate hc]
  decide

theorem renderItem_eq (key : SectionKey) (number : Nat) (fields : List (Field × Text)) :
    renderItem key number fields =
      unlines (itemLine key number :: fields.map fun entry =>
        fieldLine entry.1 (Scalar.quote entry.2)) := by
  have hitem : "    - ".toList = List.replicate 4 ' ' ++ ['-', ' '] := rfl
  have hfield : "        ".toList = List.replicate 8 ' ' := rfl
  have hcolon : ": ".toList = [':', ' '] := rfl
  simp only [renderItem, itemLine, fieldLine, hitem, hfield, hcolon, List.append_assoc,
    List.cons_append, List.nil_append]

theorem isDigit_of_mem_ofNat {n : Nat} {c : Char} (h : c ∈ ofNat n) : isDigit c = true := by
  have hc : c.isDigit = true := Nat.isDigit_of_mem_toDigits (by decide) (by decide) h
  have hrange : 48 ≤ c.toNat ∧ c.toNat ≤ 57 := by
    simp only [Char.isDigit, Bool.and_eq_true, decide_eq_true_eq] at hc
    exact hc
  have hfirst : (0x30 ≤ c.toNat && c.toNat < 0x30 + 10) = true := by
    simp only [Bool.and_eq_true, decide_eq_true_eq]
    omega
  simp [isDigit, digitValue?, digitZeros, hfirst]

theorem isNameLetter_of_mem_ofNat {n : Nat} {c : Char} (h : c ∈ ofNat n) : isNameLetter c = true := by
  have hc : c.isDigit = true := Nat.isDigit_of_mem_toDigits (by decide) (by decide) h
  simp only [Char.isDigit, Bool.and_eq_true, decide_eq_true_eq] at hc
  have hkey : ('0' ≤ c && c ≤ '9') = true := by
    simp only [Bool.and_eq_true, decide_eq_true_eq]
    exact hc
  simp [isNameLetter, isKeyLetter, hkey]

theorem isLiteral_ofNat (n : Nat) : Scalar.IsLiteral (ofNat n) :=
  fun _ hc => Scalar.isLiteral_of_isNameLetter (isNameLetter_of_mem_ofNat hc)

theorem isOpenedBy_itemLine (key : SectionKey) (number : Nat) :
    isOpenedBy key.name (itemLine key number) = true := by
  have hdash : stripLeft (itemLine key number) =
      '-' :: ' ' :: (key.name ++ (ofNat number ++ [':'])) := by
    rw [itemLine, stripLeft_append isBlank_of_mem_replicate]
    exact stripLeft_cons_of_not_blank (by decide) _
  have hname : stripLeft (' ' :: (key.name ++ (ofNat number ++ [':']))) =
      key.name ++ (ofNat number ++ [':']) := by
    have hblank : stripLeft (' ' :: (key.name ++ (ofNat number ++ [':']))) =
        stripLeft (key.name ++ (ofNat number ++ [':'])) := @stripLeft_append [' '] isBlank_of_mem_space _
    rw [hblank]
    obtain ⟨c, cs, hc⟩ := List.exists_cons_of_ne_nil key.name_ne_nil
    have hletter := key.isKeyLetter_of_mem_name c (by simp [hc])
    rw [hc, List.cons_append, stripLeft_cons_of_not_blank]
    exact Scalar.isBlank_of_isNameLetter (by simp [isNameLetter, hletter])
  have hdigits : (ofNat number ++ [':']).dropWhile isDigit = [':'] := by
    rw [List.dropWhile_append_of_pos fun c hc => isDigit_of_mem_ofNat hc]
    rfl
  have hafterDash : after? ['-'] ('-' :: ' ' :: (key.name ++ (ofNat number ++ [':']))) =
      some (' ' :: (key.name ++ (ofNat number ++ [':']))) := rfl
  unfold isOpenedBy
  rw [hdash, hafterDash]
  simp only [hname, after?_append, hdigits]
  rfl

theorem stripLeft_fieldLine (field : Field) (tail : Text) :
    stripLeft (fieldLine field tail) = field.word ++ ':' :: ' ' :: tail := by
  obtain ⟨c, cs, hword, hblank, -, -⟩ := field.exists_word_eq_cons
  rw [fieldLine, stripLeft_append isBlank_of_mem_replicate, hword, List.cons_append,
    stripLeft_cons_of_not_blank hblank]

theorem isOpenedBy_fieldLine (itemKey : Text) (field : Field) (tail : Text) :
    isOpenedBy itemKey (fieldLine field tail) = false := by
  obtain ⟨c, cs, hword, -, hdash, -⟩ := field.exists_word_eq_cons
  unfold isOpenedBy
  rw [stripLeft_fieldLine, hword, List.cons_append]
  simp [after?, Ne.symm hdash]

theorem fieldOf?_fieldLine (field : Field) (tail : Text) :
    fieldOf? (fieldLine field tail) = some (field.word, strip tail) := by
  have hcolon : ∀ c ∈ field.word, decide (c ≠ ':') = true := by
    intro c hc
    simp only [decide_eq_true_eq]
    rintro rfl
    exact field.colon_not_mem_word hc
  obtain ⟨c, cs, hword, hblank, hdash, hmark⟩ := field.exists_word_eq_cons
  have hstrip : strip (' ' :: tail) = strip tail := by
    simpa using @strip_around [' '] [] isBlank_of_mem_space (by simp) tail
  unfold fieldOf?
  rw [stripLeft_fieldLine]
  simp only [List.takeWhile_append_of_pos hcolon, List.dropWhile_append_of_pos hcolon]
  simp [hword, hmark, hdash, hstrip]

/-- A line that writes a field is read as that field, unless the item has it already. -/
theorem enter_fieldLine (fields : Table Text) (field : Field) (tail : Text) :
    enter fields (fieldLine field tail) = fields.putNew field.word (strip tail) := by
  obtain ⟨c, cs, hword, hblank, -, hmark⟩ := field.exists_word_eq_cons
  have hstrip : strip (fieldLine field tail) = c :: stripRight (cs ++ ':' :: ' ' :: tail) := by
    rw [strip, stripLeft_fieldLine, hword, List.cons_append, stripRight_cons_of_not_blank hblank]
  simp [enter, hstrip, hmark, fieldOf?_fieldLine]

/-! ## Items as they are written -/

/-- The lines of an item, if no value holds a line feed. -/
def itemLines (key : SectionKey) (number : Nat) (fields : List (Field × Text)) : List Text :=
  itemLine key number :: fields.map fun entry => fieldLine entry.1 (Scalar.quote entry.2)

/-- What is read of fields that are written. -/
def tableOf (fields : List (Field × Text)) : Table Text :=
  Table.ofEntries (fields.map fun entry => (entry.1.word, Scalar.quote entry.2))

/-- Lines that write fields are read as those fields, the first one of each. -/
theorem foldl_enter_fieldLines (fields : List (Field × Text)) :
    (fields.map fun entry => fieldLine entry.1 entry.2).foldl enter [] =
      Table.ofEntries (fields.map fun entry => (entry.1.word, strip entry.2)) := by
  have key : ∀ table : Table Text, (fields.map fun entry => fieldLine entry.1 entry.2).foldl enter table =
      (fields.map fun entry => (entry.1.word, strip entry.2)).foldl
        (fun table entry => Table.putNew entry.1 entry.2 table) table := by
    induction fields with
    | nil => exact fun _ => rfl
    | cons entry fields ih =>
        intro table
        rw [List.map_cons, List.map_cons, List.foldl_cons, List.foldl_cons, enter_fieldLine]
        exact ih _
  exact key []

theorem get?_map_word {α : Type} {fields : List (Field × Text)} (h : (fields.map Prod.fst).Nodup)
    {field : Field} {value : Text} (hmem : (field, value) ∈ fields) (read : Text → α) :
    Table.get? (fields.map fun entry => (entry.1.word, read entry.2)) field.word =
      some (read value) := by
  induction fields with
  | nil => exact absurd hmem List.not_mem_nil
  | cons entry fields ih =>
      have hnodup := List.nodup_cons.1 h
      rw [List.map_cons, Table.get?_cons]
      rcases List.mem_cons.1 hmem with rfl | hmem
      · rw [if_pos rfl]
      -- different fields are written with different words
      · have hne : field.word ≠ entry.1.word := by
          intro hword
          rw [Field.word_inj] at hword
          refine hnodup.1 ?_
          rw [← hword]
          exact List.mem_map_of_mem (f := Prod.fst) hmem
        rw [if_neg hne]
        exact ih hnodup.2 hmem

theorem isOpenedBy_of_mem_fieldLines (itemKey : Text) (fields : List (Field × Text)) :
    ∀ l ∈ fields.map fun entry => fieldLine entry.1 entry.2, isOpenedBy itemKey l = false := by
  intro l hl
  obtain ⟨entry, -, rfl⟩ := List.mem_map.1 hl
  exact isOpenedBy_fieldLine itemKey entry.1 entry.2

theorem tablesFrom_itemLines (key : SectionKey) (number : Nat) (fields : List (Field × Text)) :
    tablesFrom key.name none (itemLines key number fields) = [tableOf fields] := by
  have hopen := isOpenedBy_itemLine key number
  have hquoted : (fields.map fun entry => fieldLine entry.1 (Scalar.quote entry.2)) =
      (fields.map fun entry => (entry.1, Scalar.quote entry.2)).map fun entry =>
        fieldLine entry.1 entry.2 := by
    rw [List.map_map]
    rfl
  have hread := tablesFrom_append_of_not_opening
    (isOpenedBy_of_mem_fieldLines key.name
      (fields.map fun entry => (entry.1, Scalar.quote entry.2))) [] []
  have htable : ((fields.map fun entry => (entry.1, Scalar.quote entry.2)).map fun entry =>
      (entry.1.word, strip entry.2)) = fields.map fun entry => (entry.1.word, Scalar.quote entry.2) := by
    rw [List.map_map]
    exact List.map_congr_left fun entry _ => by simp [Scalar.strip_quote]
  rw [List.append_nil, foldl_enter_fieldLines, htable] at hread
  rw [itemLines, tablesFrom, if_pos hopen, hquoted, hread]
  rfl

theorem head?_flatMap_itemLines {α : Type} (key : SectionKey) (number : α → Nat)
    (fields : α → List (Field × Text)) (items : List α) :
    ∀ l ∈ (items.flatMap fun item => itemLines key (number item) (fields item)).head?,
      isOpenedBy key.name l = true := by
  cases items with
  | nil => simp
  | cons item items =>
      intro l hl
      obtain rfl : itemLine key (number item) = l := by simpa [itemLines] using hl
      exact isOpenedBy_itemLine key (number item)

/-- Items that are written one below the other are read back, each by itself. -/
theorem tablesFrom_flatMap_itemLines {α : Type} (key : SectionKey) (number : α → Nat)
    (fields : α → List (Field × Text)) (items : List α) :
    tablesFrom key.name none (items.flatMap fun item => itemLines key (number item) (fields item)) =
      items.map fun item => tableOf (fields item) := by
  induction items with
  | nil => rfl
  | cons item items ih =>
      rw [List.flatMap_cons, List.map_cons, tablesFrom_append (head?_flatMap_itemLines key number fields items),
        tablesFrom_itemLines, ih]
      rfl

/-! ## What the written lines are not -/

theorem trimReturns_itemLine (key : SectionKey) (number : Nat) :
    trimReturns (itemLine key number) = itemLine key number := by
  have : itemLine key number =
      (List.replicate 4 ' ' ++ '-' :: ' ' :: (key.name ++ ofNat number)) ++ [':'] := by
    simp [itemLine]
  rw [this, trimReturns_concat (by decide)]

theorem trimReturns_fieldLine (field : Field) (tail : Text) :
    trimReturns (fieldLine field tail) = fieldLine field (trimReturns tail) := by
  have hline : ∀ more, fieldLine field more =
      (List.replicate 8 ' ' ++ (field.word ++ [':'])) ++ ' ' :: more := by
    intro more
    simp [fieldLine]
  rw [hline, trimReturns_append_cons (by decide), hline]

theorem trimReturns_quote (value : Text) : trimReturns (Scalar.quote value) = Scalar.quote value :=
  trimReturns_concat (by decide) ('"' :: Scalar.escape value)

theorem trimReturns_of_mem_itemLines {key : SectionKey} {number : Nat}
    {fields : List (Field × Text)} {line : Text} (h : line ∈ itemLines key number fields) :
    trimReturns line = line := by
  rcases List.mem_cons.1 h with rfl | h
  · exact trimReturns_itemLine key number
  · obtain ⟨entry, -, rfl⟩ := List.mem_map.1 h
    rw [trimReturns_fieldLine, trimReturns_quote]

/-- The lines of an item begin with spaces, and what follows the spaces is no comment. -/
theorem exists_indent_of_mem_itemLines {key : SectionKey} {number : Nat}
    {fields : List (Field × Text)} {line : Text} (h : line ∈ itemLines key number fields) :
    ∃ n c rest, line = List.replicate (n + 1) ' ' ++ c :: rest ∧ isBlank c = false ∧ c ≠ '#' := by
  rcases List.mem_cons.1 h with rfl | h
  · exact ⟨3, '-', _, rfl, by decide, by decide⟩
  · obtain ⟨entry, -, rfl⟩ := List.mem_map.1 h
    obtain ⟨c, cs, hword, hblank, -, hmark⟩ := entry.1.exists_word_eq_cons
    exact ⟨7, c, _, by rw [fieldLine, hword]; rfl, hblank, hmark⟩

theorem not_mem_of_mem_itemLines {c : Char} (hc : Scalar.isLiteral c = false) {key : SectionKey}
    {number : Nat} {fields : List (Field × Text)} (hfields : ∀ entry ∈ fields, c ∉ entry.2)
    {line : Text} (h : line ∈ itemLines key number fields) : c ∉ line := by
  have hname : Scalar.IsLiteral key.name := fun d hd =>
    Scalar.isLiteral_of_isNameLetter (by simp [isNameLetter, key.isKeyLetter_of_mem_name d hd])
  have hnumber := (isLiteral_ofNat number).not_mem hc
  have hname := hname.not_mem hc
  have hletters : ∀ d, Scalar.isLiteral d = true → c ≠ d := by
    rintro d hd rfl
    rw [hc] at hd
    exact Bool.noConfusion hd
  have hspace := hletters ' ' (by decide)
  have hdash := hletters '-' (by decide)
  have hcolon := hletters ':' (by decide)
  have hquote := hletters '"' (by decide)
  have hslash := hletters '\\' (by decide)
  rcases List.mem_cons.1 h with rfl | h
  · simp [itemLine, hspace, hdash, hcolon, hname, hnumber]
  · obtain ⟨entry, hentry, rfl⟩ := List.mem_map.1 h
    have hescape : c ∉ Scalar.escape entry.2 := by
      intro hmem
      rcases Scalar.mem_escape hmem with hmem | hmem
      · exact hfields entry hentry hmem
      · exact hslash hmem
    have hword := entry.1.isLiteral_word.not_mem hc
    simp [fieldLine, hspace, hcolon, hquote, hword, Scalar.quote, hescape]

end ListItem

/-! ## The items of a section -/

namespace SectionKey

def tablesIn (key : SectionKey) (lines : List Text) : List (Table Text) :=
  ListItem.tablesFrom key.name none ((key.bodyIn lines).map trimReturns)

theorem itemsOf_map_fields (key : SectionKey) (text : Text) :
    (key.itemsOf text).map (·.fields) = key.tablesIn (lines text) := by
  have hread := ListItem.readFrom_map_fields key.name [] none (key.linesOf text)
  rw [linesOf_map_snd] at hread
  exact hread

theorem tablesIn_map_expandTabs (key : SectionKey) (lines : List Text) :
    key.tablesIn (lines.map expandTabs) = key.tablesIn lines := by
  have htrim : ∀ body : List Text,
      (body.map expandTabs).map trimReturns = (body.map trimReturns).map expandTabs := by
    intro body
    rw [List.map_map, List.map_map]
    exact List.map_congr_left fun line _ => trimReturns_expandTabs line
  unfold tablesIn
  rw [bodyIn_map_expandTabs, htrim, ListItem.tablesFrom_map_expandTabs]

end SectionKey

end Scenarist
