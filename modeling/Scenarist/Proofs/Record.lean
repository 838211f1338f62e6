import Scenarist.Keyword
import Scenarist.Proofs.Declaration
import Scenarist.Record

set_option autoImplicit false

/-! # What a document says about itself

A record takes the identity of its scenario from the metadata section and the extended metadata, and the
tab also from remarks: comment lines anywhere in the document. Documents that agree on these up to
indentation agree on all of it.

Main statements: `Record.identity_ofText?_congr`, `Record.tab_ofText?_congr` and
`Language.detect?_congr`. -/

namespace Scenarist

open Text

/-! ## The byte-order mark -/

def unmarkedLines : List Text → List Text
  | [] => []
  | line :: lines => Record.dropMark line :: lines

theorem Record.dropMark_of_head {line : Text} (h : line.head? ≠ some byteOrderMark) :
    dropMark line = line := by
  simp [dropMark, h]

theorem lines_dropMark (text : Text) : lines (Record.dropMark text) = unmarkedLines (lines text) := by
  cases text with
  | nil => rfl
  | cons c cs =>
      obtain ⟨first, others, hcs⟩ := List.exists_cons_of_ne_nil (lines_ne_nil cs)
      by_cases hc : c = Record.byteOrderMark
      · have hlines : lines (c :: cs) = (c :: first) :: others := by
          have hfree : '\n' ∉ [c] := by
            rw [hc]
            decide
          exact lines_append hfree hcs
        rw [hlines, unmarkedLines]
        simp [Record.dropMark, hc, hcs]
      · rw [Record.dropMark_of_head (by simpa using hc)]
        obtain ⟨line, rest, hline⟩ := List.exists_cons_of_ne_nil (lines_ne_nil (c :: cs))
        -- a line begins with the mark only if the text does
        have hhead : line.head? ≠ some Record.byteOrderMark := by
          intro hmark
          have htext := unlines_lines (c :: cs)
          rw [hline, Section.unlines_cons] at htext
          cases line with
          | nil => simp at hmark
          | cons d ds =>
              simp only [List.cons_append, List.cons.injEq] at htext
              exact hc (htext.1.symm.trans (by simpa using hmark))
        rw [hline, unmarkedLines, Record.dropMark_of_head hhead]

theorem unmarkedLines_append_cons {key : SectionKey} (above : List Text) (rest : Text)
    (tail : List Text) :
    unmarkedLines (above ++ (key.name ++ ':' :: rest) :: tail) =
      unmarkedLines above ++ (key.name ++ ':' :: rest) :: tail := by
  cases above with
  | cons line above => rfl
  | nil =>
      obtain ⟨c, cs, hc⟩ := List.exists_cons_of_ne_nil key.name_ne_nil
      have hletter := key.isKeyLetter_of_mem_name c (by simp [hc])
      have hhead : (key.name ++ ':' :: rest).head? ≠ some Record.byteOrderMark := by
        rw [hc]
        simp only [List.cons_append, List.head?_cons, ne_eq, Option.some.injEq]
        rintro rfl
        exact absurd hletter (by decide)
      simp only [List.nil_append, unmarkedLines, Record.dropMark_of_head hhead]

theorem SectionKey.Rewritten.unmarkedLines {key : SectionKey} {before after : List Text}
    (h : key.Rewritten before after) :
    key.Rewritten (unmarkedLines before) (Scenarist.unmarkedLines after) := by
  obtain ⟨above, rest, rest', body, body', below, hbody, hbody'⟩ := h
  rw [unmarkedLines_append_cons, unmarkedLines_append_cons]
  exact .intro _ rest rest' body body' below hbody hbody'

/-- Whether two documents have the same sections, with or without the byte-order mark, but for the one
under a key. -/
structure SectionKey.KeepsOthers (key : SectionKey) (old new : List Text) : Prop where
  blockIn : ∀ other, other ≠ key → other.blockIn new = other.blockIn old
  unmarked : ∀ other, other ≠ key →
    other.bodyIn (unmarkedLines new) = other.bodyIn (unmarkedLines old)

namespace SectionKey.KeepsOthers

variable {key other : SectionKey} {old new : List Text}

theorem refl (key : SectionKey) (lines : List Text) : key.KeepsOthers lines lines :=
  ⟨fun _ _ => rfl, fun _ _ => rfl⟩

theorem bodyIn (h : key.KeepsOthers old new) (hne : other ≠ key) :
    other.bodyIn new = other.bodyIn old := by
  unfold SectionKey.bodyIn
  rw [h.blockIn other hne]

theorem tablesIn (h : key.KeepsOthers old new) (hne : other ≠ key) :
    other.tablesIn new = other.tablesIn old := by
  unfold SectionKey.tablesIn
  rw [h.bodyIn hne]

end SectionKey.KeepsOthers

theorem SectionKey.Rewritten.keepsOthers {key : SectionKey} {before after : List Text}
    (h : key.Rewritten before after) : key.KeepsOthers before after :=
  ⟨fun _ hne => h.blockIn_eq hne, fun _ hne => h.unmarkedLines.bodyIn_eq hne⟩

theorem unmarkedLines_map_expandTabs (lines : List Text) :
    (unmarkedLines (lines.map expandTabs)).map expandTabs =
      (unmarkedLines lines).map expandTabs := by
  have hrest : ∀ rest : List Text, (rest.map expandTabs).map expandTabs = rest.map expandTabs := by
    intro rest
    rw [List.map_map]
    exact List.map_congr_left fun l _ => expandTabs_expandTabs l
  cases lines with
  | nil => rfl
  | cons line rest =>
      simp only [List.map_cons, unmarkedLines, hrest]
      by_cases hmark : line.head? = some Record.byteOrderMark
      · cases line with
        | nil => simp at hmark
        | cons c cs =>
            obtain rfl : c = Record.byteOrderMark := by simpa using hmark
            rw [expandTabs_cons_of_not_indent (by decide)]
      · have hmark' : (expandTabs line).head? ≠ some Record.byteOrderMark := by
          cases line with
          | nil => simp [expandTabs]
          | cons c cs =>
              by_cases hindent : isIndent c = true
              · rcases isIndent_iff.1 hindent with rfl | rfl <;>
                  simp [expandTabs, indentOf?, tabWidth, Record.byteOrderMark]
              · rw [expandTabs_cons_of_not_indent (by simpa using hindent)]
                exact hmark
        rw [Record.dropMark_of_head hmark, Record.dropMark_of_head hmark', expandTabs_expandTabs]

/-! ## Remarks -/

/-- What a comment line says of its document. -/
structure Remark where
  /-- The entry about the tab. -/
  entry : Option (Tab.Key × Text)
  /-- The word for the language. -/
  language : Option Text
  deriving DecidableEq, Repr

def remarkOf? (line : Text) : Option Remark :=
  match Tab.entryOfComment? (trimReturns line), Language.tagWord? line with
  | none, none => none
  | entry, language => some ⟨entry, language⟩

def remarksIn (lines : List Text) : List Remark := lines.filterMap remarkOf?

theorem remarkOf?_bind_entry (line : Text) :
    (remarkOf? line).bind (·.entry) = Tab.entryOfComment? (trimReturns line) := by
  unfold remarkOf?
  cases Tab.entryOfComment? (trimReturns line) <;> cases Language.tagWord? line <;> rfl

theorem remarkOf?_bind_language (line : Text) :
    (remarkOf? line).bind (·.language) = Language.tagWord? line := by
  unfold remarkOf?
  cases Tab.entryOfComment? (trimReturns line) <;> cases Language.tagWord? line <;> rfl

theorem commentEntries_eq (text : Text) :
    Tab.commentEntries text = (remarksIn (lines text)).filterMap (·.entry) := by
  unfold Tab.commentEntries remarksIn
  rw [List.filterMap_filterMap]
  exact List.filterMap_congr fun line _ => (remarkOf?_bind_entry line).symm

theorem findSome?_tagWord? (lines : List Text) :
    lines.findSome? Language.tagWord? = (remarksIn lines).findSome? (·.language) := by
  have hword : Language.tagWord? = fun line => (remarkOf? line).bind (·.language) :=
    funext fun line => (remarkOf?_bind_language line).symm
  rw [hword]
  induction lines with
  | nil => rfl
  | cons line lines ih =>
      unfold remarksIn at ih ⊢
      rw [List.findSome?_cons, List.filterMap_cons, ih]
      cases remarkOf? line with
      | none => rfl
      | some remark => rw [List.findSome?_cons, Option.bind_some]

theorem entryOfComment?_of_not_comment {line : Text} (h : (stripLeft line).head? ≠ some '#') :
    Tab.entryOfComment? line = none := by
  unfold Tab.entryOfComment?
  cases hline : stripLeft line with
  | nil => rfl
  | cons c cs =>
      have hc : '#' ≠ c := by
        rintro rfl
        exact h (by rw [hline]; rfl)
      simp [after?, hc]

theorem tagWord?_of_not_comment {line : Text} (h : (stripLeft line).head? ≠ some '#') :
    Language.tagWord? line = none := by
  unfold Language.tagWord?
  cases hline : stripLeft line with
  | nil => rfl
  | cons c cs =>
      have hc : '#' ≠ c := by
        rintro rfl
        exact h (by rw [hline]; rfl)
      simp [after?, hc]

/-- A line makes a remark only if it is a comment. -/
theorem remarkOf?_of_not_comment {line : Text} (h : (stripLeft line).head? ≠ some '#') :
    remarkOf? line = none := by
  have htrim : (stripLeft (trimReturns line)).head? ≠ some '#' := by
    obtain ⟨tail, htail, -⟩ := exists_trimReturns_append line
    by_cases hnil : stripLeft (trimReturns line) = []
    · simp [hnil]
    · rw [htail, stripLeft_append_of_ne_nil hnil] at h
      cases hstrip : stripLeft (trimReturns line) with
      | nil => exact absurd hstrip hnil
      | cons c cs => simpa [hstrip] using h
  unfold remarkOf?
  rw [entryOfComment?_of_not_comment htrim, tagWord?_of_not_comment h]

theorem remarkOf?_expandTabs (line : Text) : remarkOf? (expandTabs line) = remarkOf? line := by
  have hentry : Tab.entryOfComment? (trimReturns (expandTabs line)) =
      Tab.entryOfComment? (trimReturns line) := by
    unfold Tab.entryOfComment?
    rw [trimReturns_expandTabs, stripLeft_expandTabs]
  have hword : Language.tagWord? (expandTabs line) = Language.tagWord? line := by
    unfold Language.tagWord?
    rw [stripLeft_expandTabs]
  unfold remarkOf?
  rw [hentry, hword]

theorem remarksIn_map_expandTabs (lines : List Text) :
    remarksIn (lines.map expandTabs) = remarksIn lines := by
  unfold remarksIn
  rw [List.filterMap_map]
  exact List.filterMap_congr fun line _ => remarkOf?_expandTabs line

theorem remarkOf?_header (key : SectionKey) (rest : Text) :
    remarkOf? (key.name ++ ':' :: rest) = none := by
  obtain ⟨c, cs, hc⟩ := List.exists_cons_of_ne_nil key.name_ne_nil
  have hletter := key.isKeyLetter_of_mem_name c (by simp [hc])
  have hblank : isBlank c = false := Scalar.isBlank_of_isNameLetter (by simp [isNameLetter, hletter])
  refine remarkOf?_of_not_comment ?_
  rw [hc, List.cons_append, stripLeft_cons_of_not_blank hblank]
  simp only [List.head?_cons, ne_eq, Option.some.injEq]
  rintro rfl
  exact absurd hletter (by decide)

theorem remarksIn_append (a b : List Text) : remarksIn (a ++ b) = remarksIn a ++ remarksIn b :=
  List.filterMap_append

/-- New content of a section that makes the remarks of the old leaves those of the document. -/
theorem remarksIn_withContent {key : SectionKey} {text content first : Text} {s : Section}
    {others : List Text} (hs : key.Found text s) (hc : lines content = first :: others)
    (h : remarksIn others = remarksIn s.body) :
    remarksIn (lines (s.withContent content)) = remarksIn (lines text) ∧
      remarksIn (unmarkedLines (lines (s.withContent content))) =
        remarksIn (unmarkedLines (lines text)) := by
  have key' : ∀ above rest tail, remarksIn (above ++ (key.name ++ ':' :: rest) :: tail) =
      remarksIn above ++ remarksIn tail := by
    intro above rest tail
    rw [remarksIn_append]
    simp [remarksIn, remarkOf?_header]
  rw [SectionKey.lines_withContent hs hc, hs.lines_eq, unmarkedLines_append_cons,
    unmarkedLines_append_cons]
  simp only [key', remarksIn_append, h, and_self]

/-! ## Readings of the extended metadata -/

/-- Whether two numbered lines are one but for their numbers and their indentation. -/
def SameLine (a b : Nat × Text) : Prop := expandTabs a.2 = expandTabs b.2

namespace SameLine

variable {a b : Nat × Text}

theorem strip_eq (h : SameLine a b) : strip a.2 = strip b.2 := by
  rw [← strip_expandTabs, h, strip_expandTabs]

theorem indentWidth_eq (h : SameLine a b) : indentWidth a.2 = indentWidth b.2 := by
  rw [← indentWidth_expandTabs, h, indentWidth_expandTabs]

theorem allBlank_eq (h : SameLine a b) : allBlank a.2 = allBlank b.2 := by
  rw [← allBlank_expandTabs, h, allBlank_expandTabs]

end SameLine

theorem forall₂_sameLine_of_map_eq {numbered numbered' : List (Nat × Text)}
    (h : (numbered.map (·.2)).map expandTabs = (numbered'.map (·.2)).map expandTabs) :
    List.Forall₂ SameLine numbered numbered' := by
  induction numbered generalizing numbered' with
  | nil =>
      cases numbered' with
      | nil => exact .nil
      | cons => simp at h
  | cons entry numbered ih =>
      cases numbered' with
      | nil => simp at h
      | cons entry' numbered' =>
          simp only [List.map_cons, List.cons.injEq] at h
          exact .cons h.1 (ih h.2)

theorem Tab.blockEntries_congr (width : Nat) {numbered numbered' : List (Nat × Text)}
    (h : List.Forall₂ SameLine numbered numbered') :
    blockEntries width numbered = blockEntries width numbered' := by
  induction h with
  | nil => rfl
  | cons hline _ ih => simp only [blockEntries, hline.strip_eq, hline.indentWidth_eq, ih]

theorem Tab.sectionEntries_congr {numbered numbered' : List (Nat × Text)}
    (h : List.Forall₂ SameLine numbered numbered') :
    sectionEntries numbered = sectionEntries numbered' := by
  induction h with
  | nil => rfl
  | cons hline hrest ih =>
      simp only [sectionEntries, hline.strip_eq, hline.indentWidth_eq, ih, blockEntries_congr _ hrest]

theorem Description.blockLines_congr (width : Nat) {numbered numbered' : List (Nat × Text)}
    (h : List.Forall₂ SameLine numbered numbered') :
    blockLines width numbered = blockLines width numbered' := by
  induction h with
  | nil => rfl
  | @cons a b _ _ hline _ ih =>
      have hexpand : expandTabs a.2 = expandTabs b.2 := hline
      unfold blockLines at ih ⊢
      simp only [List.takeWhile_cons, hline.allBlank_eq, hline.indentWidth_eq]
      split
      · rw [List.map_cons, List.map_cons, ih, hexpand]
      · rfl

theorem Description.find?_congr {numbered numbered' : List (Nat × Text)}
    (h : List.Forall₂ SameLine numbered numbered') :
    find? numbered = find? numbered' := by
  induction h with
  | nil => rfl
  | cons hline hrest ih =>
      simp only [find?, hline.strip_eq, hline.indentWidth_eq, ih, blockLines_congr _ hrest]

/-! ## Documents that say the same of themselves -/

/-- The sections that a record takes the identity of its scenario from agree up to indentation. -/
structure SameIdentity (lines lines' : List Text) : Prop where
  metadata : (SectionKey.metadata.bodyIn lines).map expandTabs =
    (SectionKey.metadata.bodyIn lines').map expandTabs
  extended : (SectionKey.extended.bodyIn lines).map expandTabs =
    (SectionKey.extended.bodyIn lines').map expandTabs

namespace SameIdentity

variable {text text' : Text}

theorem trans {a b c : List Text} (hab : SameIdentity a b) (hbc : SameIdentity b c) :
    SameIdentity a c :=
  ⟨hab.metadata.trans hbc.metadata, hab.extended.trans hbc.extended⟩

theorem symm {a b : List Text} (h : SameIdentity a b) : SameIdentity b a :=
  ⟨h.metadata.symm, h.extended.symm⟩

theorem of_map_expandTabs_eq {a b : List Text} (h : a.map expandTabs = b.map expandTabs) :
    SameIdentity a b := by
  constructor
  · rw [← SectionKey.bodyIn_map_expandTabs, h, SectionKey.bodyIn_map_expandTabs]
  · rw [← SectionKey.bodyIn_map_expandTabs, h, SectionKey.bodyIn_map_expandTabs]

theorem of_keepsOthers {key : SectionKey} {a b : List Text} (h : key.KeepsOthers a b)
    (hmetadata : key ≠ .metadata) (hextended : key ≠ .extended) :
    SameIdentity (unmarkedLines b) (unmarkedLines a) :=
  ⟨congrArg _ (h.unmarked _ hmetadata.symm), congrArg _ (h.unmarked _ hextended.symm)⟩

theorem metadataRaws_eq {a b : List Text} (h : SameIdentity a b) (field : Field) :
    Declaration.metadataRaws field a = Declaration.metadataRaws field b := by
  have key : ∀ body : List Text,
      (body.map trimReturns).filterMap (fun line =>
        (after? (field.word ++ [':']) (stripLeft line)).map strip) =
      (((body.map expandTabs).map trimReturns).filterMap fun line =>
        (after? (field.word ++ [':']) (stripLeft line)).map strip) := by
    intro body
    rw [List.map_map, List.filterMap_map, List.filterMap_map]
    refine List.filterMap_congr fun line _ => ?_
    simp only [Function.comp_apply, trimReturns_expandTabs, stripLeft_expandTabs]
  unfold Declaration.metadataRaws
  rw [key, h.metadata, ← key]

theorem metadataField?_eq (h : SameIdentity (lines text) (lines text')) (field : Field) :
    (Declaration.metadataField? field text).map (·.value) =
      (Declaration.metadataField? field text').map (·.value) := by
  rw [Declaration.metadataField?_map_value, Declaration.metadataField?_map_value,
    h.metadataRaws_eq field]

theorem linesOf_extended (h : SameIdentity (lines text) (lines text')) :
    List.Forall₂ SameLine (SectionKey.extended.linesOf text) (SectionKey.extended.linesOf text') := by
  refine forall₂_sameLine_of_map_eq ?_
  have key : ∀ body : List Text,
      (body.map trimReturns).map expandTabs = (body.map expandTabs).map trimReturns := by
    intro body
    rw [List.map_map, List.map_map]
    exact List.map_congr_left fun line _ => (trimReturns_expandTabs line).symm
  rw [SectionKey.linesOf_map_snd, SectionKey.linesOf_map_snd, key, key, h.extended]

end SameIdentity

/-- What a document says of itself in its sections. -/
structure Identity where
  name : Text
  uid : Option Text
  code : Option Text
  description : Option Text
  deriving DecidableEq, Repr

namespace Record

/-- What the document of a record says of itself in its sections. -/
def identity (record : Record) : Identity :=
  ⟨record.name, record.uid, record.code, record.description⟩

theorem identity_ofText?_congr {text text' : Text} (source : Source)
    (h : SameIdentity (unmarkedLines (lines text)) (unmarkedLines (lines text'))) :
    (ofText? source text).map identity = (ofText? source text').map identity := by
  rw [← lines_dropMark, ← lines_dropMark] at h
  have hfield := h.metadataField?_eq
  have hdescription : Description.ofText? (dropMark text) = Description.ofText? (dropMark text') :=
    Description.find?_congr h.linesOf_extended
  have hidentity : ∀ document, (ofText? source document).map identity =
      ((Declaration.metadataField? .name (dropMark document)).map (·.value)).map fun name =>
        ⟨name, (Declaration.metadataField? .uid (dropMark document)).map (·.value),
          (Declaration.metadataField? .code (dropMark document)).map (·.value),
          Description.ofText? (dropMark document)⟩ := by
    intro document
    unfold ofText? Declaration.scenarioName?
    rw [Option.map_map]
    rfl
  rw [hidentity, hidentity, hfield, hfield, hfield, hdescription]

/-- Documents that also make the same remarks are grouped under the same tab. -/
theorem tab_ofText?_congr {text text' : Text} (source : Source)
    (h : SameIdentity (unmarkedLines (lines text)) (unmarkedLines (lines text')))
    (hremarks : remarksIn (unmarkedLines (lines text)) = remarksIn (unmarkedLines (lines text'))) :
    (ofText? source text).map (·.tab) = (ofText? source text').map (·.tab) := by
  rw [← lines_dropMark, ← lines_dropMark] at h hremarks
  have hname := h.metadataField?_eq .name
  have htab : Tab.ofText? (dropMark text) = Tab.ofText? (dropMark text') := by
    unfold Tab.ofText?
    rw [commentEntries_eq, commentEntries_eq, hremarks, Tab.sectionEntries_congr h.linesOf_extended]
  have hmap : ∀ document, (ofText? source document).map (·.tab) =
      ((Declaration.metadataField? .name (dropMark document)).map (·.value)).map fun _ =>
        Tab.ofText? (dropMark document) := by
    intro document
    unfold ofText? Declaration.scenarioName?
    rw [Option.map_map]
    rfl
  rw [hmap, hmap, hname, htab]

end Record

/-- Documents that make the same remarks are written in the same language. -/
theorem Language.detect?_congr {text text' : Text}
    (h : remarksIn (lines text) = remarksIn (lines text')) : detect? text = detect? text' := by
  unfold detect?
  rw [findSome?_tagWord?, findSome?_tagWord?, h]

end Scenarist
