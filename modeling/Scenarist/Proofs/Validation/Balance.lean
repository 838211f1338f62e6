import Scenarist.Proofs.Braces
import Scenarist.Proofs.Step.Keyword
import Scenarist.Proofs.Validation.Steps

set_option autoImplicit false

/-! # What is unbalanced

The lines that open and close conditionals are braces, and so are those of loops, whatever lines of the other kind
stand between them. While a script is checked, a finding is made of a closing brace that is left over, and the open
ones become findings in the end. The quotes of a line are looked at on their own.

Main statements: `BlockKind.mem_bracesIn_iff` (the lines that are braces), `Balance.unmatched_foldl` (the blocks of a
kind), `quotesPair_iff` (the quotes of a line) and `validate_unbalanced`. -/

namespace Scenarist

open Text

/-! ## Keywords -/

theorem opensWith_eq_true_iff {word text : Text} : opensWith word text = true ↔
    ∃ written rest, text = written ++ rest ∧ Spells word written ∧ wordEnds rest = true := by
  unfold opensWith
  constructor
  · intro h
    cases hafter : afterLetters? word text with
    | none => simp [hafter] at h
    | some rest =>
        obtain ⟨written, hspells, htext⟩ := afterLetters?_eq_some_iff.1 hafter
        exact ⟨written, rest, htext, hspells, by simpa [hafter] using h⟩
  · rintro ⟨written, rest, rfl, hspells, hends⟩
    rw [afterLetters?_eq_some_iff.2 ⟨written, hspells, rfl⟩]
    exact hends

namespace BlockKeyword

theorem isPrefixFree_words : IsPrefixFree ([endIf, endDo, beginIf, beginDo].map word) := by decide +kernel

/-- A line has a keyword if it begins with the word behind its blanks, in any case, and the word ends there. -/
theorem ofLine?_eq_some_iff {line : Text} {keyword : BlockKeyword} : ofLine? line = some keyword ↔
    ∃ written rest, strip line = written ++ rest ∧ Spells keyword.word written ∧ wordEnds rest = true := by
  rw [← opensWith_eq_true_iff]
  have hmem : ∀ keyword, keyword ∈ [endIf, endDo, beginIf, beginDo] := by
    intro keyword
    cases keyword <;> decide
  unfold ofLine?
  constructor
  · exact fun h => (List.find?_eq_some_iff_append.1 h).1
  · intro hopens
    cases hfind : [endIf, endDo, beginIf, beginDo].find? fun keyword => opensWith keyword.word (strip line) with
    | none => exact absurd hopens (List.find?_eq_none.1 hfind keyword (hmem keyword))
    | some other =>
        -- no line begins with the words of two keywords, so the order of the list does not matter
        obtain ⟨written, rest, heq, hspells, -⟩ := opensWith_eq_true_iff.1 hopens
        obtain ⟨written', rest', heq', hspells', -⟩ := opensWith_eq_true_iff.1 (List.find?_eq_some_iff_append.1 hfind).1
        have hword := isPrefixFree_words.eq_of_append_eq (List.mem_map_of_mem (hmem keyword))
          (List.mem_map_of_mem (hmem other)) hspells hspells' (heq.symm.trans heq')
        cases keyword <;> cases other <;> first | rfl | exact absurd hword (by decide)

end BlockKeyword

/-! ## Blocks -/

/-- The kinds of blocks. -/
inductive BlockKind where
  | conditional
  | loop
  deriving DecidableEq, Repr

namespace BlockKind

def code : BlockKind → DiagnosticCode
  | conditional => .unclosedIf
  | loop => .unclosedDo

/-- The word that opens or closes a block of a kind. -/
def word : BlockKind → Brace → Text
  | conditional, .opening => "If".toList
  | conditional, .closing => "EndIf".toList
  | loop, .opening => "Do".toList
  | loop, .closing => "EndDo".toList

/-- The brace that a keyword is for blocks of a kind. -/
def brace? : BlockKind → BlockKeyword → Option Brace
  | conditional, .beginIf => some .opening
  | conditional, .endIf => some .closing
  | loop, .beginDo => some .opening
  | loop, .endDo => some .closing
  | _, _ => none

def ofLine? (kind : BlockKind) (number : Nat) (line : Text) : Option (Nat × Brace) :=
  ((BlockKeyword.ofLine? line).bind kind.brace?).map (number, ·)

def bracesIn (kind : BlockKind) (lines : List (Nat × Text)) : List (Nat × Brace) :=
  lines.filterMap fun entry => kind.ofLine? entry.1 entry.2

theorem brace?_eq_some_iff {kind : BlockKind} {keyword : BlockKeyword} {side : Brace} :
    kind.brace? keyword = some side ↔ keyword.word = kind.word side := by
  cases kind <;> cases keyword <;> cases side <;> decide

/-- The braces among numbered lines are those that begin with the word of a side of the block. -/
theorem mem_bracesIn_iff {kind : BlockKind} {lines : List (Nat × Text)} {number : Nat} {side : Brace} :
    (number, side) ∈ kind.bracesIn lines ↔ ∃ line written rest, (number, line) ∈ lines ∧
      strip line = written ++ rest ∧ Spells (kind.word side) written ∧ wordEnds rest = true := by
  unfold bracesIn ofLine?
  simp only [List.mem_filterMap, Option.map_eq_some_iff, Option.bind_eq_some_iff, brace?_eq_some_iff,
    BlockKeyword.ofLine?_eq_some_iff, Prod.mk.injEq]
  constructor
  · rintro ⟨⟨number, line⟩, hline, side, ⟨keyword, ⟨written, rest, hstrip, hspells, hends⟩, hword⟩, rfl, rfl⟩
    exact ⟨line, written, rest, hline, hstrip, hword ▸ hspells, hends⟩
  · rintro ⟨line, written, rest, hline, hstrip, hspells, hends⟩
    obtain ⟨keyword, hword⟩ : ∃ keyword : BlockKeyword, keyword.word = kind.word side := by
      cases kind <;> cases side
      · exact ⟨.beginIf, rfl⟩
      · exact ⟨.endIf, rfl⟩
      · exact ⟨.beginDo, rfl⟩
      · exact ⟨.endDo, rfl⟩
    exact ⟨(number, line), hline, side, ⟨keyword, ⟨written, rest, hstrip, hword ▸ hspells, hends⟩, hword⟩, rfl, rfl⟩

theorem pairwise_bracesIn (kind : BlockKind) (document : Document) :
    ((kind.bracesIn (Checker.bodyOf document)).map Prod.fst).Pairwise (· < ·) := by
  have hsorted := List.pairwise_map.1 (SectionKey.pairwise_linesOf .script document.text)
  refine List.pairwise_map.2 (List.Pairwise.filterMap _ ?_ hsorted)
  intro entry entry' hlt brace hbrace brace' hbrace'
  unfold ofLine? at hbrace hbrace'
  obtain ⟨side, -, rfl⟩ := Option.map_eq_some_iff.1 hbrace
  obtain ⟨side', -, rfl⟩ := Option.map_eq_some_iff.1 hbrace'
  exact hlt

end BlockKind

namespace Checker

open Brace

variable {checker : Checker} {options : ValidationOptions} {document : Document}

namespace Balance

/-- The numbers of the findings with a code, the last one first. -/
def numbersWith (code : DiagnosticCode) (balance : Balance) : List Nat :=
  (balance.found.filter (·.2.1 = code)).map (·.1)

def unmatched (kind : BlockKind) (balance : Balance) : Unmatched where
  closings := balance.numbersWith kind.code
  openings := match kind with
    | .conditional => balance.ifs
    | .loop => balance.dos

/-- One more line is one more brace, or none. -/
theorem unmatched_step (kind : BlockKind) (balance : Balance) (number : Nat) (line : Text) :
    (balance.step number line).unmatched kind =
      (balance.unmatched kind).run (kind.ofLine? number line).toList := by
  obtain ⟨ifs, dos, found⟩ := balance
  unfold step BlockKind.ofLine?
  cases BlockKeyword.ofLine? line with
  | none =>
    cases kind <;> cases quotesPair false false line <;>
      simp [unmatched, numbersWith, Unmatched.run, BlockKind.code]
  | some keyword =>
    cases keyword <;> cases kind <;> cases ifs <;> cases dos <;> cases quotesPair false false line <;>
      simp [unmatched, numbersWith, Unmatched.run, Unmatched.step, BlockKind.code, BlockKind.brace?]

theorem unmatched_foldl (kind : BlockKind) (balance : Balance) (lines : List (Nat × Text)) :
    (lines.foldl (fun balance entry => balance.step entry.1 entry.2) balance).unmatched kind =
      (balance.unmatched kind).run (kind.bracesIn lines) := by
  induction lines generalizing balance with
  | nil => rfl
  | cons entry lines ih =>
      have hbraces : kind.bracesIn (entry :: lines) =
          (kind.ofLine? entry.1 entry.2).toList ++ kind.bracesIn lines := by
        unfold BlockKind.bracesIn
        rw [List.filterMap_cons]
        cases kind.ofLine? entry.1 entry.2 <;> rfl
      rw [List.foldl_cons, ih, unmatched_step, hbraces, Unmatched.run_append]

/-- A line whose quotes do not pair is found, whatever its keyword. -/
theorem quotes_step (balance : Balance) (number : Nat) (line : Text) :
    (balance.step number line).numbersWith .unclosedQuote =
      (if quotesPair false false line then [] else [number]) ++ balance.numbersWith .unclosedQuote := by
  obtain ⟨ifs, dos, found⟩ := balance
  unfold step
  cases BlockKeyword.ofLine? line with
  | none => cases quotesPair false false line <;> simp [numbersWith]
  | some keyword =>
    cases keyword <;> cases ifs <;> cases dos <;> cases quotesPair false false line <;> simp [numbersWith]

theorem quotes_foldl (balance : Balance) (lines : List (Nat × Text)) :
    (lines.foldl (fun balance entry => balance.step entry.1 entry.2) balance).numbersWith .unclosedQuote =
      ((lines.filter fun entry => !quotesPair false false entry.2).map Prod.fst).reverse ++
        balance.numbersWith .unclosedQuote := by
  induction lines generalizing balance with
  | nil => rfl
  | cons entry lines ih =>
      rw [List.foldl_cons, ih, quotes_step, List.filter_cons]
      cases quotesPair false false entry.2 <;> simp

end Balance

/-! ## The quotes of a line -/

/-- Whether a double quote stands at a place of a line, with no backslash directly before it. -/
def isQuoteAt (text : Text) : Nat → Bool
  | 0 => text[0]? = some '"'
  | i + 1 => text[i + 1]? = some '"' && text[i]? ≠ some '\\'

/-- How many double quotes of a line have no backslash directly before them. -/
def quoteCount (text : Text) : Nat := (List.range text.length).countP (isQuoteAt text)

/-- The quotes of a line behind a character pair with those that are open if there is an even number of them. -/
theorem quotesPair_behind (before : Char) (isOpen : Bool) (text : Text) :
    quotesPair (before = '\\') isOpen text = true ↔
      (isOpen.toNat + (List.range text.length).countP fun i =>
        text[i]? = some '"' && (before :: text)[i]? ≠ some '\\') % 2 = 0 := by
  induction text generalizing before isOpen with
  | nil => cases isOpen <;> simp [quotesPair]
  | cons c text ih =>
      rw [quotesPair, ih, List.length_cons, List.range_succ_eq_map, List.countP_cons, List.countP_map]
      simp only [Function.comp_def, List.getElem?_cons_succ, List.getElem?_cons_zero]
      -- the character itself is one quote more, or none
      have hquote : (some c = some '"' && some before ≠ some '\\') = (c = '"' && !decide (before = '\\')) := by
        simp
      simp only [hquote]
      cases (decide (c = '"') && !decide (before = '\\')) <;> cases isOpen <;> simp <;> omega

/-- The quotes of a line pair if there is an even number of them. -/
theorem quotesPair_iff (text : Text) : quotesPair false false text = true ↔ quoteCount text % 2 = 0 := by
  have hbehind : isQuoteAt text = fun i => text[i]? = some '"' && ('\n' :: text)[i]? ≠ some '\\' := by
    funext i
    cases i <;> simp [isQuoteAt]
  have hquotes := quotesPair_behind '\n' false text
  rw [quoteCount, hbehind]
  simpa using hquotes

/-! ## The findings -/

/-- The findings about balance are those about blocks of some kind and those about quotes. -/
theorem isBalanceCode_iff {code : DiagnosticCode} :
    isBalanceCode code = true ↔ (∃ kind : BlockKind, code = kind.code) ∨ code = .unclosedQuote := by
  constructor
  · intro h
    cases code
    case unclosedIf => exact Or.inl ⟨.conditional, rfl⟩
    case unclosedDo => exact Or.inl ⟨.loop, rfl⟩
    case unclosedQuote => exact Or.inr rfl
    all_goals exact Bool.noConfusion h
  · rintro (⟨kind, rfl⟩ | rfl)
    · cases kind <;> rfl
    · rfl

theorem linesWith_finding (code : DiagnosticCode) (severity : Severity) (entries : List (Nat × DiagnosticCode × Text)) :
    linesWith code (entries.map fun (number, code, message) => finding document number severity code message) =
      (entries.filter (·.2.1 = code)).map (·.1) := by
  unfold linesWith
  rw [List.filter_map, List.map_map]
  rfl

theorem linesWith_checkBalance (code : DiagnosticCode) (lines : List (Nat × Text)) :
    let balance := lines.foldl (fun balance entry => balance.step entry.1 entry.2) ({} : Balance)
    linesWith code (checkBalance document lines) = (balance.numbersWith code).reverse ++
      (if DiagnosticCode.unclosedIf = code then balance.ifs.reverse else []) ++
      (if DiagnosticCode.unclosedDo = code then balance.dos.reverse else []) := by
  intro balance
  have hopen : ∀ (numbers : List Nat) (found : DiagnosticCode) (message : Text),
      ((numbers.map (·, found, message)).filter (·.2.1 = code)).map (·.1) = if found = code then numbers else [] := by
    intro numbers found message
    rw [List.filter_map, List.map_map]
    split <;> simp_all [Function.comp_def]
  show linesWith code ((balance.found.reverse ++
    balance.ifs.reverse.map (·, DiagnosticCode.unclosedIf, Message.unmatchedIf) ++
    balance.dos.reverse.map (·, DiagnosticCode.unclosedDo, Message.unmatchedDo)).map
      fun (number, code, message) => finding document number .error code message) = _
  rw [linesWith_finding, List.filter_append, List.filter_append, List.map_append, List.map_append,
    hopen, hopen, List.filter_reverse, List.map_reverse]
  rfl

theorem linesWith_checkBalance_block (kind : BlockKind) (lines : List (Nat × Text)) :
    linesWith kind.code (checkBalance document lines) =
      (Unmatched.run {} (kind.bracesIn lines)).closings.reverse ++
        (Unmatched.run {} (kind.bracesIn lines)).openings.reverse := by
  have hrun : Unmatched.run {} (kind.bracesIn lines) =
      (lines.foldl (fun balance entry => balance.step entry.1 entry.2) ({} : Balance)).unmatched kind := by
    rw [Balance.unmatched_foldl]
    cases kind <;> rfl
  rw [hrun, linesWith_checkBalance]
  cases kind <;> simp [Balance.unmatched, BlockKind.code]

theorem linesWith_checkBalance_quote (lines : List (Nat × Text)) :
    linesWith .unclosedQuote (checkBalance document lines) =
      (lines.filter fun entry => !quotesPair false false entry.2).map Prod.fst := by
  rw [linesWith_checkBalance, Balance.quotes_foldl]
  simp [Balance.numbersWith]

/-- Blocks and quotes are looked at by the check of balance alone. -/
theorem linesWith_validate_balance {code : DiagnosticCode} (hcode : isBalanceCode code = true) :
    linesWith code (checker.validate document options) =
      linesWith code (checkBalance document (bodyOf document)) := by
  have hothers : ∀ {diagnostic : Diagnostic}, isCallCode diagnostic.code = true ∨
      diagnostic.code = .incompleteBlock ∨ diagnostic.code = .defaultDescription → diagnostic.code ≠ code := by
    rintro diagnostic h rfl
    cases hfound : diagnostic.code <;> simp_all [isBalanceCode, isCallCode]
  cases hscript : SectionKey.script.find? document.text with
  | none =>
      obtain ⟨hbody, hvalidate⟩ := @validate_of_scriptless checker document hscript options
      rw [hvalidate, hbody]
      rfl
  | some script =>
      have hcalls : linesWith code (checker.callFindings options document) = [] := by
        refine linesWith_eq_nil fun diagnostic h => ?_
        obtain ⟨block, -, hfound⟩ := List.mem_flatMap.1 h
        exact hothers (Or.inl (isCallCode_judge hfound))
      have hsteps : linesWith code (checker.stepFindings options document) = [] :=
        linesWith_eq_nil fun diagnostic h => hothers (Or.inl (by rw [code_stepFindings h]; rfl))
      rw [validate_eq hscript]
      simp only [linesWith_append]
      rw [hcalls, hsteps, linesWith_eq_nil fun diagnostic h => hothers (Or.inr (Or.inl (code_checkCompleteness h))),
        linesWith_eq_nil fun diagnostic h => hothers (Or.inr (Or.inr (code_checkDescription h)))]
      simp

theorem linesWith_block (kind : BlockKind) :
    linesWith kind.code (checker.validate document options) =
      (Unmatched.run {} (kind.bracesIn (bodyOf document))).closings.reverse ++
        (Unmatched.run {} (kind.bracesIn (bodyOf document))).openings.reverse := by
  rw [linesWith_validate_balance (isBalanceCode_iff.2 (Or.inl ⟨kind, rfl⟩)), linesWith_checkBalance_block]

/-- The lines of findings about blocks of a kind are those of the braces that pair with none. -/
theorem mem_linesWith_block_iff (kind : BlockKind) (number : Nat) :
    number ∈ linesWith kind.code (checker.validate document options) ↔
      IsUnpaired (kind.bracesIn (bodyOf document)) number := by
  rw [← Unmatched.mem_run_iff ((kind.pairwise_bracesIn document).imp Nat.ne_of_lt), linesWith_block]
  simp only [List.mem_append, List.mem_reverse]

theorem nodup_linesWith_block (kind : BlockKind) :
    (linesWith kind.code (checker.validate document options)).Nodup := by
  have hnodup := Unmatched.nodup_run ((kind.pairwise_bracesIn document).imp Nat.ne_of_lt)
  rw [linesWith_block, List.nodup_append_comm, ← List.reverse_append, List.nodup_reverse]
  exact hnodup

theorem linesWith_block_eq_nil_iff (kind : BlockKind) :
    linesWith kind.code (checker.validate document options) = [] ↔
      IsBalanced (kind.bracesIn (bodyOf document)) := by
  rw [← Unmatched.run_eq_nil_iff, linesWith_block]
  cases Unmatched.run {} (kind.bracesIn (bodyOf document)) with
  | mk closings openings => simp

/-- The lines of findings about quotes are those with an odd number of them. -/
theorem linesWith_unclosedQuote :
    linesWith .unclosedQuote (checker.validate document options) =
      ((bodyOf document).filter fun entry => quoteCount entry.2 % 2 = 1).map Prod.fst := by
  rw [linesWith_validate_balance rfl, linesWith_checkBalance_quote]
  refine congrArg _ (List.filter_congr fun entry _ => ?_)
  have hpair := quotesPair_iff entry.2
  cases hquotes : quotesPair false false entry.2 with
  | true =>
      have heven := hpair.1 hquotes
      simp [heven]
  | false =>
      have hodd : quoteCount entry.2 % 2 ≠ 0 := fun heven => by simp [hpair.2 heven] at hquotes
      simp [Nat.mod_two_ne_zero.1 hodd]

/-- Findings have none of some codes exactly if none of these is found on any line. -/
theorem forall_code_eq_false_iff {p : DiagnosticCode → Bool} {findings : List Diagnostic} :
    (∀ diagnostic ∈ findings, p diagnostic.code = false) ↔
      ∀ code, p code = true → linesWith code findings = [] := by
  constructor
  · intro h code hcode
    refine linesWith_eq_nil fun diagnostic hmem hfound => ?_
    have hnot := h diagnostic hmem
    rw [hfound, hcode] at hnot
    exact Bool.noConfusion hnot
  · intro h diagnostic hmem
    rw [Bool.eq_false_iff]
    intro hcode
    have hline : diagnostic.line ∈ linesWith diagnostic.code findings :=
      List.mem_map_of_mem (List.mem_filter.2 ⟨hmem, decide_eq_true rfl⟩)
    rw [h _ hcode] at hline
    exact List.not_mem_nil hline

/-- Nothing is unbalanced exactly if the blocks of each kind are balanced and the quotes of each line pair. -/
theorem isBalanceCode_eq_false_iff :
    (∀ diagnostic ∈ checker.validate document options, isBalanceCode diagnostic.code = false) ↔
      (∀ kind : BlockKind, IsBalanced (kind.bracesIn (bodyOf document))) ∧
        ∀ entry ∈ bodyOf document, quoteCount entry.2 % 2 = 0 := by
  have hquotes : linesWith .unclosedQuote (checker.validate document options) = [] ↔
      ∀ entry ∈ bodyOf document, quoteCount entry.2 % 2 = 0 := by
    simp [linesWith_unclosedQuote]
  rw [forall_code_eq_false_iff, ← hquotes]
  constructor
  · intro h
    exact ⟨fun kind => (linesWith_block_eq_nil_iff kind).1 (h _ (isBalanceCode_iff.2 (Or.inl ⟨kind, rfl⟩))),
      h _ rfl⟩
  · rintro ⟨hblocks, hquote⟩ code hcode
    rcases isBalanceCode_iff.1 hcode with ⟨kind, rfl⟩ | rfl
    · exact (linesWith_block_eq_nil_iff kind).2 (hblocks kind)
    · exact hquote

/-- The braces of a kind are the lines that begin with the word that opens or closes its blocks. The findings about
them are on the lines of those that pair with none, where a closing brace pairs with the nearest opening one before it
that is not closed yet; those about quotes are on the lines with an odd number of them. No line is found twice, and
nothing is found exactly if all blocks and quotes are balanced. -/
theorem validate_unbalanced (checker : Checker) (document : Document) (options : ValidationOptions) :
    let findings := checker.validate document options
    (∀ kind : BlockKind, let braces := kind.bracesIn (bodyOf document)
      (∀ number side, (number, side) ∈ braces ↔ ∃ line written rest, (number, line) ∈ bodyOf document ∧
        strip line = written ++ rest ∧ Spells (kind.word side) written ∧ wordEnds rest = true) ∧
      (∀ number, number ∈ linesWith kind.code findings ↔ IsUnpaired braces number) ∧
        ∀ m n, Pairs braces m n ↔ (n, .closing) ∈ braces ∧ IsGreatest (freeBefore braces n) m) ∧
      (∀ number, number ∈ linesWith .unclosedQuote findings ↔
        ∃ line, (number, line) ∈ bodyOf document ∧ quoteCount line % 2 = 1) ∧
      (∀ code, isBalanceCode code = true → (linesWith code findings).Nodup) ∧
      ((∀ diagnostic ∈ findings, isBalanceCode diagnostic.code = false) ↔
        (∀ kind : BlockKind, IsBalanced (kind.bracesIn (bodyOf document))) ∧
          ∀ entry ∈ bodyOf document, quoteCount entry.2 % 2 = 0) := by
  intro findings
  refine ⟨fun kind => ⟨fun number side => kind.mem_bracesIn_iff, mem_linesWith_block_iff kind, fun m n => ?_⟩, fun number => ?_, fun code hcode => ?_,
    isBalanceCode_eq_false_iff⟩
  · exact pairs_iff_isGreatest (kind.pairwise_bracesIn document)
  · simp [findings, linesWith_unclosedQuote]
  · rcases isBalanceCode_iff.1 hcode with ⟨kind, rfl⟩ | rfl
    · exact nodup_linesWith_block kind
    · rw [linesWith_unclosedQuote]
      exact (SectionKey.nodup_linesOf .script document.text).sublist (List.filter_sublist.map Prod.fst)

/-- A conditional that ends inside a loop, and behind it one that does not end. -/
def crossing : Document where
  uri := "/a".toList
  text := "ТекстСценария: |\n    If a\n    Do\n    endif\n    If b\n    EndDo\n    Iff\n".toList

def unknowing : Checker where
  records := []
  catalog := { steps := [], threshold := StepCatalog.defaultThreshold }
  config := {}

example : linesWith .unclosedIf (unknowing.validate crossing .full) = [4] ∧
    linesWith .unclosedDo (unknowing.validate crossing .full) = [] := by decide +kernel

end Checker

end Scenarist
