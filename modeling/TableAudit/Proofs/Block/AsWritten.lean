import TableAudit.Proofs.Block.Bodies
import TableAudit.Proofs.Block.Compiled
import TableAudit.Proofs.Grammar.Consumers
import TableAudit.Proofs.Token.Cleared

namespace TableAudit

namespace Grammar

/-- A text whose statements can be read is scanned without a fault. -/
theorem fault_eq_none_of_wholeBlock {named : String → Option Char} {depth : Nat} {text : List Char} {body : List Stmt} {ended : Input}
    (h : wholeBlock (rules named depth) ⟨(Token.scan text).tokens, 0, 0, false⟩ = .ok (body, ended)) :
    (Token.scan text).fault = none := by
  by_contra hfault
  have htokens : (Token.scan text).tokens = (Token.scan text).lexemes.map Lexeme.token ++ [.fault] := by
    rw [Scan.tokens, if_pos (Option.isSome_iff_ne_none.mpr hfault)]
  have hstop : .stop ∉ (Token.scan text).tokens := by
    rw [htokens, List.mem_append, List.mem_singleton]
    rintro (hmem | hmem)
    · obtain ⟨lexeme, hlexeme, htoken⟩ := List.mem_map.mp hmem
      exact Token.ne_stop_of_scan text lexeme hlexeme htoken
    · cases hmem
  -- What is left of the tokens has the fault in it, so it begins with a token, and not with the end.
  have hhead {rest : List Token} (hrest : .fault ∈ rest) (hmem : ∀ token ∈ rest, token ≠ .stop) :
      rest.headD .stop ≠ .stop := by
    cases rest with
    | nil => cases hrest
    | cons token rest => exact hmem token List.mem_cons_self
  have hmem : .fault ∈ (Token.scan text).tokens := by
    rw [htokens]
    exact List.mem_append_right _ List.mem_cons_self
  have hbegins := hhead hmem fun token htoken hend => hstop (hend ▸ htoken)
  obtain ⟨hstatements, hend⟩ := (wholeBlock_eq_ok_iff hbegins).mp h
  have hconsuming : Consuming (statements (rules named depth)) := inferInstance
  obtain ⟨used, hmoves, -⟩ := hconsuming.consumes _ _ _ trivial hstatements
  have hsplit : (Token.scan text).tokens = used ++ ended.rest := hmoves.rest
  rw [hsplit, List.mem_append] at hmem
  refine hhead (hmem.resolve_left fun hused => (hmoves.takeable _ hused).2 rfl)
    (fun token htoken hend => hstop ?_) hend
  rw [hsplit, ← hend]
  exact List.mem_append_right _ htoken

/-- What is read depends on the tokens of a text alone. -/
theorem readTextAt_of_tokens {α : Type} {depth : Nat} {named : String → Option Char}
    {text other : List Char} {reader : Rules → Reader α}
    {answer : α} {scan : Scan} (h : readTextAt named depth text reader = .ok (answer, scan))
    (htokens : (Token.scan other).tokens = scan.tokens) :
    readTextAt named depth other reader = .ok (answer, Token.scan other) := by
  obtain ⟨rfl, ended, hread⟩ := readTextAt_eq_ok_iff.mp h
  rw [← htokens] at hread
  exact readTextAt_eq_ok_iff.mpr ⟨rfl, ended, hread⟩

end Grammar

namespace Block

open Text (closed wholeRows countedLines Changes EndsOpen lines)
open Text.Margin (margin clearBlank remove)
open Token (closeLastLine normalizeLineEnds Spared)

/-- A text that reads as it is written once its margin is removed: its lines share none, no text literal
    stands on a line that is changed, and where the last line is cleared the one before it does not go on
    in it. -/
structure ReadsAsWritten (text : List Char) : Prop where
  flush : margin ((lines text).map clearBlank) = []
  literals : ∀ lexeme ∈ (Token.scan (closeLastLine (normalizeLineEnds text))).lexemes,
    Spared (Changes text) lexeme
  ending : EndsOpen (remove text) → EndsOpen text

instance (text : List Char) : Decidable (ReadsAsWritten text) :=
  decidable_of_iff (margin ((lines text).map clearBlank) = [] ∧
    (∀ lexeme ∈ (Token.scan (closeLastLine (normalizeLineEnds text))).lexemes,
      Spared (Changes text) lexeme) ∧ (EndsOpen (remove text) → EndsOpen text))
    ⟨fun h => ⟨h.1, h.2.1, h.2.2⟩, fun h => ⟨h.flush, h.literals, h.ending⟩⟩

theorem closeLastLine_normalized (text : List Char) :
    closeLastLine (normalizeLineEnds text) = closed (wholeRows (countedLines text)) := by
  rw [← Token.closeLastLine_unlines (Text.feed_not_mem_countedLines text), countedLines,
    Text.unlines_lines]

/-- The same statements are read where the margin of such a text is removed. -/
theorem ReadsAsWritten.readBlock {named : String → Option Char} {text : List Char}
    (h : ReadsAsWritten text) {body : List Stmt} {scan : Scan}
    (hread : Grammar.readBlock named text = .ok (body, scan)) :
    ∃ cleared, Grammar.readBlock named (remove text) = .ok (body, cleared) := by
  unfold Grammar.readBlock Grammar.readText at hread ⊢
  obtain ⟨hscan, ended, hblock⟩ := Grammar.readTextAt_eq_ok_iff.mp hread
  rw [hscan] at hblock
  have hfault := Grammar.fault_eq_none_of_wholeBlock hblock
  have htokens := Token.tokens_of_clears (Text.clears_remove h.flush h.ending)
    (closeLastLine_normalized text ▸ hfault) (closeLastLine_normalized text ▸ h.literals)
  rw [← closeLastLine_normalized, ← closeLastLine_normalized, ← hscan] at htokens
  exact ⟨_, Grammar.readTextAt_of_tokens hread htokens⟩

theorem ReadsAsWritten.read {named : String → Option Char} {text : List Char}
    (h : ReadsAsWritten text) {own : List Statement} (hread : Block.read named text = .ok own) :
    ∃ cleared, Block.read named (remove text) = .ok cleared ∧
      List.Forall₂ (fun s t => t.form = s.form) own cleared := by
  obtain ⟨hreadable, body, scan, hbody, rfl⟩ := read_eq_ok_iff.mp hread
  obtain ⟨scan', hbody'⟩ := h.readBlock hbody
  refine ⟨_, read_eq_ok_iff.mpr ⟨?_, body, scan', hbody', rfl⟩, ?_⟩
  · rwa [unreadable?_remove]
  · rw [List.forall₂_map_left_iff, List.forall₂_map_right_iff]
    exact List.forall₂_same.mpr fun _ _ => rfl

/-- Compilations that come to the same check set, or to errors for the same reason. -/
inductive SameResult : Except Fault CheckSet → Except Fault CheckSet → Prop
  | compiled (set : CheckSet) : SameResult (.ok set) (.ok set)
  | refused {error other : CompileError} (hreason : error.reason = other.reason) :
      SameResult (.error (.compile error)) (.error (.compile other))
  | unprintable (obstacle : Expr.Obstacle) :
      SameResult (.error (.unprintable obstacle)) (.error (.unprintable obstacle))

theorem SameResult.eq_ok {result : Except Fault CheckSet} {set : CheckSet}
    (h : SameResult result (.ok set)) : result = .ok set := by
  cases h
  rfl

theorem compile_of_compileBody {scope : Scope} {name : String} {body : List Statement} {set : CheckSet}
    (h : compileBody scope name body = .ok set) : compile scope name body = .ok set := by
  unfold compileBody at h
  cases hcompile : compile scope name body with
  | error error =>
    rw [hcompile] at h
    cases h
  | ok compiled =>
    rw [hcompile] at h
    cases h
    rfl

theorem sameResult_of_forms {own cleared : List Statement}
    (h : List.Forall₂ (fun s t => t.form = s.form) own cleared) (scope : Scope) (name : String) :
    SameResult (compileBody scope name own) (compileBody scope name cleared) := by
  unfold compileBody compile
  rcases compileFrom_copies (fun _ _ hform => hform) h scope [] with
    ⟨checks, hown, hcleared⟩ | ⟨s, t, reason, -, hown, hcleared⟩
  · rw [hown, hcleared]
    exact .compiled ⟨name, checks⟩
  · rw [hown, hcleared]
    change SameResult (.error (Fault.ofCompile _)) (.error (Fault.ofCompile _))
    rcases ofCompile_errorAt reason with ⟨obstacle, hunprintable⟩ | hcompile
    · rw [hunprintable, hunprintable]
      exact .unprintable obstacle
    · rw [hcompile, hcompile]
      exact .refused rfl

/-- A text that reads as it is written compiles as its statements do: to the same check set, whose
    checks are those that the statements declare, or to an error for the same reason. -/
theorem compileText_as_written {scope : Scope} {text : String} {own : List Statement}
    (hread : read scope.language.named? text.toList = .ok own) (h : ReadsAsWritten text.toList)
    (name : String) :
    SameResult (compileBody scope name own) (compileText scope name text) ∧
      ∀ set, compileText scope name text = .ok set →
        set.name = name ∧ Declared scope own set.checks := by
  obtain ⟨cleared, hcleared, hforms⟩ := h.read hread
  rw [compileText_eq_compileBody scope hcleared]
  have hsame := sameResult_of_forms hforms scope name
  refine ⟨hsame, fun set hset => declared_of_compile (compile_of_compileBody ?_)⟩
  rw [hset] at hsame
  exact hsame.eq_ok

/-- Blanks on lines by themselves: kept in a literal where the line ends in a carriage return, cleared
    within brackets, between declarations and at the end. -/
def spreadText : String :=
  "check(\"\"\"a\r\n  \r\n\n b\"\"\", is_even(\n   \ncol(\"x\")))\n" ++
    "\t\ncheck('c', \\\n  is_even(col(\"y\")))\n  "

theorem compileText_as_written_spread : ∃ own, read Scope.library.language.named? spreadText.toList = .ok own ∧
    ReadsAsWritten spreadText.toList ∧
    SameResult (compileBody Scope.library "set" own) (compileText Scope.library "set" spreadText) ∧
      ∀ set, compileText Scope.library "set" spreadText = .ok set →
        set.name = "set" ∧ Declared Scope.library own set.checks := by
  have hreads : ReadsAsWritten spreadText.toList := by
    decide +kernel
  have hread : (read Scope.library.language.named? spreadText.toList).isOk = true := by
    decide +kernel
  cases h : read Scope.library.language.named? spreadText.toList with
  | error fault =>
    rw [h] at hread
    cases hread
  | ok own => exact ⟨own, rfl, hreads, compileText_as_written h hreads "set"⟩

/-- The names of the checks that a compilation makes, and whether it is refused for its syntax. -/
def summary (result : Except Fault CheckSet) : List String × Bool :=
  (result.toOption.elim [] CheckSet.names, refusesSyntax result)

theorem SameResult.summary_eq {first second : Except Fault CheckSet} (h : SameResult first second) :
    summary first = summary second := by
  cases h with
  | compiled => rfl
  | @refused error other hreason =>
    obtain ⟨declaration, reason, line⟩ := error
    obtain ⟨declaration', reason', line'⟩ := other
    obtain rfl : reason = reason' := hreason
    cases reason <;> rfl
  | unprintable obstacle => rfl

/-- What the statements of a text come to as they are written, if it can be read. -/
def writtenSummary? (text : String) : Option (List String × Bool) :=
  (read Scope.library.language.named? text.toList).toOption.map fun own => summary (compileBody Scope.library "set" own)

/-- A text that can be read, and is not compiled as its statements are. -/
def Misread (text : String) : Prop :=
  ∃ own, read Scope.library.language.named? text.toList = .ok own ∧
    ¬ SameResult (compileBody Scope.library "set" own) (compileText Scope.library "set" text)

theorem misread_of_summary {text : String} (written : List String × Bool)
    (hwritten : writtenSummary? text = some written)
    (hcompiled : summary (compileText Scope.library "set" text) ≠ written) : Misread text := by
  unfold writtenSummary? at hwritten
  cases hread : read Scope.library.language.named? text.toList with
  | error fault =>
    rw [hread] at hwritten
    cases hwritten
  | ok own =>
    rw [hread] at hwritten
    refine ⟨own, hread, fun hsame => hcompiled ?_⟩
    rw [← hsame.summary_eq]
    exact Option.some.inj hwritten

/-- A name with a line of nothing but blanks. -/
def blanksInName : String :=
  "check(\"\"\"a\n   \nb\"\"\", is_even(col(\"x\")))"

/-- A line that goes on in the last one, which has nothing but blanks. -/
def blanksAtEnd : String :=
  "check(\"a\", is_even(col(\"x\"))) \\\n   "

/-- Lines that all begin with a blank, of which the first is taken back to its beginning. -/
def blanksBeforeFeed : String :=
  " \x0cif True:\n pass"

/-- A name with a line of blanks is compiled to another one than was written; and none of the other
    conditions on a text can be left out either. -/
theorem compileText_not_as_written :
    writtenSummary? blanksInName = some (["a\n   \nb"], false) ∧
      summary (compileText Scope.library "set" blanksInName) = (["a\n\nb"], false) ∧
      Misread blanksInName ∧ Misread blanksAtEnd ∧ Misread blanksBeforeFeed := by
  have hwritten : writtenSummary? blanksInName = some (["a\n   \nb"], false) := by
    decide +kernel
  refine ⟨hwritten, ?_, misread_of_summary _ hwritten ?_, misread_of_summary (["a"], false) ?_ ?_,
    misread_of_summary ([], false) ?_ ?_⟩ <;> decide +kernel

end Block

end TableAudit
