import TableAudit.Proofs.Block.AsWritten
import TableAudit.Proofs.Block.Shifted
import TableAudit.Proofs.Grammar.Spans
import TableAudit.Proofs.Text.Pieces
import TableAudit.Proofs.Token.Places

namespace TableAudit

open Text.Margin (remove)
open Token (closeLastLine normalizeLineEnds)

namespace Text

theorem remove_feed (text : List Char) : remove ('\n' :: text) = '\n' :: remove text := by
  have hmargin (rows : List (List Char)) : Margin.margin ([] :: rows) = Margin.margin rows := rfl
  unfold remove
  rw [lines_feed, List.map_cons]
  dsimp only
  rw [show Margin.clearBlank [] = [] from rfl, hmargin, List.map_cons, List.drop_nil]
  cases hrows : (lines text).map Margin.clearBlank with
  | nil => exact absurd (List.map_eq_nil_iff.mp hrows) (lines_ne_nil text)
  | cons row rows => rfl

theorem remove_feeds (count : Nat) (text : List Char) :
    remove (List.replicate count '\n' ++ text) = List.replicate count '\n' ++ remove text := by
  induction count with
  | zero => rfl
  | succ count ih => rw [List.replicate_succ, List.cons_append, remove_feed, ih, List.cons_append]

end Text

namespace Token

theorem closeLastLine_feed (text : List Char) :
    closeLastLine ('\n' :: text) = '\n' :: closeLastLine text := by
  cases text with
  | nil => rfl
  | cons c text =>
    unfold closeLastLine
    rw [List.getLast?_cons_cons]
    split <;> simp_all

theorem closed_feeds (count : Nat) (text : List Char) :
    closeLastLine (normalizeLineEnds (List.replicate count '\n' ++ text)) =
      List.replicate count '\n' ++ closeLastLine (normalizeLineEnds text) := by
  induction count with
  | zero => rfl
  | succ count ih =>
    have hfeed : normalizeLineEnds ('\n' :: (List.replicate count '\n' ++ text)) =
        '\n' :: normalizeLineEnds (List.replicate count '\n' ++ text) :=
      Text.normalizeLineEnds_cons nofun
    rw [List.replicate_succ, List.cons_append, hfeed, closeLastLine_feed, ih, List.cons_append]

/-- What ends within a line was there before the last line was closed. -/
theorem prefix_of_closeLastLine {text before : List Char} (h : before <+: closeLastLine text)
    (hlast : before.getLast? ≠ some '\n') : before <+: text := by
  unfold closeLastLine at h
  split at h
  · exact h
  · exact h
  · refine (List.prefix_concat_iff.mp h).resolve_left ?_
    rintro rfl
    exact hlast List.getLast?_concat

theorem tokens_down (count : Nat) (scan : Scan) : (scan.down count).tokens = scan.tokens := by
  rw [Scan.tokens, Scan.tokens, Scan.down, List.map_map]
  rfl

end Token

namespace Grammar

/-- Below some empty lines a text is read as the same statements, and those only if it is by itself. -/
theorem readBlock_feeds_iff (named : String → Option Char) (count : Nat) (text : List Char) (body : List Stmt) (below : Scan) :
    readBlock named (List.replicate count '\n' ++ text) = .ok (body, below) ↔
      ∃ scan, readBlock named text = .ok (body, scan) ∧ below = scan.down count := by
  unfold readBlock readText
  rw [Token.closed_feeds]
  generalize closeLastLine (normalizeLineEnds text) = own
  have hscan (h : (Token.scan own).fault = none) :
      Token.scan (List.replicate count '\n' ++ own) = (Token.scan own).down count := by
    have hown : Token.scan own = ⟨(Token.scan own).lexemes, none⟩ := by
      rw [← h]
    have hbelow := (Token.scan_feeds_eq_iff own count _).mpr ⟨_, hown, rfl⟩
    rw [hbelow, Scan.down, h]
  constructor
  · intro h
    obtain ⟨hbelow, ended, hread⟩ := readTextAt_eq_ok_iff.mp h
    rw [hbelow] at hread
    have hfault := fault_eq_none_of_wholeBlock hread
    obtain ⟨lexemes, hlexemes, -⟩ := (Token.scan_feeds_eq_iff own count _).mp
      (show Token.scan (List.replicate count '\n' ++ own) = ⟨_, none⟩ by rw [← hfault])
    have hdown := hscan (congrArg Scan.fault hlexemes)
    refine ⟨Token.scan own, readTextAt_of_tokens h ?_, hbelow.trans hdown⟩
    rw [hbelow, hdown, Token.tokens_down]
  · rintro ⟨scan, h, rfl⟩
    obtain ⟨rfl, ended, hread⟩ := readTextAt_eq_ok_iff.mp h
    rw [← hscan (fault_eq_none_of_wholeBlock hread)]
    refine readTextAt_of_tokens h ?_
    rw [hscan (fault_eq_none_of_wholeBlock hread), Token.tokens_down]

/-- The lexemes of a text that is read follow each other in it, and its statements take up room. -/
theorem spans_of_readBlock {named : String → Option Char} {text : List Char} {body : List Stmt}
    {scan : Scan} (h : readBlock named text = .ok (body, scan)) :
    Token.Stand (closeLastLine (normalizeLineEnds text)) [] scan.lexemes ∧
      ∀ s ∈ body, s.extent.Spans scan.tokens := by
  obtain ⟨rfl, ended, hread⟩ := readTextAt_eq_ok_iff.mp h
  have hfault := fault_eq_none_of_wholeBlock hread
  refine ⟨Token.stand_of_scan ?_, (spans_wholeBlock _ body ended ⟨rfl, le_rfl⟩ hread).2⟩
  rw [← hfault]

/-- A token with a text of its own is that of a lexeme. -/
theorem exists_lexeme {scan : Scan} {index : Nat} {token : Token}
    (htoken : scan.tokens[index]? = some token) (hlayout : token.isLayout = false) :
    ∃ lexeme, scan.lexemes[index]? = some lexeme ∧ lexeme.token.isLayout = false := by
  rw [Scan.tokens] at htoken
  rcases Nat.lt_or_ge index (scan.lexemes.map Lexeme.token).length with hless | hge
  · rw [List.getElem?_append_left hless, List.getElem?_map] at htoken
    obtain ⟨lexeme, hlexeme, rfl⟩ := Option.map_eq_some_iff.mp htoken
    exact ⟨lexeme, hlexeme, hlayout⟩
  · rw [List.getElem?_append_right hge] at htoken
    rw [List.mem_singleton.mp (List.mem_of_getElem? htoken)] at hlayout
    split at hlayout <;> cases hlayout

/-- The statements that are read of a text stand between places of it. -/
theorem exists_places {named : String → Option Char} {text : List Char} {body : List Stmt}
    {scan : Scan} (h : readBlock named text = .ok (body, scan)) {s : Stmt} (hs : s ∈ body) :
    ∃ first last, scan.lexemes[s.extent.first]? = some first ∧
      scan.lexemes[s.extent.last - 1]? = some last ∧ 0 < first.start.line ∧ 0 < last.stop.line ∧
      Text.IsPiece text first.start last.stop (s.extent.text scan text) := by
  obtain ⟨hstand, hspans⟩ := spans_of_readBlock h
  obtain ⟨hordered, ⟨_, hfirstToken, hfirstLayout⟩, ⟨_, hlastToken, hlastLayout⟩⟩ := hspans s hs
  obtain ⟨first, hfirst, -⟩ := exists_lexeme hfirstToken hfirstLayout
  obtain ⟨last, hlast, hlayout⟩ := exists_lexeme hlastToken hlastLayout
  obtain ⟨before, piece, hwithin, hstart, hstop, hsome, hends⟩ :=
    hstand.exists_piece (by omega) hfirst hlast hlayout
  have hlast' : (before ++ piece).getLast? ≠ some '\n' := by
    rwa [List.getLast?_append_of_ne_nil _ hsome]
  have hpiece := Text.isPiece_between hsome (Token.prefix_of_closeLastLine hwithin hlast') hstart hstop
  refine ⟨first, last, hfirst, hlast, hstart ▸ Place.line_pos _, hstop ▸ Place.line_pos _, ?_⟩
  rw [Extent.text, hfirst, hlast]
  exact hpiece

/-- Below some empty lines a statement is the same, as many lines further down. -/
theorem resolve_down {named : String → Option Char} {text : List Char} {body : List Stmt}
    {scan : Scan} (h : readBlock named text = .ok (body, scan)) {s : Stmt} (hs : s ∈ body) (count : Nat) :
    s.resolve (scan.down count) (List.replicate count '\n' ++ text) =
      { s.resolve scan text with line := (s.resolve scan text).line + count } := by
  obtain ⟨first, last, hfirst, hlast, hstart, hstop, -⟩ := exists_places h hs
  have hdown {index : Nat} {lexeme : Lexeme} (hlexeme : scan.lexemes[index]? = some lexeme) :
      (scan.down count).lexemes[index]? = some (lexeme.down count) := by
    rw [Scan.down, List.getElem?_map, hlexeme]
    rfl
  have hline : s.extent.line (scan.down count) = s.extent.line scan + count := by
    rw [Extent.line, Extent.line, hdown hfirst, hfirst]
    rfl
  have htext : s.extent.text (scan.down count) (List.replicate count '\n' ++ text) =
      s.extent.text scan text := by
    rw [Extent.text, Extent.text, hdown hfirst, hdown hlast, hfirst, hlast]
    exact Text.between_feeds count text hstart hstop
  rw [Stmt.resolve, Stmt.resolve, hline, htext]

end Grammar

namespace Block

/-- A text below some empty lines. -/
def below (count : Nat) (text : String) : String :=
  String.ofList (List.replicate count '\n' ++ text.toList)

/-- What a text comes to, and what it does below some empty lines: the same check set, the same error of
    a declaration further down, an error of syntax, or the same error of another kind. -/
inductive Lowers (count : Nat) : Except Fault CheckSet → Except Fault CheckSet → Prop
  | compiled (set : CheckSet) : Lowers count (.ok set) (.ok set)
  | refused (declaration : String) (reason : Reason) (line : Int) :
      Lowers count (.error (.compile ⟨declaration, reason, some line⟩))
        (.error (.compile ⟨declaration, reason, some (line + count)⟩))
  | unread (fault other : Grammar.SyntaxFault) :
      Lowers count (.error (.compile (syntaxError fault))) (.error (.compile (syntaxError other)))
  | raised (error : Raised) : Lowers count (.error (.raised error)) (.error (.raised error))

theorem lowers_compileBody {count : Nat} {own lower : List Statement}
    (h : List.Forall₂ (fun s t => t = { s with line := s.line + count }) own lower) (scope : Scope)
    (name : String) :
    Lowers count (compileBody scope name own) (compileBody scope name lower) := by
  have hform (s t : Statement) (hlower : t = { s with line := s.line + count }) : t.form = s.form := by
    rw [hlower]
  unfold compileBody compile
  rcases compileFrom_copies hform h scope [] with
    ⟨checks, hown, hbelow⟩ | ⟨s, t, reason, rfl, hown, hbelow⟩
  · rw [hown, hbelow]
    exact .compiled ⟨name, checks⟩
  · rw [hown, hbelow]
    change Lowers count (.error (Fault.ofCompile _)) (.error (Fault.ofCompile _))
    rcases ofCompile_errorAt reason with ⟨obstacle, hunprintable⟩ | hcompile
    · rw [hunprintable, hunprintable]
      exact .raised _
    · rw [hcompile, hcompile]
      exact .refused s.text reason s.line

theorem compileText_of_unread {scope : Scope} {text : String} {fault : Fault}
    (h : read scope.language.named? (remove text.toList) = .error fault) (name : String) :
    compileText scope name text = .error fault := by
  unfold compileText
  rw [h]
  rfl

/-- Below some empty lines a text comes to what it does by itself. -/
theorem lowers_compileText (scope : Scope) (name text : String) (count : Nat) :
    Lowers count (compileText scope name text) (compileText scope name (below count text)) := by
  have hremove : remove (below count text).toList =
      List.replicate count '\n' ++ remove text.toList := by
    rw [below, String.toList_ofList, Text.remove_feeds]
  have hunreadable : unreadable? (remove (below count text).toList) =
      unreadable? (remove text.toList) := by
    rw [hremove, unreadable?_feeds]
  cases hreadable : unreadable? (remove text.toList) with
  | some fault =>
    have hbelow := hunreadable.trans hreadable
    rw [compileText_of_unread (read_of_unreadable hreadable),
      compileText_of_unread (read_of_unreadable hbelow)]
    obtain ⟨error, rfl⟩ := raised_of_unreadable hreadable
    exact .raised error
  | none =>
  have hreadable' := hunreadable.trans hreadable
  cases hread : Grammar.readBlock scope.language.named? (remove text.toList) with
  | error fault =>
    cases hbelow : Grammar.readBlock scope.language.named? (remove (below count text).toList) with
    | error other =>
      rw [compileText_of_unread (read_of_fault hreadable hread),
        compileText_of_unread (read_of_fault hreadable' hbelow)]
      exact .unread fault other
    | ok found =>
      rw [hremove] at hbelow
      obtain ⟨scan, hown, -⟩ := (Grammar.readBlock_feeds_iff _ count _ found.1 found.2).mp hbelow
      cases hread.symm.trans hown
  | ok found =>
    obtain ⟨body, scan⟩ := found
    have hbelow := (Grammar.readBlock_feeds_iff _ count _ body _).mpr ⟨scan, hread, rfl⟩
    rw [← hremove] at hbelow
    rw [compileText_eq_compileBody scope (read_eq_ok_iff.mpr ⟨hreadable, body, scan, hread, rfl⟩),
      compileText_eq_compileBody scope (read_eq_ok_iff.mpr ⟨hreadable', body, _, hbelow, rfl⟩)]
    refine lowers_compileBody ?_ scope name
    rw [List.forall₂_map_left_iff, List.forall₂_map_right_iff, List.forall₂_same]
    intro s hs
    rw [hremove]
    exact Grammar.resolve_down hread hs count

/-- An error is about the first statement of a text that is refused: its line is the one on which this
    begins, and its declaration the piece of the text from there to the end of the statement. -/
def IsLocated (scope : Scope) (name : String) (source : List Char) (error : CompileError) : Prop :=
  ∃ body scan before s after, Grammar.readBlock scope.language.named? source = .ok (body, scan) ∧
    body = before ++ s :: after ∧
    (∃ set, compile scope name (before.map (Stmt.resolve scan source)) = .ok set) ∧
    compile scope name ((before ++ [s]).map (Stmt.resolve scan source)) = .error error ∧
    ∃ first last, scan.lexemes[s.extent.first]? = some first ∧
      scan.lexemes[s.extent.last - 1]? = some last ∧ error.line = some (first.start.line : Int) ∧
      Text.IsPiece source first.start last.stop error.declaration.toList

/-- A statement of a block is refused with this error, and none before it is. -/
def RefusedAt (scope : Scope) (done : List Check) (own : List Statement) (error : CompileError) : Prop :=
  ∃ before s after reason, own = before ++ s :: after ∧ error = errorAt s reason ∧
    (∃ checks, compileFrom scope done before = .ok checks) ∧
    compileFrom scope done (before ++ [s]) = .error error

section Refused

variable {scope : Scope} {done : List Check} {s : Statement} {own : List Statement}
  {error : CompileError}

theorem RefusedAt.here {reason : Reason} (herror : error = errorAt s reason)
    (hrefused : compileFrom scope done [s] = .error error) : RefusedAt scope done (s :: own) error :=
  ⟨[], s, own, reason, rfl, herror, ⟨done, rfl⟩, hrefused⟩

theorem RefusedAt.later {middle : List Check}
    (hstep : ∀ rest, compileFrom scope done (s :: rest) = compileFrom scope middle rest)
    (h : RefusedAt scope middle own error) : RefusedAt scope done (s :: own) error := by
  obtain ⟨before, refused, after, reason, rfl, herror, ⟨checks, hchecks⟩, hrefused⟩ := h
  refine ⟨s :: before, refused, after, reason, rfl, herror, ⟨checks, ?_⟩, ?_⟩
  · rw [hstep, hchecks]
  · rw [List.cons_append, hstep, hrefused]

/-- A block is refused at its first statement that is. -/
theorem refusedAt_of_compileFrom (h : compileFrom scope done own = .error error) :
    RefusedAt scope done own error := by
  induction own generalizing done with
  | nil => cases h
  | cons s own ih =>
    by_cases hignored : s.isIgnorable = true
    · have hstep (rest : List Statement) :
          compileFrom scope done (s :: rest) = compileFrom scope done rest := by
        rw [compileFrom, if_pos hignored]
      rw [hstep] at h
      exact .later hstep (ih h)
    cases hform : checkOfForm scope s.form with
    | error reason =>
      have hrefused (rest : List Statement) :
          compileFrom scope done (s :: rest) = .error (errorAt s reason) := by
        rw [compileFrom, if_neg hignored, hform]
      rw [hrefused] at h
      cases h
      exact .here rfl (hrefused [])
    | ok check =>
      by_cases hname : done.any (·.name == check.name) = true
      · have hrefused (rest : List Statement) :
            compileFrom scope done (s :: rest) = .error (errorAt s (.duplicateName check.name)) := by
          rw [compileFrom, if_neg hignored, hform]
          exact if_pos hname
        rw [hrefused] at h
        cases h
        exact .here rfl (hrefused [])
      · have hstep (rest : List Statement) :
            compileFrom scope done (s :: rest) = compileFrom scope (done ++ [check]) rest := by
          rw [compileFrom, if_neg hignored, hform]
          exact if_neg hname
        rw [hstep] at h
        exact .later hstep (ih h)

end Refused

theorem eq_of_ofCompile {error found : CompileError} (h : Fault.ofCompile error = .compile found) :
    error = found := by
  unfold Fault.ofCompile at h
  split at h
  · cases h
  · exact Fault.compile.inj h

theorem compile_eq_error_iff {scope : Scope} {name : String} {body : List Statement}
    {error : CompileError} :
    compile scope name body = .error error ↔ compileFrom scope [] body = .error error := by
  unfold compile
  cases compileFrom scope [] body with
  | error found => exact ⟨fun h => by cases h; rfl, fun h => by cases h; rfl⟩
  | ok checks => exact ⟨nofun, nofun⟩

/-- An error that a text cannot be read by is one of syntax. -/
theorem isSyntax_of_read {named : String → Option Char} {source : List Char} {error : CompileError}
    (h : read named source = .error (.compile error)) : ∃ fault, error.reason = .badSyntax fault := by
  cases hreadable : unreadable? source with
  | some fault =>
    obtain ⟨raised, rfl⟩ := raised_of_unreadable hreadable
    rw [read_of_unreadable hreadable] at h
    cases h
  | none =>
    cases hread : Grammar.readBlock named source with
    | error fault =>
      rw [read_of_fault hreadable hread] at h
      cases h
      exact ⟨fault.reason, rfl⟩
    | ok found =>
      rw [read_eq_ok_iff.mpr ⟨hreadable, found.1, found.2, hread, rfl⟩] at h
      cases h

/-- The error of a block that is read of a text is about a statement of it. -/
theorem isLocated_of_compile {scope : Scope} {name : String} {source : List Char} {body : List Stmt}
    {scan : Scan} (hread : Grammar.readBlock scope.language.named? source = .ok (body, scan)) {error : CompileError}
    (h : compile scope name (body.map (Stmt.resolve scan source)) = .error error) :
    IsLocated scope name source error := by
  obtain ⟨before, s, after, reason, hown, herror, ⟨checks, hchecks⟩, hrefused⟩ :=
    refusedAt_of_compileFrom (compile_eq_error_iff.mp h)
  obtain ⟨earlier, others, rfl, rfl, hothers⟩ := List.map_eq_append_iff.mp hown
  obtain ⟨stmt, later, rfl, rfl, -⟩ := List.map_eq_cons_iff.mp hothers
  obtain ⟨first, last, hfirst, hlast, -, -, hpiece⟩ :=
    Grammar.exists_places hread (List.mem_append_right _ List.mem_cons_self)
  refine ⟨_, scan, earlier, stmt, later, hread, rfl, ⟨⟨name, checks⟩, ?_⟩, ?_, first, last, hfirst, hlast,
    ?_, ?_⟩
  · rw [compile, hchecks]
    rfl
  · rw [compile_eq_error_iff, List.map_append]
    exact hrefused
  · rw [herror, errorAt, Stmt.resolve, Extent.line, hfirst]
    rfl
  · rw [herror, errorAt, Stmt.resolve, String.toList_ofList]
    exact hpiece

/-- Some empty lines in front of a text do not change what it is compiled to, and an error about a
    declaration keeps this and its reason and is as many lines further down. Such an error shows the piece
    of the text without its margin that begins on its line and ends where the first statement that is
    refused does. -/
theorem compileText_below (scope : Scope) (name text : String) :
    (∀ count, Lowers count (compileText scope name text)
      (compileText scope name (below count text))) ∧
    ∀ error, compileText scope name text = .error (.compile error) →
      (∀ fault, error.reason ≠ .badSyntax fault) →
        IsLocated scope name (remove text.toList) error := by
  refine ⟨lowers_compileText scope name text, fun error herror hreason => ?_⟩
  cases hread : read scope.language.named? (remove text.toList) with
  | error fault =>
    rw [compileText_of_unread hread] at herror
    cases herror
    obtain ⟨fault, hfault⟩ := isSyntax_of_read hread
    exact absurd hfault (hreason fault)
  | ok own =>
    rw [compileText_eq_compileBody scope hread, compileBody] at herror
    obtain ⟨-, body, scan, hblock, rfl⟩ := read_eq_ok_iff.mp hread
    cases hcompile : compile scope name (body.map (Stmt.resolve scan (remove text.toList))) with
    | ok set =>
      rw [hcompile] at herror
      cases herror
    | error found =>
      rw [hcompile] at herror
      obtain rfl := eq_of_ofCompile (Except.error.inj herror)
      exact isLocated_of_compile hblock hcompile

/-- Indented lines that end in two ways: a comment, a declaration, and on the same line one that goes on
    over the next and is refused; not all of it is ASCII. -/
def spreadRefusal : String :=
  "  # \u00e9\r\n  check('\u00e9', is_even(col('x'))); check('\u03bb',\r\n    is_odd(1)) # z\n"

theorem compileText_below_spread : ∃ error,
    compileText Scope.library "set" spreadRefusal = .error (.compile error) ∧
      (∀ fault, error.reason ≠ .badSyntax fault) ∧
      refusal? (.error (.compile error)) = some ("check('\u03bb',\r\n  is_odd(1))",
        "predicate argument '1' does not reference a column", some 2) ∧
      (∀ count, Lowers count (compileText Scope.library "set" spreadRefusal)
        (compileText Scope.library "set" (below count spreadRefusal))) ∧
      IsLocated Scope.library "set" (remove spreadRefusal.toList) error := by
  have hrefusal : refusal? (compileText Scope.library "set" spreadRefusal) =
      some ("check('\u03bb',\r\n  is_odd(1))",
        "predicate argument '1' does not reference a column", some 2) := by
    decide +kernel
  have hreads : refusesSyntax (compileText Scope.library "set" spreadRefusal) = false := by
    decide +kernel
  obtain ⟨hlowers, hlocated⟩ := compileText_below Scope.library "set" spreadRefusal
  cases h : compileText Scope.library "set" spreadRefusal with
  | ok set =>
    rw [h] at hrefusal
    cases hrefusal
  | error fault =>
    rw [h] at hrefusal hreads
    cases fault with
    | compile error =>
      have hreason (fault : Grammar.FaultReason) : error.reason ≠ .badSyntax fault := by
        intro hsyntax
        obtain ⟨declaration, reason, line⟩ := error
        obtain rfl : reason = .badSyntax fault := hsyntax
        cases hreads
      exact ⟨error, rfl, hreason, hrefusal, fun count => h ▸ hlowers count, hlocated error h hreason⟩
    | _ => cases hrefusal

end Block

end TableAudit
