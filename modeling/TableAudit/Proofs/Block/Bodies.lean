import TableAudit.Proofs.Block.Compiled
import TableAudit.Proofs.Block.Layout
import TableAudit.Proofs.Grammar.Definitions

namespace TableAudit

namespace Block

open Text (lines unlines closed)
open Text.Margin (clearBlank clearBlank_eq_self indentOf margin remove)
open Grammar (rules inputAt isIndent isNewline wholeBlock)

/-- The body of a function, where a text is the definition of that and nothing else. -/
def definedBody? (named : String → Option Char) (text : List Char) : Option (List Stmt × Scan) :=
  match Grammar.readDefinition named text with
  | .ok ([.function _ _ _ body], scan) => some (body, scan)
  | _ => none

/-- The lexemes before the first block of a text. -/
def headerLexemes (scan : Scan) : List Lexeme :=
  scan.lexemes.takeWhile fun lexeme => !isIndent lexeme.token

/-- The lexemes from the beginning of the first block on. -/
def blockLexemes (scan : Scan) : List Lexeme :=
  scan.lexemes.dropWhile fun lexeme => !isIndent lexeme.token

/-- The body of a function stands on the lines below its header: the header takes some lines, the
    first block begins after them, and no text in that goes over the end of a line. -/
def StandsBelow (count : Nat) (body : List Stmt) (scan : Scan) : Prop :=
  scan.fault = none ∧ blockLexemes scan ≠ [] ∧
    (∃ lineEnd ∈ (headerLexemes scan).getLast?,
      isNewline lineEnd.token = true ∧ lineEnd.start.line = count) ∧
    (∀ s ∈ body, count < s.extent.line scan) ∧
    ∀ lexeme ∈ blockLexemes scan, lexeme.token.isText = true → lexeme.stop.line = lexeme.start.line

theorem exists_split {count : Nat} {body : List Stmt} {scan : Scan} (h : StandsBelow count body scan) :
    ∃ before lineEnd indentation rest,
      scan = ⟨before ++ lineEnd :: indentation :: rest, none⟩ ∧
      (∀ lexeme ∈ before, lexeme.token ≠ .indent) ∧ lineEnd.token = .newline ∧
      lineEnd.start.line = count ∧ indentation.token = .indent ∧
      ∀ lexeme ∈ rest, lexeme.token.isText = true → lexeme.stop.line = lexeme.start.line := by
  obtain ⟨hfault, hblock, ⟨lineEnd, hlast, hnewline, hline⟩, -, hflat⟩ := h
  obtain ⟨indentation, rest, hrest⟩ := List.exists_cons_of_ne_nil hblock
  have hindent := List.head?_dropWhile_not (fun lexeme : Lexeme => !isIndent lexeme.token) scan.lexemes
  rw [show scan.lexemes.dropWhile _ = indentation :: rest from hrest] at hindent
  rw [hrest] at hflat
  obtain ⟨before, hbefore⟩ := List.getLast?_eq_some_iff.mp hlast
  have hall : headerLexemes scan ++ blockLexemes scan = scan.lexemes := List.takeWhile_append_dropWhile
  rw [hrest, hbefore, List.append_assoc] at hall
  refine ⟨before, lineEnd, indentation, rest, ?_, fun lexeme hmem htoken => ?_, ?_, hline, ?_,
    fun lexeme hmem => hflat lexeme (List.mem_cons_of_mem _ hmem)⟩
  · obtain ⟨lexemes, fault⟩ := scan
    obtain rfl : fault = none := hfault
    exact congrArg (Scan.mk · none) hall.symm
  · have hheader : lexeme ∈ headerLexemes scan := hbefore ▸ List.mem_append_left _ hmem
    have hnot := List.mem_takeWhile_imp hheader
    rw [htoken] at hnot
    cases hnot
  · cases htoken : lineEnd.token <;> rw [htoken] at hnewline <;> first | rfl | cases hnewline
  · cases htoken : indentation.token <;> simp [htoken, isIndent] at hindent
    rfl

theorem line_eq {lexemes : List Lexeme} {extent : Extent} {lexeme : Lexeme}
    (h : lexemes[extent.first]? = some lexeme) :
    extent.line ⟨lexemes, none⟩ = lexeme.start.line := by
  rw [Extent.line, h]
  rfl

section

variable {named : String → Option Char} {source first : List Char} {count : Nat} {body : List Stmt}
  {scan : Scan}

theorem mem_of_mem_bodyLines {c : Char} (hc : c ≠ '\n') (h : c ∈ unlines (bodyLines source count)) :
    c ∈ source := by
  obtain ⟨row, hrow, hmem⟩ := (Text.Margin.mem_unlines_iff hc _).mp h
  rw [← Text.unlines_lines source, Text.Margin.mem_unlines_iff hc]
  exact ⟨row, (List.drop_sublist _ _).mem hrow, hmem⟩

theorem readDefinition_of_definedBody (h : definedBody? named source = some (body, scan)) :
    ∃ extent decorated head,
      Grammar.readDefinition named source = .ok ([.function extent decorated head body], scan) := by
  unfold definedBody? at h
  split at h
  · next extent decorated head _ _ hread =>
    cases h
    exact ⟨extent, decorated, head, hread⟩
  · cases h

theorem tokens_of_lexemes {lexemes : List Lexeme} :
    (⟨lexemes, none⟩ : Scan).tokens = lexemes.map Lexeme.token ++ [.stop] :=
  rfl

/-- The places of copies are those of the lexemes, further down. -/
theorem getElem?_copies {own copies : List Lexeme}
    (h : List.Forall₂ (Token.Lexeme.Copy count) own copies) {index : Nat} (hindex : index < own.length) :
    ∃ lexeme copy, own[index]? = some lexeme ∧ copies[index]? = some copy ∧
      copy.start.line = lexeme.start.line + count := by
  have hindex' : index < copies.length := h.length_eq ▸ hindex
  refine ⟨own[index], copies[index], List.getElem?_eq_getElem hindex, List.getElem?_eq_getElem hindex', ?_⟩
  exact ((List.forall₂_iff_get.mp h).2 index hindex hindex').line

theorem map_token_copies {own copies : List Lexeme}
    (h : List.Forall₂ (Token.Lexeme.Copy count) own copies) :
    copies.map Lexeme.token = own.map Lexeme.token := by
  induction h with
  | nil => rfl
  | cons hcopy _ ih => rw [List.map_cons, List.map_cons, hcopy.token, ih]

section Lexemes

variable {before rest own copies : List Lexeme} {lineEnd indentation last : Lexeme}

/-- What begins below some lines is none of the lexemes on them. -/
theorem lt_first_of_lt_line {extent : Extent} (hbefore : ∀ lexeme ∈ before, lexeme.start.line ≤ count)
    (hline : lineEnd.start.line = count)
    (h : count < extent.line ⟨before ++ lineEnd :: rest, none⟩) : before.length < extent.first := by
  by_contra hle
  have hsome {lexeme : Lexeme} (hfound : (before ++ lineEnd :: rest)[extent.first]? = some lexeme)
      (hlexeme : lexeme.start.line ≤ count) : False := by
    rw [line_eq hfound] at h
    omega
  rcases Nat.lt_or_eq_of_le (Nat.le_of_not_lt hle) with hless | hequal
  · refine hsome ?_ (hbefore _ (List.getElem_mem hless))
    rw [List.getElem?_append_left hless, List.getElem?_eq_getElem hless]
  · refine hsome ?_ (Nat.le_of_eq hline)
    rw [hequal, List.getElem?_append_right (Nat.le_refl _), Nat.sub_self]
    rfl

/-- The line of a statement in a block below a header. -/
theorem line_of_copy (hcopies : List.Forall₂ (Token.Lexeme.Copy count) own copies)
    {s t : Stmt} (h : Grammar.Stmt.Copy (before.length + 2) own.length s t) :
    t.extent.line ⟨before ++ lineEnd :: indentation :: (copies ++ [last]), none⟩ =
      s.extent.line ⟨own, none⟩ + count := by
  obtain ⟨lexeme, copy, hlexeme, hcopy, hline⟩ := getElem?_copies hcopies h.bound
  have hindex : s.extent.first < copies.length := hcopies.length_eq ▸ h.bound
  have hfound : (before ++ lineEnd :: indentation :: (copies ++ [last]))[t.extent.first]? = some copy := by
    rw [h.first, List.getElem?_append_right (by omega),
      show before.length + 2 + s.extent.first - before.length = s.extent.first + 1 + 1 by omega,
      List.getElem?_cons_succ, List.getElem?_cons_succ, List.getElem?_append_left hindex, hcopy]
  rw [line_eq hfound, line_eq hlexeme, hline]

end Lexemes

/-- The lines of a body are read by themselves as they are read in the definition. -/
theorem exists_body (hblock : IsBlock source count first) (hreturn : '\r' ∉ source)
    (hdefined : definedBody? named (remove source) = some (body, scan))
    (hbelow : StandsBelow count body scan) :
    ∃ own ownScan,
      Grammar.readBlock named (remove (unlines (bodyLines source count))) = .ok (own, ownScan) ∧
      List.Forall₂ (fun s t => t.form = s.form ∧ t.extent.line scan = s.extent.line ownScan + count)
        own body := by
  obtain ⟨before, lineEnd, indentation, rest, rfl, hbefore, hnewline, hline, hindent, hflat⟩ :=
    exists_split hbelow
  obtain ⟨quiet, row, others, hown, hwhole, hlays, hquiet, hbegins⟩ := hblock.exists_rows
  have hreturn' : '\r' ∉ remove source := by
    rwa [Text.Margin.mem_remove_iff (by decide) (by decide)]
  have hreturn'' : '\r' ∉ remove (unlines (bodyLines source count)) := by
    rw [Text.Margin.mem_remove_iff (by decide) (by decide)]
    exact fun h => hreturn (mem_of_mem_bodyLines (by decide) h)
  obtain ⟨extent, decorated, head, hread⟩ := readDefinition_of_definedBody hdefined
  rw [Grammar.readDefinition, Token.normalizeLineEnds_eq_self hreturn', hwhole,
    Grammar.readTextAt_eq_ok_iff] at hread
  obtain ⟨hscan, ended, hrun⟩ := hread
  have hlength := hblock.length_headerRows
  obtain ⟨⟨lexemes, hlexemes, hcopy⟩, hearlier⟩ := Token.scan_block
    IsBlock.isIndent_of_mem_blockBlanks rfl (IsBlock.feed_not_mem_headerRows source count) hlays hquiet
    hbegins hscan.symm hbefore hnewline (hline.trans hlength.symm) hindent hflat
  rw [hlength] at hcopy hearlier
  obtain ⟨copies, last, rfl, hlast, hcopies⟩ := hcopy.copied
  have htokens : Scan.tokens ⟨before ++ lineEnd :: indentation :: (copies ++ [last]), none⟩ =
      before.map Lexeme.token ++ .newline :: .indent :: (lexemes.map Lexeme.token ++ [.dedent]) ++
        [.stop] := by
    rw [tokens_of_lexemes, List.map_append, List.map_cons, List.map_cons, List.map_append,
      List.map_singleton, hnewline, hindent, hlast, map_token_copies hcopies]
  have hheader : .indent ∉ before.map Lexeme.token := by
    rintro hmem
    obtain ⟨lexeme, hlexeme, htoken⟩ := List.mem_map.mp hmem
    exact hbefore lexeme hlexeme htoken
  have hstop : .stop ∉ lexemes.map Lexeme.token := by
    rintro hmem
    obtain ⟨lexeme, hlexeme, htoken⟩ := List.mem_map.mp hmem
    have hnone := Token.ne_stop_of_scan (closed (quiet ++ row :: others))
    rw [hlexemes] at hnone
    exact hnone lexeme hlexeme htoken
  have hfirst : ∀ s ∈ body, (before.map Lexeme.token).length < s.extent.first := fun s hs => by
    rw [List.length_map]
    exact lt_first_of_lt_line hearlier hline (hbelow.2.2.2.1 s hs)
  rw [htokens] at hrun
  obtain ⟨own, ended', hread, hcopied⟩ := Grammar.wholeBlock_of_definition rfl hheader
    (hcopy.unwinds.closes_block hheader) hcopy.unwinds.closes hcopy.unwinds.balanced hstop hrun hfirst
  refine ⟨own, ⟨lexemes, none⟩, ?_, hcopied.imp fun s t h => ⟨h.form, ?_⟩⟩
  · rw [Grammar.readBlock, Grammar.readText, Token.normalizeLineEnds_eq_self hreturn'', hown,
      Grammar.readTextAt_eq_ok_iff]
    exact ⟨hlexemes.symm, ended', hread⟩
  · rw [List.length_map, List.length_map] at h
    exact line_of_copy hcopies h

/-- A statement of a body by itself, and the one in the definition. -/
structure Statement.Copy (count : Nat) (own copy : Statement) : Prop where
  form : copy.form = own.form
  line : copy.line = own.line + count

/-- Statements with the same contents are compiled to the same checks, or refused for the same reason at
    the same statement. -/
theorem compileFrom_copies {alike : Statement → Statement → Prop}
    (hform : ∀ s t, alike s t → t.form = s.form) {own copies : List Statement}
    (h : List.Forall₂ alike own copies) (scope : Scope) (done : List Check) :
    (∃ checks, compileFrom scope done own = .ok checks ∧ compileFrom scope done copies = .ok checks) ∨
      ∃ s t reason, alike s t ∧
        compileFrom scope done own = .error (errorAt s reason) ∧
        compileFrom scope done copies = .error (errorAt t reason) := by
  induction h generalizing done with
  | nil => exact .inl ⟨done, rfl, rfl⟩
  | @cons s t own copies hcopy _ ih =>
    have hignored : t.isIgnorable = s.isIgnorable := by
      rw [Statement.isIgnorable, Statement.isIgnorable, hform s t hcopy]
    rw [compileFrom, compileFrom, hignored, hform s t hcopy]
    split
    · exact ih done
    · cases checkOfForm scope s.form with
      | error reason => exact .inr ⟨s, t, reason, hcopy, rfl, rfl⟩
      | ok check =>
        dsimp only
        split
        · exact .inr ⟨s, t, _, hcopy, rfl, rfl⟩
        · exact ih _

/-- What a function and the text of its body come to: the same check set, or errors of compilation
    for the same reason, the one of the function some lines further down, or the error of a call that
    cannot be printed. -/
inductive Agree (count : Nat) : Except Fault CheckSet → Except Fault CheckSet → Prop
  | compiled (set : CheckSet) : Agree count (.ok set) (.ok set)
  | unprintable (obstacle : Expr.Obstacle) :
      Agree count (.error (.unprintable obstacle)) (.error (.unprintable obstacle))
  | refused {error other : CompileError} {line : Int} (hreason : error.reason = other.reason)
      (hother : other.line = some line) (hline : error.line = some (line + count)) :
      Agree count (.error (.compile error)) (.error (.compile other))

/-- Compiling a block, with its error as one of compilation. -/
def compileBody (scope : Scope) (name : String) (body : List Statement) : Except Fault CheckSet :=
  match compile scope name body with
  | .ok set => .ok set
  | .error error => .error (.ofCompile error)

/-- Whether an error can be printed depends on its reason alone. -/
theorem ofCompile_errorAt (reason : Reason) :
    (∃ obstacle, ∀ s, Fault.ofCompile (errorAt s reason) = .unprintable obstacle) ∨
      ∀ s, Fault.ofCompile (errorAt s reason) = .compile (errorAt s reason) := by
  cases reason with
  | argumentWithoutText obstacle => exact .inl ⟨obstacle, fun _ => rfl⟩
  | _ => exact .inr fun _ => rfl

/-- A text is compiled as the statements that are read of it without its margin. -/
theorem compileText_eq_compileBody (scope : Scope) {text : String} {body : List Statement}
    (h : read scope.language.named? (remove text.toList) = .ok body) (name : String) :
    compileText scope name text = compileBody scope name body := by
  unfold compileText compileBody
  rw [h]
  dsimp only [bind, Except.bind]
  cases compile scope name body <;> rfl

theorem agree_of_copies {own copies : List Statement}
    (h : List.Forall₂ (Statement.Copy count) own copies) (scope : Scope) (name : String) :
    Agree count (compileBody scope name copies) (compileBody scope name own) := by
  unfold compileBody compile
  rcases compileFrom_copies (fun _ _ hcopy => hcopy.form) h scope [] with
    ⟨checks, hown, hcopies⟩ | ⟨s, t, reason, hcopy, hown, hcopies⟩
  · rw [hown, hcopies]
    exact .compiled ⟨name, checks⟩
  · rw [hown, hcopies]
    have hline : (errorAt t reason).line = some ((s.line : Int) + count) := by
      rw [errorAt, hcopy.line]
      rfl
    change Agree count (.error (Fault.ofCompile _)) (.error (Fault.ofCompile _))
    rcases ofCompile_errorAt reason with ⟨obstacle, hunprintable⟩ | hcompile
    · rw [hunprintable, hunprintable]
      exact .unprintable obstacle
    · rw [hcompile, hcompile]
      exact .refused rfl rfl hline

/-- The text of the body of a function, from the line after its header on. -/
def bodyText (source : String) (count : Nat) : String :=
  String.ofList (unlines (bodyLines source.toList count))

/-- The line on which a definition begins, with its first decorator or with its header. -/
def firstLine (source : List Char) : List Char :=
  (lines source).headD []

/-- The lines of a definition, decorators, comments and continued lines of the header among them, begin
    with the indentation of its first line unless they are blank. -/
structure IsAligned (source : List Char) : Prop where
  begins : clearBlank (firstLine source) ≠ []
  aligned : ∀ line ∈ lines source, clearBlank line ≠ [] → indentOf (firstLine source) <+: line

/-- The lines of a definition, without the indentation of its first line. -/
def unindented (source : List Char) : List Char :=
  unlines ((lines source).map fun line =>
    (clearBlank line).drop (indentOf (firstLine source)).length)

/-- Where all lines of a definition are indented as its first one, that is their margin. -/
theorem IsAligned.remove_eq (h : IsAligned source) : remove source = unindented source := by
  have hfirst := clearBlank_eq_self h.begins
  have hmem : firstLine source ∈ (lines source).map clearBlank := by
    have hhead : firstLine source ∈ lines source := by
      obtain ⟨line, rest, hlines⟩ := List.exists_cons_of_ne_nil (Text.lines_ne_nil source)
      rw [firstLine, hlines]
      exact List.mem_cons_self
    exact hfirst ▸ List.mem_map_of_mem hhead
  have hmargin : margin ((lines source).map clearBlank) = indentOf (firstLine source) := by
    refine Text.Margin.margin_eq_indentOf hmem (hfirst ▸ h.begins) fun other hother hne => ?_
    obtain ⟨line, hline, rfl⟩ := List.mem_map.mp hother
    obtain ⟨rest, hrest⟩ := h.aligned line hline hne
    have hindent : indentOf (indentOf (firstLine source) ++ rest) =
        indentOf (firstLine source) ++ indentOf rest :=
      List.takeWhile_append_of_pos isIndent_of_mem_indentOf
    rw [clearBlank_eq_self hne, ← hrest, hindent]
    exact List.prefix_append _ _
  rw [remove, unindented]
  simp only [hmargin, List.map_map]
  rfl

/-- A function whose definition takes the lines that are given, the first of them for its header and
    the others for its body, which is a block of lines: without the indentation of the first line, the
    lines are the definition of a function and nothing else. -/
structure HasBody (named : String → Option Char) (source : List Char) (count : Nat) : Prop where
  visible : '\r' ∉ source ∧ ∀ c ∈ source, ¬ IsBarred c
  lines : IsAligned source
  defined : ∃ found ∈ definedBody? named (unindented source), StandsBelow count found.1 found.2
  block : ∃ first, IsBlock source count first

/-- The statements of the body of a function, as a text and in its definition. -/
theorem HasBody.exists_statements {d : Definition} {text : String} (hsource : d.source = some text)
    (h : HasBody d.globals.language.named? text.toList count) :
    ∃ own copies, read d.globals.language.named? (remove (bodyText text count).toList) = .ok own ∧
      d.body = .ok copies ∧ List.Forall₂ (Statement.Copy count) own copies := by
  obtain ⟨⟨hreturn, hvisible⟩, hlines, ⟨⟨body, scan⟩, hdefined, hbelow⟩, ⟨first, hblock⟩⟩ := h
  rw [← hlines.remove_eq] at hdefined
  obtain ⟨own, ownScan, hread, hbodies⟩ := exists_body hblock hreturn hdefined hbelow
  obtain ⟨extent, decorated, head, hdefinition⟩ := readDefinition_of_definedBody hdefined
  have hown : unreadable? (remove (unlines (bodyLines text.toList count))) = none := by
    rw [unreadable?_remove, unreadable?_eq_none_iff]
    exact fun c hc hbarred => hvisible c (mem_of_mem_bodyLines hbarred.ne_feed hc) hbarred
  have hwhole : unreadable? (remove text.toList) = none := by
    rw [unreadable?_remove, unreadable?_eq_none_iff]
    exact hvisible
  refine ⟨own.map (Stmt.resolve ownScan (remove (unlines (bodyLines text.toList count)))),
    body.map (Stmt.resolve scan (remove text.toList)), ?_, ?_, ?_⟩
  · rw [bodyText, String.toList_ofList]
    exact read_eq_ok_iff.mpr ⟨hown, own, ownScan, hread, rfl⟩
  · rw [Definition.body, hsource]
    dsimp only
    rw [hwhole, hdefinition]
    rfl
  · rw [List.forall₂_map_left_iff, List.forall₂_map_right_iff]
    exact hbodies.imp fun s t hcopy => ⟨hcopy.1, hcopy.2⟩

/-- A function and the text of its body declare the same checks among the same variables. -/
theorem Definition.compile_agrees_text {d : Definition} {text : String}
    {captured : List (String × Value)} (hsource : d.source = some text)
    (hbody : HasBody d.globals.language.named? text.toList count)
    (hcells : filled d.captured = .ok captured) (name : String) :
    Agree count (d.compile name) (compileText (d.globals ++ captured) name (bodyText text count)) := by
  obtain ⟨own, copies, hread, hcopies, hall⟩ := hbody.exists_statements hsource
  have hfunction : d.compile name = compileBody (d.globals ++ captured) name copies := by
    have hscope : d.scope = .ok (d.globals ++ captured) := by
      rw [Definition.scope, hcells]
      rfl
    unfold Definition.compile compileBody
    rw [hcopies, hscope]
    change (match Block.compile (d.globals ++ captured) name copies with
      | .ok set => pure set
      | .error error => throw (Fault.ofCompile error)) = _
    cases Block.compile (d.globals ++ captured) name copies <;> rfl
  have htext : compileText (d.globals ++ captured) name (bodyText text count) =
      compileBody (d.globals ++ captured) name own :=
    compileText_eq_compileBody (d.globals ++ captured) hread name
  rw [hfunction, htext]
  exact agree_of_copies hall (d.globals ++ captured) name

instance (indentation : List Char) (wide : Nat) (line : List Char) :
    Decidable (LineOf indentation wide line) :=
  inferInstanceAs (Decidable (_ ∧ _ ∧ _ ∧ _))

instance (count : Nat) (body : List Stmt) (scan : Scan) : Decidable (StandsBelow count body scan) :=
  inferInstanceAs (Decidable (_ ∧ _ ∧ _ ∧ _ ∧ _))

/-- A function within another one, with a comment and a declaration on two lines. -/
def nestedText : String :=
  "  async def f():\n    # one\n    check(\"a\", is_even(\n      col(\"x\")))\n"

theorem Definition.compile_agrees_text_nested :
    Agree 1 (Definition.compile ⟨"f", some nestedText, Scope.library, [("z", some .null)]⟩ "set")
      (compileText (Scope.library ++ [("z", Value.null)]) "set" (bodyText nestedText 1)) := by
  have hbody : HasBody Scope.library.language.named? nestedText.toList 1 := by
    have hvisible : ∀ c ∈ nestedText.toList, ¬ IsBarred c :=
      unreadable?_eq_none_iff.mp (by decide +kernel)
    refine ⟨⟨by decide +kernel, hvisible⟩, ⟨by decide +kernel, by decide +kernel⟩, by decide +kernel,
      "    check(\"a\", is_even(".toList, ?_, ?_⟩ <;> decide +kernel
  exact Definition.compile_agrees_text rfl hbody rfl "set"

/-- A result that is an error of syntax. -/
def refusesSyntax : Except Fault CheckSet → Bool
  | .error (.compile ⟨_, .badSyntax _, _⟩) => true
  | _ => false

theorem Agree.refusesSyntax_eq {first second : Except Fault CheckSet} (h : Agree count first second) :
    refusesSyntax first = refusesSyntax second := by
  cases h with
  | compiled => rfl
  | unprintable obstacle => rfl
  | @refused error other line hreason hother hline =>
    obtain ⟨declaration, reason, place⟩ := error
    obtain ⟨declaration', reason', place'⟩ := other
    obtain rfl : reason = reason' := hreason
    cases reason <;> rfl

/-- A function whose body begins with the indentation of its first line on every line, and yet comes
    to something else than the text of its body. -/
def Differs (text : String) : Prop :=
  (∃ found ∈ definedBody? Scope.library.language.named? (remove text.toList), StandsBelow 1 found.1 found.2) ∧
    (∀ line ∈ bodyLines text.toList 1, clearBlank line ≠ [] →
      indentOf ((bodyLines text.toList 1).headD []) <+: line) ∧
    ¬ Agree 1 (Definition.compile ⟨"f", some text, Scope.library, []⟩ "set")
      (compileText Scope.library "set" (bodyText text 1))

/-- A comment to the left of all code. -/
def outdentedComment : String :=
  "def f():\n# a\n  check(\"a\", is_even(col(\"x\")))\n"

/-- A line that is continued before its text begins. -/
def continuedMargin : String :=
  "def f():\n  \\\n    check(\"a\", is_even(col(\"x\")))\n"

/-- A form feed, after which a line begins anew. -/
def formFeed : String :=
  "def f():\n  check(\"a\", is_even(col(\"x\")))\n  \x0c  pass\n"

/-- Tabs that go to the same column below a header, and to different ones without it. -/
def unevenTabs : String :=
  "def f():\n  if True:\n        \tpass\n       \t\tpass\n"

theorem differs_of_refusal {text : String}
    (hdefined : ∃ found ∈ definedBody? Scope.library.language.named? (remove text.toList),
      StandsBelow 1 found.1 found.2)
    (hlines : ∀ line ∈ bodyLines text.toList 1, clearBlank line ≠ [] →
      indentOf ((bodyLines text.toList 1).headD []) <+: line)
    (hfunction : refusesSyntax (Definition.compile ⟨"f", some text, Scope.library, []⟩ "set") = false)
    (htext : refusesSyntax (compileText Scope.library "set" (bodyText text 1)) = true) :
    Differs text := by
  refine ⟨hdefined, hlines, fun hagree => ?_⟩
  have hsame := hagree.refusesSyntax_eq
  rw [hfunction, htext] at hsame
  cases hsame

/-- A function of a class whose body begins with the indentation of its first line on every line, and
    yet comes to something else than the text of its body. -/
def DiffersInClass (text : String) (count : Nat) : Prop :=
  (Grammar.readBlock Scope.library.language.named? ("class C:\n" ++ text).toList).isOk = true ∧
    (∀ line ∈ bodyLines text.toList count, clearBlank line ≠ [] →
      indentOf ((bodyLines text.toList count).headD []) <+: line) ∧
    ¬ Agree count (Definition.compile ⟨"f", some text, Scope.library, []⟩ "set")
      (compileText Scope.library "set" (bodyText text count))

/-- A comment to the left of a decorator and of the header behind it. -/
def outdentedHeader : String :=
  "  @d\n# c\n  def f():\n    check(\"a\", is_even(col(\"x\")))\n"

/-- A header that goes on to the left of where it begins. -/
def outdentedParameters : String :=
  "  def f(\n):\n    check(\"a\", is_even(col(\"x\")))\n"

theorem differsInClass_of_refusal {text : String} {count : Nat}
    (hread : (Grammar.readBlock Scope.library.language.named? ("class C:\n" ++ text).toList).isOk = true)
    (hlines : ∀ line ∈ bodyLines text.toList count, clearBlank line ≠ [] →
      indentOf ((bodyLines text.toList count).headD []) <+: line)
    (hfunction : refusesSyntax (Definition.compile ⟨"f", some text, Scope.library, []⟩ "set") = true)
    (htext : refusesSyntax (compileText Scope.library "set" (bodyText text count)) = false) :
    DiffersInClass text count := by
  refine ⟨hread, hlines, fun hagree => ?_⟩
  have hsame := hagree.refusesSyntax_eq
  rw [hfunction, htext] at hsame
  cases hsame

/-- The indentation that the first line of a body has, and every other with it, does not suffice for
    the two forms to agree; nor does it where the lines of the header are not indented as the first. -/
theorem Definition.compile_differs_from_text :
    Differs outdentedComment ∧ Differs continuedMargin ∧ Differs formFeed ∧ Differs unevenTabs ∧
      DiffersInClass outdentedHeader 3 ∧ DiffersInClass outdentedParameters 2 := by
  refine ⟨differs_of_refusal ?_ ?_ ?_ ?_, differs_of_refusal ?_ ?_ ?_ ?_, differs_of_refusal ?_ ?_ ?_ ?_,
    differs_of_refusal ?_ ?_ ?_ ?_, differsInClass_of_refusal ?_ ?_ ?_ ?_,
    differsInClass_of_refusal ?_ ?_ ?_ ?_⟩ <;> decide +kernel

end

end Block

end TableAudit
