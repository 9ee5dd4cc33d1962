import TableAudit.Proofs.Token.Indented

namespace TableAudit

open Text (continued closed indented columns)
open Text.Margin (isIndent)
open Grammar (Unwinds isEdge)

namespace Token

/-- A state in which nothing is left of the text gives nothing more. -/
theorem Scanner.Run.of_spent {s : Scanner} {lexemes : List Lexeme} (h : s.Run lexemes)
    (hstart : s.atLineStart = false) (hspent : s.rest = []) : lexemes = [] ∧ s.brackets = [] := by
  have hskip : s.skipBlanks.rest = [] := by
    change s.rest.dropWhile isSpace = []
    rw [hspent]
    rfl
  cases h with
  | done h => exact ⟨rfl, h.brackets⟩
  | step hstep _ =>
    cases hstep with
    | blankLine h => exact absurd (hstart.symm.trans h) Bool.false_ne_true
    | line h => exact absurd (hstart.symm.trans h) Bool.false_ne_true
    | innerLine h => exact absurd (hstart.symm.trans h) Bool.false_ne_true
    | comment _ h => exact absurd (hskip.symm.trans h) (List.cons_ne_nil _ _).symm
    | lineEnd _ h => exact absurd (hskip.symm.trans h) (List.cons_ne_nil _ _).symm
    | innerLineEnd _ h => exact absurd (hskip.symm.trans h) (List.cons_ne_nil _ _).symm
    | continuation _ h => exact absurd (hskip.symm.trans h) (List.cons_ne_nil _ _).symm
    | token _ h => exact absurd (hskip.symm.trans h) (List.cons_ne_nil _ _).symm

/-- What a step at the beginning of a line does is decided by the margin. -/
theorem Scanner.Step.of_margin {s after : Scanner} {lexemes : List Lexeme} {margin : Margin}
    (h : s.Step lexemes after) (hstart : s.atLineStart = true)
    (hmargin : measure 0 0 none s.rest = .ok margin) :
    isBlankLine margin.rest = true ∧ lexemes = [] ∧ after = (s.enter margin).skipLine ∨
    isBlankLine margin.rest = false ∧ s.brackets ≠ [] ∧ lexemes = [] ∧ after = s.enter margin ∨
    isBlankLine margin.rest = false ∧ s.brackets = [] ∧ ∃ tokens indents,
      layout (margin.fixed.getD (margin.width, margin.narrow)).1
        (margin.fixed.getD (margin.width, margin.narrow)).2 s.indents = some (tokens, indents) ∧
      lexemes = tokens.map (layoutAt (s.enter margin)) ∧
      after = { s.enter margin with indents } := by
  cases h with
  | blankLine _ hmargin' hblank =>
    cases hmargin.symm.trans hmargin'
    exact .inl ⟨hblank, rfl, rfl⟩
  | line _ hmargin' hblank hbrackets hlayout =>
    cases hmargin.symm.trans hmargin'
    exact .inr (.inr ⟨hblank, hbrackets, _, _, hlayout, rfl, rfl⟩)
  | innerLine _ hmargin' hblank hbrackets =>
    cases hmargin.symm.trans hmargin'
    exact .inr (.inl ⟨hblank, hbrackets, rfl, rfl⟩)
  | comment h => exact absurd (h.symm.trans hstart) Bool.false_ne_true
  | lineEnd h => exact absurd (h.symm.trans hstart) Bool.false_ne_true
  | innerLineEnd h => exact absurd (h.symm.trans hstart) Bool.false_ne_true
  | continuation h => exact absurd (h.symm.trans hstart) Bool.false_ne_true
  | token h => exact absurd (h.symm.trans hstart) Bool.false_ne_true

/-- A run from the beginning of a line at the end of the text leaves all blocks. -/
theorem Scanner.Run.of_end {s : Scanner} {lexemes : List Lexeme} (h : s.Run lexemes)
    (hstart : s.atLineStart = true) (hspent : s.rest = []) (hgrounded : Grounded s.indents) :
    s.brackets = [] ∧
      lexemes = (List.replicate (s.indents.length - 1) dedent).map (layoutAt (s.advance [] [])) := by
  have hmargin : measure 0 0 none s.rest = .ok ⟨0, 0, none, [], []⟩ := by
    rw [hspent]
    rfl
  cases h with
  | done h => exact absurd (h.start.symm.trans hstart) Bool.false_ne_true
  | @step _ after lexemes more hstep hrest =>
    rcases hstep.of_margin hstart hmargin with ⟨hblank, -⟩ | ⟨-, hbrackets, -, rfl⟩ |
      ⟨-, hbrackets, tokens, indents, hlayout, rfl, rfl⟩
    · cases hblank
    · exact absurd (hrest.of_spent rfl rfl).2 hbrackets
    · cases (layout_end hgrounded).symm.trans hlayout
      rw [(hrest.of_spent rfl rfl).1, List.append_nil]
      exact ⟨hbrackets, rfl⟩

/-- At the end of the text a scan outside brackets leaves all blocks. -/
theorem Scanner.run_of_end {s : Scanner} (hstart : s.atLineStart = true) (hspent : s.rest = [])
    (hbrackets : s.brackets = []) (hgrounded : Grounded s.indents) :
    s.Run ((List.replicate (s.indents.length - 1) dedent).map (layoutAt (s.advance [] []))) := by
  have hmargin : measure 0 0 none s.rest = .ok ⟨0, 0, none, [], []⟩ := by
    rw [hspent]
    rfl
  rw [← List.append_nil (List.map _ _)]
  exact .step (.line hstart hmargin rfl hbrackets (layout_end hgrounded)) (.done ⟨rfl, rfl, hbrackets⟩)

/-- Two scanners at one place of a block, whose lines stand further down and further to the right in
    the second text. -/
inductive Aligned (count wide slim : Nat) (blanks : List Char) : Scanner → Scanner → Prop
  | start {rows : List (List Char)} {s t : Scanner} (h : Scanner.Abreast count blanks rows s t)
      (hrows : ∀ row ∈ rows, Lays wide row) (hindents : t.indents = deeper wide slim s.indents)
      (hgrounded : Grounded s.indents) : Aligned count wide slim blanks s t
  | inLine {line : List Char} {rows : List (List Char)} {s t : Scanner}
      (h : Scanner.Alongside count line (closed rows) (closed (rows.map (indented blanks)))
        s.skipBlanks t.skipBlanks)
      (hstart : s.atLineStart = false) (hstart' : t.atLineStart = false)
      (hrows : ∀ row ∈ rows, Lays wide row) (hindents : t.indents = deeper wide slim s.indents)
      (hgrounded : Grounded s.indents) : Aligned count wide slim blanks s t

/-- The step of the first scanner that belongs to a step of the second. -/
structure Aligned.Follows (count wide slim : Nat) (blanks : List Char) (s : Scanner) (own : List Lexeme)
    (reached : Scanner) (lexemes : List Lexeme) (after : Scanner) : Prop where
  step : s.Step own reached
  aligned : Aligned count wide slim blanks reached after
  copies : List.Forall₂ (Lexeme.Copy count) own lexemes
  unwinds : ∀ more, Unwinds reached.indents.length more →
    Unwinds s.indents.length (own.map Lexeme.token ++ more)

section

variable {count wide slim : Nat} {blanks line : List Char} {rows : List (List Char)}
  {s t after : Scanner} {lexemes : List Lexeme}

theorem isEdge_of_isLayout {token : Token} (h : token.isLayout = false) : isEdge token = false := by
  cases token <;> first | rfl | cases h

/-- Tokens of the layout, each at its own place. -/
theorem copies_layoutAt (h : t.place.line = s.place.line + count) (tokens : List Token) :
    List.Forall₂ (Lexeme.Copy count) (tokens.map (layoutAt s)) (tokens.map (layoutAt t)) := by
  rw [List.forall₂_map_left_iff, List.forall₂_map_right_iff]
  exact List.forall₂_same.mpr fun _ _ => ⟨rfl, h⟩

theorem columns_indented (hblanks : ∀ b ∈ blanks, isIndent b = true)
    (hcolumns : columns (0, 0) blanks = (wide, slim)) {row : List Char} (hlays : Lays wide row)
    (hrow : row ≠ []) : columns (0, 0) ((indented blanks row).takeWhile isSpace) =
      (wide + (columns (0, 0) (row.takeWhile isSpace)).1,
        slim + (columns (0, 0) (row.takeWhile isSpace)).2) := by
  rw [IsRow.takeWhile_indented hblanks hrow, Text.columns_append, hcolumns]
  exact (Text.columns_add hlays.tabs : columns (wide + 0, slim + 0) _ = _)

theorem isBlankLine_continued (line more other : List Char) :
    isBlankLine (continued line more) = isBlankLine (continued line other) := by
  cases line <;> rfl

/-- Scanners in the same line, each in blocks of its own. -/
theorem Scanner.Alongside.inBlocks {more other : List Char}
    (h : Scanner.Alongside count line more other s t) (inner outer : List (Nat × Nat)) :
    Scanner.Alongside count line more other { s with indents := inner } { t with indents := outer } :=
  ⟨h.first, h.second, h.inLine, h.place, h.brackets⟩

/-- At the beginning of a line. -/
theorem Aligned.step_start {row : List Char} (hblanks : ∀ b ∈ blanks, isIndent b = true)
    (hcolumns : columns (0, 0) blanks = (wide, slim))
    (h : Scanner.Abreast count blanks (row :: rows) s t) (hrows : ∀ one ∈ row :: rows, Lays wide one)
    (hindents : t.indents = deeper wide slim s.indents) (hgrounded : Grounded s.indents)
    (hstep : t.Step lexemes after) :
    ∃ own reached, Follows count wide slim blanks s own reached lexemes after := by
  rw [List.forall_mem_cons] at hrows
  obtain ⟨hrow, hrows⟩ := hrows
  obtain ⟨hmargin, hmargin', henter⟩ := h.enter hrow.toIsRow hblanks
  have hsame : isBlankLine (IsRow.margin (indented blanks row) (closed (rows.map (indented blanks)))).rest =
      isBlankLine (IsRow.margin row (closed rows)).rest := by
    change isBlankLine (continued ((indented blanks row).dropWhile isSpace) _) = _
    rw [IsRow.dropWhile_indented hblanks]
    exact isBlankLine_continued _ _ _
  have hinner {inner : List (Nat × Nat)} (hinner : Grounded inner) :
      Aligned count wide slim blanks { s.enter (IsRow.margin row (closed rows)) with indents := inner }
        { t.enter (IsRow.margin (indented blanks row) (closed (rows.map (indented blanks)))) with
          indents := deeper wide slim inner } :=
    .inLine (henter.inBlocks _ _).skipBlanks rfl rfl hrows rfl hinner
  rcases hstep.of_margin h.starts' hmargin' with ⟨hblank, rfl, rfl⟩ | ⟨hblank, hbrackets, rfl, rfl⟩ |
    ⟨hblank, hbrackets, tokens, indents, hlayout, rfl, rfl⟩
  · rw [hsame] at hblank
    refine ⟨[], _, .blankLine h.starts hmargin hblank, .start henter.skipLine hrows ?_ ?_, .nil, ?_⟩
    · rw [Scanner.skipLine_indents, Scanner.skipLine_indents]
      exact hindents
    · rw [Scanner.skipLine_indents]
      exact hgrounded
    · rw [Scanner.skipLine_indents]
      exact fun _ hmore => hmore
  · rw [hsame] at hblank
    have hopen : s.brackets ≠ [] := by
      rintro hnone
      rw [h.brackets, hnone] at hbrackets
      exact hbrackets rfl
    have hdeeper := hinner hgrounded
    rw [← hindents] at hdeeper
    exact ⟨[], _, .innerLine h.starts hmargin hblank hopen, hdeeper, .nil, fun _ hmore => hmore⟩
  · rw [hsame] at hblank
    have hclosed : s.brackets = [] := by
      rw [h.brackets] at hbrackets
      exact List.map_eq_nil_iff.mp hbrackets
    have hne : row ≠ [] := by
      rintro rfl
      cases hblank
    change layout (columns (0, 0) ((indented blanks row).takeWhile isSpace)).1
      (columns (0, 0) ((indented blanks row).takeWhile isSpace)).2 t.indents = _ at hlayout
    rw [columns_indented hblanks hcolumns hrow hne, hindents] at hlayout
    obtain ⟨inner, hown, rfl, hgrounded', hunwinds⟩ := layout_deeper hgrounded hlayout
    refine ⟨_, _, .line h.starts hmargin hblank hclosed hown, hinner hgrounded',
      copies_layoutAt henter.place tokens, fun more hmore => ?_⟩
    have htokens : (tokens.map (layoutAt (s.enter (IsRow.margin row (closed rows))))).map Lexeme.token =
        tokens := by
      rw [List.map_map]
      exact List.map_id _
    rw [htokens]
    exact hunwinds more hmore

theorem eq_nil_of_continued {more rest : List Char} (hline : '\n' ∉ line)
    (h : continued line more = '\n' :: rest) : line = [] ∧ more = rest := by
  cases line with
  | nil => exact ⟨rfl, (List.cons.inj h).2⟩
  | cons c line => exact absurd (List.mem_cons.mpr (.inl (List.cons.inj h).1.symm)) hline

theorem exists_line_of_continued {more rest : List Char} {c : Char} (hc : c ≠ '\n')
    (h : continued line more = c :: rest) : ∃ left, line = c :: left ∧ rest = continued left more := by
  cases line with
  | nil => exact absurd (List.cons.inj h).1.symm hc
  | cons d left =>
    obtain ⟨rfl, rfl⟩ := List.cons.inj h
    exact ⟨left, rfl, rfl⟩

theorem Scanner.skipBlanks_line (s : Scanner) : s.skipBlanks.place.line = s.place.line := by
  change (Place.after s.place (s.rest.takeWhile isSpace)).line = s.place.line
  rw [Place.line_after, List.count_eq_zero_of_not_mem, Nat.add_zero]
  exact feed_not_mem_of_isSpace fun b hb => List.mem_takeWhile_imp hb

/-- A line is entered at its first character that is no blank, whatever blanks are before it. -/
theorem alongside_of_row {row more other : List Char} (hblanks : ∀ b ∈ blanks, isIndent b = true)
    (hrow : IsRow row) (hfirst : s.rest = continued row more)
    (hsecond : t.rest = continued (indented blanks row) other)
    (hplace : t.place.line = s.place.line + count) (hbrackets : t.brackets = lowered count s.brackets) :
    Scanner.Alongside count (row.dropWhile isSpace) more other s.skipBlanks t.skipBlanks := by
  have hspace : isSpace '\n' = false := rfl
  refine ⟨?_, ?_, fun hfeed => hrow.inLine ((List.dropWhile_suffix _).mem hfeed), ?_, hbrackets⟩
  · change s.rest.dropWhile isSpace = _
    rw [hfirst, dropWhile_continued hspace]
  · change t.rest.dropWhile isSpace = _
    rw [hsecond, dropWhile_continued hspace, IsRow.dropWhile_indented hblanks]
  · rw [Scanner.skipBlanks_line, Scanner.skipBlanks_line, hplace]

/-- Where one scanner is at the end of its line, both are. -/
theorem Scanner.Alongside.lineEnd
    (h : Scanner.Alongside count line (closed rows) (closed (rows.map (indented blanks))) s t)
    {rest : List Char} (hrest : t.rest = '\n' :: rest) :
    s.rest = '\n' :: closed rows ∧
      Scanner.Abreast count blanks rows
        { s.advance ['\n'] (closed rows) with atLineStart := true }
        { t.advance ['\n'] rest with atLineStart := true } := by
  obtain ⟨rfl, rfl⟩ := eq_nil_of_continued h.inLine (h.second.symm.trans hrest)
  have hskip := h.skipLine
  rw [Scanner.skipLine_eq h.first h.inLine, Scanner.skipLine_eq h.second h.inLine] at hskip
  exact ⟨h.first, hskip⟩

theorem Scanner.Alongside.brackets_eq_nil_iff {more other : List Char}
    (h : Scanner.Alongside count line more other s t) : s.brackets = [] ↔ t.brackets = [] := by
  rw [h.brackets, lowered, List.map_eq_nil_iff]

/-- A line that goes on in the next one, of which both scanners enter the text. -/
theorem Scanner.Alongside.continuation {row : List Char} (rows : List (List Char))
    (hblanks : ∀ b ∈ blanks, isIndent b = true) (hrow : IsRow row) (hplace : t.place.line = s.place.line + count)
    (hbrackets : t.brackets = lowered count s.brackets) :
    Scanner.Alongside count (row.dropWhile isSpace) (closed rows) (closed (rows.map (indented blanks)))
      (s.advance ['\\', '\n'] (closed (row :: rows))).skipBlanks
      (t.advance ['\\', '\n'] (closed ((row :: rows).map (indented blanks)))).skipBlanks := by
  refine alongside_of_row hblanks hrow (Text.closed_cons _ _) (Text.closed_cons _ _) ?_ hbrackets
  change (Place.after _ _).line = (Place.after _ _).line + count
  rw [Place.line_after, Place.line_after, hplace]
  omega

/-- Within a line. -/
theorem Aligned.step_inLine
    (h : Scanner.Alongside count line (closed rows) (closed (rows.map (indented blanks)))
      s.skipBlanks t.skipBlanks)
    (hblanks : ∀ b ∈ blanks, isIndent b = true)
    (hstart : s.atLineStart = false) (hstart' : t.atLineStart = false)
    (hrows : ∀ row ∈ rows, Lays wide row) (hindents : t.indents = deeper wide slim s.indents)
    (hgrounded : Grounded s.indents) (hstep : t.Step lexemes after)
    (hflat : ∀ lexeme ∈ lexemes, lexeme.token.isText = true → lexeme.stop.line = lexeme.start.line) :
    ∃ own reached, Follows count wide slim blanks s own reached lexemes after := by
  cases hstep with
  | blankLine hstart => exact absurd (hstart'.symm.trans hstart) Bool.false_ne_true
  | line hstart => exact absurd (hstart'.symm.trans hstart) Bool.false_ne_true
  | innerLine hstart => exact absurd (hstart'.symm.trans hstart) Bool.false_ne_true
  | @comment rest _ hrest =>
    obtain ⟨left, rfl, rfl⟩ := exists_line_of_continued (by decide) (h.second.symm.trans hrest)
    have hwhole : Scanner.Alongside count ('#' :: left ++ []) (closed rows)
        (closed (rows.map (indented blanks))) s.skipBlanks t.skipBlanks := by
      rwa [List.append_nil]
    have hcomment : s.skipBlanks.rest = '#' :: continued left (closed rows) := h.first
    refine ⟨[], _, .comment hstart hcomment, ?_, .nil, fun _ hmore => hmore⟩
    rw [← Text.continued_cons, ← Text.continued_cons, takeWhile_line h.inLine,
      takeWhile_line h.inLine, dropWhile_line h.inLine, dropWhile_line h.inLine]
    exact .inLine hwhole.advance.skipBlanks rfl rfl hrows hindents hgrounded
  | @lineEnd rest _ hrest hbrackets =>
    obtain ⟨hfirst, habreast⟩ := h.lineEnd hrest
    exact ⟨_, _, .lineEnd hstart hfirst (h.brackets_eq_nil_iff.mpr hbrackets),
      .start habreast hrows hindents hgrounded, .cons ⟨rfl, h.place⟩ .nil,
      fun _ hmore => hmore.token hgrounded.one_le_length rfl⟩
  | @innerLineEnd rest _ hrest hbrackets =>
    obtain ⟨hfirst, habreast⟩ := h.lineEnd hrest
    exact ⟨_, _, .innerLineEnd hstart hfirst fun hnone => hbrackets (h.brackets_eq_nil_iff.mp hnone),
      .start habreast hrows hindents hgrounded, .nil, fun _ hmore => hmore⟩
  | @continuation rest _ hrest hmore =>
    obtain ⟨left, rfl, hleft⟩ := exists_line_of_continued (by decide) (h.second.symm.trans hrest)
    obtain ⟨rfl, rfl⟩ := eq_nil_of_continued (fun hfeed => h.inLine (List.mem_cons_of_mem _ hfeed))
      hleft.symm
    cases rows with
    | nil => exact absurd rfl hmore
    | cons row rows =>
      rw [List.forall_mem_cons] at hrows
      have hadvance := Scanner.Alongside.continuation rows hblanks hrows.1.toIsRow h.place h.brackets
      refine ⟨[], _, .continuation hstart h.first ?_, .inLine hadvance rfl rfl hrows.2 hindents hgrounded,
        .nil, fun _ hmore => hmore⟩
      rw [Text.closed_cons]
      exact List.append_ne_nil_of_right_ne_nil _ (List.cons_ne_nil _ _)
  | @token _ c rest lexeme _ hrest hmark hnext =>
    have hc : c ≠ '\n' := by
      rintro rfl
      cases hmark
    obtain ⟨left, rfl, rfl⟩ := exists_line_of_continued hc (h.second.symm.trans hrest)
    obtain ⟨copy, reached, left', hown, htoken, hline, halong⟩ :=
      next_alongside h hnext (hflat lexeme List.mem_cons_self)
    obtain ⟨_, hfound⟩ := next_finds hrest hnext
    obtain ⟨_, hfinds⟩ := next_finds h.first hown
    refine ⟨_, _, .token hstart h.first hmark hown,
      .inLine halong.skipBlanks hfinds.inLine hfound.inLine hrows ?_ ?_,
      .cons ⟨htoken.symm, hline⟩ .nil, fun more hmore => ?_⟩
    · rw [hfound.indents, hfinds.indents]
      exact hindents
    · rw [hfinds.indents]
      exact hgrounded
    · rw [hfinds.indents] at hmore
      exact hmore.token hgrounded.one_le_length (isEdge_of_isLayout hfinds.notLayout)

theorem Aligned.step (hblanks : ∀ b ∈ blanks, isIndent b = true)
    (hcolumns : columns (0, 0) blanks = (wide, slim)) (h : Aligned count wide slim blanks s t)
    (hstep : t.Step lexemes after) (hmore : t.atLineStart = true → t.rest ≠ [])
    (hflat : ∀ lexeme ∈ lexemes, lexeme.token.isText = true → lexeme.stop.line = lexeme.start.line) :
    ∃ own reached, Follows count wide slim blanks s own reached lexemes after := by
  cases h with
  | @start rows _ _ habreast hrows hindents hgrounded =>
    cases rows with
    | nil => exact absurd habreast.second (hmore habreast.starts')
    | cons row rows => exact step_start hblanks hcolumns habreast hrows hindents hgrounded hstep
  | inLine halong hstart hstart' hrows hindents hgrounded =>
    exact step_inLine halong hblanks hstart hstart' hrows hindents hgrounded hstep hflat

/-- At the end of the text one block more ends, the one whose lines these are. -/
theorem Aligned.copied_end (hwide : 0 < wide) (h : Scanner.Abreast count blanks [] s t)
    (hindents : t.indents = deeper wide slim s.indents) (hgrounded : Grounded s.indents)
    (hrun : t.Run lexemes) :
    ∃ own copies last, s.Run own ∧ lexemes = copies ++ [last] ∧ last.token = dedent ∧
      List.Forall₂ (Lexeme.Copy count) own copies ∧
      Unwinds s.indents.length (own.map Lexeme.token) := by
  have hgrounded' : Grounded t.indents := hindents ▸ hgrounded.deeper hwide
  obtain ⟨hbrackets, rfl⟩ := hrun.of_end h.starts' h.second hgrounded'
  have hclosed : s.brackets = [] := by
    rw [h.brackets] at hbrackets
    exact List.map_eq_nil_iff.mp hbrackets
  have hlength : t.indents.length - 1 = s.indents.length - 1 + 1 := by
    have hone := hgrounded.one_le_length
    rw [hindents, length_deeper]
    omega
  rw [hlength, List.replicate_succ', List.map_append]
  refine ⟨_, _, _, s.run_of_end h.starts h.first hclosed hgrounded, rfl, rfl, copies_layoutAt h.place _, ?_⟩
  have htokens : ((List.replicate (s.indents.length - 1) dedent).map
      (layoutAt (s.advance [] []))).map Lexeme.token =
      List.replicate (s.indents.length - 1) dedent ++ [] := by
    rw [List.map_map, List.append_nil]
    exact List.map_id _
  have hunwinds := Unwinds.nil.dedents (Nat.le_refl 1) (s.indents.length - 1)
  rw [htokens]
  rwa [Nat.add_sub_cancel' hgrounded.one_le_length] at hunwinds

/-- From one place on, both scans give the same, but for the end of the block. -/
theorem Aligned.copied (hblanks : ∀ b ∈ blanks, isIndent b = true)
    (hcolumns : columns (0, 0) blanks = (wide, slim)) (hwide : 0 < wide)
    (h : Aligned count wide slim blanks s t) (hrun : t.Run lexemes)
    (hflat : ∀ lexeme ∈ lexemes, lexeme.token.isText = true → lexeme.stop.line = lexeme.start.line) :
    ∃ own copies last, s.Run own ∧ lexemes = copies ++ [last] ∧ last.token = dedent ∧
      List.Forall₂ (Lexeme.Copy count) own copies ∧
      Unwinds s.indents.length (own.map Lexeme.token) := by
  induction hrun generalizing s with
  | @done t hdone =>
    cases h with
    | start habreast => exact absurd (hdone.start.symm.trans habreast.starts') Bool.false_ne_true
    | inLine halong =>
      have hrest := halong.second.symm.trans hdone.rest
      exact absurd hrest (List.append_ne_nil_of_right_ne_nil _ (List.cons_ne_nil _ _))
  | @step t after lexemes more hstep hrest ih =>
    by_cases hends : t.atLineStart = true ∧ t.rest = []
    · cases h with
      | @start rows _ _ habreast hrows hindents hgrounded =>
        cases rows with
        | nil => exact copied_end hwide habreast hindents hgrounded (.step hstep hrest)
        | cons row rows =>
          have hrest := habreast.second.symm.trans hends.2
          rw [List.map_cons, Text.closed_cons] at hrest
          exact absurd hrest (List.append_ne_nil_of_right_ne_nil _ (List.cons_ne_nil _ _))
      | inLine _ _ hstart' => exact absurd (hstart'.symm.trans hends.1) Bool.false_ne_true
    · rw [List.forall_mem_append] at hflat
      obtain ⟨first, reached, hfollows⟩ :=
        h.step hblanks hcolumns hstep (fun hstart hspent => hends ⟨hstart, hspent⟩) hflat.1
      obtain ⟨own, copies, last, hown, rfl, hlast, hcopies, hunwinds⟩ := ih hfollows.aligned hflat.2
      refine ⟨first ++ own, lexemes ++ copies, last, .step hfollows.step hown, ?_, hlast, ?_, ?_⟩
      · rw [List.append_assoc]
      · exact List.rel_append hfollows.copies hcopies
      · rw [List.map_append]
        exact hfollows.unwinds _ hunwinds

end

/-- A line without tokens. -/
def IsQuiet (row : List Char) : Prop :=
  isBlankLine (continued (row.dropWhile isSpace) []) = true

/-- A line with tokens and without a margin. -/
structure BeginsBlock (row : List Char) : Prop where
  tokens : ¬ IsQuiet row
  margin : row.takeWhile isSpace = []

section

variable {count wide slim : Nat} {blanks row : List Char} {rows : List (List Char)}
  {s t : Scanner} {lexemes : List Lexeme}

theorem isBlankLine_margin (row more : List Char) :
    isBlankLine (IsRow.margin row more).rest = true ↔ IsQuiet row := by
  rw [IsQuiet, ← isBlankLine_continued _ more]
  rfl

theorem isQuiet_indented (hblanks : ∀ b ∈ blanks, isIndent b = true) :
    IsQuiet (indented blanks row) ↔ IsQuiet row := by
  rw [IsQuiet, IsQuiet, IsRow.dropWhile_indented hblanks]

/-- Both scanners skip a line without tokens. -/
theorem Scanner.Abreast.skip (hblanks : ∀ b ∈ blanks, isIndent b = true)
    (h : Scanner.Abreast count blanks (row :: rows) s t) (hrow : IsRow row) (hquiet : IsQuiet row)
    (hrun : t.Run lexemes) : ∃ s' t', s.Step [] s' ∧ t'.Run lexemes ∧
      Scanner.Abreast count blanks rows s' t' ∧ s'.indents = s.indents ∧ t'.indents = t.indents ∧
      s'.brackets = s.brackets := by
  obtain ⟨hmargin, hmargin', henter⟩ := h.enter hrow hblanks
  have hblank := (isBlankLine_margin row (closed rows)).mpr hquiet
  have hblank' := (isBlankLine_margin (indented blanks row) (closed (rows.map (indented blanks)))).mpr
    ((isQuiet_indented hblanks).mpr hquiet)
  refine ⟨_, _, .blankLine h.starts hmargin hblank, ?_, henter.skipLine, Scanner.skipLine_indents _,
    Scanner.skipLine_indents _, Scanner.skipLine_brackets _⟩
  cases hrun with
  | done hdone => exact absurd (hdone.start.symm.trans h.starts') Bool.false_ne_true
  | step hstep hrest =>
    rcases hstep.of_margin h.starts' hmargin' with ⟨-, rfl, rfl⟩ | ⟨hno, -⟩ | ⟨hno, -⟩
    · exact hrest
    · exact absurd (hblank'.symm.trans hno) (Bool.false_ne_true ∘ Eq.symm)
    · exact absurd (hblank'.symm.trans hno) (Bool.false_ne_true ∘ Eq.symm)

/-- A line with tokens gives one of them first. -/
theorem Scanner.Run.first_token {c : Char} {rest : List Char} {lexeme : Lexeme} {more : List Lexeme}
    (h : s.Run (lexeme :: more)) (hstart : s.atLineStart = false) (hrest : s.skipBlanks.rest = c :: rest)
    (hmark : isLayoutMark c = false) : lexeme.token.isLayout = false := by
  have hhead {d : Char} {rest' : List Char} (h : s.skipBlanks.rest = d :: rest') :
      isLayoutMark d = false := by
    rwa [← (List.cons.inj (hrest.symm.trans h)).1]
  generalize hall : lexeme :: more = all at h
  cases h with
  | done => cases hall
  | step hstep =>
    cases hstep with
    | blankLine h => exact absurd (hstart.symm.trans h) Bool.false_ne_true
    | line h => exact absurd (hstart.symm.trans h) Bool.false_ne_true
    | innerLine h => exact absurd (hstart.symm.trans h) Bool.false_ne_true
    | comment _ h => cases hhead h
    | lineEnd _ h => cases hhead h
    | innerLineEnd _ h => cases hhead h
    | continuation _ h => cases hhead h
    | token _ h _ hnext =>
      obtain ⟨_, hfinds⟩ := next_finds h hnext
      have hlayout := hfinds.notLayout
      rwa [(List.cons.inj hall).1]

theorem BeginsBlock.ne_nil (h : BeginsBlock row) : row ≠ [] := by
  rintro rfl
  exact h.tokens rfl

/-- The first line of a block begins with a character of one of its tokens. -/
theorem BeginsBlock.exists_mark (h : BeginsBlock row) (hrow : IsRow row) :
    ∃ c line, row.dropWhile isSpace = c :: line ∧ isSpace c = false ∧ isLayoutMark c = false := by
  obtain ⟨c, line, hline⟩ := List.exists_cons_of_ne_nil fun htext => h.ne_nil (hrow.text htext)
  have hspace := List.head?_dropWhile_not isSpace row
  have hescape := hrow.escape
  have hquiet := h.tokens
  rw [hline] at hspace hescape
  rw [IsQuiet, hline, Text.continued_cons, isBlankLine, Bool.not_eq_true,
    Bool.or_eq_false_iff] at hquiet
  refine ⟨c, line, hline, hspace, ?_⟩
  rw [isLayoutMark, hquiet.1, hquiet.2, show isSpace c = false from hspace,
    beq_eq_false_iff_ne.mpr fun hc => hescape (congrArg some hc)]
  rfl

/-- Where a line is entered at the margin of the text, its first token is none of the layout. -/
theorem BeginsBlock.not_isLayout (h : BeginsBlock row) (hrow : IsRow row) {more : List Char}
    {lexeme : Lexeme} {others : List Lexeme} (hrun : s.Run (lexeme :: others))
    (hrest : s.rest = continued (row.dropWhile isSpace) more) (hstart : s.atLineStart = false) :
    lexeme.token.isLayout = false := by
  obtain ⟨c, line, hline, hspace, hmark⟩ := h.exists_mark hrow
  have hahead : s.skipBlanks.rest = c :: continued line more := by
    change s.rest.dropWhile isSpace = _
    rw [hrest, hline, Text.continued_cons, List.dropWhile_cons, hspace, if_neg Bool.false_ne_true]
  exact hrun.first_token hstart hahead hmark

/-- At its first line with tokens the block begins, if one begins at all. -/
theorem Scanner.Abreast.begin {indentation : Lexeme} {more : List Lexeme}
    (hblanks : ∀ b ∈ blanks, isIndent b = true) (hcolumns : columns (0, 0) blanks = (wide, slim))
    (h : Scanner.Abreast count blanks (row :: rows) s t) (hrow : IsRow row)
    (hbegins : BeginsBlock row) (hrows : ∀ one ∈ rows, Lays wide one) (hs : s.indents = [(0, 0)])
    (ht : t.indents = [(0, 0)]) (hbrackets : s.brackets = []) (hrun : t.Run (indentation :: more))
    (hindent : indentation.token = indent) :
    0 < wide ∧ ∃ s' t', s.Step [] s' ∧ s'.indents = [(0, 0)] ∧
      Aligned count wide slim blanks s' t' ∧ t'.Run more := by
  obtain ⟨hmargin, hmargin', henter⟩ := h.enter hrow hblanks
  have hblank := Bool.eq_false_iff.mpr
    (mt (isBlankLine_margin row (closed rows)).mp hbegins.tokens)
  have hflush : layout (columns (0, 0) (row.takeWhile isSpace)).1
      (columns (0, 0) (row.takeWhile isSpace)).2 s.indents = some ([], [(0, 0)]) := by
    rw [hbegins.margin, hs]
    rfl
  generalize hall : indentation :: more = all at hrun
  cases hrun with
  | done hdone => exact absurd (hdone.start.symm.trans h.starts') Bool.false_ne_true
  | @step _ after lexemes others hstep hrest =>
    rcases hstep.of_margin h.starts' hmargin' with ⟨hquiet, -⟩ | ⟨-, hopen, -⟩ |
      ⟨-, -, tokens, indents, hlayout, rfl, rfl⟩
    · exact absurd ((isQuiet_indented hblanks).mp ((isBlankLine_margin _ _).mp hquiet)) hbegins.tokens
    · rw [h.brackets, hbrackets] at hopen
      exact absurd rfl hopen
    have hdeep : layout wide slim [(0, 0)] = some (tokens, indents) := by
      rw [← hlayout]
      change _ = layout (columns (0, 0) ((indented blanks row).takeWhile isSpace)).1
        (columns (0, 0) ((indented blanks row).takeWhile isSpace)).2 t.indents
      rw [IsRow.takeWhile_indented hblanks hbegins.ne_nil, hbegins.margin, List.append_nil, hcolumns, ht]
    rcases Nat.eq_zero_or_pos wide with rfl | hwide
    · -- Without a margin the first token would be one of the line.
      have hnone : blanks = [] := by
        by_contra hsome
        have hpos := Text.columns_pos hsome
        rw [hcolumns] at hpos
        exact Nat.lt_irrefl 0 hpos
      subst hnone
      obtain rfl : 0 = slim := congrArg Prod.snd hcolumns
      cases hdeep
      rw [List.map_nil, List.nil_append] at hall
      subst hall
      have hfirst := hbegins.not_isLayout hrow hrest henter.second rfl
      rw [hindent] at hfirst
      cases hfirst
    · rw [layout_of_lt hwide] at hdeep
      split at hdeep
      · cases hdeep
      · cases hdeep
        obtain ⟨-, rfl⟩ := List.cons.inj hall
        exact ⟨hwide, _, _, .line h.starts hmargin hblank hbrackets hflush, rfl,
          .inLine (henter.inBlocks _ _).skipBlanks rfl rfl hrows rfl .text, hrest⟩

/-- A block after lines without tokens. -/
theorem Scanner.Abreast.block {quiet : List (List Char)} (hblanks : ∀ b ∈ blanks, isIndent b = true)
    (hcolumns : columns (0, 0) blanks = (wide, slim))
    (h : Scanner.Abreast count blanks (quiet ++ row :: rows) s t)
    (hlays : ∀ one ∈ quiet ++ row :: rows, Lays wide one) (hquiet : ∀ one ∈ quiet, IsQuiet one)
    (hbegins : BeginsBlock row) (hs : s.indents = [(0, 0)]) (ht : t.indents = [(0, 0)])
    (hbrackets : s.brackets = []) {indentation : Lexeme} {more : List Lexeme}
    (hrun : t.Run (indentation :: more)) (hindent : indentation.token = indent)
    (hflat : ∀ lexeme ∈ more, lexeme.token.isText = true → lexeme.stop.line = lexeme.start.line) :
    ∃ own copies last, s.Run own ∧ more = copies ++ [last] ∧ last.token = dedent ∧
      List.Forall₂ (Lexeme.Copy count) own copies ∧ Unwinds 1 (own.map Lexeme.token) := by
  induction quiet generalizing s t with
  | nil =>
    rw [List.nil_append, List.forall_mem_cons] at hlays
    obtain ⟨hwide, s', t', hstep, hindents, haligned, hmore⟩ := h.begin hblanks hcolumns
      hlays.1.toIsRow hbegins hlays.2 hs ht hbrackets hrun hindent
    obtain ⟨own, copies, last, hown, hcopied, hlast, hcopies, hunwinds⟩ :=
      haligned.copied hblanks hcolumns hwide hmore hflat
    rw [hindents] at hunwinds
    exact ⟨own, copies, last, .step hstep hown, hcopied, hlast, hcopies, hunwinds⟩
  | cons one quiet ih =>
    rw [List.cons_append, List.forall_mem_cons] at hlays
    rw [List.forall_mem_cons] at hquiet
    obtain ⟨s', t', hstep, hrest, habreast, hs', ht', hbrackets'⟩ :=
      h.skip hblanks hlays.1.toIsRow hquiet.1 hrun
    obtain ⟨own, copies, last, hown, rest⟩ := ih habreast hlays.2 hquiet.2
      (hs'.trans hs) (ht'.trans ht) (hbrackets'.trans hbrackets) hrest
    exact ⟨own, copies, last, .step hstep hown, rest⟩

end

/-- The tokens of a block that stands below other lines are those of the block by itself, and one that
    ends the block. -/
structure BlockCopy (count : Nat) (own rest : List Lexeme) : Prop where
  copied : ∃ copies last, rest = copies ++ [last] ∧ last.token = dedent ∧
    List.Forall₂ (Lexeme.Copy count) own copies
  unwinds : Unwinds 1 (own.map Lexeme.token)

theorem scan_block {header quiet rows : List (List Char)} {row blanks : List Char} {wide slim : Nat}
    (hblanks : ∀ b ∈ blanks, isIndent b = true) (hcolumns : columns (0, 0) blanks = (wide, slim))
    (hheader : ∀ one ∈ header, '\n' ∉ one) (hlays : ∀ one ∈ quiet ++ row :: rows, Lays wide one)
    (hquiet : ∀ one ∈ quiet, IsQuiet one) (hbegins : BeginsBlock row) {before rest : List Lexeme}
    {lineEnd indentation : Lexeme}
    (hscan : scan (closed (header ++ (quiet ++ row :: rows).map (indented blanks))) =
      ⟨before ++ lineEnd :: indentation :: rest, none⟩)
    (hbefore : ∀ lexeme ∈ before, lexeme.token ≠ indent) (hnewline : lineEnd.token = newline)
    (hline : lineEnd.start.line = header.length) (hindent : indentation.token = indent)
    (hflat : ∀ lexeme ∈ rest, lexeme.token.isText = true → lexeme.stop.line = lexeme.start.line) :
    (∃ own, scan (closed (quiet ++ row :: rows)) = ⟨own, none⟩ ∧ BlockCopy header.length own rest) ∧
      ∀ lexeme ∈ before, lexeme.start.line ≤ header.length := by
  rw [scan_eq_iff] at hscan
  obtain ⟨used, after, htakes, hafter, hrun, hplace, hearlier⟩ :=
    hscan.after_header rfl hbefore hnewline
  have hcount : (used ++ ['\n']).count '\n' = header.length := by
    rw [htakes.place, Place.line_after] at hplace
    change 1 + _ = _ at hplace
    omega
  have hrest : after.rest = closed ((quiet ++ row :: rows).map (indented blanks)) :=
    Text.eq_closed_of_count hheader htakes.rest hcount
  have habreast : Scanner.Abreast header.length blanks (quiet ++ row :: rows)
      (.start (closed (quiet ++ row :: rows))) after := by
    refine ⟨rfl, hrest, rfl, hafter.atLineStart, ?_, hafter.brackets⟩
    rw [hplace, hline]
    exact Nat.add_comm _ _
  obtain ⟨own, copies, last, hown, hlexemes, hlast, hcopies, hunwinds⟩ :=
    habreast.block hblanks hcolumns hlays hquiet hbegins rfl hafter.indents rfl hrun hindent hflat
  refine ⟨⟨own, (scan_eq_iff _ _).mpr hown, ⟨copies, last, hlexemes, hlast, hcopies⟩, hunwinds⟩, ?_⟩
  exact fun lexeme hmem => hline ▸ hearlier lexeme hmem

end Token

end TableAudit
