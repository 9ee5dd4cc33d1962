import TableAudit.Proofs.Text.Cleared
import TableAudit.Proofs.Token.Copies

namespace TableAudit.Token

open Text (continued closed Clears)
open Text.Margin (isIndent)

theorem exists_measure_blanks {blanks : List Char} (hblanks : ∀ b ∈ blanks, isSpace b = true)
    (width narrow : Nat) (fixed : Option (Nat × Nat)) : ∃ wide slim, ∀ rest,
      measure width narrow fixed (blanks ++ rest) =
        (measure wide slim fixed rest).map fun m => { m with blanks := blanks ++ m.blanks } := by
  induction blanks generalizing width narrow with
  | nil =>
    refine ⟨width, narrow, fun rest => ?_⟩
    change measure width narrow fixed rest = (measure width narrow fixed rest).map id
    cases measure width narrow fixed rest <;> rfl
  | cons b blanks ih =>
    rw [List.forall_mem_cons] at hblanks
    have hstep : ∃ wide slim, ∀ rest, measure width narrow fixed (b :: rest) =
        (measure wide slim fixed rest).map fun m => { m with blanks := b :: m.blanks } := by
      have hb := hblanks.1
      rw [isSpace, Bool.or_eq_true, Bool.or_eq_true, beq_iff_eq, beq_iff_eq, beq_iff_eq] at hb
      rcases hb with (rfl | rfl) | rfl
      · exact ⟨width + 1, narrow + 1, fun _ => rfl⟩
      · exact ⟨(width / 8 + 1) * 8, narrow + 1, fun _ => rfl⟩
      · exact ⟨0, 0, fun _ => rfl⟩
    obtain ⟨wide, slim, hstep⟩ := hstep
    obtain ⟨wide', slim', hrest⟩ := ih hblanks.2 wide slim
    refine ⟨wide', slim', fun rest => ?_⟩
    rw [List.cons_append, hstep, hrest]
    cases measure wide' slim' fixed rest <;> rfl

/-- The widths that hold for a line which goes on within its margin. -/
def keptWidths (width : Nat) (fixed : Option (Nat × Nat)) : Option (Nat × Nat) :=
  if fixed.isNone && width != 0 then some (width, width) else fixed

theorem measure_onward (width narrow : Nat) (fixed : Option (Nat × Nat)) {more : List Char}
    (hmore : more ≠ []) : measure width narrow fixed ('\\' :: '\n' :: more) =
      (measure width narrow (keptWidths width fixed) more).map
        fun m => { m with blanks := '\\' :: '\n' :: m.blanks } := by
  rw [measure, if_neg fun h => hmore (List.isEmpty_iff.mp h)]
  rfl

/-- What the first line of a text makes of its margin, whatever is on the lines after it: it is measured
    up to a character that is no blank, or goes on in the next line, or is a fault. -/
inductive LineMargin (width narrow : Nat) (fixed : Option (Nat × Nat)) (line : List Char) : Prop
  | text {blanks left : List Char} {wide slim : Nat} (hline : line = blanks ++ left)
      (h : ∀ more, measure width narrow fixed (continued line more) =
        .ok ⟨wide, slim, fixed, blanks, continued left more⟩) : LineMargin width narrow fixed line
  | onward {blanks : List Char} {wide slim : Nat} (hline : line = blanks ++ ['\\'])
      (hend : measure width narrow fixed (continued line []) = .error .endOfText)
      (h : ∀ more, more ≠ [] → measure width narrow fixed (continued line more) =
        (measure wide slim (keptWidths wide fixed) more).map
          fun m => { m with blanks := blanks ++ '\\' :: '\n' :: m.blanks }) :
      LineMargin width narrow fixed line
  | fault (h : ∀ more, ∃ kind, measure width narrow fixed (continued line more) = .error kind) :
      LineMargin width narrow fixed line

theorem lineMargin (width narrow : Nat) (fixed : Option (Nat × Nat)) {line : List Char}
    (hline : '\n' ∉ line) : LineMargin width narrow fixed line := by
  obtain ⟨wide, slim, hblanks⟩ := exists_measure_blanks
    (fun b hb => List.mem_takeWhile_imp hb : ∀ b ∈ line.takeWhile isSpace, isSpace b = true)
    width narrow fixed
  have hsplit : line = line.takeWhile isSpace ++ line.dropWhile isSpace :=
    List.takeWhile_append_dropWhile.symm
  have hhead := List.head?_dropWhile_not isSpace line
  generalize line.takeWhile isSpace = blanks at hblanks hsplit
  generalize line.dropWhile isSpace = left at hsplit hhead
  have hcontinued (more : List Char) : continued line more = blanks ++ continued left more := by
    rw [hsplit, continued, List.append_assoc]
    rfl
  have htext (h : ∀ more, measure wide slim fixed (continued left more) =
      .ok ⟨wide, slim, fixed, [], continued left more⟩) : LineMargin width narrow fixed line := by
    have hmeasure (more : List Char) : measure width narrow fixed (continued line more) =
        .ok ⟨wide, slim, fixed, blanks, continued left more⟩ := by
      rw [hcontinued, hblanks, h, Except.map, List.append_nil]
    exact .text hsplit hmeasure
  cases left with
  | nil => exact htext fun more => measure_text rfl (by decide) wide slim more
  | cons c left =>
    by_cases hc : c = '\\'
    · subst hc
      cases left with
      | nil =>
        have honward (more : List Char) (hmore : more ≠ []) :
            measure width narrow fixed (continued line more) =
              (measure wide slim (keptWidths wide fixed) more).map
                fun m => { m with blanks := blanks ++ '\\' :: '\n' :: m.blanks } := by
          rw [hcontinued, hblanks, Text.continued_cons, Text.continued_nil, measure_onward _ _ _ hmore]
          cases measure wide slim (keptWidths wide fixed) more <;> rfl
        refine .onward hsplit ?_ honward
        rw [hcontinued, hblanks]
        rfl
      | cons d left =>
        refine .fault fun more => ⟨.layout, ?_⟩
        have hd : d ≠ '\n' := by
          rintro rfl
          exact hline (hsplit ▸ by simp)
        rw [hcontinued, hblanks, Text.continued_cons, Text.continued_cons, measure]
        · rfl
        · exact fun _ h => hd (List.cons.inj h).1
    · exact htext fun more => measure_text hhead hc wide slim _

/-- The margins of the lines from one number on, and of what is left of these, end in the same line; at
    its end, if the line is cleared. -/
structure Entered (changed : Nat → Prop) (line : Nat) (text : List Char)
    (rows cleared : List (List Char)) (margin own : Margin) : Prop where
  first : own.rest = continued text (closed cleared)
  second : margin.rest = continued text (closed rows)
  inLine : '\n' ∉ text
  lines : own.blanks.count '\n' = margin.blanks.count '\n'
  clears : Clears changed (line + margin.blanks.count '\n' + 1) rows cleared
  ends : cleared = [] → rows ≠ [] → text.getLast? ≠ some '\\'
  widths : text ≠ [] →
    own.width = margin.width ∧ own.narrow = margin.narrow ∧ own.fixed = margin.fixed

section

variable {changed : Nat → Prop} {line width narrow : Nat} {fixed : Option (Nat × Nat)}
  {rows cleared : List (List Char)} {margin : Margin}

theorem closed_ne_nil (h : rows ≠ []) : closed rows ≠ [] := by
  obtain ⟨row, rows, rfl⟩ := List.exists_cons_of_ne_nil h
  rw [Text.closed_cons]
  exact List.append_ne_nil_of_right_ne_nil _ (List.cons_ne_nil _ _)

theorem Entered.within {blanks left : List Char} {wide slim : Nat} (hline : '\n' ∉ blanks ++ left)
    (hends : cleared = [] → rows ≠ [] → (blanks ++ left).getLast? ≠ some '\\')
    (hrows : Clears changed (line + 1) rows cleared) :
    Entered changed line left rows cleared ⟨wide, slim, fixed, blanks, continued left (closed rows)⟩
      ⟨wide, slim, fixed, blanks, continued left (closed cleared)⟩ where
  first := rfl
  second := rfl
  inLine hfeed := hline (List.mem_append_right _ hfeed)
  lines := rfl
  clears := by
    rwa [List.count_eq_zero_of_not_mem fun hfeed => hline (List.mem_append_left _ hfeed)]
  ends hnone hsome hopen := hends hnone hsome (List.mem_getLast?_append_of_mem_getLast? hopen)
  widths _ := ⟨rfl, rfl, rfl⟩

theorem Entered.onward {text : List Char} {own : Margin} (blanks : List Char) (hblanks : '\n' ∉ blanks)
    (h : Entered changed (line + 1) text rows cleared margin own) :
    Entered changed line text rows cleared
      { margin with blanks := blanks ++ '\\' :: '\n' :: margin.blanks }
      { own with blanks := blanks ++ '\\' :: '\n' :: own.blanks } := by
  have hcount (more : List Char) :
      (blanks ++ '\\' :: '\n' :: more).count '\n' = 1 + more.count '\n' := by
    rw [List.count_append, List.count_eq_zero_of_not_mem hblanks, Nat.zero_add,
      List.count_cons_of_ne (by decide), List.count_cons_self, Nat.add_comm]
  refine ⟨h.first, h.second, h.inLine, ?_, ?_, h.ends, h.widths⟩
  · rw [hcount, hcount, h.lines]
  · rw [hcount, ← Nat.add_assoc]
    exact h.clears

/-- The margin of a text that has lines left is measured where its lines are cleared, too. -/
theorem Entered.exists_own (hrows : Clears changed line rows cleared) (hsome : cleared ≠ [])
    (hmargin : measure width narrow fixed (closed rows) = .ok margin) :
    ∃ own text rows' cleared', measure width narrow fixed (closed cleared) = .ok own ∧
      Entered changed line text rows' cleared' margin own := by
  induction hrows generalizing width narrow fixed margin with
  | nil => exact absurd rfl hsome
  | last => exact absurd rfl hsome
  | @keep line row rows cleared hrow hends hrest ih =>
    rw [Text.closed_cons] at hmargin ⊢
    cases lineMargin width narrow fixed hrow with
    | @text blanks left wide slim hline h =>
      rw [h] at hmargin ⊢
      cases hmargin
      subst hline
      exact ⟨_, left, rows, cleared, rfl, .within hrow hends hrest⟩
    | @onward blanks wide slim hline hend h =>
      subst hline
      have hrows : rows ≠ [] := by
        rintro rfl
        rw [Text.closed_nil, hend] at hmargin
        cases hmargin
      have hcleared : cleared ≠ [] := fun hnone => hends hnone hrows List.getLast?_concat
      rw [h _ (closed_ne_nil hrows)] at hmargin
      cases hinner : measure wide slim (keptWidths wide fixed) (closed rows) with
      | error kind =>
        rw [hinner] at hmargin
        cases hmargin
      | ok inner =>
        rw [hinner] at hmargin
        cases hmargin
        obtain ⟨own, text, rows', cleared', hown, hentered⟩ := ih hcleared hinner
        rw [h _ (closed_ne_nil hcleared), hown]
        exact ⟨_, text, rows', cleared', rfl,
          hentered.onward blanks fun hfeed => hrow (List.mem_append_left _ hfeed)⟩
    | fault h =>
      obtain ⟨kind, hfault⟩ := h (closed rows)
      rw [hfault] at hmargin
      cases hmargin
  | @clear line blanks rows cleared hblanks hchanged hrest ih =>
    obtain ⟨wide, slim, hmeasure⟩ := exists_measure_blanks
      (fun b hb => isSpace_of_isIndent (hblanks b hb)) width narrow fixed
    have hnone : (blanks ++ []).count '\n' = 0 := by
      rw [List.append_nil]
      exact List.count_eq_zero_of_not_mem (Text.feed_not_mem_of_isIndent hblanks)
    rw [Text.closed_cons, continued, hmeasure, measure_text rfl (by decide)] at hmargin
    cases hmargin
    rw [Text.closed_cons, Text.continued_nil, measure_text rfl (by decide)]
    refine ⟨_, [], rows, cleared, rfl, rfl, rfl, List.not_mem_nil, hnone.symm, ?_,
      fun _ _ hlast => ?_, fun hne => absurd rfl hne⟩
    · rwa [hnone]
    · cases hlast

/-- Two scanners in the same line of a text, and of what is left of it where blank lines are cleared. -/
structure Scanner.Beside (changed : Nat → Prop) (line : List Char) (rows cleared : List (List Char))
    (s t : Scanner) : Prop extends Scanner.Alongside 0 line (closed cleared) (closed rows) s t where
  clears : Clears changed (t.place.line + 1) rows cleared
  ends : cleared = [] → rows ≠ [] → line.getLast? ≠ some '\\'
  indents : t.indents = s.indents

namespace Scanner.Beside

variable {s t after : Scanner} {used left text : List Char} {c : Char} {lexeme : Lexeme}

/-- A line that goes on does so at its end. -/
theorem ends_left (h : Beside changed (used ++ left) rows cleared s t) (hnone : cleared = [])
    (hsome : rows ≠ []) : left.getLast? ≠ some '\\' :=
  fun hopen => h.ends hnone hsome (List.mem_getLast?_append_of_mem_getLast? hopen)

theorem advance (h : Beside changed (used ++ left) rows cleared s t) :
    Beside changed left rows cleared (s.advance used (continued left (closed cleared)))
      (t.advance used (continued left (closed rows))) where
  toAlongside := h.toAlongside.advance
  clears := by
    have hline : '\n' ∉ used := fun hfeed => h.inLine (List.mem_append_left _ hfeed)
    have hplace : (Place.after t.place used).line = t.place.line := by
      rw [Place.line_after, List.count_eq_zero_of_not_mem hline, Nat.add_zero]
    change Clears changed ((Place.after t.place used).line + 1) rows cleared
    rw [hplace]
    exact h.clears
  ends := h.ends_left
  indents := h.indents

theorem skipBlanks (h : Beside changed text rows cleared s t) :
    Beside changed (text.dropWhile isSpace) rows cleared s.skipBlanks t.skipBlanks := by
  have hspace : isSpace '\n' = false := rfl
  have hadvance : Beside changed (text.takeWhile isSpace ++ text.dropWhile isSpace) rows cleared s t := by
    rwa [List.takeWhile_append_dropWhile]
  unfold Scanner.skipBlanks
  rw [h.first, h.second, takeWhile_continued hspace, takeWhile_continued hspace,
    dropWhile_continued hspace, dropWhile_continued hspace]
  exact hadvance.advance

/-- What is taken within a line leaves the rest of it. -/
theorem of_finds (h : Beside changed text rows cleared s t) {copy : Lexeme} {reached : Scanner}
    {own : List Char} (hown : s.Finds own copy reached) (hfinds : t.Finds used lexeme after)
    (halong : Scanner.Alongside 0 left (closed cleared) (closed rows) reached after) :
    Beside changed left rows cleared reached after := by
  have hsplit : continued text (closed rows) = used ++ continued left (closed rows) := by
    rw [← h.second, ← halong.second, hfinds.rest]
  have htext : text = used ++ left := by
    rw [continued, continued, ← List.append_assoc] at hsplit
    exact List.append_cancel_right hsplit
  subst htext
  have hplace : after.place.line = t.place.line := by
    rw [hfinds.place, Place.line_after, List.count_eq_zero_of_not_mem, Nat.add_zero]
    exact fun hfeed => h.inLine (List.mem_append_left _ hfeed)
  refine ⟨halong, ?_, h.ends_left, ?_⟩
  · rw [hplace]
    exact h.clears
  · rw [hfinds.indents, hown.indents, h.indents]

end Scanner.Beside

/-- What is taken of lines, up to a character that is no blank, is also taken of what is left of them,
    if none of the lines that it is on is cleared. -/
theorem split_of_clears {body tail : List Char} {last : Char} (hrows : Clears changed line rows cleared)
    (hsplit : closed rows = body ++ tail) (hlast : body.getLast? = some last)
    (hblank : isIndent last = false) (hfeed : last ≠ '\n')
    (hkept : ∀ number, line ≤ number → number ≤ line + body.count '\n' → ¬ changed number) :
    ∃ left rows' cleared', tail = continued left (closed rows') ∧
      closed cleared = body ++ continued left (closed cleared') ∧ '\n' ∉ left ∧
      Clears changed (line + body.count '\n' + 1) rows' cleared' ∧
      (cleared' = [] → rows' ≠ [] → left.getLast? ≠ some '\\') := by
  induction hrows generalizing body with
  | nil =>
    rw [(List.append_eq_nil_iff.mp hsplit.symm).1] at hlast
    cases hlast
  | @last line blanks hblanks =>
    have hmem : last ∈ closed [blanks] := hsplit ▸ List.mem_append_left _ (List.mem_of_getLast? hlast)
    rw [Text.closed_cons, Text.closed_nil, continued, List.mem_append, List.mem_singleton] at hmem
    rcases hmem with hmem | hmem
    · exact absurd ((hblanks last hmem).symm.trans hblank) Bool.noConfusion
    · exact absurd hmem hfeed
  | @keep line row rows cleared hrow hends hrest ih =>
    rw [Text.closed_cons] at hsplit ⊢
    rcases within_or_beyond hsplit with ⟨left, rfl, rfl⟩ | ⟨further, rfl, hmore⟩
    · have hnone : body.count '\n' = 0 :=
        List.count_eq_zero_of_not_mem fun h => hrow (List.mem_append_left _ h)
      refine ⟨left, rows, cleared, rfl, ?_, fun h => hrow (List.mem_append_right _ h), ?_,
        fun hnone hsome hopen => hends hnone hsome (List.mem_getLast?_append_of_mem_getLast? hopen)⟩
      · rw [continued, List.append_assoc]
        rfl
      · rwa [hnone]
    · have hcount : (row ++ '\n' :: further).count '\n' = further.count '\n' + 1 := by
        rw [List.count_append, List.count_eq_zero_of_not_mem hrow, Nat.zero_add, List.count_cons_self]
      have hlast' : further.getLast? = some last := by
        cases further with
        | nil =>
          rw [List.getLast?_concat] at hlast
          exact absurd (Option.some.inj hlast).symm hfeed
        | cons c further =>
          rwa [List.getLast?_append_of_ne_nil _ (List.cons_ne_nil _ _), List.getLast?_cons_cons] at hlast
      rw [hcount] at hkept ⊢
      obtain ⟨left, rows', cleared', htail, hown, hleft, hclears, hopen⟩ :=
        ih hmore hlast' fun number hfrom hto => hkept number (by omega) (by omega)
      refine ⟨left, rows', cleared', htail, ?_, hleft, ?_, hopen⟩
      · rw [continued, hown, List.append_assoc]
        rfl
      · rwa [Nat.add_right_comm line 1] at hclears
  | @clear line blanks rows cleared hblanks hchanged hrest ih =>
    exact absurd hchanged (hkept line le_rfl (Nat.le_add_right _ _))

/-- The token that both scanners find next, after which they are in the same line again. -/
def Finding (changed : Nat → Prop) (found : Except ScanFault (Lexeme × Scanner)) (lexeme : Lexeme)
    (after : Scanner) : Prop :=
  ∃ copy reached left rows cleared, found = .ok (copy, reached) ∧ copy.token = lexeme.token ∧
    Scanner.Beside changed left rows cleared reached after

/-- None of the lines on which a text literal stands is cleared. -/
def Spared (changed : Nat → Prop) (lexeme : Lexeme) : Prop :=
  lexeme.token.isText = true → ∀ line ≤ lexeme.stop.line, lexeme.start.line ≤ line → ¬ changed line

instance (changed : Nat → Prop) [DecidablePred changed] (lexeme : Lexeme) :
    Decidable (Spared changed lexeme) :=
  inferInstanceAs (Decidable (_ → ∀ line ≤ _, _ ≤ line → ¬ changed line))

namespace Scanner.Beside

variable {s t after : Scanner} {text : List Char} {c : Char} {lexeme : Lexeme}

theorem textLiteral {mark quoted : List Char} {quote : Char}
    (h : Beside changed (mark ++ quote :: quoted) rows cleared s t) (hquote : quote = '"' ∨ quote = '\'')
    (hnext : textLiteral t mark (continued (quote :: quoted) (closed rows)) = .ok (lexeme, after))
    (hspared : Spared changed lexeme) :
    Finding changed (textLiteral s mark (continued (quote :: quoted) (closed cleared))) lexeme after := by
  have hfeed : quote ≠ '\n' := by
    rcases hquote with rfl | rfl <;> decide
  have hescape : quote ≠ '\\' := by
    rcases hquote with rfl | rfl <;> decide
  have hblank : isIndent quote = false := by
    rcases hquote with rfl | rfl <;> rfl
  obtain ⟨triple, opening, inner, hsplit, hliteral⟩ := exists_opening hfeed quoted
  obtain ⟨fault, hsecond⟩ := hliteral t mark (closed rows)
  obtain ⟨fault', hfirst⟩ := hliteral s mark (closed cleared)
  rw [hsecond] at hnext
  rw [hfirst]
  split at hnext
  · next body tail hbody =>
    cases hnext
    rw [hsplit, ← List.append_assoc] at h
    have hopening : (mark ++ opening).count '\n' = 0 :=
      List.count_eq_zero_of_not_mem fun hmem => h.inLine (List.mem_append_left _ hmem)
    have hcount : (mark ++ opening ++ body).count '\n' = body.count '\n' := by
      rw [List.count_append, hopening, Nat.zero_add]
    obtain ⟨happend, hclosed⟩ := isBody_of_textBody hbody
    -- The rest of this line is one of the lines that the literal is on.
    have hlines : Clears changed t.place.line (inner :: rows) (inner :: cleared) :=
      .keep (fun hmem => h.inLine (List.mem_append_right _ hmem)) h.ends_left h.clears
    obtain ⟨left, rows', cleared', rfl, hown, hleft, hclears, hends⟩ :=
      split_of_clears hlines ((Text.closed_cons _ _).trans happend) hclosed.getLast?_eq hblank hfeed
        fun number hfrom hto => hspared rfl number (by
          change number ≤ (Place.after t.place _).line
          rwa [Place.line_after, hcount]) hfrom
    rw [Text.closed_cons] at hown
    rw [hown, hclosed.textBody_append hescape]
    refine ⟨_, _, left, rows', cleared', rfl, rfl, ⟨rfl, rfl, hleft, ?_, h.brackets⟩, ?_, hends, h.indents⟩
    · change (Place.after t.place _).line = (Place.after s.place _).line + 0
      rw [Place.line_after, Place.line_after, h.place]
      rfl
    · change Clears changed ((Place.after t.place _).line + 1) rows' cleared'
      rwa [Place.line_after, hcount]
  · cases hnext

/-- Beside a scanner that finds a token another one finds it, too. -/
theorem next (h : Beside changed (c :: text) rows cleared s t) (hnext : next t c = .ok (lexeme, after))
    (hspared : Spared changed lexeme) : Finding changed (next s c) lexeme after := by
  cases hmark : textPrefix? (c :: text) with
  | none =>
    obtain ⟨copy, reached, left, hown, htoken, -, halong⟩ := nextPlain_alongside h.toAlongside hmark hnext
    obtain ⟨used, hfinds⟩ := next_finds h.second hnext
    obtain ⟨own, hfound⟩ := next_finds h.first hown
    exact ⟨copy, reached, left, rows, cleared, hown, htoken, h.of_finds hfound hfinds halong⟩
  | some found =>
    obtain ⟨mark, quoted⟩ := found
    obtain ⟨hsplit, quote, rest, rfl, hquote⟩ := textPrefix?_eq_some hmark
    rw [next_eq, h.second, textPrefix?_continued, hmark] at hnext
    rw [next_eq, h.first, textPrefix?_continued, hmark]
    rw [hsplit] at h
    exact h.textLiteral hquote hnext hspared

end Scanner.Beside

/-- Two scanners at the beginning of the same line of a text, and of what is left of it. -/
structure Scanner.Level (changed : Nat → Prop) (rows cleared : List (List Char)) (s t : Scanner) :
    Prop where
  first : s.rest = closed cleared
  second : t.rest = closed rows
  clears : Clears changed t.place.line rows cleared
  starts : s.atLineStart = true
  starts' : t.atLineStart = true
  place : t.place.line = s.place.line + 0
  brackets : t.brackets = lowered 0 s.brackets
  indents : t.indents = s.indents

/-- Two scanners at one place of a text and of what is left of it. -/
inductive Paired (changed : Nat → Prop) : Scanner → Scanner → Prop
  | start {rows cleared : List (List Char)} {s t : Scanner}
      (h : Scanner.Level changed rows cleared s t) : Paired changed s t
  | inLine {line : List Char} {rows cleared : List (List Char)} {s t : Scanner}
      (h : Scanner.Beside changed line rows cleared s.skipBlanks t.skipBlanks)
      (hstart : s.atLineStart = false) (hstart' : t.atLineStart = false) : Paired changed s t

/-- The step of the first scanner that belongs to a step of the second. -/
structure Paired.Follows (changed : Nat → Prop) (s : Scanner) (own : List Lexeme) (reached : Scanner)
    (lexemes : List Lexeme) (after : Scanner) : Prop where
  step : s.Step own reached
  paired : Paired changed reached after
  tokens : own.map Lexeme.token = lexemes.map Lexeme.token

section

variable {s t after : Scanner} {text : List Char} {lexemes : List Lexeme}

theorem Scanner.Beside.skipLine (h : Scanner.Beside changed text rows cleared s t) :
    Scanner.Level changed rows cleared s.skipLine t.skipLine := by
  have hline (place : Place) : (Place.after place (text ++ ['\n'])).line = place.line + 1 := by
    rw [Place.line_after, List.count_append, List.count_eq_zero_of_not_mem h.inLine]
    rfl
  rw [Scanner.skipLine_eq h.first h.inLine, Scanner.skipLine_eq h.second h.inLine]
  refine ⟨rfl, rfl, ?_, rfl, rfl, ?_, h.brackets, h.indents⟩
  · change Clears changed (Place.after t.place _).line rows cleared
    rw [hline]
    exact h.clears
  · change (Place.after t.place _).line = (Place.after s.place _).line + 0
    rw [hline, hline, h.place]

/-- Where one scanner is at the end of its line, both are. -/
theorem Scanner.Beside.lineEnd (h : Scanner.Beside changed text rows cleared s t) {rest : List Char}
    (hrest : t.rest = '\n' :: rest) : s.rest = '\n' :: closed cleared ∧
      Scanner.Level changed rows cleared { s.advance ['\n'] (closed cleared) with atLineStart := true }
        { t.advance ['\n'] rest with atLineStart := true } := by
  obtain ⟨rfl, rfl⟩ := eq_nil_of_continued h.inLine (h.second.symm.trans hrest)
  have hskip := h.skipLine
  rw [Scanner.skipLine_eq h.first h.inLine, Scanner.skipLine_eq h.second h.inLine] at hskip
  exact ⟨h.first, hskip⟩

theorem Scanner.Beside.inBlocks (h : Scanner.Beside changed text rows cleared s t)
    (indents : List (Nat × Nat)) :
    Scanner.Beside changed text rows cleared { s with indents } { t with indents } :=
  ⟨h.toAlongside.inBlocks indents indents, h.clears, h.ends, rfl⟩

/-- Both scanners enter the line that they are before. -/
theorem Scanner.Level.enter {rows' cleared' : List (List Char)} {margin own : Margin}
    (h : Scanner.Level changed rows cleared s t)
    (hentered : Entered changed t.place.line text rows' cleared' margin own) :
    Scanner.Beside changed text rows' cleared' (s.enter own) (t.enter margin) := by
  refine ⟨⟨hentered.first, hentered.second, hentered.inLine, ?_, h.brackets⟩, ?_, hentered.ends, h.indents⟩
  · change (Place.after t.place _).line = (Place.after s.place _).line + 0
    rw [Place.line_after, Place.line_after, hentered.lines, h.place]
    rfl
  · change Clears changed ((Place.after t.place _).line + 1) rows' cleared'
    rw [Place.line_after]
    exact hentered.clears

theorem Scanner.Step.exists_margin (h : s.Step lexemes after) (hstart : s.atLineStart = true) :
    ∃ margin, measure 0 0 none s.rest = .ok margin := by
  cases h with
  | blankLine _ hmargin => exact ⟨_, hmargin⟩
  | line _ hmargin => exact ⟨_, hmargin⟩
  | innerLine _ hmargin => exact ⟨_, hmargin⟩
  | comment h => exact absurd (h.symm.trans hstart) Bool.false_ne_true
  | lineEnd h => exact absurd (h.symm.trans hstart) Bool.false_ne_true
  | innerLineEnd h => exact absurd (h.symm.trans hstart) Bool.false_ne_true
  | continuation h => exact absurd (h.symm.trans hstart) Bool.false_ne_true
  | token h => exact absurd (h.symm.trans hstart) Bool.false_ne_true

/-- At the beginning of a line. -/
theorem Scanner.Level.step (h : Scanner.Level changed rows cleared s t) (hsome : cleared ≠ [])
    (hstep : t.Step lexemes after) :
    ∃ own reached, Paired.Follows changed s own reached lexemes after := by
  obtain ⟨margin, hmargin⟩ := hstep.exists_margin h.starts'
  have hlines := hmargin
  rw [h.second] at hlines
  obtain ⟨own, text, rows', cleared', hown, hentered⟩ := Entered.exists_own h.clears hsome hlines
  rw [← h.first] at hown
  have henter := h.enter hentered
  have hsame : isBlankLine own.rest = isBlankLine margin.rest := by
    rw [hentered.first, hentered.second]
    exact isBlankLine_continued _ _ _
  rcases hstep.of_margin h.starts' hmargin with ⟨hblank, rfl, rfl⟩ | ⟨hblank, hbrackets, rfl, rfl⟩ |
    ⟨hblank, hbrackets, tokens, indents, hlayout, rfl, rfl⟩
  · exact ⟨[], _, .blankLine h.starts hown (hsame.trans hblank), .start henter.skipLine, rfl⟩
  · have hopen : s.brackets ≠ [] := fun hnone =>
      hbrackets (henter.toAlongside.brackets_eq_nil_iff.mp hnone)
    exact ⟨[], _, .innerLine h.starts hown (hsame.trans hblank) hopen,
      .inLine henter.skipBlanks rfl rfl, rfl⟩
  · have htext : text ≠ [] := by
      rintro rfl
      rw [hentered.second] at hblank
      cases hblank
    obtain ⟨hwidth, hnarrow, hfixed⟩ := hentered.widths htext
    rw [← hwidth, ← hnarrow, ← hfixed, h.indents] at hlayout
    refine ⟨_, _, .line h.starts hown (hsame.trans hblank)
      (henter.toAlongside.brackets_eq_nil_iff.mpr hbrackets) hlayout,
      .inLine (henter.inBlocks indents).skipBlanks rfl rfl, ?_⟩
    rw [List.map_map, List.map_map]
    rfl

/-- A line that goes on in the next one, of which both scanners enter the text. -/
theorem Scanner.Beside.continuation (h : Scanner.Beside changed ['\\'] rows cleared s t)
    (hrows : rows ≠ []) : cleared ≠ [] ∧ ∃ text rows' cleared', Scanner.Beside changed text rows' cleared'
      (s.advance ['\\', '\n'] (closed cleared)).skipBlanks
      (t.advance ['\\', '\n'] (closed rows)).skipBlanks := by
  have hsome : cleared ≠ [] := fun hnone => h.ends hnone hrows rfl
  have hline (place : Place) : (Place.after place ['\\', '\n']).line = place.line + 1 := by
    rw [Place.line_after]
    rfl
  have hplace : (Place.after t.place ['\\', '\n']).line = (Place.after s.place ['\\', '\n']).line + 0 := by
    rw [hline, hline, h.place]
  refine ⟨hsome, ?_⟩
  have hclears := h.clears
  generalize hnumber : t.place.line + 1 = number at hclears
  cases hclears with
  | nil => exact absurd rfl hrows
  | last => exact absurd rfl hsome
  | @keep _ row rows cleared hrow hends hrest =>
    have hbeside : Scanner.Beside changed row rows cleared
        (s.advance ['\\', '\n'] (closed (row :: cleared)))
        (t.advance ['\\', '\n'] (closed (row :: rows))) := by
      refine ⟨⟨Text.closed_cons _ _, Text.closed_cons _ _, hrow, hplace, h.brackets⟩, ?_, hends, h.indents⟩
      change Clears changed ((Place.after t.place _).line + 1) rows cleared
      rwa [hline, hnumber]
    exact ⟨_, rows, cleared, hbeside.skipBlanks⟩
  | @clear _ blanks rows cleared hblanks hchanged hrest =>
    have hspace : blanks.dropWhile isSpace = [] :=
      List.dropWhile_eq_nil_iff.mpr fun b hb => isSpace_of_isIndent (hblanks b hb)
    refine ⟨[], rows, cleared, ⟨?_, ?_, List.not_mem_nil, ?_, h.brackets⟩, ?_, fun _ _ => nofun, h.indents⟩
    · change (closed ([] :: cleared)).dropWhile isSpace = _
      rw [Text.closed_cons]
      rfl
    · change (closed (blanks :: rows)).dropWhile isSpace = _
      rw [Text.closed_cons, dropWhile_continued rfl, hspace]
    · rw [Scanner.skipBlanks_line, Scanner.skipBlanks_line]
      exact hplace
    · rw [Scanner.skipBlanks_line]
      change Clears changed ((Place.after t.place _).line + 1) rows cleared
      rwa [hline, hnumber]

/-- Within a line. -/
theorem Scanner.Beside.step (h : Scanner.Beside changed text rows cleared s.skipBlanks t.skipBlanks)
    (hstart : s.atLineStart = false) (hstart' : t.atLineStart = false) (hstep : t.Step lexemes after)
    (hspared : ∀ lexeme ∈ lexemes, Spared changed lexeme) :
    ∃ own reached, Paired.Follows changed s own reached lexemes after := by
  cases hstep with
  | blankLine hstart => exact absurd (hstart'.symm.trans hstart) Bool.false_ne_true
  | line hstart => exact absurd (hstart'.symm.trans hstart) Bool.false_ne_true
  | innerLine hstart => exact absurd (hstart'.symm.trans hstart) Bool.false_ne_true
  | @comment rest _ hrest =>
    obtain ⟨left, rfl, rfl⟩ := exists_line_of_continued (by decide) (h.second.symm.trans hrest)
    have hwhole : Scanner.Beside changed ('#' :: left ++ []) rows cleared s.skipBlanks t.skipBlanks := by
      rwa [List.append_nil]
    have hcomment : s.skipBlanks.rest = '#' :: continued left (closed cleared) := h.first
    refine ⟨[], _, .comment hstart hcomment, ?_, rfl⟩
    rw [← Text.continued_cons, ← Text.continued_cons, takeWhile_line h.inLine,
      takeWhile_line h.inLine, dropWhile_line h.inLine, dropWhile_line h.inLine]
    exact .inLine hwhole.advance.skipBlanks rfl rfl
  | @lineEnd rest _ hrest hbrackets =>
    obtain ⟨hfirst, hlevel⟩ := h.lineEnd hrest
    exact ⟨_, _, .lineEnd hstart hfirst (h.brackets_eq_nil_iff.mpr hbrackets), .start hlevel, rfl⟩
  | @innerLineEnd rest _ hrest hbrackets =>
    obtain ⟨hfirst, hlevel⟩ := h.lineEnd hrest
    exact ⟨_, _, .innerLineEnd hstart hfirst fun hnone => hbrackets (h.brackets_eq_nil_iff.mp hnone),
      .start hlevel, rfl⟩
  | @continuation rest _ hrest hmore =>
    obtain ⟨left, rfl, hleft⟩ := exists_line_of_continued (by decide) (h.second.symm.trans hrest)
    obtain ⟨rfl, rfl⟩ := eq_nil_of_continued (fun hfeed => h.inLine (List.mem_cons_of_mem _ hfeed))
      hleft.symm
    have hrows : rows ≠ [] := fun hnone => hmore (hnone ▸ Text.closed_nil)
    obtain ⟨hsome, left, rows', cleared', hbeside⟩ := h.continuation hrows
    exact ⟨[], _, .continuation hstart h.first (closed_ne_nil hsome), .inLine hbeside rfl rfl, rfl⟩
  | @token _ c rest lexeme _ hrest hmark hnext =>
    have hc : c ≠ '\n' := by
      rintro rfl
      cases hmark
    obtain ⟨left, rfl, rfl⟩ := exists_line_of_continued hc (h.second.symm.trans hrest)
    obtain ⟨copy, reached, left', rows', cleared', hown, htoken, hbeside⟩ :=
      h.next hnext (hspared lexeme List.mem_cons_self)
    obtain ⟨_, hfound⟩ := next_finds hrest hnext
    obtain ⟨_, hfinds⟩ := next_finds h.first hown
    refine ⟨_, _, .token hstart h.first hmark hown,
      .inLine hbeside.skipBlanks hfinds.inLine hfound.inLine, ?_⟩
    rw [List.map_singleton, List.map_singleton, htoken]

/-- A run from where nothing is left of a text is one from where nothing is left of another. -/
theorem Scanner.Run.spent (hrun : t.Run lexemes) (hfirst : s.rest = []) (hsecond : t.rest = [])
    (hstart : s.atLineStart = true) (hstart' : t.atLineStart = true) (hindents : t.indents = s.indents)
    (hbrackets : s.brackets = [] ↔ t.brackets = []) :
    ∃ own, s.Run own ∧ own.map Lexeme.token = lexemes.map Lexeme.token := by
  have hmargin {u : Scanner} (hspent : u.rest = []) :
      measure 0 0 none u.rest = .ok ⟨0, 0, none, [], []⟩ := by
    rw [hspent]
    rfl
  cases hrun with
  | done h => exact absurd (h.start.symm.trans hstart') Bool.false_ne_true
  | @step _ after lexemes more hstep hrest =>
    rcases hstep.of_margin hstart' (hmargin hsecond) with ⟨hblank, -⟩ | ⟨-, hopen, -, rfl⟩ |
      ⟨-, hclosed, tokens, indents, hlayout, rfl, rfl⟩
    · cases hblank
    · exact absurd (hrest.of_spent rfl rfl).2 hopen
    · rw [hindents] at hlayout
      obtain ⟨rfl, -⟩ := hrest.of_spent rfl rfl
      have hdone : ({ s.enter ⟨0, 0, none, [], []⟩ with indents } : Scanner).Done :=
        ⟨rfl, rfl, hbrackets.mpr hclosed⟩
      refine ⟨_, .step (.line hstart (hmargin hfirst) rfl (hbrackets.mpr hclosed) hlayout)
        (.done hdone), ?_⟩
      rw [List.append_nil, List.append_nil, List.map_map, List.map_map]
      rfl

/-- At the end of what is left of a text, of which no line is left, or one of nothing but blanks. -/
theorem Scanner.Level.run_end (h : Scanner.Level changed rows [] s t) (hrun : t.Run lexemes) :
    ∃ own, s.Run own ∧ own.map Lexeme.token = lexemes.map Lexeme.token := by
  obtain ⟨hfirst, hsecond, hclears, hstarts, hstarts', -, hbrackets, hindents⟩ := h
  have hclosed : s.brackets = [] ↔ t.brackets = [] := by
    rw [hbrackets, lowered, List.map_eq_nil_iff]
  cases hclears with
  | nil => exact hrun.spent hfirst hsecond hstarts hstarts' hindents hclosed
  | @last _ blanks hblanks =>
    obtain ⟨wide, slim, hmeasure⟩ := exists_measure_blanks
      (fun b hb => isSpace_of_isIndent (hblanks b hb)) 0 0 none
    have hmargin : measure 0 0 none t.rest = .ok ⟨wide, slim, none, blanks ++ [], ['\n']⟩ := by
      rw [hsecond, Text.closed_cons, continued, hmeasure, measure_text rfl (by decide)]
      rfl
    cases hrun with
    | done hdone => exact absurd (hdone.start.symm.trans hstarts') Bool.false_ne_true
    | step hstep hrest =>
      rcases hstep.of_margin hstarts' hmargin with ⟨-, rfl, rfl⟩ | ⟨hblank, -⟩ | ⟨hblank, -⟩
      · exact hrest.spent hfirst rfl hstarts rfl hindents hclosed
      · cases hblank
      · cases hblank

/-- From one place on, both scans give the same tokens. -/
theorem Paired.run (h : Paired changed s t) (hrun : t.Run lexemes)
    (hspared : ∀ lexeme ∈ lexemes, Spared changed lexeme) :
    ∃ own, s.Run own ∧ own.map Lexeme.token = lexemes.map Lexeme.token := by
  induction hrun generalizing s with
  | @done t hdone =>
    cases h with
    | start hlevel => exact absurd (hdone.start.symm.trans hlevel.starts') Bool.false_ne_true
    | inLine hbeside =>
      have hrest := hbeside.second.symm.trans hdone.rest
      exact absurd hrest (List.append_ne_nil_of_right_ne_nil _ (List.cons_ne_nil _ _))
  | @step t after lexemes more hstep hrest ih =>
    have hspared' := List.forall_mem_append.mp hspared
    have hfollows : (∃ own reached, Paired.Follows changed s own reached lexemes after) →
        ∃ own, s.Run own ∧ own.map Lexeme.token = (lexemes ++ more).map Lexeme.token := by
      rintro ⟨first, reached, hfollows⟩
      obtain ⟨own, hown, htokens⟩ := ih hfollows.paired hspared'.2
      refine ⟨first ++ own, .step hfollows.step hown, ?_⟩
      rw [List.map_append, List.map_append, hfollows.tokens, htokens]
    cases h with
    | inLine hbeside hstart hstart' =>
      exact hfollows (hbeside.step hstart hstart' hstep hspared'.1)
    | @start rows cleared _ _ hlevel =>
      by_cases hsome : cleared = []
      · subst hsome
        exact hlevel.run_end (.step hstep hrest)
      · exact hfollows (hlevel.step hsome hstep)

end

end

/-- The tokens of a text are those of what is left of it where blank lines are cleared, if no text
    literal stands on a line that is. -/
theorem tokens_of_clears {changed : Nat → Prop} {rows cleared : List (List Char)}
    (h : Clears changed 1 rows cleared) (hfault : (scan (closed rows)).fault = none)
    (hspared : ∀ lexeme ∈ (scan (closed rows)).lexemes, Spared changed lexeme) :
    (scan (closed cleared)).tokens = (scan (closed rows)).tokens := by
  have hlevel : Scanner.Level changed rows cleared (.start (closed cleared)) (.start (closed rows)) :=
    ⟨rfl, rfl, h, rfl, rfl, rfl, rfl, rfl⟩
  generalize hscan : scan (closed rows) = whole at hfault hspared
  obtain ⟨lexemes, fault⟩ := whole
  obtain rfl : fault = none := hfault
  obtain ⟨own, hown, htokens⟩ := (Paired.start hlevel).run ((scan_eq_iff _ _).mp hscan) hspared
  rw [(scan_eq_iff _ _).mpr hown, Scan.tokens, Scan.tokens, htokens]

end TableAudit.Token
