import TableAudit.Proofs.Token.Header
import TableAudit.Proofs.Token.Layout

namespace TableAudit

open Text (continued closed indented columns)
open Text.Margin (isIndent)

namespace Token

theorem isSpace_of_isIndent {c : Char} (h : isIndent c = true) : isSpace c = true := by
  rw [isSpace, show (c == ' ' || c == '\t') = true from h, Bool.true_or]

theorem feed_not_mem_of_isSpace {blanks : List Char} (h : ∀ b ∈ blanks, isSpace b = true) :
    '\n' ∉ blanks :=
  fun hfeed => absurd (h _ hfeed) (by decide)

/-- A line with text in it, after blanks of which none takes the line back to its beginning; or a
    line without any. -/
structure IsRow (row : List Char) : Prop where
  inLine : '\n' ∉ row
  blanks : ∀ b ∈ row.takeWhile isSpace, isIndent b = true
  text : row.dropWhile isSpace = [] → row = []
  escape : (row.dropWhile isSpace).head? ≠ some '\\'

theorem measure_blanks {blanks : List Char} (hblanks : ∀ b ∈ blanks, isIndent b = true)
    (width narrow : Nat) (rest : List Char) : measure width narrow none (blanks ++ rest) =
      (measure (columns (width, narrow) blanks).1 (columns (width, narrow) blanks).2 none rest).map
        fun m => { m with blanks := blanks ++ m.blanks } := by
  induction blanks generalizing width narrow with
  | nil =>
    change measure width narrow none rest = (measure width narrow none rest).map id
    cases measure width narrow none rest <;> rfl
  | cons b blanks ih =>
    rw [List.forall_mem_cons] at hblanks
    have hmap (found : Except FaultKind Margin) :
        ((found.map fun m => { m with blanks := blanks ++ m.blanks }).map
          fun m => { m with blanks := b :: m.blanks }) =
          found.map fun m => { m with blanks := b :: blanks ++ m.blanks } := by
      cases found <;> rfl
    obtain ⟨hb, hrest⟩ := hblanks
    rw [isIndent, Bool.or_eq_true, beq_iff_eq, beq_iff_eq] at hb
    rcases hb with rfl | rfl
    · rw [List.cons_append, measure, ih hrest]
      exact hmap _
    · rw [List.cons_append, measure, ih hrest]
      exact hmap _

namespace IsRow

variable {row : List Char}

/-- The margin of a line. -/
def margin (row more : List Char) : Margin :=
  ⟨(columns (0, 0) (row.takeWhile isSpace)).1, (columns (0, 0) (row.takeWhile isSpace)).2, none,
    row.takeWhile isSpace, continued (row.dropWhile isSpace) more⟩

theorem measure (h : IsRow row) (more : List Char) :
    measure 0 0 none (continued row more) = .ok (margin row more) := by
  have hsplit : continued row more =
      row.takeWhile isSpace ++ continued (row.dropWhile isSpace) more := by
    rw [continued, continued, ← List.append_assoc, List.takeWhile_append_dropWhile]
  rw [hsplit, measure_blanks h.blanks]
  have hhead := List.head?_dropWhile_not isSpace row
  have hescape := h.escape
  unfold margin
  cases hline : row.dropWhile isSpace with
  | nil =>
    rw [Text.continued_nil, measure_text rfl (by decide)]
    simp [Except.map]
  | cons c line =>
    rw [hline] at hhead hescape
    rw [Text.continued_cons, measure_text hhead fun hc => hescape (congrArg some hc)]
    simp [Except.map]

theorem dropWhile_indented {blanks : List Char} (hblanks : ∀ b ∈ blanks, isIndent b = true) :
    (indented blanks row).dropWhile isSpace = row.dropWhile isSpace := by
  cases row with
  | nil => rfl
  | cons c row =>
    exact List.dropWhile_append_of_pos fun b hb => isSpace_of_isIndent (hblanks b hb)

theorem takeWhile_indented {blanks : List Char} (hblanks : ∀ b ∈ blanks, isIndent b = true)
    (hrow : row ≠ []) :
    (indented blanks row).takeWhile isSpace = blanks ++ row.takeWhile isSpace := by
  cases row with
  | nil => exact absurd rfl hrow
  | cons c row =>
    exact List.takeWhile_append_of_pos fun b hb => isSpace_of_isIndent (hblanks b hb)

theorem indented {blanks : List Char} (hblanks : ∀ b ∈ blanks, isIndent b = true) (h : IsRow row) :
    IsRow (indented blanks row) := by
  by_cases hrow : row = []
  · subst hrow
    exact h
  · refine ⟨?_, ?_, ?_, ?_⟩
    · cases row with
      | nil => exact h.inLine
      | cons c row =>
        refine fun hfeed => (List.mem_append.mp hfeed).elim ?_ h.inLine
        exact feed_not_mem_of_isSpace fun b hb => isSpace_of_isIndent (hblanks b hb)
    · rw [takeWhile_indented hblanks hrow]
      exact List.forall_mem_append.mpr ⟨hblanks, h.blanks⟩
    · rw [dropWhile_indented hblanks]
      exact fun htext => absurd (h.text htext) hrow
    · rw [dropWhile_indented hblanks]
      exact h.escape

end IsRow

/-- A line of a block with a margin as wide where the block is to the right of some columns. -/
structure Lays (wide : Nat) (row : List Char) : Prop extends IsRow row where
  tabs : '\t' ∈ row.takeWhile isSpace → 8 ∣ wide

/-- What a lexeme is to the one in a block further down. -/
structure Lexeme.Copy (count : Nat) (own copy : Lexeme) : Prop where
  token : copy.token = own.token
  line : copy.start.line = own.start.line + count

/-- Two scanners at the beginning of the same line of a block, which stands further down and further
    to the right in the second text. -/
structure Scanner.Abreast (count : Nat) (blanks : List Char) (rows : List (List Char))
    (s t : Scanner) : Prop where
  first : s.rest = closed rows
  second : t.rest = closed (rows.map (indented blanks))
  starts : s.atLineStart = true
  starts' : t.atLineStart = true
  place : t.place.line = s.place.line + count
  brackets : t.brackets = lowered count s.brackets

section

variable {count wide slim : Nat} {blanks line : List Char} {rows : List (List Char)} {s t : Scanner}

theorem Scanner.Alongside.skipBlanks {more other : List Char}
    (h : Scanner.Alongside count line more other s t) :
    Scanner.Alongside count (line.dropWhile isSpace) more other s.skipBlanks t.skipBlanks := by
  have hspace : isSpace '\n' = false := rfl
  have hadvance : Scanner.Alongside count (line.takeWhile isSpace ++ line.dropWhile isSpace) more other s t := by
    rwa [List.takeWhile_append_dropWhile]
  unfold Scanner.skipBlanks
  rw [h.first, h.second, takeWhile_continued hspace, takeWhile_continued hspace,
    dropWhile_continued hspace, dropWhile_continued hspace]
  exact hadvance.advance

theorem takeWhile_line (hline : '\n' ∉ line) (more : List Char) :
    (continued line more).takeWhile (· != '\n') = line := by
  rw [continued, List.takeWhile_append_of_pos]
  · simp
  · intro c hc
    rw [bne_iff_ne]
    rintro rfl
    exact hline hc

theorem dropWhile_line (hline : '\n' ∉ line) (more : List Char) :
    (continued line more).dropWhile (· != '\n') = '\n' :: more := by
  rw [continued, List.dropWhile_append_of_pos]
  · rfl
  · intro c hc
    rw [bne_iff_ne]
    rintro rfl
    exact hline hc

theorem Scanner.skipLine_eq {more : List Char} (hrest : s.rest = continued line more)
    (hline : '\n' ∉ line) :
    s.skipLine = { s.advance (line ++ ['\n']) more with atLineStart := true } := by
  unfold Scanner.skipLine
  rw [hrest, takeWhile_line hline, dropWhile_line hline]

theorem Scanner.Alongside.skipLine
    (h : Scanner.Alongside count line (closed rows) (closed (rows.map (indented blanks))) s t) :
    Scanner.Abreast count blanks rows s.skipLine t.skipLine := by
  rw [Scanner.skipLine_eq h.first h.inLine, Scanner.skipLine_eq h.second h.inLine]
  refine ⟨rfl, rfl, rfl, rfl, ?_, h.brackets⟩
  change (Place.after t.place _).line = (Place.after s.place _).line + count
  rw [Place.line_after, Place.line_after, h.place]
  omega

/-- Both scanners go on in the line. -/
theorem Scanner.Abreast.enter {row : List Char}
    (h : Scanner.Abreast count blanks (row :: rows) s t) (hrow : IsRow row)
    (hblanks : ∀ b ∈ blanks, isIndent b = true) :
    measure 0 0 none s.rest = .ok (IsRow.margin row (closed rows)) ∧
      measure 0 0 none t.rest =
        .ok (IsRow.margin (indented blanks row) (closed (rows.map (indented blanks)))) ∧
      Scanner.Alongside count (row.dropWhile isSpace) (closed rows)
        (closed (rows.map (indented blanks))) (s.enter (IsRow.margin row (closed rows)))
        (t.enter (IsRow.margin (indented blanks row) (closed (rows.map (indented blanks))))) := by
  have hplace (place : Place) (row : List Char) :
      (Place.after place (row.takeWhile isSpace)).line = place.line := by
    rw [Place.line_after, List.count_eq_zero_of_not_mem]
    · rfl
    · exact feed_not_mem_of_isSpace fun b hb => List.mem_takeWhile_imp hb
  refine ⟨?_, ?_, rfl, ?_, ?_, ?_, h.brackets⟩
  · rw [h.first, Text.closed_cons, hrow.measure]
  · rw [h.second, List.map_cons, Text.closed_cons, (hrow.indented hblanks).measure]
  · change continued ((indented blanks row).dropWhile isSpace) _ = _
    rw [IsRow.dropWhile_indented hblanks]
  · exact fun hfeed => hrow.inLine ((List.dropWhile_suffix _).mem hfeed)
  · exact (hplace _ _).trans (h.place.trans (congrArg (· + count) (hplace _ _).symm))

end

end Token

end TableAudit
