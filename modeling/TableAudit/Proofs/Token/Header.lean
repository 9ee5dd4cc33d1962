import TableAudit.Proofs.Token.Steps

namespace TableAudit

namespace Token

theorem Scanner.Takes.line_le {s after : Scanner} {used : List Char} (h : s.Takes used after) :
    s.place.line ≤ after.place.line := by
  rw [h.place, Place.line_after]
  exact Nat.le_add_right _ _

@[simp] theorem Scanner.skipLine_indents (s : Scanner) : s.skipLine.indents = s.indents := by
  unfold skipLine
  split <;> rfl

@[simp] theorem Scanner.skipLine_brackets (s : Scanner) : s.skipLine.brackets = s.brackets := by
  unfold skipLine
  split <;> rfl

/-- The layout of a line outside blocks. -/
theorem layout_outside {width narrow : Nat} {tokens : List Token} {indents : List (Nat × Nat)}
    (h : layout width narrow [(0, 0)] = some (tokens, indents)) :
    tokens = [] ∧ indents = [(0, 0)] ∨ tokens = [indent] := by
  unfold layout at h
  dsimp only [List.headD_cons] at h
  split at h
  · split at h
    · cases h
      exact .inl ⟨rfl, rfl⟩
    · cases h
  · split at h
    · split at h
      · cases h
      · cases h
        exact .inr rfl
    · omega

/-- What a step outside blocks gives: nothing, a token of a line, the end of a line or the beginning
    of a block. -/
inductive Scanner.Step.Outside (s after : Scanner) : List Lexeme → Prop
  | nothing (hindents : after.indents = [(0, 0)]) : Outside s after []
  | token {lexeme : Lexeme} (htoken : lexeme.token.isLayout = false)
      (hindents : after.indents = [(0, 0)]) (hline : lexeme.start.line ≤ after.place.line) :
      Outside s after [lexeme]
  | lineEnd {lexeme : Lexeme} {used : List Char} (htoken : lexeme.token = newline)
      (htakes : s.Takes (used ++ ['\n']) after) (hbegins : after.Begins after.rest)
      (hline : after.place.line = lexeme.start.line + 1) : Outside s after [lexeme]
  | block {lexeme : Lexeme} (htoken : lexeme.token = indent) : Outside s after [lexeme]

theorem Scanner.Step.outside {s after : Scanner} {lexemes : List Lexeme} (h : s.Step lexemes after)
    (hindents : s.indents = [(0, 0)]) : Outside s after lexemes := by
  cases h with
  | blankLine => exact .nothing ((skipLine_indents _).trans hindents)
  | line hstart hmargin hblank hbrackets hlayout =>
    rw [hindents] at hlayout
    rcases layout_outside hlayout with ⟨rfl, rfl⟩ | rfl
    · exact .nothing rfl
    · exact .block rfl
  | innerLine => exact .nothing hindents
  | comment => exact .nothing hindents
  | lineEnd hstart hrest hbrackets =>
    have htakes : s.skipBlanks.Takes ['\n'] { s.skipBlanks.advance ['\n'] _ with atLineStart := true } :=
      ⟨hrest, rfl⟩
    exact .lineEnd rfl (s.takes_skipBlanks.trans htakes) ⟨rfl, hindents, hbrackets, rfl⟩ rfl
  | innerLineEnd => exact .nothing hindents
  | continuation => exact .nothing hindents
  | token hstart hrest hmark hnext =>
    obtain ⟨used, hfinds⟩ := next_finds hrest hnext
    refine .token hfinds.notLayout (hfinds.indents.trans hindents) ?_
    rw [hfinds.start]
    exact hfinds.line_le

/-- A scan reaches the line after a line end before which no block begins. -/
theorem Scanner.Run.after_header {s : Scanner} {before rest : List Lexeme} {lineEnd : Lexeme}
    (h : s.Run (before ++ lineEnd :: rest)) (hindents : s.indents = [(0, 0)])
    (hindent : ∀ lexeme ∈ before, lexeme.token ≠ .indent) (hnewline : lineEnd.token = .newline) :
    ∃ used after, s.Takes (used ++ ['\n']) after ∧ after.Begins after.rest ∧ after.Run rest ∧
      after.place.line = lineEnd.start.line + 1 ∧
      ∀ lexeme ∈ before, lexeme.start.line ≤ lineEnd.start.line := by
  generalize hall : before ++ lineEnd :: rest = all at h
  induction h generalizing before with
  | done => exact absurd hall (List.append_ne_nil_of_right_ne_nil _ (List.cons_ne_nil _ _))
  | @step s middle lexemes more hstep hrest ih =>
    obtain ⟨taken, htaken⟩ := hstep.moves.takes
    -- A step that is not the line end is one of those before it.
    have hgoes {earlier : List Lexeme} (hmiddle : middle.indents = [(0, 0)])
        (hbefore : before = lexemes ++ earlier)
        (hline : ∀ lexeme ∈ lexemes, lexeme.start.line ≤ middle.place.line) :
        ∃ used after, s.Takes (used ++ ['\n']) after ∧ after.Begins after.rest ∧ after.Run rest ∧
          after.place.line = lineEnd.start.line + 1 ∧
          ∀ lexeme ∈ before, lexeme.start.line ≤ lineEnd.start.line := by
      subst hbefore
      rw [List.append_assoc, List.append_cancel_left_eq] at hall
      obtain ⟨used, after, htakes, hbegins, hrun, hplace, hearlier⟩ :=
        ih hmiddle (fun lexeme h => hindent lexeme (List.mem_append_right _ h)) hall
      have hle : middle.place.line + 1 ≤ after.place.line := by
        rw [htakes.place, Place.line_after, List.count_append, List.count_singleton_self]
        omega
      refine ⟨taken ++ used, after, ?_, hbegins, hrun, hplace, fun lexeme hmem => ?_⟩
      · rw [List.append_assoc]
        exact htaken.trans htakes
      · rcases List.mem_append.mp hmem with hmem | hmem
        · have hlexeme := hline lexeme hmem
          omega
        · exact hearlier lexeme hmem
    cases hstep.outside hindents with
    | nothing hmiddle => exact hgoes hmiddle rfl (List.forall_mem_nil _)
    | @token lexeme htoken hmiddle hline =>
      cases before with
      | nil =>
        obtain rfl : lineEnd = lexeme := (List.cons.inj hall).1
        rw [hnewline] at htoken
        cases htoken
      | cons first before =>
        obtain rfl : first = lexeme := (List.cons.inj hall).1
        exact hgoes hmiddle rfl (List.forall_mem_singleton.mpr hline)
    | @lineEnd lexeme used htoken htakes hbegins hline =>
      cases before with
      | nil =>
        obtain ⟨rfl, rfl⟩ := List.cons.inj hall
        exact ⟨used, middle, htakes, hbegins, hrest, hline, List.forall_mem_nil _⟩
      | cons first before =>
        obtain rfl : first = lexeme := (List.cons.inj hall).1
        refine hgoes hbegins.indents rfl (List.forall_mem_singleton.mpr ?_)
        omega
    | @block lexeme htoken =>
      cases before with
      | nil =>
        obtain rfl : lineEnd = lexeme := (List.cons.inj hall).1
        rw [hnewline] at htoken
        cases htoken
      | cons first before =>
        obtain rfl : first = lexeme := (List.cons.inj hall).1
        exact absurd htoken (hindent _ List.mem_cons_self)

end Token

end TableAudit
