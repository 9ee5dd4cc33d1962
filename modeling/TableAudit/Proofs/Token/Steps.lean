import TableAudit.Proofs.Token.Local

namespace TableAudit

namespace Token

/-- The state at the first character of a line that is no blank. -/
def Scanner.enter (s : Scanner) (margin : Margin) : Scanner :=
  s.advance margin.blanks margin.rest

/-- A line without tokens begins with a comment, or ends at once. -/
def isBlankLine : List Char → Bool
  | c :: _ => c == '#' || c == '\n'
  | [] => false

/-- What one step of a scan does, and the lexemes that it gives. -/
inductive Scanner.Step : Scanner → List Lexeme → Scanner → Prop
  | blankLine {s : Scanner} {margin : Margin} (hstart : s.atLineStart = true)
      (hmargin : measure 0 0 none s.rest = .ok margin) (hblank : isBlankLine margin.rest = true) :
      Step s [] (s.enter margin).skipLine
  | line {s : Scanner} {margin : Margin} {tokens : List Token} {indents : List (Nat × Nat)}
      (hstart : s.atLineStart = true) (hmargin : measure 0 0 none s.rest = .ok margin)
      (hblank : isBlankLine margin.rest = false) (hbrackets : s.brackets = [])
      (hlayout : layout (margin.fixed.getD (margin.width, margin.narrow)).1
        (margin.fixed.getD (margin.width, margin.narrow)).2 s.indents = some (tokens, indents)) :
      Step s (tokens.map (layoutAt (s.enter margin))) { s.enter margin with indents }
  | innerLine {s : Scanner} {margin : Margin} (hstart : s.atLineStart = true)
      (hmargin : measure 0 0 none s.rest = .ok margin) (hblank : isBlankLine margin.rest = false)
      (hbrackets : s.brackets ≠ []) : Step s [] (s.enter margin)
  | comment {s : Scanner} {rest : List Char} (hstart : s.atLineStart = false)
      (hrest : s.skipBlanks.rest = '#' :: rest) :
      Step s [] (s.skipBlanks.advance (('#' :: rest).takeWhile (· != '\n'))
        (('#' :: rest).dropWhile (· != '\n')))
  | lineEnd {s : Scanner} {rest : List Char} (hstart : s.atLineStart = false)
      (hrest : s.skipBlanks.rest = '\n' :: rest) (hbrackets : s.brackets = []) :
      Step s [⟨newline, s.skipBlanks.place, s.skipBlanks.place⟩]
        { s.skipBlanks.advance ['\n'] rest with atLineStart := true }
  | innerLineEnd {s : Scanner} {rest : List Char} (hstart : s.atLineStart = false)
      (hrest : s.skipBlanks.rest = '\n' :: rest) (hbrackets : s.brackets ≠ []) :
      Step s [] { s.skipBlanks.advance ['\n'] rest with atLineStart := true }
  | continuation {s : Scanner} {rest : List Char} (hstart : s.atLineStart = false)
      (hrest : s.skipBlanks.rest = '\\' :: '\n' :: rest) (hmore : rest ≠ []) :
      Step s [] (s.skipBlanks.advance ['\\', '\n'] rest)
  | token {s after : Scanner} {c : Char} {rest : List Char} {lexeme : Lexeme}
      (hstart : s.atLineStart = false) (hrest : s.skipBlanks.rest = c :: rest)
      (hmark : isLayoutMark c = false) (hnext : next s.skipBlanks c = .ok (lexeme, after)) :
      Step s [lexeme] after

/-- The end of a scan, outside brackets. -/
structure Scanner.Done (s : Scanner) : Prop where
  start : s.atLineStart = false
  rest : s.skipBlanks.rest = []
  brackets : s.brackets = []

theorem Scanner.Done.scanFrom {s : Scanner} (h : s.Done) (fuel : Nat) :
    scanFrom (fuel + 1) s = ⟨[], none⟩ := by
  have hrest : s.rest.dropWhile isSpace = [] := h.rest
  rw [Token.scanFrom, h.start, if_neg Bool.false_ne_true]
  simp only [hrest]
  exact if_pos (List.isEmpty_iff.mpr h.brackets)

theorem not_isSpace_of_skipBlanks {s : Scanner} {c : Char} {rest : List Char}
    (h : s.skipBlanks.rest = c :: rest) : isSpace c = false := by
  have hhead := List.head?_dropWhile_not isSpace s.rest
  change s.rest.dropWhile isSpace = c :: rest at h
  rw [h] at hhead
  exact hhead

/-- At the beginning of a line a step looks at the margin and at what is after it. -/
theorem scanFrom_atStart {s : Scanner} {margin : Margin} (hstart : s.atLineStart = true)
    (hmargin : measure 0 0 none s.rest = .ok margin) (fuel : Nat) :
    scanFrom (fuel + 1) s =
      if isBlankLine margin.rest then scanFrom fuel (s.enter margin).skipLine
      else if s.brackets.isEmpty then
        match layout (margin.fixed.getD (margin.width, margin.narrow)).1
          (margin.fixed.getD (margin.width, margin.narrow)).2 s.indents with
        | none => ⟨[], some ((s.enter margin).fault .layout)⟩
        | some (tokens, indents) => Scan.before (tokens.map (layoutAt (s.enter margin)))
            (scanFrom fuel { s.enter margin with indents })
      else scanFrom fuel (s.enter margin) := by
  rw [scanFrom, if_pos hstart, hmargin]
  dsimp only
  split
  · next hrest =>
    have hblank : isBlankLine margin.rest = true := by
      rw [hrest]
      rfl
    rw [if_pos hblank]
    rfl
  · next hrest =>
    have hblank : isBlankLine margin.rest = true := by
      rw [hrest]
      rfl
    rw [if_pos hblank]
    rfl
  · next hcomment hline =>
    have hblank : isBlankLine margin.rest = false := by
      cases hrest : margin.rest with
      | nil => rfl
      | cons c rest =>
        rw [isBlankLine, Bool.or_eq_false_iff, beq_eq_false_iff_ne, beq_eq_false_iff_ne]
        constructor
        · rintro rfl
          exact hcomment rest hrest
        · rintro rfl
          exact hline rest hrest
    rw [hblank, if_neg Bool.false_ne_true]
    rfl

/-- Within a line a step looks at the first character that is no blank. -/
theorem scanFrom_inLine {s : Scanner} (hstart : s.atLineStart = false) (fuel : Nat) :
    scanFrom (fuel + 1) s =
      match s.skipBlanks.rest with
      | [] => finish s.skipBlanks
      | '#' :: _ =>
        scanFrom fuel (s.skipBlanks.advance (s.skipBlanks.rest.takeWhile (· != '\n'))
          (s.skipBlanks.rest.dropWhile (· != '\n')))
      | '\n' :: rest =>
        let after := { s.skipBlanks.advance ['\n'] rest with atLineStart := true }
        if s.skipBlanks.brackets.isEmpty then
          Scan.before [⟨newline, s.skipBlanks.place, s.skipBlanks.place⟩] (scanFrom fuel after)
        else scanFrom fuel after
      | '\\' :: '\n' :: rest =>
        if rest.isEmpty then ⟨[], some ⟨.endOfText, s.skipBlanks.place.line, s.skipBlanks.brackets⟩⟩
        else scanFrom fuel (s.skipBlanks.advance ['\\', '\n'] rest)
      | '\\' :: _ => ⟨[], some (s.skipBlanks.fault .layout)⟩
      | c :: _ =>
        match next s.skipBlanks c with
        | .error reason => ⟨[], some reason⟩
        | .ok (lexeme, after) => Scan.before [lexeme] (scanFrom fuel after) := by
  rw [Token.scanFrom, hstart, if_neg Bool.false_ne_true]
  rfl

theorem Scanner.Step.scanFrom {s after : Scanner} {lexemes : List Lexeme} (h : s.Step lexemes after)
    (fuel : Nat) : scanFrom (fuel + 1) s = Scan.before lexemes (scanFrom fuel after) := by
  cases h with
  | blankLine hstart hmargin hblank =>
    rw [scanFrom_atStart hstart hmargin, if_pos hblank]
    rfl
  | line hstart hmargin hblank hbrackets hlayout =>
    rw [scanFrom_atStart hstart hmargin, hblank, if_neg Bool.false_ne_true,
      if_pos (List.isEmpty_iff.mpr hbrackets), hlayout]
  | innerLine hstart hmargin hblank hbrackets =>
    rw [scanFrom_atStart hstart hmargin, hblank, if_neg Bool.false_ne_true,
      if_neg fun h => hbrackets (List.isEmpty_iff.mp h)]
    rfl
  | comment hstart hrest =>
    rw [scanFrom_inLine hstart, hrest]
    rfl
  | lineEnd hstart hrest hbrackets =>
    rw [scanFrom_inLine hstart, hrest]
    exact if_pos (List.isEmpty_iff.mpr hbrackets)
  | innerLineEnd hstart hrest hbrackets =>
    rw [scanFrom_inLine hstart, hrest]
    exact if_neg fun h => hbrackets (List.isEmpty_iff.mp h)
  | continuation hstart hrest hmore =>
    rw [scanFrom_inLine hstart, hrest]
    exact if_neg fun h => hmore (List.isEmpty_iff.mp h)
  | @token after c rest lexeme hstart hrest hmark hnext =>
    rw [scanFrom_of_token hstart hrest hmark, hnext]

theorem step_of_atStart {s : Scanner} (hstart : s.atLineStart = true) (fuel : Nat) :
    (∃ lexemes after, s.Step lexemes after) ∨ ∃ fault, scanFrom (fuel + 1) s = ⟨[], some fault⟩ := by
  cases hmargin : measure 0 0 none s.rest with
  | error kind =>
    rw [scanFrom, if_pos hstart, hmargin]
    exact .inr ⟨_, rfl⟩
  | ok margin =>
    rw [scanFrom_atStart hstart hmargin]
    cases hblank : isBlankLine margin.rest with
    | true => exact .inl ⟨_, _, .blankLine hstart hmargin hblank⟩
    | false =>
      rw [if_neg Bool.false_ne_true]
      by_cases hbrackets : s.brackets.isEmpty = true
      · rw [if_pos hbrackets]
        split
        · exact .inr ⟨_, rfl⟩
        · next hlayout =>
          exact .inl ⟨_, _, .line hstart hmargin hblank (List.isEmpty_iff.mp hbrackets) hlayout⟩
      · exact .inl ⟨_, _, .innerLine hstart hmargin hblank fun h =>
          hbrackets (List.isEmpty_iff.mpr h)⟩

theorem step_of_inLine {s : Scanner} (hstart : s.atLineStart = false) (fuel : Nat) :
    s.Done ∨ (∃ lexemes after, s.Step lexemes after) ∨
      ∃ fault, scanFrom (fuel + 1) s = ⟨[], some fault⟩ := by
  rw [scanFrom_inLine hstart]
  split
  · next hrest =>
    unfold finish
    by_cases hbrackets : s.skipBlanks.brackets.isEmpty = true
    · exact .inl ⟨hstart, hrest, List.isEmpty_iff.mp hbrackets⟩
    · rw [if_neg hbrackets]
      exact .inr (.inr ⟨_, rfl⟩)
  · next hrest =>
    exact .inr (.inl ⟨_, _, .comment hstart hrest⟩)
  · next hrest =>
    by_cases hbrackets : s.brackets = []
    · exact .inr (.inl ⟨_, _, .lineEnd hstart hrest hbrackets⟩)
    · exact .inr (.inl ⟨_, _, .innerLineEnd hstart hrest hbrackets⟩)
  · next rest hrest =>
    by_cases hmore : rest.isEmpty = true
    · rw [if_pos hmore]
      exact .inr (.inr ⟨_, rfl⟩)
    · exact .inr (.inl ⟨_, _, .continuation hstart hrest fun h => hmore (List.isEmpty_iff.mpr h)⟩)
  · exact .inr (.inr ⟨_, rfl⟩)
  · next c rest hcomment hline _ hescape hrest =>
    cases hnext : next s.skipBlanks c with
    | error reason => exact .inr (.inr ⟨_, rfl⟩)
    | ok found =>
      have hspace : isSpace c = false := not_isSpace_of_skipBlanks hrest
      have hmark : isLayoutMark c = false := by
        simp only [isLayoutMark, Bool.or_eq_false_iff, beq_eq_false_iff_ne]
        exact ⟨⟨⟨hspace, hcomment⟩, hline⟩, hescape⟩
      exact .inr (.inl ⟨_, _, .token hstart hrest hmark hnext⟩)

/-- A scan is done, or makes a step, or stops at a fault. -/
theorem step_or_fault (s : Scanner) (fuel : Nat) :
    s.Done ∨ (∃ lexemes after, s.Step lexemes after) ∨
      ∃ fault, scanFrom (fuel + 1) s = ⟨[], some fault⟩ := by
  cases hstart : s.atLineStart with
  | true => exact .inr (step_of_atStart hstart fuel)
  | false => exact step_of_inLine hstart fuel

/-- Blanks of a margin in front of more of them. -/
theorem measure_map (used : List Char) {left : List Char} {found : Except FaultKind Margin} {margin : Margin}
    (ih : ∀ inner, found = .ok inner → left = inner.blanks ++ inner.rest)
    (h : (found.map fun m => { m with blanks := used ++ m.blanks }) = .ok margin) :
    used ++ left = margin.blanks ++ margin.rest := by
  cases found with
  | error => cases h
  | ok inner =>
    cases h
    rw [List.append_assoc, ← ih inner rfl]

theorem measure_takes {width narrow : Nat} {fixed : Option (Nat × Nat)} {text : List Char}
    {margin : Margin} (h : measure width narrow fixed text = .ok margin) :
    text = margin.blanks ++ margin.rest := by
  fun_induction measure width narrow fixed text generalizing margin with
  | case1 _ _ _ rest ih => exact measure_map [' '] (fun _ => ih) h
  | case2 _ _ _ rest ih => exact measure_map ['\t'] (fun _ => ih) h
  | case3 _ _ _ rest ih => exact measure_map ['\x0c'] (fun _ => ih) h
  | case4 => cases h
  | case5 => next ih => exact measure_map ['\\', '\n'] (fun _ => ih) h
  | case6 => cases h
  | case7 =>
    cases h
    rfl

theorem Place.after_append (place : Place) (first second : List Char) :
    place.after (first ++ second) = (place.after first).after second :=
  List.foldl_append

theorem Scanner.Takes.trans {s middle after : Scanner} {used more : List Char}
    (h : s.Takes used middle) (h' : middle.Takes more after) : s.Takes (used ++ more) after where
  rest := by rw [h.rest, h'.rest, List.append_assoc]
  place := by rw [h'.place, h.place, Place.after_append]

theorem Scanner.takes_advance {s : Scanner} {used left : List Char} (h : s.rest = used ++ left) :
    s.Takes used (s.advance used left) :=
  ⟨h, rfl⟩

theorem Scanner.takes_skipBlanks (s : Scanner) :
    s.Takes (s.rest.takeWhile isSpace) s.skipBlanks :=
  takes_advance List.takeWhile_append_dropWhile.symm

theorem Scanner.takes_skipLine {s : Scanner} (h : s.rest ≠ []) :
    ∃ used, used ≠ [] ∧ s.Takes used s.skipLine := by
  have hsplit := List.takeWhile_append_dropWhile (p := (· != '\n')) (l := s.rest)
  unfold skipLine
  split
  · exact ⟨s.rest, h, takes_advance (List.append_nil _).symm⟩
  · next c rest hrest =>
    refine ⟨s.rest.takeWhile (· != '\n') ++ [c], List.append_ne_nil_of_right_ne_nil _ (by simp), ?_, rfl⟩
    rw [hrest] at hsplit
    change s.rest = _ ++ rest
    rw [List.append_assoc]
    exact hsplit.symm

/-- A bound for the steps that are left. -/
def Scanner.size (s : Scanner) : Nat :=
  2 * s.rest.length + if s.atLineStart then 1 else 0

/-- A step moves on in the text, or from the beginning of a line into it. -/
structure Scanner.Step.Moves (s after : Scanner) : Prop where
  takes : ∃ used, s.Takes used after
  size : after.size < s.size

theorem Scanner.Takes.moves {s after : Scanner} {used : List Char} (h : s.Takes used after)
    (hused : used ≠ []) : Step.Moves s after where
  takes := ⟨used, h⟩
  size := by
    have hlength := congrArg List.length h.rest
    have hpos := List.length_pos_iff.mpr hused
    rw [List.length_append] at hlength
    unfold size
    split <;> split <;> omega

theorem Scanner.Takes.moves_into {s after : Scanner} {used : List Char} (h : s.Takes used after)
    (hstart : s.atLineStart = true) (hafter : after.atLineStart = false) : Step.Moves s after where
  takes := ⟨used, h⟩
  size := by
    have hlength := congrArg List.length h.rest
    rw [List.length_append] at hlength
    unfold size
    rw [hstart, hafter, if_pos rfl, if_neg Bool.false_ne_true]
    omega

theorem Scanner.takes_enter {s : Scanner} {margin : Margin}
    (hmargin : measure 0 0 none s.rest = .ok margin) : s.Takes margin.blanks (s.enter margin) :=
  takes_advance (measure_takes hmargin)

theorem Scanner.Step.moves {s after : Scanner} {lexemes : List Lexeme} (h : s.Step lexemes after) :
    Moves s after := by
  have hblanks := s.takes_skipBlanks
  cases h with
  | @blankLine margin hstart hmargin hblank =>
    have hrest : (s.enter margin).rest ≠ [] := by
      change margin.rest ≠ []
      rintro hempty
      rw [hempty] at hblank
      cases hblank
    obtain ⟨used, hused, htakes⟩ := takes_skipLine hrest
    exact ((takes_enter hmargin).trans htakes).moves (List.append_ne_nil_of_right_ne_nil _ hused)
  | @line margin tokens indents hstart hmargin hblank hbrackets hlayout =>
    have htakes : s.Takes margin.blanks { s.enter margin with indents } :=
      ⟨(takes_enter hmargin).rest, (takes_enter hmargin).place⟩
    exact htakes.moves_into hstart rfl
  | innerLine hstart hmargin hblank hbrackets => exact (takes_enter hmargin).moves_into hstart rfl
  | @comment rest hstart hrest =>
    have htakes := takes_advance
      (hrest.trans (List.takeWhile_append_dropWhile (p := (· != '\n')) (l := '#' :: rest)).symm)
    refine (hblanks.trans htakes).moves (List.append_ne_nil_of_right_ne_nil _ ?_)
    exact List.cons_ne_nil _ _
  | @lineEnd rest hstart hrest hbrackets =>
    have htakes : s.skipBlanks.Takes ['\n']
        { s.skipBlanks.advance ['\n'] rest with atLineStart := true } := ⟨hrest, rfl⟩
    exact (hblanks.trans htakes).moves (List.append_ne_nil_of_right_ne_nil _ (List.cons_ne_nil _ _))
  | @innerLineEnd rest hstart hrest hbrackets =>
    have htakes : s.skipBlanks.Takes ['\n']
        { s.skipBlanks.advance ['\n'] rest with atLineStart := true } := ⟨hrest, rfl⟩
    exact (hblanks.trans htakes).moves (List.append_ne_nil_of_right_ne_nil _ (List.cons_ne_nil _ _))
  | @continuation rest hstart hrest hmore =>
    have htakes : s.skipBlanks.Takes ['\\', '\n'] (s.skipBlanks.advance ['\\', '\n'] rest) :=
      ⟨hrest, rfl⟩
    exact (hblanks.trans htakes).moves (List.append_ne_nil_of_right_ne_nil _ (List.cons_ne_nil _ _))
  | token hstart hrest hmark hnext =>
    obtain ⟨used, hfinds⟩ := next_finds hrest hnext
    exact (hblanks.trans hfinds.toTakes).moves (List.append_ne_nil_of_right_ne_nil _ hfinds.nonempty)

/-- A scan from a state to the end of the text, with all its lexemes. -/
inductive Scanner.Run : Scanner → List Lexeme → Prop
  | done {s : Scanner} (h : s.Done) : Run s []
  | step {s after : Scanner} {lexemes more : List Lexeme} (hstep : s.Step lexemes after)
      (hrest : Run after more) : Run s (lexemes ++ more)

/-- A scan ends with any fuel that exceeds the size of what is left. -/
theorem Scanner.Run.scanFrom_eq {s : Scanner} {lexemes : List Lexeme} (h : s.Run lexemes) {fuel : Nat}
    (hfuel : s.size < fuel) : scanFrom fuel s = ⟨lexemes, none⟩ := by
  induction h generalizing fuel with
  | done h =>
    obtain ⟨less, rfl⟩ := Nat.exists_eq_add_of_lt hfuel
    exact h.scanFrom _
  | step hstep hrest ih =>
    obtain ⟨less, rfl⟩ : ∃ less, fuel = less + 1 := ⟨fuel - 1, by omega⟩
    have hsize := hstep.moves.size
    rw [hstep.scanFrom, ih (by omega)]
    rfl

theorem run_of_scanFrom {fuel : Nat} {s : Scanner} (h : (scanFrom fuel s).fault = none) :
    s.Run (scanFrom fuel s).lexemes := by
  induction fuel generalizing s with
  | zero => cases h
  | succ fuel ih =>
    rcases step_or_fault s fuel with hdone | ⟨lexemes, after, hstep⟩ | ⟨fault, hfault⟩
    · rw [hdone.scanFrom]
      exact .done hdone
    · rw [hstep.scanFrom] at h ⊢
      exact .step hstep (ih h)
    · rw [hfault] at h
      cases h

theorem mem_layout {width narrow : Nat} {indents after : List (Nat × Nat)} {tokens : List Token}
    (h : layout width narrow indents = some (tokens, after)) :
    ∀ token ∈ tokens, token = indent ∨ token = dedent := by
  unfold layout at h
  dsimp only at h
  repeat' split at h
  all_goals cases h
  · exact List.forall_mem_nil _
  · exact List.forall_mem_singleton.mpr (.inl rfl)
  · exact fun token htoken => .inr (List.eq_of_mem_replicate htoken)

/-- The end of the text is none of its lexemes. -/
theorem Scanner.Step.ne_stop {s after : Scanner} {lexemes : List Lexeme} (h : s.Step lexemes after) :
    ∀ lexeme ∈ lexemes, lexeme.token ≠ stop := by
  cases h with
  | line _ _ _ _ hlayout =>
    intro lexeme hlexeme
    obtain ⟨token, htoken, rfl⟩ := List.mem_map.mp hlexeme
    rcases mem_layout hlayout token htoken with rfl | rfl <;> exact Token.noConfusion
  | lineEnd => exact List.forall_mem_singleton.mpr Token.noConfusion
  | token _ hrest _ hnext =>
    obtain ⟨_, hfinds⟩ := next_finds hrest hnext
    refine List.forall_mem_singleton.mpr fun hstop => ?_
    have hlayout := hfinds.notLayout
    rw [hstop] at hlayout
    cases hlayout
  | _ => exact List.forall_mem_nil _

theorem scanFrom_ne_stop (fuel : Nat) (s : Scanner) :
    ∀ lexeme ∈ (scanFrom fuel s).lexemes, lexeme.token ≠ stop := by
  induction fuel generalizing s with
  | zero => exact List.forall_mem_nil _
  | succ fuel ih =>
    rcases step_or_fault s fuel with hdone | ⟨lexemes, after, hstep⟩ | ⟨fault, hfault⟩
    · rw [hdone.scanFrom]
      exact List.forall_mem_nil _
    · rw [hstep.scanFrom]
      exact List.forall_mem_append.mpr ⟨hstep.ne_stop, ih after⟩
    · rw [hfault]
      exact List.forall_mem_nil _

/-- The end of a text is none of the lexemes of its scan. -/
theorem ne_stop_of_scan (text : List Char) : ∀ lexeme ∈ (scan text).lexemes, lexeme.token ≠ stop :=
  scanFrom_ne_stop _ _

/-- The state at the beginning of a text. -/
def Scanner.start (text : List Char) : Scanner :=
  ⟨text, ⟨1, 0⟩, [(0, 0)], [], true⟩

/-- A text is scanned without a fault exactly if there is a run over it. -/
theorem scan_eq_iff (text : List Char) (lexemes : List Lexeme) :
    scan text = ⟨lexemes, none⟩ ↔ (Scanner.start text).Run lexemes := by
  constructor
  · intro h
    have hscan : scanFrom (2 * text.length + 2) (.start text) = ⟨lexemes, none⟩ := h
    have hrun := run_of_scanFrom (congrArg Scan.fault hscan)
    rwa [hscan] at hrun
  · exact fun h => h.scanFrom_eq (Nat.lt_succ_self _)

end Token

end TableAudit
