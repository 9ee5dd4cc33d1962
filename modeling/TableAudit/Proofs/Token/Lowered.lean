import TableAudit.Proofs.Token.Steps

namespace TableAudit

/-- A place some lines further down. -/
def Place.down (count : Nat) (place : Place) : Place :=
  ⟨place.line + count, place.column⟩

theorem Place.down_down (first second : Nat) (place : Place) :
    (place.down first).down second = place.down (first + second) := by
  simp only [down, Nat.add_assoc]

theorem Place.after_down (count : Nat) (place : Place) (text : List Char) :
    (place.down count).after text = (place.after text).down count := by
  induction text generalizing place with
  | nil => rfl
  | cons c text ih =>
    have hstep (p : Place) : p.after (c :: text) =
        Place.after (if c == '\n' then ⟨p.line + 1, 0⟩ else ⟨p.line, p.column + 1⟩) text :=
      rfl
    rw [hstep, hstep, ← ih]
    congr 1
    split
    · rw [down, down, Nat.add_right_comm]
    · rfl

/-- A lexeme some lines further down. -/
def Lexeme.down (count : Nat) (lexeme : Lexeme) : Lexeme :=
  ⟨lexeme.token, lexeme.start.down count, lexeme.stop.down count⟩

/-- A scan of a text that stands some lines further down. -/
def Scan.down (count : Nat) (scan : Scan) : Scan :=
  ⟨scan.lexemes.map (Lexeme.down count), scan.fault⟩

namespace Token

@[simp] theorem lowered_eq_nil_iff {count : Nat} {brackets : List (Char × Nat)} :
    lowered count brackets = [] ↔ brackets = [] :=
  List.map_eq_nil_iff

/-- A scanner some lines further down, with the brackets that are open. -/
def Scanner.down (count : Nat) (s : Scanner) : Scanner :=
  { s with place := s.place.down count, brackets := lowered count s.brackets }

theorem Scanner.down_down (first second : Nat) (s : Scanner) :
    (s.down first).down second = s.down (first + second) := by
  simp only [down, Place.down_down, lowered, List.map_map]
  congr 2
  funext bracket
  simp only [Function.comp_apply, Nat.add_assoc]

section Down

variable {count : Nat} {s : Scanner}

theorem Scanner.advance_down (text rest : List Char) :
    (s.down count).advance text rest = (s.advance text rest).down count := by
  simp only [advance, down, Place.after_down]

theorem Scanner.skipBlanks_down : (s.down count).skipBlanks = s.skipBlanks.down count :=
  advance_down _ _

theorem Scanner.enter_down (margin : Margin) :
    (s.down count).enter margin = (s.enter margin).down count :=
  advance_down _ _

theorem Scanner.skipLine_down : (s.down count).skipLine = s.skipLine.down count := by
  have hrest : (s.down count).rest = s.rest := rfl
  unfold skipLine
  rw [hrest]
  split
  · exact advance_down _ _
  · dsimp only
    rw [advance_down]
    rfl

/-- What is found some lines further down. -/
def downBoth (count : Nat) (found : Lexeme × Scanner) : Lexeme × Scanner :=
  (found.1.down count, found.2.down count)

theorem Scanner.single_down (token : Token) (spelling rest : List Char) :
    (s.down count).single token spelling rest = downBoth count (s.single token spelling rest) := by
  simp only [single, advance_down]
  rfl

theorem textLiteral_down (mark quoted : List Char) :
    (textLiteral (s.down count) mark quoted).toOption =
      (textLiteral s mark quoted).toOption.map (downBoth count) := by
  unfold textLiteral
  dsimp only
  split
  · rw [Scanner.advance_down]
    rfl
  · rfl

theorem nextWord_down :
    (nextWord (s.down count)).toOption = (nextWord s).toOption.map (downBoth count) := by
  have hrest : (s.down count).rest = s.rest := rfl
  unfold nextWord
  simp only [hrest]
  split
  · rw [Scanner.single_down]
    rfl
  · rfl

theorem nextNumber_down :
    (nextNumber (s.down count)).toOption = (nextNumber s).toOption.map (downBoth count) := by
  have hrest : (s.down count).rest = s.rest := rfl
  unfold nextNumber
  rw [hrest]
  split
  · rw [Scanner.single_down]
    rfl
  · rfl

theorem nest_down (c : Char) :
    (nest (s.down count) c).toOption = (nest s c).toOption.map (lowered count) := by
  have hbrackets : (s.down count).brackets = lowered count s.brackets := rfl
  have hlength : (lowered count s.brackets).length = s.brackets.length := List.length_map _
  unfold nest
  rw [hbrackets, hlength]
  split
  · split <;> rfl
  · split
    · cases s.brackets with
      | nil => rfl
      | cons bracket outer =>
        change (if closerOf bracket.1 == c then Except.ok (lowered count outer) else _).toOption =
          (if closerOf bracket.1 == c then Except.ok outer else _).toOption.map _
        split <;> rfl
    · rfl

theorem nextOperator_down (c : Char) :
    (nextOperator (s.down count) c).toOption = (nextOperator s c).toOption.map (downBoth count) := by
  have hrest : (s.down count).rest = s.rest := rfl
  have hbrackets : (s.down count).brackets = lowered count s.brackets := rfl
  have hnested : (if (operator s.rest).length = 1 then nest (s.down count) c
      else .ok (s.down count).brackets).toOption =
      (if (operator s.rest).length = 1 then nest s c else .ok s.brackets).toOption.map
        (lowered count) := by
    split
    · exact nest_down c
    · rfl
  unfold nextOperator
  simp only [hrest]
  generalize (if (operator s.rest).length = 1 then nest (s.down count) c
    else .ok (s.down count).brackets) = below at hnested
  generalize (if (operator s.rest).length = 1 then nest s c else .ok s.brackets) = own at hnested
  cases own with
  | error reason =>
    cases below with
    | error => rfl
    | ok brackets => cases hnested
  | ok brackets =>
    cases below with
    | error => cases hnested
    | ok lower =>
      obtain rfl : lower = lowered count brackets := Option.some.inj hnested
      simp only [Except.map, Scanner.single_down]
      rfl

/-- A scanner finds the same token further down, or none there either. -/
theorem next_down (c : Char) :
    (next (s.down count) c).toOption = (next s c).toOption.map (downBoth count) := by
  have hrest : (s.down count).rest = s.rest := rfl
  rw [next_eq, next_eq, hrest]
  split
  · exact textLiteral_down _ _
  split
  · exact nextWord_down
  split
  · exact nextNumber_down
  split
  · rfl
  · exact nextOperator_down c

theorem next_down_eq_ok {c : Char} {lexeme : Lexeme} {after : Scanner}
    (h : next s c = .ok (lexeme, after)) :
    next (s.down count) c = .ok (lexeme.down count, after.down count) := by
  have hdown : (next (s.down count) c).toOption = (next s c).toOption.map (downBoth count) :=
    next_down c
  rw [h] at hdown
  cases hbelow : next (s.down count) c with
  | error reason =>
    rw [hbelow] at hdown
    cases hdown
  | ok found =>
    rw [hbelow] at hdown
    exact congrArg Except.ok (Option.some.inj hdown)

theorem exists_next_of_down {c : Char} {found : Lexeme × Scanner}
    (h : next (s.down count) c = .ok found) : ∃ own, next s c = .ok own := by
  have hdown : (next (s.down count) c).toOption = (next s c).toOption.map (downBoth count) :=
    next_down c
  rw [h] at hdown
  cases hown : next s c with
  | error reason =>
    rw [hown] at hdown
    cases hdown
  | ok own => exact ⟨own, rfl⟩

end Down

variable {count : Nat} {s after : Scanner} {lexemes : List Lexeme}

/-- Further down a scan makes the same steps. -/
theorem Scanner.Step.down (h : s.Step lexemes after) (count : Nat) :
    (s.down count).Step (lexemes.map (Lexeme.down count)) (after.down count) := by
  have hskip : (s.down count).skipBlanks = s.skipBlanks.down count := Scanner.skipBlanks_down
  have hskipped : (s.down count).skipBlanks.rest = s.skipBlanks.rest := rfl
  have hplace : (s.down count).skipBlanks.place = s.skipBlanks.place.down count :=
    Place.after_down _ _ _
  have hadvance (text rest : List Char) : (s.down count).skipBlanks.advance text rest =
      (s.skipBlanks.advance text rest).down count := by
    rw [hskip, Scanner.advance_down]
  cases h with
  | blankLine hstart hmargin hblank =>
    rw [← Scanner.skipLine_down, ← Scanner.enter_down]
    exact .blankLine hstart hmargin hblank
  | @line margin tokens indents hstart hmargin hblank hbrackets hlayout =>
    have hstep := Scanner.Step.line (s := s.down count) hstart hmargin hblank
      (lowered_eq_nil_iff.mpr hbrackets) hlayout
    rw [Scanner.enter_down] at hstep
    rw [List.map_map]
    exact hstep
  | innerLine hstart hmargin hblank hbrackets =>
    rw [← Scanner.enter_down]
    exact .innerLine hstart hmargin hblank (mt lowered_eq_nil_iff.mp hbrackets)
  | comment hstart hrest =>
    rw [← hadvance]
    exact .comment hstart (hskipped.trans hrest)
  | @lineEnd rest hstart hrest hbrackets =>
    have hstep := Scanner.Step.lineEnd (s := s.down count) hstart (hskipped.trans hrest)
      (lowered_eq_nil_iff.mpr hbrackets)
    rw [hadvance, hplace] at hstep
    exact hstep
  | @innerLineEnd rest hstart hrest hbrackets =>
    have hstep := Scanner.Step.innerLineEnd (s := s.down count) hstart (hskipped.trans hrest)
      (mt lowered_eq_nil_iff.mp hbrackets)
    rw [hadvance] at hstep
    exact hstep
  | continuation hstart hrest hmore =>
    rw [← hadvance]
    exact .continuation hstart (hskipped.trans hrest) hmore
  | token hstart hrest hmark hnext =>
    refine .token hstart (hskipped.trans hrest) hmark ?_
    rw [hskip]
    exact next_down_eq_ok hnext

/-- Further down a scan makes no other steps. -/
theorem Scanner.Step.exists_of_down (h : (s.down count).Step lexemes after) :
    ∃ lexemes after, s.Step lexemes after := by
  have hskipped : (s.down count).skipBlanks.rest = s.skipBlanks.rest := rfl
  cases h with
  | blankLine hstart hmargin hblank => exact ⟨_, _, .blankLine hstart hmargin hblank⟩
  | line hstart hmargin hblank hbrackets hlayout =>
    exact ⟨_, _, .line hstart hmargin hblank (lowered_eq_nil_iff.mp hbrackets) hlayout⟩
  | innerLine hstart hmargin hblank hbrackets =>
    exact ⟨_, _, .innerLine hstart hmargin hblank (mt lowered_eq_nil_iff.mpr hbrackets)⟩
  | comment hstart hrest => exact ⟨_, _, .comment hstart (hskipped.symm.trans hrest)⟩
  | lineEnd hstart hrest hbrackets =>
    exact ⟨_, _, .lineEnd hstart (hskipped.symm.trans hrest) (lowered_eq_nil_iff.mp hbrackets)⟩
  | innerLineEnd hstart hrest hbrackets =>
    exact ⟨_, _, .innerLineEnd hstart (hskipped.symm.trans hrest)
      (mt lowered_eq_nil_iff.mpr hbrackets)⟩
  | continuation hstart hrest hmore =>
    exact ⟨_, _, .continuation hstart (hskipped.symm.trans hrest) hmore⟩
  | token hstart hrest hmark hnext =>
    rw [Scanner.skipBlanks_down] at hnext
    obtain ⟨own, hown⟩ := exists_next_of_down hnext
    exact ⟨_, _, .token hstart (hskipped.symm.trans hrest) hmark hown⟩

theorem Scanner.done_down_iff : (s.down count).Done ↔ s.Done := by
  have hskipped : (s.down count).skipBlanks.rest = s.skipBlanks.rest := rfl
  exact ⟨fun h => ⟨h.start, hskipped.symm.trans h.rest, lowered_eq_nil_iff.mp h.brackets⟩,
    fun h => ⟨h.start, hskipped.trans h.rest, lowered_eq_nil_iff.mpr h.brackets⟩⟩

/-- Further down a scan has the same lexemes, and a fault if it has one. -/
theorem scanFrom_down (fuel : Nat) (s : Scanner) (count : Nat) :
    (scanFrom fuel (s.down count)).lexemes = (scanFrom fuel s).lexemes.map (Lexeme.down count) ∧
      ((scanFrom fuel (s.down count)).fault = none ↔ (scanFrom fuel s).fault = none) := by
  have hnever {fault other : ScanFault} : some fault = none ↔ some other = none :=
    iff_of_false (Option.some_ne_none _) (Option.some_ne_none _)
  induction fuel generalizing s with
  | zero => exact ⟨rfl, hnever⟩
  | succ fuel ih =>
    by_cases hdone : s.Done
    · rw [hdone.scanFrom, (Scanner.done_down_iff.mpr hdone).scanFrom]
      exact ⟨rfl, Iff.rfl⟩
    by_cases hsteps : ∃ lexemes after, s.Step lexemes after
    · obtain ⟨lexemes, after, hstep⟩ := hsteps
      rw [hstep.scanFrom, (hstep.down count).scanFrom]
      refine ⟨?_, (ih after).2⟩
      rw [Scan.before, Scan.before, List.map_append, (ih after).1]
    · obtain ⟨fault, hfault⟩ := ((step_or_fault s fuel).resolve_left hdone).resolve_left hsteps
      have hdone' : ¬ (s.down count).Done := mt Scanner.done_down_iff.mp hdone
      have hsteps' : ¬ ∃ lexemes after, (s.down count).Step lexemes after := by
        rintro ⟨_, _, hstep⟩
        exact hsteps hstep.exists_of_down
      obtain ⟨below, hbelow⟩ :=
        ((step_or_fault (s.down count) fuel).resolve_left hdone').resolve_left hsteps'
      rw [hfault, hbelow]
      exact ⟨rfl, hnever⟩

/-- An empty line is skipped. -/
theorem Scanner.step_feed (text : List Char) (count : Nat) :
    ((start ('\n' :: text)).down count).Step [] ((start text).down (count + 1)) := by
  have hstep : (start ('\n' :: text)).Step [] ((start text).down 1) :=
    @Step.blankLine (start ('\n' :: text)) ⟨0, 0, none, [], '\n' :: text⟩ rfl rfl rfl
  have hdown := hstep.down count
  rwa [down_down, Nat.add_comm] at hdown

theorem scanFrom_feeds (text : List Char) (fuel above count : Nat) :
    scanFrom (fuel + count) ((Scanner.start (List.replicate count '\n' ++ text)).down above) =
      scanFrom fuel ((Scanner.start text).down (above + count)) := by
  induction count generalizing above with
  | zero => rfl
  | succ count ih =>
    rw [List.replicate_succ, List.cons_append, ← Nat.add_assoc, (Scanner.step_feed _ _).scanFrom, ih,
      Nat.add_assoc, Nat.add_comm 1]
    rfl

/-- Below some empty lines a text without a fault has the same lexemes, further down. -/
theorem scan_feeds_eq_iff (text : List Char) (count : Nat) (found : List Lexeme) :
    scan (List.replicate count '\n' ++ text) = ⟨found, none⟩ ↔
      ∃ lexemes, scan text = ⟨lexemes, none⟩ ∧ found = lexemes.map (Lexeme.down count) := by
  -- the fuel is more than the text by itself needs, but only a fault depends on it
  have hfuel : 2 * (List.replicate count '\n' ++ text).length + 2 =
      2 * text.length + 2 + count + count := by
    rw [List.length_append, List.length_replicate]
    omega
  have hscan : scan (List.replicate count '\n' ++ text) =
      scanFrom (2 * text.length + 2 + count) ((Scanner.start text).down count) := by
    have hfeeds := scanFrom_feeds text (2 * text.length + 2 + count) 0 count
    rw [← hfuel, Nat.zero_add] at hfeeds
    exact hfeeds
  obtain ⟨hlexemes, hfault⟩ := scanFrom_down (2 * text.length + 2 + count) (Scanner.start text) count
  rw [hscan]
  constructor
  · intro h
    rw [h] at hlexemes hfault
    have hrun := run_of_scanFrom (hfault.mp rfl)
    exact ⟨_, (scan_eq_iff text _).mpr hrun, hlexemes⟩
  · rintro ⟨lexemes, htext, rfl⟩
    have hsize : (Scanner.start text).size < 2 * text.length + 2 + count :=
      Nat.lt_add_right count (Nat.lt_succ_self _)
    have hrun := ((scan_eq_iff text lexemes).mp htext).scanFrom_eq hsize
    rw [hrun] at hlexemes hfault
    generalize scanFrom _ _ = below at hlexemes hfault
    obtain ⟨lexemes', fault⟩ := below
    obtain rfl : lexemes' = _ := hlexemes
    obtain rfl : fault = none := hfault.mpr rfl
    rfl

end Token

end TableAudit
