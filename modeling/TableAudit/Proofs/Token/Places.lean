import TableAudit.Proofs.Token.Steps

namespace TableAudit

open Text (continued)

/-- A lexeme that begins after one part of a text and takes what follows. Where it is not of the layout
    it ends within a line. -/
structure Lexeme.Spans (before used : List Char) (lexeme : Lexeme) : Prop where
  start : lexeme.start = Place.after ⟨1, 0⟩ before
  stop : lexeme.stop = Place.after ⟨1, 0⟩ (before ++ used)
  ends : lexeme.token.isLayout = false → used ≠ [] ∧ used.getLast? ≠ some '\n'

namespace Token

section Next

variable {s after : Scanner} {c : Char} {rest used mark quoted : List Char} {lexeme : Lexeme}

theorem textLiteral_stop (h : textLiteral s mark quoted = .ok (lexeme, after)) :
    lexeme.stop = after.place := by
  unfold textLiteral at h
  dsimp only at h
  split at h
  · cases h
    rfl
  · cases h

theorem nextOperator_stop (h : nextOperator s c = .ok (lexeme, after)) :
    lexeme.stop = after.place := by
  unfold nextOperator at h
  dsimp only at h
  generalize (if (operator s.rest).length = 1 then nest s c else .ok s.brackets) = nested at h
  cases nested with
  | error => cases h
  | ok brackets =>
    cases h
    rfl

/-- A token ends where the scan goes on. -/
theorem next_stop (h : next s c = .ok (lexeme, after)) : lexeme.stop = after.place := by
  rw [next_eq] at h
  split at h
  · exact textLiteral_stop h
  split at h
  · unfold nextWord at h
    dsimp only at h
    split at h <;> cases h
    rfl
  split at h
  · unfold nextNumber at h
    split at h <;> cases h
    rfl
  split at h
  · cases h
  · exact nextOperator_stop h

theorem lowered_zero (brackets : List (Char × Nat)) : lowered 0 brackets = brackets :=
  List.map_id _

/-- A scanner stands in its own line. -/
theorem Scanner.Alongside.self {line more : List Char} (hrest : s.rest = continued line more)
    (hline : '\n' ∉ line) : Scanner.Alongside 0 line more more s s :=
  ⟨hrest, hrest, hline, rfl, (lowered_zero _).symm⟩

/-- A token other than a text does not go over the end of its line. -/
theorem feed_not_mem_of_next (hrest : s.rest = c :: rest) (hc : c ≠ '\n')
    (hmark : textPrefix? (c :: rest) = none) (h : next s c = .ok (lexeme, after))
    (htakes : s.rest = used ++ after.rest) : '\n' ∉ used := by
  by_cases hfeed : '\n' ∈ rest
  · obtain ⟨line, more, rfl, hline⟩ := List.eq_append_cons_of_mem hfeed
    have hrest' : s.rest = continued (c :: line) more := hrest
    have hline' : '\n' ∉ c :: line :=
      fun hmem => hline ((List.mem_cons.mp hmem).resolve_left (Ne.symm hc))
    have hmark' : textPrefix? (c :: line) = none := by
      have hcontinued : (textPrefix? (c :: line)).map (alongside more) = none := by
        rw [← textPrefix?_continued]
        exact hmark
      exact Option.map_eq_none_iff.mp hcontinued
    obtain ⟨_, _, left, -, -, -, hbeyond⟩ :=
      nextPlain_alongside (Scanner.Alongside.self hrest' hline') hmark' h
    have hsplit : (c :: line) ++ '\n' :: more = (used ++ left) ++ '\n' :: more := by
      rw [List.append_assoc]
      exact hrest.symm.trans (htakes.trans (congrArg (used ++ ·) hbeyond.second))
    intro hused
    rw [List.append_cancel_right hsplit] at hline'
    exact hline' (List.mem_append_left _ hused)
  · intro hused
    have hmem : '\n' ∈ c :: rest := by
      rw [← hrest, htakes]
      exact List.mem_append_left _ hused
    exact hfeed ((List.mem_cons.mp hmem).resolve_left (Ne.symm hc))

/-- A text ends with its closing quote. -/
theorem getLast?_of_textLiteral (hrest : s.rest = mark ++ quoted)
    (h : textLiteral s mark quoted = .ok (lexeme, after)) (htakes : s.rest = used ++ after.rest) :
    used.getLast? = some (quoted.headD '"') := by
  unfold textLiteral at h
  generalize quoted.headD '"' = quote at h ⊢
  dsimp only at h
  split at h
  · next body tail hbody =>
    cases h
    obtain ⟨hsplit, hclosed⟩ := isBody_of_textBody hbody
    have hused : mark ++
        (quoted.take (if quoted.take 3 == [quote, quote, quote] then 3 else 1) ++ body) = used := by
      change _ = used ++ tail at htakes
      refine @List.append_cancel_right _ _ tail _ ?_
      rw [← htakes, hrest, List.append_assoc, List.append_assoc, ← hsplit,
        List.prefix_iff_eq_append.mp (List.take_prefix _ _)]
    rw [← hused, ← List.append_assoc, List.getLast?_append, hclosed.getLast?_eq]
    rfl
  · cases h

/-- A token ends within a line. -/
theorem getLast?_of_next (hrest : s.rest = c :: rest) (hc : c ≠ '\n')
    (h : next s c = .ok (lexeme, after)) (htakes : s.rest = used ++ after.rest) :
    used.getLast? ≠ some '\n' := by
  cases hmark : textPrefix? (c :: rest) with
  | none =>
    intro hlast
    exact feed_not_mem_of_next hrest hc hmark h htakes (List.mem_of_getLast? hlast)
  | some found =>
    obtain ⟨mark, quoted⟩ := found
    obtain ⟨hsplit, quote, more, rfl, hquote⟩ := textPrefix?_eq_some hmark
    rw [next_eq, hrest, hmark] at h
    rw [getLast?_of_textLiteral (hrest.trans hsplit) h htakes, List.headD_cons]
    rcases hquote with rfl | rfl <;> decide

end Next

/-- Lexemes that follow each other in a text, after a part of it. -/
inductive Stand (whole : List Char) : List Char → List Lexeme → Prop
  | nil (done : List Char) : Stand whole done []
  | cons {done between used : List Char} {lexeme : Lexeme} {more : List Lexeme}
      (hwithin : done ++ between ++ used <+: whole) (hspans : lexeme.Spans (done ++ between) used)
      (hmore : Stand whole (done ++ between ++ used) more) : Stand whole done (lexeme :: more)

section Stand

variable {whole done : List Char} {lexemes more : List Lexeme}

theorem Stand.skip {between : List Char} (h : Stand whole (done ++ between) lexemes) :
    Stand whole done lexemes := by
  cases h with
  | nil => exact .nil _
  | cons hwithin hspans hmore =>
    rw [List.append_assoc done] at hwithin hspans hmore
    exact .cons hwithin hspans hmore

/-- Tokens of the layout take no room. -/
theorem Stand.layout (hwithin : done <+: whole) (hplaces : ∀ lexeme ∈ lexemes,
      lexeme.token.isLayout = true ∧ lexeme.start = Place.after ⟨1, 0⟩ done ∧
        lexeme.stop = Place.after ⟨1, 0⟩ done)
    (hmore : Stand whole done more) : Stand whole done (lexemes ++ more) := by
  induction lexemes with
  | nil => exact hmore
  | cons lexeme lexemes ih =>
    obtain ⟨⟨hlayout, hstart, hstop⟩, hothers⟩ := List.forall_mem_cons.mp hplaces
    have hspans : lexeme.Spans (done ++ []) [] := by
      refine ⟨?_, ?_, fun h => absurd (h.symm.trans hlayout) Bool.false_ne_true⟩
      · rwa [List.append_nil]
      · rwa [List.append_nil, List.append_nil]
    refine @Stand.cons whole done [] [] lexeme (lexemes ++ more) ?_ hspans ?_
    · rwa [List.append_nil, List.append_nil]
    · rw [List.append_nil, List.append_nil]
      exact ih hothers

/-- What a step takes, and where the lexemes that it gives stand. -/
theorem Scanner.Step.stand {s after : Scanner} (h : s.Step lexemes after) (hwhole : done ++ s.rest = whole)
    (hplace : s.place = Place.after ⟨1, 0⟩ done) :
    ∃ used, s.Takes used after ∧
      ∀ more, Stand whole (done ++ used) more → Stand whole done (lexemes ++ more) := by
  have hsilent (h : s.Step [] after) : ∃ used, s.Takes used after ∧
      ∀ more, Stand whole (done ++ used) more → Stand whole done ([] ++ more) := by
    obtain ⟨used, htakes⟩ := h.moves.takes
    exact ⟨used, htakes, fun more hmore => hmore.skip⟩
  have hreaches {middle : Scanner} {used : List Char} (htakes : s.Takes used middle) :
      done ++ used <+: whole ∧ middle.place = Place.after ⟨1, 0⟩ (done ++ used) := by
    refine ⟨?_, ?_⟩
    · rw [← hwhole, htakes.rest, ← List.append_assoc]
      exact List.prefix_append _ _
    · rw [htakes.place, hplace, Place.after_append]
  have hblanks := s.takes_skipBlanks
  cases h with
  | blankLine hstart hmargin hblank => exact hsilent (.blankLine hstart hmargin hblank)
  | @line margin tokens indents hstart hmargin hblank hbrackets hlayout =>
    have htakes : s.Takes margin.blanks { s.enter margin with indents } :=
      ⟨(takes_enter hmargin).rest, (takes_enter hmargin).place⟩
    obtain ⟨hwithin, hafter⟩ := hreaches htakes
    refine ⟨_, htakes, fun more hmore => (Stand.layout hwithin ?_ hmore).skip⟩
    intro lexeme hlexeme
    obtain ⟨token, htoken, rfl⟩ := List.mem_map.mp hlexeme
    refine ⟨?_, hafter, hafter⟩
    rcases mem_layout hlayout token htoken with rfl | rfl <;> rfl
  | innerLine hstart hmargin hblank hbrackets =>
    exact hsilent (.innerLine hstart hmargin hblank hbrackets)
  | comment hstart hrest => exact hsilent (.comment hstart hrest)
  | @lineEnd rest hstart hrest hbrackets =>
    have htakes : s.skipBlanks.Takes ['\n']
        { s.skipBlanks.advance ['\n'] rest with atLineStart := true } := ⟨hrest, rfl⟩
    obtain ⟨hwithin, hafter⟩ := hreaches hblanks
    refine ⟨_, hblanks.trans htakes, fun more hmore => (Stand.layout hwithin ?_ ?_).skip⟩
    · exact List.forall_mem_singleton.mpr ⟨rfl, hafter, hafter⟩
    · rw [← List.append_assoc] at hmore
      exact hmore.skip
  | innerLineEnd hstart hrest hbrackets => exact hsilent (.innerLineEnd hstart hrest hbrackets)
  | continuation hstart hrest hmore => exact hsilent (.continuation hstart hrest hmore)
  | @token after c rest lexeme hstart hrest hmark hnext =>
    have hc : c ≠ '\n' := by
      rintro rfl
      cases hmark
    obtain ⟨used, hfinds⟩ := next_finds hrest hnext
    have htakes := hblanks.trans hfinds.toTakes
    obtain ⟨hwithin, hafter⟩ := hreaches htakes
    rw [← List.append_assoc] at hwithin hafter
    refine ⟨_, htakes, fun more hmore => ?_⟩
    rw [← List.append_assoc] at hmore
    refine .cons hwithin ⟨hfinds.start.trans (hreaches hblanks).2, (next_stop hnext).trans hafter,
      fun _ => ⟨hfinds.nonempty, getLast?_of_next hrest hc hnext hfinds.rest⟩⟩ hmore

theorem Scanner.Run.stand {s : Scanner} (h : s.Run lexemes) (hwhole : done ++ s.rest = whole)
    (hplace : s.place = Place.after ⟨1, 0⟩ done) : Stand whole done lexemes := by
  induction h generalizing done with
  | done => exact .nil _
  | step hstep _ ih =>
    obtain ⟨used, htakes, hstand⟩ := hstep.stand hwhole hplace
    refine hstand _ (ih ?_ ?_)
    · rw [← hwhole, htakes.rest, List.append_assoc]
    · rw [htakes.place, hplace, Place.after_append]

/-- The lexemes of a text follow each other in it. -/
theorem stand_of_scan (h : scan whole = ⟨lexemes, none⟩) : Stand whole [] lexemes :=
  ((scan_eq_iff whole lexemes).mp h).stand rfl rfl

theorem Stand.exists_spans (h : Stand whole done lexemes) {index : Nat} {lexeme : Lexeme}
    (hlexeme : lexemes[index]? = some lexeme) :
    ∃ between used, done ++ between ++ used <+: whole ∧ lexeme.Spans (done ++ between) used := by
  induction h generalizing index with
  | nil => cases hlexeme
  | @cons done between used first more hwithin hspans hmore ih =>
    cases index with
    | zero =>
      obtain rfl : first = lexeme := Option.some.inj hlexeme
      exact ⟨between, used, hwithin, hspans⟩
    | succ index =>
      obtain ⟨further, own, hown, hlexeme⟩ := ih hlexeme
      rw [List.append_assoc done, List.append_assoc done] at hown hlexeme
      exact ⟨_, own, hown, hlexeme⟩

/-- Between the beginning of a lexeme and the end of a later one there is a piece of the text. -/
theorem Stand.exists_piece (h : Stand whole done lexemes) {i j : Nat} {first last : Lexeme}
    (hle : i ≤ j) (hfirst : lexemes[i]? = some first) (hlast : lexemes[j]? = some last)
    (hwithin : last.token.isLayout = false) :
    ∃ before piece, before ++ piece <+: whole ∧ first.start = Place.after ⟨1, 0⟩ before ∧
      last.stop = Place.after ⟨1, 0⟩ (before ++ piece) ∧ piece ≠ [] ∧
      piece.getLast? ≠ some '\n' := by
  induction h generalizing i j with
  | nil => cases hfirst
  | @cons done between used lexeme more hinside hspans hmore ih =>
    cases j with
    | zero =>
      obtain rfl : i = 0 := Nat.le_zero.mp hle
      obtain rfl : lexeme = first := Option.some.inj hfirst
      obtain rfl : lexeme = last := Option.some.inj hlast
      exact ⟨done ++ between, used, hinside, hspans.start, hspans.stop, hspans.ends hwithin⟩
    | succ j =>
      cases i with
      | succ i => exact ih (Nat.le_of_succ_le_succ hle) hfirst hlast
      | zero =>
        obtain rfl : lexeme = first := Option.some.inj hfirst
        obtain ⟨further, own, hown, hends⟩ := hmore.exists_spans hlast
        obtain ⟨hsome, hnofeed⟩ := hends.ends hwithin
        refine ⟨done ++ between, used ++ further ++ own, ?_, hspans.start, ?_,
          List.append_ne_nil_of_right_ne_nil _ hsome, ?_⟩
        · simpa only [List.append_assoc] using hown
        · simpa only [List.append_assoc] using hends.stop
        · rwa [List.getLast?_append_of_ne_nil _ hsome]

end Stand

end Token

end TableAudit
