import TableAudit.Proofs.Token.Literals
import TableAudit.Proofs.Token.Numbers

namespace TableAudit

open Text (continued)

namespace Token

theorem take_continued {line : List Char} {count : Nat} (h : count ≤ line.length) (more : List Char) :
    (continued line more).take count = line.take count :=
  List.take_append_of_le_length h

theorem drop_continued {line : List Char} {count : Nat} (h : count ≤ line.length) (more : List Char) :
    (continued line more).drop count = continued (line.drop count) more :=
  List.drop_append_of_le_length h

theorem feed_mem_take_continued {line : List Char} {count : Nat} (h : line.length < count)
    (more : List Char) : '\n' ∈ (continued line more).take count := by
  rw [Text.continued, List.take_append, List.mem_append]
  obtain ⟨extra, hextra⟩ := Nat.exists_eq_add_of_lt h
  refine .inr ?_
  rw [show count - line.length = extra + 1 by omega, List.take_succ_cons]
  exact List.mem_cons_self

/-- A word of some length begins a text within its first line, if at all. -/
theorem take_continued_eq_iff {word : List Char} (hword : '\n' ∉ word) (line more : List Char) :
    (continued line more).take word.length = word ↔ line.take word.length = word := by
  by_cases hcount : word.length ≤ line.length
  · rw [take_continued hcount]
  · constructor
    · intro h
      have hfeed := feed_mem_take_continued (Nat.lt_of_not_le hcount) more
      rw [h] at hfeed
      exact absurd hfeed hword
    · intro h
      have hlength := congrArg List.length h
      rw [List.length_take] at hlength
      omega

theorem head?_continued {c : Char} (hc : c ≠ '\n') (line more : List Char) :
    ((continued line more).head? == some c) = (line.head? == some c) := by
  cases line with
  | nil => simpa using Ne.symm hc
  | cons d line => rfl

theorem textPrefix?_continued (line more : List Char) :
    textPrefix? (continued line more) = (textPrefix? line).map (alongside more) := by
  have hmark (count : Nat) :
      (let mark := (continued line more).take count
       let rest := (continued line more).drop count
       let quoted := rest.head? == some '"' || rest.head? == some '\''
       if mark.length = count && quoted && textPrefixes.contains (Decimal.lowered mark) then
         some (mark, rest)
       else none) =
      (let mark := line.take count
       let rest := line.drop count
       let quoted := rest.head? == some '"' || rest.head? == some '\''
       if mark.length = count && quoted && textPrefixes.contains (Decimal.lowered mark) then
         some (mark, rest)
       else none).map (alongside more) := by
    dsimp only
    by_cases hcount : count ≤ line.length
    · rw [take_continued hcount, drop_continued hcount, head?_continued (by decide),
        head?_continued (by decide)]
      split <;> rfl
    · rw [if_neg, if_neg]
      · rfl
      · simp; omega
      · simp only [Bool.and_eq_true, not_and]
        intro _ hprefix
        have hfeed := isAlpha_of_textPrefix hprefix '\n'
          (feed_mem_take_continued (Nat.lt_of_not_le hcount) more)
        cases hfeed
  unfold textPrefix?
  rw [List.map_findSome?]
  exact congrArg (List.findSome? · [0, 1, 2]) (funext hmark)

theorem takeWhile_continued {test : Char → Bool} (hfeed : test '\n' = false) (line more : List Char) :
    (continued line more).takeWhile test = line.takeWhile test := by
  induction line with
  | nil => rw [Text.continued_nil, List.takeWhile_cons, hfeed, if_neg Bool.false_ne_true, List.takeWhile_nil]
  | cons c line ih => rw [Text.continued_cons, List.takeWhile_cons, List.takeWhile_cons, ih]

theorem dropWhile_continued {test : Char → Bool} (hfeed : test '\n' = false) (line more : List Char) :
    (continued line more).dropWhile test = continued (line.dropWhile test) more := by
  induction line with
  | nil => rw [Text.continued_nil, List.dropWhile_cons, hfeed, if_neg Bool.false_ne_true]; rfl
  | cons c line ih =>
    rw [Text.continued_cons, List.dropWhile_cons, List.dropWhile_cons, ih]
    split <;> rfl

theorem length_le_of_contains {count : Nat} {ops : List String} {line : List Char}
    (hops : ∀ op ∈ ops, '\n' ∉ op.toList ∧ op.toList.length = count)
    (h : ops.contains (String.ofList (line.take count)) = true) : count ≤ line.length := by
  have hlength := (hops _ (List.contains_iff_mem.mp h)).2
  rw [String.toList_ofList, List.length_take] at hlength
  omega

/-- Operators of some length are found before the end of the line, if at all. -/
theorem contains_take_continued {count : Nat} {ops : List String}
    (hops : ∀ op ∈ ops, '\n' ∉ op.toList ∧ op.toList.length = count) (line more : List Char) :
    ops.contains (String.ofList ((continued line more).take count)) =
      ops.contains (String.ofList (line.take count)) := by
  by_cases hcount : count ≤ line.length
  · rw [take_continued hcount]
  · rw [Bool.eq_false_iff.mpr fun h => hcount (length_le_of_contains hops h), Bool.eq_false_iff, ne_eq,
      List.contains_iff_mem]
    intro hmem
    have hfeed := (hops _ hmem).1
    rw [String.toList_ofList] at hfeed
    exact hfeed (feed_mem_take_continued (Nat.lt_of_not_le hcount) more)

theorem operator_continued {line : List Char} (hline : line ≠ []) (more : List Char) :
    operator (continued line more) = operator line := by
  have hthree : ∀ op ∈ threeCharOps, '\n' ∉ op.toList ∧ op.toList.length = 3 := by decide
  have htwo : ∀ op ∈ twoCharOps, '\n' ∉ op.toList ∧ op.toList.length = 2 := by decide
  simp only [operator, contains_take_continued hthree, contains_take_continued htwo]
  split
  · next h =>
    exact take_continued (length_le_of_contains hthree h) more
  · split
    · next h =>
      exact take_continued (length_le_of_contains htwo h) more
    · exact take_continued (List.length_pos_iff.mpr hline) more

theorem textPrefix?_eq_some {text mark rest : List Char} (h : textPrefix? text = some (mark, rest)) :
    text = mark ++ rest ∧ ∃ quote more, rest = quote :: more ∧ (quote = '"' ∨ quote = '\'') := by
  unfold textPrefix? at h
  obtain ⟨count, -, hcount⟩ := List.exists_of_findSome?_eq_some h
  rw [Option.ite_none_right_eq_some] at hcount
  obtain ⟨htest, heq⟩ := hcount
  cases heq
  refine ⟨(List.take_append_drop count text).symm, ?_⟩
  simp only [Bool.and_eq_true, Bool.or_eq_true, beq_iff_eq] at htest
  obtain ⟨⟨-, hquote⟩, -⟩ := htest
  cases hrest : text.drop count with
  | nil =>
    rw [hrest] at hquote
    rcases hquote with h | h <;> cases h
  | cons quote more =>
    rw [hrest] at hquote
    exact ⟨quote, more, rfl, hquote.imp Option.some.inj Option.some.inj⟩

/-- What begins a text is within its first line, or goes over the end of that. -/
theorem within_or_beyond {line used left more : List Char} (h : continued line more = used ++ left) :
    (∃ rest, line = used ++ rest ∧ left = continued rest more) ∨
      ∃ further, used = line ++ '\n' :: further ∧ more = further ++ left := by
  rcases List.append_eq_append_iff.mp h with ⟨between, rfl, hbetween⟩ | ⟨rest, rfl, rfl⟩
  · cases between with
    | nil => exact .inl ⟨[], by rw [List.append_nil, List.append_nil], hbetween.symm⟩
    | cons c further =>
      obtain ⟨rfl, hmore⟩ := List.cons.inj hbetween
      exact .inr ⟨further, rfl, hmore⟩
  · exact .inl ⟨rest, rfl, rfl⟩

theorem operator_eq_take {text : List Char} (htext : text ≠ []) :
    ∃ count, 0 < count ∧ count ≤ text.length ∧ operator text = text.take count := by
  have hthree : ∀ op ∈ threeCharOps, '\n' ∉ op.toList ∧ op.toList.length = 3 := by decide
  have htwo : ∀ op ∈ twoCharOps, '\n' ∉ op.toList ∧ op.toList.length = 2 := by decide
  unfold operator
  dsimp only
  split
  · next h =>
    exact ⟨3, by decide, length_le_of_contains hthree h, rfl⟩
  · split
    · next h =>
      exact ⟨2, by decide, length_le_of_contains htwo h, rfl⟩
    · exact ⟨1, Nat.one_pos, List.length_pos_iff.mpr htext, rfl⟩

theorem isLayout_of_word {spelling : List Char} {token : Token} (h : word spelling = some token) :
    token.isLayout = false := by
  unfold word at h
  dsimp only at h
  repeat' split at h
  all_goals cases h
  all_goals rfl

/-- A token and the scanner after it, where the spelling of the token and the text after that are
    known. -/
def Scanner.single (s : Scanner) (token : Token) (spelling rest : List Char) : Lexeme × Scanner :=
  (⟨token, s.place, (s.advance spelling rest).place⟩, s.advance spelling rest)

/-- The next token, which is a word. -/
def nextWord (s : Scanner) : Except ScanFault (Lexeme × Scanner) :=
  let spelling := s.rest.takeWhile isWordChar
  match word spelling with
  | some token => .ok (s.single token spelling (s.rest.drop spelling.length))
  | none => .error (s.fault .malformed)

/-- The next token, which is a number. -/
def nextNumber (s : Scanner) : Except ScanFault (Lexeme × Scanner) :=
  match number s.rest with
  | some (token, rest) => .ok (s.single token (s.rest.take (s.rest.length - rest.length)) rest)
  | none => .error (s.fault .malformed)

/-- The next token, which is an operator. -/
def nextOperator (s : Scanner) (c : Char) : Except ScanFault (Lexeme × Scanner) :=
  let spelling := operator s.rest
  let brackets := if spelling.length = 1 then nest s c else .ok s.brackets
  brackets.map fun open' =>
    let found := s.single (.op (String.ofList spelling)) spelling (s.rest.drop spelling.length)
    (found.1, { found.2 with brackets := open' })

theorem next_eq (s : Scanner) (c : Char) : next s c =
    match textPrefix? s.rest with
    | some (mark, rest) => textLiteral s mark rest
    | none =>
      if isWordChar c && !c.isDigit then nextWord s
      else if c.isDigit || (c == '.' && (s.rest.tail.headD ' ').isDigit) then nextNumber s
      else if !Text.isPrintable c then .error (s.fault .malformed)
      else nextOperator s c :=
  rfl

/-- What a scanner moves over between two states. -/
structure Scanner.Takes (s : Scanner) (used : List Char) (after : Scanner) : Prop where
  rest : s.rest = used ++ after.rest
  place : after.place = Place.after s.place used

/-- A token that takes some text where it begins, and with which no lines begin or end. -/
structure Scanner.Finds (s : Scanner) (used : List Char) (lexeme : Lexeme) (after : Scanner) : Prop
    extends s.Takes used after where
  nonempty : used ≠ []
  notLayout : lexeme.token.isLayout = false
  start : lexeme.start = s.place
  indents : after.indents = s.indents
  inLine : after.atLineStart = false

section Finds

variable {s after : Scanner} {c : Char} {rest : List Char} {lexeme : Lexeme}

theorem Scanner.finds_single {token : Token} {spelling : List Char} (hnonempty : spelling ≠ [])
    (hlayout : token.isLayout = false) (hrest : s.rest = spelling ++ rest) :
    s.Finds spelling (s.single token spelling rest).1 (s.single token spelling rest).2 :=
  ⟨⟨hrest, rfl⟩, hnonempty, hlayout, rfl, rfl, rfl⟩

theorem textLiteral_finds {mark quoted : List Char} (hrest : s.rest = mark ++ quoted)
    (hquoted : quoted ≠ []) (h : textLiteral s mark quoted = .ok (lexeme, after)) :
    ∃ used, s.Finds used lexeme after := by
  unfold textLiteral at h
  dsimp only at h
  split at h
  · next body tail hbody =>
    cases h
    refine ⟨_, ⟨⟨?_, rfl⟩, ?_, rfl, rfl, rfl, rfl⟩⟩
    · change s.rest = _ ++ tail
      rw [hrest, List.append_assoc, List.append_assoc, ← (isBody_of_textBody hbody).1,
        List.prefix_iff_eq_append.mp (List.take_prefix _ _)]
    · intro hempty
      rw [List.append_eq_nil_iff, List.append_eq_nil_iff] at hempty
      rcases List.take_eq_nil_iff.mp hempty.1.2 with hwidth | hnone
      · split at hwidth <;> cases hwidth
      · exact hquoted hnone
  · cases h

theorem nextWord_finds (hrest : s.rest = c :: rest) (hword : isWordChar c = true)
    (h : nextWord s = .ok (lexeme, after)) : ∃ used, s.Finds used lexeme after := by
  unfold nextWord at h
  dsimp only at h
  split at h
  · next token htoken =>
    cases h
    refine ⟨_, Scanner.finds_single ?_ (isLayout_of_word htoken) ?_⟩
    · rw [hrest, List.takeWhile_cons, if_pos hword]
      exact List.cons_ne_nil _ _
    · exact List.prefix_append_drop (List.takeWhile_prefix _)
  · cases h

theorem nextNumber_finds (hrest : s.rest = c :: rest) (hnumber : c.isDigit = true ∨ c = '.')
    (h : nextNumber s = .ok (lexeme, after)) : ∃ used, s.Finds used lexeme after := by
  unfold nextNumber at h
  split at h
  · next token left htoken =>
    cases h
    have hleft : left <:+ rest := by
      rw [hrest] at htoken
      exact number_suffix hnumber htoken
    refine ⟨_, Scanner.finds_single ?_ (isLayout_of_number htoken) ?_⟩
    · rw [hrest, List.length_cons, Nat.succ_sub hleft.length_le, List.take_succ_cons]
      exact List.cons_ne_nil _ _
    · rw [hrest]
      exact (List.suffix_iff_eq_append.mp (hleft.trans (List.suffix_cons c rest))).symm
  · cases h

theorem nextOperator_finds (hrest : s.rest = c :: rest)
    (h : nextOperator s c = .ok (lexeme, after)) : ∃ used, s.Finds used lexeme after := by
  have hsome : s.rest ≠ [] := hrest ▸ List.cons_ne_nil _ _
  obtain ⟨count, hpos, -, hop⟩ := operator_eq_take hsome
  unfold nextOperator at h
  dsimp only at h
  generalize (if (operator s.rest).length = 1 then nest s c else .ok s.brackets) = nested at h
  cases nested with
  | error => cases h
  | ok brackets =>
    cases h
    refine ⟨operator s.rest, ⟨⟨?_, rfl⟩, ?_, rfl, rfl, rfl, rfl⟩⟩
    · rw [hop]
      exact List.prefix_append_drop (List.take_prefix _ _)
    · rw [hop]
      intro hempty
      rcases List.take_eq_nil_iff.mp hempty with hcount | hnone
      · omega
      · exact hsome hnone

theorem next_finds (hrest : s.rest = c :: rest) (h : next s c = .ok (lexeme, after)) :
    ∃ used, s.Finds used lexeme after := by
  rw [next_eq] at h
  split at h
  · next mark quoted hmark =>
    obtain ⟨hsplit, quote, more, rfl, -⟩ := textPrefix?_eq_some hmark
    exact textLiteral_finds hsplit (List.cons_ne_nil _ _) h
  · split at h
    · next hword =>
      exact nextWord_finds hrest (Bool.and_eq_true_iff.mp hword).1 h
    · split at h
      · next hnumber =>
        rw [Bool.or_eq_true, Bool.and_eq_true, beq_iff_eq] at hnumber
        exact nextNumber_finds hrest (hnumber.imp_right And.left) h
      · split at h
        · cases h
        · exact nextOperator_finds hrest h

end Finds

theorem Place.line_after (place : Place) (text : List Char) :
    (Place.after place text).line = place.line + text.count '\n' := by
  induction text generalizing place with
  | nil => rfl
  | cons c text ih =>
    by_cases hc : c = '\n'
    · subst hc
      rw [List.count_cons_self]
      refine (ih ⟨place.line + 1, 0⟩).trans ?_
      change place.line + 1 + _ = _
      omega
    · rw [List.count_cons_of_ne hc]
      have hstep : Place.after place (c :: text) = Place.after ⟨place.line, place.column + 1⟩ text := by
        simp only [Place.after, List.foldl_cons, beq_eq_false_iff_ne.mpr hc, Bool.false_eq_true, if_false]
      rw [hstep, ih]

/-- Brackets that were opened some lines further down. -/
def lowered (count : Nat) (brackets : List (Char × Nat)) : List (Char × Nat) :=
  brackets.map fun bracket => (bracket.1, bracket.2 + count)

/-- Two scanners in the same line, which stands further down in the second text; what follows the
    line differs. -/
structure Scanner.Alongside (count : Nat) (line more other : List Char) (s t : Scanner) : Prop where
  first : s.rest = continued line more
  second : t.rest = continued line other
  inLine : '\n' ∉ line
  place : t.place.line = s.place.line + count
  brackets : t.brackets = lowered count s.brackets

section Alongside

variable {count : Nat} {line used left more other : List Char} {s t after : Scanner} {c : Char}
  {lexeme : Lexeme}

theorem Scanner.Alongside.advance (h : Scanner.Alongside count (used ++ left) more other s t) :
    Scanner.Alongside count left more other (s.advance used (continued left more))
      (t.advance used (continued left other)) where
  first := rfl
  second := rfl
  inLine hfeed := h.inLine (List.mem_append_right _ hfeed)
  place := by
    have hnone : used.count '\n' = 0 :=
      List.count_eq_zero_of_not_mem fun hfeed => h.inLine (List.mem_append_left _ hfeed)
    change (Place.after t.place used).line = (Place.after s.place used).line + count
    rw [Place.line_after, Place.line_after, hnone, h.place]
    omega
  brackets := h.brackets

theorem Scanner.Alongside.nest (h : Scanner.Alongside count line more other s t)
    (brackets : List (Char × Nat)) : Scanner.Alongside count line more other { s with brackets }
      { t with brackets := lowered count brackets } :=
  ⟨h.first, h.second, h.inLine, h.place, rfl⟩

/-- The token that both scanners find next. -/
def Both (count : Nat) (more other : List Char) (found : Except ScanFault (Lexeme × Scanner))
    (lexeme : Lexeme) (after : Scanner) : Prop :=
  ∃ copy reached left, found = .ok (copy, reached) ∧ copy.token = lexeme.token ∧
    lexeme.start.line = copy.start.line + count ∧
    Scanner.Alongside count left more other reached after

/-- The quotes that open a literal, and what it is after them. -/
theorem exists_opening {quote : Char} (hquote : quote ≠ '\n') (quoted : List Char) :
    ∃ triple opening inner, quote :: quoted = opening ++ inner ∧
      ∀ (u : Scanner) (mark rest : List Char), ∃ fault,
        textLiteral u mark (continued (quote :: quoted) rest) =
          match textBody quote triple (continued inner rest) with
          | .ok (body, tail) =>
            .ok (⟨.text (mark ++ opening ++ body), u.place, Place.after u.place (mark ++ opening ++ body)⟩,
              u.advance (mark ++ opening ++ body) tail)
          | .error _ => .error fault := by
  have hword : '\n' ∉ [quote, quote, quote] := by simpa using Ne.symm hquote
  have htriple (rest : List Char) :
      ((continued (quote :: quoted) rest).take 3 == [quote, quote, quote]) =
        ((quote :: quoted).take 3 == [quote, quote, quote]) := by
    rw [Bool.eq_iff_iff, beq_iff_eq, beq_iff_eq]
    exact take_continued_eq_iff hword _ rest
  generalize hquotes : ((quote :: quoted).take 3 == [quote, quote, quote]) = triple at htriple
  have hwidth : (if triple then 3 else 1) ≤ (quote :: quoted).length := by
    cases triple with
    | true =>
      have hlength := congrArg List.length (beq_iff_eq.mp hquotes)
      rw [List.length_take] at hlength
      change min 3 _ = 3 at hlength
      rw [if_pos rfl]
      omega
    | false =>
      rw [if_neg Bool.false_ne_true, List.length_cons]
      omega
  generalize hcount : (if triple then 3 else 1) = width at hwidth
  refine ⟨triple, (quote :: quoted).take width, (quote :: quoted).drop width,
    (List.take_append_drop _ _).symm, fun u mark rest => ?_⟩
  have hhead : (continued (quote :: quoted) rest).headD '"' = quote := rfl
  unfold textLiteral
  simp only [hhead, htriple, hcount, take_continued hwidth, List.length_take_of_le hwidth,
    drop_continued hwidth]
  cases textBody quote triple (continued ((quote :: quoted).drop width) rest) with
  | error read => exact ⟨_, rfl⟩
  | ok found => exact ⟨⟨.malformed, 0, []⟩, rfl⟩

theorem textLiteral_alongside {mark quoted : List Char} {quote : Char}
    (h : Scanner.Alongside count (mark ++ quote :: quoted) more other s t)
    (hquote : quote = '"' ∨ quote = '\'')
    (hnext : textLiteral t mark (continued (quote :: quoted) other) = .ok (lexeme, after))
    (hflat : lexeme.token.isText = true → lexeme.stop.line = lexeme.start.line) :
    Both count more other (textLiteral s mark (continued (quote :: quoted) more)) lexeme after := by
  have hfeed : quote ≠ '\n' := by
    rcases hquote with rfl | rfl <;> decide
  have hescape : quote ≠ '\\' := by
    rcases hquote with rfl | rfl <;> decide
  obtain ⟨triple, opening, inner, hsplit, hliteral⟩ := exists_opening hfeed quoted
  obtain ⟨fault, hsecond⟩ := hliteral t mark other
  obtain ⟨fault', hfirst⟩ := hliteral s mark more
  rw [hsecond] at hnext
  rw [hfirst]
  split at hnext
  · next body tail hbody =>
    cases hnext
    have hline : '\n' ∉ mark ++ opening ++ body := by
      have hflat : (Place.after t.place _).line = t.place.line := hflat rfl
      rw [Place.line_after] at hflat
      exact List.count_eq_zero.mp (by omega)
    obtain ⟨happend, hclosed⟩ := isBody_of_textBody hbody
    obtain ⟨left, rfl, rfl⟩ := (within_or_beyond happend).resolve_right fun hbeyond => by
      obtain ⟨further, rfl, -⟩ := hbeyond
      exact hline (by simp)
    rw [continued, List.append_assoc, hclosed.textBody_append hescape]
    rw [hsplit, ← List.append_assoc, ← List.append_assoc] at h
    exact ⟨_, _, left, rfl, rfl, h.place, h.advance⟩
  · cases hnext

theorem nest_lowered {brackets : List (Char × Nat)}
    (h : Scanner.Alongside count line more other s t) (hnest : nest t c = .ok brackets) :
    ∃ open', nest s c = .ok open' ∧ brackets = lowered count open' := by
  unfold nest at hnest ⊢
  rw [h.brackets] at hnest
  by_cases hopener : isOpener c = true
  · rw [if_pos hopener] at hnest ⊢
    rw [lowered, List.length_map] at hnest
    by_cases hlimit : s.brackets.length ≥ bracketLimit
    · rw [if_pos hlimit] at hnest
      cases hnest
    · rw [if_neg hlimit] at hnest ⊢
      cases hnest
      refine ⟨_, rfl, ?_⟩
      rw [h.place]
      rfl
  · rw [if_neg hopener] at hnest ⊢
    by_cases hcloser : isCloser c = true
    · rw [if_pos hcloser] at hnest ⊢
      cases hbrackets : s.brackets with
      | nil =>
        rw [hbrackets] at hnest
        cases hnest
      | cons bracket outer =>
        rw [hbrackets] at hnest
        change (if closerOf bracket.1 == c then _ else _) = _ at hnest
        change ∃ open', (if closerOf bracket.1 == c then _ else _) = _ ∧ _
        by_cases hclosed : (closerOf bracket.1 == c) = true
        · rw [if_pos hclosed] at hnest ⊢
          cases hnest
          exact ⟨outer, rfl, rfl⟩
        · rw [if_neg hclosed] at hnest
          cases hnest
    · rw [if_neg hcloser] at hnest ⊢
      cases hnest
      exact ⟨_, rfl, rfl⟩

theorem nextWord_alongside (h : Scanner.Alongside count (c :: line) more other s t)
    (hnext : nextWord t = .ok (lexeme, after)) : Both count more other (nextWord s) lexeme after := by
  have hused := List.takeWhile_prefix isWordChar (l := c :: line)
  have hdrop (rest : List Char) := drop_continued hused.length_le rest
  unfold nextWord at hnext ⊢
  rw [h.second] at hnext
  rw [h.first]
  simp only [takeWhile_continued (by decide : isWordChar '\n' = false), hdrop] at hnext ⊢
  split at hnext
  · cases hnext
    rw [List.prefix_append_drop hused] at h
    exact ⟨_, _, _, rfl, rfl, h.place, h.advance⟩
  · cases hnext

theorem nextNumber_alongside (h : Scanner.Alongside count (c :: line) more other s t)
    (hnumber : c.isDigit = true ∨ c = '.') (hnext : nextNumber t = .ok (lexeme, after)) :
    Both count more other (nextNumber s) lexeme after := by
  unfold nextNumber at hnext ⊢
  rw [h.second, number_continued] at hnext
  rw [h.first, number_continued]
  cases htoken : number (c :: line) with
  | none =>
    rw [htoken] at hnext
    cases hnext
  | some found =>
    obtain ⟨token, left⟩ := found
    rw [htoken] at hnext
    obtain ⟨used, hused⟩ := (number_suffix hnumber htoken).trans (List.suffix_cons c line)
    have htaken (rest : List Char) : (continued (c :: line) rest).take
        ((continued (c :: line) rest).length - (continued left rest).length) = used := by
      rw [← hused, Text.continued, Text.continued, List.append_assoc]
      simp
    simp only [Option.map_some, alongside, htaken] at hnext ⊢
    cases hnext
    rw [← hused] at h
    exact ⟨_, _, _, rfl, rfl, h.place, h.advance⟩

theorem nextOperator_alongside (h : Scanner.Alongside count (c :: line) more other s t)
    (hnext : nextOperator t c = .ok (lexeme, after)) :
    Both count more other (nextOperator s c) lexeme after := by
  have hsome := List.cons_ne_nil c line
  obtain ⟨width, -, hwidth, hoperator⟩ := operator_eq_take hsome
  have hnested {brackets : List (Char × Nat)}
      (hbrackets : (if width = 1 then nest t c else .ok t.brackets) = .ok brackets) :
      ∃ open', (if width = 1 then nest s c else .ok s.brackets) = .ok open' ∧
        brackets = lowered count open' := by
    by_cases hone : width = 1
    · rw [if_pos hone] at hbrackets ⊢
      exact nest_lowered h hbrackets
    · rw [if_neg hone] at hbrackets ⊢
      cases hbrackets
      exact ⟨_, rfl, h.brackets⟩
  unfold nextOperator at hnext ⊢
  rw [h.second] at hnext
  rw [h.first]
  simp only [operator_continued hsome, hoperator, List.length_take_of_le hwidth,
    drop_continued hwidth] at hnext ⊢
  cases hbrackets : (if width = 1 then nest t c else .ok t.brackets) with
  | error =>
    rw [hbrackets] at hnext
    cases hnext
  | ok brackets =>
    obtain ⟨open', hopen, rfl⟩ := hnested hbrackets
    rw [hbrackets] at hnext
    rw [hopen]
    cases hnext
    rw [← List.take_append_drop width (c :: line)] at h
    exact ⟨_, _, _, rfl, rfl, h.place, h.advance.nest open'⟩

/-- A scanner in a line finds a token other than a text where it is found further down. -/
theorem nextPlain_alongside (h : Scanner.Alongside count (c :: line) more other s t)
    (hmark : textPrefix? (c :: line) = none) (hnext : next t c = .ok (lexeme, after)) :
    Both count more other (next s c) lexeme after := by
  have hmarks (rest : List Char) : textPrefix? (continued (c :: line) rest) = none := by
    rw [textPrefix?_continued, hmark, Option.map_none]
  have hdigit (rest : List Char) :
      ((continued (c :: line) rest).tail.headD ' ').isDigit = (line.headD ' ').isDigit := by
    cases line <;> rfl
  rw [next_eq, h.second, hmarks, hdigit] at hnext
  rw [next_eq, h.first, hmarks, hdigit]
  dsimp only at hnext ⊢
  by_cases hword : (isWordChar c && !c.isDigit) = true
  · rw [if_pos hword] at hnext ⊢
    exact nextWord_alongside h hnext
  rw [if_neg hword] at hnext ⊢
  by_cases hnumber : (c.isDigit || (c == '.' && (line.headD ' ').isDigit)) = true
  · rw [if_pos hnumber] at hnext ⊢
    rw [Bool.or_eq_true, Bool.and_eq_true, beq_iff_eq] at hnumber
    exact nextNumber_alongside h (hnumber.imp_right And.left) hnext
  rw [if_neg hnumber] at hnext ⊢
  by_cases hprintable : (!Text.isPrintable c) = true
  · rw [if_pos hprintable] at hnext
    cases hnext
  rw [if_neg hprintable] at hnext ⊢
  exact nextOperator_alongside h hnext

/-- A scanner in a line finds the token that is found where the line stands further down. -/
theorem next_alongside (h : Scanner.Alongside count (c :: line) more other s t)
    (hnext : next t c = .ok (lexeme, after))
    (hflat : lexeme.token.isText = true → lexeme.stop.line = lexeme.start.line) :
    Both count more other (next s c) lexeme after := by
  cases hmark : textPrefix? (c :: line) with
  | none => exact nextPlain_alongside h hmark hnext
  | some found =>
    obtain ⟨mark, quoted⟩ := found
    obtain ⟨hsplit, quote, rest, rfl, hquote⟩ := textPrefix?_eq_some hmark
    rw [next_eq, h.second, textPrefix?_continued, hmark] at hnext
    rw [next_eq, h.first, textPrefix?_continued, hmark]
    rw [hsplit] at h
    exact textLiteral_alongside h hquote hnext hflat

end Alongside

end Token

end TableAudit
