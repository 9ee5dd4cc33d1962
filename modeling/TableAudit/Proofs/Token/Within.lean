import Mathlib
import TableAudit.Proofs.Text.Quoted

namespace TableAudit

/-- An ASCII identifier that is no keyword. -/
structure IsIdentifier (id : String) : Prop where
  ascii : ∀ c ∈ id.toList, c.toNat < 128
  isName : Text.isName id.toList = true
  notKeyword : id ∉ keywords

theorem IsIdentifier.of_checks {id : String} (hascii : (id.toList.all fun c => c.toNat < 128) = true)
    (hname : Text.isName id.toList = true) (hkeyword : keywords.contains id = false) :
    IsIdentifier id := by
  refine ⟨fun c hc => ?_, hname, by simpa using hkeyword⟩
  simpa using List.all_eq_true.mp hascii c hc

namespace Scan

theorem before_nil (scan : Scan) : before [] scan = scan :=
  rfl

theorem before_before (first second : List Lexeme) (scan : Scan) :
    before first (before second scan) = before (first ++ second) scan := by
  simp [before]

end Scan

namespace Token

/-- A scan that stands within a line outside blocks, with what is left and the open brackets. -/
structure Scanner.Within (s : Scanner) (rest opens : List Char) : Prop where
  rest : s.rest = rest
  indents : s.indents = [(0, 0)]
  opens : s.brackets.map Prod.fst = opens
  inLine : s.atLineStart = false

/-- Within a line, a piece of a text before the rest of it gives these tokens, and brackets that
    were open before it have become others. -/
def Gives (piece rest opens others : List Char) (tokens : List Token) : Prop :=
  ∀ s : Scanner, s.Within (piece ++ rest) opens → ∃ after lexemes steps,
    after.Within rest others ∧ lexemes.map Lexeme.token = tokens ∧ steps ≤ piece.length ∧
      ∀ fuel, scanFrom (fuel + steps) s = Scan.before lexemes (scanFrom fuel after)

theorem Gives.nil (rest opens : List Char) : Gives [] rest opens opens [] :=
  fun s hs => ⟨s, [], 0, hs, rfl, Nat.le_refl 0, fun _ => rfl⟩

theorem Gives.append {piece next rest opens others last : List Char} {tokens more : List Token}
    (h : Gives piece (next ++ rest) opens others tokens) (hnext : Gives next rest others last more) :
    Gives (piece ++ next) rest opens last (tokens ++ more) := by
  intro s hs
  rw [List.append_assoc] at hs
  obtain ⟨middle, lexemes, steps, hmiddle, htokens, hsteps, hscan⟩ := h s hs
  obtain ⟨after, others, count, hafter, hmore, hcount, hrest⟩ := hnext middle hmiddle
  refine ⟨after, lexemes ++ others, count + steps, hafter, ?_, ?_, fun fuel => ?_⟩
  · rw [List.map_append, htokens, hmore]
  · rw [List.length_append]
    omega
  · rw [← Nat.add_assoc, hscan, hrest, Scan.before_before]

theorem Scanner.Within.advance {s : Scanner} {rest opens : List Char} (h : s.Within rest opens)
    (text tail : List Char) : (s.advance text tail).Within tail opens :=
  ⟨rfl, h.indents, h.opens, rfl⟩

/-- The characters that are no beginning of a token. -/
def isLayoutMark (c : Char) : Bool :=
  isSpace c || c == '#' || c == '\n' || c == '\\'

/-- Moves over the blanks within a line. -/
def Scanner.skipBlanks (s : Scanner) : Scanner :=
  s.advance (s.rest.takeWhile isSpace) (s.rest.dropWhile isSpace)

/-- Within a line a scan goes on with the token that begins at the first character after the
    blanks. -/
theorem scanFrom_of_token {s : Scanner} {c : Char} {rest : List Char}
    (hstart : s.atLineStart = false) (hrest : s.skipBlanks.rest = c :: rest)
    (hc : isLayoutMark c = false) (fuel : Nat) :
    scanFrom (fuel + 1) s =
      match next s.skipBlanks c with
      | .error reason => ⟨[], some reason⟩
      | .ok (lexeme, after) => Scan.before [lexeme] (scanFrom fuel after) := by
  simp only [isLayoutMark, Bool.or_eq_false_iff, beq_eq_false_iff_ne] at hc
  obtain ⟨⟨⟨-, hcomment⟩, hline⟩, hescape⟩ := hc
  have hdrop : s.rest.dropWhile isSpace = c :: rest := hrest
  rw [scanFrom, hstart, if_neg Bool.false_ne_true, Scanner.skipBlanks]
  simp only [hdrop]
  -- The marks of the layout come first among the cases.
  split
  · next h => cases h
  · next h => exact absurd (List.cons.inj h).1 hcomment
  · next h => exact absurd (List.cons.inj h).1 hline
  · next h => exact absurd (List.cons.inj h).1 hescape
  · next h => exact absurd (List.cons.inj h).1 hescape
  · next h =>
    obtain ⟨rfl, rfl⟩ := List.cons.inj h
    rfl

/-- A token with a blank before it or without is one step. -/
theorem Gives.token {blanks spelling rest opens others : List Char} {c : Char} {token : Token}
    (hblanks : ∀ b ∈ blanks, isSpace b = true) (hc : isLayoutMark c = false)
    (hnext : ∀ s : Scanner, s.Within (c :: spelling ++ rest) opens → ∃ lexeme after,
      next s c = .ok (lexeme, after) ∧ lexeme.token = token ∧ after.Within rest others) :
    Gives (blanks ++ c :: spelling) rest opens others [token] := by
  intro s hs
  have hspace : isSpace c = false := by
    simp only [isLayoutMark, Bool.or_eq_false_iff] at hc
    exact hc.1.1.1
  have hrest : s.rest = blanks ++ c :: (spelling ++ rest) := by rw [hs.rest]; simp
  have htake : s.rest.takeWhile isSpace = blanks := by
    rw [hrest, List.takeWhile_append_of_pos hblanks, List.takeWhile_cons, hspace]
    simp
  have hdrop : s.rest.dropWhile isSpace = c :: (spelling ++ rest) := by
    rw [hrest, List.dropWhile_append_of_pos hblanks, List.dropWhile_cons, hspace]
    simp
  obtain ⟨lexeme, after, hlexeme, htoken, hafter⟩ := hnext _ (hs.advance blanks (c :: (spelling ++ rest)))
  have hlength : 1 ≤ (blanks ++ c :: spelling).length := by simp; omega
  refine ⟨after, [lexeme], 1, hafter, by rw [← htoken]; rfl, hlength, fun fuel => ?_⟩
  rw [scanFrom_of_token hs.inLine hdrop hc, Scanner.skipBlanks, htake, hdrop, hlexeme]

/-- The prefix of a text literal is made of letters. -/
theorem isAlpha_of_textPrefix {mark : List Char}
    (h : textPrefixes.contains (Decimal.lowered mark) = true) : ∀ c ∈ mark, c.isAlpha = true := by
  have hlower : ∀ c ∈ mark.map Char.toLower, c ∈ ['b', 'u', 'r', 'f'] := by
    have hprefixes : (textPrefixes.all fun mark => mark.toList.all ['b', 'u', 'r', 'f'].contains) =
        true := by decide
    have hmem := List.all_eq_true.mp hprefixes _ (List.contains_iff_mem.mp h)
    rw [Decimal.lowered, String.toList_ofList, List.all_eq_true] at hmem
    exact fun c hc => List.contains_iff_mem.mp (hmem c hc)
  intro c hc
  have hmem := hlower _ (List.mem_map_of_mem hc)
  by_cases hupper : c.isUpper = true
  · rw [Char.isAlpha, hupper, Bool.true_or]
  · have hself : c.toLower = c := by
      unfold Char.toLower
      unfold Char.isUpper at hupper
      rw [dif_neg]
      simpa using hupper
    have hletters : ['b', 'u', 'r', 'f'].all Char.isAlpha = true := by decide
    exact List.all_eq_true.mp hletters c (hself ▸ hmem)

/-- No text literal begins with characters other than quotes before one that is no letter. -/
theorem textPrefix?_eq_none {word rest : List Char} {mark : Char}
    (hword : ∀ c ∈ word, c ≠ '"' ∧ c ≠ '\'') (hmark : mark ≠ '"' ∧ mark ≠ '\'')
    (hletter : mark.isAlpha = false) : textPrefix? (word ++ mark :: rest) = none := by
  rw [textPrefix?, List.findSome?_eq_none_iff]
  intro n _
  dsimp only
  rw [if_neg]
  intro h
  simp only [Bool.and_eq_true, Bool.or_eq_true, beq_iff_eq] at h
  obtain ⟨⟨-, hquoted⟩, hprefix⟩ := h
  rw [List.head?_drop] at hquoted
  rcases Nat.lt_trichotomy n word.length with hn | rfl | hn
  · rw [List.getElem?_append_left hn, List.getElem?_eq_getElem hn, Option.some.injEq,
      Option.some.injEq] at hquoted
    have hc := hword word[n] (List.getElem_mem hn)
    exact hquoted.elim hc.1 hc.2
  · rw [List.getElem?_append_right (Nat.le_refl _), Nat.sub_self, List.getElem?_cons_zero,
      Option.some.injEq, Option.some.injEq] at hquoted
    exact hquoted.elim hmark.1 hmark.2
  · have hmem : mark ∈ (word ++ mark :: rest).take n := by
      rw [List.take_append, List.take_of_length_le hn.le]
      refine List.mem_append_right word ?_
      obtain ⟨count, hcount⟩ := Nat.exists_eq_add_of_lt hn
      rw [show n - word.length = count + 1 by omega, List.take_succ_cons]
      exact List.mem_cons_self
    rw [isAlpha_of_textPrefix hprefix mark hmem] at hletter
    cases hletter

/-- The marks that stand between the names and texts of a declaration. -/
def isMark (c : Char) : Bool :=
  ['(', ')', ',', '.'].contains c

theorem isMark_cases {c : Char} (h : isMark c = true) : c = '(' ∨ c = ')' ∨ c = ',' ∨ c = '.' := by
  simpa [isMark] using h

theorem isWordChar_of_isNameRest {c : Char} (hascii : c.toNat < 128)
    (h : Text.isNameRest c = true) : isWordChar c = true ∧ c ≠ '"' ∧ c ≠ '\'' := by
  rw [Text.isNameRest, if_pos hascii, Bool.or_eq_true, beq_iff_eq] at h
  refine ⟨?_, ?_, ?_⟩
  · rw [isWordChar, Bool.or_eq_true, Bool.or_eq_true, beq_iff_eq]
    exact .inl h
  · rintro rfl
    exact absurd h (by decide)
  · rintro rfl
    exact absurd h (by decide)

theorem isDigit_of_isAlpha {c : Char} (h : c.isAlpha = true) : c.isDigit = false := by
  simp only [Char.isAlpha, Char.isUpper, Char.isLower, Char.isDigit, ge_iff_le,
    UInt32.le_iff_toNat_le, Bool.or_eq_true, Bool.and_eq_true, decide_eq_true_eq,
    Bool.and_eq_false_iff, decide_eq_false_iff_not] at h ⊢
  simp only [Char.reduceVal, UInt32.reduceToNat] at h ⊢
  omega

theorem of_isNameStart {c : Char} (hascii : c.toNat < 128) (h : Text.isNameStart c = true) :
    Text.isNameRest c = true ∧ isLayoutMark c = false ∧ c.isDigit = false := by
  rw [Text.isNameStart, if_pos hascii, Bool.or_eq_true, beq_iff_eq] at h
  rw [Text.isNameRest, if_pos hascii, Bool.or_eq_true, beq_iff_eq]
  rcases h with h | rfl
  · refine ⟨.inl ?_, ?_, isDigit_of_isAlpha h⟩
    · rw [Char.isAlphanum, h, Bool.true_or]
    · by_contra hmark
      rw [Bool.not_eq_false, isLayoutMark, isSpace] at hmark
      simp only [Bool.or_eq_true, beq_iff_eq] at hmark
      rcases hmark with ((((rfl | rfl) | rfl) | rfl) | rfl) | rfl <;> exact absurd h (by decide)
  · decide

/-- An identifier before a mark is a name. -/
theorem gives_name {blanks rest opens : List Char} {id : String} {mark : Char}
    (hblanks : ∀ b ∈ blanks, isSpace b = true) (hid : IsIdentifier id) (hmark : isMark mark = true) :
    Gives (blanks ++ id.toList) (mark :: rest) opens opens [.name id] := by
  have hname := hid.isName
  have hascii := hid.ascii
  have hspelled : String.ofList id.toList = id := String.ofList_toList
  have hcomposed : Text.Compatibility.compose id = id := by
    rw [Text.Compatibility.compose, if_pos]
    simpa using hascii
  generalize id.toList = spelling at hname hascii hspelled ⊢
  cases spelling with
  | nil => cases hname
  | cons c tail =>
    have hstart := hname
    rw [Text.isName, Bool.and_eq_true] at hstart
    obtain ⟨hrest, hlayout, hdigit⟩ := of_isNameStart (hascii c List.mem_cons_self) hstart.1
    have hchars : ∀ d ∈ c :: tail, isWordChar d = true ∧ d ≠ '"' ∧ d ≠ '\'' := by
      intro d hd
      refine isWordChar_of_isNameRest (hascii d hd) ?_
      rcases List.mem_cons.mp hd with rfl | hd
      · exact hrest
      · exact List.all_eq_true.mp hstart.2 d hd
    obtain ⟨hquotes, hletter, hword⟩ : (mark ≠ '"' ∧ mark ≠ '\'') ∧ mark.isAlpha = false ∧
        isWordChar mark = false := by
      rcases isMark_cases hmark with rfl | rfl | rfl | rfl <;> decide
    refine Gives.token hblanks hlayout fun s hs => ?_
    have hprefix : textPrefix? s.rest = none := by
      rw [hs.rest]
      exact textPrefix?_eq_none (fun d hd => (hchars d hd).2) hquotes hletter
    have htake : s.rest.takeWhile isWordChar = c :: tail := by
      rw [hs.rest, List.takeWhile_append_of_pos fun d hd => (hchars d hd).1, List.takeWhile_cons,
        hword, if_neg Bool.false_ne_true, List.append_nil]
    have hdrop : s.rest.drop (c :: tail).length = mark :: rest := by
      rw [hs.rest]
      exact List.drop_left
    have htoken : word (c :: tail) = some (.name id) := by
      have hkeyword : keywords.contains id = false := by simpa using hid.notKeyword
      rw [word, hspelled, hkeyword, if_neg Bool.false_ne_true, if_pos hname, hcomposed]
    rw [next, hprefix]
    simp only [(hchars c List.mem_cons_self).1, hdigit, htake, htoken, hdrop, Bool.not_false,
      Bool.and_self, if_true]
    exact ⟨_, _, rfl, rfl, hs.advance _ _⟩

/-- The literal of a text before a mark is a text. -/
theorem gives_text {blanks rest opens : List Char} (text : List Char) {mark : Char}
    (hblanks : ∀ b ∈ blanks, isSpace b = true) (hmark : isMark mark = true) :
    Gives (blanks ++ Text.Quoted.encode text) (mark :: rest) opens opens
      [.text (Text.Quoted.encode text)] := by
  have hquote := Text.Quoted.chooseQuote_cases text
  have hlayout : isLayoutMark (Text.Quoted.chooseQuote text) = false := by
    rcases hquote with h | h <;> rw [h] <;> decide
  have hother : (mark :: rest).head? ≠ some (Text.Quoted.chooseQuote text) := by
    rw [List.head?_cons, ne_eq, Option.some.injEq]
    rintro rfl
    rcases hquote with h | h <;> rw [h] at hmark <;> exact absurd hmark (by decide)
  rw [Text.Quoted.encode_eq]
  refine Gives.token hblanks hlayout fun s hs => ?_
  have hrest : s.rest = Text.Quoted.encode text ++ mark :: rest := hs.rest
  have hprefix : textPrefix? s.rest = some ([], s.rest) := by
    have hquoted : (s.rest.head? == some '"' || s.rest.head? == some '\'') = true := by
      rw [hs.rest]
      rcases hquote with h | h <;> rw [h] <;> rfl
    have hplain : textPrefixes.contains (Decimal.lowered []) = true := by decide
    simp only [textPrefix?, List.findSome?_cons, List.take_zero, List.drop_zero, List.length_nil,
      hquoted, hplain, decide_true, Bool.and_self, if_true]
  have hhead : s.rest.headD '"' = Text.Quoted.chooseQuote text := by
    rw [hs.rest]
    rfl
  have htriple : (s.rest.take 3 == [Text.Quoted.chooseQuote text, Text.Quoted.chooseQuote text,
      Text.Quoted.chooseQuote text]) = false := by
    rw [hrest]
    exact Text.Quoted.take_three_encode hother
  have hone : s.rest.take 1 = [Text.Quoted.chooseQuote text] := by
    rw [hs.rest]
    rfl
  have hdrop : s.rest.drop 1 =
      (Text.Quoted.body text ++ [Text.Quoted.chooseQuote text]) ++ mark :: rest := by
    rw [hs.rest]
    simp
  have hescape : Text.Quoted.chooseQuote text ≠ '\\' := by
    rcases hquote with h | h <;> rw [h] <;> decide
  have hbody := (Text.Quoted.isBody_flatMap hquote Text.isPrintable text).textBody_append hescape
    (mark :: rest)
  rw [next, hprefix]
  simp only [textLiteral, hhead, htriple, Bool.false_eq_true, if_false, hone, List.nil_append,
    List.length_singleton, hdrop, Text.Quoted.body, hbody]
  exact ⟨_, _, rfl, rfl, hs.advance _ _⟩

/-- No operator of more than one character begins with a mark, unless it goes on with a point. -/
theorem operator_mark {c d : Char} (hc : isMark c = true) (hd : d ≠ '.') (rest : List Char) :
    operator (c :: d :: rest) = [c] := by
  have hops : ∀ op ∈ threeCharOps ++ twoCharOps, (op.toList.head?.any isMark) = true →
      op.toList.tail.head? = some '.' := by decide
  have hfits (count : Nat) {ops : List String} (hmem : ∀ op ∈ ops, op ∈ threeCharOps ++ twoCharOps) :
      ops.contains (String.ofList ((c :: d :: rest).take (count + 2))) = false := by
    rw [Bool.eq_false_iff, ne_eq, List.contains_iff_mem]
    intro h
    have hpoint := hops _ (hmem _ h)
    rw [String.toList_ofList, List.take_succ_cons, List.take_succ_cons] at hpoint
    have hsecond : some d = some '.' := hpoint (by simpa using hc)
    exact hd (Option.some.inj hsecond)
  rw [operator]
  simp only [hfits 1 fun op h => List.mem_append_left _ h,
    hfits 0 fun op h => List.mem_append_right _ h, Bool.false_eq_true, if_false]
  rfl

/-- A mark, before a character that it does not make an operator with. -/
theorem gives_mark {c d : Char} {rest opens others : List Char} (hc : isMark c = true)
    (hdigit : d.isDigit = false) (hd : d ≠ '.')
    (hnest : ∀ s : Scanner, s.brackets.map Prod.fst = opens →
      ∃ brackets, nest s c = .ok brackets ∧ brackets.map Prod.fst = others) :
    Gives [c] (d :: rest) opens others [.op (String.ofList [c])] := by
  obtain ⟨hlayout, hquotes, hletter, hword, hprintable⟩ : isLayoutMark c = false ∧
      (c ≠ '"' ∧ c ≠ '\'') ∧ c.isAlpha = false ∧ (isWordChar c = false ∧ c.isDigit = false) ∧
      Text.isPrintable c = true := by
    rcases isMark_cases hc with rfl | rfl | rfl | rfl <;> decide
  have hnone : textPrefix? ([] ++ c :: d :: rest) = none :=
    textPrefix?_eq_none (by simp) hquotes hletter
  change Gives ([] ++ [c]) _ _ _ _
  refine Gives.token (by simp) hlayout fun s hs => ?_
  have hprefix : textPrefix? s.rest = none := by
    rw [hs.rest]
    exact hnone
  have htail : s.rest.tail.headD ' ' = d := by
    rw [hs.rest]
    rfl
  have hoperator : operator s.rest = [c] := by
    rw [hs.rest]
    exact operator_mark hc hd rest
  have hdrop : s.rest.drop 1 = d :: rest := by
    rw [hs.rest]
    rfl
  obtain ⟨brackets, hbrackets, hothers⟩ := hnest s hs.opens
  rw [next, hprefix]
  simp only [hword.1, hword.2, Bool.false_and, Bool.false_eq_true, if_false, htail, hdigit,
    Bool.and_false, Bool.or_self, hprintable, Bool.not_true, hoperator, List.length_singleton,
    if_true, hbrackets, Except.map, hdrop]
  refine ⟨_, _, rfl, rfl, ?_⟩
  exact ⟨rfl, hs.indents, hothers, rfl⟩

/-- An opening parenthesis, where not too many are open. -/
theorem gives_open {d : Char} {rest opens : List Char} (hdigit : d.isDigit = false) (hd : d ≠ '.')
    (hdepth : opens.length < bracketLimit) :
    Gives ['('] (d :: rest) opens ('(' :: opens) [.op "("] := by
  refine gives_mark rfl hdigit hd fun s hs => ⟨('(', s.place.line) :: s.brackets, ?_, ?_⟩
  · have hlength : ¬ s.brackets.length ≥ bracketLimit := by
      rw [← hs, List.length_map] at hdepth
      omega
    have hopener : isOpener '(' = true := rfl
    rw [nest, if_pos hopener, if_neg hlength]
  · rw [List.map_cons, hs]

theorem gives_close {d : Char} {rest opens : List Char} (hdigit : d.isDigit = false) (hd : d ≠ '.') :
    Gives [')'] (d :: rest) ('(' :: opens) opens [.op ")"] := by
  refine gives_mark rfl hdigit hd fun s hs => ?_
  cases hbrackets : s.brackets with
  | nil => rw [hbrackets] at hs; cases hs
  | cons first outer =>
    rw [hbrackets, List.map_cons, List.cons.injEq] at hs
    obtain ⟨opening, line⟩ := first
    obtain rfl : opening = '(' := hs.1
    exact ⟨outer, by rw [nest, hbrackets]; rfl, hs.2⟩

/-- A comma or a point. -/
theorem gives_separator {c d : Char} {rest opens : List Char} (hc : c = ',' ∨ c = '.')
    (hdigit : d.isDigit = false) (hd : d ≠ '.') :
    Gives [c] (d :: rest) opens opens [.op (String.ofList [c])] := by
  have hmark : isMark c = true := by rcases hc with rfl | rfl <;> rfl
  refine gives_mark hmark hdigit hd fun s hs => ⟨s.brackets, ?_, hs⟩
  rcases hc with rfl | rfl <;> rfl

/-- A scan at the beginning of a line outside blocks and brackets. -/
structure Scanner.Begins (s : Scanner) (rest : List Char) : Prop where
  rest : s.rest = rest
  indents : s.indents = [(0, 0)]
  brackets : s.brackets = []
  atLineStart : s.atLineStart = true

theorem measure_text {c : Char} (hspace : isSpace c = false) (hescape : c ≠ '\\') (width narrow : Nat)
    {fixed : Option (Nat × Nat)} (rest : List Char) :
    measure width narrow fixed (c :: rest) = .ok ⟨width, narrow, fixed, [], c :: rest⟩ := by
  simp only [isSpace, Bool.or_eq_false_iff, beq_eq_false_iff_ne] at hspace
  obtain ⟨⟨hblank, htab⟩, hfeed⟩ := hspace
  rw [measure]
  · exact fun _ h => hblank (List.cons.inj h).1
  · exact fun _ h => htab (List.cons.inj h).1
  · exact fun _ h => hfeed (List.cons.inj h).1
  · exact fun _ h => hescape (List.cons.inj h).1
  · exact fun _ h => hescape (List.cons.inj h).1

theorem measure_of_not_layout {c : Char} (hc : isLayoutMark c = false) (rest : List Char) :
    measure 0 0 none (c :: rest) = .ok ⟨0, 0, none, [], c :: rest⟩ := by
  simp only [isLayoutMark, Bool.or_eq_false_iff, beq_eq_false_iff_ne] at hc
  exact measure_text hc.1.1.1 hc.2 0 0 rest

/-- A line without a margin is scanned from where it begins. -/
theorem Scanner.Begins.scanFrom_eq {s : Scanner} {c : Char} {rest : List Char}
    (hs : s.Begins (c :: rest)) (hc : isLayoutMark c = false) (fuel : Nat) :
    scanFrom (fuel + 1) s = scanFrom fuel { s with atLineStart := false } := by
  have hmeasure := measure_of_not_layout hc rest
  simp only [isLayoutMark, Bool.or_eq_false_iff, beq_eq_false_iff_ne] at hc
  rw [scanFrom, hs.atLineStart, if_pos rfl, hs.rest, hmeasure]
  dsimp only
  split
  · next h => exact absurd (List.cons.inj h).1 hc.1.1.2
  · next h => exact absurd (List.cons.inj h).1 hc.1.2
  · have hadvance : s.advance [] (c :: rest) = { s with atLineStart := false } := by
      rw [Scanner.advance, ← hs.rest]
      rfl
    have hlayout : layout 0 0 s.indents = some ([], [(0, 0)]) := by
      rw [hs.indents]
      rfl
    simp only [hadvance, hs.brackets, List.isEmpty_nil, if_true, Option.getD_none, hlayout,
      List.map_nil, Scan.before_nil, ← hs.indents, hs.rest]

/-- A line without a margin gives its tokens and a line end. -/
theorem Scanner.Begins.scan_line {s : Scanner} {line rest : List Char} {tokens : List Token}
    (hs : s.Begins (line ++ '\n' :: rest)) {c : Char} (hline : line.head? = some c)
    (hc : isLayoutMark c = false) (hgives : Gives line ('\n' :: rest) [] [] tokens) :
    ∃ after lexemes steps, after.Begins rest ∧
      lexemes.map Lexeme.token = tokens ++ [.newline] ∧ steps ≤ line.length + 2 ∧
      ∀ fuel, scanFrom (fuel + steps) s = Scan.before lexemes (scanFrom fuel after) := by
  obtain ⟨tail, rfl⟩ : ∃ tail, line = c :: tail := by
    cases line with
    | nil => cases hline
    | cons d tail => exact ⟨tail, by rw [Option.some.inj hline]⟩
  have hwithin : ({ s with atLineStart := false } : Scanner).Within
      (c :: tail ++ '\n' :: rest) [] :=
    ⟨hs.rest, hs.indents, by rw [hs.brackets]; rfl, rfl⟩
  obtain ⟨ended, lexemes, steps, hended, htokens, hsteps, hscan⟩ := hgives _ hwithin
  have hbrackets : ended.brackets = [] := List.map_eq_nil_iff.mp hended.opens
  let after : Scanner := { ended.advance ['\n'] rest with atLineStart := true }
  refine ⟨after, lexemes ++ [⟨.newline, ended.place, ended.place⟩], 1 + steps + 1, ?_, ?_, ?_,
    fun fuel => ?_⟩
  · exact ⟨rfl, hended.indents, hbrackets, rfl⟩
  · rw [List.map_append, htokens]
    rfl
  · omega
  · have hend : scanFrom (fuel + 1) ended =
        Scan.before [⟨.newline, ended.place, ended.place⟩] (scanFrom fuel after) := by
      have hadvance : ended.advance [] ('\n' :: rest) = ended := by
        rw [Scanner.advance, ← hended.rest, ← hended.inLine]
        rfl
      have hspace : isSpace '\n' = false := rfl
      rw [scanFrom, hended.inLine, if_neg Bool.false_ne_true]
      simp only [hended.rest, List.takeWhile_cons, List.dropWhile_cons, hspace, Bool.false_eq_true,
        if_false, hadvance, hbrackets, List.isEmpty_nil, if_true, after]
    rw [show fuel + (1 + steps + 1) = fuel + 1 + steps + 1 by omega, hs.scanFrom_eq hc, hscan, hend,
      Scan.before_before]

/-- At the end of a text there is nothing more. -/
theorem Scanner.Begins.scan_end {s : Scanner} (hs : s.Begins []) (fuel : Nat) :
    scanFrom (fuel + 2) s = ⟨[], none⟩ := by
  have hmeasure : measure 0 0 none [] = .ok ⟨0, 0, none, [], []⟩ := rfl
  have hlayout : layout 0 0 s.indents = some ([], [(0, 0)]) := by
    rw [hs.indents]
    rfl
  rw [scanFrom, hs.atLineStart, if_pos rfl, hs.rest, hmeasure]
  simp only [Scanner.advance, hs.brackets, List.isEmpty_nil, if_true, Option.getD_none, hlayout,
    List.map_nil, Scan.before_nil]
  rw [scanFrom]
  simp only [Bool.false_eq_true, if_false, List.takeWhile_nil, List.dropWhile_nil, Scanner.advance]
  rfl

/-- A text of lines without margins gives the tokens of its lines, each with its end. -/
theorem tokens_of_lines {α : Type} {lines : List α} (chars : α → List Char)
    (tokens : α → List Token)
    (hlines : ∀ line ∈ lines, ∃ c, (chars line).head? = some c ∧ isLayoutMark c = false ∧
      ∀ rest, Gives (chars line) ('\n' :: rest) [] [] (tokens line)) :
    (scan (lines.flatMap fun line => chars line ++ ['\n'])).tokens =
      (lines.flatMap fun line => tokens line ++ [.newline]) ++ [.stop] := by
  have hscan : ∀ s : Scanner, s.Begins (lines.flatMap fun line => chars line ++ ['\n']) →
      ∃ lexemes steps, lexemes.map Lexeme.token = (lines.flatMap fun line => tokens line ++ [.newline]) ∧
        steps ≤ 2 * (lines.flatMap fun line => chars line ++ ['\n']).length + 2 ∧
        ∀ fuel, scanFrom (fuel + steps) s = ⟨lexemes, none⟩ := by
    induction lines with
    | nil => exact fun s hs => ⟨[], 2, rfl, Nat.le_refl 2, fun fuel => hs.scan_end fuel⟩
    | cons line lines ih =>
      intro s hs
      rw [List.forall_mem_cons] at hlines
      obtain ⟨⟨c, hhead, hc, hgives⟩, hrest⟩ := hlines
      rw [List.flatMap_cons, List.append_assoc] at hs
      obtain ⟨after, lexemes, steps, hafter, htokens, hsteps, hfirst⟩ :=
        hs.scan_line hhead hc (hgives _)
      obtain ⟨more, count, hmore, hcount, hothers⟩ := ih hrest after hafter
      refine ⟨lexemes ++ more, count + steps, ?_, ?_, fun fuel => ?_⟩
      · rw [List.map_append, htokens, hmore, List.flatMap_cons]
      · rw [List.flatMap_cons, List.length_append, List.length_append, List.length_singleton]
        have hpos : 0 < (chars line).length := by
          rw [List.length_pos_iff]
          rintro hempty
          rw [hempty] at hhead
          cases hhead
        omega
      · rw [← Nat.add_assoc, hfirst, hothers]
        rfl
  let text := lines.flatMap fun line => chars line ++ ['\n']
  obtain ⟨lexemes, steps, htokens, hsteps, hfrom⟩ :=
    hscan ⟨text, ⟨1, 0⟩, [(0, 0)], [], true⟩ ⟨rfl, rfl, rfl, rfl⟩
  obtain ⟨fuel, hfuel⟩ := Nat.exists_eq_add_of_le hsteps
  rw [scan, hfuel, Nat.add_comm, hfrom, Scan.tokens, htokens]
  rfl

end Token

end TableAudit
