import Mathlib.Data.Nat.Digits.Lemmas
import TableAudit.Grammar.TextLiteral
import TableAudit.Proofs.Token.Literals
import TableAudit.Text.Quoted

namespace TableAudit.Text.Quoted

open TableAudit.Grammar

variable {named : String → Option Char}

/-- A property of the hexadecimal digits that each of the sixteen has. -/
theorem forall_hexDigit {P : Char → Prop} (h : ∀ value < 16, P (hexDigit value)) (width value : Nat) :
    ∀ c ∈ hexDigits width value, P c := by
  induction width generalizing value with
  | zero => exact fun c hc => absurd hc List.not_mem_nil
  | succ width ih =>
    intro c hc
    rcases List.mem_append.mp hc with hc | hc
    · exact ih (value / 16) c hc
    · rw [List.mem_singleton.mp hc]
      exact h _ (Nat.mod_lt _ (by decide))

@[simp] theorem length_hexDigits (width value : Nat) : (hexDigits width value).length = width := by
  induction width generalizing value with
  | zero => rfl
  | succ width ih => rw [hexDigits, List.length_append, ih, List.length_singleton]

/-- Hexadecimal digits read back as the number, as far as there are enough of them. -/
theorem hexValue?_hexDigits (width value : Nat) :
    hexValue? (hexDigits width value) = some (value % 16 ^ width) := by
  have hdigits : (hexDigits width value).all Token.isHexDigit = true := by
    rw [List.all_eq_true]
    exact forall_hexDigit (by decide) width value
  rw [hexValue?, if_pos hdigits, Option.some.injEq]
  clear hdigits
  induction width generalizing value with
  | zero => simp [hexDigits, Nat.mod_one]
  | succ width ih =>
    have hlast : ∀ digit < 16, Token.digitValue (hexDigit digit) = digit := by decide
    rw [hexDigits, List.foldl_append, ih, List.foldl_cons, List.foldl_nil,
      hlast _ (Nat.mod_lt _ (by decide)), Nat.pow_succ', Nat.mod_mul]
    ring

/-- A character is below the surrogates or above them. -/
theorem toNat_cases (c : Char) : c.toNat < 0xD800 ∨ 0xDFFF < c.toNat ∧ c.toNat < 0x110000 :=
  c.valid

theorem codePoint_lt (c : Char) : codePoint c < 0x110000 := by
  have hcases := toNat_cases c
  unfold codePoint
  by_cases hsurrogate : isSurrogate c = true
  · rw [if_pos hsurrogate, firstStandIn, firstSurrogate]
    omega
  · rw [if_neg hsurrogate]
    omega

/-- Characters for different code points are different. -/
theorem ofCodePoint_codePoint (c : Char) : ofCodePoint (codePoint c) = c := by
  have hcases := toNat_cases c
  unfold codePoint ofCodePoint firstSurrogate surrogateCount
  by_cases hsurrogate : isSurrogate c = true
  · have hfirst : firstStandIn ≤ c.toNat := of_decide_eq_true hsurrogate
    unfold firstStandIn at hfirst ⊢
    rw [if_pos hsurrogate, if_pos (by omega)]
    have hback : c.toNat - 0x10F800 + 0xD800 - 0xD800 + 0x10F800 = c.toNat := by omega
    rw [hback, Char.ofNat_toNat]
  · rw [if_neg hsurrogate, if_neg (by omega), Char.ofNat_toNat]

theorem unescape_letter {c letter : Char} (hletter : letterEscape? letter = some (codePoint c))
    (hline : (letter == '\n') = false) (rest : List Char) (fuel : Nat) :
    unescape named false (fuel + 1) ('\\' :: letter :: rest) =
      (unescape named false fuel rest).map (codePoint c :: ·) := by
  rw [unescape, hline, if_neg Bool.false_ne_true, hletter]

theorem unescape_digits {mark : Char} {width : Nat} (hwidth : escapeWidth? false mark = some width)
    (hletter : letterEscape? mark = none) (hline : (mark == '\n') = false)
    (hoctal : Token.isOctalDigit mark = false) (c : Char) (hsize : codePoint c < 16 ^ width)
    (rest : List Char) (fuel : Nat) :
    unescape named false (fuel + 1) ('\\' :: mark :: (hexDigits width (codePoint c) ++ rest)) =
      (unescape named false fuel rest).map (codePoint c :: ·) := by
  have htake : (hexDigits width (codePoint c) ++ rest).take width = hexDigits width (codePoint c) :=
    List.take_left' (length_hexDigits width _)
  have hdrop : (hexDigits width (codePoint c) ++ rest).drop width = rest :=
    List.drop_left' (length_hexDigits width _)
  have hrange : ¬ 0x10FFFF < codePoint c := by
    have := codePoint_lt c
    omega
  rw [unescape, hline, if_neg Bool.false_ne_true, hletter]
  simp only [hoctal, hwidth, htake, hdrop, length_hexDigits, hexValue?_hexDigits,
    Nat.mod_eq_of_lt hsize, lt_irrefl, if_false, hrange, Option.bind_eq_bind, Option.bind_some,
    Bool.false_eq_true]

theorem unescape_plain {c : Char} (hc : c ≠ '\\') (rest : List Char) (fuel : Nat) :
    unescape named false (fuel + 1) (c :: rest) = (unescape named false fuel rest).map (codePoint c :: ·) := by
  rw [unescape]
  · rintro rfl
    exact absurd rfl hc
  · rintro _ _ rfl
    exact absurd rfl hc

/-- An escape is what it stands for: a piece of a literal that is undone to one character. -/
theorem unescape_escape {quote : Char} (hquote : quote = '\'' ∨ quote = '"')
    (visible : Char → Bool) (c : Char) (rest : List Char) (fuel : Nat) :
    unescape named false (fuel + 1) (escape quote visible c ++ rest) =
      (unescape named false fuel rest).map (codePoint c :: ·) := by
  unfold escape
  by_cases hself : (c == quote || c == '\\') = true
  · rw [if_pos hself]
    simp only [Bool.or_eq_true, beq_iff_eq] at hself
    obtain ⟨hletter, hline⟩ : letterEscape? c = some (codePoint c) ∧ (c == '\n') = false := by
      rcases hself with rfl | rfl
      · rcases hquote with rfl | rfl <;> decide
      · decide
    exact unescape_letter hletter hline rest fuel
  rw [if_neg hself]
  by_cases hline : (c == '\n') = true
  · rw [if_pos hline]
    obtain rfl := eq_of_beq hline
    exact unescape_letter rfl rfl rest fuel
  rw [if_neg hline]
  by_cases hreturn : (c == '\r') = true
  · rw [if_pos hreturn]
    obtain rfl := eq_of_beq hreturn
    exact unescape_letter rfl rfl rest fuel
  rw [if_neg hreturn]
  by_cases htab : (c == '\t') = true
  · rw [if_pos htab]
    obtain rfl := eq_of_beq htab
    exact unescape_letter rfl rfl rest fuel
  rw [if_neg htab]
  by_cases hvisible : visible c = true
  · rw [if_pos hvisible]
    refine unescape_plain ?_ rest fuel
    rintro rfl
    simp at hself
  · rw [if_neg hvisible, numericEscape]
    have hsize := codePoint_lt c
    by_cases hbyte : codePoint c < 0x100
    · rw [if_pos hbyte]
      exact unescape_digits rfl rfl rfl rfl c hbyte rest fuel
    · rw [if_neg hbyte]
      by_cases hbasic : codePoint c < 0x10000
      · rw [if_pos hbasic]
        exact unescape_digits rfl rfl rfl rfl c hbasic rest fuel
      · rw [if_neg hbasic]
        exact unescape_digits rfl rfl rfl rfl c (by omega) rest fuel

/-- Undoing the escapes of a literal gives the text. -/
theorem unescape_flatMap {quote : Char} (hquote : quote = '\'' ∨ quote = '"')
    (visible : Char → Bool) (text : List Char) {fuel : Nat} (hfuel : text.length < fuel) :
    unescape named false fuel (text.flatMap (escape quote visible)) = some (text.map codePoint) := by
  induction text generalizing fuel with
  | nil =>
    cases fuel with
    | zero => exact absurd hfuel (Nat.not_lt_zero _)
    | succ fuel => rfl
  | cons c text ih =>
    obtain ⟨fuel, rfl⟩ := Nat.exists_eq_add_of_lt hfuel
    rw [List.flatMap_cons, unescape_escape hquote, ih (by rw [List.length_cons]; omega)]
    rfl

theorem chooseQuote_cases (text : List Char) :
    chooseQuote text = '\'' ∨ chooseQuote text = '"' := by
  unfold chooseQuote
  split
  · exact .inr rfl
  · exact .inl rfl

/-- A character that a literal goes on with: no quote that ends it, no escape, no end of the line. -/
def GoesOn (quote c : Char) : Prop :=
  c ≠ quote ∧ c ≠ '\\' ∧ c ≠ '\n'

theorem goesOn_hexDigits {quote : Char} (hquote : quote = '\'' ∨ quote = '"') (width value : Nat) :
    ∀ c ∈ hexDigits width value, GoesOn quote c := by
  have hdigit : ∀ quote, quote = '\'' ∨ quote = '"' → ∀ value < 16, GoesOn quote (hexDigit value) := by
    rintro _ (rfl | rfl) <;> unfold GoesOn <;> decide
  exact forall_hexDigit (hdigit quote hquote) width value

/-- An escape is a backslash, any character and more that goes on; or one character that does. -/
theorem escape_cases {quote : Char} (hquote : quote = '\'' ∨ quote = '"')
    (visible : Char → Bool) (c : Char) :
    (∃ mark more, escape quote visible c = '\\' :: mark :: more ∧ ∀ d ∈ more, GoesOn quote d) ∨
      escape quote visible c = [c] ∧ GoesOn quote c := by
  unfold escape
  by_cases hself : (c == quote || c == '\\') = true
  · rw [if_pos hself]
    exact .inl ⟨c, [], rfl, by simp⟩
  rw [if_neg hself]
  by_cases hline : (c == '\n') = true
  · rw [if_pos hline]
    exact .inl ⟨'n', [], rfl, by simp⟩
  rw [if_neg hline]
  split
  · exact .inl ⟨'r', [], rfl, by simp⟩
  split
  · exact .inl ⟨'t', [], rfl, by simp⟩
  split
  · simp only [Bool.or_eq_true, beq_iff_eq, not_or] at hself hline
    exact .inr ⟨rfl, hself.1, hself.2, hline⟩
  · unfold numericEscape
    split
    · exact .inl ⟨'x', _, rfl, goesOn_hexDigits hquote _ _⟩
    · split
      · exact .inl ⟨'u', _, rfl, goesOn_hexDigits hquote _ _⟩
      · exact .inl ⟨'U', _, rfl, goesOn_hexDigits hquote _ _⟩

theorem isBody_append {quote : Char} {run body : List Char} (hrun : ∀ c ∈ run, GoesOn quote c)
    (hbody : Token.IsBody quote false body) : Token.IsBody quote false (run ++ body) := by
  induction run with
  | nil => exact hbody
  | cons c run ih =>
    rw [List.forall_mem_cons] at hrun
    obtain ⟨⟨hquote, hescape, hline⟩, hrun⟩ := hrun
    exact .char hescape (fun h => absurd h hquote) (fun h => absurd h hline) (ih hrun)

/-- The literal of a text ends at its closing quote and nowhere before. -/
theorem isBody_flatMap {quote : Char} (hquote : quote = '\'' ∨ quote = '"')
    (visible : Char → Bool) (text : List Char) :
    Token.IsBody quote false (text.flatMap (escape quote visible) ++ [quote]) := by
  induction text with
  | nil => exact .closing
  | cons c text ih =>
    rw [List.flatMap_cons, List.append_assoc]
    rcases escape_cases hquote visible c with ⟨mark, more, hescape, hmore⟩ | ⟨hescape, hc⟩
    · rw [hescape]
      exact (isBody_append hmore ih).escape
    · rw [hescape]
      exact isBody_append (List.forall_mem_singleton.mpr hc) ih

theorem exists_numericEscape (code : Nat) :
    ∃ mark width, mark ∈ ['x', 'u', 'U'] ∧
      numericEscape code = '\\' :: mark :: hexDigits width code := by
  unfold numericEscape
  split
  · exact ⟨'x', 2, by decide, rfl⟩
  · split
    · exact ⟨'u', 4, by decide, rfl⟩
    · exact ⟨'U', 8, by decide, rfl⟩

/-- A surrogate has no visible form. -/
theorem isSurrogate_eq_false_of_isPrintable {c : Char} (h : isPrintable c = true) :
    isSurrogate c = false := by
  rw [← Bool.not_eq_true]
  intro hsurrogate
  have hfirst : firstStandIn ≤ c.toNat := of_decide_eq_true hsurrogate
  have habove : ¬ c.toNat < 128 := by
    unfold firstStandIn at hfirst
    omega
  rw [isPrintable, if_neg habove, hsurrogate] at h
  cases h

theorem isPrintable_of_mem_escape {quote c d : Char} (hquote : quote = '\'' ∨ quote = '"')
    (h : d ∈ escape quote isPrintable c) : isPrintable d = true := by
  have hmark : isPrintable '\\' = true := by decide
  unfold escape at h
  by_cases hself : (c == quote || c == '\\') = true
  · rw [if_pos hself] at h
    simp only [List.mem_cons, List.not_mem_nil, or_false, Bool.or_eq_true, beq_iff_eq] at h hself
    rcases h with rfl | rfl
    · exact hmark
    · rcases hself with rfl | rfl
      · rcases hquote with rfl | rfl <;> decide
      · exact hmark
  have hletter {letter : Char} (hletter : isPrintable letter = true) (h : d ∈ ['\\', letter]) :
      isPrintable d = true := by
    rcases List.mem_pair.mp h with rfl | rfl
    · exact hmark
    · exact hletter
  rw [if_neg hself] at h
  split at h
  · exact hletter (by decide) h
  split at h
  · exact hletter (by decide) h
  split at h
  · exact hletter (by decide) h
  by_cases hvisible : isPrintable c = true
  · rw [if_pos hvisible, List.mem_singleton] at h
    rwa [h]
  · rw [if_neg hvisible] at h
    obtain ⟨mark, width, hmarks, hescape⟩ := exists_numericEscape (codePoint c)
    rw [hescape, List.mem_cons, List.mem_cons] at h
    rcases h with rfl | rfl | h
    · exact hmark
    · have hall : ['x', 'u', 'U'].all isPrintable = true := by decide
      exact List.all_eq_true.mp hall d hmarks
    · have hdigits : ∀ d ∈ hexDigits width (codePoint c), isPrintable d = true :=
        forall_hexDigit (by decide) _ _
      exact hdigits d h

/-- The literal of a text between its quotes. -/
def body (text : List Char) : List Char :=
  text.flatMap (escape (chooseQuote text) isPrintable)

theorem encode_eq (text : List Char) :
    encode text = chooseQuote text :: (body text ++ [chooseQuote text]) :=
  rfl

/-- All characters of a literal show as they are. -/
theorem isPrintable_of_mem_encode {text : List Char} {c : Char} (h : c ∈ encode text) :
    isPrintable c = true := by
  have hquote : isPrintable (chooseQuote text) = true := by
    rcases chooseQuote_cases text with h | h <;> rw [h] <;> decide
  simp only [encode_eq, body, List.mem_cons, List.mem_append, List.mem_flatMap,
    List.not_mem_nil, or_false] at h
  rcases h with rfl | ⟨d, -, h⟩ | rfl
  · exact hquote
  · exact isPrintable_of_mem_escape (chooseQuote_cases text) h
  · exact hquote

/-- After the opening quote of a literal comes no second one, unless the text is empty. -/
theorem ne_quote_of_body {text rest : List Char} {c : Char} (h : body text = c :: rest) :
    c ≠ chooseQuote text := by
  have hquote := chooseQuote_cases text
  unfold body at h
  generalize chooseQuote text = quote at h hquote ⊢
  cases text with
  | nil => cases h
  | cons first text =>
    rw [List.flatMap_cons] at h
    rcases escape_cases hquote isPrintable first with
      ⟨mark, more, hescape, -⟩ | ⟨hescape, hc⟩
    · rw [hescape] at h
      cases h
      rcases hquote with rfl | rfl <;> decide
    · rw [hescape] at h
      cases h
      exact hc.1

/-- A literal is not in triple quotes, whatever comes after it but one more quote. -/
theorem take_three_encode {text rest : List Char}
    (hrest : rest.head? ≠ some (chooseQuote text)) :
    ((encode text ++ rest).take 3 ==
      [chooseQuote text, chooseQuote text, chooseQuote text]) = false := by
  rw [beq_eq_false_iff_ne, encode_eq]
  intro htake
  cases hbody : body text with
  | nil =>
    rw [hbody] at htake
    cases rest with
    | nil => simp at htake
    | cons c rest => simp_all
  | cons c body =>
    have hc := ne_quote_of_body hbody
    rw [hbody] at htake
    simp_all

theorem literalParts_encode (text : List Char) :
    literalParts (encode text) =
      { raw := false, isBytes := false, isFormatted := false, body := body text } := by
  have hmark : (encode text).takeWhile (fun c => c != '"' && c != '\'') = [] := by
    rw [encode_eq, List.takeWhile_cons]
    rcases chooseQuote_cases text with h | h <;> rw [h] <;> rfl
  have htriple : ((encode text ++ []).take 3 ==
      [chooseQuote text, chooseQuote text, chooseQuote text]) = false :=
    take_three_encode (by simp)
  rw [List.append_nil] at htriple
  have hhead : (encode text).headD '"' = chooseQuote text := rfl
  unfold literalParts
  simp only [hmark, List.length_nil, List.drop_zero, List.any_nil, hhead, htriple, Bool.false_and,
    Bool.false_eq_true, if_false]
  congr 1
  simp [encode_eq]

theorem length_le_length_body (text : List Char) : text.length ≤ (body text).length := by
  have hquote := chooseQuote_cases text
  unfold body
  generalize chooseQuote text = quote at hquote ⊢
  induction text with
  | nil => exact Nat.le_refl 0
  | cons c text ih =>
    rw [List.flatMap_cons, List.length_append, List.length_cons]
    rcases escape_cases hquote isPrintable c with ⟨mark, more, hescape, -⟩ | ⟨hescape, -⟩
    · rw [hescape, List.length_cons, List.length_cons]
      omega
    · rw [hescape, List.length_singleton]
      omega

/-- The literal of a text stands for that text. -/
theorem textLiteral?_encode (embedded : List Char → Option Expr) (text : String) :
    textLiteral? named embedded [encode text.toList] = some (.literal (.text text false)) := by
  have hundone : unescape named false ((body text.toList).length + 1) (body text.toList) =
      some (text.toList.map codePoint) :=
    unescape_flatMap (chooseQuote_cases _) isPrintable _
      (Nat.lt_succ_of_le (length_le_length_body text.toList))
  have hpieces : literalPieces named embedded (literalParts (encode text.toList)) =
      some [.chars text.toList] := by
    rw [literalParts_encode]
    simp [literalPieces, plainText?, hundone, Function.comp_def, ofCodePoint_codePoint]
  have hmarked : ((encode text.toList).head? == some 'u') = false := by
    rcases chooseQuote_cases text.toList with h | h <;> simp [encode_eq, h]
  rw [literalParts_encode] at hpieces
  simp [textLiteral?, literalParts_encode, hpieces, hmarked]

end TableAudit.Text.Quoted
