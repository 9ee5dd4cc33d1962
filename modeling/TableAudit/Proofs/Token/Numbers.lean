import TableAudit.Proofs.Text.Rows
import TableAudit.Proofs.Token.Within

namespace TableAudit

open Text (continued)

namespace Decimal

/-- Before anything but an underscore with more after it, a digit is one of a run by itself. -/
theorem digitRun_cons {c : Char} {rest : List Char} (h : ∀ d tail, rest = '_' :: d :: tail → False) :
    digitRun (c :: rest) =
      if c.isDigit then (c :: (digitRun rest).1, (digitRun rest).2) else ([], c :: rest) := by
  rw [digitRun]
  exact h

theorem digitRun_of_not_digit {c : Char} (hc : c.isDigit = false) (rest : List Char) :
    digitRun (c :: rest) = ([], c :: rest) := by
  rw [digitRun.eq_def]
  split
  · next h => cases h
  · next h =>
    obtain ⟨rfl, rfl⟩ := List.cons.inj h
    rw [hc]
    rfl
  · next h =>
    obtain ⟨rfl, rfl⟩ := List.cons.inj h
    rw [hc]
    rfl

theorem digitRun_feed (more : List Char) : digitRun ('\n' :: more) = ([], '\n' :: more) :=
  digitRun_of_not_digit rfl more

/-- Nothing more comes after an underscore at the end of a line. -/
theorem continued_ne_underscore {line : List Char} (h : ∀ d tail, line = '_' :: d :: tail → False)
    (hlast : line ≠ ['_']) (more : List Char) (d : Char) (tail : List Char)
    (heq : continued line more = '_' :: d :: tail) : False := by
  rcases line with _ | ⟨a, _ | ⟨b, line⟩⟩
  · cases heq
  · cases heq
    exact hlast rfl
  · cases heq
    exact h _ _ rfl

theorem digitRun_continued (line more : List Char) :
    digitRun (continued line more) = ((digitRun line).1, continued (digitRun line).2 more) := by
  induction line using digitRun.induct with
  | case1 => exact digitRun_feed more
  | case2 => simp_all [digitRun]
  | case3 => simp_all [digitRun]
  | case4 => simp_all [digitRun]
  | case5 c rest hno hdigit digits tail hrest ih =>
    by_cases hlast : rest = ['_']
    · subst hlast
      simp [digitRun, hdigit]
    · rw [Text.continued_cons, digitRun_cons (continued_ne_underscore hno hlast more),
        digitRun_cons hno, ih, if_pos hdigit, if_pos hdigit]
  | case6 c rest hno hdigit =>
    by_cases hlast : rest = ['_']
    · subst hlast
      simp [digitRun, hdigit]
    · rw [Text.continued_cons, digitRun_cons (continued_ne_underscore hno hlast more),
        digitRun_cons hno, if_neg hdigit, if_neg hdigit]
      rfl

theorem takeSign_continued (line more : List Char) :
    takeSign (continued line more) = ((takeSign line).1, continued (takeSign line).2 more) := by
  rcases line with _ | ⟨c, line⟩
  · rfl
  · by_cases hminus : c = '-'
    · subst hminus
      rfl
    · by_cases hplus : c = '+'
      · subst hplus
        rfl
      · simp [takeSign, hminus, hplus]

end Decimal

namespace Token

theorem isPrefixOf_continued {word : List Char} (h : '\n' ∉ word) (line more : List Char) :
    word.isPrefixOf (continued line more) = word.isPrefixOf line := by
  induction word generalizing line with
  | nil => rfl
  | cons c word ih =>
    rw [List.mem_cons, not_or] at h
    cases line with
    | nil =>
      change (c == '\n' && word.isPrefixOf more) = false
      rw [beq_eq_false_iff_ne.mpr (Ne.symm h.1), Bool.false_and]
    | cons d line => rw [Text.continued_cons, List.isPrefixOf, List.isPrefixOf, ih h.2]

theorem endsNumber_continued (line more : List Char) :
    endsNumber (continued line more) = endsNumber line := by
  have hwords : ∀ word ∈ afterNumber, '\n' ∉ word := by decide
  cases line with
  | nil => rfl
  | cons c line =>
    have hany : (afterNumber.any fun word => word.isPrefixOf (continued (c :: line) more)) =
        afterNumber.any fun word => word.isPrefixOf (c :: line) := by
      rw [Bool.eq_iff_iff, List.any_eq_true, List.any_eq_true]
      refine exists_congr fun word => and_congr_right fun hword => ?_
      rw [isPrefixOf_continued (hwords word hword)]
    exact congrArg (!isWordChar c || ·) hany

theorem basedDigits_cons {isDigit : Char → Bool} {c : Char} (hc : c ≠ '_') (rest : List Char) :
    basedDigits isDigit (c :: rest) =
      if isDigit c then (c :: (basedDigits isDigit rest).1, (basedDigits isDigit rest).2)
      else ([], c :: rest) := by
  rw [basedDigits]
  rintro d tail rfl
  exact absurd rfl hc

theorem basedDigits_continued {isDigit : Char → Bool} (hfeed : isDigit '\n' = false)
    (hunderscore : isDigit '_' = false) (line more : List Char) :
    basedDigits isDigit (continued line more) =
      ((basedDigits isDigit line).1, continued (basedDigits isDigit line).2 more) := by
  induction line using basedDigits.induct isDigit with
  | case1 =>
    rw [Text.continued_nil, basedDigits_cons (by decide), hfeed, if_neg Bool.false_ne_true]
    rfl
  | case2 => simp_all [basedDigits]
  | case3 => simp_all [basedDigits]
  | case4 c rest hno hdigit digits tail hrest ih =>
    have hc : c ≠ '_' := by
      rintro rfl
      rw [hunderscore] at hdigit
      cases hdigit
    rw [Text.continued_cons, basedDigits_cons hc, basedDigits_cons hc, ih, if_pos hdigit, if_pos hdigit]
  | case5 c rest hno hdigit =>
    by_cases hc : c = '_'
    · subst hc
      cases rest with
      | nil => simp [basedDigits, hfeed, hunderscore]
      | cons d rest => exact absurd rfl (hno d rest rfl)
    · rw [Text.continued_cons, basedDigits_cons hc, basedDigits_cons hc, if_neg hdigit, if_neg hdigit]
      rfl

/-- What was read and the rest of the line, with what is after the line. -/
def alongside {α : Type} (more : List Char) (found : α × List Char) : α × List Char :=
  (found.1, continued found.2 more)

theorem based_continued (base : Nat) {isDigit : Char → Bool} (hfeed : isDigit '\n' = false)
    (hunderscore : isDigit '_' = false) (line more : List Char) :
    based base isDigit (continued line more) = (based base isDigit line).map (alongside more) := by
  unfold based
  rw [basedDigits_continued hfeed hunderscore]
  rcases basedDigits isDigit line with ⟨_ | ⟨d, digits⟩, rest⟩
  · rfl
  · cases rest with
    | nil => rfl
    | cons c rest =>
      have hends := endsNumber_continued (c :: rest) more
      rw [Text.continued_cons] at hends ⊢
      simp only [hends]
      split <;> rfl

theorem decimalRun?_continued (line more : List Char) :
    decimalRun? (continued line more) = (decimalRun? line).map (alongside more) := by
  unfold decimalRun?
  rw [Decimal.digitRun_continued]
  rcases Decimal.digitRun line with ⟨digits, _ | ⟨c, rest⟩⟩
  · rfl
  · by_cases hc : c = '_'
    · subst hc
      change (if digits.isEmpty then _ else _) = Option.map _ (if digits.isEmpty then _ else _)
      split <;> rfl
    · simp [alongside, hc]

theorem exponentPart?_continued (line more : List Char) :
    exponentPart? (continued line more) = (exponentPart? line).map (alongside more) := by
  cases line with
  | nil => rfl
  | cons e rest =>
    have hends := endsNumber_continued (e :: rest) more
    have hhead (sign : Char) (hsign : sign ≠ '\n') :
        ((continued rest more).head? == some sign) = (rest.head? == some sign) := by
      cases rest with
      | nil => simpa using Ne.symm hsign
      | cons c rest => rfl
    rw [Text.continued_cons] at hends ⊢
    simp only [exponentPart?, hhead '+' (by decide), hhead '-' (by decide), hends,
      Decimal.takeSign_continued, decimalRun?_continued]
    split
    · rcases decimalRun? (Decimal.takeSign rest).2 with _ | ⟨_ | ⟨d, digits⟩, tail⟩
      · rfl
      · simp only [Option.map_some, alongside]
        split <;> rfl
      · rfl
    · rfl

/-- The point of a decimal literal and the digits after it. -/
def pointPart? (text : List Char) : Option (Bool × List Char × List Char) :=
  match text with
  | '.' :: tail => (decimalRun? tail).map fun (places, rest) => (true, places, rest)
  | _ => some (false, [], text)

/-- A decimal literal, when all its digits are known. -/
def closeDecimal (whole : List Char) (point : Bool) (places : List Char) (exponent : Option Int)
    (rest : List Char) : Option (Token × List Char) :=
  let value := Decimal.Fraction.toFloat false
    ⟨Decimal.digitsValue (whole ++ places), exponent.getD 0 - (places.length : Nat)⟩
  let imaginaryMark := rest.head? == some 'j' || rest.head? == some 'J'
  if imaginaryMark then
    if endsNumber rest.tail then some (imaginary value, rest.tail) else none
  else if !endsNumber rest then none
  else if point || exponent.isSome then some (float value, rest)
  else if whole.length > Decimal.digitLimit then none
  else if whole.head? == some '0' && whole.any (· != '0') then none
  else some (int (Decimal.digitsValue whole), rest)

theorem decimal_eq (text : List Char) : decimal text = (decimalRun? text).bind fun whole =>
    (pointPart? whole.2).bind fun places => (exponentPart? places.2.2).bind fun exponent =>
      closeDecimal whole.1 places.1 places.2.1 exponent.1 exponent.2 := by
  unfold decimal
  rcases decimalRun? text with _ | ⟨whole, _ | ⟨c, rest⟩⟩
  · rfl
  · rfl
  · by_cases hc : c = '.'
    · subst hc
      rfl
    · have hpoint : pointPart? (c :: rest) = some (false, [], c :: rest) := by simp [pointPart?, hc]
      simp only [Option.bind_some, hpoint]
      dsimp only [Option.bind_eq_bind, Option.bind_some]
      split
      · next h =>
        exact absurd (List.cons.inj h).1 hc
      · rfl

theorem pointPart?_continued (line more : List Char) : pointPart? (continued line more) =
    (pointPart? line).map fun found => (found.1, found.2.1, continued found.2.2 more) := by
  rcases line with _ | ⟨c, tail⟩
  · rfl
  · by_cases hc : c = '.'
    · subst hc
      simp only [pointPart?, Text.continued_cons, decimalRun?_continued, Option.map_map]
      rfl
    · simp [pointPart?, hc]

theorem closeDecimal_continued (whole : List Char) (point : Bool) (places : List Char)
    (exponent : Option Int) (line more : List Char) :
    closeDecimal whole point places exponent (continued line more) =
      (closeDecimal whole point places exponent line).map (alongside more) := by
  have hends := endsNumber_continued line more
  unfold closeDecimal
  rw [hends]
  simp only [apply_ite (Option.map (alongside more : Token × List Char → _)), Option.map_some,
    Option.map_none]
  cases line with
  | nil => rfl
  | cons c line =>
    have hends' := endsNumber_continued line more
    simp only [Text.continued_cons, hends', List.head?_cons, List.tail_cons]
    rfl

theorem decimal_continued (line more : List Char) :
    decimal (continued line more) = (decimal line).map (alongside more) := by
  rw [decimal_eq, decimal_eq, decimalRun?_continued]
  cases decimalRun? line with
  | none => rfl
  | some whole =>
    simp only [Option.map_some, Option.bind_some, alongside, pointPart?_continued]
    cases pointPart? whole.2 with
    | none => rfl
    | some places =>
      simp only [Option.map_some, Option.bind_some, exponentPart?_continued]
      cases exponentPart? places.2.2 with
      | none => rfl
      | some exponent => exact closeDecimal_continued ..

theorem number_continued (line more : List Char) :
    number (continued line more) = (number line).map (alongside more) := by
  have hdecimal := decimal_continued line more
  rcases line with _ | ⟨c, rest⟩
  · exact hdecimal
  · by_cases hc : c = '0'
    · subst hc
      rcases rest with _ | ⟨mark, rest⟩
      · exact hdecimal
      · rw [Text.continued_cons, Text.continued_cons] at hdecimal ⊢
        rw [number, number, based_continued 16 (by decide) (by decide), based_continued 8 (by decide) (by decide),
          based_continued 2 (by decide) (by decide), hdecimal]
        repeat' split
        all_goals rfl
    · have hnumber (rest : List Char) : number (c :: rest) = decimal (c :: rest) := by
        rw [number]
        exact fun _ _ h => hc (List.cons.inj h).1
      rw [Text.continued_cons] at hdecimal ⊢
      rw [hnumber, hnumber, hdecimal]

theorem digitRun_suffix (text : List Char) : (Decimal.digitRun text).2 <:+ text := by
  fun_induction Decimal.digitRun text with
  | case1 => exact List.suffix_refl _
  | case2 => exact List.suffix_refl _
  | case3 => exact List.suffix_cons _ _
  | case4 c d rest _ _ digits tail hrun ih =>
    rw [hrun] at ih
    exact ih.trans ((List.suffix_cons _ _).trans (List.suffix_cons _ _))
  | case5 c rest _ _ digits tail hrun ih =>
    rw [hrun] at ih
    exact ih.trans (List.suffix_cons _ _)
  | case6 => exact List.suffix_refl _

theorem digitRun_suffix_tail {c : Char} (hc : c.isDigit = true) (rest : List Char) :
    (Decimal.digitRun (c :: rest)).2 <:+ rest := by
  rw [Decimal.digitRun.eq_def]
  split
  · next h =>
    cases h
  · next d tail h =>
    obtain ⟨rfl, rfl⟩ := List.cons.inj h
    rw [hc, if_neg (by decide)]
    split
    · exact List.suffix_refl _
    · exact (digitRun_suffix _).trans (List.suffix_cons _ _)
  · next h =>
    obtain ⟨rfl, rfl⟩ := List.cons.inj h
    rw [if_pos hc]
    exact digitRun_suffix _

theorem basedDigits_suffix (isDigit : Char → Bool) (text : List Char) :
    (basedDigits isDigit text).2 <:+ text := by
  fun_induction basedDigits isDigit text with
  | case1 => exact List.suffix_refl _
  | case2 d rest _ digits tail hrun ih =>
    rw [hrun] at ih
    exact ih.trans (List.suffix_cons _ _)
  | case3 => exact List.suffix_refl _
  | case4 c rest _ _ digits tail hrun ih =>
    rw [hrun] at ih
    exact ih.trans (List.suffix_cons _ _)
  | case5 => exact List.suffix_refl _

theorem based_suffix {base : Nat} {isDigit : Char → Bool} {text left : List Char} {token : Token}
    (h : based base isDigit text = some (token, left)) : left <:+ text := by
  have hsuffix := basedDigits_suffix isDigit text
  unfold based at h
  split at h
  · cases h
  · next digits rest _ hdigits =>
    rw [hdigits] at hsuffix
    rw [Option.ite_none_right_eq_some] at h
    cases h.2
    exact hsuffix

theorem decimalRun?_eq_some {text digits left : List Char}
    (h : decimalRun? text = some (digits, left)) : Decimal.digitRun text = (digits, left) := by
  unfold decimalRun? at h
  split at h
  · next found rest hrun =>
    by_cases hempty : found.isEmpty = true
    · rw [if_pos hempty] at h
      cases h
      rw [hrun, List.isEmpty_iff.mp hempty]
    · rw [if_neg hempty] at h
      cases h
  · exact Option.some.inj h

theorem decimalRun?_suffix {text digits left : List Char} (h : decimalRun? text = some (digits, left)) :
    left <:+ text := by
  have hsuffix := digitRun_suffix text
  rwa [decimalRun?_eq_some h] at hsuffix

theorem exponentPart?_suffix {text left : List Char} {exponent : Option Int}
    (h : exponentPart? text = some (exponent, left)) : left <:+ text := by
  unfold exponentPart? at h
  split at h
  · next e rest =>
    split at h
    · dsimp only at h
      have hsign : (Decimal.takeSign rest).2 <:+ rest := by
        fun_cases Decimal.takeSign rest
        · exact List.suffix_cons _ _
        · exact List.suffix_cons _ _
        · exact List.suffix_refl _
      split at h
      · cases h
      · split at h
        · cases h
          exact List.suffix_refl _
        · cases h
      · next hrun =>
        cases h
        exact (decimalRun?_suffix hrun).trans (hsign.trans (List.suffix_cons _ _))
    · cases h
      exact List.suffix_refl _
  · cases h
    exact List.suffix_refl _

theorem pointPart?_suffix {text places left : List Char} {point : Bool}
    (h : pointPart? text = some (point, places, left)) : left <:+ text := by
  unfold pointPart? at h
  split at h
  · rw [Option.map_eq_some_iff] at h
    obtain ⟨found, hrun, heq⟩ := h
    cases heq
    exact (decimalRun?_suffix hrun).trans (List.suffix_cons _ _)
  · cases h
    exact List.suffix_refl _

theorem closeDecimal_suffix {whole places text left : List Char} {point : Bool} {exponent : Option Int}
    {token : Token} (h : closeDecimal whole point places exponent text = some (token, left)) :
    left <:+ text := by
  unfold closeDecimal at h
  dsimp only at h
  repeat' split at h
  all_goals cases h
  all_goals first | exact List.suffix_refl _ | exact List.tail_suffix _

theorem decimal_suffix {c : Char} {rest left : List Char} {token : Token}
    (hc : c.isDigit = true ∨ c = '.') (h : decimal (c :: rest) = some (token, left)) :
    left <:+ rest := by
  rw [decimal_eq] at h
  simp only [Option.bind_eq_some_iff] at h
  obtain ⟨⟨whole, middle⟩, hwhole, ⟨point, places, later⟩, hpoint, ⟨exponent, last⟩, hexponent, hclose⟩ := h
  have hlater : later <:+ rest := by
    rcases hc with hc | rfl
    · have hmiddle := digitRun_suffix_tail hc rest
      rw [decimalRun?_eq_some hwhole] at hmiddle
      exact (pointPart?_suffix hpoint).trans hmiddle
    · have hrun : Decimal.digitRun ('.' :: rest) = ([], '.' :: rest) :=
        Decimal.digitRun_of_not_digit rfl rest
      rw [decimalRun?_eq_some hwhole] at hrun
      cases hrun
      rw [pointPart?, Option.map_eq_some_iff] at hpoint
      obtain ⟨found, hplaces, heq⟩ := hpoint
      cases heq
      exact decimalRun?_suffix hplaces
  exact (closeDecimal_suffix hclose).trans ((exponentPart?_suffix hexponent).trans hlater)

/-- A number that begins with a digit, or with a point and a digit, takes at least that. -/
theorem number_suffix {c : Char} {rest left : List Char} {token : Token}
    (hc : c.isDigit = true ∨ c = '.') (h : number (c :: rest) = some (token, left)) :
    left <:+ rest := by
  unfold number at h
  split at h
  · next mark tail heq =>
    cases heq
    have hbased {base : Nat} {isDigit : Char → Bool} (h : based base isDigit tail = some (token, left)) :
        left <:+ mark :: tail :=
      (based_suffix h).trans (List.suffix_cons _ _)
    split at h
    · exact hbased h
    · split at h
      · exact hbased h
      · split at h
        · exact hbased h
        · exact decimal_suffix hc h
  · exact decimal_suffix hc h

theorem isLayout_of_number {text left : List Char} {token : Token}
    (h : number text = some (token, left)) : token.isLayout = false := by
  have hbased {base : Nat} {isDigit : Char → Bool} {rest : List Char}
      (h : based base isDigit rest = some (token, left)) : token.isLayout = false := by
    unfold based at h
    split at h
    · cases h
    · rw [Option.ite_none_right_eq_some] at h
      cases h.2
      rfl
  have hdecimal (h : decimal text = some (token, left)) : token.isLayout = false := by
    rw [decimal_eq] at h
    simp only [Option.bind_eq_some_iff] at h
    obtain ⟨whole, -, places, -, exponent, -, hclose⟩ := h
    unfold closeDecimal at hclose
    dsimp only at hclose
    repeat' split at hclose
    all_goals cases hclose
    all_goals rfl
  unfold number at h
  repeat' split at h
  all_goals first | exact hbased h | exact hdecimal h

end Token

end TableAudit
