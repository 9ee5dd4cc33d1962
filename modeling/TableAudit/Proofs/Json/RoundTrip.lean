import Mathlib.Data.List.TakeWhile
import TableAudit.Proofs.Json.Reader
import TableAudit.Proofs.Text.Quoted

namespace TableAudit.Json

/-- The letter after a backslash stands for the character that was escaped. -/
theorem letterMeaning?_of_shortEscape? {c letter : Char} (h : shortEscape? c = some letter) :
    letter ≠ 'u' ∧ letterMeaning? letter = some c := by
  unfold shortEscape? at h
  split_ifs at h with hself hn hr ht hb hf <;> cases h
  · rw [Bool.or_eq_true, beq_iff_eq, beq_iff_eq] at hself
    rcases hself with rfl | rfl <;> decide
  · exact ⟨by decide, congrArg some (beq_iff_eq.mp hn).symm⟩
  · exact ⟨by decide, congrArg some (beq_iff_eq.mp hr).symm⟩
  · exact ⟨by decide, congrArg some (beq_iff_eq.mp ht).symm⟩
  · exact ⟨by decide, congrArg some (beq_iff_eq.mp hb).symm⟩
  · exact ⟨by decide, congrArg some (beq_iff_eq.mp hf).symm⟩

theorem ne_of_shortEscape? {c : Char} (h : shortEscape? c = none) : c ≠ '"' ∧ c ≠ '\\' := by
  constructor <;> rintro rfl <;> cases h

theorem readUnit?_hexDigits (value : Nat) (rest : List Char) :
    readUnit? (Text.Quoted.hexDigits 4 value ++ rest) = some (value % 16 ^ 4, rest) := by
  have hlength := Text.Quoted.length_hexDigits 4 value
  rw [readUnit?, if_neg (by rw [List.length_append, hlength]; omega),
    List.take_left' hlength, List.drop_left' hlength, Text.Quoted.hexValue?_hexDigits]
  rfl

/-- An escaped character reads back. -/
theorem readChar?_escape (c : Char) (rest : List Char) :
    readChar? (escape c ++ rest) = some (c, rest) := by
  unfold escape
  cases hshort : shortEscape? c with
  | some letter =>
    obtain ⟨hletter, hmeaning⟩ := letterMeaning?_of_shortEscape? hshort
    have hdigits : (letter == 'u') = false := beq_false_of_ne hletter
    simp [readChar?, hdigits, hmeaning]
  | none =>
    dsimp only
    by_cases hcontrol : c.toNat < 32
    · have hunit : readUnit? (Text.Quoted.hexDigits 4 c.toNat ++ rest) = some (c.toNat, rest) := by
        rw [readUnit?_hexDigits, Nat.mod_eq_of_lt (by omega)]
      have hsmall : c.toNat < 0xd800 := by omega
      rw [if_pos hcontrol]
      simp [readChar?, readUnits?, hunit, hsmall]
    · have hplain : (c == '\\') = false := beq_false_of_ne (ne_of_shortEscape? hshort).2
      rw [if_neg hcontrol]
      simp [readChar?, hplain, hcontrol]

/-- No character is escaped by a text that begins with a quote. -/
theorem head?_escape_ne (c : Char) (rest : List Char) : (escape c ++ rest).head? ≠ some '"' := by
  unfold escape
  cases hshort : shortEscape? c with
  | some letter => exact fun h => absurd (Option.some.inj h) (by decide)
  | none =>
    dsimp only
    split
    · exact fun h => absurd (Option.some.inj h) (by decide)
    · exact fun h => (ne_of_shortEscape? hshort).1 (Option.some.inj h)

/-- Escaped characters up to the closing quote read back. -/
theorem readText?_flatMap (body rest : List Char) {fuel : Nat} (hfuel : body.length < fuel) :
    readText? fuel (body.flatMap escape ++ '"' :: rest) = some (body, rest) := by
  induction body generalizing fuel with
  | nil =>
    obtain ⟨fuel, rfl⟩ := Nat.exists_eq_add_one_of_ne_zero (Nat.ne_zero_of_lt hfuel)
    rfl
  | cons c body ih =>
    obtain ⟨fuel, rfl⟩ := Nat.exists_eq_add_one_of_ne_zero (Nat.ne_zero_of_lt hfuel)
    rw [List.length_cons, Nat.add_lt_add_iff_right] at hfuel
    rw [List.flatMap_cons, List.append_assoc, readText?, if_neg (head?_escape_ne c _),
      readChar?_escape]
    simp [ih hfuel]

theorem length_le_length_escape (body : List Char) : body.length ≤ (body.flatMap escape).length := by
  induction body with
  | nil => exact Nat.le_refl 0
  | cons c body ih =>
    have hpos : 0 < (escape c).length := by
      unfold escape
      split
      · exact Nat.zero_lt_succ _
      · split <;> exact Nat.zero_lt_succ _
    rw [List.flatMap_cons, List.length_append, List.length_cons]
    omega

/-- A text between quotes reads back, whatever is after it. -/
theorem readQuoted?_quote (name : String) (rest : List Char) :
    readQuoted? (quote name ++ rest) = some (name, rest) := by
  have hinput : quote name ++ rest = '"' :: (name.toList.flatMap escape ++ '"' :: rest) := by
    simp [quote]
  have hfuel : name.toList.length < (name.toList.flatMap escape ++ '"' :: rest).length + 1 := by
    have := length_le_length_escape name.toList
    rw [List.length_append]
    omega
  rw [hinput]
  change Option.map _ (readText? _ _) = _
  rw [readText?_flatMap _ _ hfuel, Option.map_some, String.ofList_toList]

theorem isNumberChar_of_isDigit {c : Char} (h : c.isDigit = true) : isNumberChar c = true := by
  simp [isNumberChar, h]

theorem isNumberChar_of_mem_isDigits {input : List Char} (h : isDigits input = true) :
    ∀ c ∈ input, isNumberChar c = true := by
  rw [isDigits, Bool.and_eq_true, List.all_eq_true] at h
  exact fun c hc => isNumberChar_of_isDigit (h.2 c hc)

theorem isNumberChar_of_mem_isExponent {input : List Char} (h : isExponent input = true) :
    ∀ c ∈ input, isNumberChar c = true := by
  unfold isExponent at h
  split at h
  · simp
  · next mark sign digits =>
    rw [Bool.and_eq_true, Bool.or_eq_true, beq_iff_eq, beq_iff_eq] at h
    obtain ⟨hmark, hdigits⟩ := h
    have hmark : isNumberChar mark = true := by
      rcases hmark with rfl | rfl <;> decide
    refine List.forall_mem_cons.mpr ⟨hmark, ?_⟩
    by_cases hsign : (sign == '-' || sign == '+') = true
    · rw [if_pos hsign] at hdigits
      rw [Bool.or_eq_true, beq_iff_eq, beq_iff_eq] at hsign
      have hsign : isNumberChar sign = true := by
        rcases hsign with rfl | rfl <;> decide
      exact List.forall_mem_cons.mpr ⟨hsign, isNumberChar_of_mem_isDigits hdigits⟩
    · rw [if_neg hsign] at hdigits
      exact isNumberChar_of_mem_isDigits hdigits
  · cases h

theorem isNumberChar_of_mem_split {input : List Char}
    (hrest : ∀ c ∈ input.dropWhile Char.isDigit, isNumberChar c = true) :
    ∀ c ∈ input, isNumberChar c = true := by
  intro c hc
  rw [← List.takeWhile_append_dropWhile (p := Char.isDigit) (l := input), List.mem_append] at hc
  rcases hc with hc | hc
  · exact isNumberChar_of_isDigit (List.mem_takeWhile_imp hc)
  · exact hrest c hc

theorem isNumberChar_of_mem_isFraction {input : List Char} (h : isFraction input = true) :
    ∀ c ∈ input, isNumberChar c = true := by
  unfold isFraction at h
  split at h
  · rw [Bool.and_eq_true] at h
    refine List.forall_mem_cons.mpr ⟨by decide, ?_⟩
    exact isNumberChar_of_mem_split (isNumberChar_of_mem_isExponent h.2)
  · exact isNumberChar_of_mem_isExponent h

/-- Numbers begin with a minus or a digit, and no character ends them. -/
theorem isNumeral_cases {input : List Char} (h : isNumeral input = true) :
    (∀ c ∈ input, isNumberChar c = true) ∧
      ∃ c rest, input = c :: rest ∧ (c = '-' ∨ c.isDigit = true) := by
  rw [isNumeral, Bool.and_eq_true, Bool.and_eq_true] at h
  obtain ⟨⟨hwhole, -⟩, hfraction⟩ := h
  cases input with
  | nil => cases hwhole
  | cons c rest =>
    by_cases hc : c = '-'
    · rw [hc] at hfraction ⊢
      refine ⟨List.forall_mem_cons.mpr ⟨by decide, ?_⟩, '-', rest, rfl, .inl rfl⟩
      exact isNumberChar_of_mem_split (isNumberChar_of_mem_isFraction hfraction)
    · have hunsigned : ¬ (c :: rest).head? = some '-' := fun h => hc (Option.some.inj h)
      rw [if_neg hunsigned] at hwhole hfraction
      refine ⟨isNumberChar_of_mem_split (isNumberChar_of_mem_isFraction hfraction), c, rest, rfl,
        .inr ?_⟩
      by_contra hdigit
      rw [List.takeWhile_cons_of_neg hdigit] at hwhole
      cases hwhole

/-- What is after a number does not go on with it. -/
def EndsNumber (rest : List Char) : Prop :=
  ∀ c ∈ rest.head?, isNumberChar c = false

theorem readNumber?_append {numeral : String} (h : isNumeral numeral.toList = true)
    {rest : List Char} (hrest : EndsNumber rest) :
    readNumber? (numeral.toList ++ rest) = some (number numeral, rest) := by
  have hall := (isNumeral_cases h).1
  have htake : rest.takeWhile isNumberChar = [] ∧ rest.dropWhile isNumberChar = rest := by
    cases rest with
    | nil => exact ⟨rfl, rfl⟩
    | cons c rest =>
      have hc := hrest c rfl
      exact ⟨List.takeWhile_cons_of_neg (by simp [hc]), List.dropWhile_cons_of_neg (by simp [hc])⟩
  rw [readNumber?, List.takeWhile_append_of_pos hall, List.dropWhile_append_of_pos hall, htake.1,
    htake.2, List.append_nil, if_pos h, String.ofList_toList]

mutual

/-- Every number of the document is one. -/
def hasNumerals : Json → Bool
  | number numeral => isNumeral numeral.toList
  | array items => haveNumerals items
  | object members => membersHaveNumerals members
  | _ => true

def haveNumerals : List Json → Bool
  | [] => true
  | item :: rest => item.hasNumerals && haveNumerals rest

def membersHaveNumerals : List (String × Json) → Bool
  | [] => true
  | (_, value) :: rest => value.hasNumerals && membersHaveNumerals rest

end

theorem membersHaveNumerals_iff (members : List (String × Json)) :
    membersHaveNumerals members = true ↔ ∀ member ∈ members, member.2.hasNumerals = true := by
  induction members with
  | nil => simp [membersHaveNumerals]
  | cons member rest ih => rw [membersHaveNumerals, Bool.and_eq_true, ih, List.forall_mem_cons]

theorem separated_cons_cons (item next : List Char) (rest : List (List Char)) :
    separated (item :: next :: rest) = item ++ ',' :: ' ' :: separated (next :: rest) :=
  rfl

/-- No document begins with a blank, nor with the end of an array. -/
theorem exists_write_eq_cons {document : Json} (h : document.hasNumerals = true) :
    ∃ c rest, document.write = c :: rest ∧ isBlank c = false ∧ c ≠ ']' := by
  cases document with
  | null => exact ⟨_, _, rfl, by decide, by decide⟩
  | truth value => cases value <;> exact ⟨_, _, rfl, by decide, by decide⟩
  | number numeral =>
    rw [hasNumerals] at h
    obtain ⟨-, c, rest, hinput, hc⟩ := isNumeral_cases h
    refine ⟨c, rest, by rw [write, hinput], ?_⟩
    rcases hc with rfl | hdigit
    · decide
    · constructor
      · rw [isBlank]
        simp only [Bool.or_eq_false_iff, beq_eq_false_iff_ne]
        refine ⟨⟨⟨?_, ?_⟩, ?_⟩, ?_⟩ <;> rintro rfl <;> cases hdigit
      · rintro rfl
        cases hdigit
  | text value => exact ⟨_, _, rfl, by decide, by decide⟩
  | array items => exact ⟨_, _, rfl, by decide, by decide⟩
  | object members => exact ⟨_, _, rfl, by decide, by decide⟩

theorem skipBlanks_cons {c : Char} (hc : isBlank c = false) (rest : List Char) :
    skipBlanks (c :: rest) = c :: rest :=
  List.dropWhile_cons_of_neg (by simp [hc])

theorem readValue?_blank (fuel : Nat) (input : List Char) :
    readValue? fuel (' ' :: input) = readValue? fuel input := by
  cases fuel <;> rfl

theorem readItems?_blank (fuel : Nat) (input : List Char) :
    readItems? fuel (' ' :: input) = readItems? fuel input := by
  cases fuel with
  | zero => rfl
  | succ fuel => rw [readItems?, readItems?, readValue?_blank]

theorem readMembers?_blank (fuel : Nat) (input : List Char) :
    readMembers? fuel (' ' :: input) = readMembers? fuel input := by
  cases fuel <;> rfl

theorem endsNumber_cons {c : Char} (hc : isNumberChar c = false) (rest : List Char) :
    EndsNumber (c :: rest) := by
  rintro _ ⟨⟩
  exact hc

theorem readValue?_number {numeral : String} (h : isNumeral numeral.toList = true)
    {rest : List Char} (hrest : EndsNumber rest) (fuel : Nat) :
    readValue? (fuel + 1) (numeral.toList ++ rest) = some (number numeral, rest) := by
  have hread := readNumber?_append h hrest
  obtain ⟨-, first, others, hfirst, hdigit⟩ := isNumeral_cases h
  have hnumerals : (number numeral).hasNumerals = true := by rwa [hasNumerals]
  obtain ⟨c, more, hinput, hblank, -⟩ := exists_write_eq_cons hnumerals
  rw [write, hfirst, List.cons.injEq] at hinput
  obtain ⟨rfl, rfl⟩ := hinput
  rw [hfirst, List.cons_append] at hread ⊢
  have hother : ∀ d ∈ ['n', 't', 'f', '"', '[', '{'], first ≠ d := by
    rintro d hd rfl
    have hall : (['n', 't', 'f', '"', '[', '{'].all fun d => !(d == '-' || d.isDigit)) = true := rfl
    have hnot := List.all_eq_true.mp hall _ hd
    rcases hdigit with rfl | hdigit
    · cases hnot
    · rw [hdigit, Bool.or_true] at hnot
      cases hnot
  rw [readValue?, skipBlanks_cons hblank]
  split
  case h_7 => exact hread
  all_goals next hequal => exact absurd (List.cons.inj hequal).1 (hother _ (by decide))

theorem readValue?_quote (value : String) (rest : List Char) (fuel : Nat) :
    readValue? (fuel + 1) (quote value ++ rest) = some (text value, rest) := by
  change (readQuoted? (quote value ++ rest)).map _ = _
  rw [readQuoted?_quote]
  rfl

/-- After the opening bracket of an array come its items, unless it is empty. -/
theorem readValue?_bracket {input more : List Char} {c : Char} (hinput : input = c :: more)
    (hblank : isBlank c = false) (hc : c ≠ ']') (fuel : Nat) :
    readValue? (fuel + 1) ('[' :: input) =
      (readItems? fuel input).map fun read => (array read.1, read.2) := by
  have hhead : (skipBlanks input).head? ≠ some ']' := by
    rw [hinput, skipBlanks_cons hblank]
    exact mt Option.some.inj hc
  exact if_neg hhead

/-- After the opening brace of an object come its members, unless it is empty. -/
theorem readValue?_brace {input more : List Char} (hinput : input = '"' :: more) (fuel : Nat) :
    readValue? (fuel + 1) ('{' :: input) =
      (readMembers? fuel input).map fun read => (object read.1, read.2) := by
  subst hinput
  rfl

theorem readItems?_last {fuel : Nat} {input rest : List Char} {item : Json}
    (h : readValue? fuel input = some (item, ']' :: rest)) :
    readItems? (fuel + 1) input = some ([item], rest) := by
  rw [readItems?, h]
  rfl

theorem readItems?_comma {fuel : Nat} {input more rest : List Char} {item : Json}
    {items : List Json} (h : readValue? fuel input = some (item, ',' :: more))
    (hmore : readItems? fuel more = some (items, rest)) :
    readItems? (fuel + 1) input = some (item :: items, rest) := by
  rw [readItems?, h]
  change (readItems? fuel more).bind _ = _
  rw [hmore]
  rfl

theorem readMembers?_last {fuel : Nat} {input more rest : List Char} {name : String} {value : Json}
    (hname : readQuoted? input = some (name, ':' :: more))
    (h : readValue? fuel more = some (value, '}' :: rest)) :
    readMembers? (fuel + 1) input = some ([(name, value)], rest) := by
  rw [readMembers?, hname]
  change (readValue? fuel more).bind _ = _
  rw [h]
  rfl

theorem readMembers?_comma {fuel : Nat} {input more others rest : List Char} {name : String}
    {value : Json} {members : List (String × Json)}
    (hname : readQuoted? input = some (name, ':' :: more))
    (h : readValue? fuel more = some (value, ',' :: others))
    (hothers : readMembers? fuel others = some (members, rest)) :
    readMembers? (fuel + 1) input = some ((name, value) :: members, rest) := by
  rw [readMembers?, hname]
  change (readValue? fuel more).bind _ = _
  rw [h]
  change (readMembers? fuel others).bind _ = _
  rw [hothers]
  rfl

/-- The items of an array begin as the first of them does. -/
theorem exists_separated_eq_cons {item more : List Char} {c : Char} (h : item = c :: more)
    (items : List (List Char)) : ∃ rest, separated (item :: items) = c :: rest := by
  subst h
  cases items <;> exact ⟨_, rfl⟩

mutual

/-- What is written for a document reads back, whatever is after it that does not go on with a
    number. -/
theorem readValue?_write : (document : Json) → (h : document.hasNumerals = true) →
    {rest : List Char} → (hrest : EndsNumber rest) → {fuel : Nat} →
    (hfuel : document.write.length < fuel) →
    readValue? fuel (document.write ++ rest) = some (document, rest)
  | _, _, _, _, 0, hfuel => absurd hfuel (Nat.not_lt_zero _)
  | null, _, _, _, _ + 1, _ => rfl
  | truth true, _, _, _, _ + 1, _ => rfl
  | truth false, _, _, _, _ + 1, _ => rfl
  | number numeral, h, rest, hrest, fuel + 1, _ => by
    rw [hasNumerals] at h
    exact readValue?_number h hrest fuel
  | text value, _, rest, _, fuel + 1, _ => readValue?_quote value rest fuel
  | array [], _, _, _, _ + 1, _ => rfl
  | array (item :: items), h, rest, _, fuel + 1, hfuel => by
    rw [hasNumerals] at h
    have hitem : item.hasNumerals = true := by
      rw [haveNumerals, Bool.and_eq_true] at h
      exact h.1
    obtain ⟨c, more, hfirst, hblank, hc⟩ := exists_write_eq_cons hitem
    obtain ⟨others, hothers⟩ : ∃ others, separated (writeItems (item :: items)) = c :: others :=
      exists_separated_eq_cons hfirst (writeItems items)
    rw [write, List.cons_append, List.length_cons, List.length_append, List.length_singleton] at hfuel
    have hfuel' : (separated (writeItems (item :: items))).length + 1 < fuel := by omega
    have hread := readItems?_write (item :: items) (List.cons_ne_nil _ _) h rest hfuel'
    have hwritten : (array (item :: items)).write ++ rest =
        '[' :: (separated (writeItems (item :: items)) ++ ']' :: rest) := by
      simp [write]
    rw [hwritten, readValue?_bracket (congrArg (· ++ ']' :: rest) hothers) hblank hc fuel, hread]
    rfl
  | object [], _, _, _, _ + 1, _ => rfl
  | object ((name, value) :: members), h, rest, _, fuel + 1, hfuel => by
    rw [hasNumerals] at h
    obtain ⟨others, hothers⟩ : ∃ others,
        separated (writeMembers ((name, value) :: members)) = '"' :: others :=
      exists_separated_eq_cons rfl (writeMembers members)
    rw [write, List.cons_append, List.length_cons, List.length_append, List.length_singleton] at hfuel
    have hfuel' : (separated (writeMembers ((name, value) :: members))).length + 1 < fuel := by omega
    have hread := readMembers?_write ((name, value) :: members) (List.cons_ne_nil _ _) h rest hfuel'
    have hwritten : (object ((name, value) :: members)).write ++ rest =
        '{' :: (separated (writeMembers ((name, value) :: members)) ++ '}' :: rest) := by
      simp [write]
    rw [hwritten, readValue?_brace (congrArg (· ++ '}' :: rest) hothers) fuel, hread]
    rfl

theorem readItems?_write : (items : List Json) → (hne : items ≠ []) →
    (h : haveNumerals items = true) → (rest : List Char) → {fuel : Nat} →
    (hfuel : (separated (writeItems items)).length + 1 < fuel) →
    readItems? fuel (separated (writeItems items) ++ ']' :: rest) = some (items, rest)
  | _, _, _, _, 0, hfuel => absurd hfuel (Nat.not_lt_zero _)
  | [], hne, _, _, _, _ => absurd rfl hne
  | [item], _, h, rest, fuel + 1, hfuel => by
    rw [haveNumerals, Bool.and_eq_true] at h
    exact readItems?_last
      (readValue?_write item h.1 (endsNumber_cons (by decide) rest) (Nat.lt_of_add_lt_add_right hfuel))
  | item :: next :: others, _, h, rest, fuel + 1, hfuel => by
    rw [haveNumerals, Bool.and_eq_true] at h
    rw [writeItems, writeItems, separated_cons_cons, ← writeItems] at hfuel ⊢
    rw [List.length_append, List.length_cons, List.length_cons] at hfuel
    have hfuel' : (separated (writeItems (next :: others))).length + 1 < fuel := by omega
    have hread := readItems?_write (next :: others) (List.cons_ne_nil _ _) h.2 rest hfuel'
    rw [List.append_assoc]
    refine readItems?_comma (readValue?_write item h.1 (endsNumber_cons (by decide) _) (by omega)) ?_
    exact (readItems?_blank _ _).trans hread

theorem readMembers?_write : (members : List (String × Json)) → (hne : members ≠ []) →
    (h : membersHaveNumerals members = true) → (rest : List Char) → {fuel : Nat} →
    (hfuel : (separated (writeMembers members)).length + 1 < fuel) →
    readMembers? fuel (separated (writeMembers members) ++ '}' :: rest) = some (members, rest)
  | _, _, _, _, 0, hfuel => absurd hfuel (Nat.not_lt_zero _)
  | [], hne, _, _, _, _ => absurd rfl hne
  | [(name, value)], _, h, rest, fuel + 1, hfuel => by
    rw [membersHaveNumerals, Bool.and_eq_true] at h
    rw [writeMembers, writeMembers, separated, List.length_append, List.length_cons,
      List.length_cons] at hfuel
    rw [writeMembers, writeMembers, separated, List.append_assoc]
    refine readMembers?_last (readQuoted?_quote name _) ?_
    refine (readValue?_blank _ _).trans ?_
    exact readValue?_write value h.1 (endsNumber_cons (by decide) rest) (by omega)
  | (name, value) :: next :: others, _, h, rest, fuel + 1, hfuel => by
    rw [membersHaveNumerals, Bool.and_eq_true] at h
    obtain ⟨second, third, hnext⟩ : ∃ second third, writeMembers (next :: others) = second :: third :=
      ⟨_, _, rfl⟩
    rw [writeMembers, hnext, separated_cons_cons, ← hnext] at hfuel ⊢
    rw [List.length_append, List.length_append, List.length_cons, List.length_cons, List.length_cons,
      List.length_cons] at hfuel
    have hfuel' : (separated (writeMembers (next :: others))).length + 1 < fuel := by omega
    have hread := readMembers?_write (next :: others) (List.cons_ne_nil _ _) h.2 rest hfuel'
    rw [List.append_assoc, List.append_assoc]
    refine readMembers?_comma (readQuoted?_quote name _) ?_ ((readMembers?_blank _ _).trans hread)
    refine (readValue?_blank _ _).trans ?_
    exact readValue?_write value h.1 (endsNumber_cons (by decide) _) (by omega)

end

/-- What is written for a document whose numbers are numbers is a text of this document alone. -/
theorem read?_render {document : Json} (h : document.hasNumerals = true) :
    read? document.render = some document := by
  have hends : EndsNumber [] := by rintro _ ⟨⟩
  have hread := readValue?_write document h hends (Nat.lt_add_one _)
  rw [List.append_nil] at hread
  rw [read?, render, String.toList_ofList, hread]
  rfl

/-- Not one of the controls below the blank, line ends among them. -/
def IsShown (c : Char) : Prop :=
  32 ≤ c.toNat

instance (c : Char) : Decidable (IsShown c) :=
  inferInstanceAs (Decidable (32 ≤ c.toNat))

theorem isShown_of_all {text : List Char} (h : (text.all fun c => decide (IsShown c)) = true) :
    ∀ c ∈ text, IsShown c :=
  fun c hc => of_decide_eq_true (List.all_eq_true.mp h c hc)

theorem isShown_escape (c : Char) : ∀ d ∈ escape c, IsShown d := by
  unfold escape
  cases hshort : shortEscape? c with
  | some letter =>
    have hletter : IsShown letter := by
      unfold shortEscape? at hshort
      split_ifs at hshort with hself <;> cases hshort <;> try decide
      rw [Bool.or_eq_true, beq_iff_eq, beq_iff_eq] at hself
      rcases hself with rfl | rfl <;> decide
    exact List.forall_mem_cons.mpr ⟨by decide, List.forall_mem_singleton.mpr hletter⟩
  | none =>
    dsimp only
    by_cases hcontrol : c.toNat < 32
    · rw [if_pos hcontrol]
      intro d hd
      rcases List.mem_cons.mp hd with rfl | hd
      · decide
      · rcases List.mem_cons.mp hd with rfl | hd
        · decide
        · exact Text.Quoted.forall_hexDigit (P := IsShown) (by decide) 4 c.toNat d hd
    · rw [if_neg hcontrol]
      intro d hd
      rw [List.mem_singleton.mp hd]
      exact Nat.not_lt.mp hcontrol

theorem isShown_quote (value : String) : ∀ c ∈ quote value, IsShown c := by
  refine List.forall_mem_cons.mpr ⟨by decide, List.forall_mem_append.mpr
    ⟨fun c hc => ?_, List.forall_mem_singleton.mpr (by decide)⟩⟩
  obtain ⟨d, -, hd⟩ := List.mem_flatMap.mp hc
  exact isShown_escape d c hd

theorem isShown_of_isNumberChar {c : Char} (h : isNumberChar c = true) : IsShown c := by
  have hsmall : ∀ code < 32, isNumberChar (Char.ofNat code) = false := by decide
  by_contra hcontrol
  rw [← Char.ofNat_toNat c, hsmall _ (Nat.not_le.mp hcontrol)] at h
  cases h

theorem isShown_separated {items : List (List Char)} (h : ∀ item ∈ items, ∀ c ∈ item, IsShown c) :
    ∀ c ∈ separated items, IsShown c := by
  fun_induction separated items with
  | case1 => exact List.forall_mem_nil _
  | case2 item => exact h item List.mem_cons_self
  | case3 item rest hrest ih =>
    rw [List.forall_mem_cons] at h
    exact List.forall_mem_append.mpr
      ⟨h.1, List.forall_mem_cons.mpr ⟨by decide, List.forall_mem_cons.mpr ⟨by decide, ih h.2⟩⟩⟩

mutual

theorem isShown_write : (document : Json) → document.hasNumerals = true →
    ∀ c ∈ document.write, IsShown c
  | null, _ => isShown_of_all rfl
  | truth true, _ => isShown_of_all rfl
  | truth false, _ => isShown_of_all rfl
  | number numeral, h => by
    rw [hasNumerals] at h
    exact fun c hc => isShown_of_isNumberChar ((isNumeral_cases h).1 c hc)
  | text value, _ => isShown_quote value
  | array items, h => by
    rw [hasNumerals] at h
    exact List.forall_mem_cons.mpr ⟨by decide, List.forall_mem_append.mpr
      ⟨isShown_separated (isShown_writeItems items h), List.forall_mem_singleton.mpr (by decide)⟩⟩
  | object members, h => by
    rw [hasNumerals] at h
    exact List.forall_mem_cons.mpr ⟨by decide, List.forall_mem_append.mpr
      ⟨isShown_separated (isShown_writeMembers members h), List.forall_mem_singleton.mpr (by decide)⟩⟩

theorem isShown_writeItems : (items : List Json) → haveNumerals items = true →
    ∀ item ∈ writeItems items, ∀ c ∈ item, IsShown c
  | [], _ => List.forall_mem_nil _
  | item :: rest, h => by
    rw [haveNumerals, Bool.and_eq_true] at h
    exact List.forall_mem_cons.mpr ⟨isShown_write item h.1, isShown_writeItems rest h.2⟩

theorem isShown_writeMembers : (members : List (String × Json)) →
    membersHaveNumerals members = true → ∀ member ∈ writeMembers members, ∀ c ∈ member, IsShown c
  | [], _ => List.forall_mem_nil _
  | (name, value) :: rest, h => by
    rw [membersHaveNumerals, Bool.and_eq_true] at h
    refine List.forall_mem_cons.mpr ⟨?_, isShown_writeMembers rest h.2⟩
    exact List.forall_mem_append.mpr ⟨isShown_quote name, List.forall_mem_cons.mpr
      ⟨by decide, List.forall_mem_cons.mpr ⟨by decide, isShown_write value h.1⟩⟩⟩

end

/-- What is written for a document stays on its line. -/
theorem not_mem_render {document : Json} (h : document.hasNumerals = true) :
    '\n' ∉ document.render.toList ∧ '\r' ∉ document.render.toList := by
  rw [render, String.toList_ofList]
  exact ⟨fun hc => absurd (isShown_write document h _ hc) (by decide),
    fun hc => absurd (isShown_write document h _ hc) (by decide)⟩

end TableAudit.Json
