import TableAudit.Token.Lexer

namespace TableAudit.Token

/-- The quotes that close a literal. -/
def closingQuotes (quote : Char) (triple : Bool) : List Char :=
  if triple then [quote, quote, quote] else [quote]

/-- What a literal is after its opening, up to the end of the quotes that close it. -/
inductive IsBody (quote : Char) (triple : Bool) : List Char → Prop
  | closing : IsBody quote triple (closingQuotes quote triple)
  | escape {c : Char} {body : List Char} (hbody : IsBody quote triple body) :
      IsBody quote triple ('\\' :: c :: body)
  | char {c : Char} {body : List Char} (hescape : c ≠ '\\')
      (hquote : c = quote → triple = true ∧ body.take 2 ≠ [quote, quote])
      (hline : c = '\n' → triple = true) (hbody : IsBody quote triple body) :
      IsBody quote triple (c :: body)

section

variable {quote c : Char} {triple : Bool} {text rest body tail : List Char}

namespace IsBody

theorem exists_closing (h : IsBody quote triple body) :
    ∃ front, body = front ++ closingQuotes quote triple := by
  induction h with
  | closing => exact ⟨[], rfl⟩
  | @escape c _ _ ih =>
    obtain ⟨front, rfl⟩ := ih
    exact ⟨'\\' :: c :: front, rfl⟩
  | @char c _ _ _ _ _ ih =>
    obtain ⟨front, rfl⟩ := ih
    exact ⟨c :: front, rfl⟩

theorem getLast?_eq (h : IsBody quote triple body) : body.getLast? = some quote := by
  obtain ⟨front, rfl⟩ := h.exists_closing
  rw [List.getLast?_append]
  cases triple <;> rfl

theorem two_le_length (h : IsBody quote true body) : 2 ≤ body.length := by
  obtain ⟨front, rfl⟩ := h.exists_closing
  rw [List.length_append]
  exact Nat.le_add_left_of_le (Nat.le_succ 2)

end IsBody

theorem textBody_escape : textBody quote triple ('\\' :: c :: rest) =
    match textBody quote triple rest with
    | .ok (body, tail) => .ok ('\\' :: c :: body, tail)
    | .error read => .error ('\\' :: c :: read) :=
  (textBody.eq_def _ _ _).trans rfl

/-- A character that escapes no other. -/
theorem textBody_cons (hc : c ≠ '\\') : textBody quote triple (c :: rest) =
    if c = quote then
      if triple then
        if rest.take 2 = [quote, quote] then .ok ([quote, quote, quote], rest.drop 2)
        else textBody.prepend c (textBody quote triple rest)
      else .ok ([c], rest)
    else if c = '\n' ∧ triple = false then .error []
    else textBody.prepend c (textBody quote triple rest) := by
  rw [textBody.eq_def]
  split
  · next h => cases h
  · next h => exact absurd (List.cons.inj h).1 hc
  · next h =>
    obtain ⟨rfl, rfl⟩ := List.cons.inj h
    by_cases hquote : c = quote
    · subst hquote
      rcases rest with _ | ⟨a, _ | ⟨b, rest⟩⟩
      · simp
      · simp
      · by_cases hclosed : a = c ∧ b = c
        · obtain ⟨rfl, rfl⟩ := hclosed
          simp
        · simp [hclosed]
    · simp [hquote]

theorem prepend_eq_ok {found : Except (List Char) (List Char × List Char)}
    (h : textBody.prepend c found = .ok (body, tail)) :
    ∃ inner, found = .ok (inner, tail) ∧ body = c :: inner := by
  cases found with
  | error => cases h
  | ok found =>
    cases h
    exact ⟨_, rfl, rfl⟩

/-- A literal is read up to its end, and what comes after it is left. -/
theorem IsBody.textBody_append (h : IsBody quote triple body) (hquote : quote ≠ '\\') (tail : List Char) :
    textBody quote triple (body ++ tail) = .ok (body, tail) := by
  induction h with
  | closing =>
    unfold closingQuotes
    cases triple with
    | false => exact (textBody_cons hquote).trans (if_pos rfl)
    | true => exact (textBody_cons hquote).trans ((if_pos rfl).trans ((if_pos rfl).trans (if_pos rfl)))
  | escape _ ih => rw [List.cons_append, List.cons_append, textBody_escape, ih]
  | @char c body hescape hopen hline hbody ih =>
    rw [List.cons_append, textBody_cons hescape, ih]
    by_cases hc : c = quote
    · obtain ⟨rfl, htake⟩ := hopen hc
      rw [← List.take_append_of_le_length hbody.two_le_length] at htake
      rw [if_pos hc, if_pos rfl, if_neg htake]
      rfl
    · rw [if_neg hc, if_neg]
      · rfl
      · rintro ⟨hfeed, hsingle⟩
        exact Bool.false_ne_true (hsingle.symm.trans (hline hfeed))

/-- Where a literal is read, it is what stands in front of what is left. -/
theorem isBody_of_textBody (h : textBody quote triple text = .ok (body, tail)) :
    text = body ++ tail ∧ IsBody quote triple body := by
  fun_induction textBody quote triple text generalizing body with
  | case1 => cases h
  | case2 c rest inner left hrun ih =>
    cases h
    obtain ⟨rfl, hbody⟩ := ih hrun
    exact ⟨rfl, hbody.escape⟩
  | case3 => cases h
  | case4 c hquote htriple first second rest hclosed _ =>
    cases h
    rw [Bool.and_eq_true, beq_iff_eq, beq_iff_eq] at hclosed
    obtain rfl := beq_iff_eq.mp hquote
    obtain ⟨rfl, rfl⟩ := hclosed
    obtain rfl : triple = true := htriple
    exact ⟨rfl, .closing⟩
  | case5 c hquote htriple first second rest hopen hlast ih =>
    obtain ⟨inner, hinner, rfl⟩ := prepend_eq_ok h
    obtain ⟨hsplit, hbody⟩ := ih hinner
    obtain rfl : triple = true := htriple
    refine ⟨congrArg _ hsplit, .char (fun hescape => hlast _ _ hescape rfl) (fun _ => ⟨rfl, ?_⟩)
      (fun _ => rfl) hbody⟩
    -- More than two characters belong to the literal, so its next two are those of the text.
    rw [← List.take_append_of_le_length hbody.two_le_length, ← hsplit]
    rintro hclosed
    cases hclosed
    simp at hopen
  | case6 c rest hlast hquote htriple hshort ih =>
    obtain ⟨inner, hinner, rfl⟩ := prepend_eq_ok h
    obtain ⟨hsplit, hbody⟩ := ih hinner
    obtain rfl : triple = true := htriple
    have hlength := hbody.two_le_length
    rcases inner with _ | ⟨a, _ | ⟨b, inner⟩⟩
    · exact absurd hlength (by decide)
    · exact absurd hlength (by simp)
    · exact (hshort _ _ _ hsplit).elim
  | case7 c rest _ hquote htriple =>
    cases h
    obtain rfl := beq_iff_eq.mp hquote
    obtain rfl : triple = false := Bool.eq_false_iff.mpr htriple
    exact ⟨rfl, .closing⟩
  | case8 => cases h
  | case9 c rest hlast hquote hline ih =>
    obtain ⟨inner, hinner, rfl⟩ := prepend_eq_ok h
    obtain ⟨rfl, hbody⟩ := ih hinner
    have hescape : c ≠ '\\' := by
      rintro rfl
      cases hbefore : inner ++ tail with
      | nil =>
        rw [hbefore] at hinner
        cases hinner
      | cons d more => exact hlast d more rfl hbefore
    refine ⟨rfl, .char hescape (fun h => absurd (beq_iff_eq.mpr h) hquote) (fun hfeed => ?_) hbody⟩
    simpa [hfeed] using hline

end

end TableAudit.Token
