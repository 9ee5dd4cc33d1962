import TableAudit.Proofs.Check.Course

namespace TableAudit

theorem digits_append_inj {digits others rest tail : List Char} {mark : Char}
    (hdigits : ∀ c ∈ digits, c.isDigit = true) (hothers : ∀ c ∈ others, c.isDigit = true)
    (hmark : mark.isDigit = false) (h : digits ++ mark :: rest = others ++ mark :: tail) :
    digits = others ∧ rest = tail := by
  have htaken := congrArg (List.takeWhile Char.isDigit) h
  rw [List.takeWhile_append_of_pos hdigits, List.takeWhile_append_of_pos hothers,
    List.takeWhile_cons_of_neg (by simp [hmark]), List.takeWhile_cons_of_neg (by simp [hmark]),
    List.append_nil, List.append_nil] at htaken
  subst htaken
  rw [List.append_cancel_left_eq, List.cons.injEq] at h
  exact ⟨rfl, h.2⟩

theorem isDigit_of_mem_toString (n : Nat) : ∀ c ∈ (toString n).toList, c.isDigit = true := by
  intro c hc
  change c ∈ n.repr.toList at hc
  rw [Nat.toList_repr] at hc
  exact Nat.isDigit_of_mem_toDigits (by decide) (by decide) hc

theorem toString_nat_inj {m n : Nat} (h : (toString m).toList = (toString n).toList) : m = n := by
  change m.repr.toList = n.repr.toList at h
  rw [Nat.toList_repr, Nat.toList_repr] at h
  rw [← @Nat.ofDigitChars_ten_toDigits m, h, Nat.ofDigitChars_ten_toDigits]

namespace Check

theorem lengthsText_singleton (name : String) (length : Nat) :
    (lengthsText [name] [length]).toList = name.toList ++ '=' :: (toString length).toList := by
  simp [lengthsText, joinWith]

theorem lengthsText_cons (name next : String) (names : List String) (length second : Nat)
    (lengths : List Nat) :
    (lengthsText (name :: next :: names) (length :: second :: lengths)).toList =
      name.toList ++ '=' :: ((toString length).toList ++
        ',' :: ' ' :: (lengthsText (next :: names) (second :: lengths)).toList) := by
  simp [lengthsText, joinWith]

/-- The text of the lengths of given columns tells each length. -/
theorem lengthsText_injective {columns : List String} {lengths others : List Nat}
    (hlengths : lengths.length = columns.length) (hothers : others.length = columns.length)
    (h : (lengthsText columns lengths).toList = (lengthsText columns others).toList) :
    lengths = others := by
  induction columns generalizing lengths others with
  | nil => rw [List.length_eq_zero_iff.mp hlengths, List.length_eq_zero_iff.mp hothers]
  | cons name rest ih =>
    obtain ⟨length, lengths, rfl⟩ := List.exists_cons_of_length_eq_add_one hlengths
    obtain ⟨other, others, rfl⟩ := List.exists_cons_of_length_eq_add_one hothers
    rw [List.length_cons, List.length_cons, Nat.add_right_cancel_iff] at hlengths hothers
    cases rest with
    | nil =>
      obtain rfl := List.length_eq_zero_iff.mp hlengths
      obtain rfl := List.length_eq_zero_iff.mp hothers
      rw [lengthsText_singleton, lengthsText_singleton, List.append_cancel_left_eq,
        List.cons.injEq] at h
      rw [toString_nat_inj h.2]
    | cons next rest =>
      obtain ⟨second, lengths, rfl⟩ := List.exists_cons_of_length_eq_add_one hlengths
      obtain ⟨third, others, rfl⟩ := List.exists_cons_of_length_eq_add_one hothers
      rw [lengthsText_cons, lengthsText_cons, List.append_cancel_left_eq, List.cons.injEq] at h
      obtain ⟨hdigits, htail⟩ := digits_append_inj (isDigit_of_mem_toString length)
        (isDigit_of_mem_toString other) (by decide) h.2
      rw [List.cons.injEq] at htail
      rw [toString_nat_inj hdigits, ih hlengths hothers htail.2]

/-- The outcome on columns that were fetched, by their lengths. -/
theorem outcome_inquireColumns {σ : Type} {around : Surroundings σ} {check : Check}
    {columns : List Value} {state : σ} {outcome : Outcome}
    (h : ((check.inquireColumns columns).run around state).1 = .ok outcome) :
    ∃ lengths, columns.mapM Value.length = .ok lengths ∧
      ((sameLength lengths = true ∧ outcome.total = lengths.headD 0 ∧
          (lengths.headD 0 = 0 → outcome.passed = true)) ∨
        sameLength lengths = false ∧
          outcome = .unevaluated ("Column lengths differ: " ++ lengthsText check.columns lengths)) := by
  unfold inquireColumns at h
  cases hlengths : columns.mapM Value.length with
  | error error =>
    rw [hlengths] at h
    cases h
  | ok lengths =>
    rw [hlengths] at h
    dsimp only at h
    refine ⟨lengths, rfl, ?_⟩
    by_cases hsame : sameLength lengths = true
    · rw [if_pos hsame] at h
      simp only [Inquiry.run, Inquiry.run_bind] at h
      rcases hrun : (check.evaluate columns (lengths.headD 0)).run around
        (around.report (check.runningEntry (lengths.headD 0)) state) with ⟨fault | found, reached⟩
      · rw [hrun] at h
        cases h
      · rw [hrun] at h
        dsimp only at h
        unfold outcomeOf at h
        cases hmade : Outcome.ofFailures found.rows found.values (lengths.headD 0) with
        | ok made =>
          rw [hmade] at h
          cases h
          obtain ⟨htotal, hpassed⟩ := Outcome.parts_of_ofFailures hmade
          refine .inl ⟨hsame, htotal, fun hzero => ?_⟩
          rw [hzero] at hrun
          cases hrun
          exact hpassed
        | error issues =>
          rw [hmade] at h
          cases h
    · rw [if_neg hsame] at h
      cases h
      exact .inr ⟨Bool.eq_false_iff.mpr hsame, rfl⟩

/-- Two outcomes of a check differ if some column was empty for one of them and not for the other. -/
theorem outcome_ne_of_emptied {σ : Type} {around : Surroundings σ} {check : Check}
    {columns others : List Value} {s t : σ} {outcome other : Outcome}
    (h : ((check.inquireColumns columns).run around s).1 = .ok outcome)
    (hother : ((check.inquireColumns others).run around t).1 = .ok other)
    (hcolumns : columns.length = check.columns.length)
    (hothers : others.length = check.columns.length) {index : Nat} {items : List Value}
    (hitems : columns[index]? = some (.list items)) (hne : items ≠ [])
    (hempty : others[index]? = some (.list [])) : outcome ≠ other := by
  rintro rfl
  obtain ⟨lengths, hlengths, hgiven⟩ := outcome_inquireColumns h
  obtain ⟨emptied, hemptied, htaken⟩ := outcome_inquireColumns hother
  obtain ⟨_, hlength, ⟨⟩⟩ := exists_getElem?_of_mapM_eq_ok hlengths hitems
  obtain ⟨_, hzero, ⟨⟩⟩ := exists_getElem?_of_mapM_eq_ok hemptied hempty
  have hpositive : items.length ≠ 0 := mt List.length_eq_zero_iff.mp hne
  have hhead : sameLength emptied = true → emptied.headD 0 = 0 := fun hsame =>
    (eq_headD_of_sameLength hsame _ (List.mem_of_getElem? hzero)).symm
  rcases hgiven with ⟨hsame, htotal, -⟩ | ⟨-, hunequal⟩
  · have hcount : outcome.total = items.length := by
      rw [htotal, ← eq_headD_of_sameLength hsame _ (List.mem_of_getElem? hlength)]
    have hnone : outcome.total = 0 := by
      rcases htaken with ⟨hsame, htotal, -⟩ | ⟨-, hunequal⟩
      · rw [htotal, hhead hsame]
        rfl
      · rw [hunequal]
        rfl
    omega
  · rcases htaken with ⟨hsame, -, hpassed⟩ | ⟨-, hother⟩
    · have hfailed := hpassed (hhead hsame)
      rw [hunequal] at hfailed
      cases hfailed
    · have hmessage := congrArg Outcome.message (hunequal.symm.trans hother)
      have htext : (lengthsText check.columns lengths).toList =
          (lengthsText check.columns emptied).toList := by
        have hlist := congrArg String.toList hmessage
        simpa only [Outcome.unevaluated, String.toList_append, List.append_cancel_left_eq]
          using hlist
      have hall := (mapM_eq_ok_iff _ _ _).mp hlengths
      have hrest := (mapM_eq_ok_iff _ _ _).mp hemptied
      have hequal := lengthsText_injective (hall.length_eq.symm.trans hcolumns)
        (hrest.length_eq.symm.trans hothers) htext
      rw [hequal, hzero, Option.some.injEq] at hlength
      exact hpositive hlength.symm

end Check

end TableAudit
