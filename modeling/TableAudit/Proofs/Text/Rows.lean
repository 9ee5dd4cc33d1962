import TableAudit.Proofs.Text.Margin
import TableAudit.Token.Lexer

namespace TableAudit

namespace Text

/-- The rest of a line, its end, and whatever is after it. -/
def continued (line more : List Char) : List Char :=
  line ++ '\n' :: more

@[simp] theorem continued_nil (more : List Char) : continued [] more = '\n' :: more :=
  rfl

@[simp] theorem continued_cons (c : Char) (line more : List Char) :
    continued (c :: line) more = c :: continued line more :=
  rfl

/-- Lines with their ends. -/
def closed (rows : List (List Char)) : List Char :=
  rows.flatMap fun row => row ++ ['\n']

@[simp] theorem closed_nil : closed [] = [] :=
  rfl

@[simp] theorem closed_cons (row : List Char) (rows : List (List Char)) :
    closed (row :: rows) = continued row (closed rows) := by
  simp [closed, continued]

/-- A line further to the right. A line without text stays as it is. -/
def indented (blanks : List Char) : List Char → List Char
  | [] => []
  | c :: row => blanks ++ c :: row

theorem indented_eq_nil_iff (blanks row : List Char) : indented blanks row = [] ↔ row = [] := by
  cases row <;> simp [indented]

/-- The columns after blanks that begin at a column, with tab stops and with tabs as single
    columns. -/
def columns (start : Nat × Nat) (blanks : List Char) : Nat × Nat :=
  blanks.foldl (fun place c =>
    (if c == '\t' then (place.1 / 8 + 1) * 8 else place.1 + 1, place.2 + 1)) start

theorem columns_append (start : Nat × Nat) (blanks more : List Char) :
    columns start (blanks ++ more) = columns (columns start blanks) more :=
  List.foldl_append

/-- Blanks are as wide further to the right, unless a tab stop is in another place there. -/
theorem columns_add {wide slim width narrow : Nat} {blanks : List Char}
    (htabs : '\t' ∈ blanks → 8 ∣ wide) : columns (wide + width, slim + narrow) blanks =
      (wide + (columns (width, narrow) blanks).1, slim + (columns (width, narrow) blanks).2) := by
  induction blanks generalizing width narrow with
  | nil => rfl
  | cons b blanks ih =>
    have hrest (width narrow : Nat) :=
      @ih width narrow fun h => htabs (List.mem_cons_of_mem b h)
    by_cases hb : b = '\t'
    · subst hb
      obtain ⟨stops, rfl⟩ := htabs List.mem_cons_self
      have hstop : ((8 * stops + width) / 8 + 1) * 8 = 8 * stops + (width / 8 + 1) * 8 := by omega
      change columns (((8 * stops + width) / 8 + 1) * 8, slim + narrow + 1) blanks = _
      rw [hstop, Nat.add_assoc, hrest]
      rfl
    · have hstep (start : Nat × Nat) :
          columns start (b :: blanks) = columns (start.1 + 1, start.2 + 1) blanks := by
        simp [columns, hb]
      rw [hstep, hstep, Nat.add_assoc, Nat.add_assoc, hrest]

theorem le_columns (start : Nat × Nat) (blanks : List Char) : start.1 ≤ (columns start blanks).1 := by
  induction blanks generalizing start with
  | nil => exact Nat.le_refl _
  | cons b blanks ih =>
    refine Nat.le_trans ?_ (ih _)
    dsimp only
    split <;> omega

theorem columns_pos {blanks : List Char} (h : blanks ≠ []) : 0 < (columns (0, 0) blanks).1 := by
  cases blanks with
  | nil => exact absurd rfl h
  | cons b blanks =>
    refine Nat.lt_of_lt_of_le ?_ (le_columns _ blanks)
    dsimp only
    split <;> omega

theorem closed_concat (front : List (List Char)) (last : List Char) :
    closed (front ++ [last]) = closed front ++ last ++ ['\n'] := by
  rw [closed, List.flatMap_append, List.flatMap_singleton, ← List.append_assoc]
  rfl

theorem count_closed {rows : List (List Char)} (hrows : ∀ row ∈ rows, '\n' ∉ row) :
    (closed rows).count '\n' = rows.length := by
  induction rows with
  | nil => rfl
  | cons row rows ih =>
    rw [List.forall_mem_cons] at hrows
    rw [closed_cons, continued, List.count_append, List.count_cons_self, ih hrows.2,
      List.count_eq_zero_of_not_mem hrows.1, List.length_cons, Nat.zero_add]

/-- What is after a line end is nothing, or has a line end of its own. -/
theorem eq_nil_of_ends {used front more : List Char} (h : used ++ ['\n'] = front ++ more)
    (hmore : more.count '\n' = 0) : more = [] := by
  rcases List.eq_nil_or_concat more with rfl | ⟨most, c, rfl⟩
  · rfl
  · rw [List.concat_eq_append, ← List.append_assoc] at h
    obtain rfl : '\n' = c := (List.cons.inj (List.append_inj_right' h rfl)).1
    simp at hmore

/-- As many line ends as there are lines are those of all these lines. -/
theorem eq_closed_of_count {header body : List (List Char)} {used rest : List Char}
    (hheader : ∀ row ∈ header, '\n' ∉ row) (h : closed (header ++ body) = used ++ ['\n'] ++ rest)
    (hcount : (used ++ ['\n']).count '\n' = header.length) : rest = closed body := by
  have hsplit : closed (header ++ body) = closed header ++ closed body := List.flatMap_append
  rw [hsplit] at h
  rcases List.append_eq_append_iff.mp h with ⟨more, hused, hbody⟩ | ⟨more, hclosed, hrest⟩
  · have hnone : more.count '\n' = 0 := by
      have htotal := congrArg (List.count '\n') hused
      rw [hcount, List.count_append, count_closed hheader] at htotal
      omega
    rw [eq_nil_of_ends hused hnone] at hbody
    exact hbody.symm
  · have hnone : more.count '\n' = 0 := by
      have htotal := congrArg (List.count '\n') hclosed
      rw [List.count_append, hcount, count_closed hheader] at htotal
      omega
    have hmore : more = [] := by
      rcases List.eq_nil_or_concat header with rfl | ⟨most, row, rfl⟩
      · exact absurd hclosed.symm (by simp)
      · rw [List.concat_eq_append, closed_concat] at hclosed
        exact eq_nil_of_ends hclosed hnone
    rw [hmore] at hrest
    exact hrest

theorem lines_unlines {rows : List (List Char)} (hne : rows ≠ []) (hrows : ∀ row ∈ rows, '\n' ∉ row) :
    lines (unlines rows) = rows := by
  fun_induction unlines rows with
  | case1 => exact absurd rfl hne
  | case2 line => exact lines_of_not_mem (hrows line List.mem_cons_self)
  | case3 line others hothers ih =>
    rw [List.forall_mem_cons] at hrows
    rw [lines_append hrows.1, ih (fun h => hothers h) hrows.2]

theorem feed_not_mem_lines (text : List Char) : ∀ row ∈ lines text, '\n' ∉ row := by
  induction text with
  | nil => exact List.forall_mem_singleton.mpr List.not_mem_nil
  | cons c rest ih =>
    by_cases hc : c = '\n'
    · rw [hc, lines_feed, List.forall_mem_cons]
      exact ⟨List.not_mem_nil, ih⟩
    · obtain ⟨first, others, hothers⟩ := List.exists_cons_of_ne_nil (lines_ne_nil rest)
      rw [hothers, List.forall_mem_cons] at ih
      rw [lines_cons hc, hothers, pushFirst, List.forall_mem_cons, List.mem_cons, not_or]
      exact ⟨⟨Ne.symm hc, ih.1⟩, ih.2⟩

theorem unlines_concat (front : List (List Char)) (last : List Char) :
    unlines (front ++ [last]) = closed front ++ last := by
  induction front with
  | nil => rfl
  | cons row front ih =>
    obtain ⟨next, others, hnext⟩ : ∃ next others, front ++ [last] = next :: others := by
      cases front <;> exact ⟨_, _, rfl⟩
    rw [List.cons_append, hnext, unlines, ← hnext, ih, closed_cons, continued, List.append_assoc,
      List.cons_append]
    exact List.cons_ne_nil _ _

/-- The lines of a text that is closed with a line end. Nothing after the last end is no line. -/
def wholeRows (rows : List (List Char)) : List (List Char) :=
  if rows.getLast? = some [] then rows.dropLast else rows

theorem wholeRows_concat (front : List (List Char)) (last : List Char) :
    wholeRows (front ++ [last]) = if last = [] then front else front ++ [last] := by
  rw [wholeRows, List.getLast?_concat, List.dropLast_concat]
  simp only [Option.some.injEq]

theorem wholeRows_append (front : List (List Char)) {rows : List (List Char)} (hne : rows ≠ []) :
    wholeRows (front ++ rows) = front ++ wholeRows rows := by
  obtain ⟨most, last, rfl⟩ := (List.eq_nil_or_concat rows).resolve_left hne
  rw [List.concat_eq_append, ← List.append_assoc, wholeRows_concat, wholeRows_concat]
  split
  · rfl
  · rw [List.append_assoc]

theorem wholeRows_map {f : List Char → List Char} (hf : ∀ row, f row = [] ↔ row = [])
    (rows : List (List Char)) : wholeRows (rows.map f) = (wholeRows rows).map f := by
  rcases List.eq_nil_or_concat rows with rfl | ⟨front, last, rfl⟩
  · rfl
  · rw [List.concat_eq_append, List.map_append, List.map_singleton, wholeRows_concat,
      wholeRows_concat]
    simp only [hf]
    split
    · rfl
    · rw [List.map_append, List.map_singleton]

/-- The lines of a text from its first line with text on. -/
theorem wholeRows_cons {first : List Char} (hfirst : first ≠ []) (others : List (List Char)) :
    wholeRows (first :: others) = first :: wholeRows others := by
  cases others with
  | nil => exact if_neg fun h => hfirst (Option.some.inj h)
  | cons next others => exact wholeRows_append [first] (List.cons_ne_nil next others)

theorem mem_of_mem_wholeRows {row : List Char} {rows : List (List Char)} (h : row ∈ wholeRows rows) :
    row ∈ rows := by
  unfold wholeRows at h
  split at h
  · exact (List.dropLast_sublist _).mem h
  · exact h

end Text

namespace Token

open Text (closed unlines wholeRows)

/-- A text that ends no line by a carriage return is left as it is, whatever is after it. -/
theorem normalizeLineEnds_append {text : List Char} (h : '\r' ∉ text) (more : List Char) :
    normalizeLineEnds (text ++ more) = text ++ normalizeLineEnds more := by
  induction text with
  | nil => rfl
  | cons c rest ih =>
    rw [List.mem_cons, not_or] at h
    rw [List.cons_append, normalizeLineEnds, ih h.2]
    · rw [if_neg]
      · rfl
      · simpa using Ne.symm h.1
    · rintro _ rfl
      exact absurd rfl h.1

theorem normalizeLineEnds_eq_self {text : List Char} (h : '\r' ∉ text) :
    normalizeLineEnds text = text := by
  have happend := normalizeLineEnds_append h []
  rwa [normalizeLineEnds, List.append_nil] at happend

theorem closeLastLine_append_feed (text : List Char) :
    closeLastLine (text ++ ['\n']) = text ++ ['\n'] := by
  rw [closeLastLine, List.getLast?_concat]
  rfl

theorem closeLastLine_of_ends {text : List Char} {last : Char} (h : text.getLast? = some last)
    (hlast : last ≠ '\n') : closeLastLine text = text ++ ['\n'] := by
  unfold closeLastLine
  split
  · next hfeed =>
    rw [h, Option.some.injEq] at hfeed
    exact absurd hfeed hlast
  · next hnone =>
    rw [h] at hnone
    cases hnone
  · rfl

/-- A text whose last line is closed is one of whole lines. -/
theorem closeLastLine_unlines {rows : List (List Char)} (hrows : ∀ row ∈ rows, '\n' ∉ row) :
    closeLastLine (unlines rows) = closed (wholeRows rows) := by
  rcases List.eq_nil_or_concat rows with rfl | ⟨front, last, rfl⟩
  · rfl
  rw [List.concat_eq_append] at hrows ⊢
  rw [Text.unlines_concat, Text.wholeRows_concat]
  by_cases hlast : last = []
  · rw [if_pos hlast, hlast, List.append_nil]
    rcases List.eq_nil_or_concat front with rfl | ⟨most, row, rfl⟩
    · rfl
    · rw [List.concat_eq_append, Text.closed_concat, closeLastLine_append_feed]
  · have hend : last.getLast hlast ≠ '\n' := by
      intro h
      exact hrows last (List.mem_append_right _ List.mem_cons_self) (h ▸ List.getLast_mem hlast)
    have hends : (closed front ++ last).getLast? =
        some (last.getLast hlast) := by
      rw [List.getLast?_append, List.getLast?_eq_some_getLast hlast, Option.some_or]
    rw [if_neg hlast, closeLastLine_of_ends hends hend, Text.closed_concat]

end Token

end TableAudit
