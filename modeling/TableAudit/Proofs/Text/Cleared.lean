import Mathlib.Data.List.Forall2
import TableAudit.Proofs.Text.Rows

namespace TableAudit.Text

open Margin (isIndent clearBlank margin remove)
open Token (normalizeLineEnds)

/-- The lines of a text as they are counted in it, with all its line ends alike. -/
def countedLines (text : List Char) : List (List Char) :=
  lines (normalizeLineEnds text)

/-- The removal of the margin makes another line of this one. -/
def Changes (text : List Char) (line : Nat) : Prop :=
  (countedLines (remove text))[line - 1]? ≠ (countedLines text)[line - 1]?

instance (text : List Char) (line : Nat) : Decidable (Changes text line) :=
  inferInstanceAs (Decidable (¬ _ = _))

/-- A line that is kept, or cleared because it has nothing but blanks. -/
def Thins (row thinned : List Char) : Prop :=
  thinned = row ∨ thinned = [] ∧ ∀ c ∈ row, isIndent c = true

theorem Thins.refl (row : List Char) : Thins row row :=
  .inl rfl

/-- Lines of a text from one number on, and what is left of them. The lines that are cleared are
    `changed`. The line before the last one does not go on in it if that is cleared. -/
inductive Clears (changed : Nat → Prop) : Nat → List (List Char) → List (List Char) → Prop
  | nil {line : Nat} : Clears changed line [] []
  | last {line : Nat} {blanks : List Char} (hblanks : ∀ b ∈ blanks, isIndent b = true) :
      Clears changed line [blanks] []
  | keep {line : Nat} {row : List Char} {rows cleared : List (List Char)} (hrow : '\n' ∉ row)
      (hends : cleared = [] → rows ≠ [] → row.getLast? ≠ some '\\')
      (hrest : Clears changed (line + 1) rows cleared) :
      Clears changed line (row :: rows) (row :: cleared)
  | clear {line : Nat} {blanks : List Char} {rows cleared : List (List Char)}
      (hblanks : ∀ b ∈ blanks, isIndent b = true) (hchanged : changed line)
      (hrest : Clears changed (line + 1) rows cleared) :
      Clears changed line (blanks :: rows) ([] :: cleared)

theorem feed_not_mem_of_isIndent {blanks : List Char} (h : ∀ b ∈ blanks, isIndent b = true) :
    '\n' ∉ blanks :=
  fun hfeed => absurd (h _ hfeed) (by decide)

theorem return_not_mem_of_isIndent {blanks : List Char} (h : ∀ b ∈ blanks, isIndent b = true) :
    '\r' ∉ blanks :=
  fun hreturn => absurd (h _ hreturn) (by decide)

theorem normalizeLineEnds_cons {c : Char} {rest : List Char}
    (h : c = '\r' → rest.head? ≠ some '\n') :
    normalizeLineEnds (c :: rest) = (if c == '\r' then '\n' else c) :: normalizeLineEnds rest := by
  rw [normalizeLineEnds]
  rintro more rfl rfl
  exact h rfl rfl

/-- A line comes to the same lines whatever is on those after it. -/
theorem exists_countedLines {row : List Char} (hrow : '\n' ∉ row) : ∃ first others,
    ∀ more, countedLines (row ++ '\n' :: more) = first :: (others ++ countedLines more) := by
  induction row with
  | nil => exact ⟨[], [], fun _ => rfl⟩
  | cons c row ih =>
    rw [List.mem_cons, not_or] at hrow
    obtain ⟨first, others, hlines⟩ := ih hrow.2
    by_cases hends : c = '\r' ∧ row = []
    · obtain ⟨rfl, rfl⟩ := hends
      exact ⟨[], [], fun _ => rfl⟩
    have hcons (more : List Char) : normalizeLineEnds (c :: row ++ '\n' :: more) =
        (if c == '\r' then '\n' else c) :: normalizeLineEnds (row ++ '\n' :: more) := by
      refine normalizeLineEnds_cons fun hc hhead => ?_
      cases row with
      | nil => exact hends ⟨hc, rfl⟩
      | cons d row => exact hrow.2 (List.mem_cons.mpr (.inl (Option.some.inj hhead).symm))
    simp only [countedLines] at hlines ⊢
    by_cases hc : c = '\r'
    · refine ⟨[], first :: others, fun more => ?_⟩
      rw [hcons, hc, if_pos (beq_self_eq_true _), lines_feed, hlines, List.cons_append]
    · refine ⟨c :: first, others, fun more => ?_⟩
      rw [hcons, if_neg (by simpa using hc), lines_cons (Ne.symm hrow.1), hlines, pushFirst]

theorem countedLines_of_isIndent {blanks : List Char} (h : ∀ b ∈ blanks, isIndent b = true) :
    countedLines blanks = [blanks] := by
  rw [countedLines, Token.normalizeLineEnds_eq_self (return_not_mem_of_isIndent h),
    lines_of_not_mem (feed_not_mem_of_isIndent h)]

theorem countedLines_append_of_isIndent {blanks : List Char} (h : ∀ b ∈ blanks, isIndent b = true)
    (more : List Char) : countedLines (blanks ++ '\n' :: more) = blanks :: countedLines more := by
  rw [countedLines, Token.normalizeLineEnds_append (return_not_mem_of_isIndent h)]
  exact lines_append (feed_not_mem_of_isIndent h) _

theorem countedLines_ne_nil (text : List Char) : countedLines text ≠ [] :=
  lines_ne_nil _

theorem feed_not_mem_countedLines (text : List Char) : ∀ row ∈ countedLines text, '\n' ∉ row :=
  feed_not_mem_lines _

theorem forall₂_thins_refl (rows : List (List Char)) : List.Forall₂ Thins rows rows :=
  List.forall₂_same.mpr fun row _ => .refl row

/-- Where blank lines are cleared the lines that are counted stay, or are cleared. -/
theorem thins_unlines {rows : List (List Char)} (hrows : ∀ row ∈ rows, '\n' ∉ row) :
    List.Forall₂ Thins (countedLines (unlines rows)) (countedLines (unlines (rows.map clearBlank))) := by
  have hkept {row : List Char} (h : clearBlank row ≠ []) : clearBlank row = row :=
    Margin.clearBlank_eq_self h
  induction rows with
  | nil => exact forall₂_thins_refl _
  | cons row rows ih =>
    rw [List.forall_mem_cons] at hrows
    have hblank (h : clearBlank row = []) := (Margin.clearBlank_eq_nil_iff row).mp h
    cases rows with
    | nil =>
      change List.Forall₂ Thins (countedLines row) (countedLines (clearBlank row))
      by_cases hclear : clearBlank row = []
      · rw [hclear, countedLines_of_isIndent (hblank hclear)]
        exact .cons (.inr ⟨rfl, hblank hclear⟩) .nil
      · rw [hkept hclear]
        exact forall₂_thins_refl _
    | cons next rows =>
      have hmore := ih hrows.2
      change List.Forall₂ Thins (countedLines (row ++ '\n' :: unlines (next :: rows)))
        (countedLines (clearBlank row ++ '\n' :: unlines ((next :: rows).map clearBlank)))
      by_cases hclear : clearBlank row = []
      · rw [hclear, countedLines_append_of_isIndent (hblank hclear)]
        exact .cons (.inr ⟨rfl, hblank hclear⟩) hmore
      · obtain ⟨first, others, hlines⟩ := exists_countedLines hrows.1
        rw [hkept hclear, hlines, hlines]
        exact .cons (.refl first) (List.rel_append (forall₂_thins_refl others) hmore)

/-- A text without a margin keeps its lines, but for those that are cleared. -/
theorem thins_remove {text : List Char} (hflush : margin ((lines text).map clearBlank) = []) :
    List.Forall₂ Thins (countedLines text) (countedLines (remove text)) := by
  have hremove : remove text = unlines ((lines text).map clearBlank) := by
    rw [remove]
    simp only [hflush, List.length_nil, List.drop_zero, List.map_id']
  rw [hremove]
  nth_rewrite 1 [← unlines_lines text]
  exact thins_unlines (feed_not_mem_lines text)

/-- A text goes on where it ends: its last line is empty, and the one before it ends in a backslash. -/
def EndsOpen (text : List Char) : Prop :=
  ['\\', '\n'] <:+ normalizeLineEnds text

instance (text : List Char) : Decidable (EndsOpen text) :=
  inferInstanceAs (Decidable (_ <:+ _))

theorem endsOpen_of_countedLines {text : List Char} {front : List (List Char)} {row : List Char}
    (h : countedLines text = front ++ [row, []]) (hrow : row.getLast? = some '\\') : EndsOpen text := by
  obtain ⟨most, rfl⟩ := List.getLast?_eq_some_iff.mp hrow
  have htext : normalizeLineEnds text = closed front ++ (most ++ ['\\']) ++ ['\n'] := by
    rw [← unlines_lines (normalizeLineEnds text), show lines (normalizeLineEnds text) = _ from h,
      List.append_cons, unlines_concat, closed_concat, List.append_nil]
  exact ⟨closed front ++ most, by rw [htext]; simp⟩

theorem getLast?_of_endsOpen {text : List Char} (h : EndsOpen text) :
    (countedLines text).getLast? = some [] := by
  obtain ⟨front, last, hlines⟩ := List.eq_nil_or_concat (countedLines text) |>.resolve_left
    (countedLines_ne_nil text)
  rw [List.concat_eq_append] at hlines
  rw [hlines, List.getLast?_concat]
  by_contra hlast
  have hne : last ≠ [] := fun h => hlast (congrArg some h)
  have hfeed : '\n' ∉ last :=
    feed_not_mem_countedLines text last (hlines ▸ List.mem_append_right _ List.mem_cons_self)
  have htext : normalizeLineEnds text = closed front ++ last := by
    rw [← unlines_lines (normalizeLineEnds text), show lines (normalizeLineEnds text) = _ from hlines,
      unlines_concat]
  obtain ⟨most, hmost⟩ := h
  have hend := congrArg List.getLast? hmost
  rw [htext, List.getLast?_append_of_ne_nil _ hne, List.getLast?_append_of_ne_nil _ (List.cons_ne_nil _ _)]
    at hend
  exact hfeed (List.mem_of_getLast? hend.symm)

theorem wholeRows_single (row : List Char) : wholeRows [row] = if row = [] then [] else [row] :=
  wholeRows_concat [] row

theorem wholeRows_cons_cons (row next : List Char) (rows : List (List Char)) :
    wholeRows (row :: next :: rows) = row :: wholeRows (next :: rows) :=
  wholeRows_append [row] (List.cons_ne_nil next rows)

theorem eq_of_wholeRows_eq_nil {row : List Char} {rows : List (List Char)}
    (h : wholeRows (row :: rows) = []) : row = [] ∧ rows = [] := by
  cases rows with
  | nil =>
    rw [wholeRows_single] at h
    by_cases hrow : row = []
    · exact ⟨hrow, rfl⟩
    · rw [if_neg hrow] at h
      cases h
  | cons next rows =>
    rw [wholeRows_cons_cons] at h
    cases h

/-- Lines that are thinned are kept or cleared one by one. -/
theorem clears_of_thins {changed : Nat → Prop} {line : Nat} {rows thinned : List (List Char)}
    (h : List.Forall₂ Thins rows thinned) (hrows : ∀ row ∈ rows, '\n' ∉ row)
    (hchanged : ∀ index, thinned[index]? ≠ rows[index]? → changed (line + index))
    (hends : ∀ front row, thinned = front ++ [row, []] → row.getLast? = some '\\' →
      rows.getLast? = some []) :
    Clears changed line (wholeRows rows) (wholeRows thinned) := by
  induction h generalizing line with
  | nil => exact .nil
  | @cons row thin rows thinned hthin hrest ih =>
    rw [List.forall_mem_cons] at hrows
    cases hrest with
    | nil =>
      rw [wholeRows_single, wholeRows_single]
      rcases hthin with rfl | ⟨rfl, hblanks⟩
      · split
        · exact .nil
        · exact .keep hrows.1 (fun _ hmore => absurd rfl hmore) .nil
      · rw [if_pos rfl]
        split
        · exact .nil
        · exact .last hblanks
    | @cons next thin' rows thinned hnext hrest =>
      have hmore : Clears changed (line + 1) (wholeRows (next :: rows)) (wholeRows (thin' :: thinned)) := by
        refine ih hrows.2 (fun index hindex => ?_) fun front last hlast hopen => ?_
        · rw [Nat.add_right_comm]
          exact hchanged (index + 1) hindex
        · exact hends (thin :: front) last (congrArg (thin :: ·) hlast) hopen
      rw [wholeRows_cons_cons, wholeRows_cons_cons]
      by_cases hkept : thin = row
      · subst hkept
        refine .keep hrows.1 (fun hnone hsome hopen => hsome ?_) hmore
        obtain ⟨rfl, rfl⟩ := eq_of_wholeRows_eq_nil hnone
        have hlast := hends [] thin rfl hopen
        cases hrest
        rw [show next = [] from Option.some.inj hlast]
        rfl
      · obtain ⟨rfl, hblanks⟩ := hthin.resolve_left hkept
        exact .clear hblanks (hchanged 0 fun hsame => hkept (Option.some.inj hsame)) hmore

/-- Where the lines of a text share no margin its removal keeps or clears each of them; where it clears
    the last one, the line before must not go on in that. -/
theorem clears_remove {text : List Char} (hflush : margin ((lines text).map clearBlank) = [])
    (hends : EndsOpen (remove text) → EndsOpen text) :
    Clears (Changes text) 1 (wholeRows (countedLines text)) (wholeRows (countedLines (remove text))) := by
  refine clears_of_thins (thins_remove hflush) (feed_not_mem_countedLines text) (fun index hindex => ?_)
    fun front row hlines hopen => getLast?_of_endsOpen (hends (endsOpen_of_countedLines hlines hopen))
  rw [Changes, Nat.add_sub_cancel_left]
  exact hindex

end TableAudit.Text
