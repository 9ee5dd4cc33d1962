import TableAudit.Proofs.Text.Rows
import TableAudit.Proofs.Text.Unbroken

namespace TableAudit.Text

/-- The text with blanks put in front of each of its lines, which line feeds end, the empty ones too. -/
def shifted (blanks text : List Char) : List Char :=
  unlines ((lines text).map (blanks ++ ·))

variable {blanks : List Char}

theorem indented_of_ne_nil {row : List Char} (h : row ≠ []) : indented blanks row = blanks ++ row := by
  cases row with
  | nil => exact absurd rfl h
  | cons c row => rfl

namespace Margin

variable (hblanks : ∀ b ∈ blanks, isIndent b = true)

theorem commonStart_append (front as bs : List Char) :
    commonStart (front ++ as) (front ++ bs) = front ++ commonStart as bs := by
  induction front with
  | nil => rfl
  | cons c front ih =>
    rw [List.cons_append, List.cons_append, commonStart, if_pos (beq_self_eq_true c), ih,
      List.cons_append]

theorem foldl_commonStart_append (front first : List Char) (others : List (List Char)) :
    (others.map (front ++ ·)).foldl commonStart (front ++ first) =
      front ++ others.foldl commonStart first := by
  induction others generalizing first with
  | nil => rfl
  | cons next others ih =>
    rw [List.map_cons, List.foldl_cons, List.foldl_cons, commonStart_append, ih]

include hblanks

theorem clearBlank_append_left (row : List Char) :
    clearBlank (blanks ++ row) = indented blanks (clearBlank row) := by
  have hall : (blanks ++ row).all isIndent = row.all isIndent := by
    rw [List.all_append, List.all_eq_true.mpr hblanks, Bool.true_and]
  unfold clearBlank
  rw [hall]
  by_cases hrow : row.all isIndent = true
  · rw [if_pos hrow, if_pos hrow]
    rfl
  · rw [if_neg hrow, if_neg hrow]
    refine (indented_of_ne_nil ?_).symm
    rintro rfl
    exact hrow rfl

theorem indentOf_append (row : List Char) : indentOf (blanks ++ row) = blanks ++ indentOf row :=
  List.takeWhile_append_of_pos hblanks

/-- Lines further to the right have a margin that is wider by as much, if there is one with text. -/
theorem margin_indented {rows : List (List Char)} {row : List Char} (hrow : row ∈ rows)
    (hne : row ≠ []) : margin (rows.map (indented blanks)) = blanks ++ margin rows := by
  have hindents : ((rows.map (indented blanks)).filter fun line => !line.isEmpty).map indentOf =
      ((rows.filter fun line => !line.isEmpty).map indentOf).map (blanks ++ ·) := by
    have hshown : (fun line : List Char => !line.isEmpty) ∘ indented blanks =
        fun line => !line.isEmpty := by
      funext line
      cases line <;> simp [indented]
    rw [List.filter_map, hshown, List.map_map, List.map_map]
    refine List.map_congr_left fun line hline => ?_
    have hne : line ≠ [] := by simpa using (List.mem_filter.mp hline).2
    rw [Function.comp_apply, indented_of_ne_nil hne, indentOf_append hblanks]
    rfl
  have hmem : indentOf row ∈ (rows.filter fun line => !line.isEmpty).map indentOf :=
    List.mem_map_of_mem (List.mem_filter.mpr ⟨hrow, by simpa using hne⟩)
  unfold margin
  rw [hindents]
  cases hall : (rows.filter fun line => !line.isEmpty).map indentOf with
  | nil =>
    rw [hall] at hmem
    cases hmem
  | cons first others => exact foldl_commonStart_append blanks first others

/-- Lines further to the right, without their margin, are the lines without theirs. -/
theorem drop_margin_indented {rows : List (List Char)} {row : List Char} (hrow : row ∈ rows) :
    (indented blanks row).drop (margin (rows.map (indented blanks))).length =
      row.drop (margin rows).length := by
  by_cases hne : row = []
  · rw [hne]
    simp [indented]
  · rw [margin_indented hblanks hrow hne, indented_of_ne_nil hne, List.length_append,
      ← List.drop_drop, List.drop_left]

/-- Texts whose cleared lines differ by blanks in front of those with text are the same text without
    their margins. -/
theorem remove_eq_of_indented {text other : List Char}
    (h : (lines other).map clearBlank = ((lines text).map clearBlank).map (indented blanks)) :
    remove other = remove text := by
  unfold remove
  rw [h]
  generalize (lines text).map clearBlank = rows
  dsimp only
  rw [List.map_map]
  exact congrArg unlines (List.map_congr_left fun row hrow => drop_margin_indented hblanks hrow)

theorem map_clearBlank_append (rows : List (List Char)) :
    (rows.map (blanks ++ ·)).map clearBlank = (rows.map clearBlank).map (indented blanks) := by
  rw [List.map_map, List.map_map]
  exact List.map_congr_left fun row _ => clearBlank_append_left hblanks row

theorem lines_shifted (text : List Char) :
    lines (shifted blanks text) = (lines text).map (blanks ++ ·) := by
  refine lines_unlines (by simpa using lines_ne_nil text) fun row hrow => ?_
  obtain ⟨own, hown, rfl⟩ := List.mem_map.mp hrow
  rw [List.mem_append, not_or]
  exact ⟨fun hfeed => absurd (hblanks _ hfeed) (by decide), feed_not_mem_lines text own hown⟩

/-- Blanks in front of all lines are removed with the margin. -/
theorem remove_shifted (text : List Char) : remove (shifted blanks text) = remove text := by
  apply remove_eq_of_indented hblanks
  rw [lines_shifted hblanks, map_clearBlank_append hblanks]

/-- Nor does it matter whether they are put after a last line end. -/
theorem remove_shifted_feed (text : List Char) :
    remove (shifted blanks text ++ ['\n']) = remove (text ++ ['\n']) := by
  apply remove_eq_of_indented hblanks
  rw [lines_append_feed, lines_append_feed, lines_shifted hblanks, List.map_append, List.map_append,
    List.map_append, map_clearBlank_append hblanks]
  rfl

end Margin

end TableAudit.Text
