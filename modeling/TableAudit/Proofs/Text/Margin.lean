import Mathlib.Data.List.Basic
import Mathlib.Data.List.TakeWhile
import TableAudit.Text.Margin

namespace TableAudit.Text

@[simp] theorem lines_nil : lines [] = [[]] :=
  rfl

@[simp] theorem lines_feed (rest : List Char) : lines ('\n' :: rest) = [] :: lines rest :=
  rfl

theorem lines_cons {c : Char} (hc : c ≠ '\n') (rest : List Char) :
    lines (c :: rest) = pushFirst c (lines rest) := by
  rw [lines, if_neg (by simpa using hc)]

theorem lines_ne_nil (text : List Char) : lines text ≠ [] := by
  induction text with
  | nil => exact List.cons_ne_nil _ _
  | cons c rest ih =>
    by_cases hc : c = '\n'
    · rw [hc, lines_feed]
      exact List.cons_ne_nil _ _
    · rw [lines_cons hc]
      cases h : lines rest <;> exact List.cons_ne_nil _ _

/-- The lines of a text are all of it. -/
theorem unlines_lines (text : List Char) : unlines (lines text) = text := by
  induction text with
  | nil => rfl
  | cons c rest ih =>
    by_cases hc : c = '\n'
    · obtain ⟨row, rows, hrows⟩ := List.exists_cons_of_ne_nil (lines_ne_nil rest)
      rw [hc, lines_feed, hrows, unlines, ← hrows, ih]
      · rfl
      · exact List.cons_ne_nil row rows
    · rw [lines_cons hc]
      cases h : lines rest with
      | nil => exact absurd h (lines_ne_nil rest)
      | cons row rows =>
        rw [h] at ih
        rw [pushFirst, ← ih]
        cases rows <;> rfl

/-- A line before a line feed is the first one. -/
theorem lines_append {row : List Char} (hrow : '\n' ∉ row) (rest : List Char) :
    lines (row ++ '\n' :: rest) = row :: lines rest := by
  induction row with
  | nil => rfl
  | cons c row ih =>
    rw [List.mem_cons, not_or] at hrow
    rw [List.cons_append, lines_cons (Ne.symm hrow.1), ih hrow.2, pushFirst]

theorem lines_of_not_mem {row : List Char} (hrow : '\n' ∉ row) : lines row = [row] := by
  induction row with
  | nil => rfl
  | cons c row ih =>
    rw [List.mem_cons, not_or] at hrow
    rw [lines_cons (Ne.symm hrow.1), ih hrow.2, pushFirst]

/-- Lines that all have an end are the lines of their text, and nothing after the last end. -/
theorem lines_flatMap {rows : List (List Char)} (hrows : ∀ row ∈ rows, '\n' ∉ row) :
    lines (rows.flatMap fun row => row ++ ['\n']) = rows ++ [[]] := by
  induction rows with
  | nil => rfl
  | cons row rows ih =>
    rw [List.forall_mem_cons] at hrows
    rw [List.flatMap_cons, List.append_assoc, List.singleton_append, lines_append hrows.1,
      ih hrows.2, List.cons_append]

/-- Lines with line feeds between them are the lines of their text. -/
theorem lines_intercalate {rows : List (List Char)} (hne : rows ≠ [])
    (hrows : ∀ row ∈ rows, '\n' ∉ row) : lines (['\n'].intercalate rows) = rows := by
  induction rows with
  | nil => exact absurd rfl hne
  | cons row rows ih =>
    rw [List.forall_mem_cons] at hrows
    cases rows with
    | nil => rw [List.intercalate_singleton, lines_of_not_mem hrows.1]
    | cons next rows =>
      rw [List.intercalate_cons_cons, List.append_assoc, List.singleton_append,
        lines_append hrows.1, ih (List.cons_ne_nil _ _) hrows.2]

theorem intercalate_append_feed {rows : List (List Char)} (hne : rows ≠ []) :
    ['\n'].intercalate rows ++ ['\n'] = rows.flatMap fun row => row ++ ['\n'] := by
  induction rows with
  | nil => exact absurd rfl hne
  | cons row rows ih =>
    cases rows with
    | nil => simp
    | cons next rows =>
      rw [List.intercalate_cons_cons, List.append_assoc, ih (List.cons_ne_nil _ _)]
      rfl

/-- A text of lines ends as the last of them. -/
theorem getLast?_intercalate (separator : List Char) (front : List (List Char)) {last : List Char}
    (hlast : last ≠ []) : (separator.intercalate (front ++ [last])).getLast? = last.getLast? := by
  induction front with
  | nil => rw [List.nil_append, List.intercalate_singleton]
  | cons row front ih =>
    obtain ⟨next, others, hnext⟩ : ∃ next others, front ++ [last] = next :: others := by
      cases front <;> exact ⟨_, _, rfl⟩
    rw [List.cons_append, hnext, List.intercalate_cons_cons, ← hnext, List.getLast?_append, ih]
    rw [List.getLast?_eq_some_getLast hlast, Option.some_or]

namespace Margin

/-- A line that is empty or does not begin with a blank. -/
def IsFlush (row : List Char) : Prop :=
  ∀ c ∈ row.head?, isIndent c = false

theorem IsFlush.clearBlank_eq {row : List Char} (h : IsFlush row) : clearBlank row = row := by
  cases row with
  | nil => rfl
  | cons c rest => rw [clearBlank, List.all_cons, h c rfl, Bool.false_and, if_neg Bool.false_ne_true]

theorem IsFlush.indentOf_eq {row : List Char} (h : IsFlush row) : indentOf row = [] := by
  cases row with
  | nil => rfl
  | cons c rest => rw [indentOf, List.takeWhile_cons, h c rfl, if_neg Bool.false_ne_true]

/-- Rows without blanks before them have no margin. -/
theorem margin_eq_nil {rows : List (List Char)} (h : ∀ row ∈ rows, IsFlush row) :
    margin rows = [] := by
  unfold margin
  cases hrows : rows.filter fun row => !row.isEmpty with
  | nil => rfl
  | cons first others =>
    have hall : ∀ row ∈ first :: others, indentOf row = [] := by
      intro row hrow
      rw [← hrows] at hrow
      exact (h row (List.mem_of_mem_filter hrow)).indentOf_eq
    rw [List.forall_mem_cons] at hall
    rw [List.map_cons, hall.1]
    dsimp only
    induction others.map indentOf with
    | nil => rfl
    | cons indent indents ih => exact ih

/-- A text without blanks before its lines is left as it is. -/
theorem remove_eq_self {text : List Char} (h : ∀ row ∈ lines text, IsFlush row) :
    remove text = text := by
  have hclear : (lines text).map clearBlank = lines text :=
    (List.map_congr_left fun row hrow => (h row hrow).clearBlank_eq).trans (List.map_id' _)
  rw [remove]
  simp only [hclear, margin_eq_nil h, List.length_nil, List.drop_zero, List.map_id', unlines_lines]

theorem clearBlank_eq_nil_iff (line : List Char) :
    clearBlank line = [] ↔ ∀ c ∈ line, isIndent c = true := by
  rw [← List.all_eq_true, clearBlank]
  by_cases hall : line.all isIndent = true
  · rw [if_pos hall]
    exact iff_of_true rfl hall
  · rw [if_neg hall]
    refine iff_of_false (fun h => hall ?_) hall
    rw [h]
    rfl

theorem clearBlank_eq_self {line : List Char} (h : clearBlank line ≠ []) : clearBlank line = line := by
  unfold clearBlank at h ⊢
  by_cases hall : line.all isIndent = true
  · exact absurd (if_pos hall) h
  · exact if_neg hall

theorem commonStart_begins (as bs : List Char) :
    commonStart as bs <+: as ∧ commonStart as bs <+: bs := by
  fun_induction commonStart as bs with
  | case1 a as b bs hequal ih =>
    obtain rfl := beq_iff_eq.mp hequal
    exact ⟨List.cons_prefix_cons.mpr ⟨rfl, ih.1⟩, List.cons_prefix_cons.mpr ⟨rfl, ih.2⟩⟩
  | case2 => exact ⟨List.nil_prefix, List.nil_prefix⟩
  | case3 => exact ⟨List.nil_prefix, List.nil_prefix⟩

/-- What texts share begins each of them. -/
theorem foldl_commonStart_begins (first : List Char) (others : List (List Char)) :
    ∀ text ∈ first :: others, others.foldl commonStart first <+: text := by
  induction others generalizing first with
  | nil => simp
  | cons next others ih =>
    have hshared := ih (commonStart first next)
    rw [List.forall_mem_cons] at hshared
    rw [List.forall_mem_cons, List.forall_mem_cons, List.foldl_cons]
    exact ⟨hshared.1.trans (commonStart_begins first next).1,
      hshared.1.trans (commonStart_begins first next).2, hshared.2⟩

/-- The margin begins the blanks of every line that has text. -/
theorem margin_begins {rows : List (List Char)} {row : List Char} (hrow : row ∈ rows)
    (hne : row ≠ []) : margin rows <+: indentOf row := by
  have hmem : indentOf row ∈ (rows.filter fun line => !line.isEmpty).map indentOf := by
    refine List.mem_map_of_mem (List.mem_filter.mpr ⟨hrow, ?_⟩)
    simpa using hne
  unfold margin
  cases hindents : (rows.filter fun line => !line.isEmpty).map indentOf with
  | nil =>
    rw [hindents] at hmem
    cases hmem
  | cons first others =>
    rw [hindents] at hmem
    exact foldl_commonStart_begins first others _ hmem

theorem begins_commonStart {start as bs : List Char} (has : start <+: as) (hbs : start <+: bs) :
    start <+: commonStart as bs := by
  fun_induction commonStart as bs generalizing start with
  | case1 a as b bs hequal ih =>
    cases start with
    | nil => exact List.nil_prefix
    | cons c start =>
      rw [List.cons_prefix_cons] at has hbs ⊢
      exact ⟨has.1, ih has.2 hbs.2⟩
  | case2 a as b bs hdiffer =>
    cases start with
    | nil => exact List.nil_prefix
    | cons c start =>
      rw [List.cons_prefix_cons] at has hbs
      exact absurd (beq_iff_eq.mpr (has.1.symm.trans hbs.1)) hdiffer
  | case3 as bs hempty =>
    cases as with
    | nil => exact has
    | cons a as =>
      cases bs with
      | nil => exact hbs
      | cons b bs => exact absurd rfl (hempty a as b bs rfl)

/-- What begins the blanks of all lines that have text begins their margin. -/
theorem begins_margin {rows : List (List Char)} {start : List Char}
    (hrows : ∀ row ∈ rows, row ≠ [] → start <+: indentOf row) {row : List Char} (hrow : row ∈ rows)
    (hne : row ≠ []) : start <+: margin rows := by
  have hindents : ∀ indent ∈ (rows.filter fun line => !line.isEmpty).map indentOf, start <+: indent := by
    intro indent hindent
    obtain ⟨line, hline, rfl⟩ := List.mem_map.mp hindent
    rw [List.mem_filter] at hline
    exact hrows line hline.1 (by simpa using hline.2)
  have hmem : row ∈ rows.filter fun line => !line.isEmpty :=
    List.mem_filter.mpr ⟨hrow, by simpa using hne⟩
  unfold margin
  cases hall : (rows.filter fun line => !line.isEmpty).map indentOf with
  | nil =>
    rw [List.map_eq_nil_iff.mp hall] at hmem
    cases hmem
  | cons first others =>
    rw [hall, List.forall_mem_cons] at hindents
    obtain ⟨hfirst, hothers⟩ := hindents
    dsimp only
    clear hall
    induction others generalizing first with
    | nil => exact hfirst
    | cons next others ih =>
      rw [List.forall_mem_cons] at hothers
      exact ih _ (begins_commonStart hfirst hothers.1) hothers.2

/-- The margin is the indentation of a line with which all others begin. -/
theorem margin_eq_indentOf {rows : List (List Char)} {row : List Char} (hrow : row ∈ rows)
    (hne : row ≠ []) (hrows : ∀ other ∈ rows, other ≠ [] → indentOf row <+: indentOf other) :
    margin rows = indentOf row :=
  (margin_begins hrow hne).eq_of_length_le (begins_margin hrows hrow hne).length_le

/-- A character of a line that is no blank stays when a margin is removed. -/
theorem mem_drop_margin {rows : List (List Char)} {row : List Char} (hrow : row ∈ rows) {c : Char}
    (hc : isIndent c = false) (hmem : c ∈ row) : c ∈ row.drop (margin rows).length := by
  have hwidth : (margin rows).length ≤ (indentOf row).length :=
    (margin_begins hrow (List.ne_nil_of_mem hmem)).length_le
  have hsplit : indentOf row ++ row.dropWhile isIndent = row := List.takeWhile_append_dropWhile
  have hrest : c ∈ row.dropWhile isIndent := by
    rw [← hsplit, List.mem_append] at hmem
    refine hmem.resolve_left fun hindent => ?_
    have hblank := List.mem_takeWhile_imp hindent
    rw [hc] at hblank
    cases hblank
  rw [← hsplit, List.drop_append_of_le_length hwidth]
  exact List.mem_append_right _ hrest

theorem mem_unlines_iff {c : Char} (hc : c ≠ '\n') (rows : List (List Char)) :
    c ∈ unlines rows ↔ ∃ row ∈ rows, c ∈ row := by
  fun_induction unlines rows with
  | case1 => simp
  | case2 line => simp
  | case3 line others _ ih => simp [ih, hc]

/-- Removing the margin of a text takes nothing but blanks from it. -/
theorem mem_remove_iff {c : Char} (hfeed : c ≠ '\n') (hc : isIndent c = false) (text : List Char) :
    c ∈ remove text ↔ c ∈ text := by
  have hrow (row : List Char) (hrow : row ∈ lines text) :
      c ∈ (clearBlank row).drop (margin ((lines text).map clearBlank)).length ↔ c ∈ row := by
    constructor
    · intro hmem
      have hclear := List.mem_of_mem_drop hmem
      unfold clearBlank at hclear
      split at hclear
      · cases hclear
      · exact hclear
    · intro hmem
      have hkept : clearBlank row = row := by
        unfold clearBlank
        rw [if_neg]
        intro hall
        have hblank := List.all_eq_true.mp hall c hmem
        rw [hc] at hblank
        cases hblank
      refine mem_drop_margin (List.mem_map_of_mem hrow) hc ?_
      rwa [hkept]
  have htext : c ∈ text ↔ ∃ row ∈ lines text, c ∈ row := by
    rw [← mem_unlines_iff hfeed, unlines_lines]
  simp only [remove, htext, mem_unlines_iff hfeed, List.mem_map, exists_exists_and_eq_and]
  exact exists_congr fun row => and_congr_right (hrow row)

end Margin

end TableAudit.Text
