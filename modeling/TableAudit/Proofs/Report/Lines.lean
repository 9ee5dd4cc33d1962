import TableAudit.Proofs.Report.Listing
import TableAudit.Proofs.Text.Unbroken

namespace TableAudit

open Text

namespace Report

theorem unbroken_plain (line : Line) :
    Unbroken (Line.plain line) ↔ ∀ fragment ∈ line, Unbroken fragment.text := by
  rw [Line.plain, unbroken_join, List.forall_mem_map]

/-- The lines of a text that is made of lines: those of each of them, and an empty one at the end. -/
theorem lines_plainText (ls : List Line) :
    lines (plainText ls).toList =
      (ls.map fun line => (Line.plain line).toList).flatMap lines ++ [[]] := by
  rw [← lines_flatMap_feed, plainText, String.toList_join, List.flatMap_map, List.flatMap_map]
  simp only [String.toList_append]
  rfl

theorem length_lines_plainText_iff (ls : List Line) :
    (lines (plainText ls).toList).length = ls.length + 1 ↔
      ∀ line ∈ ls, Unbroken (Line.plain line) := by
  have hrows := length_flatMap_lines_iff (ls.map fun line => (Line.plain line).toList)
  rw [List.length_map, List.forall_mem_map] at hrows
  rw [lines_plainText, List.length_append, List.length_singleton, Nat.add_right_cancel_iff]
  exact hrows

theorem lines_plainText_of_unbroken {ls : List Line}
    (h : ∀ line ∈ ls, Unbroken (Line.plain line)) :
    lines (plainText ls).toList = (ls.map Line.plain).map String.toList ++ [[]] := by
  have hrows : ∀ row ∈ (ls.map Line.plain).map String.toList, '\n' ∉ row := by
    rw [List.forall_mem_map, List.forall_mem_map]
    exact h
  rw [← lines_flatMap hrows, plainText, String.toList_join]
  simp only [List.flatMap_map, String.toList_append]
  rfl

/-- The values of a row, and the names of their columns, stay on one line. -/
def RowUnbroken (failure : Int × RowValues) : Prop :=
  ∀ value ∈ failure.2.entries, Unbroken value.1 ∧ Unbroken value.2.display

theorem unbroken_failureLine (failure : Int × RowValues) :
    Unbroken (Line.plain (failureLine failure)) ↔ RowUnbroken failure := by
  have hequals : Unbroken "=" := by decide
  have hrow : Unbroken ("   Row " ++ toString failure.1 ++ ": ") := by
    simp only [unbroken_append, unbroken_toString_int, and_true]
    decide
  rw [unbroken_plain, failureLine, plainLine, List.forall_mem_singleton, unbroken_append,
    and_iff_right hrow, valuesText, unbroken_joinWith (by decide), List.forall_mem_map]
  simp only [unbroken_append, hequals, and_true, RowUnbroken]

theorem unbroken_hiddenLine (hidden : Int) : Unbroken (Line.plain (hiddenLine hidden)) := by
  rw [unbroken_plain, hiddenLine, List.forall_mem_singleton]
  simp only [unbroken_append, unbroken_toString_int, and_true]
  decide

theorem unbroken_statusLine (name : String) (outcome : Outcome) :
    Unbroken (Line.plain (statusLine name outcome)) ↔
      Unbroken name ∧ Unbroken outcome.message := by
  have hglyph : Unbroken (statusGlyph outcome) := by
    unfold statusGlyph
    split <;> decide
  have hblank : Unbroken " " := by decide
  have hcolon : Unbroken ": " := by decide
  simp [unbroken_plain, statusLine, hglyph, hblank, hcolon]

theorem Excerpt.unbroken_lines_iff (excerpt : Excerpt) :
    (∀ line ∈ excerpt.lines, Unbroken (Line.plain line)) ↔
      ∀ failure ∈ excerpt.listed, RowUnbroken failure := by
  have hhidden : ∀ line ∈ (if excerpt.hidden = 0 then [] else [hiddenLine excerpt.hidden]),
      Unbroken (Line.plain line) := by
    split
    · exact List.forall_mem_nil _
    · rw [List.forall_mem_singleton]
      exact unbroken_hiddenLine _
  rw [Excerpt.lines, List.forall_mem_append, List.forall_mem_append, and_iff_left hhidden,
    List.forall_mem_map, List.forall_mem_map, Excerpt.listed, List.forall_mem_append]
  simp only [unbroken_failureLine]

/-- The lines about a check stay lines if its name, its message and what is listed of it do. -/
theorem unbroken_outcomeLines_iff {preview : Nat} (hroom : 0 < preview) (name : String)
    (outcome : Outcome) :
    (∀ line ∈ outcomeLines preview name outcome, Unbroken (Line.plain line)) ↔
      (Unbroken name ∧ Unbroken outcome.message) ∧
        (outcome.passed = false →
          ∀ failure ∈ (Excerpt.of preview outcome.failures).listed, RowUnbroken failure) := by
  rw [outcomeLines, List.forall_mem_cons, unbroken_statusLine]
  refine and_congr_right fun _ => ?_
  cases hpassed : outcome.passed with
  | true => simp
  | false =>
    rw [← Excerpt.unbroken_lines_iff, ← Excerpt.failureLines_eq_lines_of hroom]
    simp [Outcome.failures]

theorem unbroken_headingLines (summary : Summary) :
    (∀ line ∈ headingLines summary, Unbroken (Line.plain line)) ↔ Unbroken summary.name := by
  have hrule : Unbroken rule := by decide
  have htitle : Unbroken "Check Summary: " := by decide
  simp [headingLines, unbroken_plain, plainLine, hrule, htitle]

theorem unbroken_totalLines (summary : Summary) :
    ∀ line ∈ totalLines summary, Unbroken (Line.plain line) := by
  simp only [totalLines, List.forall_mem_cons, unbroken_plain, plainLine, unbroken_append,
    unbroken_toString_nat, unbroken_rate, unbroken_fixed, and_true]
  decide

end Report

/-- What a report shows of a summary has no line feed: the name of the check set, the names and
    messages of the checks, and the columns and values of the failing rows that are listed. -/
structure Summary.ShowsUnbroken (preview : Nat) (summary : Summary) : Prop where
  title : Unbroken summary.name
  checks : ∀ entry ∈ summary.outcomes.entries, Unbroken entry.1 ∧ Unbroken entry.2.message
  rows : ∀ entry ∈ summary.outcomes.entries, entry.2.passed = false →
    ∀ failure ∈ (Report.Excerpt.of preview entry.2.failures).listed, Report.RowUnbroken failure

namespace Report

theorem unbroken_summaryLines_iff {preview : Nat} (hroom : 0 < preview) (summary : Summary) :
    (∀ line ∈ summaryLines preview summary, Unbroken (Line.plain line)) ↔
      summary.ShowsUnbroken preview := by
  rw [summaryLines, List.forall_mem_append, List.forall_mem_append, unbroken_headingLines,
    and_iff_left (unbroken_totalLines summary), List.forall_mem_flatMap]
  simp only [unbroken_outcomeLines_iff hroom, Summary.mem_ordered_iff]
  constructor
  · rintro ⟨htitle, hchecks⟩
    exact ⟨htitle, fun entry h => (hchecks entry h).1, fun entry h => (hchecks entry h).2⟩
  · rintro ⟨htitle, hchecks, hrows⟩
    exact ⟨htitle, fun entry h => ⟨hchecks entry h, hrows entry h⟩⟩

/-- The rows of text about one check: a row with its status, its name and its message, and after it
    what is listed of its failing rows if it failed. -/
inductive Shows (preview : Nat) (name : String) (outcome : Outcome) : List String → Prop
  | passed (hpassed : outcome.passed = true) :
      Shows preview name outcome [passGlyph ++ " " ++ name ++ ": " ++ outcome.message]
  | failed {excerpt : Excerpt} (hfailed : outcome.passed = false)
      (hfits : excerpt.Fits preview outcome) :
      Shows preview name outcome
        ((failGlyph ++ " " ++ name ++ ": " ++ outcome.message) :: excerpt.lines.map Line.plain)

/-- Whether a row of text begins with a glyph. -/
def beginsWith (glyph row : String) : Bool :=
  glyph.toList.isPrefixOf row.toList

/-- Whether a row of text says whether a check passed. -/
def tellsStatus (row : String) : Bool :=
  beginsWith passGlyph row || beginsWith failGlyph row

/-- Rows of text are a report: four rows with the name of the check set, those about each check in
    the order of reports, and four rows with what they add up to. What is counted there are the rows
    that tell a status, and those of them that tell that a check passed. -/
inductive LaidOut (preview : Nat) (summary : Summary) : List String → Prop
  | of {blocks : List (List String)} {rows : List String} {passed total : Nat}
      (hblocks : List.Forall₂ (fun entry block => Shows preview entry.1 entry.2 block)
        summary.ordered blocks)
      (hrows : rows = [rule, "Check Summary: " ++ summary.name, rule, ""] ++ blocks.flatten ++
        ["", "Summary:",
          " " ++ toString passed ++ "/" ++ toString total ++ " checks passed (" ++
            (checkRate passed total).text ++ "%)",
          "Checks completed in " ++ Decimal.fixed 2 summary.elapsed ++ " seconds"])
      (hpassed : passed = rows.countP (beginsWith passGlyph))
      (htotal : total = rows.countP tellsStatus) : LaidOut preview summary rows

/-- How many rows of text there are about one check. -/
def blockHeight (preview : Nat) (outcome : Outcome) : Nat :=
  1 + if outcome.passed then 0 else min outcome.failureCount (2 * preview + 1)

/-- How many rows of text a report has. -/
def reportHeight (preview : Nat) (summary : Summary) : Nat :=
  8 + (summary.outcomes.values.map (blockHeight preview)).sum

section Counting

variable {preview : Nat} {name : String} {outcome : Outcome} {block : List String}

theorem Excerpt.Fits.length_lines {excerpt : Excerpt} (h : excerpt.Fits preview outcome) :
    excerpt.lines.length = min outcome.failureCount (2 * preview + 1) := by
  rw [Excerpt.lines, List.length_append, List.length_append, List.length_map, List.length_map]
  rcases Nat.lt_or_ge (2 * preview) outcome.failureCount with hmany | hfew
  · obtain ⟨hfirst, hlast, hhidden, -⟩ := h.ends hmany
    rw [hfirst, hlast, if_neg (by omega), List.length_singleton]
    omega
  · obtain ⟨hall, hhidden⟩ := h.whole hfew
    have hlength := congrArg List.length hall
    rw [Excerpt.listed, List.length_append, outcome.length_failures] at hlength
    rw [if_pos hhidden, List.length_nil]
    omega

theorem Shows.length_eq (h : Shows preview name outcome block) :
    block.length = blockHeight preview outcome := by
  cases h with
  | passed hpassed => simp [blockHeight, hpassed]
  | failed hfailed hfits =>
    rw [List.length_cons, List.length_map, hfits.length_lines, blockHeight, hfailed]
    simp [Nat.add_comm]

/-- Only the beginning of a row matters for whether it begins with a glyph. -/
theorem beginsWith_append {glyph front : String}
    (h : glyph.toList.length ≤ front.toList.length) (rest : String) :
    beginsWith glyph (front ++ rest) = beginsWith glyph front := by
  rw [Bool.eq_iff_iff, beginsWith, beginsWith, List.isPrefixOf_iff_prefix,
    List.isPrefixOf_iff_prefix, String.toList_append]
  have hfront := List.prefix_append front.toList rest.toList
  exact ⟨fun hglyph => List.prefix_of_prefix_length_le hglyph hfront h,
    fun hglyph => hglyph.trans hfront⟩

theorem tellsStatus_append {front : String} (h : 1 ≤ front.toList.length) (rest : String) :
    tellsStatus (front ++ rest) = tellsStatus front := by
  have hpass : passGlyph.toList.length ≤ front.toList.length := h
  have hfail : failGlyph.toList.length ≤ front.toList.length := h
  rw [tellsStatus, tellsStatus, beginsWith_append hpass, beginsWith_append hfail]

theorem beginsWith_of_not_tellsStatus {row : String} (h : tellsStatus row = false) :
    beginsWith passGlyph row = false :=
  (Bool.or_eq_false_iff.mp h).1

theorem not_tellsStatus_failureLine (failure : Int × RowValues) :
    tellsStatus (Line.plain (failureLine failure)) = false := by
  have hplain : Line.plain (failureLine failure) =
      "   Row " ++ (toString failure.1 ++ ": " ++ valuesText failure.2) := by
    simp [Line.plain, failureLine, plainLine, String.join, String.append_assoc]
  rw [hplain, tellsStatus_append (by decide)]
  decide

theorem not_tellsStatus_hiddenLine (hidden : Int) :
    tellsStatus (Line.plain (hiddenLine hidden)) = false := by
  have hplain : Line.plain (hiddenLine hidden) =
      "   ... " ++ (toString hidden ++ " more failures ...") := by
    simp [Line.plain, hiddenLine, String.join, String.append_assoc]
  rw [hplain, tellsStatus_append (by decide)]
  decide

/-- What is listed of failing rows tells no status. -/
theorem Excerpt.not_tellsStatus (excerpt : Excerpt) :
    ∀ row ∈ excerpt.lines.map Line.plain, tellsStatus row = false := by
  intro row hrow
  obtain ⟨line, hline, rfl⟩ := List.mem_map.mp hrow
  rw [Excerpt.lines, List.mem_append, List.mem_append, List.mem_map, List.mem_map] at hline
  rcases hline with (⟨failure, -, rfl⟩ | hhidden) | ⟨failure, -, rfl⟩
  · exact not_tellsStatus_failureLine failure
  · split at hhidden
    · cases hhidden
    · rw [List.mem_singleton.mp hhidden]
      exact not_tellsStatus_hiddenLine _
  · exact not_tellsStatus_failureLine failure

theorem not_tellsStatus_heading (title : String) :
    ∀ row ∈ [rule, "Check Summary: " ++ title, rule, ""], tellsStatus row = false := by
  simp only [List.forall_mem_cons,
    tellsStatus_append (by decide : 1 ≤ "Check Summary: ".toList.length)]
  decide

theorem not_tellsStatus_total (counts elapsed : String) :
    ∀ row ∈ ["", "Summary:", " " ++ counts, "Checks completed in " ++ elapsed],
      tellsStatus row = false := by
  simp only [List.forall_mem_cons, tellsStatus_append (by decide : 1 ≤ " ".toList.length),
    tellsStatus_append (by decide : 1 ≤ "Checks completed in ".toList.length)]
  decide

section Counted

-- what is counted are the rows that tell a status, or those of them that tell that a check passed
variable {counted : String → Bool} (hcounted : ∀ row, tellsStatus row = false → counted row = false)

include hcounted

theorem countP_eq_zero_of_not_tellsStatus {rows : List String}
    (h : ∀ row ∈ rows, tellsStatus row = false) : rows.countP counted = 0 := by
  rw [List.countP_eq_zero]
  intro row hrow
  rw [hcounted row (h row hrow)]
  exact Bool.false_ne_true

theorem countP_between {before between after : List String}
    (hbefore : ∀ row ∈ before, tellsStatus row = false)
    (hafter : ∀ row ∈ after, tellsStatus row = false) :
    (before ++ between ++ after).countP counted = between.countP counted := by
  rw [List.countP_append, List.countP_append, countP_eq_zero_of_not_tellsStatus hcounted hbefore,
    countP_eq_zero_of_not_tellsStatus hcounted hafter, Nat.zero_add, Nat.add_zero]

end Counted

/-- Of the rows about a check one tells its status. -/
theorem Shows.countP_eq (h : Shows preview name outcome block) :
    block.countP (beginsWith passGlyph) = (if outcome.passed then 1 else 0) ∧
      block.countP tellsStatus = 1 := by
  have hpass (rest : String) : beginsWith passGlyph (passGlyph ++ rest) = true ∧
      tellsStatus (passGlyph ++ rest) = true := by
    rw [beginsWith_append le_rfl, tellsStatus_append (by decide)]
    decide
  have hfail (rest : String) : beginsWith passGlyph (failGlyph ++ rest) = false ∧
      tellsStatus (failGlyph ++ rest) = true := by
    rw [beginsWith_append (by decide), tellsStatus_append (by decide)]
    decide
  cases h with
  | passed hpassed =>
    simp only [String.append_assoc, hpassed]
    simp [hpass]
  | @failed excerpt hfailed hfits =>
    have hlisted := excerpt.not_tellsStatus
    rw [List.countP_cons, List.countP_cons, hfailed,
      countP_eq_zero_of_not_tellsStatus (fun _ => beginsWith_of_not_tellsStatus) hlisted,
      countP_eq_zero_of_not_tellsStatus (fun _ => id) hlisted]
    simp only [String.append_assoc, hfail]
    simp

variable {entries : List (String × Outcome)} {blocks : List (List String)}

/-- The rows about checks, by what they are about. -/
theorem length_flatten_of_shows
    (h : List.Forall₂ (fun entry block => Shows preview entry.1 entry.2 block) entries blocks) :
    blocks.flatten.length = (entries.map fun entry => blockHeight preview entry.2).sum := by
  induction h with
  | nil => rfl
  | cons hfirst _ ih =>
    rw [List.flatten_cons, List.length_append, ih, hfirst.length_eq, List.map_cons, List.sum_cons]

theorem countP_flatten_of_shows
    (h : List.Forall₂ (fun entry block => Shows preview entry.1 entry.2 block) entries blocks) :
    blocks.flatten.countP (beginsWith passGlyph) = entries.countP (fun entry => entry.2.passed) ∧
      blocks.flatten.countP tellsStatus = entries.length := by
  induction h with
  | nil => exact ⟨rfl, rfl⟩
  | cons hfirst _ ih =>
    obtain ⟨hpassed, htotal⟩ := hfirst.countP_eq
    rw [List.flatten_cons, List.countP_append, List.countP_append, ih.1, ih.2, hpassed, htotal,
      List.countP_cons, List.length_cons]
    exact ⟨Nat.add_comm _ _, Nat.add_comm _ _⟩

end Counting

theorem perm_ordered (summary : Summary) : summary.ordered.Perm summary.outcomes.entries :=
  List.mergeSort_perm _ _

theorem shows_outcomeLines {preview : Nat} (hroom : 0 < preview) (name : String)
    (outcome : Outcome) :
    Shows preview name outcome ((outcomeLines preview name outcome).map Line.plain) := by
  have hstatus : Line.plain (statusLine name outcome) =
      statusGlyph outcome ++ " " ++ name ++ ": " ++ outcome.message := by
    simp [Line.plain, statusLine, String.join, String.append_assoc]
  rw [outcomeLines, List.map_cons, hstatus, statusGlyph]
  cases hpassed : outcome.passed with
  | true => exact .passed hpassed
  | false =>
    have hlines : failureLines preview (outcome.rows.zip outcome.values) =
        (Excerpt.of preview outcome.failures).lines := Excerpt.failureLines_eq_lines_of hroom
    rw [if_neg Bool.false_ne_true, if_neg Bool.false_ne_true, hlines]
    exact .failed hpassed (Excerpt.fits_of preview outcome)

theorem LaidOut.length_eq {preview : Nat} {summary : Summary} {rows : List String}
    (h : LaidOut preview summary rows) : rows.length = reportHeight preview summary := by
  cases h with
  | of hblocks hrows _ _ =>
    have hperm := ((perm_ordered summary).map fun entry => blockHeight preview entry.2).sum_eq
    rw [hrows, List.length_append, List.length_append, length_flatten_of_shows hblocks, hperm,
      reportHeight, Labelled.values, List.map_map]
    simp only [List.length_cons, List.length_nil, Function.comp_def]
    omega

/-- The layout of a report is as it should be. -/
theorem laidOut_summaryLines {preview : Nat} (hroom : 0 < preview) (summary : Summary) :
    LaidOut preview summary ((summaryLines preview summary).map Line.plain) := by
  have hblocks : List.Forall₂ (fun entry block => Shows preview entry.1 entry.2 block)
      summary.ordered
      (summary.ordered.map fun entry => (outcomeLines preview entry.1 entry.2).map Line.plain) := by
    rw [List.forall₂_map_right_iff, List.forall₂_same]
    exact fun entry _ => shows_outcomeLines hroom entry.1 entry.2
  have hrows : (summaryLines preview summary).map Line.plain =
      [rule, "Check Summary: " ++ summary.name, rule, ""] ++
        (summary.ordered.map fun entry =>
          (outcomeLines preview entry.1 entry.2).map Line.plain).flatten ++
        ["", "Summary:",
          " " ++ toString summary.passedCount ++ "/" ++ toString summary.outcomes.size ++
            " checks passed (" ++
            (checkRate summary.passedCount summary.outcomes.size).text ++ "%)",
          "Checks completed in " ++ Decimal.fixed 2 summary.elapsed ++ " seconds"] := by
    rw [summaryLines, List.map_append, List.map_append, List.map_flatMap, ← List.flatMap_def]
    simp [headingLines, totalLines, plainLine, Line.plain, String.join]
  obtain ⟨hpassed, htotal⟩ := countP_flatten_of_shows hblocks
  refine .of hblocks hrows ?_ ?_
  · rw [hrows]
    simp only [String.append_assoc]
    rw [countP_between (fun _ => beginsWith_of_not_tellsStatus) (not_tellsStatus_heading _)
      (not_tellsStatus_total _ _), hpassed, (perm_ordered summary).countP_eq, Summary.passedCount,
      Labelled.values, List.countP_map]
    rfl
  · rw [hrows]
    simp only [String.append_assoc]
    rw [countP_between (fun _ => id) (not_tellsStatus_heading _)
      (not_tellsStatus_total _ _), htotal, (perm_ordered summary).length_eq, Labelled.size]

end Report

namespace Summary

open Report

/-- The text of a report has as many rows as the statuses and the numbers of failing rows call for
    exactly if nothing that it shows has a line feed. -/
theorem length_lines_report_iff {preview : Nat} (hroom : 0 < preview) (summary : Summary) :
    (lines (summary.report preview).toList).length = reportHeight preview summary + 1 ↔
      summary.ShowsUnbroken preview := by
  have hheight : (summaryLines preview summary).length = reportHeight preview summary := by
    rw [← (laidOut_summaryLines hroom summary).length_eq, List.length_map]
  rw [← unbroken_summaryLines_iff hroom, ← hheight]
  exact length_lines_plainText_iff _

theorem exists_laidOut_report_iff {preview : Nat} (hroom : 0 < preview) (summary : Summary) :
    (∃ rows, LaidOut preview summary rows ∧
      lines (summary.report preview).toList = rows.map String.toList ++ [[]]) ↔
        summary.ShowsUnbroken preview := by
  constructor
  · rintro ⟨rows, hrows, hlines⟩
    rw [← length_lines_report_iff hroom, hlines, List.length_append, List.length_map,
      hrows.length_eq, List.length_singleton]
  · intro hshown
    exact ⟨_, laidOut_summaryLines hroom summary,
      lines_plainText_of_unbroken ((unbroken_summaryLines_iff hroom summary).mpr hshown)⟩

/-- The text of a report, parted at its line feeds, is laid out as it should be exactly if nothing
    that it shows has a line feed of its own; and exactly then the number of its rows is the one that
    the statuses and the numbers of failing rows call for. -/
theorem report_laidOut_iff {preview : Nat} (hroom : 0 < preview) (summary : Summary) :
    ((∃ rows, LaidOut preview summary rows ∧
      lines (summary.report preview).toList = rows.map String.toList ++ [[]]) ↔
        summary.ShowsUnbroken preview) ∧
    ((lines (summary.report preview).toList).length = reportHeight preview summary + 1 ↔
      summary.ShowsUnbroken preview) :=
  ⟨exists_laidOut_report_iff hroom summary, length_lines_report_iff hroom summary⟩

/-- A report on a check that passed and one that failed on a row whose value is a text. -/
theorem report_laidOut_iff_two :
    let failed : Outcome :=
      ⟨false, [2], [⟨[("x", .text "b")], by decide⟩], "1 rows failed", 2, by decide, by decide⟩
    let passed : Outcome := ⟨true, [], [], "All rows passed", 2, by decide, by decide⟩
    let summary : Summary := ⟨"set", ⟨[("first", passed), ("second", failed)], by decide⟩, 0⟩
    0 < 1 ∧ ∃ rows, LaidOut 1 summary rows ∧
      lines (summary.report 1).toList = rows.map String.toList ++ [[]] := by
  intro failed passed summary
  refine ⟨Nat.one_pos, (report_laidOut_iff Nat.one_pos summary).1.mpr ⟨by decide, ?_, ?_⟩⟩
  · simp only [summary, List.forall_mem_cons]
    decide
  · simp only [summary, List.forall_mem_cons, passed, failed]
    refine ⟨fun hfails => absurd hfails.symm Bool.false_ne_true,
      fun _ failure hfailure value hvalue => ?_, List.forall_mem_nil _⟩
    obtain rfl := List.mem_singleton.mp hfailure
    obtain rfl := List.mem_singleton.mp hvalue
    decide

/-- A check whose name goes on with another line that tells a status. -/
theorem report_laidOut_forged :
    let passed : Outcome := ⟨true, [], [], "All rows passed", 1, by decide, by decide⟩
    let summary : Summary := ⟨"set", ⟨[("a\n✓ b", passed)], by decide⟩, 0⟩
    summary.outcomes.size = 1 ∧ "✓ a".toList ∈ lines (summary.report 5).toList ∧
      "✓ b: All rows passed".toList ∈ lines (summary.report 5).toList ∧
      ¬ ∃ rows, LaidOut 5 summary rows ∧
        lines (summary.report 5).toList = rows.map String.toList ++ [[]] := by
  intro passed summary
  have hordered : summary.ordered = [("a\n✓ b", passed)] := List.mergeSort_singleton _
  have hstatus : statusLine "a\n✓ b" passed ∈ summaryLines 5 summary := by
    simp [summaryLines, hordered, outcomeLines, passed]
  have hshown : ∀ row ∈ lines (Line.plain (statusLine "a\n✓ b" passed)).toList,
      row ∈ lines (summary.report 5).toList := by
    intro row hrow
    refine lines_plainText _ ▸ List.mem_append_left _ ?_
    exact List.mem_flatMap.mpr ⟨_, List.mem_map_of_mem hstatus, hrow⟩
  refine ⟨rfl, hshown _ (by decide), hshown _ (by decide), fun h => ?_⟩
  have hnames := ((exists_laidOut_report_iff (Nat.succ_pos 4) summary).mp h).checks _ (.head _)
  exact absurd hnames.1 (by decide)

end Summary

end TableAudit
