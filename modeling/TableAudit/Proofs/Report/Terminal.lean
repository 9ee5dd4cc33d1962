import TableAudit.Proofs.Text.Rows
import TableAudit.Report.Console

namespace TableAudit

namespace Report

open Text (lines unlines)

/-- A text that is the same without the controls has none. -/
theorem kept_eq_self_iff {text : List Char} :
    kept text = text ↔ ∀ c ∈ text, isDropped c = false := by
  simp [kept, List.filter_eq_self]

theorem kept_append (first rest : List Char) : kept (first ++ rest) = kept first ++ kept rest :=
  List.filter_append ..

theorem kept_feed (rest : List Char) : kept ('\n' :: rest) = '\n' :: kept rest :=
  rfl

namespace Expands

variable {text shown : List Char}

theorem append (h : Expands text shown) {more others : List Char} (hmore : Expands more others) :
    Expands (text ++ more) (shown ++ others) := by
  induction h with
  | nil => exact hmore
  | other hc _ ih => exact .other hc ih
  | tab hblanks _ ih =>
    rw [List.append_assoc]
    exact .tab hblanks ih

/-- No tab is ever shown. -/
theorem tab_not_mem (h : Expands text shown) : '\t' ∉ shown := by
  induction h with
  | nil => exact List.not_mem_nil
  | other hc _ ih => exact fun hmem => (List.mem_cons.mp hmem).elim (fun heq => hc heq.symm) ih
  | tab _ _ ih =>
    rw [List.mem_append, not_or]
    exact ⟨fun hmem => absurd (List.eq_of_mem_replicate hmem) (by decide), ih⟩

theorem eq_of_not_mem (h : Expands text shown) (htab : '\t' ∉ text) : shown = text := by
  induction h with
  | nil => rfl
  | other _ _ ih => rw [ih (List.not_mem_of_not_mem_cons htab)]
  | tab => exact absurd List.mem_cons_self htab

/-- Nothing but the controls and the tabs of a text keeps it from being shown as it is. -/
theorem eq_iff (h : Expands (kept text) shown) :
    shown = text ↔ ∀ c ∈ text, isDropped c = false ∧ c ≠ '\t' := by
  constructor
  · rintro rfl c hc
    -- no tab is ever shown, so blanks cannot make up for what was dropped
    have htab := h.tab_not_mem
    have hkept := h.eq_of_not_mem fun hmem => htab (List.mem_filter.mp hmem).1
    exact ⟨kept_eq_self_iff.mp hkept.symm c hc, fun heq => htab (heq ▸ hc)⟩
  · intro hnone
    have hkept := kept_eq_self_iff.mpr fun c hc => (hnone c hc).1
    rw [hkept] at h
    exact h.eq_of_not_mem fun htab => (hnone _ htab).2 rfl

end Expands

/-- Whatever the width of a console, lines are printed as their plain text is, without the controls
    and with blanks in place of the tabs. -/
theorem Terminal.Documented.expands_printed {terminal : Terminal} (h : terminal.Documented)
    (width : Nat) (ls : List Line) : ∃ shown,
      Expands (kept (plainText ls).toList) shown ∧
        printed terminal width ls = String.ofList shown := by
  induction ls with
  | nil => exact ⟨[], .nil, rfl⟩
  | cons line rest ih =>
    obtain ⟨shown, hshown, hline⟩ := h.print_eq width (terminal.assemble line)
    obtain ⟨others, hothers, hrest⟩ := ih
    rw [h.plain_assemble] at hshown
    have hplain : (plainText (line :: rest)).toList =
        (Line.plain line).toList ++ '\n' :: (plainText rest).toList := by
      simp [plainText, String.toList_join]
    have hprinted : printed terminal width (line :: rest) =
        terminal.print width (terminal.assemble line) ++ printed terminal width rest := by
      simp [printed]
    refine ⟨shown ++ '\n' :: others, ?_, ?_⟩
    · rw [hplain, kept_append, kept_feed]
      exact hshown.append (.other (by decide) hothers)
    · rw [hprinted, hline, hrest]
      exact String.toList_injective (by simp)

/-- The cell after a character. A line feed goes back to the first cell, and a tab on to the next
    stop. -/
def cellAfter (cell : Nat) (c : Char) : Nat :=
  if c = '\n' then 0 else if c = '\t' then nextStop cell else cell + Text.width c

/-- A text that begins at a cell, with blanks up to the next stop in place of each tab. -/
def untabbed : Nat → List Char → List Char
  | _, [] => []
  | cell, c :: rest =>
    (if c = '\t' then List.replicate (nextStop cell - cell) ' ' else [c]) ++
      untabbed (cellAfter cell c) rest

theorem untabbed_feed (cell : Nat) (rest : List Char) :
    untabbed cell ('\n' :: rest) = '\n' :: untabbed 0 rest :=
  rfl

theorem untabbed_append (cell : Nat) (first rest : List Char) :
    untabbed cell (first ++ rest) =
      untabbed cell first ++ untabbed (first.foldl cellAfter cell) rest := by
  induction first generalizing cell with
  | nil => rfl
  | cons c first ih =>
    rw [List.cons_append, untabbed, untabbed, ih, List.append_assoc, List.foldl_cons]

theorem nextStop_gt (cell : Nat) : cell < nextStop cell := by
  unfold nextStop
  omega

theorem expands_untabbed (cell : Nat) (text : List Char) : Expands text (untabbed cell text) := by
  induction text generalizing cell with
  | nil => exact .nil
  | cons c rest ih =>
    rw [untabbed]
    by_cases hc : c = '\t'
    · rw [if_pos hc, hc]
      exact .tab (Nat.sub_pos_of_lt (nextStop_gt cell)) (ih _)
    · rw [if_neg hc]
      exact .other hc (ih _)

theorem expandTabs_eq (cell : Nat) {row : List Char} (hrow : '\n' ∉ row) :
    (expandTabs cell row).1.flatten = untabbed cell row ∧
      (expandTabs cell row).2 = row.foldl cellAfter cell := by
  induction row generalizing cell with
  | nil => exact ⟨rfl, rfl⟩
  | cons c rest ih =>
    rw [List.mem_cons, not_or] at hrow
    rw [expandTabs, untabbed, List.foldl_cons, cellAfter, if_neg (Ne.symm hrow.1)]
    by_cases htab : c = '\t'
    · obtain ⟨hpieces, hlast⟩ := ih (nextStop cell) hrow.2
      simp only [htab, beq_self_eq_true, if_true, List.flatten_cons, hpieces, hlast, and_self]
    · obtain ⟨hpieces, hlast⟩ := ih (cell + Text.width c) hrow.2
      simp only [htab, beq_iff_eq, if_false, Text.flatten_pushFirst, hpieces, hlast,
        List.singleton_append, and_self]

theorem rowText_plain (style : Style) (cell : Nat) {row : List Char} (hrow : '\n' ∉ row) :
    rowText false style cell row =
      (String.ofList (untabbed cell row), row.foldl cellAfter cell) := by
  obtain ⟨hpieces, hlast⟩ := expandTabs_eq cell hrow
  have hwritten : pieceText false style = String.ofList := by
    funext piece
    simp [pieceText]
  rw [rowText, hwritten, ← hpieces, ← hlast]
  refine Prod.ext (String.toList_injective ?_) rfl
  simp [String.toList_join, List.flatMap_map]

theorem rowsText_plain (style : Style) (cell : Nat) {rows : List (List Char)} (hne : rows ≠ [])
    (hrows : ∀ row ∈ rows, '\n' ∉ row) :
    rowsText false style cell rows =
      (String.ofList (untabbed cell (unlines rows)), (unlines rows).foldl cellAfter cell) := by
  induction rows generalizing cell with
  | nil => exact absurd rfl hne
  | cons row rest ih =>
    rw [List.forall_mem_cons] at hrows
    cases rest with
    | nil => exact rowText_plain style cell hrows.1
    | cons next others =>
      have hrest := ih 0 (List.cons_ne_nil next others) hrows.2
      have hunlines : unlines (row :: next :: others) = row ++ '\n' :: unlines (next :: others) :=
        rfl
      rw [rowsText, rowText_plain style cell hrows.1, hrest, hunlines, untabbed_append,
        untabbed_feed, List.foldl_append]
      · exact Prod.ext (String.toList_injective (by simp)) rfl
      · exact List.cons_ne_nil next others

theorem fragmentsText_plain (cell : Nat) (line : Line) :
    fragmentsText false cell line =
      String.ofList (untabbed cell (kept (Line.plain line).toList)) := by
  induction line generalizing cell with
  | nil => rfl
  | cons fragment rest ih =>
    have hplain : (Line.plain (fragment :: rest)).toList =
        fragment.text.toList ++ (Line.plain rest).toList := by
      simp [Line.plain, String.toList_join]
    have hrows := rowsText_plain fragment.style cell (Text.lines_ne_nil _)
      (Text.feed_not_mem_lines (kept fragment.text.toList))
    rw [Text.unlines_lines] at hrows
    rw [hplain, kept_append, untabbed_append, String.ofList_append, ← ih, fragmentsText, hrows]

/-- A line shown without colours is its plain text with the tabs expanded. -/
theorem expands_written (line : Line) : ∃ shown, Expands (kept (Line.plain line).toList) shown ∧
    Line.written false line = String.ofList shown ++ "\n" := by
  refine ⟨untabbed 0 (kept (Line.plain line).toList), expands_untabbed 0 _, ?_⟩
  rw [Line.written, fragmentsText_plain]

theorem documented_colourless : Terminal.colourless.Documented where
  plain_assemble _ := String.toList_ofList
  print_eq _ line := by
    obtain ⟨shown, hshown, hwritten⟩ := expands_written line
    refine ⟨shown, ?_, hwritten⟩
    rwa [← String.toList_ofList (l := kept _)] at hshown

theorem mem_plainText {ls : List Line} {line : Line} (hline : line ∈ ls) {fragment : Fragment}
    (hfragment : fragment ∈ line) {c : Char} (hc : c ∈ fragment.text.toList) :
    c ∈ (plainText ls).toList := by
  rw [plainText, String.toList_join, List.flatMap_map, List.mem_flatMap]
  refine ⟨line, hline, ?_⟩
  rw [String.toList_append, Line.plain, String.toList_join, List.flatMap_map]
  exact List.mem_append_left _ (List.mem_flatMap.mpr ⟨fragment, hfragment, hc⟩)

end Report

namespace Summary

open Report

/-- On a console without colours, of any width, the report of a summary is printed as its text is,
    whatever the names, messages and values are, except that the controls are gone and that there are
    blanks in place of each tab. So it is printed unchanged exactly if it has none of these. -/
theorem printed_report {terminal : Terminal} (h : terminal.Documented) (width : Nat)
    (preview : Int) (summary : Summary) :
    (∃ shown, Expands (kept (summary.report preview).toList) shown ∧
      printed terminal width (summaryLines preview summary) = String.ofList shown) ∧
    (printed terminal width (summaryLines preview summary) = summary.report preview ↔
      ∀ c ∈ (summary.report preview).toList, isDropped c = false ∧ c ≠ '\t') := by
  obtain ⟨shown, hshown, hprinted⟩ := h.expands_printed width (summaryLines preview summary)
  refine ⟨⟨shown, hshown, hprinted⟩, ?_⟩
  rw [hprinted, ← String.toList_inj, String.toList_ofList]
  exact hshown.eq_iff

/-- One check that passed, with a tab in its name. -/
def tabbedOutcome : Outcome :=
  ⟨true, [], [], Outcome.allPassed, 1, Int.one_nonneg, by decide⟩

def tabbed : Summary :=
  ⟨"manual", ⟨[("a\tb", tabbedOutcome)], by decide⟩, 0⟩

theorem printed_report_colourless :
    Terminal.colourless.Documented ∧
      (∃ shown, Expands (kept (tabbed.report 5).toList) shown ∧
        printed .colourless 80 (summaryLines 5 tabbed) = String.ofList shown) ∧
      (printed .colourless 80 (summaryLines 5 tabbed) = tabbed.report 5 ↔
        ∀ c ∈ (tabbed.report 5).toList, isDropped c = false ∧ c ≠ '\t') :=
  ⟨documented_colourless, printed_report documented_colourless 80 5 tabbed⟩

/-- The name of a check with a tab is not printed as it stands in the text of the report. -/
theorem printed_report_tabbed :
    Terminal.colourless.Documented ∧
      printed .colourless 80 (summaryLines 5 tabbed) ≠ tabbed.report 5 := by
  refine ⟨documented_colourless, fun hsame => ?_⟩
  have hstatus : statusLine "a\tb" tabbedOutcome ∈ summaryLines 5 tabbed := by
    have hordered : tabbed.ordered = [("a\tb", tabbedOutcome)] := List.mergeSort_singleton _
    simp [summaryLines, hordered, outcomeLines]
  have hname : ⟨"a\tb" ++ ": ", .plain⟩ ∈ statusLine "a\tb" tabbedOutcome := by simp [statusLine]
  have htab : '\t' ∈ (tabbed.report 5).toList := mem_plainText hstatus hname (by decide)
  obtain ⟨shown, hshown, hprinted⟩ :=
    documented_colourless.expands_printed 80 (summaryLines 5 tabbed)
  rw [hprinted] at hsame
  rw [← hsame, String.toList_ofList] at htab
  exact hshown.tab_not_mem htab

end Summary

end TableAudit
