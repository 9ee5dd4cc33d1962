import TableAudit.Check.Basic
import TableAudit.Report.Style
import TableAudit.Summary.Basic
import TableAudit.Summary.Rate

namespace TableAudit.Report

/-- How many failing rows are listed at each end. -/
def defaultPreview : Int :=
  5

def rule : String :=
  String.ofList (List.replicate 80 '=')

def passGlyph : String :=
  "✓"

def failGlyph : String :=
  "✗"

def bullet : String :=
  "▪"

/-- The values of a row, each behind the name of its column. -/
def valuesText (values : RowValues) : String :=
  joinWith ", " (values.entries.map fun entry => entry.1 ++ "=" ++ entry.2.display)

def failureLine (failure : Int × RowValues) : Line :=
  plainLine ("   Row " ++ toString failure.1 ++ ": " ++ valuesText failure.2)

def hiddenLine (hidden : Int) : Line :=
  [⟨"   ... " ++ toString hidden ++ " more failures ...", .dim⟩]

/-- The first items of a list: as many as the number says, or if it is negative all but as many. -/
def firstOf {α : Type} (count : Int) (items : List α) : List α :=
  items.take (if count < 0 then items.length + count else count).toNat

/-- The last items of a list: as many as the number says, and all for none; or if it is negative
    all but as many. -/
def lastOf {α : Type} (count : Int) (items : List α) : List α :=
  items.drop (if 0 < count then items.length - count else -count).toNat

/-- The lines of the failing rows, with a number of them at each end. -/
def failureLines (preview : Int) (failures : List (Int × RowValues)) : List Line :=
  let hidden : Int := failures.length - 2 * preview
  if hidden ≤ 0 then failures.map failureLine
  else
    (firstOf preview failures).map failureLine ++ hiddenLine hidden ::
      (lastOf preview failures).map failureLine

def statusColour (outcome : Outcome) : Colour :=
  if outcome.passed then .green else .red

def statusGlyph (outcome : Outcome) : String :=
  if outcome.passed then passGlyph else failGlyph

/-- The line that says whether a check passed. -/
def statusLine (name : String) (outcome : Outcome) : Line :=
  let colour := statusColour outcome
  [⟨statusGlyph outcome ++ " ", .boldColoured colour⟩, ⟨name ++ ": ", .plain⟩,
    ⟨outcome.message, .coloured colour⟩]

/-- The lines of one check. -/
def outcomeLines (preview : Int) (name : String) (outcome : Outcome) : List Line :=
  statusLine name outcome ::
    if outcome.passed then []
    else failureLines preview (outcome.rows.zip outcome.values)

def headingLines (summary : Summary) : List Line :=
  [plainLine rule, [⟨"Check Summary: " ++ summary.name, .boldColoured .blue⟩], plainLine rule, []]

/-- The share of checks that passed; no checks count as passed. -/
def checkRate (passed total : Nat) : Rate :=
  if total = 0 then .full else .ofCounts passed total

def totalLines (summary : Summary) : List Line :=
  let passed := summary.passedCount
  let total := summary.outcomes.size
  [[], [⟨"Summary:", .bold⟩],
    plainLine
      (" " ++ toString passed ++ "/" ++ toString total ++ " checks passed (" ++
        (checkRate passed total).text ++ "%)"),
    plainLine ("Checks completed in " ++ Decimal.fixed 2 summary.elapsed ++ " seconds")]

/-- The lines of the report of a summary. -/
def summaryLines (preview : Int) (summary : Summary) : List Line :=
  headingLines summary ++
    summary.ordered.flatMap (fun entry => outcomeLines preview entry.1 entry.2) ++
    totalLines summary

def checkLine (check : Check) : Line :=
  [⟨"  " ++ bullet ++ " ", .plain⟩, ⟨check.name, .coloured .blue⟩, ⟨" (columns: ", .plain⟩,
    ⟨joinWith ", " check.columns, .coloured .cyan⟩, ⟨")", .plain⟩]

/-- The lines that describe a check set. -/
def checkSetLines (set : CheckSet) : List Line :=
  plainLine ("CheckSet: \"" ++ set.name ++ "\"") ::
    plainLine ("Number of checks: " ++ toString set.size) :: set.checks.map checkLine

end TableAudit.Report

namespace TableAudit

/-- The report of a summary as plain text. -/
def Summary.report (summary : Summary) (preview : Int) : String :=
  Report.plainText (Report.summaryLines preview summary)

/-- The description of a check set as plain text. -/
def CheckSet.describe (set : CheckSet) : String :=
  Report.plainText (Report.checkSetLines set)

end TableAudit
