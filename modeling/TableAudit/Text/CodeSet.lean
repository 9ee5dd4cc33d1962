namespace TableAudit.Text

/-- The decimal numbers of a text, whatever separates them. -/
def decimalNumbers (text : String) : List Nat :=
  let step := fun (state : Option Nat × List Nat) (c : Char) =>
    if c.isDigit then (some (state.1.getD 0 * 10 + (c.toNat - 48)), state.2)
    else (none, state.1.toList ++ state.2)
  let final := text.toList.foldl step (none, [])
  (final.1.toList ++ final.2).reverse

/-- A set of code points: closed ranges, ascending and disjoint. -/
structure CodeSet where
  ranges : List (Nat × Nat)

/-- Reads pairs `gap width`: each range begins `gap` after the end of the range before it and
    ends `width` further on. -/
def CodeSet.ofGaps : Nat → List Nat → List (Nat × Nat)
  | last, gap :: width :: rest =>
    (last + gap, last + gap + width) :: CodeSet.ofGaps (last + gap + width) rest
  | _, _ => []

def CodeSet.ofTable (table : String) : CodeSet :=
  ⟨CodeSet.ofGaps 0 (decimalNumbers table)⟩

def CodeSet.contains (set : CodeSet) (code : Nat) : Bool :=
  set.ranges.any fun range => range.1 ≤ code && code ≤ range.2

end TableAudit.Text
