import TableAudit.Text.CodeSet
import TableAudit.Text.Compatibility.Table

namespace TableAudit.Text.Compatibility

/-- Splits a flat table into rows of three. -/
def triples : List Nat → List (Nat × Nat × Nat)
  | a :: b :: c :: rest => (a, b, c) :: triples rest
  | _ => []

/-- Splits a flat table into rows `key count part …`; the first argument bounds their number. -/
def rows : Nat → List Nat → List (Nat × List Nat)
  | fuel + 1, key :: count :: rest => (key, rest.take count) :: rows fuel (rest.drop count)
  | _, _ => []

def oneToOne : List (Nat × Nat × Nat) :=
  triples (decimalNumbers oneToOneTable)

def oneToMany : List (Nat × List Nat) :=
  let numbers := decimalNumbers oneToManyTable
  rows numbers.length numbers

def combiningRuns : List (Nat × Nat × Nat) :=
  triples (decimalNumbers combiningTable)

def composing : List (Nat × Nat × Nat) :=
  triples (decimalNumbers composingTable)

/-- Syllables are composed of a lead, a vowel and perhaps a tail by arithmetic, not by table. -/
def syllableBase : Nat := 0xAC00
def leadBase : Nat := 0x1100
def vowelBase : Nat := 0x1161
def tailBase : Nat := 0x11A7
def leadCount : Nat := 19
def vowelCount : Nat := 21
def tailCount : Nat := 28
def syllableCount : Nat := leadCount * vowelCount * tailCount

/-- What one character stands for once presentation forms and composed accents are undone. -/
def decompose (code : Nat) : List Nat :=
  if code < 128 then [code]
  else if syllableBase ≤ code ∧ code < syllableBase + syllableCount then
    let index := code - syllableBase
    let tail := index % tailCount
    [leadBase + index / (vowelCount * tailCount),
      vowelBase + index % (vowelCount * tailCount) / tailCount]
      ++ (if tail = 0 then [] else [tailBase + tail])
  else
    match oneToOne.find? fun (first, count, _) => first ≤ code && code < first + count with
    | some (first, _, target) => [target + (code - first)]
    | none =>
      match oneToMany.find? fun row => row.1 == code with
      | some row => row.2
      | none => [code]

/-- The combining class of a mark; zero for a character that begins a new letter. -/
def combiningClass (code : Nat) : Nat :=
  if code < 128 then 0
  else
    match combiningRuns.find? fun (first, count, _) => first ≤ code && code < first + count with
    | some (_, _, rank) => rank
    | none => 0

/-- Moves a mark before the marks of a higher class at the end of the reversed text. -/
def insertMark (rank code : Nat) : List (Nat × Nat) → List (Nat × Nat)
  | [] => [(rank, code)]
  | (before, other) :: rest =>
    if rank ≠ 0 ∧ rank < before then (before, other) :: insertMark rank code rest
    else (rank, code) :: (before, other) :: rest

/-- Sorts every run of marks by class, marks of one class keeping their order. -/
def orderMarks (codes : List Nat) : List (Nat × Nat) :=
  (codes.foldl (fun reversed code => insertMark (combiningClass code) code reversed) []).reverse

/-- The character that two adjacent ones compose into. -/
def composePair? (first second : Nat) : Option Nat :=
  if leadBase ≤ first ∧ first < leadBase + leadCount ∧
      vowelBase ≤ second ∧ second < vowelBase + vowelCount then
    some (syllableBase + ((first - leadBase) * vowelCount + (second - vowelBase)) * tailCount)
  else if syllableBase ≤ first ∧ first < syllableBase + syllableCount ∧
      (first - syllableBase) % tailCount = 0 ∧
      tailBase < second ∧ second < tailBase + tailCount then
    some (first + (second - tailBase))
  else
    (composing.find? fun (a, b, _) => a == first && b == second).map fun (_, _, whole) => whole

/-- The state of a composing pass: what is finished, and the letter under composition with the
    marks that did not join it, the last of them first. -/
structure Composer where
  done : List Nat
  starter : Option Nat
  marks : List (Nat × Nat)

def Composer.flush (state : Composer) : List Nat :=
  state.marks.map Prod.snd ++ state.starter.toList ++ state.done

/-- A mark joins its letter unless a mark of the same or a higher class stands between. -/
def Composer.push (state : Composer) (entry : Nat × Nat) : Composer :=
  let (rank, code) := entry
  let blocked :=
    match state.marks with
    | [] => false
    | (last, _) :: _ => last == 0 || rank ≤ last
  let joined :=
    match state.starter with
    | some letter => if blocked then none else composePair? letter code
    | none => none
  match joined with
  | some whole => { state with starter := some whole }
  | none =>
    if rank = 0 then { done := state.flush, starter := some code, marks := [] }
    else { state with marks := entry :: state.marks }

/-- The composed form of a name. ASCII names are their own composed form. -/
def compose (name : String) : String :=
  if name.toList.all fun c => c.toNat < 128 then name
  else
    let parts := orderMarks (name.toList.flatMap fun c => decompose c.toNat)
    let final := parts.foldl Composer.push ⟨[], none, []⟩
    String.ofList (final.flush.reverse.map Char.ofNat)

end TableAudit.Text.Compatibility
