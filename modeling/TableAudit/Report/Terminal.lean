import TableAudit.Report.Style

namespace TableAudit.Report

/-- The controls that a terminal would act on: the bell, a step back, the vertical tab, the form
    feed and the carriage return. -/
def isDropped (c : Char) : Bool :=
  let code := c.toNat
  code == 7 || code == 8 || code == 11 || code == 12 || code == 13

/-- A text without the controls that a terminal would act on. -/
def kept (text : List Char) : List Char :=
  text.filter fun c => !isDropped c

/-- What a report needs of the library that prints it: how a line is made a text of the library, the
    characters of such a text, and what a console without colours and highlighting, of some width,
    writes for a text that is not to be wrapped. -/
structure Terminal where
  Text : Type
  assemble : Line → Text
  plain : Text → String
  print : Nat → Text → String

/-- A text is written with some blanks, at least one, in place of each tab. -/
inductive Expands : List Char → List Char → Prop
  | nil : Expands [] []
  | other {c : Char} {text shown : List Char} (hc : c ≠ '\t') (h : Expands text shown) :
      Expands (c :: text) (c :: shown)
  | tab {blanks : Nat} {text shown : List Char} (hblanks : 0 < blanks) (h : Expands text shown) :
      Expands ('\t' :: text) (List.replicate blanks ' ' ++ shown)

/-- What is relied on of the library, whatever the width is: a text has the characters of its line
    but for the dropped controls, and is printed with its tabs expanded and a line feed at its end. -/
structure Terminal.Documented (terminal : Terminal) : Prop where
  plain_assemble (line : Line) :
    (terminal.plain (terminal.assemble line)).toList = kept (Line.plain line).toList
  print_eq (width : Nat) (text : terminal.Text) : ∃ shown,
    Expands (terminal.plain text).toList shown ∧
      terminal.print width text = String.ofList shown ++ "\n"

/-- What is written to a console when lines are printed one by one. -/
def printed (terminal : Terminal) (width : Nat) (lines : List Line) : String :=
  String.join (lines.map fun line => terminal.print width (terminal.assemble line))

end TableAudit.Report
