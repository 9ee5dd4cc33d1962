namespace TableAudit.Report

inductive Emphasis
  | bold | dim
deriving DecidableEq, Repr

inductive Colour
  | red | green | blue | cyan
deriving DecidableEq, Repr

structure Style where
  emphasis : Option Emphasis := none
  colour : Option Colour := none
deriving DecidableEq, Repr

namespace Style

/-- The style of text that stands out in no way. -/
def plain : Style :=
  {}

def bold : Style :=
  { emphasis := some .bold }

def dim : Style :=
  { emphasis := some .dim }

def coloured (colour : Colour) : Style :=
  { colour := some colour }

def boldColoured (colour : Colour) : Style :=
  { emphasis := some .bold, colour := some colour }

end Style

/-- A piece of a line in one style. -/
structure Fragment where
  text : String
  style : Style := .plain
deriving DecidableEq, Repr

abbrev Line :=
  List Fragment

/-- A line of one plain fragment. -/
def plainLine (text : String) : Line :=
  [{ text := text }]

/-- The text of a line without its styles. -/
def Line.plain (line : Line) : String :=
  String.join (line.map Fragment.text)

/-- The text of lines, each with a line feed at its end. -/
def plainText (lines : List Line) : String :=
  String.join (lines.map fun line => Line.plain line ++ "\n")

end TableAudit.Report
