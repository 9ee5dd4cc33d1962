namespace TableAudit.Text

/-- The first surrogate, a code point that is no character. A text can hold surrogates, though no
    text that is written to a file or read from one does. -/
def firstSurrogate : Nat := 0xD800

/-- The number of surrogates. -/
def surrogateCount : Nat := 2048

/-- The first of the characters that stand for surrogates: the last ones of all, which are left to
    private use. A text that holds one of them as such has no counterpart. -/
def firstStandIn : Nat := 0x10F800

/-- Whether a character stands for a surrogate. -/
def isSurrogate (c : Char) : Bool :=
  firstStandIn ≤ c.toNat

/-- The code point that a character of a text stands for. -/
def codePoint (c : Char) : Nat :=
  if isSurrogate c then c.toNat - firstStandIn + firstSurrogate else c.toNat

/-- The character of a text that stands for a code point. -/
def ofCodePoint (code : Nat) : Char :=
  if firstSurrogate ≤ code ∧ code < firstSurrogate + surrogateCount then
    Char.ofNat (code - firstSurrogate + firstStandIn)
  else Char.ofNat code

end TableAudit.Text
