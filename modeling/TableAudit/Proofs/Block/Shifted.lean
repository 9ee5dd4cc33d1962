import TableAudit.Block.Compile
import TableAudit.Predicate.Call
import TableAudit.Proofs.Text.Shifted

namespace TableAudit.Block

open Text (shifted)
open Text.Margin (isIndent)

/-- A text compiles to the same with blanks in front of each of its lines, whether or not they are
    also put after its last line end. -/
theorem compileText_shifted {blanks : List Char} (hblanks : ∀ b ∈ blanks, isIndent b = true)
    (scope : Scope) (name text : String) :
    compileText scope name (String.ofList (shifted blanks text.toList)) =
        compileText scope name text ∧
      compileText scope name (String.ofList (shifted blanks text.toList ++ ['\n'])) =
        compileText scope name (String.ofList (text.toList ++ ['\n'])) := by
  constructor
  · unfold compileText
    rw [String.toList_ofList, Text.Margin.remove_shifted hblanks]
  · unfold compileText
    rw [String.toList_ofList, String.toList_ofList, Text.Margin.remove_shifted_feed hblanks]

/-- The declaration, the message of the reason and the line of an error of compilation. -/
def refusal? : Except Fault CheckSet → Option (String × String × Option Int)
  | .error (.compile error) => some (error.declaration, error.reason.message, error.line)
  | _ => none

/-- Lines that are indented by a tab already, one of blanks only, an empty one, a literal that goes on
    over a line, and a declaration that is refused. -/
def unevenText : String :=
  "\tcheck(\"\"\"a\n   \n\t b\"\"\", is_even(col('x')))\n\n\tcheck('b', is_odd(1))\n \t"

theorem compileText_shifted_uneven :
    (∀ b ∈ [' ', '\t'], isIndent b = true) ∧
      (compileText Scope.library "set" (String.ofList (shifted [' ', '\t'] unevenText.toList)) =
          compileText Scope.library "set" unevenText ∧
        compileText Scope.library "set"
            (String.ofList (shifted [' ', '\t'] unevenText.toList ++ ['\n'])) =
          compileText Scope.library "set" (String.ofList (unevenText.toList ++ ['\n']))) ∧
      refusal? (compileText Scope.library "set" unevenText) = some ("check('b', is_odd(1))",
        "predicate argument '1' does not reference a column", some 5) := by
  have hblanks : ∀ b ∈ [' ', '\t'], isIndent b = true := List.all_eq_true.mp rfl
  refine ⟨hblanks, compileText_shifted hblanks Scope.library "set" unevenText, ?_⟩
  decide +kernel

end TableAudit.Block
