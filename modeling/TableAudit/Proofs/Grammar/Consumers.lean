import TableAudit.Proofs.Grammar.Spelled

namespace TableAudit.Grammar

variable {named : String → Option Char} {g : Rules}

/-- Rules whose readers of patterns and statements consume their input. -/
class ConsumingRules (g : Rules) : Prop extends SpellingRules g where
  pattern : Consuming g.pattern
  statements : Consuming g.statements

attribute [instance] ConsumingRules.pattern ConsumingRules.statements

section Consuming

-- the instances for readers of statements have many parts
set_option synthInstance.maxSize 4096

variable [ConsumingRules g]

instance (annotated : Bool) (value : Reader Expr) [Consuming value] :
    Consuming <| annotation annotated value := by
  unfold annotation
  infer_instance

instance (closes : Token → Bool) (state : ParamState) : Consuming (endParam closes state) := by
  unfold endParam
  infer_instance

instance (annotated : Bool) (closes : Token → Bool) (state : ParamState) :
    Consuming (paramStep g annotated closes state) := by
  unfold paramStep
  dsimp only
  infer_instance

instance (annotated : Bool) (closes : Token → Bool) : Consuming (parameters g annotated closes) := by
  unfold parameters
  infer_instance

instance : Consuming (clauses g) :=
  (spells_clauses []).consuming

instance (state : CallState) : Consuming (argumentStep g state) := by
  unfold argumentStep
  dsimp only
  refine .bind fun token => .bind fun second => ?_
  split <;> infer_instance

instance : Consuming (arguments g) := by
  unfold arguments
  infer_instance

instance : Consuming patternNumber := by
  unfold patternNumber
  infer_instance

instance : Consuming patternPath := by
  unfold patternPath
  infer_instance

instance (item : Reader Unit) (close : String) [Consuming item] :
    Consuming (patternItems item close) := by
  unfold patternItems
  infer_instance

instance : Consuming (starPattern g) := by
  unfold starPattern
  infer_instance

instance : Consuming (classArguments g) := by
  have hargument (named : Bool) (token second : Token) : Consuming (match keywordName token second with
      | some _ => do
        let _ ← take
        let _ ← take
        g.pattern
        return true
      | none =>
        if named then unexpected
        else do
          g.pattern
          return false) := by
    split <;> infer_instance
  unfold classArguments
  infer_instance

instance : Consuming (patternKey g) := by
  unfold patternKey
  refine Consuming.bind fun token => ?_
  split <;> infer_instance

instance : Consuming (mappingEntry g) := by
  unfold mappingEntry
  infer_instance

instance : Consuming (closedPattern g) := by
  unfold closedPattern
  refine Consuming.bind fun token => ?_
  split <;> infer_instance

instance : Consuming (pattern g) := by
  unfold pattern
  infer_instance

instance : Consuming (openPattern g) := by
  unfold openPattern
  infer_instance

instance : Consuming dottedName := by
  unfold dottedName
  infer_instance

instance : Consuming importedAs := by
  unfold importedAs
  infer_instance

instance : Consuming importNames := by
  unfold importNames
  infer_instance

instance : Consuming importFrom := by
  unfold importFrom
  dsimp only
  infer_instance

instance : Consuming (deletion g) := by
  unfold deletion
  infer_instance

instance (first : Nat) : Consuming (extentFrom first) := by
  unfold extentFrom
  infer_instance

instance (first : Nat) : Consuming (otherFrom first) := by
  unfold otherFrom
  infer_instance

instance (first : Nat) (target : Expr) : Consuming (assignment g first target) := by
  unfold assignment
  infer_instance

instance : Consuming (expressionStatement g) := by
  unfold expressionStatement
  dsimp only
  refine .bind fun first => .bind fun value => .bind fun token => ?_
  split <;> infer_instance

instance : Consuming (simpleStatement g) := by
  unfold simpleStatement
  dsimp only
  refine .bind fun first => .bind fun token => ?_
  split <;> infer_instance

instance : Consuming (simpleLine g) := by
  unfold simpleLine
  infer_instance

instance : Consuming (block g) := by
  unfold block
  infer_instance

instance : Consuming (skipBlock g) := by
  unfold skipBlock
  infer_instance

instance : Consuming (elseBlock g) := by
  unfold elseBlock
  infer_instance

instance : Consuming (ifStatement g) := by
  unfold ifStatement
  dsimp only
  infer_instance

instance : Consuming (whileStatement g) := by
  unfold whileStatement
  infer_instance

instance : Consuming (forStatement g) := by
  unfold forStatement
  infer_instance

instance : Consuming (withItem g) := by
  unfold withItem
  infer_instance

instance : Consuming (withStatement g) := by
  unfold withStatement
  infer_instance

instance : Consuming (tryStatement g) := by
  unfold tryStatement
  dsimp only
  refine .bind fun _ => .bind fun kind => ?_
  split <;> infer_instance

instance : Consuming (decorators g) := by
  unfold decorators
  infer_instance

instance (decorated first : Nat) (decorators : List Expr) :
    Consuming (functionDef g decorated first decorators) := by
  unfold functionDef
  dsimp only
  infer_instance

instance (first : Nat) : Consuming (classDef g first) := by
  unfold classDef
  infer_instance

instance : Consuming (definition g) := by
  unfold definition
  infer_instance

instance : Consuming (caseBlock g) := by
  unfold caseBlock
  dsimp only
  infer_instance

instance : Consuming (matchStatement g) := by
  unfold matchStatement
  dsimp only
  infer_instance

instance : Consuming (statement g) := by
  unfold statement
  refine .bind fun first => .bind fun token => ?_
  split
  all_goals first
    | infer_instance
    | refine .bind fun second => ?_
      split <;> infer_instance

instance : Consuming (statements g) := by
  unfold statements
  have hstep (reversed : List Stmt) : Consuming (peek >>= fun token => match token with
      | .dedent => return (reversed, false)
      | .stop => return (reversed, false)
      | _ => do return ((← statement g).reverse ++ reversed, true)) := by
    refine .bind fun token => ?_
    split <;> infer_instance
  infer_instance

end Consuming

/-- At every depth the rules consume their input. -/
instance (depth : Nat) : ConsumingRules (rules named depth) := by
  induction depth with
  | zero => exact ⟨⟨.unexpected⟩, ⟨.unexpected⟩⟩
  | succ depth ih =>
    have hpattern : Consuming (pattern (rules named depth)) := inferInstance
    have hstatements : Consuming (statements (rules named depth)) := inferInstance
    exact ⟨hpattern, hstatements⟩

end TableAudit.Grammar
