import TableAudit.Proofs.Grammar.Steady

namespace TableAudit.Grammar

variable {named : String → Option Char} {set : Setting} {g : Rules}

/-- Rules whose readers of expressions and patterns give the same in every setting. -/
class SteadyRules (set : Setting) (g : Rules) : Prop where
  expression : Steady set g.expression
  factor : Steady set g.factor
  primary : Steady set g.primary
  pattern : Steady set g.pattern

attribute [instance] SteadyRules.expression SteadyRules.factor SteadyRules.primary
  SteadyRules.pattern

instance : Steady set nextIsClause := by
  unfold nextIsClause
  have hasync : Steady set (nextIsKeyword "async" >>= fun answer =>
      if answer = true then do return (← peekSecond).isKeyword "for" else return false) := by
    refine takes_nextIsKeyword ?_ inferInstance
    exact takesAt_peekSecond (fun _ => inferInstance) (forall_isEdge rfl rfl rfl) inferInstance
  infer_instance

/-- Operators of one level between steady operands. -/
instance (ops : List (String × BinaryOp)) (operand : Reader Expr) [Steady set operand] :
    Steady set (leftOperator ops operand) := by
  have hstep (left : Expr) : SteadyStep set (peek >>= fun token => match token with
      | .op symbol =>
        match ops.lookup symbol with
        | some op => do
          let _ ← take
          let right ← operand
          return (.binary left op right, true)
        | none => return (left, false)
      | _ => return (left, false)) := by
    refine takes_peek (fun token => ?_) (forall_isEdge rfl rfl rfl) inferInstance
    split
    · split <;> infer_instance
    · infer_instance
  unfold leftOperator
  infer_instance

theorem takes_compareOp : Takes set (fun op => op.isSome = true) compareOp := by
  have hnone : Takes set (fun op => op.isSome = true) (pure none : Reader (Option CompareOp)) :=
    takes_pure nofun
  unfold compareOp
  refine takes_peek (fun token => ?_) (forall_isEdge rfl rfl rfl) hnone
  split
  · split <;> infer_instance
  all_goals infer_instance

section Rules

variable [SteadyRules set g]

instance : Steady set (textLiteral g) := by
  have hstep (reversed : List (List Char)) : SteadyStep set (peek >>= fun token => match token with
      | .text lexeme => do
        let _ ← take
        return (lexeme :: reversed, true)
      | _ => return (reversed, false)) := by
    refine takes_peek (fun token => ?_) (forall_isEdge rfl rfl rfl) inferInstance
    split <;> infer_instance
  have hvalue (reversed : List (List Char)) : Steady set (match textLiteral? g.named g.embedded reversed.reverse with
      | some e => return e
      | none => reject) := by
    split <;> infer_instance
  unfold textLiteral
  infer_instance

instance : Steady set (namedExpression g) := by
  unfold namedExpression
  refine takes_peek (fun token => ?_) (forall_isEdge rfl rfl rfl) ?_
  · refine takesAt_peekSecond (fun second => ?_) ?_ ?_
    · split <;> infer_instance
    · cases token <;> exact forall_isEdge rfl rfl rfl
    · cases token <;> infer_instance
  · refine takes_peekSecond (fun _ => ?_) (fun _ _ => rfl)
    infer_instance

instance : Steady set (bitOr g) := by
  unfold bitOr bitAnd
  infer_instance

instance : Steady set (comparison g) := by
  have hstep (state : List CompareOp × List Expr) : SteadyStep set (compareOp >>= fun found =>
      match found with
      | some op => do
        let right ← bitOr g
        return ((op :: state.1, right :: state.2), true)
      | none => return (state, false)) := by
    refine takes_bind takes_compareOp ?_ ?_
    · rintro (_ | op) h
      · cases h
      · infer_instance
    · rintro (_ | op) h
      · infer_instance
      · exact absurd rfl h
  unfold comparison
  infer_instance

instance : Steady set (inversion g) := by
  unfold inversion
  infer_instance

instance (word : String) (op : BooleanOp) (operand : Reader Expr) [Steady set operand] :
    Steady set (booleanOperands word op operand) := by
  have hvalue (found : List Expr) : Steady set (match found with
      | [single] => return single
      | reversed => return .boolean op reversed.reverse) := by
    split <;> infer_instance
  unfold booleanOperands
  infer_instance

instance : Steady set (disjunction g) := by
  unfold disjunction
  infer_instance

instance (annotated : Bool) (value : Reader Expr) [Steady set value] :
    Steady set <| annotation annotated value := by
  unfold annotation
  infer_instance

instance (closes : Token → Bool) [Uniform closes] (state : ParamState) :
    SteadyStep set (endParam closes state) := by
  unfold endParam
  infer_instance

instance (closes : Token → Bool) [Uniform closes] (state : ParamState) :
    Steady set (endParam closes state) :=
  Takes.steady (inferInstance : SteadyStep set (endParam closes state))

instance (annotated : Bool) (closes : Token → Bool) [Uniform closes] (state : ParamState) :
    SteadyStep set (paramStep g annotated closes state) := by
  unfold paramStep
  dsimp only
  refine takes_ifPeek inferInstance inferInstance ?_
  split
  · infer_instance
  refine takes_ifTest inferInstance inferInstance ?_
  refine takes_nextIsOp (fun answer => answer && !state.starred) rfl inferInstance ?_
  refine takes_nextIsOp (fun answer => answer && !state.starred && state.params.slashed.isEmpty &&
    !state.params.plain.isEmpty) rfl inferInstance ?_
  infer_instance

instance (annotated : Bool) (closes : Token → Bool) [Uniform closes] :
    Steady set (parameters g annotated closes) := by
  unfold parameters
  infer_instance

instance : Steady set (lambda g) := by
  unfold lambda
  infer_instance

/-- What the next two tokens are may matter to one test of the first only. -/
theorem takes_looks {α : Type} {kind : α → Prop} {next : Token → Token → Reader α}
    (look : Token → Bool) [hlook : Blind look]
    (hnext : ∀ tokens first first' second second', look first = look first' →
      Parallel set tokens (next first second) (next first' second') fun left a b =>
        a = b ∧ (kind a → left.length < tokens.length)) :
    Takes set kind (peek >>= fun first => peekSecond >>= fun second => next first second) where
  parallel tokens := by
    refine .peek (fun token more _ => .peekSecond ?_) fun _ => .peekSecond ?_
    · exact hnext tokens token token _ _ rfl
    · refine hnext tokens _ _ _ _ ?_
      rw [hlook.eq_false .stop rfl, hlook.eq_false _ set.first]

instance : Steady set (expression g) := by
  have hrest (body : Expr) : Steady set (peek >>= fun _ => do
      if ← takeKeyword "if" then
        let test ← disjunction g
        expectKeyword "else"
        return .conditional test body (← g.expression)
      else return body) :=
    takes_peek (fun _ => inferInstance) (fun _ _ => rfl) inferInstance
  unfold expression
  refine takes_looks (Token.isKeyword "lambda") fun tokens first first' second second' h => ?_
  rw [h]
  split
  · exact Takes.parallel tokens
  · have hbody : Steady set (disjunction g) := inferInstance
    refine .bind (hbody.agrees tokens) fun left a b hlength h => ?_
    subst h
    refine .isProbing ?_
    simp only [Bool.false_and, Bool.false_eq_true, if_false]
    exact ((hrest a).agrees left).mono fun _ _ _ _ h => ⟨h, False.elim⟩

instance : Steady set (starExpression g) := by
  unfold starExpression
  infer_instance

instance : Steady set (starNamedExpression g) := by
  unfold starNamedExpression
  infer_instance

instance : Steady set (starExpressions g) := by
  unfold starExpressions
  infer_instance

instance : Steady set (yieldExpression g) := by
  unfold yieldExpression
  infer_instance

instance : Steady set (assignedValue g) := by
  unfold assignedValue
  infer_instance

instance : Steady set (targets g) := by
  unfold targets
  infer_instance

instance : Steady set (clauses g) := by
  have hclause (condition : List Expr → Reader (List Expr × Bool))
      [∀ reversed, SteadyStep set (condition reversed)] : Advancing set (do
        let isAsync ← takeKeyword "async"
        expectKeyword "for"
        let target ← targets g
        expectKeyword "in"
        let source ← disjunction g
        let conditions ← repeatStep condition []
        return (Expr.clause isAsync target source conditions.reverse)) := inferInstance
  unfold clauses
  dsimp only
  infer_instance

/-- A name before an equals sign is taken with it. -/
theorem takes_keywordName {α : Type} {kind : α → Prop} {named : String → Reader α}
    {plain : Reader α} (hnamed : ∀ id, Steady set (named id)) (hplain : Takes set kind plain) :
    Takes set kind (peek >>= fun token => peekSecond >>= fun second =>
      match keywordName token second with
      | some id => do
        let _ ← take
        let _ ← take
        named id
      | none => plain) := by
  have hnone (token second : Token) (h : keywordName token second = none) :
      (match keywordName token second with
        | some id => do
          let _ ← take
          let _ ← take
          named id
        | none => plain) = plain := by
    rw [h]
  refine takes_peek (fun token => ?_) (forall_isEdge rfl rfl rfl) ?_
  · refine takesAt_peekSecond (fun second => ?_) ?_ ?_
    · cases h : keywordName token second with
      | none => infer_instance
      | some id =>
        unfold keywordName at h
        split at h
        · infer_instance
        · cases h
    · cases token <;> exact forall_isEdge rfl rfl rfl
    · rw [hnone token .stop (by cases token <;> rfl)]
      infer_instance
  · exact takes_peekSecond (fun _ => hplain) fun _ _ => rfl

instance (state : CallState) : SteadyStep set (argumentStep g state) := by
  unfold argumentStep
  dsimp only
  refine takes_keywordName (fun id => inferInstance) ?_
  refine takes_ifTest inferInstance inferInstance ?_
  refine takes_nextIsOp (fun answer => answer && decide (state.phase ≠ .spread)) rfl ?_ ?_
  · infer_instance
  split
  · infer_instance
  · refine takes_then inferInstance fun value => takes_then inferInstance fun isClause => ?_
    split <;> infer_instance

instance : Steady set (arguments g) := by
  unfold arguments
  infer_instance

instance : Steady set (sliceItem g) := by
  unfold sliceItem
  dsimp only
  refine takes_nextIsOp id rfl inferInstance ?_
  refine takes_peekSecond (fun second => ?_) fun second h => ?_
  · refine takes_then inferInstance fun lower => ?_
    split
    · infer_instance
    · refine takes_ifTest inferInstance inferInstance ?_
      split <;> infer_instance
  · simp only [h]
    rfl

instance : Uniform fun token => !beginsSlice token := ⟨forall_isEdge rfl rfl rfl⟩
instance : Uniform fun token => !beginsEntry token := ⟨forall_isEdge rfl rfl rfl⟩
instance : Blind beginsEntry := ⟨forall_isEdge rfl rfl rfl⟩

instance : Steady set (slices g) := by
  unfold slices
  infer_instance

instance : Steady set (parenthesized g) := by
  unfold parenthesized
  refine takes_then inferInstance fun _ => takes_ifTest inferInstance inferInstance ?_
  refine takes_then inferInstance fun yields => ?_
  split
  · infer_instance
  · refine takes_then inferInstance fun first => takes_then inferInstance fun isClause => ?_
    split <;> infer_instance

instance : Steady set (listDisplay g) := by
  unfold listDisplay
  refine takes_then inferInstance fun _ => takes_ifTest inferInstance inferInstance ?_
  refine takes_then inferInstance fun first => takes_then inferInstance fun isClause => ?_
  split <;> infer_instance

instance : Steady set (dictEntry g) := by
  unfold dictEntry
  infer_instance

instance (first : Option Expr × Expr) : Steady set (dictRest g first) := by
  unfold dictRest
  infer_instance

instance : Steady set (braceDisplay g) := by
  unfold braceDisplay
  refine takes_then inferInstance fun _ => takes_ifTest inferInstance inferInstance ?_
  refine takes_then inferInstance fun spread => ?_
  split
  · infer_instance
  refine takes_peekSecond (fun second => ?_) (fun second h => ?_)
  · refine takes_then inferInstance fun first => ?_
    refine takes_nextIsOp (fun answer => answer && !second.isOp ":=" && !isStarred first) rfl ?_ ?_
    · infer_instance
    · refine takes_then inferInstance fun isClause => ?_
      split <;> infer_instance
  · simp only [h]
    rfl

instance : Steady set (atom g) := by
  unfold atom
  refine takes_peek (fun token => ?_) (forall_isEdge rfl rfl rfl) inferInstance
  split <;> infer_instance

instance (first : Expr) : Steady set (trailers g first) := by
  unfold trailers
  infer_instance

instance : Steady set (primary g) := by
  unfold primary
  infer_instance

instance : Steady set (power g) := by
  unfold power
  infer_instance

instance : Steady set (factor g) := by
  unfold factor
  refine takes_peek (fun token => ?_) (forall_isEdge rfl rfl rfl) inferInstance
  split
  · split <;> infer_instance
  · infer_instance

instance : Steady set patternNumber := by
  have hreal : Blind fun token => match token with
      | .int _ | .float _ | .imaginary _ => true
      | _ => false := ⟨forall_isEdge rfl rfl rfl⟩
  have himaginary : Blind fun token => match token with
      | .imaginary _ => true
      | _ => false := ⟨forall_isEdge rfl rfl rfl⟩
  have hsign : Blind fun token => token.isOp "+" || token.isOp "-" := ⟨forall_isEdge rfl rfl rfl⟩
  unfold patternNumber
  refine takes_then inferInstance fun _ => takes_then inferInstance fun _ => ?_
  change Steady set (peek >>= fun token =>
    if id (token.isOp "+" || token.isOp "-") = true then _ else _)
  refine takes_look id rfl (fun token h => ?_) inferInstance
  cases token with
  | op symbol => infer_instance
  | _ => cases h

instance : Steady set patternPath := by
  unfold patternPath
  infer_instance

instance (item : Reader Unit) (close : String) [Steady set item] : Steady set (patternItems item close) := by
  unfold patternItems
  infer_instance

instance : Steady set (starPattern g) := by
  unfold starPattern
  infer_instance

instance : Steady set (classArguments g) := by
  have hcomma (named : Bool) : SteadyStep set (takeOp "," >>= fun more => return (named, more)) := by
    refine takes_bind (inferInstance : SteadyTest set (takeOp ",")) (fun _ _ => inferInstance) ?_
    exact fun more h => takes_pure h
  have hargument (named : Bool) : Steady set (peek >>= fun token => peekSecond >>= fun second =>
      match keywordName token second with
      | some _ => do
        let _ ← take
        let _ ← take
        g.pattern
        return true
      | none =>
        if named then unexpected
        else do
          g.pattern
          return false) :=
    takes_keywordName (fun id => inferInstance) inferInstance
  unfold classArguments
  infer_instance

instance : Steady set (patternKey g) := by
  unfold patternKey
  refine takes_peek (fun token => ?_) (forall_isEdge rfl rfl rfl) inferInstance
  split <;> infer_instance

instance : Steady set (mappingEntry g) := by
  unfold mappingEntry
  infer_instance

instance : Steady set (closedPattern g) := by
  unfold closedPattern
  refine takes_peek (fun token => ?_) (forall_isEdge rfl rfl rfl) inferInstance
  split <;> infer_instance

instance : Steady set (pattern g) := by
  unfold pattern
  infer_instance

instance : Uniform fun token => !beginsPattern token := ⟨forall_isEdge rfl rfl rfl⟩

instance : Steady set (openPattern g) := by
  unfold openPattern
  infer_instance

end Rules

/-- The rules are such at every depth. -/
instance steadyRules (depth : Nat) : SteadyRules set (rules named depth) := by
  induction depth with
  | zero =>
    have hnone {α : Type} : Steady set (unexpected : Reader α) := inferInstance
    exact ⟨hnone, hnone, hnone, hnone⟩
  | succ depth ih =>
    exact ⟨inferInstanceAs (Steady set (expression (rules named depth))),
      inferInstanceAs (Steady set (factor (rules named depth))),
      inferInstanceAs (Steady set (primary (rules named depth))),
      inferInstanceAs (Steady set (pattern (rules named depth)))⟩

end TableAudit.Grammar
