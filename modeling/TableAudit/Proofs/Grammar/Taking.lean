import TableAudit.Proofs.Grammar.Consumers

namespace TableAudit.Grammar

variable {named : String → Option Char} {α β σ : Type} {g : Rules}

/-- A reader that takes a token wherever it succeeds. -/
class Taking (reader : Reader α) : Prop where
  takes : Consumes [] reader fun used _ => used ≠ []

namespace Taking

variable {reader : Reader α} {next : α → Reader β}

/-- A token is taken by the first of two readers. -/
theorem first [hreader : Taking reader] (h : ∀ value, Consuming (next value)) :
    Taking (reader >>= next) :=
  ⟨hreader.takes.bind fun _ value hused => (h value).consumes.mono fun _ _ _ hempty =>
    hused (List.append_eq_nil_iff.mp hempty).1⟩

/-- A token is taken by the second of two readers. -/
theorem last [hreader : Consuming reader] (h : ∀ value, Taking (next value)) :
    Taking (reader >>= next) :=
  ⟨hreader.consumes.bind fun _ value _ => (h value).takes.mono fun _ _ hmore hempty =>
    hmore (List.append_eq_nil_iff.mp hempty).2⟩

/-- A token is taken by the test, or else by what is read then. -/
theorem ifTaken {test : Token → Bool} {taken left : Reader β} [htaken : Consuming taken]
    [hleft : Taking left] :
    Taking (Grammar.takeIf test >>= fun answer => if answer = true then taken else left) := by
  refine ⟨Consumes.takeIf.bind ?_⟩
  rintro used answer (⟨rfl, token, -, rfl, -⟩ | ⟨rfl, rfl⟩)
  · exact htaken.consumes.mono fun _ _ _ => List.cons_ne_nil _ _
  · exact hleft.takes

/-- A token that was seen is taken. -/
theorem take {token : Token} {next : Token → Reader β} (h : Consuming (next token)) :
    Consumes [token] (Grammar.take >>= next) fun used _ => used ≠ [] :=
  .take fun _ => h.consumes.anywhere.mono fun _ _ _ => List.cons_ne_nil _ _

end Taking

instance (test : Token → Bool) : Taking (expect test) := by
  refine ⟨Consumes.expect.mono ?_⟩
  rintro _ _ ⟨token, -, rfl, -⟩
  exact List.cons_ne_nil _ _

instance (symbol : String) : Taking (expectOp symbol) := inferInstanceAs (Taking (expect _))
instance (word : String) : Taking (expectKeyword word) := inferInstanceAs (Taking (expect _))

theorem Consuming.loop {step : σ → Reader (σ × Bool)} (h : ∀ state, Consuming (step state))
    (fuel : Nat) (state : σ) : Consuming (loop step fuel state) := by
  have hstep (used : List Token) (state : σ) (_ : True) :
      Consumes [] (step state) fun _ _ => True :=
    (h state).consumes
  have hloop : Consumes [] (Grammar.loop step fuel state) fun _ _ => True :=
    @Consumes.loop _ _ (fun _ _ => True) hstep [] fuel state trivial
  exact ⟨hloop⟩

theorem Consuming.repeatStep {step : σ → Reader (σ × Bool)} (h : ∀ state, Consuming (step state))
    (state : σ) : Consuming (repeatStep step state) :=
  inferInstance

/-- What the first step takes, a loop takes. -/
theorem Consumes.repeatStep_takes {ahead : List Token} {step : σ → Reader (σ × Bool)} {state : σ}
    (hfirst : Consumes ahead (step state) fun used _ => used ≠ [])
    (hstep : ∀ state, Consuming (step state)) :
    Consumes ahead (Grammar.repeatStep step state) fun used _ => used ≠ [] := by
  refine .look (fun _ => ⟨_, rfl⟩) fun fuel => ?_
  rw [Grammar.loop]
  refine hfirst.bind ?_
  rintro used ⟨found, goesOn⟩ hused
  have hrest : Consuming (if goesOn then Grammar.loop step fuel found else return found) := by
    split
    · exact .loop hstep fuel found
    · infer_instance
  exact hrest.consumes.mono fun _ _ _ hempty => hused (List.append_eq_nil_iff.mp hempty).1

instance (item : Reader α) (closes : Token → Bool) [Consuming item] [Taking item] :
    Taking (commaSeparated item closes) := by
  unfold commaSeparated
  exact .first fun _ => inferInstance

instance (ops : List (String × BinaryOp)) (operand : Reader Expr) [Spelling named operand]
    [Taking operand] : Taking (leftOperator ops operand) := by
  unfold leftOperator
  refine .first fun first => .repeatStep (fun left => .bind fun token => ?_) first
  split
  · split <;> infer_instance
  · infer_instance

instance (word : String) (op : BooleanOp) (operand : Reader Expr) [Spelling named operand]
    [Taking operand] : Taking (booleanOperands word op operand) := by
  unfold booleanOperands
  refine .first fun first => .bind fun reversed => ?_
  split <;> infer_instance

/-- Where a text is ahead a literal takes it. -/
theorem takes_textLiteral (lexeme : List Char) :
    Consumes [.text lexeme] (textLiteral g) fun used _ => used ≠ [] := by
  unfold textLiteral
  refine (Consumes.repeatStep_takes (.peekAgain (Taking.take inferInstance)) fun reversed => ?_).bind ?_
  · refine .bind fun token => ?_
    split <;> infer_instance
  · intro used reversed hused
    have hmore (reader : Reader Expr) [hreader : Consuming reader] :
        Consumes [] reader fun more _ => used ++ more ≠ [] :=
      hreader.consumes.mono fun _ _ _ hempty => hused (List.append_eq_nil_iff.mp hempty).1
    split
    · exact hmore _
    · exact hmore _

/-- Rules whose readers of expressions take a token. -/
class TakingRules (g : Rules) : Prop extends ConsumingRules g where
  expression_takes : Taking g.expression
  factor_takes : Taking g.factor
  primary_takes : Taking g.primary

attribute [instance] TakingRules.expression_takes TakingRules.factor_takes TakingRules.primary_takes

section Rules

-- the instances for readers of displays have many parts
set_option synthInstance.maxSize 4096

variable [TakingRules g]

instance : Taking (bitOr g) := by
  unfold bitOr bitAnd
  infer_instance

instance : Taking (comparison g) := by
  unfold comparison
  dsimp only
  refine .first fun left => @Consuming.bind _ _ _ _ ?_ fun state => inferInstance
  refine .repeatStep (fun state => .bind fun op => ?_) _
  split <;> infer_instance

instance : Taking (inversion g) := by
  unfold inversion
  exact .last fun count => .first fun operand => inferInstance

instance : Taking (disjunction g) := by
  unfold disjunction
  infer_instance

instance : Taking (lambda g) := by
  unfold lambda
  exact .first fun _ => inferInstance

instance : Taking (expression g) := by
  unfold expression
  dsimp only
  refine .last fun first => .last fun second => ?_
  split
  · infer_instance
  · exact .first fun body => inferInstance

instance : Taking (starExpression g) := by
  unfold starExpression
  exact .ifTaken

instance : Taking (starExpressions g) := by
  unfold starExpressions
  exact .first fun _ => inferInstance

instance : Taking (yieldExpression g) := by
  unfold yieldExpression
  exact .first fun _ => inferInstance

instance : Taking (assignedValue g) := by
  unfold assignedValue
  refine .last fun yields => ?_
  split <;> infer_instance

instance : Taking (parenthesized g) := by
  unfold parenthesized
  exact .first fun _ => inferInstance

instance : Taking (listDisplay g) := by
  unfold listDisplay
  exact .first fun _ => inferInstance

instance : Consuming (dictEntry g) :=
  (spells_dictEntry []).consuming

instance : Taking (braceDisplay g) := by
  have hrest (first : Option Expr × Expr) : Consuming (dictRest g first) := by
    unfold dictRest
    infer_instance
  unfold braceDisplay
  exact .first fun _ => inferInstance

instance : Taking (atom g) := by
  unfold atom
  refine ⟨.peek fun token => ?_⟩
  have hdisplay (reader : Reader Expr) [hreader : Taking reader] :
      Consumes [token] reader fun used _ => used ≠ [] :=
    hreader.takes.anywhere
  split
  · exact Taking.take inferInstance
  · exact Taking.take inferInstance
  · exact Taking.take inferInstance
  · exact Taking.take inferInstance
  · exact Taking.take inferInstance
  · exact Taking.take inferInstance
  · exact Taking.take inferInstance
  · exact takes_textLiteral _
  · exact Taking.take inferInstance
  · exact hdisplay _
  · exact hdisplay _
  · exact hdisplay _
  · exact .unexpected

instance : Taking (primary g) := by
  have htrailers (first : Expr) : Consuming (trailers g first) := (spells_trailers first).consuming
  unfold primary
  exact .first htrailers

instance : Taking (power g) := by
  have hbase : Taking (do
      if ← takeKeyword "await" then return .await (← primary g) else primary g) :=
    .ifTaken
  unfold power
  exact .first fun _ => inferInstance

instance : Taking (factor g) := by
  have hpower (token : Token) : Consumes [token] (power g) fun used _ => used ≠ [] :=
    Consumes.anywhere Taking.takes
  unfold factor
  refine ⟨.peek fun token => ?_⟩
  split
  · split
    · exact Taking.take inferInstance
    · exact hpower _
  · exact hpower _

end Rules

/-- At every depth the rules take a token for each expression. -/
instance (depth : Nat) : TakingRules (rules named depth) := by
  induction depth with
  | zero => exact ⟨⟨.unexpected⟩, ⟨.unexpected⟩, ⟨.unexpected⟩⟩
  | succ depth ih =>
    have hexpression : Taking (expression (rules named depth)) := inferInstance
    have hfactor : Taking (factor (rules named depth)) := inferInstance
    have hprimary : Taking (primary (rules named depth)) := inferInstance
    exact ⟨hexpression, hfactor, hprimary⟩

end TableAudit.Grammar
