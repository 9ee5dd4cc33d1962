import TableAudit.Proofs.Grammar.Call
import TableAudit.Block.Basic

namespace TableAudit.Grammar

variable {named : String → Option Char} {depth : Nat} {tokens rest : List Token} {value : Expr}

/-- One expression without a comma after it is no tuple. -/
theorem Operand.starExpressions (h : Operand named depth tokens value) :
    Reads (starExpressions (rules named (depth + 2))) tokens (.newline :: rest) (· = value) := by
  have hitem : Reads (starExpression (rules named (depth + 2))) tokens (.newline :: rest) (· = value) :=
    Reads.skipIf (h.head_isOp ..) _ (Reads.ofFalse rfl (h.expression rfl))
  have hitems : Reads (commaSeparated (starExpression (rules named (depth + 2))) endsSequence) tokens
      (.newline :: rest) (· = ([value], false)) := by
    refine Reads.bindLast hitem ?_
    rintro found rfl
    refine Reads.look ([found], false) ?_ (Reads.pure rfl)
    exact Repeats.repeatStep (Repeats.ends (Reads.skipIf rfl _ (Reads.pure ⟨rfl, rfl⟩)))
  refine Reads.bindLast hitems ?_
  rintro _ rfl
  exact Reads.pure rfl

theorem Operand.expressionStatement (h : Operand named depth tokens value) :
    Reads (expressionStatement (rules named (depth + 2))) tokens (.newline :: rest)
      fun s => s.form = .expression value := by
  have hvalue : Reads (assignedValue (rules named (depth + 2))) tokens (.newline :: rest) (· = value) := by
    refine Reads.nextIsKeyword "yield" _ (Reads.ofFalse ?_ h.starExpressions)
    obtain ⟨first, more, rfl, hfirst⟩ := h.begins
    cases first <;> first | rfl | cases hfirst
  refine Reads.position _ fun first => Reads.bindLast hvalue ?_
  rintro _ rfl
  have hextent : Reads (extentFrom first) [] (.newline :: rest) fun _ => True :=
    Reads.lastText _ fun last => Reads.pure trivial
  exact Reads.peek _ (Reads.bindLast hextent fun extent _ => Reads.pure rfl)

/-- A line that is one value is one statement. -/
theorem Operand.simpleLine (h : Operand named depth tokens value) :
    Reads (simpleLine (rules named (depth + 2))) (tokens ++ [.newline]) rest
      fun body => body.map Stmt.form = [.expression value] := by
  have hstatement : Reads (simpleStatement (rules named (depth + 2))) tokens (.newline :: rest)
      fun s => s.form = .expression value := by
    have hexpression : Reads _ _ (.newline :: rest) _ := h.expressionStatement
    refine Reads.position _ fun first => Reads.peek _ ?_
    obtain ⟨first, more, rfl, hfirst⟩ := h.begins
    cases first <;> first | exact hexpression | cases hfirst
  refine Reads.bind hstatement fun s hs => ?_
  refine Reads.look [s] ?_ (Reads.expect ⟨Token.noConfusion, Token.noConfusion⟩ rfl _ (Reads.pure ?_))
  · exact Repeats.repeatStep (Repeats.ends (Reads.skipIf rfl _ (Reads.pure ⟨rfl, rfl⟩)))
  · rw [List.reverse_singleton, List.map_singleton, hs]

/-- A line that is one value, and does not begin with the word that may begin a statement of
    another kind. -/
structure ValueLine (named : String → Option Char) (depth : Nat) (tokens : List Token) (value : Expr) : Prop where
  operand : Operand named depth tokens value
  noMatch : tokens.head? ≠ some (.name "match")

theorem ValueLine.statement (h : ValueLine named depth tokens value) :
    Reads (statement (rules named (depth + 2))) (tokens ++ [.newline]) rest
      fun body => body.map Stmt.form = [.expression value] := by
  have hline : Reads _ _ rest _ := h.operand.simpleLine
  have hnoMatch := h.noMatch
  refine Reads.position _ fun first => Reads.peek _ ?_
  obtain ⟨first, more, rfl, hfirst⟩ := h.operand.begins
  rw [List.head?_cons, ne_eq, Option.some.injEq] at hnoMatch
  rw [List.cons_append, List.cons_append, List.headD_cons]
  cases first with
  | name id =>
    split <;> first | exact hline | contradiction
  | text lexeme => exact hline
  | _ => cases hfirst

/-- The tokens of lines, each with its end. -/
def lineTokens (lines : List (List Token × Expr)) : List Token :=
  lines.flatMap fun line => line.1 ++ [.newline]

/-- The forms of statements that are the values of lines. -/
def lineForms (lines : List (List Token × Expr)) : List Form :=
  lines.map fun line => .expression line.2

/-- A block of lines is read as the values of these lines. -/
theorem reads_statements {line : List Token × Expr} {lines : List (List Token × Expr)}
    (hlines : ∀ item ∈ line :: lines, ValueLine named depth item.1 item.2) :
    Reads (statements (rules named (depth + 2))) (lineTokens (line :: lines)) [.stop]
      fun body => body.map Stmt.form = lineForms (line :: lines) := by
  rw [List.forall_mem_cons] at hlines
  obtain ⟨hline, hlines⟩ := hlines
  refine Reads.bind hline.statement fun body hbody => ?_
  refine Reads.bindLast (?_ : Reads _ _ _ fun reversed : List Stmt =>
    reversed.reverse.map Stmt.form = lineForms (line :: lines)) fun reversed h => Reads.pure h
  refine Repeats.repeatStep ?_
  have hfirst : body.reverse.reverse.map Stmt.form = lineForms [line] := by
    rwa [List.reverse_reverse]
  change Repeats _ _ _ _ fun reversed : List Stmt => reversed.reverse.map Stmt.form = lineForms ([line] ++ lines)
  generalize [line] = before at hfirst
  generalize body.reverse = reversed at hfirst
  induction lines generalizing before reversed with
  | nil =>
    rw [List.append_nil]
    exact Repeats.ends (Reads.peek _ (Reads.pure ⟨hfirst, rfl⟩))
  | cons next lines ih =>
    rw [List.forall_mem_cons] at hlines
    obtain ⟨hnext, hlines⟩ := hlines
    refine Repeats.goes (fun reversed =>
      reversed.reverse.map Stmt.form = lineForms (before ++ [next])) ?_ ?_ fun reversed hreversed => ?_
    · have hstep : Reads (do return ((← statement (rules named (depth + 2))).reverse ++ reversed, true))
          (next.1 ++ [.newline]) (lineTokens lines ++ [.stop]) fun found : List Stmt × Bool =>
            found.1.reverse.map Stmt.form = lineForms (before ++ [next]) ∧ found.2 = true := by
        refine Reads.bindLast hnext.statement fun body hbody => Reads.pure ⟨?_, rfl⟩
        rw [List.reverse_append, List.reverse_reverse, List.map_append, hfirst, hbody, lineForms,
          lineForms, List.map_append, List.map_singleton]
      obtain ⟨first, more, heq, hbegins⟩ := hnext.operand.begins
      change Reads _ (next.1 ++ [.newline]) (lineTokens lines ++ [.stop]) _
      rw [heq] at hstep ⊢
      refine Reads.peek _ ?_
      cases first <;> first | exact hstep | cases hbegins
    · exact List.append_ne_nil_of_right_ne_nil _ (List.cons_ne_nil _ _)
    · rw [List.append_cons]
      exact ih hlines _ _ hreversed

/-- A text of lines that are values is read as these values. -/
theorem exists_readText {text : List Char} {lines : List (List Token × Expr)}
    (hlines : ∀ line ∈ lines, ValueLine named depth line.1 line.2) (hdepth : depth + 2 = depthLimit)
    (htokens : (Token.scan text).tokens = lineTokens lines ++ [.stop]) :
    ∃ body scan, readText named text wholeBlock = .ok (body, scan) ∧
      body.map Stmt.form = lineForms lines := by
  have hblock : Reads (wholeBlock (rules named (depth + 2))) (lineTokens lines) [.stop]
      fun body => body.map Stmt.form = lineForms lines := by
    cases lines with
    | nil => exact Reads.peek _ (Reads.pure rfl)
    | cons line lines =>
      have hbody := reads_statements hlines
      obtain ⟨first, more, heq, hbegins⟩ := (hlines line List.mem_cons_self).operand.begins
      rw [lineTokens, List.flatMap_cons, heq] at hbody ⊢
      refine Reads.peek _ ?_
      cases first with
      | name id => exact Reads.bindLast hbody fun body hforms => Reads.peek _ (Reads.pure hforms)
      | text lexeme => exact Reads.bindLast hbody fun body hforms => Reads.peek _ (Reads.pure hforms)
      | _ => cases hbegins
  obtain ⟨body, reached, final, hforms, hread⟩ := hblock 0 0
  refine ⟨body, Token.scan text, ?_, hforms⟩
  unfold readText readTextAt
  rw [hdepth, ← htokens] at hread
  simp only [hread]

end TableAudit.Grammar
