import TableAudit.Proofs.Grammar.Reads
import TableAudit.Proofs.Token.Spelling

namespace TableAudit.Grammar

open TableAudit.Token

variable {named : String → Option Char}

/-- The tokens that a name or a text is made of. -/
def beginsOperand : Token → Bool
  | .name _ | .text _ => true
  | _ => false

/-- The tokens at which a value without operators has come to its end. -/
def endsOperand : Token → Bool
  | .op symbol => symbol == ")" || symbol == ","
  | .newline => true
  | _ => false

/-- The token after the first one makes it no name of an argument and no target. -/
def standsAlone : Token → Bool
  | .op symbol => !(symbol == "=" || symbol == ":=")
  | _ => true

theorem endsOperand_cases {token : Token} (h : endsOperand token = true) :
    token = .op ")" ∨ token = .op "," ∨ token = .newline := by
  cases token <;> simp_all [endsOperand]

theorem Takeable.op (symbol : String) : Takeable (.op symbol) :=
  ⟨Token.noConfusion, Token.noConfusion⟩

theorem Takeable.of_beginsOperand {token : Token} (h : beginsOperand token = true) :
    Takeable token := by
  cases token <;> first | exact ⟨Token.noConfusion, Token.noConfusion⟩ | cases h

section Levels

variable {g : Rules} {first after : Token} {tokens rest : List Token} {post : Expr → Prop}

/-- No operator of a level follows. -/
theorem Reads.leftOperator {ops : List (String × BinaryOp)} {operand : Reader Expr}
    (h : Reads operand tokens (after :: rest) post)
    (hops : ∀ symbol, after = .op symbol → ops.lookup symbol = none) :
    Reads (leftOperator ops operand) tokens (after :: rest) post := by
  refine bindLast h fun value hvalue => Repeats.repeatStep (Repeats.ends (peek _ ?_))
  cases after with
  | op symbol =>
    dsimp only [List.nil_append, List.headD_cons]
    rw [hops symbol rfl]
    exact pure ⟨hvalue, rfl⟩
  | _ => exact pure ⟨hvalue, rfl⟩

/-- No word that joins operands follows. -/
theorem Reads.booleanOperands {word : String} {op : BooleanOp} {operand : Reader Expr}
    (h : Reads operand tokens (after :: rest) post) (hword : after.isKeyword word = false) :
    Reads (booleanOperands word op operand) tokens (after :: rest) post := by
  refine bindLast h fun value hvalue => ?_
  refine look [value] ?_ (pure hvalue)
  exact Repeats.repeatStep (Repeats.ends (skipIf hword _ (pure ⟨rfl, rfl⟩)))

theorem Reads.factor (h : Reads (primary g) (first :: tokens) (after :: rest) post)
    (hfirst : beginsOperand first = true) (hafter : endsOperand after = true) :
    Reads (factor g) (first :: tokens) (after :: rest) post := by
  have hpower : Reads (power g) (first :: tokens) (after :: rest) post := by
    have hnoKeyword : first.isKeyword "await" = false := by cases first <;> first | rfl | cases hfirst
    have hbase : Reads (do if ← takeKeyword "await" then return .await (← primary g) else primary g)
        (first :: tokens) (after :: rest) post :=
      skipIf hnoKeyword _ h
    refine bindLast hbase fun value hvalue => skipIf ?_ _ (pure hvalue)
    rcases endsOperand_cases hafter with rfl | rfl | rfl <;> rfl
  refine peek _ ?_
  cases first with
  | name id => exact hpower
  | text lexeme => exact hpower
  | _ => cases hfirst

theorem Reads.bitOr (h : Reads g.factor tokens (after :: rest) post)
    (hafter : endsOperand after = true) : Reads (bitOr g) tokens (after :: rest) post := by
  have hops : ∀ symbol, after = .op symbol → symbol = ")" ∨ symbol = "," := by
    rintro symbol rfl
    simpa [endsOperand] using hafter
  refine leftOperator (leftOperator (leftOperator (leftOperator (leftOperator (leftOperator h
    ?_) ?_) ?_) ?_) ?_) ?_ <;>
    exact fun symbol heq => (hops symbol heq).elim (fun h => h ▸ rfl) (fun h => h ▸ rfl)

theorem Reads.comparison (h : Reads g.factor tokens (after :: rest) post)
    (hafter : endsOperand after = true) : Reads (comparison g) tokens (after :: rest) post := by
  have hoperand := bitOr h hafter
  refine bindLast hoperand fun value hvalue => ?_
  have hnone : Reads compareOp [] (after :: rest) (· = none) := by
    refine peek _ ?_
    rcases endsOperand_cases hafter with rfl | rfl | rfl <;> exact pure rfl
  refine look ([], []) ?_ (pure hvalue)
  exact Repeats.repeatStep (Repeats.ends (look none hnone (pure ⟨rfl, rfl⟩)))

theorem Reads.disjunction (h : Reads g.factor (first :: tokens) (after :: rest) post)
    (hfirst : beginsOperand first = true) (hafter : endsOperand after = true) :
    Reads (disjunction g) (first :: tokens) (after :: rest) post := by
  have hinversion : Reads (inversion g) (first :: tokens) (after :: rest) post := by
    have hnoKeyword : first.isKeyword "not" = false := by cases first <;> first | rfl | cases hfirst
    refine look 0 ?_ (bindLast (comparison h hafter) fun value hvalue => pure hvalue)
    exact Repeats.repeatStep (Repeats.ends (skipIf hnoKeyword _ (pure ⟨rfl, rfl⟩)))
  refine booleanOperands (booleanOperands hinversion ?_) ?_ <;>
    rcases endsOperand_cases hafter with rfl | rfl | rfl <;> rfl

/-- A value without operators, before a token that ends it, is an expression. -/
theorem Reads.expression (h : Reads g.factor (first :: tokens) (after :: rest) post)
    (hfirst : beginsOperand first = true) (hafter : endsOperand after = true) :
    Reads (expression g) (first :: tokens) (after :: rest) post := by
  have hnoLambda : first.isKeyword "lambda" = false := by
    cases first <;> first | rfl | cases hfirst
  refine peek _ (peekSecond _ (ofFalse hnoLambda ?_))
  refine bindLast (disjunction h hfirst hafter) fun value hvalue => isProbing _ (peek _ ?_)
  refine skipIf ?_ _ (pure hvalue)
  rcases endsOperand_cases hafter with rfl | rfl | rfl <;> rfl

end Levels

/-- At a depth of the grammar, tokens before the end of a value are a name or a text with what
    follows it, and have a value. -/
structure Operand (named : String → Option Char) (depth : Nat) (tokens : List Token) (value : Expr) : Prop where
  begins : ∃ first more, tokens = first :: more ∧ beginsOperand first = true
  standsAlone : ∀ second ∈ tokens.tail.head?, standsAlone second = true
  reads : ∀ after rest, endsOperand after = true →
    Reads (primary (rules named depth)) tokens (after :: rest) (· = value)

namespace Operand

variable {depth : Nat} {tokens rest : List Token} {value : Expr} {after : Token}

theorem standsAlone_second (h : Operand named depth tokens value) (hafter : endsOperand after = true)
    (rest : List Token) :
    Grammar.standsAlone ((tokens ++ after :: rest).tail.headD .stop) = true := by
  obtain ⟨first, more, rfl, -⟩ := h.begins
  cases more with
  | nil => rcases endsOperand_cases hafter with rfl | rfl | rfl <;> rfl
  | cons second more => exact h.standsAlone second rfl

theorem expression (h : Operand named depth tokens value) (hafter : endsOperand after = true) :
    Reads (rules named (depth + 2)).expression tokens (after :: rest) (· = value) := by
  have hreads := h.reads after rest hafter
  obtain ⟨first, more, rfl, hfirst⟩ := h.begins
  have hfactor : Reads (rules named (depth + 1)).factor (first :: more) (after :: rest) (· = value) :=
    Reads.factor hreads hfirst hafter
  exact Reads.expression hfactor hfirst hafter

theorem namedExpression (h : Operand named depth tokens value) (hafter : endsOperand after = true) :
    Reads (namedExpression (rules named (depth + 2))) tokens (after :: rest) (· = value) := by
  have hsecond := h.standsAlone_second hafter rest
  refine Reads.peek _ (Reads.peekSecond _ ?_)
  split
  · next hassign =>
    rw [hassign] at hsecond
    cases hsecond
  · exact h.expression hafter

theorem keywordName_eq_none (h : Operand named depth tokens value) (hafter : endsOperand after = true) :
    keywordName ((tokens ++ after :: rest).headD .stop)
      ((tokens ++ after :: rest).tail.headD .stop) = none := by
  have hsecond := h.standsAlone_second hafter rest
  unfold keywordName
  split
  · next hequals =>
    rw [hequals] at hsecond
    cases hsecond
  · rfl

/-- No operator or bracket begins a name or a text. -/
theorem head_isOp (h : Operand named depth tokens value) (symbol : String) (more : List Token) :
    ((tokens ++ more).headD .stop).isOp symbol = false := by
  obtain ⟨first, others, rfl, hfirst⟩ := h.begins
  cases first <;> first | rfl | cases hfirst

end Operand

section Arguments

variable {depth : Nat} {tokens rest : List Token} {value : Expr} {after : Token}

/-- The arguments of a call that has only positional ones. -/
def CallState.ofValues (values : List Expr) : CallState :=
  ⟨values, [], [], .positional⟩

/-- A positional argument is added to those before it; then comes what is to come after one. -/
theorem Operand.argumentStep (h : Operand named depth tokens value) (done : List Expr)
    (hafter : endsOperand after = true) {more follows : List Token}
    {post : CallState × Bool → Prop} (hmore : more ++ rest = after :: follows)
    (hend : Reads (do
        if ← takeOp "," then return (CallState.ofValues (done ++ [value]), !(← nextIsOp ")"))
        else return (CallState.ofValues (done ++ [value]), false)) more rest post) :
    Reads (argumentStep (rules named (depth + 2)) (CallState.ofValues done)) (tokens ++ more) rest
      post := by
  have hname : Reads _ _ (after :: follows) _ := h.namedExpression hafter
  have hclause : Reads nextIsClause [] (after :: follows) (· = false) := by
    refine Reads.nextIsKeyword "for" _ ?_
    rcases endsOperand_cases hafter with rfl | rfl | rfl <;>
      exact Reads.ofFalse rfl (Reads.nextIsKeyword "async" _ (Reads.ofFalse rfl (Reads.pure rfl)))
  refine Reads.peek _ (Reads.peekSecond _ ?_)
  rw [List.append_assoc, hmore, h.keywordName_eq_none hafter]
  have hnoStar (symbol : String) :
      ((tokens ++ more ++ rest).headD .stop).isOp symbol = false := by
    rw [List.append_assoc]
    exact h.head_isOp symbol _
  refine Reads.skipIf (hnoStar "**") _ (Reads.ofFalse rfl (Reads.nextIsOp "*" _ ?_))
  refine Reads.ofFalse (by rw [hnoStar, Bool.false_and]) ?_
  rw [if_neg fun hphase => hphase rfl]
  rw [← hmore] at hname hclause
  refine Reads.bind hname ?_
  rintro _ rfl
  exact Reads.look false hclause (Reads.ofFalse (Bool.and_false _) hend)

/-- Arguments with commas between them, after some others. -/
theorem repeats_argumentStep {items : List (List Token × Expr)} (hne : items ≠ [])
    (hitems : ∀ item ∈ items, Operand named depth item.1 item.2) (done : List Expr) :
    Repeats (argumentStep (rules named (depth + 2))) (.ofValues done)
      ([.op ","].intercalate (items.map Prod.fst)) (.op ")" :: rest)
      (· = .ofValues (done ++ items.map Prod.snd)) := by
  induction items generalizing done with
  | nil => exact absurd rfl hne
  | cons item items ih =>
    rw [List.forall_mem_cons] at hitems
    obtain ⟨hitem, hitems⟩ := hitems
    cases items with
    | nil =>
      rw [List.map_singleton, List.map_singleton, List.intercalate_singleton, ← List.append_nil item.1]
      refine Repeats.ends ?_
      have hclosed : endsOperand (.op ")") = true := rfl
      exact hitem.argumentStep done hclosed rfl (Reads.skipIf rfl _ (Reads.pure ⟨rfl, rfl⟩))
    | cons next items =>
      have hnext := hitems next List.mem_cons_self
      obtain ⟨more, hmore⟩ := exists_intercalate_cons [Token.op ","] next.1 (items.map Prod.fst)
      rw [List.map_cons, List.map_cons, List.intercalate_cons_cons, ← List.map_cons]
      refine Repeats.goes (· = .ofValues (done ++ [item.2])) ?_ ?_ ?_
      · have hcomma : endsOperand (.op ",") = true := rfl
        refine hitem.argumentStep done hcomma rfl (Reads.takeIf (.op ",") rfl _ ?_)
        refine Reads.nextIsOp ")" _ (Reads.pure ⟨rfl, ?_⟩)
        rw [List.map_cons, hmore, List.nil_append, List.append_assoc, hnext.head_isOp]
        rfl
      · exact List.append_ne_nil_of_right_ne_nil _ (List.cons_ne_nil _ _)
      · rintro _ rfl
        have hrest := ih (List.cons_ne_nil _ _) hitems (done ++ [item.2])
        rw [List.append_assoc] at hrest
        exact hrest

/-- The arguments of a call up to the closing parenthesis. -/
theorem Reads.arguments {items : List (List Token × Expr)}
    (hitems : ∀ item ∈ items, Operand named depth item.1 item.2) :
    Reads (arguments (rules named (depth + 2)))
      ([.op ","].intercalate (items.map Prod.fst) ++ [.op ")"]) rest
      (· = .ofValues (items.map Prod.snd)) := by
  cases items with
  | nil => exact takeIf (.op ")") rfl _ (ofTrue rfl (pure rfl))
  | cons item items =>
    have hloop : Reads _ _ (.op ")" :: rest) _ :=
      (repeats_argumentStep (List.cons_ne_nil _ _) hitems []).repeatStep
    obtain ⟨more, hmore⟩ := exists_intercalate_cons [Token.op ","] item.1 (items.map Prod.fst)
    refine skipIf ?_ _ (ofFalse rfl (bind hloop ?_))
    · rw [List.map_cons, hmore, List.append_assoc, List.append_assoc]
      exact (hitems item List.mem_cons_self).head_isOp ..
    · rintro _ rfl
      exact expect (.op ")") rfl _ (pure rfl)

end Arguments

/-- One step of what follows an atom: a member, a call or an item. -/
def trailer (g : Rules) (e : Expr) : Reader (Expr × Bool) := do
  if ← takeOp "." then return (.member e (← expectName), true)
  else if ← takeOp "(" then
    let call ← arguments g
    return (.call e call.args call.names call.values, true)
  else if ← takeOp "[" then
    let index ← slices g
    expectOp "]"
    return (.subscript e index, true)
  else return (e, false)

theorem trailers_eq (g : Rules) (first : Expr) : trailers g first = repeatStep (trailer g) first :=
  rfl

/-- Nothing follows an atom at the end of a value. -/
theorem reads_trailer_end {g : Rules} {after : Token} {rest : List Token} (value : Expr)
    (hafter : endsOperand after = true) :
    Reads (trailer g value) [] (after :: rest) fun found => found.1 = value ∧ found.2 = false := by
  rcases endsOperand_cases hafter with rfl | rfl | rfl <;>
    exact Reads.skipIf rfl _ (Reads.skipIf rfl _ (Reads.skipIf rfl _ (Reads.pure ⟨rfl, rfl⟩)))

theorem repeats_trailer_members {g : Rules} {more rest : List Token} {post : Expr → Prop}
    (attrs : List String) {value : Expr}
    (h : Repeats (trailer g) (attrs.foldl Expr.member value) more rest post) :
    Repeats (trailer g) value (memberTokens attrs ++ more) rest post := by
  induction attrs generalizing value with
  | nil => exact h
  | cons attr attrs ih =>
    refine (Repeats.goes (· = Expr.member value attr) ?_ (List.cons_ne_nil _ _) ?_ :
      Repeats _ _ ([.op ".", .name attr] ++ (memberTokens attrs ++ more)) _ _)
    · have hname (others : List Token) : Reads expectName [.name attr] others (· = attr) :=
        Reads.peek _ (Reads.take (Takeable.of_beginsOperand rfl) _ (Reads.pure rfl))
      refine Reads.takeIf (.op ".") rfl _ (Reads.bindLast (hname _) ?_)
      rintro _ rfl
      exact Reads.pure ⟨rfl, rfl⟩
    · rintro _ rfl
      exact ih h

theorem repeats_trailer_call {depth : Nat} {after : Token} {rest : List Token} (value : Expr)
    {items : List (List Token × Expr)} (hitems : ∀ item ∈ items, Operand named depth item.1 item.2)
    (hafter : endsOperand after = true) :
    Repeats (trailer (rules named (depth + 2))) value (argumentTokens (items.map Prod.fst)) (after :: rest)
      (· = .call value (items.map Prod.snd) [] []) := by
  have hcall : Reads (trailer (rules named (depth + 2)) value) (argumentTokens (items.map Prod.fst)) (after :: rest)
      fun found => found.1 = .call value (items.map Prod.snd) [] [] ∧ found.2 = true := by
    refine Reads.skipIf rfl _ (Reads.takeIf (.op "(") rfl _ (Reads.bindLast (Reads.arguments hitems) ?_))
    rintro _ rfl
    exact Reads.pure ⟨rfl, rfl⟩
  refine Repeats.alone (· = .call value (items.map Prod.snd) [] []) hcall (List.cons_ne_nil _ _) ?_
  rintro _ rfl
  exact reads_trailer_end _ hafter

namespace Operand

variable {depth : Nat} {rest : List Token}

theorem text (text : String) :
    Operand named depth [.text (Text.Quoted.encode text.toList)] (.literal (.text text false)) := by
  refine ⟨⟨_, [], rfl, rfl⟩, nofun, fun after rest hafter => ?_⟩
  have hatom : Reads (atom (rules named depth)) [.text (Text.Quoted.encode text.toList)] (after :: rest)
      (· = .literal (.text text false)) := by
    let lexeme := Text.Quoted.encode text.toList
    refine Reads.peek _ ?_
    change Reads (textLiteral (rules named depth)) [.text lexeme] (after :: rest) _
    refine Reads.bindLast (?_ : Reads _ _ _ (· = [lexeme])) ?_
    · refine Repeats.repeatStep (Repeats.alone (· = [lexeme]) ?_ (List.cons_ne_nil _ _) ?_)
      · exact Reads.peek _ (Reads.take (Takeable.of_beginsOperand rfl) _ (Reads.pure ⟨rfl, rfl⟩))
      · rintro _ rfl
        refine Reads.peek _ ?_
        rcases endsOperand_cases hafter with rfl | rfl | rfl <;> exact Reads.pure ⟨rfl, rfl⟩
    · rintro _ rfl
      rw [List.reverse_singleton, Text.Quoted.textLiteral?_encode]
      exact Reads.pure rfl
  refine Reads.bindLast hatom ?_
  rintro _ rfl
  rw [trailers_eq]
  exact Repeats.repeatStep (Repeats.ends (reads_trailer_end _ hafter))

/-- A call of a path of names with operands is an operand. -/
theorem call (root : String) (attrs : List String) {items : List (List Token × Expr)}
    (hitems : ∀ item ∈ items, Operand named depth item.1 item.2) :
    Operand named (depth + 2) (.name root :: (memberTokens attrs ++ argumentTokens (items.map Prod.fst)))
      (.call (attrs.foldl Expr.member (.name root)) (items.map Prod.snd) [] []) := by
  refine ⟨⟨_, _, rfl, rfl⟩, ?_, fun after rest hafter => ?_⟩
  · cases attrs <;> rintro _ ⟨⟩ <;> rfl
  have hatom (more : List Token) :
      Reads (atom (rules named (depth + 2))) [.name root] more (· = .name root) :=
    Reads.peek _ (Reads.take (Takeable.of_beginsOperand rfl) _ (Reads.pure rfl))
  refine (Reads.bind (hatom _) ?_ : Reads _ ([.name root] ++ _) _ _)
  rintro _ rfl
  rw [trailers_eq]
  exact (repeats_trailer_members attrs (repeats_trailer_call _ hitems hafter)).repeatStep

end Operand

end TableAudit.Grammar
