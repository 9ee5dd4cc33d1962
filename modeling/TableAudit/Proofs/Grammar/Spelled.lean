import TableAudit.Proofs.Grammar.Spelling

namespace TableAudit.Grammar

open TableAudit.Expr

variable {named : String → Option Char} {g : Rules}

/-- Rules whose readers of expressions spell what they give, those of embedded ones included. -/
class SpellingRules (g : Rules) : Prop where
  expression : Spelling g.named g.expression
  factor : Spelling g.named g.factor
  primary : Spelling g.named g.primary
  embedded : ∀ source e, g.embedded source = some e →
    ∃ tokens, tokens <+: embeddedTokens source ∧ Written g.named tokens e e.markers

attribute [instance] SpellingRules.expression SpellingRules.factor SpellingRules.primary

theorem consumes_nextIsClause : Consumes [] nextIsClause fun used _ => used = [] := by
  unfold nextIsClause
  refine .look (fun _ => ⟨_, rfl⟩) fun loops => ?_
  split
  · exact .pure rfl
  · refine .look (fun _ => ⟨_, rfl⟩) fun isAsync => ?_
    split
    · exact .look (fun _ => ⟨_, rfl⟩) fun second => .pure rfl
    · exact .pure rfl

instance : Quiet nextIsClause :=
  ⟨consumes_nextIsClause.mono fun _ _ hused => hused ▸ Silent.nil⟩

instance (ops : List (String × BinaryOp)) (operand : Reader Expr) [Spelling named operand] :
    Spelling named (leftOperator ops operand) := by
  unfold leftOperator
  refine .of_spells (.expr fun first => .repeatStep (fun parts left hparts => ?_) rfl)
  obtain rfl := hparts
  refine .peek fun token => ?_
  split
  · split
    · refine .take (silent_single rfl rfl) (.expr fun right => ?_)
      exact .pure (.inOrder rfl rfl rfl) rfl
    · exact .pure (.refl _) rfl
  · exact .pure (.refl _) rfl

instance : Quiet compareOp := by
  have hnext (word next : String) {reader : Reader (Option CompareOp)} [hreader : Quiet reader] :
      Consumes [.keyword word] (take >>= fun _ => reader) fun used _ => Silent used :=
    .take fun _ => hreader.consumes.mono fun more _ hmore => (silent_single rfl rfl).append hmore
  refine ⟨.peek fun token => ?_⟩
  split
  · split
    · exact .take fun _ => .pure (silent_single rfl rfl)
    · exact .pure Silent.nil
  · exact .take fun _ => .pure (silent_single rfl rfl)
  · exact hnext "not" "in"
  · exact hnext "is" "not"
  · exact .pure Silent.nil

theorem folds_negations (l : List Nat) (e : Expr) :
    Folds named [e] [l.foldl (fun e _ => .unary .not e) e] := by
  induction l generalizing e with
  | nil => exact .refl [e]
  | cons n rest ih =>
    have hone : Folds named [e] [.unary .not e] := .inOrder rfl rfl rfl
    exact hone.trans (ih (.unary .not e))

theorem folds_tupleOrItem (items : List Expr) (comma : Bool) :
    Folds named items [tupleOrItem items comma] := by
  unfold tupleOrItem
  split
  · exact .refl _
  · exact .inOrder rfl rfl rfl

section Rules

variable [hrules : SpellingRules g]

instance : Spelling g.named (textLiteral g) := by
  unfold textLiteral
  have hloop : Consumes [] (repeatStep (fun (reversed : List (List Char)) => do
      match ← peek with
      | .text lexeme =>
        let _ ← take
        return (lexeme :: reversed, true)
      | _ => return (reversed, false)) []) fun used reversed => used = reversed.reverse.map .text := by
    refine .repeatStep (fun used reversed hused => .peek fun token => ?_) rfl
    split
    · refine .take fun _ => .pure ?_
      rw [hused, List.reverse_cons, List.map_append]
      rfl
    · refine .pure ?_
      rw [List.append_nil, hused]
  refine ⟨hloop.bind ?_⟩
  rintro _ reversed rfl
  cases hliteral : textLiteral? g.named g.embedded reversed.reverse with
  | none => exact .reject
  | some e =>
    refine .pure ?_
    rw [List.append_nil]
    exact written_of_textLiteral? hrules.embedded hliteral

instance : Spelling g.named (namedExpression g) := by
  unfold namedExpression
  refine .of_spells (.peek fun token => .peekSecond fun second => ?_)
  split
  · refine .takeRun (.of_written .name) (.take (silent_single rfl rfl) (.expr fun value => ?_))
    exact .pure (.inOrder rfl rfl rfl) rfl
  · exact .alone

instance : Spelling g.named (bitOr g) := by
  unfold bitOr bitAnd
  infer_instance

instance : Spelling g.named (comparison g) := by
  unfold comparison
  refine .of_spells (.expr fun left => .afterLoop (fun parts (state : List CompareOp × List Expr) =>
    parts = left :: state.2.reverse ∧ (state.1 = [] → state.2 = [])) ⟨rfl, fun _ => rfl⟩ ?_ ?_)
  · rintro _ ⟨ops, rest⟩ ⟨rfl, hops⟩
    refine .quiet fun op => ?_
    split
    · refine .expr fun right => .pure (.refl _) ⟨?_, nofun⟩
      rw [List.reverse_cons, List.cons_append]
    · exact .pure (.refl _) ⟨rfl, hops⟩
  · rintro _ ⟨ops, rest⟩ ⟨rfl, hops⟩
    dsimp only at hops ⊢
    split
    · next hempty =>
      rw [hops (List.isEmpty_iff.mp hempty)]
      exact .pure (.refl _) rfl
    · exact .pure (.inOrder rfl rfl rfl) rfl

instance : Spelling g.named (inversion g) := by
  unfold inversion
  refine .of_spells (.quiet fun count => .expr fun operand => ?_)
  exact .pure (folds_negations (List.range count) operand) rfl

instance (word : String) (op : BooleanOp) (operand : Reader Expr) [Spelling named operand] :
    Spelling named (booleanOperands word op operand) := by
  unfold booleanOperands
  refine .of_spells (.expr fun first => .afterLoop (fun parts (reversed : List Expr) =>
    parts = reversed.reverse) rfl ?_ ?_)
  · rintro _ reversed rfl
    refine .quiet fun more => ?_
    split
    · refine .expr fun e => .pure (.refl _) ?_
      rw [List.reverse_cons]
    · exact .pure (.refl _) rfl
  · rintro _ reversed rfl
    split
    · exact .pure (.refl _) rfl
    · exact .pure (.inOrder rfl rfl rfl) rfl

instance : Spelling g.named (disjunction g) := by
  unfold disjunction
  infer_instance

theorem quiet_annotation (value : Reader Expr) : Quiet <| annotation false value :=
  inferInstanceAs (Quiet (pure ()))

/-- The defaults read so far. Parameters that are passed by name only come last. -/
structure Defaults (parts : List Expr) (state : ParamState) : Prop where
  parts_eq : parts = state.defaults ++ state.keywordDefaults
  eq_nil : state.starred = false → state.keywordDefaults = []

/-- What follows a parameter changes nothing. -/
theorem spells_endParam {closes : Token → Bool} {parts : List Expr} {state : ParamState}
    (h : Defaults parts state) :
    Spells named parts [] (endParam closes state) fun after found => Defaults after found.1 := by
  unfold endParam
  refine .quiet fun comma => ?_
  split
  · exact .pure (.refl _) h
  · refine .quiet fun token => ?_
    split
    · exact .pure (.refl _) h
    · exact .unexpected

theorem spells_paramStep {closes : Token → Bool} {parts : List Expr} {state : ParamState}
    (h : Defaults parts state) :
    Spells g.named parts [] (paramStep g false closes state) fun after found => Defaults after found.1 := by
  have hannotation (value : Reader Expr) := quiet_annotation value
  have hdefault : Spells g.named parts [] (do if ← takeOp "=" then return some (← g.expression) else return none)
      fun after found => after = parts ++ found.toList := by
    refine .quiet fun answer => ?_
    split
    · exact .expr fun e => .pure (.refl _) rfl
    · refine .pure (.refl _) ?_
      rw [Option.toList_none, List.append_nil]
  unfold paramStep
  dsimp only
  refine .quiet fun token => ?_
  split
  · exact .pure (.refl _) h
  split
  · exact .unexpected
  refine .quiet fun doubleStar => ?_
  split
  · refine .quiet fun id => .quiet fun _ => ?_
    split
    · exact .quiet fun _ => spells_endParam ⟨h.parts_eq, h.eq_nil⟩
    · exact spells_endParam ⟨h.parts_eq, h.eq_nil⟩
  refine .nextIsOp (fun answer => answer && !state.starred) rfl ?_ ?_
  · refine .takeOp (.quiet fun comma => ?_)
    split
    · exact spells_endParam ⟨h.parts_eq, nofun⟩
    · exact .quiet fun id => .quiet fun _ => spells_endParam ⟨h.parts_eq, nofun⟩
  refine .nextIsOp (fun answer => answer && !state.starred && state.params.slashed.isEmpty &&
    !state.params.plain.isEmpty) rfl ?_ ?_
  · exact .takeOp (spells_endParam ⟨h.parts_eq, h.eq_nil⟩)
  refine .quiet fun id => .quiet fun _ => hdefault.bind ?_
  rintro _ default rfl
  split
  · next hstarred =>
    refine spells_endParam ⟨?_, fun hnot => ?_⟩
    · rw [h.parts_eq, List.append_assoc]
    · rw [hstarred] at hnot
      cases hnot
  · next hstarred =>
    split
    · exact .unexpected
    · have hnil := h.eq_nil (Bool.eq_false_iff.mpr hstarred)
      refine spells_endParam ⟨?_, fun _ => hnil⟩
      rw [h.parts_eq, hnil, List.append_nil, List.append_nil]

theorem spells_parameters (closes : Token → Bool) :
    Spells g.named [] [] (parameters g false closes) fun after found => after = found.2.2 ++ found.2.1 := by
  unfold parameters
  refine .afterLoop Defaults ⟨rfl, fun _ => rfl⟩ (fun _ _ h => spells_paramStep h) ?_
  intro parts state h
  split
  · exact .unexpected
  · exact .pure (.refl _) h.parts_eq

instance : Spelling g.named (lambda g) := by
  unfold lambda
  refine .of_spells (.quiet fun _ => (spells_parameters _).bind ?_)
  rintro _ ⟨params, keywordDefaults, defaults⟩ rfl
  refine .quiet fun _ => .expr fun body => ?_
  exact .pure .lambda rfl

instance : Quiet (probeMissingComma g) := by
  refine ⟨fun input value reached _ hread => ⟨[], ?_, Silent.nil⟩⟩
  unfold probeMissingComma at hread
  split at hread
  · cases hread
  · split at hread
    · cases hread
    · cases hread
      exact .refl input

instance : Spelling g.named (expression g) := by
  unfold expression
  refine .of_spells (.quiet fun first => .quiet fun second => ?_)
  split
  · exact .alone
  refine .expr fun body => .quiet fun probing => .quiet fun token => ?_
  have hrest : Spells g.named [body] [] (do
      if ← takeKeyword "if" then
        let test ← disjunction g
        expectKeyword "else"
        return .conditional test body (← g.expression)
      else return body) Alone := by
    refine .quiet fun conditional => ?_
    split
    · refine .expr fun test => .quiet fun _ => .expr fun otherwise => ?_
      exact .pure .conditional rfl
    · exact .pure (.refl _) rfl
  split
  · exact .quiet fun _ => hrest
  · exact hrest

instance : Spelling g.named (starExpression g) := by
  unfold starExpression
  refine .of_spells (.quiet fun star => ?_)
  split
  · exact .expr fun e => .pure (.inOrder rfl rfl rfl) rfl
  · exact .alone

instance : Spelling g.named (starNamedExpression g) := by
  unfold starNamedExpression
  refine .of_spells (.quiet fun star => ?_)
  split
  · exact .expr fun e => .pure (.inOrder rfl rfl rfl) rfl
  · exact .alone

instance : Spelling g.named (starExpressions g) := by
  unfold starExpressions
  refine .of_spells (Spells.commaSeparatedExprs.bind ?_)
  rintro _ ⟨items, comma⟩ rfl
  exact .pure (folds_tupleOrItem _ comma) rfl

instance : Spelling g.named (yieldExpression g) := by
  unfold yieldExpression
  refine .of_spells (.quiet fun _ => .quiet fun delegates => ?_)
  split
  · exact .expr fun e => .pure (.inOrder rfl rfl rfl) rfl
  refine .quiet fun token => ?_
  split
  · exact .expr fun e => .pure (.inOrder rfl rfl rfl) rfl
  · exact .pure (.inOrder rfl rfl rfl) rfl

instance : Spelling g.named (assignedValue g) := by
  unfold assignedValue
  refine .of_spells (.quiet fun yields => ?_)
  split <;> exact .alone

instance : Spelling g.named (targets g) := by
  have htarget : Spelling g.named (do
      let starred ← takeOp "*"
      let e ← g.primary
      if !isTarget e then unexpected
      else if starred then return .starred e
      else return e) := by
    refine .of_spells (.quiet fun starred => .expr fun e => ?_)
    split
    · exact .unexpected
    · split
      · exact .pure (.inOrder rfl rfl rfl) rfl
      · exact .pure (.refl _) rfl
  unfold targets
  refine .of_spells (Spells.commaSeparatedExprs.bind ?_)
  rintro _ ⟨items, comma⟩ rfl
  exact .pure (folds_tupleOrItem _ comma) rfl

theorem spells_clauses (parts : List Expr) :
    Spells g.named parts [] (clauses g) fun after found => after = parts ++ found := by
  have hclause : Spelling g.named (do
      let isAsync ← takeKeyword "async"
      expectKeyword "for"
      let target ← targets g
      expectKeyword "in"
      let source ← disjunction g
      let conditions ← repeatStep (fun (reversed : List Expr) => do
        if ← takeKeyword "if" then return ((← disjunction g) :: reversed, true)
        else return (reversed, false)) []
      return .clause isAsync target source conditions.reverse) := by
    refine .of_spells (.quiet fun isAsync => .quiet fun _ => .expr fun target => .quiet fun _ =>
      .expr fun source => .afterLoop (fun parts (reversed : List Expr) =>
        parts = target :: source :: reversed.reverse) rfl ?_ ?_)
    · rintro _ reversed rfl
      refine .quiet fun more => ?_
      split
      · refine .expr fun e => .pure (.refl _) ?_
        rw [List.reverse_cons]
        rfl
      · exact .pure (.refl _) rfl
    · rintro _ reversed rfl
      exact .pure (.inOrder rfl rfl rfl) rfl
  unfold clauses
  refine .afterLoop (fun after (reversed : List Expr) => after = parts ++ reversed.reverse) ?_ ?_ ?_
  · rw [List.reverse_nil, List.append_nil]
  · rintro _ reversed rfl
    refine .quiet fun more => ?_
    split
    · refine .expr fun e => .pure (.refl _) ?_
      rw [List.reverse_cons, List.append_assoc]
    · exact .pure (.refl _) rfl
  · rintro _ reversed rfl
    exact .pure (.refl _) rfl

/-- An argument is read and joins those of its kind. -/
inductive CallState.Takes (named : String → Option Char) (state : CallState) : Argument → CallState → Prop
  | positional {tokens : List Token} {e : Expr} {comma : Bool}
      (hplain : isIntroduced tokens = false) (hwritten : Written named tokens e e.markers) :
      Takes named state ⟨none, tokens, e, e.markers, comma⟩ { state with args := state.args ++ [e] }
  | named {keyword : Option String} {tokens : List Token} {e : Expr} {comma : Bool}
      {phase : ArgumentPhase} (hwritten : Written named tokens e e.markers) :
      Takes named state ⟨some keyword, tokens, e, e.markers, comma⟩
        { state with names := state.names ++ [keyword], values := state.values ++ [e], phase }

/-- The value of a positional argument is read, with the comma that may follow it. -/
inductive CallState.TakesLast (named : String → Option Char) (state : CallState) :
    List Token → CallState × Bool → Prop
  | positional {tokens : List Token} {e : Expr} {comma goesOn : Bool}
      (hwritten : Written named tokens e e.markers) (hcomma : goesOn = true → comma = true) :
      TakesLast named state (tokens ++ if comma then [.op ","] else [])
        ({ state with args := state.args ++ [e] }, goesOn)

/-- Tokens that are announced otherwise than by a name and a sign are not introduced. -/
theorem isIntroduced_eq_false {token second : Token} {used more rest : List Token}
    (hname : keywordName token second = none) (hsign : token.isOp "**" = false)
    (h : Front [token, second] (used ++ more ++ rest)) : isIntroduced used = false := by
  unfold isIntroduced
  split
  · obtain ⟨rfl, rfl, -⟩ := h
    cases hname
  · obtain ⟨rfl, -⟩ := h
    cases hsign
  · rfl

theorem consumes_argumentStep (state : CallState) :
    Consumes [] (argumentStep g state) fun used found => ∃ argument, used = argument.text ∧
      state.Takes g.named argument found.1 ∧ (found.2 = true → argument.comma = true) := by
  have hgoOn (state : CallState) : Consumes [] (do
        if ← takeOp "," then return (state, !(← nextIsOp ")")) else return (state, false))
        fun used found => found.1 = state ∧ ∃ comma : Bool,
          used = (if comma then [.op ","] else []) ∧ (found.2 = true → comma = true) := by
    refine Consumes.takeIf.bind ?_
    rintro used answer (⟨rfl, token, htoken, rfl, -⟩ | ⟨rfl, rfl⟩)
    · obtain rfl := eq_of_isOp htoken
      exact .look (fun _ => ⟨_, rfl⟩) fun closes => .pure ⟨rfl, true, rfl, fun _ => rfl⟩
    · exact .pure ⟨rfl, false, rfl, nofun⟩
  have hnamed (keyword : Option String) (phase : ArgumentPhase) : Consumes [] (do
        let value ← g.expression
        let state : CallState := { state with
          names := state.names ++ [keyword], values := state.values ++ [value], phase }
        if ← takeOp "," then return (state, !(← nextIsOp ")")) else return (state, false))
        fun used found => ∃ argument, introduction (some keyword) ++ used = argument.text ∧
          state.Takes g.named argument found.1 ∧ (found.2 = true → argument.comma = true) := by
    refine hrules.expression.consumes.bind fun tokens value hwritten => (hgoOn _).mono ?_
    rintro more ⟨found, goesOn⟩ ⟨rfl, comma, rfl, hcomma⟩
    exact ⟨⟨some keyword, tokens, value, value.markers, comma⟩, (List.append_assoc ..).symm,
      .named hwritten, hcomma⟩
  unfold argumentStep
  dsimp only
  refine .peek fun token => .peekSecond fun second => ?_
  cases hname : keywordName token second with
  | some id =>
    unfold keywordName at hname
    split at hname
    · cases hname
      exact .take fun _ => .take fun _ => hnamed (some id) _
    · cases hname
  | none =>
    refine .takeIf_ahead (fun htoken => ?_) fun hsign => ?_
    · obtain rfl := eq_of_isOp htoken
      exact (hnamed none .spread).anywhere
    rw [if_neg Bool.false_ne_true]
    refine .nextIsOp_ahead ?_
    split
    · next hstar =>
      obtain rfl := eq_of_isOp (Bool.and_eq_true_iff.mp hstar).1
      refine .take fun _ => hrules.expression.consumes.anywhere.bind fun tokens value hwritten =>
        (hgoOn _).mono ?_
      rintro more ⟨found, goesOn⟩ ⟨rfl, comma, rfl, hcomma⟩
      have hstarred : Folds g.named [value] [.starred value] := .inOrder rfl rfl rfl
      have hrun : Run g.named (.op "*" :: tokens) [.starred value] :=
        hstarred _ (.silent_append (silent_single rfl rfl) (.of_written hwritten))
      exact ⟨⟨none, .op "*" :: tokens, _, _, comma⟩, rfl, .positional rfl hrun.written, hcomma⟩
    split
    · exact .unexpected
    -- what the argument begins with is known when all of it is read
    have hargument (used : List Token) (found : CallState × Bool)
        (h : state.TakesLast g.named used found ∧ ∃ rest, Front [token, second] (used ++ rest)) :
        ∃ argument, used = argument.text ∧ state.Takes g.named argument found.1 ∧
          (found.2 = true → argument.comma = true) := by
      obtain ⟨⟨hwritten, hcomma⟩, rest, hfront⟩ := h
      exact ⟨⟨none, _, _, _, _⟩, rfl, .positional (isIntroduced_eq_false hname hsign hfront) hwritten,
        hcomma⟩
    refine (Consumes.fronted ?_).mono hargument
    have hvalue : Spelling g.named (namedExpression g) := inferInstance
    refine hvalue.consumes.anywhere.bind fun tokens value hwritten => ?_
    refine consumes_nextIsClause.bind ?_
    rintro _ isClause rfl
    simp only [List.nil_append]
    split
    · next hsingle =>
      have hclauses := spells_clauses (g := g) [value]
      refine Consumes.bind hclauses ?_
      rintro more clauses ⟨_, rfl, hrun⟩
      have hcomprehension : Folds g.named ([value] ++ clauses) [.comprehension .round value clauses] :=
        .inOrder rfl rfl rfl
      have hwhole := (hcomprehension _ (hrun tokens (.of_written hwritten))).written
      have hempty : state.args = [] := List.isEmpty_iff.mp
        (Bool.and_eq_true_iff.mp (Bool.and_eq_true_iff.mp hsingle).1).1
      have htakes := @CallState.TakesLast.positional _ state _ _ false false hwhole nofun
      rw [hempty, List.append_assoc] at htakes
      exact .pure htakes
    · refine (hgoOn _).mono ?_
      rintro more ⟨found, goesOn⟩ ⟨rfl, comma, rfl, hcomma⟩
      exact .positional hwritten hcomma

/-- The arguments that were read so far, as they stand in the text. -/
structure CallState.Holds (named : String → Option Char) (state : CallState)
    (arguments : List Argument) : Prop where
  args : state.args = (Argument.positional arguments).map Argument.value
  names : state.names = arguments.filterMap Argument.keyword
  values : state.values = (Argument.named arguments).map Argument.value
  plain : ∀ argument ∈ arguments,
    argument.keyword = none → isIntroduced argument.tokens = false
  written : ∀ argument ∈ arguments, Written named argument.tokens argument.value argument.marks

theorem CallState.Holds.takes {state found : CallState} {arguments : List Argument}
    {argument : Argument} (h : state.Holds named arguments)
    (htakes : state.Takes named argument found) :
    found.Holds named (arguments ++ [argument]) := by
  have hone (hplain : argument.keyword = none → isIntroduced argument.tokens = false) :=
    List.forall_mem_append.mpr ⟨h.plain, List.forall_mem_singleton.mpr hplain⟩
  have hlast (hwritten : Written named argument.tokens argument.value argument.marks) :=
    List.forall_mem_append.mpr ⟨h.written, List.forall_mem_singleton.mpr hwritten⟩
  cases htakes with
  | positional hplain hwritten =>
    refine ⟨?_, ?_, ?_, hone fun _ => hplain, hlast hwritten⟩ <;>
      simp [h.args, h.names, h.values, Argument.positional, Argument.named]
  | named hwritten =>
    refine ⟨?_, ?_, ?_, hone fun h => absurd h (Option.some_ne_none _), hlast hwritten⟩ <;>
      simp [h.args, h.names, h.values, Argument.positional, Argument.named]

theorem consumes_arguments : Consumes [] (arguments g) fun used state =>
    ∃ arguments, used = arguments.flatMap Argument.text ++ [.op ")"] ∧ state.Holds g.named arguments ∧
      ∀ argument ∈ arguments.dropLast, argument.comma = true := by
  unfold arguments
  dsimp only
  refine Consumes.takeIf.bind ?_
  rintro used answer (⟨rfl, token, htoken, rfl, -⟩ | ⟨rfl, rfl⟩)
  · obtain rfl := eq_of_isOp htoken
    refine .pure ⟨[], rfl, ⟨rfl, rfl, rfl, ?_, ?_⟩, List.forall_mem_nil _⟩ <;>
      exact List.forall_mem_nil _
  have hstep (used : List Token) (state : CallState) (h : ∃ arguments,
      used = arguments.flatMap Argument.text ∧ state.Holds g.named arguments ∧
        ∀ argument ∈ arguments, argument.comma = true) :
      Consumes [] (argumentStep g state) fun more found => if found.2 then ∃ arguments,
          used ++ more = arguments.flatMap Argument.text ∧ found.1.Holds g.named arguments ∧
            ∀ argument ∈ arguments, argument.comma = true
        else ∃ arguments, used ++ more = arguments.flatMap Argument.text ∧
          found.1.Holds g.named arguments ∧ ∀ argument ∈ arguments.dropLast, argument.comma = true := by
    obtain ⟨arguments, rfl, hholds, hcommas⟩ := h
    refine (consumes_argumentStep state).mono ?_
    rintro _ ⟨found, goesOn⟩ ⟨argument, rfl, htakes, hcomma⟩
    have htext : arguments.flatMap Argument.text ++ argument.text =
        (arguments ++ [argument]).flatMap Argument.text := by
      rw [List.flatMap_append, List.flatMap_singleton]
    cases goesOn with
    | true =>
      refine ⟨_, htext, hholds.takes htakes, List.forall_mem_append.mpr ⟨hcommas, ?_⟩⟩
      exact List.forall_mem_singleton.mpr (hcomma rfl)
    | false =>
      refine ⟨_, htext, hholds.takes htakes, ?_⟩
      rwa [List.dropLast_concat]
  have hloop : Consumes [] (repeatStep (argumentStep g) ⟨[], [], [], .positional⟩)
      fun used state => ∃ arguments, used = arguments.flatMap Argument.text ∧
        state.Holds g.named arguments ∧ ∀ argument ∈ arguments.dropLast, argument.comma = true := by
    refine .repeatUntil ?_ hstep ⟨[], rfl, ⟨rfl, rfl, rfl, ?_, ?_⟩, ?_⟩
    · rintro used state ⟨arguments, htext, hholds, hcommas⟩
      exact ⟨arguments, htext, hholds, fun argument hmem =>
        hcommas argument (List.mem_of_mem_dropLast hmem)⟩
    all_goals exact List.forall_mem_nil _
  refine hloop.bind ?_
  rintro _ state ⟨arguments, rfl, hholds, hcommas⟩
  refine Consumes.expect.bind ?_
  rintro _ _ ⟨token, htoken, rfl, -⟩
  obtain rfl := eq_of_isOp htoken
  exact .pure ⟨arguments, rfl, hholds, hcommas⟩

/-- Behind a function its arguments complete a call. -/
theorem run_call (e : Expr) : Consumes [] (arguments g) fun used call =>
    ∀ tokens, Run g.named tokens [e] →
      Run g.named (tokens ++ .op "(" :: used) [.call e call.args call.names call.values] := by
  refine consumes_arguments.mono ?_
  rintro used ⟨_, _, _, phase⟩ ⟨arguments, rfl, ⟨rfl, rfl, rfl, hplain, hwritten⟩, hcommas⟩
    tokens hrun
  have hcall := Written.call hrun.written ⟨hplain, hcommas⟩ hwritten
  rw [List.append_assoc] at hcall
  exact .of_written hcall

instance : Spelling g.named (sliceItem g) := by
  have hbound (parts : List Expr) : Spells g.named parts [] (do
      if endsSequence (← peek) then return none else return some (← g.expression))
      fun after found => after = parts ++ found.toList := by
    refine .quiet fun token => ?_
    split
    · refine .pure (.refl _) ?_
      rw [Option.toList_none, List.append_nil]
    · exact .expr fun e => .pure (.refl _) rfl
  have hstep (parts : List Expr) : Spells g.named parts [] (do
      if ← takeOp ":" then
        if endsSequence (← peek) then return none else return some (← g.expression)
      else return none) fun after found => after = parts ++ found.toList := by
    refine .quiet fun colon => ?_
    split
    · exact hbound parts
    · refine .pure (.refl _) ?_
      rw [Option.toList_none, List.append_nil]
  have hlower : Spells g.named [] [] (do
      if ← nextIsOp ":" then return none else return some (← namedExpression g))
      fun after found => after = found.toList := by
    refine .quiet fun colon => ?_
    split
    · exact .pure (.refl _) rfl
    · exact .expr fun e => .pure (.refl _) rfl
  unfold sliceItem
  dsimp only
  refine .of_spells (.nextIsOp id rfl ?_ ?_)
  · exact .takeOp (.expr fun e => .pure (.inOrder rfl rfl rfl) rfl)
  refine .quiet fun second => hlower.bind ?_
  rintro _ lower rfl
  split
  · cases lower with
    | none => exact .pure (.inOrder rfl rfl rfl) rfl
    | some e => exact .pure (.refl _) rfl
  refine .quiet fun colon => ?_
  split
  · refine (hbound _).bind ?_
    rintro _ upper rfl
    refine (hstep _).bind ?_
    rintro _ step rfl
    exact .pure (.inOrder rfl rfl rfl) rfl
  · split
    · exact .pure (.refl _) rfl
    · exact .unexpected

instance : Spelling g.named (slices g) := by
  unfold slices
  refine .of_spells (Spells.commaSeparatedExprs.bind ?_)
  rintro _ ⟨items, comma⟩ rfl
  exact .pure (folds_tupleOrItem _ _) rfl

/-- The items behind the first one of a display. -/
theorem spells_moreItems (parts : List Expr) :
    Spells g.named parts [] (do
      if endsSequence (← peek) then return []
      else return (← commaSeparated (starNamedExpression g) endsSequence).1)
      fun after found => after = parts ++ found := by
  refine .quiet fun token => ?_
  split
  · exact .pure (.refl _) (List.append_nil _).symm
  · refine Spells.commaSeparatedExprs.bind ?_
    rintro _ found rfl
    exact .pure (.refl _) rfl

theorem spells_itemsAfterComma (parts : List Expr) :
    Spells g.named parts [] (do
      if ← takeOp "," then
        if endsSequence (← peek) then return []
        else return (← commaSeparated (starNamedExpression g) endsSequence).1
      else return []) fun after found => after = parts ++ found := by
  refine .quiet fun comma => ?_
  split
  · exact spells_moreItems parts
  · exact .pure (.refl _) (List.append_nil _).symm

instance : Spelling g.named (parenthesized g) := by
  unfold parenthesized
  refine .of_spells (.quiet fun _ => .quiet fun closes => ?_)
  split
  · exact .pure (.inOrder rfl rfl rfl) rfl
  refine .quiet fun yields => ?_
  split
  · exact .expr fun e => .quiet fun _ => .pure (.refl _) rfl
  refine .expr fun first => .quiet fun isClause => ?_
  split
  · refine (spells_clauses _).bind ?_
    rintro _ found rfl
    exact .quiet fun _ => .pure (.inOrder rfl rfl rfl) rfl
  refine .quiet fun comma => ?_
  split
  · refine (spells_moreItems _).bind ?_
    rintro _ rest rfl
    exact .quiet fun _ => .pure (.inOrder rfl rfl rfl) rfl
  split
  · exact .unexpected
  · exact .quiet fun _ => .pure (.refl _) rfl

instance : Spelling g.named (listDisplay g) := by
  unfold listDisplay
  refine .of_spells (.quiet fun _ => .quiet fun closes => ?_)
  split
  · exact .pure (.inOrder rfl rfl rfl) rfl
  refine .expr fun first => .quiet fun isClause => ?_
  split
  · refine (spells_clauses _).bind ?_
    rintro _ found rfl
    exact .quiet fun _ => .pure (.inOrder rfl rfl rfl) rfl
  · refine (spells_itemsAfterComma _).bind ?_
    rintro _ rest rfl
    exact .quiet fun _ => .pure (.inOrder rfl rfl rfl) rfl

/-- The parts of an entry of a dictionary. -/
def entryParts (entry : Option Expr × Expr) : List Expr :=
  entry.1.toList ++ [entry.2]

theorem spells_dictEntry (parts : List Expr) :
    Spells g.named parts [] (dictEntry g) fun after found => after = parts ++ entryParts found := by
  unfold dictEntry
  refine .quiet fun spread => ?_
  split
  · exact .expr fun value => .pure (.refl _) rfl
  · refine .expr fun key => .quiet fun _ => .expr fun value => .pure (.refl _) ?_
    rw [List.append_assoc]
    rfl

theorem spells_dictRest (first : Option Expr × Expr) :
    Spells g.named (entryParts first) [] (dictRest g first) Alone := by
  have hrest : Spells g.named (entryParts first) [] (do
      if ← takeOp "," then
        if beginsEntry (← peek) then
          return (← commaSeparated (dictEntry g) fun token => !beginsEntry token).1
        else return []
      else return []) fun after found => after = (first :: found).flatMap entryParts := by
    have hnone : Spells g.named (entryParts first) [] (pure []) fun after found =>
        after = (first :: found).flatMap entryParts :=
      .pure (.refl _) (List.append_nil _).symm
    refine .quiet fun comma => ?_
    split
    · refine .quiet fun token => ?_
      split
      · refine (Spells.commaSeparated spells_dictEntry).bind ?_
        rintro _ found rfl
        exact .pure (.refl _) rfl
      · exact hnone
    · exact hnone
  unfold dictRest
  refine hrest.bind ?_
  rintro _ rest rfl
  exact .quiet fun _ => .pure (.dict _) rfl

instance : Spelling g.named (braceDisplay g) := by
  unfold braceDisplay
  refine .of_spells (.quiet fun _ => .quiet fun closes => ?_)
  split
  · exact .pure (.dict []) rfl
  refine .quiet fun spread => ?_
  split
  · refine (spells_dictEntry []).bind ?_
    rintro _ entry rfl
    exact spells_dictRest entry
  refine .quiet fun second => .expr fun first => ?_
  refine .nextIsOp (fun answer => answer && !second.isOp ":=" && !isStarred first) rfl ?_ ?_
  · refine .takeOp (.expr fun value => .quiet fun isClause => ?_)
    split
    · refine (spells_clauses _).bind ?_
      rintro _ found rfl
      exact .quiet fun _ => .pure (.inOrder rfl rfl rfl) rfl
    · exact spells_dictRest (some first, value)
  refine .quiet fun isClause => ?_
  split
  · refine (spells_clauses _).bind ?_
    rintro _ found rfl
    exact .quiet fun _ => .pure (.inOrder rfl rfl rfl) rfl
  · refine (spells_itemsAfterComma _).bind ?_
    rintro _ rest rfl
    exact .quiet fun _ => .pure (.inOrder rfl rfl rfl) rfl

instance : Spelling g.named (atom g) := by
  unfold atom
  refine .of_spells (.peek fun token => ?_)
  split
  · exact .takeRun (.of_written .name) (.pure (.refl _) rfl)
  · exact .takeKeyword (.pure (.inOrder rfl rfl rfl) rfl)
  · exact .takeKeyword (.pure (.inOrder rfl rfl rfl) rfl)
  · exact .takeKeyword (.pure (.inOrder rfl rfl rfl) rfl)
  · exact .take (silent_single rfl rfl) (.pure (.inOrder rfl rfl rfl) rfl)
  · exact .take (silent_single rfl rfl) (.pure (.inOrder rfl rfl rfl) rfl)
  · exact .take (silent_single rfl rfl) (.pure (.inOrder rfl rfl rfl) rfl)
  · exact .alone
  · exact .takeOp (.pure (.inOrder rfl rfl rfl) rfl)
  · exact .alone
  · exact .alone
  · exact .alone
  · exact .unexpected

theorem spells_trailers (first : Expr) : Spells g.named [first] [] (trailers g first) Alone := by
  unfold trailers
  refine .repeatStep (fun parts e hparts => ?_) rfl
  obtain rfl := hparts
  have hmember : Consumes [] (do return (Expr.member e (← expectName), true)) fun more found =>
      ∃ after, Alone after found.1 ∧
        ∀ tokens, Run g.named tokens [e] → Run g.named (tokens ++ .op "." :: more) after := by
    refine consumes_expectName.bind ?_
    rintro _ id rfl
    exact .pure ⟨_, rfl, fun tokens hrun => .of_written (.member hrun.written)⟩
  have hcall : Consumes [] (do
      let call ← arguments g
      return (Expr.call e call.args call.names call.values, true)) fun more found =>
      ∃ after, Alone after found.1 ∧
        ∀ tokens, Run g.named tokens [e] → Run g.named (tokens ++ .op "(" :: more) after := by
    refine (run_call e).bind fun used call hrun => .pure ⟨_, rfl, ?_⟩
    rwa [List.append_nil]
  refine .ifTakeOp hmember (.ifTakeOp hcall (.quiet fun opens => ?_))
  split
  · exact .expr fun index => .quiet fun _ => .pure (.inOrder rfl rfl rfl) rfl
  · exact .pure (.refl _) rfl

instance : Spelling g.named (primary g) := by
  unfold primary
  exact .of_spells (.expr fun first => spells_trailers first)

instance : Spelling g.named (power g) := by
  have hbase : Spelling g.named (do
      if ← takeKeyword "await" then return .await (← primary g) else primary g) := by
    refine .of_spells (.quiet fun awaits => ?_)
    split
    · exact .expr fun e => .pure (.inOrder rfl rfl rfl) rfl
    · exact .alone
  unfold power
  refine .of_spells (.expr fun base => .quiet fun raised => ?_)
  split
  · exact .expr fun e => .pure (.inOrder rfl rfl rfl) rfl
  · exact .pure (.refl _) rfl

instance : Spelling g.named (factor g) := by
  unfold factor
  refine .of_spells (.peek fun token => ?_)
  split
  · split
    · exact .takeOp (.expr fun e => .pure (.inOrder rfl rfl rfl) rfl)
    · exact .alone
  · exact .alone

/-- The tokens of an embedded expression are the first ones that are read of its source. -/
theorem written_of_embeddedIn {source : List Char} {e : Expr} (h : embeddedIn g source = some e) :
    ∃ tokens, tokens <+: embeddedTokens source ∧ Written g.named tokens e e.markers := by
  have hspelling : Spelling g.named (starExpressions g) := inferInstance
  unfold embeddedIn at h
  dsimp only at h
  split at h
  · next found reached hread =>
    cases h
    obtain ⟨used, hmoves, hwritten⟩ := hspelling.consumes _ _ reached trivial hread
    exact ⟨used, ⟨reached.rest, hmoves.rest.symm⟩, hwritten⟩
  · cases h

end Rules

@[simp] theorem rules_named (named : String → Option Char) (depth : Nat) :
    (rules named depth).named = named := by
  cases depth <;> rfl

/-- At every depth the rules spell what they give. -/
instance (depth : Nat) : SpellingRules (rules named depth) := by
  induction depth with
  | zero =>
    have hnone : Spelling named (unexpected : Reader Expr) := ⟨.unexpected⟩
    exact ⟨hnone, hnone, hnone, nofun⟩
  | succ depth ih =>
    have hexpression : Spelling _ (expression (rules named depth)) := inferInstance
    have hfactor : Spelling _ (factor (rules named depth)) := inferInstance
    have hprimary : Spelling _ (primary (rules named depth)) := inferInstance
    have hembedded (source : List Char) (e : Expr)
        (h : embeddedIn (rules named depth) source = some e) := written_of_embeddedIn h
    rw [rules_named] at hexpression hfactor hprimary
    simp only [rules_named] at hembedded
    exact ⟨hexpression, hfactor, hprimary, hembedded⟩

end TableAudit.Grammar
