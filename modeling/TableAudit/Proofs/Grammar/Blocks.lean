import TableAudit.Proofs.Grammar.Statements

namespace TableAudit.Grammar

variable {named : String → Option Char} {α β γ δ : Type} {set : Setting} {tokens : List Token} {g : Rules}

theorem Balanced.of_append {used left : List Token} (h : Balanced (used ++ left))
    (hused : Balanced used) : Balanced left := by
  unfold Balanced at *
  rw [List.countP_append, List.countP_append] at h
  omega

/-- A token that must pass a test and does is taken in both places. -/
theorem Setting.Meets.expect {test : Token → Bool} {token : Token} {more : List Token}
    {inner outer : Input} (h : set.Meets (token :: more) inner outer) (htest : test token = true)
    (hstop : token ≠ .stop) (hfault : token ≠ .fault) :
    ∃ inner' outer', Grammar.expect test inner = .ok ((), inner') ∧
      Grammar.expect test outer = .ok ((), outer') ∧ set.Meets more inner' outer' := by
  obtain ⟨inner', outer', hinner, houter, hmeets⟩ := h.take hstop hfault
  have htaken {input reached : Input} (hhead : input.rest.headD .stop = token)
      (htake : Grammar.take input = .ok (token, reached)) :
      Grammar.expect test input = .ok ((), reached) := by
    change (if test (input.rest.headD .stop) = true then
        (do let _ ← Grammar.take; return true) else return false : Reader Bool) input >>= _ = _
    rw [hhead, if_pos htest]
    change (Grammar.take input >>= _) >>= _ = _
    rw [htake]
    rfl
  refine ⟨inner', outer', htaken ?_ hinner, htaken ?_ houter, hmeets⟩
  · rw [h.innerRest]
    rfl
  · rw [h.outerRest]
    rfl

theorem expect_eq_unexpected {test : Token → Bool} {input : Input}
    (h : test (input.rest.headD .stop) = false) : expect test input = unexpected input := by
  change (if test (input.rest.headD .stop) = true then
    (do let _ ← take; return true) else return false : Reader Bool) input >>= _ = _
  rw [h]
  rfl

/-- Where a token that must pass a test does not, both readers fail. -/
theorem Parallel.expect_fails {test : Token → Bool} {next : Unit → Reader γ} {next' : Unit → Reader δ}
    {last : List Token → γ → δ → Prop} (hhead : ∀ token more, tokens = token :: more → test token = false)
    (hend : tokens = [] → test .stop = false ∧ test (set.after.headD .stop) = false) :
    Parallel set tokens (expect test >>= next) (expect test >>= next') last := by
  intro inner outer hmeets
  change Outcome set tokens last (expect test inner >>= fun found => next found.1 found.2)
    (expect test outer >>= fun found => next' found.1 found.2)
  have hfails : test (inner.rest.headD .stop) = false ∧ test (outer.rest.headD .stop) = false := by
    rw [hmeets.innerRest, hmeets.outerRest]
    cases tokens with
    | nil => exact hend rfl
    | cons token more => exact ⟨hhead token more rfl, hhead token more rfl⟩
  rw [expect_eq_unexpected hfails.1, expect_eq_unexpected hfails.2]
  exact .fails (Parallel.atFault_eq hmeets) rfl

theorem Balanced.block {used later : List Token} (hused : Balanced used) (hlater : Balanced later) :
    Balanced (.indent :: (used ++ .dedent :: later)) := by
  unfold Balanced at *
  simp only [List.countP_cons, List.countP_append, isIndent, isDedent, hused, hlater,
    Bool.false_eq_true, if_false, if_true]
  omega

/-- After a balanced part of a block its end is still to come, and what follows it is read there. -/
theorem outcome_dedent {used left : List Token} {first : Reader γ} {second : Reader δ}
    {last : List Token → γ → δ → Prop} {inner outer : Input} (hshape : set.shape = .balanced)
    (hcloses : Closes (.indent :: (used ++ left))) (hused : Balanced used)
    (hmeets : set.Meets left inner outer)
    (hnext : ∀ rest, left = .dedent :: rest → Parallel set rest first second last) :
    Outcome set (.indent :: (used ++ left)) last ((expect isDedent >>= fun _ => first) inner)
      ((expect isDedent >>= fun _ => second) outer) := by
  change Outcome set _ last (expect isDedent inner >>= fun ended => first ended.2)
    (expect isDedent outer >>= fun ended => second ended.2)
  obtain ⟨token, rest, rfl⟩ : ∃ token rest, left = token :: rest := by
    refine List.exists_cons_of_ne_nil fun hnil => ?_
    have hcount := hcloses.1
    rw [hnil, List.append_nil, List.countP_cons, List.countP_cons, hused] at hcount
    simp only [isIndent, isDedent, Bool.false_eq_true, if_false, if_true] at hcount
    omega
  by_cases hend : isDedent token = true
  · obtain rfl : token = .dedent := by
      cases token <;> first | rfl | cases hend
    obtain ⟨inner', outer', hinner, houter, hended⟩ :=
      hmeets.expect hend Token.noConfusion Token.noConfusion
    have hrest := hnext rest rfl inner' outer' hended
    revert hrest
    rw [hinner, houter]
    change Outcome set _ last (first inner') (second outer') →
      Outcome set _ last (first inner') (second outer')
    generalize first inner' = one
    generalize second outer' = other
    rintro (@⟨later, left, _, _, _, _, rfl, hlater, hreached, hlast⟩ | ⟨hfault, hjudged⟩)
    · have htokens : Token.indent :: (used ++ .dedent :: (later ++ left)) =
          .indent :: (used ++ .dedent :: later) ++ left := by simp
      refine .reads htokens ?_ hreached hlast
      rw [hshape] at hlater ⊢
      exact hused.block hlater
    · exact .fails hfault hjudged
  · rw [Bool.not_eq_true] at hend
    have hhead : inner.rest.headD .stop = token ∧ outer.rest.headD .stop = token := by
      rw [hmeets.innerRest, hmeets.outerRest]
      exact ⟨rfl, rfl⟩
    rw [expect_eq_unexpected (hhead.1 ▸ hend), expect_eq_unexpected (hhead.2 ▸ hend)]
    exact .fails (Parallel.atFault_eq hmeets) rfl

/-- What is between the beginning and the end of a block, and read alike, is read alike there. -/
theorem parallel_indented {body : Reader α} {body' : Reader β} {post : List Token → α → β → Prop}
    {next : α → Reader γ} {next' : β → Reader δ} {last : List Token → γ → δ → Prop}
    (hshape : set.shape = .balanced)
    (hbody : ∀ more, more.length < tokens.length → Parallel set more body body' post)
    (hnext : ∀ left a b, left.length + 2 ≤ tokens.length → post (.dedent :: left) a b →
      Parallel set left (next a) (next' b) last) :
    Parallel set tokens
      (do
        expect isIndent
        let found ← body
        expect isDedent
        next found)
      (do
        expect isIndent
        let found ← body'
        expect isDedent
        next' found)
      last := by
  have hends : isIndent (set.after.headD .stop) = false := by
    have hends := set.ends
    generalize set.after.headD .stop = token at hends
    cases token <;> first | rfl | cases hends
  rcases tokens with _ | ⟨token, more⟩
  · exact .expect_fails (fun _ _ h => nomatch h) fun _ => ⟨rfl, hends⟩
  by_cases htoken : isIndent token = true
  · obtain rfl : token = .indent := by
      cases token <;> first | rfl | cases htoken
    intro inner outer hmeets
    obtain ⟨inner', outer', hinner, houter, hbegun⟩ :=
      hmeets.expect htoken Token.noConfusion Token.noConfusion
    have hrun := hbody more (Nat.lt_succ_self _) inner' outer' hbegun
    revert hrun
    change _ → Outcome set _ last
      (expect isIndent inner >>= fun begun => body begun.2 >>= fun found =>
        (expect isDedent >>= fun _ => next found.1) found.2)
      (expect isIndent outer >>= fun begun => body' begun.2 >>= fun found =>
        (expect isDedent >>= fun _ => next' found.1) found.2)
    rw [hinner, houter]
    change _ → Outcome set _ last
      (body inner' >>= fun found => (expect isDedent >>= fun _ => next found.1) found.2)
      (body' outer' >>= fun found => (expect isDedent >>= fun _ => next' found.1) found.2)
    generalize body inner' = one
    generalize body' outer' = other
    rintro (@⟨used, left, a, b, _, _, rfl, hused, hreached, hpost⟩ | ⟨hfault, hjudged⟩)
    · rw [hshape] at hused
      refine outcome_dedent hshape hmeets.closes hused hreached ?_
      rintro rest rfl
      refine hnext rest a b ?_ hpost
      rw [List.length_cons, List.length_append, List.length_cons]
      omega
    · exact .fails hfault hjudged
  · refine .expect_fails (fun other rest h => ?_) fun h => nomatch h
    cases h
    rwa [Bool.not_eq_true] at htoken

theorem Twins.append {count : Nat} {first first' second second' : List Stmt}
    (h : Twins set count first first') (h' : Twins set count second second') :
    Twins set count (first ++ second) (first' ++ second') :=
  ⟨List.append_ne_nil_of_left_ne_nil h.ne_nil _, List.rel_append h.twins h'.twins⟩

section Heads

variable [SteadyRules set g]

instance : Steady set (decorators g) := by
  unfold decorators
  infer_instance

theorem ite_bind (test : Prop) [Decidable test] (first second : Reader α) (next : α → Reader β) :
    (if test then first else second) >>= next = if test then first >>= next else second >>= next := by
  split <;> rfl

/-- The head of a definition of a function, from its name to the colon. -/
def functionHead (g : Rules) : Reader (String × Params × List Expr × List Expr) := do
  let id ← expectName
  expectOp "("
  let (params, keywordDefaults, defaults) ← parameters g true (Token.isOp ")")
  expectOp ")"
  if ← takeOp "->" then
    let _ ← g.expression
  return (id, params, keywordDefaults, defaults)

theorem functionDef_eq (g : Rules) (decorated first : Nat) (decorators : List Expr) :
    functionDef g decorated first decorators = (do
      let head ← functionHead g
      let body ← block g
      return .function (← extentFrom first) decorated
        ⟨head.1, head.2.1, head.2.2.1, head.2.2.2, decorators⟩ body) := by
  simp only [functionDef, functionHead, bind_assoc, ite_bind, pure_bind]

instance : Steady set (functionHead g) := by
  unfold functionHead
  infer_instance

/-- The head of a definition of a class, from its name to the colon. -/
def classHead (g : Rules) : Reader String := do
  let id ← expectName
  if ← takeOp "(" then
    let _ ← arguments g
  return id

theorem classDef_eq (g : Rules) (first : Nat) : classDef g first = (do
    let id ← classHead g
    let body ← block g
    return .classDef (← extentFrom first) id body) := by
  simp only [classDef, classHead, bind_assoc, ite_bind, pure_bind]

instance : Steady set (classHead g) := by
  unfold classHead
  infer_instance

end Heads

/-- Rules whose reader of statements also gives the same in every setting. -/
class SteadyBlocks (set : Setting) (g : Rules) : Prop extends SteadyRules set g where
  shape : set.shape = .balanced
  statements : ∀ tokens, Parallel set tokens g.statements g.statements
    fun left body body' => Twins set (left.length + 1) body body'

/-- Whether a token is a name of some spelling. -/
def isNamed (word : String) : Token → Bool
  | .name id => id == word
  | _ => false

instance (word : String) : Blind (isNamed word) := ⟨forall_isEdge rfl rfl rfl⟩

theorem eq_of_isNamed {word : String} {token : Token} (h : isNamed word token = true) :
    token = .name word := by
  cases token with
  | name other => rw [beq_iff_eq.mp h]
  | _ => cases h

theorem nextIsName_eq (word : String) :
    nextIsName word = peek >>= fun token => pure (isNamed word token) := by
  refine congrArg (peek >>= ·) (funext fun token => ?_)
  cases token <;> rfl

theorem takes_nextIsName {word : String} {kind : α → Prop} {first second : Reader α}
    (hfirst : TakesAt set (.name word) kind first) (hsecond : Takes set kind second) :
    Takes set kind (nextIsName word >>= fun answer => if answer = true then first else second) := by
  have hlook : Takes set kind (peek >>= fun token =>
      if id (isNamed word token) = true then first else second) :=
    takes_look id rfl (fun _ h => eq_of_isNamed h ▸ hfirst) hsecond
  rw [nextIsName_eq]
  exact hlook

section Rules

variable [SteadyBlocks set g]

theorem parallel_block : Parallel set tokens (block g) (block g) fun left body body' =>
    Twins set (left.length + 1) body body' ∧ left.length < tokens.length := by
  have hcolon : Advancing set (expectOp ":") := inferInstance
  have hnewline : Steady set (takeIf isNewline) := inferInstance
  unfold block
  refine .bind (hcolon.parallel tokens) fun left _ _ _ hleft => ?_
  have hless : left.length < tokens.length := hleft.2 trivial
  refine .bind (hnewline.agrees left) ?_
  rintro later answer _ hlater rfl
  split
  · refine parallel_indented (SteadyBlocks.shape g) (fun more _ => SteadyBlocks.statements more) ?_
    intro rest body body' hrest h
    refine .pure ⟨h.mono ?_, by omega⟩
    rw [List.length_cons]
    omega
  · refine parallel_simpleLine.mono fun rest body body' hrest h => ?_
    exact ⟨h.1.toTwins, by omega⟩

instance : Advancing set (skipBlock g) where
  parallel tokens := by
    unfold skipBlock
    exact .bind parallel_block fun left _ _ _ h => .pure ⟨rfl, fun _ => h.2⟩

instance : Steady set (skipBlock g) :=
  Takes.steady (inferInstance : Advancing set (skipBlock g))

instance : Steady set (elseBlock g) := by
  unfold elseBlock
  infer_instance

instance : Steady set (ifStatement g) := by
  have hbranch : SteadyStep set (do
      if ← takeKeyword "elif" then
        let _ ← namedExpression g
        skipBlock g
        return ((), true)
      else return ((), false)) :=
    takes_ifTest inferInstance inferInstance inferInstance
  unfold ifStatement
  dsimp only
  infer_instance

instance : Steady set (whileStatement g) := by
  unfold whileStatement
  infer_instance

instance : Steady set (forStatement g) := by
  unfold forStatement
  infer_instance

instance : Steady set (withItem g) := by
  unfold withItem
  infer_instance

instance : Steady set (withStatement g) := by
  unfold withStatement
  infer_instance

instance : Steady set (tryStatement g) := by
  have hend (found : Option Bool) : Steady set (match found with
      | some _ => do
        elseBlock g
        if ← takeKeyword "finally" then skipBlock g
      | none => do
        expectKeyword "finally"
        skipBlock g) := by
    cases found <;> infer_instance
  unfold tryStatement
  dsimp only
  refine takes_then inferInstance fun _ => takes_then ?_ hend
  have hhandler (state : Option Bool) : SteadyStep set (do
      if ← takeKeyword "except" then
        let starred ← takeOp "*"
        if state.isSome && state != some starred then unexpected
        if starred || !(← nextIsOp ":") then
          let _ ← g.expression
          importedAs
        skipBlock g
        return (some starred, true)
      else return (state, false)) := by
    dsimp only
    exact takes_ifTest inferInstance inferInstance inferInstance
  infer_instance

instance : Advancing set (caseBlock g) := by
  have hswap (answer : Bool) (first second : Reader Unit) :
      (if (!answer) = true then first else second) = if answer = true then second else first := by
    cases answer <;> rfl
  unfold caseBlock
  simp only [hswap]
  exact takes_nextIsName inferInstance inferInstance

instance : Steady set (caseBlock g) :=
  Takes.steady (inferInstance : Advancing set (caseBlock g))

theorem parallel_matchStatement {word : String} {more : List Token} :
    Parallel set (.name word :: more) (matchStatement g) (matchStatement g)
      fun left _ _ => left.length < (Token.name word :: more).length := by
  have hcases : Steady set (do
      caseBlock g
      repeatStep (fun (_ : Unit) => do
        if ← nextIsName "case" then
          caseBlock g
          return ((), true)
        else return ((), false)) ()) := by
    have hstep (state : Unit) : SteadyStep set (nextIsName "case" >>= fun answer =>
        if answer = true then do
          caseBlock g
          return ((), true)
        else return ((), false)) :=
      takes_nextIsName inferInstance inferInstance
    infer_instance
  have hbefore : Steady set (do
      let _ ← commaSeparated (starNamedExpression g) endsSequence
      expectOp ":"
      expect isNewline) := inferInstance
  have hsame : matchStatement g = (do
      let _ ← take
      (do
        let _ ← commaSeparated (starNamedExpression g) endsSequence
        expectOp ":"
        expect isNewline)
      expect isIndent
      (do
        caseBlock g
        repeatStep (fun (_ : Unit) => do
          if ← nextIsName "case" then
            caseBlock g
            return ((), true)
          else return ((), false)) ())
      expect isDedent
      return ()) := by
    simp only [matchStatement, bind_assoc, bind_pure_unit]
  rw [hsame]
  refine .bind (.take_self Plain.isEdge Plain.ne_fault) ?_
  rintro left _ _ _ ⟨rfl, rfl, rfl⟩
  refine .bind (hbefore.agrees left) fun later _ _ hlater _ => ?_
  refine parallel_indented (SteadyBlocks.shape g) (fun rest _ => hcases.agrees rest) ?_
  intro rest _ _ hrest _
  refine .pure ?_
  rw [List.length_cons]
  omega

/-- A statement that ends with a block, after a head that began at a token before those left. -/
theorem parallel_withBlock {head : Reader α} [hhead : Steady set head] {index : Nat}
    {build build' : α → List Stmt → Extent → Stmt}
    (hbuild : ∀ a body e, (build a body e).form = .other ∧ (build a body e).extent = e)
    (hbuild' : ∀ a body e, (build' a body e).form = .other ∧ (build' a body e).extent = e)
    (hreach : index + tokens.length ≤ set.size) :
    Parallel set tokens
      (do
        let a ← head
        let body ← block g
        return build a body (← extentFrom index))
      (do
        let a ← head
        let body ← block g
        return build' a body (← extentFrom (set.before + index)))
      fun left s t => s.Twin set (left.length + 1) t ∧ left.length < tokens.length := by
  refine .bind (hhead.agrees tokens) ?_
  rintro left a _ hleft rfl
  refine .bind parallel_block fun later body body' _ hbody => ?_
  refine .bind (parallel_extentFrom index) ?_
  rintro _ e e' _ ⟨rfl, hfirst, hfirst'⟩
  refine .pure ⟨⟨?_, ?_, ?_⟩, by omega⟩
  · rw [(hbuild a body e).1, (hbuild' a body' e').1]
  · rw [(hbuild a body e).2, (hbuild' a body' e').2, hfirst, hfirst']
  · rw [(hbuild a body e).2, hfirst]
    omega

theorem parallel_functionDef {index : Nat} (decorated decorated' : Nat) (decorators : List Expr)
    (hreach : index + tokens.length ≤ set.size) :
    Parallel set tokens (functionDef g decorated index decorators)
      (functionDef g decorated' (set.before + index) decorators)
      fun left s t => s.Twin set (left.length + 1) t ∧ left.length < tokens.length := by
  rw [functionDef_eq, functionDef_eq]
  exact parallel_withBlock (fun _ _ _ => ⟨rfl, rfl⟩) (fun _ _ _ => ⟨rfl, rfl⟩) hreach

theorem parallel_classDef {index : Nat} (hreach : index + tokens.length ≤ set.size) :
    Parallel set tokens (classDef g index) (classDef g (set.before + index))
      fun left s t => s.Twin set (left.length + 1) t ∧ left.length < tokens.length := by
  rw [classDef_eq, classDef_eq]
  exact parallel_withBlock (fun _ _ _ => ⟨rfl, rfl⟩) (fun _ _ _ => ⟨rfl, rfl⟩) hreach

theorem parallel_definition : Parallel set tokens (definition g) (definition g) fun left s t =>
    s.Twin set (left.length + 1) t ∧ left.length < tokens.length := by
  have hdecorators : Steady set (decorators g) := inferInstance
  have hclass : Steady set (takeKeyword "class") := inferInstance
  have hdef : Steady set (do let _ ← takeKeyword "async"; expectKeyword "def") := inferInstance
  unfold definition
  refine .position fun decorated _ => .bind (hdecorators.agrees tokens) ?_
  rintro left ds _ hleft rfl
  refine .position fun first hfirst => .bind (hclass.agrees left) ?_
  rintro later answer _ hlater rfl
  split
  · refine (parallel_classDef (by omega)).mono fun rest s t hrest h => ⟨h.1, by omega⟩
  · have hfunction : Parallel set later
        (do
          (do let _ ← takeKeyword "async"; expectKeyword "def")
          functionDef g decorated first ds)
        (do
          (do let _ ← takeKeyword "async"; expectKeyword "def")
          functionDef g (set.before + decorated) (set.before + first) ds)
        fun left s t => s.Twin set (left.length + 1) t ∧ left.length < tokens.length := by
      refine .bind (hdef.agrees later) fun rest _ _ hrest _ => ?_
      refine (parallel_functionDef _ _ ds (by omega)).mono fun last s t hlast h => ⟨h.1, by omega⟩
    simpa only [bind_assoc] using hfunction

/-- A statement of another kind ends where it is made. -/
theorem parallel_otherFrom {index : Nat} (hreach : index + (tokens.length + 1) ≤ set.size) :
    Parallel set tokens (do return [← otherFrom index]) (do return [← otherFrom (set.before + index)])
      fun left body body' => Twins set (left.length + 1) body body' ∧ left = tokens := by
  refine .bind (.bind (parallel_extentFrom index) ?_ : Parallel set tokens (otherFrom index)
    (otherFrom (set.before + index)) fun left s t => s.Twin set (left.length + 1) t ∧ left = tokens) ?_
  · rintro _ e e' _ ⟨rfl, hfirst, hfirst'⟩
    refine .pure ⟨⟨rfl, ?_, ?_⟩, rfl⟩
    · exact hfirst'.trans (congrArg _ hfirst.symm)
    · change e.first + _ ≤ _
      omega
  · rintro _ s t _ ⟨hs, rfl⟩
    exact .pure ⟨⟨List.cons_ne_nil _ _, .cons hs .nil⟩, rfl⟩

/-- A statement of another kind, which begins with a token seen before. -/
theorem parallel_other {body : Reader Unit} {token : Token} {more : List Token} {index : Nat}
    [Plain token] (hbody : Parallel set more body body fun _ _ _ => True)
    (hreach : index + (token :: more).length ≤ set.size) :
    Parallel set (token :: more)
      (do
        let _ ← take
        body
        return [← otherFrom index])
      (do
        let _ ← take
        body
        return [← otherFrom (set.before + index)])
      fun left s t => Twins set (left.length + 1) s t ∧ left.length < (token :: more).length := by
  refine .bind (.take_self Plain.isEdge Plain.ne_fault) ?_
  rintro left _ _ _ ⟨rfl, rfl, rfl⟩
  rw [List.length_cons] at hreach ⊢
  refine .bind hbody fun later _ _ hlater _ => (parallel_otherFrom (by omega)).mono ?_
  rintro _ body body' _ ⟨h, rfl⟩
  exact ⟨h, by omega⟩

theorem parallel_statement : Parallel set tokens (statement g) (statement g) fun left body body' =>
    Twins set (left.length + 1) body body' ∧ left.length < tokens.length := by
  have hline {rest : List Token} : Parallel set rest (simpleLine g) (simpleLine g)
      fun left body body' => Twins set (left.length + 1) body body' ∧ left.length < rest.length :=
    parallel_simpleLine.mono fun _ _ _ _ h => ⟨h.1.toTwins, h.2⟩
  have hdefinition {rest : List Token} : Parallel set rest (do return [← definition g])
      (do return [← definition g])
      fun left body body' => Twins set (left.length + 1) body body' ∧ left.length < rest.length :=
    .bind parallel_definition fun left s t _ h =>
      .pure ⟨⟨List.cons_ne_nil _ _, .cons h.1 .nil⟩, h.2⟩
  have hother {token : Token} {more : List Token} {index : Nat} [Plain token] {body : Reader Unit}
      [hbody : Steady set body] (hreach : index + (token :: more).length ≤ set.size) :=
    parallel_other ((hbody.agrees more).mono fun _ _ _ _ _ => trivial) hreach
  unfold statement
  dsimp only
  refine .position fun index hindex => .look (fun token more heq => ?_) (forall_isEdge rfl rfl rfl)
    fun _ => hline
  subst heq
  split
  case h_9 =>
    refine .peekSecond ?_
    have hfails {rest : List Token} : Parallel set (.keyword "async" :: rest)
        (do let _ ← take; unexpected) (do let _ ← take; unexpected) fun left body body' =>
          Twins set (left.length + 1) body body' ∧ left.length < (Token.keyword "async" :: rest).length :=
      .bind (.take_self rfl Token.noConfusion) fun _ _ _ _ _ => .unexpected
    rcases more with _ | ⟨second, more⟩
    · have hedge := set.first
      rw [List.singleton_append, List.tail_cons, List.tail_cons]
      generalize set.after.headD .stop = second at hedge
      cases second <;> first | exact hfails | cases hedge
    · have hlater (body : Reader Unit) [hbody : TakesAt set second (fun _ => False) body] :=
        parallel_other ((hbody.parallel more).mono fun _ _ _ _ _ => trivial) (Nat.le_of_eq hindex)
      rw [List.cons_append, List.tail_cons, List.tail_cons, List.cons_append, List.headD_cons, List.headD_cons]
      split
      · exact hdefinition
      · have hfor := hlater (do let _ ← take; forStatement g)
        simpa only [bind_assoc] using hfor
      · have hwith := hlater (do let _ ← take; withStatement g)
        simpa only [bind_assoc] using hwith
      · exact hfails
  case h_10 =>
    refine .orElse (.bind parallel_matchStatement fun left _ _ hleft h => ?_) hline
    rw [List.length_cons] at h hindex ⊢
    refine (parallel_otherFrom (by omega)).mono ?_
    rintro _ body body' _ ⟨hbody, rfl⟩
    exact ⟨hbody, h⟩
  all_goals first | exact hline | exact hdefinition | exact hother (Nat.le_of_eq hindex)

theorem parallel_statements : Parallel set tokens (statements g) (statements g)
    fun left body body' => Twins set (left.length + 1) body body' := by
  unfold statements
  dsimp only
  refine .bind parallel_statement fun left first first' _ hfirst => ?_
  refine .bind (.repeatStep (fun tokens body body' h => ?_) hfirst.1.reverse : Parallel _ _ _ _
    fun left => Twins set (left.length + 1)) fun later body body' _ h => .pure h.reverse
  have hend : Parallel set tokens (pure (body, false)) (pure (body', false)) fun left x y =>
      Twins set (left.length + 1) x.1 y.1 ∧ x.2 = y.2 ∧ (x.2 = true → left.length < tokens.length) :=
    .pure ⟨h, rfl, Bool.noConfusion⟩
  have hmore : Parallel set tokens (do return ((← statement g).reverse ++ body, true))
      (do return ((← statement g).reverse ++ body', true)) fun left x y =>
        Twins set (left.length + 1) x.1 y.1 ∧ x.2 = y.2 ∧ (x.2 = true → left.length < tokens.length) :=
    .bind parallel_statement fun left _ _ hleft hstatement =>
      .pure ⟨hstatement.1.reverse.append (h.mono (Nat.succ_le_succ hleft)), rfl, fun _ => hstatement.2⟩
  refine .peek (fun token more _ => ?_) fun _ => ?_
  · cases token <;> first | exact hend | exact hmore
  · have hends := set.ends
    generalize set.after.headD .stop = token at hends
    cases token <;> first | exact hend | cases hends

end Rules

/-- Blocks are read alike at every depth of the rules. -/
theorem steadyBlocks (hshape : set.shape = .balanced) (depth : Nat) :
    SteadyBlocks set (rules named depth) := by
  induction depth with
  | zero => exact { shape := hshape, statements := fun _ => .unexpected }
  | succ depth ih => exact { shape := hshape, statements := fun tokens => parallel_statements }

end TableAudit.Grammar
