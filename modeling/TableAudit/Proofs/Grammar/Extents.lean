import TableAudit.Proofs.Grammar.Consumers

namespace TableAudit

open TableAudit.Expr

/-- The tokens of an extent. -/
def Extent.tokensOf (extent : Extent) (whole : List Token) : List Token :=
  (whole.drop extent.first).take (extent.last - extent.first)

/-- The expressions of a statement and of those in its body are written as the tokens of their
    extents, counted from the beginning of the whole. -/
inductive Stmt.Spelled (named : String → Option Char) (whole : List Token) : Stmt → Prop
  | expr {extent : Extent} {value : Expr}
      (h : Written named (extent.tokensOf whole) value value.markers) : Spelled named whole (.expr extent value)
  | function {extent : Extent} {decorated : Nat} {head : FunctionHead} {body : List Stmt}
      (h : ∀ s ∈ body, Spelled named whole s) : Spelled named whole (.function extent decorated head body)
  | pass {extent : Extent} : Spelled named whole (.pass extent)
  | assign {extent : Extent} {targets : List Expr} {value : Expr} :
      Spelled named whole (.assign extent targets value)
  | ret {extent : Extent} {value : Option Expr} : Spelled named whole (.ret extent value)
  | classDef {extent : Extent} {name : String} {body : List Stmt} :
      Spelled named whole (.classDef extent name body)
  | other {extent : Extent} : Spelled named whole (.other extent)

namespace Grammar

variable {named : String → Option Char} {α β σ : Type} {g : Rules} {whole : List Token}

/-- What is left to read of a whole, with the count of what was read of it. -/
structure Input.At (whole : List Token) (input : Input) : Prop where
  rest : whole.drop input.index = input.rest
  last_le : input.last ≤ input.index

theorem last_le_of_foldl_counted (used : List Token) (counts : Nat × Nat) (h : counts.2 ≤ counts.1) :
    (used.foldl counted counts).2 ≤ (used.foldl counted counts).1 := by
  induction used generalizing counts with
  | nil => exact h
  | cons token rest ih =>
    refine ih _ ?_
    dsimp only [counted]
    split <;> omega

theorem Input.Moves.at {input reached : Input} {used : List Token} (h : input.Moves reached used)
    (hat : input.At whole) : reached.At whole := by
  refine ⟨?_, ?_⟩
  · rw [h.index_eq, ← List.drop_drop, hat.rest, h.rest, List.drop_left]
  · have hlast := last_le_of_foldl_counted used (input.index, input.last) hat.last_le
    rwa [← h.counts] at hlast

/-- Tokens within lines that were taken are those of the extent up to the last of them. -/
theorem Input.Moves.tokensOf_eq {input reached : Input} {used : List Token}
    (h : input.Moves reached used) (hat : input.At whole)
    (hwithin : ∀ token ∈ used, token.isLayout = false) :
    Extent.tokensOf ⟨input.index, reached.last⟩ whole = used := by
  rw [Extent.tokensOf, hat.rest, h.rest]
  rcases List.eq_nil_or_concat used with rfl | ⟨before, token, rfl⟩
  · have hlast : reached.last = input.last := congrArg Prod.snd h.counts
    rw [hlast, Nat.sub_eq_zero_of_le hat.last_le, List.take_zero]
  · rw [List.concat_eq_append] at h hwithin ⊢
    have htoken : token.isLayout = false := by
      apply hwithin
      simp
    rw [h.last_eq htoken, h.index_eq, Nat.add_sub_cancel_left, List.take_left]

/-- From any input with one property a reader that succeeds gets to one with another. -/
def Meets (before : Input → Prop) (reader : Reader α) (after : α → Input → Prop) : Prop :=
  ∀ input value reached, before input → reader input = .ok (value, reached) → after value reached

namespace Meets

variable {before : Input → Prop} {reader : Reader α} {next : α → Reader β}
  {middle : α → Input → Prop} {after : β → Input → Prop}

theorem bind (h : Meets before reader middle)
    (hnext : ∀ value, Meets (middle value) (next value) after) :
    Meets before (reader >>= next) after := by
  intro input result final hbefore hread
  change (reader input >>= fun found => next found.1 found.2) = .ok (result, final) at hread
  cases hfirst : reader input with
  | error failure =>
    rw [hfirst] at hread
    cases hread
  | ok found =>
    rw [hfirst] at hread
    exact hnext found.1 found.2 result final (h input found.1 found.2 hbefore hfirst) hread

theorem pure {value : α} (h : ∀ input, before input → middle value input) :
    Meets before (pure value) middle := by
  intro input found reached hbefore hread
  cases hread
  exact h input hbefore

theorem unexpected : Meets before (unexpected : Reader α) middle := nofun

theorem of_weaker {weaker : Input → Prop} (hbefore : ∀ input, before input → weaker input)
    (h : Meets weaker reader middle) : Meets before reader middle :=
  fun input value reached hinput hread => h input value reached (hbefore input hinput) hread

/-- A reader that takes nothing. -/
theorem look (hreader : ∀ input, ∃ value, reader input = .ok (value, input))
    (h : ∀ value, Meets before (next value) after) : Meets before (reader >>= next) after := by
  intro input result final hbefore hread
  obtain ⟨value, hvalue⟩ := hreader input
  change (reader input >>= fun found => next found.1 found.2) = .ok (result, final) at hread
  rw [hvalue] at hread
  exact h value input result final hbefore hread

/-- How many tokens were read is then known. -/
theorem position {next : Nat → Reader β}
    (h : ∀ input, before input → Meets (· = input) (next input.index) after) :
    Meets before (Grammar.position >>= next) after :=
  fun input result final hbefore hread => h input hbefore input result final rfl hread

theorem orElse {first second : Reader α} (h : Meets before first middle)
    (hsecond : Meets before second middle) : Meets before (orElse first second) middle := by
  intro input value reached hbefore hread
  unfold Grammar.orElse at hread
  cases hfirst : first input with
  | ok answer =>
    rw [hfirst] at hread
    exact h input value reached hbefore (hfirst.trans hread)
  | error failure =>
    rw [hfirst] at hread
    dsimp only at hread
    split at hread
    · cases hread
    · exact hsecond input value reached hbefore hread

end Meets

/-- A reader of a whole that leaves a rest of it, and what it gives has a property. -/
def States (whole : List Token) (reader : Reader α) (post : α → Prop) : Prop :=
  Meets (Input.At whole) reader fun value reached => reached.At whole ∧ post value

namespace States

variable {reader : Reader α} {next : α → Reader β} {post : α → Prop} {last : β → Prop}

theorem bind (h : States whole reader post)
    (hnext : ∀ value, post value → States whole (next value) last) :
    States whole (reader >>= next) last :=
  Meets.bind h fun value input result final hinput hread =>
    hnext value hinput.2 input result final hinput.1 hread

theorem pure {value : α} (h : post value) : States whole (pure value) post :=
  Meets.pure fun _ hat => ⟨hat, h⟩

theorem unexpected : States whole (unexpected : Reader α) post :=
  Meets.unexpected

theorem abort : States whole (Grammar.unexpected >>= next) last := by
  have hnone : States whole (Grammar.unexpected : Reader α) fun _ => False := unexpected
  exact hnone.bind fun _ h => h.elim

theorem plain [hreader : Consuming reader] : States whole reader fun _ => True := by
  intro input value reached hat hread
  obtain ⟨used, hmoves, _⟩ := hreader.consumes input value reached trivial hread
  exact ⟨hmoves.at hat, trivial⟩

theorem skip [Consuming reader] (h : ∀ value, States whole (next value) last) :
    States whole (reader >>= next) last :=
  plain.bind fun value _ => h value

/-- What each step keeps, a loop keeps. -/
theorem repeatStep {step : σ → Reader (σ × Bool)} {inv : σ → Prop} {state : σ}
    (hstep : ∀ state, inv state → States whole (step state) fun found => inv found.1)
    (h : inv state) : States whole (repeatStep step state) inv := by
  have hloop (fuel : Nat) (state : σ) (h : inv state) : States whole (loop step fuel state) inv := by
    induction fuel generalizing state with
    | zero => exact pure h
    | succ fuel ih =>
      refine (hstep state h).bind ?_
      rintro ⟨found, goesOn⟩ hfound
      cases goesOn with
      | false => exact pure hfound
      | true => exact ih found hfound
  exact Meets.look (fun _ => ⟨_, rfl⟩) fun _ => hloop _ state h

section Lists

variable {own : Stmt → Prop}

/-- What each statement within a line has, all those of the line have. -/
theorem simpleLine (h : States whole (simpleStatement g) own) :
    States whole (simpleLine g) fun body => ∀ s ∈ body, own s := by
  unfold Grammar.simpleLine
  refine h.bind fun first hfirst => ?_
  have hloop : States whole (Grammar.repeatStep (fun (reversed : List Stmt) => do
      if ← takeOp ";" then
        if isNewline (← peek) then return (reversed, false)
        else return ((← simpleStatement g) :: reversed, true)
      else return (reversed, false)) [first]) fun reversed => ∀ s ∈ reversed, own s := by
    refine .repeatStep (fun reversed hreversed => .skip fun more => ?_)
      (List.forall_mem_singleton.mpr hfirst)
    split
    · refine .skip fun token => ?_
      split
      · exact .pure hreversed
      · refine h.bind fun s hs => .pure ?_
        exact List.forall_mem_cons.mpr ⟨hs, hreversed⟩
    · exact .pure hreversed
  refine hloop.bind fun reversed hreversed => .skip fun _ => .pure fun s hs => ?_
  exact hreversed s (List.mem_reverse.mp hs)

/-- What each statement has, all those of a block have. -/
theorem statements (h : States whole (statement g) fun body => ∀ s ∈ body, own s) :
    States whole (statements g) fun body => ∀ s ∈ body, own s := by
  unfold Grammar.statements
  dsimp only
  refine h.bind fun first hfirst => ?_
  refine (@repeatStep _ _ _ (fun reversed => ∀ s ∈ reversed, own s) _
    (fun reversed hreversed => .skip fun token => ?_) fun s hs => ?_).bind
    fun reversed hreversed => .pure fun s hs => ?_
  · split
    · exact .pure hreversed
    · exact .pure hreversed
    · refine h.bind fun body hbody => .pure ?_
      refine List.forall_mem_append.mpr ⟨fun s hs => ?_, hreversed⟩
      exact hbody s (List.mem_reverse.mp hs)
  · exact hfirst s (List.mem_reverse.mp hs)
  · exact hreversed s (List.mem_reverse.mp hs)

theorem wholeBlock (h : States whole (Grammar.statements g) fun body => ∀ s ∈ body, own s) :
    States whole (wholeBlock g) fun body => ∀ s ∈ body, own s := by
  unfold Grammar.wholeBlock
  refine .skip fun token => ?_
  split
  · exact .pure (List.forall_mem_nil _)
  · refine h.bind fun body hbody => .skip fun token => ?_
    split
    · exact .pure hbody
    · exact .unexpected

end Lists

end States

/-- Rules whose statements are spelled where they stand. -/
class StatingRules (g : Rules) : Prop extends ConsumingRules g where
  states : ∀ whole, States whole g.statements fun body => ∀ s ∈ body, s.Spelled g.named whole

section Rules

variable [hrules : StatingRules g]

theorem states_otherFrom (first : Nat) : States whole (otherFrom first) (Stmt.Spelled named whole) :=
  .skip fun _ => .pure .other

theorem states_assignment (first : Nat) (target : Expr) :
    States whole (assignment g first target) (Stmt.Spelled g.named whole) :=
  .skip fun _ => .skip fun _ => .pure .assign

/-- Of a whole an expression was just read that begins with one of its tokens. -/
def Ends (named : String → Option Char) (whole : List Token) (first : Nat) (value : Expr)
    (input : Input) : Prop :=
  input.At whole ∧ Written named (Extent.tokensOf ⟨first, input.last⟩ whole) value value.markers

theorem states_expressionStatement : States whole (expressionStatement g) (Stmt.Spelled g.named whole) := by
  have hspelling : Spelling g.named (assignedValue g) := inferInstance
  unfold expressionStatement
  dsimp only
  refine Meets.position fun input hat => ?_
  have hvalue : Meets (· = input) (assignedValue g) (Ends g.named whole input.index) := by
    rintro _ value middle rfl hread
    obtain ⟨used, hmoves, hwritten⟩ := hspelling.consumes _ value middle trivial hread
    refine ⟨hmoves.at hat, ?_⟩
    rwa [hmoves.tokensOf_eq hat hwritten.isLayout_eq_false]
  refine hvalue.bind fun value => .look (fun _ => ⟨_, rfl⟩) fun token => ?_
  have hother {reader : Reader Stmt} (h : States whole reader (Stmt.Spelled g.named whole)) :
      Meets (Ends g.named whole input.index value) reader fun s reached =>
        reached.At whole ∧ s.Spelled g.named whole :=
    .of_weaker (fun _ h => h.1) h
  have hexpr : Meets (Ends g.named whole input.index value)
      (do return Stmt.expr (← extentFrom input.index) value) fun s reached =>
        reached.At whole ∧ s.Spelled g.named whole := by
    intro middle s reached hends hread
    cases hread
    exact ⟨hends.1, .expr hends.2⟩
  split
  · exact hother (states_assignment _ value)
  · refine hother ?_
    split
    · exact .abort
    · refine .skip fun _ => .skip fun _ => .skip fun hasValue => ?_
      split
      · exact .skip fun _ => states_otherFrom _
      · exact states_otherFrom _
  · split
    · refine hother ?_
      split
      · exact .abort
      · exact .skip fun _ => .skip fun _ => states_otherFrom _
    · exact hexpr
  · exact hexpr

theorem states_simpleStatement : States whole (simpleStatement g) (Stmt.Spelled g.named whole) := by
  have hotherBy (first : Nat) (body : Reader Unit) [Consuming body] : States whole (do
      let _ ← take
      body
      otherFrom first) (Stmt.Spelled g.named whole) :=
    .skip fun _ => .skip fun _ => states_otherFrom first
  unfold simpleStatement
  refine .skip fun first => .skip fun token => ?_
  split
  · exact .skip fun _ => .skip fun _ => .pure .pass
  · exact hotherBy first _
  · exact hotherBy first _
  · exact .skip fun _ => .skip fun value => .skip fun _ => .pure .ret
  · exact hotherBy first _
  · exact hotherBy first _
  · exact hotherBy first _
  · exact hotherBy first _
  · exact hotherBy first _
  · exact hotherBy first _
  · exact hotherBy first _
  · exact states_expressionStatement

theorem states_simpleLine :
    States whole (simpleLine g) fun body => ∀ s ∈ body, s.Spelled g.named whole :=
  states_simpleStatement.simpleLine

theorem states_block : States whole (block g) fun body => ∀ s ∈ body, s.Spelled g.named whole := by
  unfold block
  refine .skip fun _ => .skip fun newline => ?_
  split
  · refine .skip fun _ => (hrules.states whole).bind fun body hbody => .skip fun _ => .pure hbody
  · exact states_simpleLine

theorem states_functionDef (decorated first : Nat) (decorators : List Expr) :
    States whole (functionDef g decorated first decorators) (Stmt.Spelled g.named whole) := by
  unfold functionDef
  dsimp only
  refine .skip fun id => .skip fun _ => .skip fun found => .skip fun _ => .skip fun arrow => ?_
  have hbody : States whole (do
      let body ← block g
      return Stmt.function (← extentFrom first) decorated
        ⟨id, found.1, found.2.1, found.2.2, decorators⟩ body) (Stmt.Spelled g.named whole) :=
    states_block.bind fun body hbody => .skip fun _ => .pure (.function hbody)
  split
  · exact .skip fun _ => hbody
  · exact hbody

theorem states_classDef (first : Nat) :
    States whole (classDef g first) (Stmt.Spelled g.named whole) := by
  have hbody (id : String) : States whole (do
      let body ← block g
      return Stmt.classDef (← extentFrom first) id body) (Stmt.Spelled g.named whole) :=
    .skip fun _ => .skip fun _ => .pure .classDef
  unfold classDef
  dsimp only
  refine .skip fun id => .skip fun opens => ?_
  split
  · exact .skip fun _ => hbody id
  · exact hbody id

theorem states_definition : States whole (definition g) (Stmt.Spelled g.named whole) := by
  unfold definition
  refine .skip fun decorated => .skip fun decorators => .skip fun first => .skip fun isClass => ?_
  split
  · exact states_classDef first
  · exact .skip fun _ => .skip fun _ => states_functionDef decorated first decorators

theorem states_statement :
    States whole (statement g) fun body => ∀ s ∈ body, s.Spelled g.named whole := by
  have hone {s : Stmt} (h : s.Spelled g.named whole) : ∀ t ∈ [s], t.Spelled g.named whole :=
    List.forall_mem_singleton.mpr h
  have hdefinition : States whole (do return [← definition g]) fun body =>
      ∀ s ∈ body, s.Spelled g.named whole :=
    states_definition.bind fun s hs => .pure (hone hs)
  have hotherBy (first : Nat) (body : Reader Unit) [Consuming body] : States whole (do
      let _ ← take
      body
      return [← otherFrom first]) fun body => ∀ s ∈ body, s.Spelled g.named whole :=
    .skip fun _ => .skip fun _ => (states_otherFrom first).bind fun s hs => .pure (hone hs)
  unfold statement
  dsimp only
  refine .skip fun first => .skip fun token => ?_
  split
  · exact hotherBy first _
  · exact hotherBy first _
  · exact hotherBy first _
  · exact hotherBy first _
  · exact hotherBy first _
  · exact hdefinition
  · exact hdefinition
  · exact hdefinition
  · refine .skip fun second => ?_
    split
    · exact hdefinition
    · exact .skip fun _ => hotherBy first _
    · exact .skip fun _ => hotherBy first _
    · exact .skip fun _ => .unexpected
  · refine Meets.orElse ?_ states_simpleLine
    exact States.skip fun _ => (states_otherFrom first).bind fun s hs => .pure (hone hs)
  · exact states_simpleLine

theorem states_statements :
    States whole (statements g) fun body => ∀ s ∈ body, s.Spelled g.named whole :=
  states_statement.statements

theorem states_wholeBlock :
    States whole (wholeBlock g) fun body => ∀ s ∈ body, s.Spelled g.named whole :=
  states_statements.wholeBlock

end Rules

/-- At every depth the statements that the rules give are spelled where they stand. -/
instance (depth : Nat) : StatingRules (rules named depth) := by
  induction depth with
  | zero => exact ⟨fun _ => .unexpected⟩
  | succ depth ih =>
    have hstates (whole : List Token) : States whole (statements (rules named depth)) _ :=
      states_statements
    simp only [rules_named] at hstates
    exact ⟨hstates⟩

/-- The statements of a text that is read are spelled where they stand. -/
theorem spelled_of_readTextAt {depth : Nat} {text : List Char} {body : List Stmt} {scan : Scan}
    (h : readTextAt named depth text wholeBlock = .ok (body, scan)) :
    ∀ s ∈ body, s.Spelled named scan.tokens := by
  obtain ⟨rfl, ended, hread⟩ := readTextAt_eq_ok_iff.mp h
  have hspelled := (states_wholeBlock _ body ended ⟨rfl, le_rfl⟩ hread).2
  rwa [rules_named] at hspelled

end Grammar

end TableAudit
