import TableAudit.Proofs.Grammar.Consumption
import TableAudit.Proofs.Grammar.Literals

namespace TableAudit.Grammar

open TableAudit.Expr

variable {named : String → Option Char} {α β σ : Type}

/-- A reader that takes only tokens within a line and no text literal. -/
class Quiet (reader : Reader α) : Prop where
  consumes : Consumes [] reader fun used _ => Silent used

section Quiet

variable {first second : Reader α} {reader : Reader α} {next : α → Reader β} {test : Token → Bool}

theorem silent_single {token : Token} (htext : token.isText = false)
    (hlayout : token.isLayout = false) : Silent [token] :=
  List.forall_mem_singleton.mpr ⟨htext, hlayout⟩

theorem silent_of_isOp {symbol : String} {token : Token} (h : token.isOp symbol = true) :
    Silent [token] := by
  obtain rfl := eq_of_isOp h
  exact silent_single rfl rfl

theorem silent_of_isKeyword {word : String} {token : Token} (h : token.isKeyword word = true) :
    Silent [token] := by
  obtain rfl := eq_of_isKeyword h
  exact silent_single rfl rfl

theorem quiet_of_looking (h : ∀ input, ∃ value, reader input = .ok (value, input)) : Quiet reader :=
  ⟨(Consumes.looking h).mono fun _ _ hused => hused ▸ Silent.nil⟩

theorem quiet_takeIf (h : ∀ token, test token = true → Silent [token]) : Quiet (takeIf test) := by
  refine ⟨Consumes.takeIf.mono ?_⟩
  rintro used answer (⟨_, token, htest, rfl, _⟩ | ⟨_, rfl⟩)
  · exact h token htest
  · exact Silent.nil

theorem quiet_expect (h : ∀ token, test token = true → Silent [token]) : Quiet (expect test) := by
  refine ⟨Consumes.expect.mono ?_⟩
  rintro used _ ⟨token, htest, rfl, _⟩
  exact h token htest

instance (value : α) : Quiet (pure value) := ⟨.pure Silent.nil⟩
instance : Quiet (reject : Reader α) := ⟨.reject⟩
instance : Quiet peek := quiet_of_looking fun _ => ⟨_, rfl⟩
instance : Quiet peekSecond := quiet_of_looking fun _ => ⟨_, rfl⟩
instance : Quiet isProbing := quiet_of_looking fun _ => ⟨_, rfl⟩
instance (symbol : String) : Quiet (takeOp symbol) := quiet_takeIf fun _ => silent_of_isOp
instance (word : String) : Quiet (takeKeyword word) := quiet_takeIf fun _ => silent_of_isKeyword
instance (symbol : String) : Quiet (expectOp symbol) := quiet_expect fun _ => silent_of_isOp
instance (word : String) : Quiet (expectKeyword word) := quiet_expect fun _ => silent_of_isKeyword
instance (symbol : String) : Quiet (nextIsOp symbol) := quiet_of_looking fun _ => ⟨_, rfl⟩
instance (word : String) : Quiet (nextIsKeyword word) := quiet_of_looking fun _ => ⟨_, rfl⟩

instance [hreader : Quiet reader] [hnext : ∀ value, Quiet (next value)] :
    Quiet (reader >>= next) := by
  refine ⟨hreader.consumes.bind fun used value hused => ?_⟩
  exact (hnext value).consumes.mono fun more _ hmore => hused.append hmore

instance (test : Prop) [Decidable test] [Quiet first] [Quiet second] :
    Quiet (if test then first else second) := by
  split <;> assumption

instance (step : σ → Reader (σ × Bool)) [hstep : ∀ state, Quiet (step state)] (state : σ) :
    Quiet (repeatStep step state) := by
  refine ⟨.repeatStep (fun used state hused => ?_) Silent.nil⟩
  exact (hstep state).consumes.mono fun more _ hmore => hused.append hmore

/-- The token of a name is taken for it. -/
theorem consumes_expectName : Consumes [] expectName fun used id => used = [.name id] := by
  refine .peek fun token => ?_
  split
  · exact .take fun _ => .pure rfl
  · exact .unexpected

instance : Quiet expectName := by
  refine ⟨consumes_expectName.mono ?_⟩
  rintro used id rfl
  exact silent_single rfl rfl

end Quiet

/-- A reader that takes the tokens as which the expression that it gives is written. -/
class Spelling (named : outParam (String → Option Char)) (reader : Reader Expr) : Prop where
  consumes : Consumes [] reader fun used e => Written named used e e.markers

/-- Expressions that are written in front of what a reader takes are parts of those that are written
    up to its end, and these stand in a relation to what it gives. -/
def Spells (named : String → Option Char) (before : List Expr) (ahead : List Token) (reader : Reader α)
    (post : List Expr → α → Prop) : Prop :=
  Consumes ahead reader fun used value =>
    ∃ after, post after value ∧ ∀ tokens, Run named tokens before → Run named (tokens ++ used) after

/-- Nothing but the expression that is given is written. -/
def Alone (after : List Expr) (e : Expr) : Prop :=
  after = [e]

theorem Spelling.of_spells {reader : Reader Expr} (h : Spells named [] [] reader Alone) :
    Spelling named reader := by
  refine ⟨Consumes.mono h ?_⟩
  rintro used e ⟨after, rfl, hrun⟩
  exact (hrun [] (.nil Silent.nil)).written

namespace Spells

variable {before : List Expr} {ahead : List Token} {token second : Token} {reader : Reader α}
  {next : α → Reader β} {post : List Expr → α → Prop} {last : List Expr → β → Prop}

theorem mono (h : Spells named before ahead reader post) {weaker : List Expr → α → Prop}
    (hweaker : ∀ after value, post after value → weaker after value) :
    Spells named before ahead reader weaker := by
  refine Consumes.mono h ?_
  rintro used value ⟨after, hpost, hrun⟩
  exact ⟨after, hweaker after value hpost, hrun⟩

theorem anywhere (h : Spells named before [] reader post) : Spells named before ahead reader post :=
  Consumes.anywhere h

theorem pure {value : α} {after : List Expr} (h : Folds named before after) (hpost : post after value) :
    Spells named before ahead (Pure.pure value) post := by
  refine Consumes.pure ⟨after, hpost, fun tokens hrun => ?_⟩
  rw [List.append_nil]
  exact h tokens hrun

theorem unexpected : Spells named before ahead (unexpected : Reader α) post :=
  Consumes.unexpected

theorem bind (h : Spells named before ahead reader post)
    (hnext : ∀ after value, post after value → Spells named after [] (next value) last) :
    Spells named before ahead (reader >>= next) last := by
  refine Consumes.bind h ?_
  rintro used value ⟨after, hpost, hrun⟩
  refine Consumes.mono (hnext after value hpost) ?_
  rintro more result ⟨later, hlast, hmore⟩
  refine ⟨later, hlast, fun tokens htokens => ?_⟩
  rw [← List.append_assoc]
  exact hmore _ (hrun tokens htokens)

/-- What a quiet reader takes belongs to no expression. -/
theorem quiet [hreader : Quiet reader] (h : ∀ value, Spells named before [] (next value) last) :
    Spells named before ahead (reader >>= next) last := by
  have hquiet : Spells named before ahead reader fun after _ => after = before := by
    refine hreader.consumes.anywhere.mono fun used _ hused => ⟨before, rfl, fun tokens hrun => ?_⟩
    have happend := hrun.append (.nil hused)
    rwa [List.append_nil] at happend
  refine hquiet.bind ?_
  rintro _ value rfl
  exact h value

theorem of_written {reader : Reader Expr}
    (h : Consumes ahead reader fun used e => Written named used e e.markers) :
    Spells named before ahead reader fun after e => after = before ++ [e] :=
  h.mono fun _ e hwritten => ⟨before ++ [e], rfl, fun _ hrun => hrun.append (.of_written hwritten)⟩

/-- The next expression is written behind the others. -/
theorem behind (reader : Reader Expr) [hreader : Spelling named reader] :
    Spells named before ahead reader fun after e => after = before ++ [e] :=
  of_written hreader.consumes.anywhere

theorem expr {reader : Reader Expr} {next : Expr → Reader β} [Spelling named reader]
    (h : ∀ e, Spells named (before ++ [e]) [] (next e) last) :
    Spells named before ahead (reader >>= next) last := by
  refine (Spells.behind reader).bind ?_
  rintro _ e rfl
  exact h e

theorem alone {reader : Reader Expr} [Spelling named reader] : Spells named [] ahead reader Alone :=
  Spells.behind reader

/-- The next token is then known to be ahead. -/
theorem peek {next : Token → Reader β} (h : ∀ token, Spells named before [token] (next token) last) :
    Spells named before [] (Grammar.peek >>= next) last :=
  Consumes.peek h

theorem peekSecond {next : Token → Reader β}
    (h : ∀ second, Spells named before [token, second] (next second) last) :
    Spells named before [token] (Grammar.peekSecond >>= next) last :=
  Consumes.peekSecond h

/-- A token that is taken is one of those in which the next expressions are written. -/
theorem takeRun {next : Token → Reader β} {own : List Expr} (hrun : Run named [token] own)
    (h : Spells named (before ++ own) ahead (next token) last) :
    Spells named before (token :: ahead) (Grammar.take >>= next) last := by
  refine Consumes.take fun _ => Consumes.mono h ?_
  rintro more result ⟨later, hlast, hmore⟩
  refine ⟨later, hlast, fun tokens htokens => ?_⟩
  rw [List.append_cons]
  exact hmore _ (htokens.append hrun)

theorem take {next : Token → Reader β} (hsilent : Silent [token])
    (h : Spells named before ahead (next token) last) :
    Spells named before (token :: ahead) (Grammar.take >>= next) last := by
  refine takeRun (.nil hsilent) ?_
  rwa [List.append_nil]

theorem takeOp {symbol : String} {next : Token → Reader β}
    (h : Spells named before ahead (next (.op symbol)) last) :
    Spells named before (.op symbol :: ahead) (Grammar.take >>= next) last :=
  take (silent_single rfl rfl) h

theorem takeKeyword {word : String} {next : Token → Reader β}
    (h : Spells named before ahead (next (.keyword word)) last) :
    Spells named before (.keyword word :: ahead) (Grammar.take >>= next) last :=
  take (silent_single rfl rfl) h

/-- A sign that is taken may itself spell something. -/
theorem ifTakeOp {symbol : String} {first second : Reader β}
    (hfirst : Consumes [] first fun more result =>
      ∃ after, last after result ∧
        ∀ tokens, Run named tokens before → Run named (tokens ++ .op symbol :: more) after)
    (hsecond : Spells named before [] second last) :
    Spells named before [] (Grammar.takeOp symbol >>= fun answer => if answer then first else second)
      last := by
  refine Consumes.bind Consumes.takeIf ?_
  rintro used answer (⟨rfl, token, htoken, rfl, _⟩ | ⟨rfl, rfl⟩)
  · obtain rfl := eq_of_isOp htoken
    exact hfirst
  · exact hsecond

/-- A test that holds only if a sign comes next tells what is ahead. -/
theorem nextIsOp {symbol : String} {first second : Reader β} (test : Bool → Bool)
    (htest : test false = false) (hfirst : Spells named before [.op symbol] first last)
    (hsecond : Spells named before [] second last) :
    Spells named before [] (nextIsOp symbol >>= fun answer => if test answer then first else second)
      last := by
  change Spells named before [] (Grammar.peek >>= fun token =>
    if test (token.isOp symbol) then first else second) last
  refine peek fun token => ?_
  by_cases htaken : test (token.isOp symbol) = true
  · rw [if_pos htaken]
    cases hsymbol : token.isOp symbol with
    | false =>
      rw [hsymbol, htest] at htaken
      cases htaken
    | true =>
      obtain rfl := eq_of_isOp hsymbol
      exact hfirst
  · rw [if_neg htaken]
    exact hsecond.anywhere

/-- What each step keeps, a loop keeps. -/
theorem repeatStep {step : σ → Reader (σ × Bool)} {inv : List Expr → σ → Prop} {state : σ}
    (hstep : ∀ parts state, inv parts state →
      Spells named parts [] (step state) fun after found => inv after found.1)
    (h : inv before state) : Spells named before ahead (repeatStep step state) inv := by
  refine Consumes.anywhere (Consumes.repeatStep ?_ ⟨before, h, fun tokens hrun => ?_⟩)
  · rintro used state ⟨parts, hinv, hrun⟩
    refine Consumes.mono (hstep parts state hinv) ?_
    rintro more found ⟨after, hafter, hmore⟩
    refine ⟨after, hafter, fun tokens htokens => ?_⟩
    rw [← List.append_assoc]
    exact hmore _ (hrun tokens htokens)
  · rwa [List.append_nil]

/-- Behind a loop stands what its steps keep. -/
theorem afterLoop {step : σ → Reader (σ × Bool)} {state : σ} {next : σ → Reader β}
    (inv : List Expr → σ → Prop) (h : inv before state)
    (hstep : ∀ parts state, inv parts state →
      Spells named parts [] (step state) fun after found => inv after found.1)
    (hnext : ∀ parts state, inv parts state → Spells named parts [] (next state) last) :
    Spells named before ahead (Grammar.repeatStep step state >>= next) last :=
  (repeatStep hstep h).bind hnext

/-- Items with commas between them, each of which stands for expressions. -/
theorem commaSeparated {item : Reader α} {closes : Token → Bool} {of : α → List Expr}
    (hitem : ∀ parts, Spells named parts [] item fun after value => after = parts ++ of value) :
    Spells named before ahead (commaSeparated item closes) fun after found =>
      after = before ++ found.1.flatMap of := by
  unfold Grammar.commaSeparated
  refine (hitem before).anywhere.bind ?_
  rintro _ first rfl
  refine .afterLoop (fun parts (state : List α × Bool) =>
    parts = before ++ state.1.reverse.flatMap of) ?_ ?_ ?_
  · rw [List.reverse_singleton, List.flatMap_singleton]
  · refine fun parts state hparts => .quiet fun comma => ?_
    split
    · refine .quiet fun token => ?_
      split
      · exact .pure (.refl _) hparts
      · refine (hitem parts).bind ?_
        rintro _ more rfl
        refine .pure (.refl _) ?_
        rw [hparts, List.reverse_cons, List.flatMap_append, List.flatMap_singleton,
          List.append_assoc]
    · exact .pure (.refl _) hparts
  · rintro _ ⟨reversed, comma⟩ rfl
    exact .pure (.refl _) rfl

/-- Expressions with commas between them are written one after the other. -/
theorem commaSeparatedExprs {item : Reader Expr} [Spelling named item] {closes : Token → Bool} :
    Spells named before ahead (Grammar.commaSeparated item closes) fun after found =>
      after = before ++ found.1 := by
  refine (commaSeparated fun parts => Spells.behind item).mono ?_
  rintro _ found rfl
  rw [List.flatMap_singleton']

end Spells

instance (priority := low) {reader : Reader Expr} [hreader : Spelling named reader] : Consuming reader :=
  hreader.consumes.consuming

instance (priority := low) {reader : Reader α} [hreader : Quiet reader] : Consuming reader :=
  hreader.consumes.consuming

end TableAudit.Grammar
