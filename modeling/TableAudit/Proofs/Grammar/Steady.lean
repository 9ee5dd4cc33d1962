import TableAudit.Proofs.Grammar.Parallel
import TableAudit.Proofs.Grammar.Reads

namespace TableAudit.Grammar

variable {α β σ : Type} {set : Setting}

/-- A reader that gives the same of a piece by itself and in every setting, and that takes a token
    where its value is of a kind. -/
class Takes (set : Setting) (kind : α → Prop) (reader : Reader α) : Prop where
  parallel : ∀ tokens, Parallel set tokens reader reader fun left a b =>
    a = b ∧ (kind a → left.length < tokens.length)

/-- The same where the next token is a certain one. -/
class TakesAt (set : Setting) (token : Token) (kind : α → Prop) (reader : Reader α) : Prop where
  parallel : ∀ more, Parallel set (token :: more) reader reader fun left a b =>
    a = b ∧ (kind a → left.length < (token :: more).length)

/-- The same where the next two tokens are certain ones. -/
class TakesBefore (set : Setting) (token second : Token) (kind : α → Prop) (reader : Reader α) :
    Prop where
  parallel : ∀ more, Parallel set (token :: second :: more) reader reader fun left a b =>
    a = b ∧ (kind a → left.length < (token :: second :: more).length)

/-- A reader that may take nothing. -/
abbrev Steady (set : Setting) (reader : Reader α) : Prop :=
  Takes set (fun _ => False) reader

/-- A reader that takes a token wherever it succeeds. -/
abbrev Advancing (set : Setting) (reader : Reader α) : Prop :=
  Takes set (fun _ => True) reader

/-- A reader that takes a token where it answers yes. -/
abbrev SteadyTest (set : Setting) (reader : Reader Bool) : Prop :=
  Takes set (fun answer => answer = true) reader

/-- The step of a loop, which takes a token where the loop goes on. -/
abbrev SteadyStep (set : Setting) (reader : Reader (σ × Bool)) : Prop :=
  Takes set (fun found => found.2 = true) reader

theorem Steady.agrees {reader : Reader α} (h : Steady set reader) (tokens : List Token) :
    Parallel set tokens reader reader fun _ a b => a = b :=
  (h.parallel tokens).mono fun _ _ _ _ h => h.1

/-- A token that a piece of an expression can be, or a line end. -/
class Plain (token : Token) : Prop where
  isEdge : isEdge token = false
  ne_fault : token ≠ .fault

/-- A test that no edge passes. -/
class Blind (test : Token → Bool) : Prop where
  eq_false : ∀ token, isEdge token = true → test token = false

/-- A test that all edges pass, or none of them. -/
class Uniform (test : Token → Bool) : Prop where
  eq_stop : ∀ token, isEdge token = true → test token = test .stop

instance (id : String) : Plain (.name id) := ⟨rfl, Token.noConfusion⟩
instance (word : String) : Plain (.keyword word) := ⟨rfl, Token.noConfusion⟩
instance (value : Nat) : Plain (.int value) := ⟨rfl, Token.noConfusion⟩
instance (value : Float) : Plain (.float value) := ⟨rfl, Token.noConfusion⟩
instance (value : Float) : Plain (.imaginary value) := ⟨rfl, Token.noConfusion⟩
instance (lexeme : List Char) : Plain (.text lexeme) := ⟨rfl, Token.noConfusion⟩
instance (symbol : String) : Plain (.op symbol) := ⟨rfl, Token.noConfusion⟩

/-- What holds of the three edges holds of every edge. -/
theorem forall_isEdge {p : Token → Prop} (hindent : p .indent) (hdedent : p .dedent)
    (hstop : p .stop) (token : Token) (h : isEdge token = true) : p token := by
  cases token <;> first | assumption | cases h

instance (symbol : String) : Blind (Token.isOp symbol) := ⟨forall_isEdge rfl rfl rfl⟩
instance (word : String) : Blind (Token.isKeyword word) := ⟨forall_isEdge rfl rfl rfl⟩
instance : Blind isNewline := ⟨forall_isEdge rfl rfl rfl⟩
instance : Blind beginsExpression := ⟨forall_isEdge rfl rfl rfl⟩

instance (priority := low) (test : Token → Bool) [Blind test] : Uniform test :=
  ⟨fun token h => (Blind.eq_false token h).trans (Blind.eq_false .stop rfl).symm⟩

instance : Uniform endsSequence := ⟨forall_isEdge rfl rfl rfl⟩
instance (answer : Bool) : Uniform fun _ => answer := ⟨fun _ _ => rfl⟩

section Compose

variable {kind : α → Prop} {kind' : β → Prop} {reader first second : Reader α}
  {next : α → Reader β} {token : Token}

theorem takes_pure {value : α} (h : ¬ kind value) : Takes set kind (pure value) :=
  ⟨fun _ => .pure ⟨rfl, fun hkind => absurd hkind h⟩⟩

instance (value : α) : Steady set (pure value) := takes_pure id
instance (state : σ) : SteadyStep set (pure (state, false)) := takes_pure Bool.noConfusion
instance : Takes set kind unexpected := ⟨fun _ => .unexpected⟩
instance : Takes set kind reject := ⟨fun _ => .reject⟩
instance : Takes set kind' (unexpected >>= next) := ⟨fun _ => .unexpected_bind⟩

instance (test : Prop) [Decidable test] [Takes set kind first] [Takes set kind second] :
    Takes set kind (if test then first else second) := by
  split <;> assumption

instance [Takes set kind first] [Takes set kind second] : Takes set kind (orElse first second) where
  parallel tokens := .orElse (Takes.parallel tokens) (Takes.parallel tokens)

/-- Where the first reader has taken a token, nothing more need be. -/
theorem takes_bind (hreader : Takes set kind reader) (htaken : ∀ a, kind a → Steady set (next a))
    (hnext : ∀ a, ¬ kind a → Takes set kind' (next a)) : Takes set kind' (reader >>= next) where
  parallel tokens := by
    refine .bind (hreader.parallel tokens) fun left a b hlength h => ?_
    obtain ⟨rfl, hless⟩ := h
    by_cases hkind : kind a
    · refine ((htaken a hkind).agrees left).mono fun _ _ _ hlater h => ⟨h, fun _ => ?_⟩
      exact Nat.lt_of_le_of_lt hlater (hless hkind)
    · refine ((hnext a hkind).parallel left).mono fun _ _ _ _ h => ⟨h.1, fun hkind => ?_⟩
      exact Nat.lt_of_lt_of_le (h.2 hkind) hlength

theorem takes_then (hreader : Steady set reader) (hnext : ∀ a, Takes set kind' (next a)) :
    Takes set kind' (reader >>= next) :=
  takes_bind hreader (fun _ => False.elim) fun a _ => hnext a

instance [hreader : Steady set reader] [hnext : ∀ a, Takes set kind' (next a)] :
    Takes set kind' (reader >>= next) :=
  takes_then hreader hnext

instance (priority := low) [hreader : Advancing set reader] [hnext : ∀ a, Steady set (next a)] :
    Takes set kind' (reader >>= next) :=
  takes_bind hreader (fun a _ => hnext a) fun _ h => absurd trivial h

theorem takes_ifTest {test : Reader Bool} (htest : SteadyTest set test) (hfirst : Steady set first)
    (hsecond : Takes set kind second) :
    Takes set kind (test >>= fun answer => if answer = true then first else second) := by
  refine takes_bind htest (fun answer h => ?_) fun answer h => ?_
  · rw [if_pos h]
    exact hfirst
  · rw [if_neg h]
    exact hsecond

instance {test : Reader Bool} [htest : SteadyTest set test] [hfirst : Steady set first]
    [hsecond : Takes set kind second] :
    Takes set kind (test >>= fun answer => if answer = true then first else second) :=
  takes_ifTest htest hfirst hsecond

theorem Takes.steady (h : Takes set kind reader) : Steady set reader where
  parallel tokens := (h.parallel tokens).mono fun _ _ _ _ h => ⟨h.1, False.elim⟩

instance (priority := low) [Takes set kind reader] : TakesAt set token kind reader :=
  ⟨fun more => Takes.parallel (token :: more)⟩

instance (test : Prop) [Decidable test] [TakesAt set token kind first] [TakesAt set token kind second] :
    TakesAt set token kind (if test then first else second) := by
  split <;> assumption

instance {next : Token → Reader β} [Plain token] [hnext : ∀ a, Steady set (next a)] :
    TakesAt set token kind' (take >>= next) where
  parallel more := by
    refine .bind (.take_self Plain.isEdge Plain.ne_fault) fun left a b _ h => ?_
    obtain ⟨rfl, rfl, rfl⟩ := h
    refine ((hnext _).agrees left).mono fun _ _ _ hlength h => ⟨h, fun _ => ?_⟩
    rw [List.length_cons]
    omega

instance (priority := low) {second : Token} [Takes set kind reader] :
    TakesBefore set token second kind reader :=
  ⟨fun more => Takes.parallel (token :: second :: more)⟩

instance {second : Token} {next : Token → Reader β} [Plain token]
    [hnext : ∀ a, TakesAt set second (fun _ => False) (next a)] :
    TakesBefore set token second kind' (take >>= next) where
  parallel more := by
    refine .bind (.take_self Plain.isEdge Plain.ne_fault) fun left a b _ h => ?_
    obtain ⟨rfl, rfl, rfl⟩ := h
    refine ((hnext _).parallel more).mono fun _ _ _ hlength h => ⟨h.1, fun _ => ?_⟩
    rw [List.length_cons]
    omega

/-- A look at the next token takes nothing, and edges all look alike. -/
theorem takes_peek {next : Token → Reader β} (hnext : ∀ token, TakesAt set token kind' (next token))
    (hedge : ∀ token, isEdge token = true → next token = next .stop)
    (hstop : Takes set kind' (next .stop)) : Takes set kind' (peek >>= next) where
  parallel tokens := by
    refine .peek ?_ fun h => ?_
    · rintro token more rfl
      exact (hnext token).parallel more
    · rw [hedge _ set.first]
      exact hstop.parallel tokens

theorem takes_ifPeek {test : Token → Bool} (htest : Uniform test) (hfirst : Takes set kind first)
    (hsecond : Takes set kind second) :
    Takes set kind (peek >>= fun token => if test token = true then first else second) :=
  takes_peek (fun _ => inferInstance) (fun token h => by rw [htest.eq_stop token h]) inferInstance

instance {test : Token → Bool} [htest : Uniform test] [hfirst : Takes set kind first]
    [hsecond : Takes set kind second] :
    Takes set kind (peek >>= fun token => if test token = true then first else second) :=
  takes_ifPeek htest hfirst hsecond

/-- The token after the next one is only seen to be the sign of an assignment or not. -/
theorem takes_peekSecond {next : Token → Reader β} (hnext : ∀ token, Takes set kind' (next token))
    (hother : ∀ token, token.isOp ":=" = false → next token = next .stop) :
    Takes set kind' (peekSecond >>= next) where
  parallel tokens := by
    refine .peekSecond ?_
    have hedge : (set.after.headD .stop).isOp ":=" = false := Blind.eq_false _ set.first
    rcases tokens with _ | ⟨token, _ | ⟨second, more⟩⟩
    · rw [List.nil_append, hother _ set.second]
      exact (hnext _).parallel []
    · rw [List.singleton_append, List.tail_cons, List.tail_cons, hother _ hedge]
      exact (hnext _).parallel [token]
    · exact (hnext second).parallel _

/-- Where a token was seen, edges after it all look alike. -/
theorem takesAt_peekSecond {next : Token → Reader β}
    (hnext : ∀ second, TakesBefore set token second kind' (next second))
    (hedge : ∀ second, isEdge second = true → next second = next .stop)
    (hstop : TakesAt set token kind' (next .stop)) : TakesAt set token kind' (peekSecond >>= next) where
  parallel more := by
    refine .peekSecond ?_
    cases more with
    | nil =>
      rw [List.singleton_append, List.tail_cons, List.tail_cons, hedge _ set.first]
      exact hstop.parallel []
    | cons second more => exact (hnext second).parallel more

end Compose

instance (test : Token → Bool) [Blind test] : SteadyTest set (takeIf test) :=
  ⟨fun _ => .takeIf Blind.eq_false⟩

instance (test : Token → Bool) [Blind test] : Steady set (takeIf test) :=
  Takes.steady (inferInstance : SteadyTest set (takeIf test))

instance (test : Token → Bool) [Blind test] : Advancing set (expect test) :=
  inferInstanceAs (Advancing set (takeIf test >>= fun answer => if answer = true then pure () else unexpected))

instance (test : Token → Bool) [Blind test] : Steady set (expect test) :=
  Takes.steady (inferInstance : Advancing set (expect test))

instance (symbol : String) : SteadyTest set (takeOp symbol) := inferInstanceAs (SteadyTest set (takeIf _))
instance (symbol : String) : Steady set (takeOp symbol) := inferInstanceAs (Steady set (takeIf _))
instance (word : String) : SteadyTest set (takeKeyword word) := inferInstanceAs (SteadyTest set (takeIf _))
instance (word : String) : Steady set (takeKeyword word) := inferInstanceAs (Steady set (takeIf _))
instance (symbol : String) : Advancing set (expectOp symbol) := inferInstanceAs (Advancing set (expect _))
instance (symbol : String) : Steady set (expectOp symbol) := inferInstanceAs (Steady set (expect _))
instance (word : String) : Advancing set (expectKeyword word) := inferInstanceAs (Advancing set (expect _))
instance (word : String) : Steady set (expectKeyword word) := inferInstanceAs (Steady set (expect _))

instance (symbol : String) : Steady set (nextIsOp symbol) :=
  takes_peek (fun _ => inferInstance) (forall_isEdge rfl rfl rfl) inferInstance

instance (word : String) : Steady set (nextIsKeyword word) :=
  takes_peek (fun _ => inferInstance) (forall_isEdge rfl rfl rfl) inferInstance

instance : Advancing set expectName := by
  refine takes_peek (fun token => ?_) (forall_isEdge rfl rfl rfl) inferInstance
  split <;> infer_instance

instance : Steady set expectName :=
  Takes.steady (inferInstance : Advancing set expectName)

/-- What is read after a token was seen may take it. -/
theorem takes_look {kind : α → Prop} {first second : Reader α} {look : Token → Bool} [Blind look]
    (test : Bool → Bool) (htest : test false = false)
    (hfirst : ∀ token, look token = true → TakesAt set token kind first) (hsecond : Takes set kind second) :
    Takes set kind (peek >>= fun token => if test (look token) = true then first else second) := by
  refine takes_peek (fun token => ?_) (fun token h => ?_) ?_
  · by_cases h : test (look token) = true
    · rw [if_pos h]
      cases hlook : look token with
      | true => exact hfirst token hlook
      | false =>
        rw [hlook, htest] at h
        cases h
    · rw [if_neg h]
      infer_instance
  · rw [(‹Blind look›).eq_false token h, (‹Blind look›).eq_false .stop rfl]
  · rw [(‹Blind look›).eq_false .stop rfl, htest, if_neg Bool.false_ne_true]
    exact hsecond

theorem takes_nextIsOp {symbol : String} {kind : α → Prop} {first second : Reader α}
    (test : Bool → Bool) (htest : test false = false) (hfirst : TakesAt set (.op symbol) kind first)
    (hsecond : Takes set kind second) :
    Takes set kind (nextIsOp symbol >>= fun answer => if test answer = true then first else second) :=
  takes_look test htest (fun _ h => eq_of_isOp h ▸ hfirst) hsecond

theorem takes_nextIsKeyword {word : String} {kind : α → Prop} {first second : Reader α}
    (hfirst : TakesAt set (.keyword word) kind first) (hsecond : Takes set kind second) :
    Takes set kind (nextIsKeyword word >>= fun answer => if answer = true then first else second) := by
  have hlook : Takes set kind (peek >>= fun token =>
      if id (token.isKeyword word) = true then first else second) :=
    takes_look id rfl (fun _ h => eq_of_isKeyword h ▸ hfirst) hsecond
  exact hlook

instance (step : σ → Reader (σ × Bool)) [hstep : ∀ state, SteadyStep set (step state)] (state : σ) :
    Steady set (repeatStep step state) where
  parallel tokens := by
    have hloop : Parallel set tokens (repeatStep step state) (repeatStep step state)
        fun _ a b => a = b := by
      refine .repeatStep (fun tokens a b h => ?_) rfl
      subst h
      refine ((hstep a).parallel tokens).mono fun _ _ _ _ h => ?_
      exact ⟨congrArg Prod.fst h.1, congrArg Prod.snd h.1, h.2⟩
    exact hloop.mono fun _ _ _ _ h => ⟨h, False.elim⟩

instance (item : Reader α) (closes : Token → Bool) [Steady set item] [Uniform closes] :
    Steady set (commaSeparated item closes) := by
  unfold commaSeparated
  infer_instance

end TableAudit.Grammar
