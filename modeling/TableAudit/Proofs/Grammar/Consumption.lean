import Mathlib.Data.List.Basic
import TableAudit.Grammar.Text
import TableAudit.Proofs.Grammar.Reads

namespace TableAudit.Grammar

variable {α β σ : Type}

/-- The numbers of tokens read, all of them and up to the last one with a text of its own, after one
    more. -/
def counted (counts : Nat × Nat) (token : Token) : Nat × Nat :=
  (counts.1 + 1, if token.isLayout then counts.2 else counts.1 + 1)

/-- Tokens are taken from the front of an input. -/
structure Input.Moves (input reached : Input) (used : List Token) : Prop where
  rest : input.rest = used ++ reached.rest
  counts : (reached.index, reached.last) = used.foldl counted (input.index, input.last)
  takeable : ∀ token ∈ used, Takeable token

namespace Input.Moves

theorem refl (input : Input) : input.Moves input [] :=
  ⟨rfl, rfl, List.forall_mem_nil _⟩

theorem trans {input middle reached : Input} {used more : List Token}
    (h : input.Moves middle used) (hmore : middle.Moves reached more) :
    input.Moves reached (used ++ more) := by
  refine ⟨?_, ?_, List.forall_mem_append.mpr ⟨h.takeable, hmore.takeable⟩⟩
  · rw [h.rest, hmore.rest, List.append_assoc]
  · rw [List.foldl_append, ← h.counts, hmore.counts]

theorem fst_foldl_counted (used : List Token) (counts : Nat × Nat) :
    (used.foldl counted counts).1 = counts.1 + used.length := by
  induction used generalizing counts with
  | nil => rfl
  | cons token rest ih =>
    rw [List.foldl_cons, ih, counted, List.length_cons]
    omega

theorem index_eq {input reached : Input} {used : List Token} (h : input.Moves reached used) :
    reached.index = input.index + used.length := by
  have hfirst := congrArg Prod.fst h.counts
  rwa [fst_foldl_counted] at hfirst

/-- Where the last token taken has a text of its own, no later one has. -/
theorem last_eq {input reached : Input} {used : List Token} {token : Token}
    (h : input.Moves reached (used ++ [token])) (htoken : token.isLayout = false) :
    reached.last = reached.index := by
  have hcounts := h.counts
  rw [List.foldl_append, List.foldl_cons, List.foldl_nil] at hcounts
  generalize used.foldl counted (input.index, input.last) = counts at hcounts
  have hindex := congrArg Prod.fst hcounts
  have hlast := congrArg Prod.snd hcounts
  simp only [counted, htoken, Bool.false_eq_true, if_false] at hindex hlast
  rw [hindex, hlast]

end Input.Moves

/-- The next tokens of an input, where those behind the last count as its end. -/
def Front : List Token → List Token → Prop
  | [], _ => True
  | token :: ahead, rest => rest.headD .stop = token ∧ Front ahead rest.tail

/-- Where a reader succeeds with some tokens ahead, it has taken tokens from the front, and what it
    gives stands in a relation to them. -/
def Consumes (ahead : List Token) (reader : Reader α) (post : List Token → α → Prop) : Prop :=
  ∀ input value reached, Front ahead input.rest → reader input = .ok (value, reached) →
    ∃ used, input.Moves reached used ∧ post used value

namespace Consumes

variable {ahead : List Token} {token second : Token} {reader : Reader α} {next : α → Reader β}
  {post : List Token → α → Prop} {last : List Token → β → Prop}

theorem mono (h : Consumes ahead reader post) {weaker : List Token → α → Prop}
    (hweaker : ∀ used value, post used value → weaker used value) :
    Consumes ahead reader weaker := by
  intro input value reached hahead hread
  obtain ⟨used, hmoves, hpost⟩ := h input value reached hahead hread
  exact ⟨used, hmoves, hweaker used value hpost⟩

/-- It need not be known what is ahead. -/
theorem anywhere (h : Consumes [] reader post) : Consumes ahead reader post :=
  fun input value reached _ hread => h input value reached trivial hread

theorem bind (h : Consumes ahead reader post)
    (hnext : ∀ used value, post used value →
      Consumes [] (next value) fun more result => last (used ++ more) result) :
    Consumes ahead (reader >>= next) last := by
  intro input result final hahead hread
  change (reader input >>= fun found => next found.1 found.2) = .ok (result, final) at hread
  cases hfirst : reader input with
  | error failure =>
    rw [hfirst] at hread
    cases hread
  | ok found =>
    rw [hfirst] at hread
    obtain ⟨used, hmoves, hpost⟩ := h input found.1 found.2 hahead hfirst
    obtain ⟨more, hmore, hlast⟩ := hnext used found.1 hpost found.2 result final trivial hread
    exact ⟨used ++ more, hmoves.trans hmore, hlast⟩

theorem pure {value : α} (h : post [] value) : Consumes ahead (pure value) post := by
  intro input found reached _ hread
  cases hread
  exact ⟨[], .refl input, h⟩

theorem unexpected : Consumes ahead (unexpected : Reader α) post := nofun

theorem reject : Consumes ahead (reject : Reader α) post := nofun

/-- A reader that takes nothing. -/
theorem look {reader : Reader α} (hreader : ∀ input, ∃ value, reader input = .ok (value, input))
    (h : ∀ value, Consumes ahead (next value) last) : Consumes ahead (reader >>= next) last := by
  intro input result final hahead hread
  obtain ⟨value, hvalue⟩ := hreader input
  change (reader input >>= fun found => next found.1 found.2) = .ok (result, final) at hread
  rw [hvalue] at hread
  exact h value input result final hahead hread

/-- The next token is then known to be ahead. -/
theorem peek {next : Token → Reader β} (h : ∀ token, Consumes [token] (next token) last) :
    Consumes [] (peek >>= next) last :=
  fun input result final _ hread => h _ input result final ⟨rfl, trivial⟩ hread

theorem peekSecond {next : Token → Reader β}
    (h : ∀ second, Consumes [token, second] (next second) last) :
    Consumes [token] (peekSecond >>= next) last :=
  fun input result final hahead hread =>
    h _ input result final ⟨hahead.1, rfl, trivial⟩ hread

/-- A token is taken only if it is neither the end nor a fault. -/
theorem take_self : Consumes (token :: ahead) take fun used value =>
    used = [token] ∧ value = token ∧ Takeable token := by
  intro input value reached hahead hread
  have hfirst := hahead.1
  obtain ⟨_ | ⟨head, rest⟩, index, last, probing⟩ := input
  · cases hread
  · obtain rfl : head = token := hfirst
    have htake (htakeable : Takeable head)
        (htaken : Grammar.take ⟨head :: rest, index, last, probing⟩ = .ok (head,
          ⟨rest, index + 1, if head.isLayout then last else index + 1, probing⟩)) :
        ∃ used, Input.Moves ⟨head :: rest, index, last, probing⟩ reached used ∧
          used = [head] ∧ value = head ∧ Takeable head := by
      rw [htaken] at hread
      cases hread
      exact ⟨[_], ⟨rfl, rfl, List.forall_mem_singleton.mpr htakeable⟩, rfl, rfl, htakeable⟩
    cases head with
    | stop => cases hread
    | fault => cases hread
    | _ => exact htake ⟨Token.noConfusion, Token.noConfusion⟩ rfl

/-- The tokens behind one that is taken stay ahead. -/
theorem take {next : Token → Reader β}
    (h : Takeable token → Consumes ahead (next token) fun more result => last (token :: more) result) :
    Consumes (token :: ahead) (Grammar.take >>= next) last := by
  intro input result final hahead hread
  change (Grammar.take input >>= fun found => next found.1 found.2) = .ok (result, final) at hread
  cases hfirst : Grammar.take input with
  | error failure =>
    rw [hfirst] at hread
    cases hread
  | ok found =>
    rw [hfirst] at hread
    obtain ⟨used, hmoves, rfl, hvalue, htakeable⟩ := take_self input found.1 found.2 hahead hfirst
    have htail : found.2.rest = input.rest.tail := by rw [hmoves.rest]; rfl
    have hbehind : Front ahead found.2.rest := htail ▸ hahead.2
    have hread : next found.1 found.2 = .ok (result, final) := hread
    rw [hvalue] at hread
    obtain ⟨more, hmore, hlast⟩ := h htakeable found.2 result final hbehind hread
    exact ⟨[token] ++ more, hmoves.trans hmore, hlast⟩

/-- A token that passes a test is taken. -/
theorem takeIf {test : Token → Bool} : Consumes [] (takeIf test) fun used answer =>
    (answer = true ∧ ∃ token, test token = true ∧ used = [token] ∧ Takeable token) ∨
      (answer = false ∧ used = []) := by
  refine peek fun token => ?_
  by_cases htest : test token = true
  · rw [if_pos htest]
    exact take fun htakeable => pure (.inl ⟨rfl, token, htest, rfl, htakeable⟩)
  · rw [if_neg htest]
    exact pure (.inr ⟨rfl, rfl⟩)

/-- A token that is ahead is seen again. -/
theorem peekAgain {next : Token → Reader β} (h : Consumes (token :: ahead) (next token) last) :
    Consumes (token :: ahead) (Grammar.peek >>= next) last := by
  intro input result final hahead hread
  have hnext : next (input.rest.headD .stop) input = .ok (result, final) := hread
  rw [hahead.1] at hnext
  exact h input result final hahead hnext

/-- A token that is known to be ahead is taken or stays ahead. -/
theorem takeIf_ahead {test : Token → Bool} {next : Bool → Reader β}
    (htaken : test token = true → Consumes ahead (next true) fun more result =>
      last (token :: more) result)
    (hleft : test token = false → Consumes (token :: ahead) (next false) last) :
    Consumes (token :: ahead) (Grammar.takeIf test >>= next) last := by
  rw [Grammar.takeIf, bind_assoc]
  refine peekAgain ?_
  cases htest : test token with
  | true =>
    simp only [if_true, bind_assoc, pure_bind]
    exact take fun _ => htaken htest
  | false => exact hleft htest

/-- Whether a sign comes next is known of a token that is ahead. -/
theorem nextIsOp_ahead {symbol : String} {next : Bool → Reader β}
    (h : Consumes (token :: ahead) (next (token.isOp symbol)) last) :
    Consumes (token :: ahead) (nextIsOp symbol >>= next) last := by
  rw [nextIsOp, bind_assoc]
  refine peekAgain ?_
  rwa [pure_bind]

/-- What is ahead begins what is taken. -/
theorem fronted (h : Consumes ahead reader post) :
    Consumes ahead reader fun used value => post used value ∧ ∃ rest, Front ahead (used ++ rest) := by
  intro input value reached hahead hread
  obtain ⟨used, hmoves, hpost⟩ := h input value reached hahead hread
  exact ⟨used, hmoves, hpost, reached.rest, hmoves.rest ▸ hahead⟩

/-- A token that is taken must have passed the test. -/
theorem expect {test : Token → Bool} : Consumes [] (expect test) fun used _ =>
    ∃ token, test token = true ∧ used = [token] ∧ Takeable token := by
  refine bind takeIf fun used answer h => ?_
  rcases h with ⟨rfl, token, htest, rfl, htakeable⟩ | ⟨rfl, _⟩
  · exact pure ⟨token, htest, rfl, htakeable⟩
  · exact unexpected

theorem orElse {first second : Reader α} (h : Consumes ahead first post)
    (hsecond : Consumes ahead second post) : Consumes ahead (orElse first second) post := by
  intro input value reached hahead hread
  unfold Grammar.orElse at hread
  cases hfirst : first input with
  | ok answer =>
    rw [hfirst] at hread
    exact h input value reached hahead (hfirst.trans hread)
  | error failure =>
    rw [hfirst] at hread
    dsimp only at hread
    split at hread
    · cases hread
    · exact hsecond input value reached hahead hread

/-- A reader that only looks. -/
theorem looking {reader : Reader α} (hreader : ∀ input, ∃ value, reader input = .ok (value, input)) :
    Consumes ahead reader fun used _ => used = [] := by
  intro input value reached _ hread
  obtain ⟨found, hfound⟩ := hreader input
  rw [hfound] at hread
  cases hread
  exact ⟨[], .refl _, rfl⟩

/-- Where steps keep something while a loop goes on, the step that ends it may give less. -/
theorem loopUntil {step : σ → Reader (σ × Bool)} {inv post : List Token → σ → Prop}
    (hweaker : ∀ used state, inv used state → post used state)
    (hstep : ∀ used state, inv used state → Consumes [] (step state) fun more found =>
      if found.2 then inv (used ++ more) found.1 else post (used ++ more) found.1)
    {used : List Token} (fuel : Nat) {state : σ} (h : inv used state) :
    Consumes [] (Grammar.loop step fuel state) fun more found => post (used ++ more) found := by
  induction fuel generalizing used state with
  | zero =>
    refine pure ?_
    rw [List.append_nil]
    exact hweaker used state h
  | succ fuel ih =>
    rw [Grammar.loop]
    refine bind (hstep used state h) ?_
    rintro more ⟨found, goesOn⟩ hfound
    cases goesOn with
    | false =>
      refine pure ?_
      rwa [List.append_nil]
    | true =>
      refine (ih hfound).mono fun later result hresult => ?_
      rwa [List.append_assoc] at hresult

theorem repeatUntil {step : σ → Reader (σ × Bool)} {inv post : List Token → σ → Prop}
    (hweaker : ∀ used state, inv used state → post used state)
    (hstep : ∀ used state, inv used state → Consumes [] (step state) fun more found =>
      if found.2 then inv (used ++ more) found.1 else post (used ++ more) found.1)
    {state : σ} (h : inv [] state) : Consumes [] (Grammar.repeatStep step state) post :=
  look (fun _ => ⟨_, rfl⟩) fun _ => loopUntil hweaker hstep _ h

/-- What each step keeps, a loop keeps. -/
theorem loop {step : σ → Reader (σ × Bool)} {inv : List Token → σ → Prop}
    (hstep : ∀ used state, inv used state →
      Consumes [] (step state) fun more found => inv (used ++ more) found.1)
    {used : List Token} (fuel : Nat) {state : σ} (h : inv used state) :
    Consumes [] (Grammar.loop step fuel state) fun more found => inv (used ++ more) found := by
  refine loopUntil (fun _ _ => id) (fun used state h => ?_) fuel h
  refine (hstep used state h).mono fun more found hfound => ?_
  rwa [ite_self]

theorem repeatStep {step : σ → Reader (σ × Bool)} {inv : List Token → σ → Prop}
    (hstep : ∀ used state, inv used state →
      Consumes [] (step state) fun more found => inv (used ++ more) found.1)
    {state : σ} (h : inv [] state) : Consumes [] (Grammar.repeatStep step state) inv :=
  look (fun _ => ⟨_, rfl⟩) fun _ => loop hstep _ h

end Consumes

/-- A reader of which nothing is said but that it consumes its input. -/
class Consuming (reader : Reader α) : Prop where
  consumes : Consumes [] reader fun _ _ => True

section Consuming

variable {first second : Reader α} {reader : Reader α} {next : α → Reader β}

theorem Consumes.consuming {post : List Token → α → Prop} (h : Consumes [] reader post) :
    Consuming reader :=
  ⟨h.mono fun _ _ _ => trivial⟩

instance (value : α) : Consuming (pure value) := ⟨.pure trivial⟩
instance : Consuming (unexpected : Reader α) := ⟨.unexpected⟩
instance : Consuming (reject : Reader α) := ⟨.reject⟩
instance : Consuming peek := (Consumes.looking fun _ => ⟨_, rfl⟩).consuming
instance : Consuming peekSecond := (Consumes.looking fun _ => ⟨_, rfl⟩).consuming
instance : Consuming position := (Consumes.looking fun _ => ⟨_, rfl⟩).consuming
instance : Consuming lastText := (Consumes.looking fun _ => ⟨_, rfl⟩).consuming
instance : Consuming isProbing := (Consumes.looking fun _ => ⟨_, rfl⟩).consuming

instance [hreader : Consuming reader] [hnext : ∀ value, Consuming (next value)] :
    Consuming (reader >>= next) :=
  ⟨hreader.consumes.bind fun _ value _ => (hnext value).consumes⟩

instance (test : Prop) [Decidable test] [Consuming first] [Consuming second] :
    Consuming (if test then first else second) := by
  split <;> assumption

instance : Consuming take :=
  ⟨fun input value reached _ hread =>
    have hahead : Front [input.rest.headD .stop] input.rest := ⟨rfl, trivial⟩
    have ⟨used, hmoves, _⟩ := Consumes.take_self input value reached hahead hread
    ⟨used, hmoves, trivial⟩⟩

instance (test : Token → Bool) : Consuming (takeIf test) := Consumes.takeIf.consuming
instance (test : Token → Bool) : Consuming (expect test) := Consumes.expect.consuming
instance (symbol : String) : Consuming (takeOp symbol) := inferInstanceAs (Consuming (takeIf _))
instance (word : String) : Consuming (takeKeyword word) := inferInstanceAs (Consuming (takeIf _))
instance (symbol : String) : Consuming (expectOp symbol) := inferInstanceAs (Consuming (expect _))
instance (word : String) : Consuming (expectKeyword word) := inferInstanceAs (Consuming (expect _))

instance (symbol : String) : Consuming (nextIsOp symbol) := by
  unfold nextIsOp
  infer_instance

instance (word : String) : Consuming (nextIsKeyword word) := by
  unfold nextIsKeyword
  infer_instance

instance [hfirst : Consuming first] [hsecond : Consuming second] :
    Consuming (orElse first second) :=
  ⟨hfirst.consumes.orElse hsecond.consumes⟩

instance (step : σ → Reader (σ × Bool)) [hstep : ∀ state, Consuming (step state)] (state : σ) :
    Consuming (repeatStep step state) :=
  ⟨.repeatStep (fun _ state _ => (hstep state).consumes) trivial⟩

instance (item : Reader α) (closes : Token → Bool) [Consuming item] :
    Consuming (commaSeparated item closes) := by
  unfold commaSeparated
  infer_instance

/-- Where the parts of what comes next must be taken apart by hand. -/
theorem Consuming.bind [Consuming reader] (h : ∀ value, Consuming (next value)) :
    Consuming (reader >>= next) :=
  inferInstance

instance (word : String) : Consuming (nextIsName word) := by
  refine Consuming.bind fun token => ?_
  split <;> infer_instance

instance : Consuming expectName := by
  refine Consuming.bind fun token => ?_
  split <;> infer_instance

end Consuming

end TableAudit.Grammar
