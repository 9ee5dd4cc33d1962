import TableAudit.Grammar.Text

namespace TableAudit.Grammar

variable {α β γ δ σ τ : Type}

/-- A token at which blocks begin or end. No expression begins or goes on with one. -/
def isEdge : Token → Bool
  | .indent | .dedent | .stop => true
  | _ => false

/-- A token at which the statements of a block end. -/
def endsBlock : Token → Bool
  | .dedent | .stop => true
  | _ => false

theorem isEdge_of_endsBlock {token : Token} (h : endsBlock token = true) : isEdge token = true := by
  cases token <;> first | rfl | cases h

/-- As many blocks end among tokens as begin. -/
def Balanced (tokens : List Token) : Prop :=
  tokens.countP isIndent = tokens.countP isDedent

/-- From each token on, no more blocks begin than end. -/
def Closes : List Token → Prop
  | [] => True
  | token :: rest =>
    (token :: rest).countP isIndent ≤ (token :: rest).countP isDedent ∧ Closes rest

theorem Closes.of_append {tokens more : List Token} (h : Closes (tokens ++ more)) : Closes more := by
  induction tokens with
  | nil => exact h
  | cons token tokens ih => exact ih h.2

theorem Balanced.append {tokens more : List Token} (h : Balanced tokens) (hmore : Balanced more) :
    Balanced (tokens ++ more) := by
  unfold Balanced at *
  rw [List.countP_append, List.countP_append, h, hmore]

/-- What is known of the tokens that a reader takes. It holds of any tokens without edges. -/
structure Shape where
  holds : List Token → Prop
  nil : holds []
  append : ∀ {tokens more}, holds tokens → holds more → holds (tokens ++ more)
  single : ∀ {token}, isEdge token = false → holds [token]

def Shape.balanced : Shape where
  holds := Balanced
  nil := rfl
  append := .append
  single {token} h := by cases token <;> first | rfl | cases h

/-- The shape of tokens among which no block begins or ends. -/
def Shape.flat : Shape where
  holds tokens := ∀ token ∈ tokens, isEdge token = false
  nil := List.forall_mem_nil _
  append h hmore := List.forall_mem_append.mpr ⟨h, hmore⟩
  single h := List.forall_mem_singleton.mpr h

/-- A longer sequence around a piece of tokens: how many are before it, how many it has, and those
    after it, of which the first ends the piece; and the shape of what is taken from the piece. -/
structure Setting where
  before : Nat
  size : Nat
  after : List Token
  ends : endsBlock (after.headD .stop) = true
  second : (after.tail.headD .stop).isOp ":=" = false
  shape : Shape

theorem Setting.first (set : Setting) : isEdge (set.after.headD .stop) = true :=
  isEdge_of_endsBlock set.ends

/-- One place in a piece, where it stands by itself and where it stands in a setting, with the
    tokens of the piece that are left. -/
structure Setting.Meets (set : Setting) (left : List Token) (inner outer : Input) : Prop where
  innerRest : inner.rest = left
  outerRest : outer.rest = left ++ set.after
  innerIndex : inner.index + left.length = set.size
  outerIndex : outer.index = set.before + inner.index
  innerProbing : inner.probing = false
  outerProbing : outer.probing = false
  closes : Closes left

/-- A token of the piece can be taken in both places. -/
theorem Setting.Meets.take {set : Setting} {token : Token} {more : List Token} {inner outer : Input}
    (h : set.Meets (token :: more) inner outer) (hstop : token ≠ .stop) (hfault : token ≠ .fault) :
    ∃ inner' outer', Grammar.take inner = .ok (token, inner') ∧
      Grammar.take outer = .ok (token, outer') ∧ set.Meets more inner' outer' := by
  obtain ⟨rest, index, last, probing⟩ := inner
  obtain ⟨rest', index', last', probing'⟩ := outer
  obtain rfl : rest = token :: more := h.innerRest
  obtain rfl : rest' = token :: more ++ set.after := h.outerRest
  obtain rfl : probing = false := h.innerProbing
  obtain rfl : probing' = false := h.outerProbing
  have hinner : index + (more.length + 1) = set.size := h.innerIndex
  have houter : index' = set.before + index := h.outerIndex
  have hmeets (one other : Nat) : set.Meets more ⟨more, index + 1, one, false⟩
      ⟨more ++ set.after, index' + 1, other, false⟩ :=
    ⟨rfl, rfl, by change index + 1 + more.length = _; omega,
      by change index' + 1 = _ + (index + 1); omega, rfl, rfl, h.closes.2⟩
  cases token <;> first | exact ⟨_, _, rfl, rfl, hmeets _ _⟩ | exact absurd rfl hfault | exact absurd rfl hstop

/-- What two runs come to: both take the same tokens of a piece, or both fail. -/
inductive Outcome (set : Setting) (tokens : List Token) (post : List Token → α → β → Prop) :
    Except Failure (α × Input) → Except Failure (β × Input) → Prop
  | reads {used left : List Token} {a : α} {b : β} {inner outer : Input}
      (htokens : tokens = used ++ left) (hused : set.shape.holds used)
      (hmeets : set.Meets left inner outer) (hpost : post left a b) :
      Outcome set tokens post (.ok (a, inner)) (.ok (b, outer))
  | fails {first second : Failure} (hfault : first.atFault = second.atFault)
      (hjudged : first.judged = second.judged) :
      Outcome set tokens post (.error first) (.error second)

/-- Two readers, of which the first reads a piece by itself and the second in a setting. -/
def Parallel (set : Setting) (tokens : List Token) (first : Reader α) (second : Reader β)
    (post : List Token → α → β → Prop) : Prop :=
  ∀ inner outer, set.Meets tokens inner outer →
    Outcome set tokens post (first inner) (second outer)

namespace Parallel

variable {set : Setting} {tokens : List Token} {token : Token} {first : Reader α}
  {second : Reader β} {post : List Token → α → β → Prop} {last : List Token → γ → δ → Prop}
  {next : α → Reader γ} {next' : β → Reader δ}

theorem bind (h : Parallel set tokens first second post)
    (hnext : ∀ left a b, left.length ≤ tokens.length → post left a b →
      Parallel set left (next a) (next' b) last) :
    Parallel set tokens (first >>= next) (second >>= next') last := by
  intro inner outer hmeets
  change Outcome set tokens last (first inner >>= fun found => next found.1 found.2)
    (second outer >>= fun found => next' found.1 found.2)
  have hfirst := h inner outer hmeets
  revert hfirst
  generalize first inner = one
  generalize second outer = other
  rintro (@⟨used, left, a, b, reached, reached', htokens, hused, hmeets, hpost⟩ | ⟨hfault, hjudged⟩)
  · have hlength : left.length ≤ tokens.length := by
      rw [htokens, List.length_append]
      omega
    have hrest := hnext left a b hlength hpost reached reached' hmeets
    change Outcome set tokens last (next a reached) (next' b reached')
    revert hrest
    generalize next a reached = one
    generalize next' b reached' = other
    rintro (⟨hleft, hmore, hmeets, hpost⟩ | ⟨hfault, hjudged⟩)
    · rw [hleft, ← List.append_assoc] at htokens
      exact .reads htokens (set.shape.append hused hmore) hmeets hpost
    · exact .fails hfault hjudged
  · exact .fails hfault hjudged

theorem mono (h : Parallel set tokens first second post) {weaker : List Token → α → β → Prop}
    (hweaker : ∀ left a b, left.length ≤ tokens.length → post left a b → weaker left a b) :
    Parallel set tokens first second weaker := by
  intro inner outer hmeets
  have hruns := h inner outer hmeets
  revert hruns
  generalize first inner = one
  generalize second outer = other
  rintro (⟨htokens, hused, hmeets, hpost⟩ | ⟨hfault, hjudged⟩)
  · refine .reads htokens hused hmeets (hweaker _ _ _ ?_ hpost)
    rw [htokens, List.length_append]
    omega
  · exact .fails hfault hjudged

theorem pure {a : α} {b : β} (h : post tokens a b) :
    Parallel set tokens (pure a) (pure b) post :=
  fun _ _ hmeets => .reads (List.nil_append tokens).symm set.shape.nil hmeets h

/-- A setting begins, after the piece, with no fault of the scan. -/
theorem atFault_eq {inner outer : Input} (h : set.Meets tokens inner outer) :
    atFault inner = atFault outer := by
  unfold atFault
  rw [h.innerRest, h.outerRest]
  cases tokens with
  | cons token rest => cases token <;> rfl
  | nil =>
    have hfirst := set.first
    cases hafter : set.after with
    | nil => rfl
    | cons token rest =>
      rw [hafter] at hfirst
      cases token <;> first | rfl | cases hfirst

theorem unexpected : Parallel set tokens (unexpected : Reader α) (unexpected : Reader β) post :=
  fun _ _ hmeets => .fails (atFault_eq hmeets) rfl

/-- Nothing follows where a token fits nothing. -/
theorem unexpected_bind : Parallel set tokens (Grammar.unexpected >>= next)
    (Grammar.unexpected >>= next') last :=
  fun _ _ hmeets => .fails (atFault_eq hmeets) rfl

theorem reject : Parallel set tokens (reject : Reader α) (reject : Reader β) post :=
  fun _ _ hmeets => .fails (atFault_eq hmeets) rfl

/-- A look at the next token: one of the piece, or else the end and what the setting has there. -/
theorem peek {next : Token → Reader γ} {next' : Token → Reader δ}
    (hnext : ∀ token more, tokens = token :: more →
      Parallel set tokens (next token) (next' token) last)
    (hend : tokens = [] →
      Parallel set tokens (next .stop) (next' (set.after.headD .stop)) last) :
    Parallel set tokens (peek >>= next) (peek >>= next') last := by
  intro inner outer hmeets
  change Outcome set tokens last (next (inner.rest.headD .stop) inner)
    (next' (outer.rest.headD .stop) outer)
  rw [hmeets.innerRest, hmeets.outerRest]
  cases tokens with
  | nil => exact hend rfl inner outer hmeets
  | cons token more => exact hnext token more rfl inner outer hmeets

/-- A look at the token after the next one. -/
theorem peekSecond {next : Token → Reader γ} {next' : Token → Reader δ}
    (hnext : Parallel set tokens (next (tokens.tail.headD .stop))
      (next' ((tokens ++ set.after).tail.headD .stop)) last) :
    Parallel set tokens (peekSecond >>= next) (peekSecond >>= next') last := by
  intro inner outer hmeets
  change Outcome set tokens last (next (inner.rest.tail.headD .stop) inner)
    (next' (outer.rest.tail.headD .stop) outer)
  rw [hmeets.innerRest, hmeets.outerRest]
  exact hnext inner outer hmeets

/-- What a reader of a position gives is shifted by the tokens before the piece. -/
theorem position {next : Nat → Reader γ} {next' : Nat → Reader δ}
    (hnext : ∀ index, index + tokens.length = set.size →
      Parallel set tokens (next index) (next' (set.before + index)) last) :
    Parallel set tokens (position >>= next) (position >>= next') last := by
  intro inner outer hmeets
  change Outcome set tokens last (next inner.index inner) (next' outer.index outer)
  rw [hmeets.outerIndex]
  exact hnext inner.index hmeets.innerIndex inner outer hmeets

theorem lastText {next : Nat → Reader γ} {next' : Nat → Reader δ}
    (hnext : ∀ index index', Parallel set tokens (next index) (next' index') last) :
    Parallel set tokens (lastText >>= next) (lastText >>= next') last :=
  fun inner outer hmeets => hnext inner.last outer.last inner outer hmeets

theorem isProbing {next : Bool → Reader γ} {next' : Bool → Reader δ}
    (hnext : Parallel set tokens (next false) (next' false) last) :
    Parallel set tokens (isProbing >>= next) (isProbing >>= next') last := by
  intro inner outer hmeets
  change Outcome set tokens last (next inner.probing inner) (next' outer.probing outer)
  rw [hmeets.innerProbing, hmeets.outerProbing]
  exact hnext inner outer hmeets

/-- The tokens that are left bound the rounds of a loop; there may be more in the setting. -/
theorem remaining {next : Nat → Reader γ} {next' : Nat → Reader δ}
    (hnext : ∀ extra, Parallel set tokens (next tokens.length) (next' (tokens.length + extra)) last) :
    Parallel set tokens (remaining >>= next) (remaining >>= next') last := by
  intro inner outer hmeets
  change Outcome set tokens last (next inner.rest.length inner) (next' outer.rest.length outer)
  rw [hmeets.innerRest, hmeets.outerRest, List.length_append]
  exact hnext set.after.length inner outer hmeets

/-- A token that is no edge can be taken. -/
theorem take_self {more : List Token} (hedge : isEdge token = false) (hfault : token ≠ .fault) :
    Parallel set (token :: more) take take fun left a b => left = more ∧ a = token ∧ b = token := by
  intro inner outer hmeets
  have hstop : token ≠ .stop := by
    rintro rfl
    cases hedge
  obtain ⟨inner', outer', hinner, houter, hmeets'⟩ := hmeets.take hstop hfault
  rw [hinner, houter]
  exact .reads (List.singleton_append).symm (set.shape.single hedge) hmeets' ⟨rfl, rfl, rfl⟩

/-- A fault of the scan is never taken. -/
theorem take_fault {more : List Token} :
    Parallel set (.fault :: more) take take fun left a b => a = b ∧ left = more := by
  intro inner outer hmeets
  obtain ⟨rest, index, last, probing⟩ := inner
  obtain ⟨rest', index', last', probing'⟩ := outer
  obtain rfl : rest = .fault :: more := hmeets.innerRest
  obtain rfl : rest' = .fault :: more ++ set.after := hmeets.outerRest
  exact .fails rfl rfl

theorem takeIf {test : Token → Bool} (htest : ∀ token, isEdge token = true → test token = false) :
    Parallel set tokens (takeIf test) (takeIf test) fun left a b =>
      a = b ∧ (a = true → left.length < tokens.length) := by
  refine peek (fun token more heq => ?_) fun heq => ?_
  · subst heq
    split
    · next hpass =>
      have htake : Parallel set (token :: more) take take fun left a b => a = b ∧ left = more := by
        by_cases hfault : token = .fault
        · subst hfault
          exact take_fault
        · have hedge : isEdge token = false := by
            cases hedge : isEdge token with
            | false => rfl
            | true =>
              rw [htest token hedge] at hpass
              cases hpass
          refine (take_self hedge hfault).mono fun left a b _ h => ?_
          exact ⟨h.2.1.trans h.2.2.symm, h.1⟩
      refine bind htake fun left a b _ h => pure ⟨rfl, fun _ => ?_⟩
      rw [h.2, List.length_cons]
      exact Nat.lt_succ_self _
    · exact pure ⟨rfl, fun h => Bool.noConfusion h⟩
  · rw [htest .stop rfl, htest _ set.first]
    exact pure ⟨rfl, fun h => Bool.noConfusion h⟩

theorem orElse {first' : Reader α} {second' : Reader β}
    (h : Parallel set tokens first second post) (h' : Parallel set tokens first' second' post) :
    Parallel set tokens (orElse first first') (orElse second second') post := by
  intro inner outer hmeets
  have hruns := h inner outer hmeets
  unfold Grammar.orElse
  revert hruns
  generalize first inner = one
  generalize second outer = other
  rintro (⟨htokens, hused, hmeets, hpost⟩ | ⟨hfault, hjudged⟩)
  · exact .reads htokens hused hmeets hpost
  · dsimp only
    rw [← hfault, ← hjudged]
    split
    · exact .fails hfault hjudged
    · exact h' inner outer hmeets

/-- Loops with rounds enough for the tokens that are left, of which each round takes one. -/
theorem loop {step : σ → Reader (σ × Bool)} {step' : τ → Reader (τ × Bool)}
    {inv : List Token → σ → τ → Prop}
    (hstep : ∀ tokens a b, inv tokens a b → Parallel set tokens (step a) (step' b) fun left x y =>
      inv left x.1 y.1 ∧ x.2 = y.2 ∧ (x.2 = true → left.length < tokens.length))
    {fuel fuel' : Nat} {a : σ} {b : τ} (hfuel : tokens.length < fuel) (hfuel' : tokens.length < fuel')
    (h : inv tokens a b) : Parallel set tokens (loop step fuel a) (loop step' fuel' b) inv := by
  induction fuel generalizing fuel' tokens a b with
  | zero => exact absurd hfuel (Nat.not_lt_zero _)
  | succ fuel ih =>
    obtain ⟨fuel', rfl⟩ : ∃ n, fuel' = n + 1 := ⟨fuel' - 1, by omega⟩
    rw [Grammar.loop, Grammar.loop]
    refine bind (hstep tokens a b h) ?_
    rintro left ⟨x, goesOn⟩ ⟨y, goesOn'⟩ hlength ⟨hinv, rfl, hless⟩
    cases goesOn with
    | false => exact pure hinv
    | true =>
      have hshorter := hless rfl
      exact ih (by omega) (by omega) hinv

theorem repeatStep {step : σ → Reader (σ × Bool)} {step' : τ → Reader (τ × Bool)}
    {inv : List Token → σ → τ → Prop}
    (hstep : ∀ tokens a b, inv tokens a b → Parallel set tokens (step a) (step' b) fun left x y =>
      inv left x.1 y.1 ∧ x.2 = y.2 ∧ (x.2 = true → left.length < tokens.length))
    {a : σ} {b : τ} (h : inv tokens a b) :
    Parallel set tokens (repeatStep step a) (repeatStep step' b) inv :=
  remaining fun _ => loop hstep (by omega) (by omega) h

end Parallel

end TableAudit.Grammar
