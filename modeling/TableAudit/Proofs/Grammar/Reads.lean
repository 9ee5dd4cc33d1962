import TableAudit.Grammar.Text

namespace TableAudit.Grammar

variable {α β : Type}

/-- A reader takes the tokens before the rest, and what it gives has a property. -/
def Reads (reader : Reader α) (tokens rest : List Token) (post : α → Prop) : Prop :=
  ∀ index last, ∃ value reached final, post value ∧
    reader ⟨tokens ++ rest, index, last, false⟩ = .ok (value, ⟨rest, reached, final, false⟩)

/-- A token that can be taken. -/
def Takeable (token : Token) : Prop :=
  token ≠ .stop ∧ token ≠ .fault

theorem eq_of_isOp {symbol : String} {token : Token} (h : token.isOp symbol = true) :
    token = .op symbol := by
  cases token with
  | op other => rw [beq_iff_eq.mp h]
  | _ => cases h

theorem eq_of_isKeyword {word : String} {token : Token} (h : token.isKeyword word = true) :
    token = .keyword word := by
  cases token with
  | keyword other => rw [beq_iff_eq.mp h]
  | _ => cases h

namespace Reads

variable {reader : Reader α} {next : α → Reader β} {tokens more rest : List Token} {token : Token}
  {post : α → Prop} {last : β → Prop} {test : Token → Bool}

theorem bind (h : Reads reader tokens (more ++ rest) post)
    (hnext : ∀ value, post value → Reads (next value) more rest last) :
    Reads (reader >>= next) (tokens ++ more) rest last := by
  intro index before
  obtain ⟨value, reached, final, hvalue, hreads⟩ := h index before
  obtain ⟨result, stopped, ended, hresult, hrest⟩ := hnext value hvalue reached final
  refine ⟨result, stopped, ended, hresult, ?_⟩
  rw [List.append_assoc]
  change (reader _ >>= fun found => next found.1 found.2) = _
  rw [hreads]
  exact hrest

/-- What follows a reader may take nothing. -/
theorem bindLast (h : Reads reader tokens rest post)
    (hnext : ∀ value, post value → Reads (next value) [] rest last) :
    Reads (reader >>= next) tokens rest last := by
  have hbind : Reads (reader >>= next) (tokens ++ []) rest last := bind h hnext
  rwa [List.append_nil] at hbind

theorem ofTrue {test : Bool} {first second : Reader α} (htest : test = true)
    (h : Reads first tokens rest post) : Reads (if test then first else second) tokens rest post := by
  rwa [if_pos htest]

theorem ofFalse {test : Bool} {first second : Reader α} (htest : test = false)
    (h : Reads second tokens rest post) :
    Reads (if test then first else second) tokens rest post := by
  rwa [htest, if_neg Bool.false_ne_true]

theorem pure {value : α} (h : post value) : Reads (pure value) [] rest post :=
  fun index before => ⟨value, index, before, h, rfl⟩

/-- A reader that takes nothing leaves all to the next one. -/
theorem look (value : α) (h : Reads reader [] (tokens ++ rest) (· = value))
    (hnext : Reads (next value) tokens rest last) :
    Reads (reader >>= next) tokens rest last :=
  (bind h fun _ heq => heq ▸ hnext : Reads _ ([] ++ tokens) rest last)

theorem peek (next : Token → Reader β)
    (h : Reads (next ((tokens ++ rest).headD .stop)) tokens rest last) :
    Reads (peek >>= next) tokens rest last :=
  look _ (fun index before => ⟨_, index, before, rfl, rfl⟩) h

theorem peekSecond (next : Token → Reader β)
    (h : Reads (next ((tokens ++ rest).tail.headD .stop)) tokens rest last) :
    Reads (peekSecond >>= next) tokens rest last :=
  look _ (fun index before => ⟨_, index, before, rfl, rfl⟩) h

theorem nextIsOp (symbol : String) (next : Bool → Reader β)
    (h : Reads (next (((tokens ++ rest).headD .stop).isOp symbol)) tokens rest last) :
    Reads (nextIsOp symbol >>= next) tokens rest last :=
  look _ (fun index before => ⟨_, index, before, rfl, rfl⟩) h

theorem nextIsKeyword (word : String) (next : Bool → Reader β)
    (h : Reads (next (((tokens ++ rest).headD .stop).isKeyword word)) tokens rest last) :
    Reads (nextIsKeyword word >>= next) tokens rest last :=
  look _ (fun index before => ⟨_, index, before, rfl, rfl⟩) h

theorem isProbing (next : Bool → Reader β) (h : Reads (next false) tokens rest last) :
    Reads (isProbing >>= next) tokens rest last :=
  look _ (fun index before => ⟨_, index, before, rfl, rfl⟩) h

/-- A reader that takes nothing and can give any value. -/
theorem glance (h : Reads reader [] (tokens ++ rest) fun _ => True)
    (hnext : ∀ value, Reads (next value) tokens rest last) :
    Reads (reader >>= next) tokens rest last :=
  (bind h fun value _ => hnext value : Reads _ ([] ++ tokens) rest last)

theorem position (next : Nat → Reader β) (h : ∀ index, Reads (next index) tokens rest last) :
    Reads (position >>= next) tokens rest last :=
  glance (fun index before => ⟨_, index, before, trivial, rfl⟩) h

theorem lastText (next : Nat → Reader β) (h : ∀ index, Reads (next index) tokens rest last) :
    Reads (lastText >>= next) tokens rest last :=
  glance (fun index before => ⟨_, index, before, trivial, rfl⟩) h

theorem take_self (h : Takeable token) : Reads Grammar.take [token] rest (· = token) := by
  intro index before
  obtain ⟨hstop, hfault⟩ := h
  refine ⟨token, index + 1, if token.isLayout then before else index + 1, rfl, ?_⟩
  cases token <;> first | rfl | contradiction

theorem take (hne : Takeable token) (next : Token → Reader β)
    (h : Reads (next token) tokens rest last) :
    Reads (Grammar.take >>= next) (token :: tokens) rest last :=
  (bind (take_self hne) fun _ heq => heq ▸ h : Reads _ ([token] ++ tokens) rest last)

theorem takeIf_self (hne : Takeable token) (htest : test token = true) :
    Reads (Grammar.takeIf test) [token] rest (· = true) :=
  peek _ (ofTrue htest (take hne _ (pure rfl)))

theorem takeIf_none (htest : test (rest.headD .stop) = false) :
    Reads (Grammar.takeIf test) [] rest (· = false) :=
  peek _ (ofFalse htest (pure rfl))

/-- A test that the next token passes takes it. -/
theorem takeIf (hne : Takeable token) (htest : test token = true) (next : Bool → Reader β)
    (h : Reads (next true) tokens rest last) :
    Reads (Grammar.takeIf test >>= next) (token :: tokens) rest last :=
  (bind (takeIf_self hne htest) fun _ heq => heq ▸ h : Reads _ ([token] ++ tokens) rest last)

/-- A test that the next token does not pass takes nothing. -/
theorem skipIf (htest : test ((tokens ++ rest).headD .stop) = false) (next : Bool → Reader β)
    (h : Reads (next false) tokens rest last) :
    Reads (Grammar.takeIf test >>= next) tokens rest last :=
  look _ (takeIf_none htest) h

theorem expect_self (hne : Takeable token) (htest : test token = true) :
    Reads (Grammar.expect test) [token] rest (· = ()) :=
  takeIf hne htest _ (pure rfl)

theorem expect (hne : Takeable token) (htest : test token = true) (next : Unit → Reader β)
    (h : Reads (next ()) tokens rest last) :
    Reads (Grammar.expect test >>= next) (token :: tokens) rest last :=
  (bind (expect_self hne htest) fun _ _ => h : Reads _ ([token] ++ tokens) rest last)

end Reads

/-- A loop with enough rounds for the tokens takes them. -/
def Repeats (step : α → Reader (α × Bool)) (state : α) (tokens rest : List Token)
    (post : α → Prop) : Prop :=
  ∀ fuel, tokens.length < fuel → Reads (loop step fuel state) tokens rest post

namespace Repeats

variable {step : α → Reader (α × Bool)} {state : α} {tokens more rest : List Token}
  {post : α → Prop}

/-- A step that does not go on ends the loop. -/
theorem ends (h : Reads (step state) tokens rest fun found => post found.1 ∧ found.2 = false) :
    Repeats step state tokens rest post := by
  intro fuel hfuel
  obtain ⟨fuel, rfl⟩ := Nat.exists_eq_add_of_lt hfuel
  rw [show tokens.length + fuel + 1 = (tokens.length + fuel) + 1 from rfl, loop]
  refine Reads.bindLast h ?_
  rintro ⟨found, goesOn⟩ ⟨hfound, rfl⟩
  exact Reads.pure hfound

/-- A step that goes on has taken a token, and the loop goes on. -/
theorem goes (middle : α → Prop) (h : Reads (step state) tokens (more ++ rest) fun found =>
      middle found.1 ∧ found.2 = true) (hne : tokens ≠ [])
    (hrest : ∀ found, middle found → Repeats step found more rest post) :
    Repeats step state (tokens ++ more) rest post := by
  intro fuel hfuel
  rw [List.length_append] at hfuel
  have hpos := List.length_pos_iff.mpr hne
  obtain ⟨fuel, rfl⟩ : ∃ n, fuel = n + 1 := ⟨fuel - 1, by omega⟩
  rw [loop]
  refine Reads.bind h ?_
  rintro ⟨found, goesOn⟩ ⟨hfound, rfl⟩
  exact hrest found hfound fuel (by omega)

/-- A step that goes on may be the only one. -/
theorem alone (middle : α → Prop)
    (h : Reads (step state) tokens rest fun found => middle found.1 ∧ found.2 = true)
    (hne : tokens ≠ [])
    (hrest : ∀ found, middle found →
      Reads (step found) [] rest fun ended => post ended.1 ∧ ended.2 = false) :
    Repeats step state tokens rest post := by
  have hgoes : Repeats step state (tokens ++ []) rest post :=
    goes middle h hne fun found hfound => ends (hrest found hfound)
  rwa [List.append_nil] at hgoes

theorem repeatStep (h : Repeats step state tokens rest post) :
    Reads (repeatStep step state) tokens rest post := by
  intro index before
  have hlength : tokens.length < (tokens ++ rest).length + 1 := by
    rw [List.length_append]
    omega
  exact h _ hlength index before

end Repeats

/-- A whole text is read if its tokens are. -/
theorem readTextAt_eq_ok_iff {α : Type} {named : String → Option Char} {depth : Nat}
    {text : List Char} {reader : Rules → Reader α} {answer : α} {scan : Scan} :
    readTextAt named depth text reader = .ok (answer, scan) ↔
      scan = Token.scan text ∧
        ∃ ended, reader (rules named depth) ⟨scan.tokens, 0, 0, false⟩ = .ok (answer, ended) := by
  unfold readTextAt
  dsimp only
  constructor
  · intro h
    split at h
    · next found ended hrun =>
      cases h
      exact ⟨rfl, ended, hrun⟩
    · cases h
  · rintro ⟨rfl, ended, hrun⟩
    rw [hrun]

end TableAudit.Grammar
