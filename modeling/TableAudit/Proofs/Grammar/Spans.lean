import TableAudit.Proofs.Grammar.Extents
import TableAudit.Proofs.Grammar.Taking

namespace TableAudit

/-- The tokens of an extent begin and end with ones that have a text of their own. -/
structure Extent.Spans (whole : List Token) (extent : Extent) : Prop where
  ordered : extent.first < extent.last
  first : ∃ token, whole[extent.first]? = some token ∧ token.isLayout = false
  last : ∃ token, whole[extent.last - 1]? = some token ∧ token.isLayout = false

namespace Grammar

variable {α β : Type} {g : Rules} {whole : List Token} {first : Nat}

/-- Of a whole some tokens were read, from one position on and with texts of their own. -/
structure Input.Covers (whole : List Token) (first : Nat) (input : Input) : Prop where
  at_whole : input.At whole
  spans : Extent.Spans whole ⟨first, input.last⟩

/-- The last token with a text of its own is one of those that were taken, or was taken before. -/
theorem snd_foldl_counted_cases (used : List Token) (counts : Nat × Nat) :
    (used.foldl counted counts).2 = counts.2 ∨ ∃ (index : Nat) (token : Token),
      used[index]? = some token ∧ token.isLayout = false ∧
        (used.foldl counted counts).2 = counts.1 + index + 1 := by
  induction used generalizing counts with
  | nil => exact .inl rfl
  | cons token used ih =>
    rw [List.foldl_cons]
    rcases ih (counted counts token) with hlast | ⟨index, found, hfound, hlayout, hlast⟩
    · rw [hlast, counted]
      cases hlayout : token.isLayout with
      | true => exact .inl rfl
      | false => exact .inr ⟨0, token, rfl, hlayout, rfl⟩
    · refine .inr ⟨index + 1, found, hfound, hlayout, ?_⟩
      rw [hlast, counted]
      omega

section Moves

variable {input reached : Input} {used : List Token} {token : Token}

theorem Input.Moves.getElem?_eq (h : input.Moves reached used) (hat : input.At whole) {index : Nat}
    (hfound : used[index]? = some token) : whole[input.index + index]? = some token := by
  obtain ⟨hindex, -⟩ := List.getElem?_eq_some_iff.mp hfound
  rw [← List.getElem?_drop, hat.rest, h.rest, List.getElem?_append_left hindex, hfound]

/-- What was covered stays so, and the extent ends where the tokens do that were taken since. -/
theorem Input.Covers.moves (h : input.Covers whole first) (hmoves : input.Moves reached used) :
    reached.Covers whole first := by
  have hat := hmoves.at h.at_whole
  have hordered : first < input.last := h.spans.ordered
  have hle := h.at_whole.last_le
  have hcounts : reached.last = (used.foldl counted (input.index, input.last)).2 :=
    congrArg Prod.snd hmoves.counts
  rcases snd_foldl_counted_cases used (input.index, input.last) with
    hlast | ⟨index, token, htoken, hlayout, hlast⟩
  · rw [hlast] at hcounts
    exact ⟨hat, hcounts ▸ h.spans⟩
  · have hlast : reached.last = input.index + index + 1 := hcounts.trans hlast
    refine ⟨hat, ?_, h.spans.first, token, ?_, hlayout⟩
    · dsimp only
      omega
    · dsimp only
      rw [hlast, Nat.add_sub_cancel]
      exact hmoves.getElem?_eq h.at_whole htoken

/-- A token with a text of its own begins an extent. -/
theorem Input.Moves.covers (h : input.Moves reached (token :: used)) (hat : input.At whole)
    (htoken : token.isLayout = false) : reached.Covers whole input.index := by
  obtain ⟨htakeable, hothers⟩ := List.forall_mem_cons.mp h.takeable
  let middle : Input := ⟨used ++ reached.rest, input.index + 1, input.index + 1, input.probing⟩
  have hone : input.Moves middle [token] := by
    refine ⟨h.rest, ?_, List.forall_mem_singleton.mpr htakeable⟩
    rw [List.foldl_cons, counted, htoken]
    rfl
  have hrest : middle.Moves reached used := by
    refine ⟨rfl, ?_, hothers⟩
    have hcounts := h.counts
    rw [List.foldl_cons, counted, htoken] at hcounts
    exact hcounts
  have hsingle : [token][0]? = some token := rfl
  have hfirst : whole[input.index]? = some token := hone.getElem?_eq hat hsingle
  have hmiddle : middle.Covers whole input.index :=
    ⟨hone.at hat, Nat.lt_succ_self _, ⟨token, hfirst, htoken⟩, token, hfirst, htoken⟩
  exact hmiddle.moves hrest

end Moves

/-- A reader that begins where an extent does. -/
def Opens (whole : List Token) (first : Nat) (input : Input) : Prop :=
  input.At whole ∧ input.index = first

/-- A statement that takes up room of a whole, and what is left of that. -/
def Stands (whole : List Token) (s : Stmt) (reached : Input) : Prop :=
  reached.At whole ∧ s.extent.Spans whole

section Covers

variable {reader : Reader α} {next : α → Reader β} {after : β → Input → Prop} {input : Input}

theorem covers_plain [hreader : Consuming reader] :
    Meets (Input.Covers whole first) reader fun _ => Input.Covers whole first := by
  intro input value reached hcovers hread
  obtain ⟨used, hmoves, -⟩ := hreader.consumes input value reached trivial hread
  exact hcovers.moves hmoves

theorem covers_skip [Consuming reader]
    (h : ∀ value, Meets (Input.Covers whole first) (next value) after) :
    Meets (Input.Covers whole first) (reader >>= next) after :=
  covers_plain.bind h

theorem covers_abort : Meets (Input.Covers whole first) (unexpected >>= next) after := by
  have hnone : Meets (Input.Covers whole first) (unexpected : Reader α) fun _ _ => False :=
    Meets.unexpected
  exact hnone.bind fun _ _ _ _ h => h.elim

/-- A statement that ends here takes up what was covered. -/
theorem covers_extentFrom {make : Extent → Stmt} (hmake : ∀ extent, (make extent).extent = extent) :
    Meets (Input.Covers whole first) (do return make (← extentFrom first)) (Stands whole) := by
  intro input s reached hcovers hread
  cases hread
  refine ⟨hcovers.at_whole, ?_⟩
  rw [hmake]
  exact hcovers.spans

theorem covers_otherFrom : Meets (Input.Covers whole first) (otherFrom first) (Stands whole) :=
  covers_extentFrom fun _ => rfl

/-- The next token is seen. -/
theorem meets_peek {next : Token → Reader β}
    (h : Meets (· = input) (next (input.rest.headD .stop)) after) :
    Meets (· = input) (peek >>= next) after := by
  rintro _ result final rfl hread
  exact h _ result final rfl hread

/-- The next token is taken, which has a text of its own. -/
theorem covers_take {token : Token} {next : Token → Reader β} (hat : input.At whole)
    (hhead : input.rest.headD .stop = token) (htoken : token.isLayout = false)
    (h : ∀ token, Meets (Input.Covers whole input.index) (next token) after) :
    Meets (· = input) (take >>= next) after := by
  have htake : Meets (· = input) take fun _ => Input.Covers whole input.index := by
    intro _ value reached heq hread
    subst heq
    have hahead : Front [token] _ := ⟨hhead, trivial⟩
    obtain ⟨used, hmoves, rfl, -, -⟩ := Consumes.take_self _ value reached hahead hread
    exact hmoves.covers hat htoken
  exact htake.bind h

theorem isLayout_of_isKeyword {word : String} {token : Token} (h : token.isKeyword word = true) :
    token.isLayout = false := by
  rw [eq_of_isKeyword h]
  rfl

/-- A keyword that is taken begins an extent, and otherwise one begins still. -/
theorem opens_takeKeyword (word : String) : Meets (Opens whole first) (takeKeyword word)
    fun taken reached => if taken then reached.Covers whole first else Opens whole first reached := by
  rintro input taken reached ⟨hat, rfl⟩ hread
  obtain ⟨used, hmoves, hused⟩ := Consumes.takeIf _ taken reached trivial hread
  rcases hused with ⟨rfl, token, htest, rfl, -⟩ | ⟨rfl, rfl⟩
  · exact hmoves.covers hat (isLayout_of_isKeyword htest)
  · exact ⟨hmoves.at hat, hmoves.index_eq⟩

theorem opens_expectKeyword (word : String) : Meets (Opens whole first) (expectKeyword word)
    fun _ => Input.Covers whole first := by
  rintro input _ reached ⟨hat, rfl⟩ hread
  obtain ⟨_, hmoves, token, htest, rfl, -⟩ := Consumes.expect _ _ reached trivial hread
  exact hmoves.covers hat (isLayout_of_isKeyword htest)

end Covers

section Rules

-- the instance for the cases of a match has many parts
set_option synthInstance.maxSize 4096

variable [TakingRules g]

/-- The tokens of a value begin an extent. -/
theorem covers_assignedValue {input : Input} (hat : input.At whole) :
    Meets (· = input) (assignedValue g) fun _ => Input.Covers whole input.index := by
  have hspelling : Spelling g.named (assignedValue g) := inferInstance
  have htaking : Taking (assignedValue g) := inferInstance
  rintro _ value reached rfl hread
  obtain ⟨used, hmoves, hwritten⟩ := hspelling.consumes _ value reached trivial hread
  obtain ⟨taken, htaken, hsome⟩ := htaking.takes _ value reached trivial hread
  cases used with
  | nil =>
    have hlength := htaken.index_eq.symm.trans hmoves.index_eq
    rw [List.length_nil, Nat.add_left_cancel_iff, List.length_eq_zero_iff] at hlength
    exact absurd hlength hsome
  | cons token used =>
    exact hmoves.covers hat (hwritten.isLayout_eq_false token List.mem_cons_self)

theorem spans_assignment (target : Expr) :
    Meets (Input.Covers whole first) (assignment g first target) (Stands whole) :=
  covers_skip fun _ => covers_extentFrom fun _ => rfl

theorem spans_expressionStatement :
    States whole (expressionStatement g) fun s => s.extent.Spans whole := by
  unfold expressionStatement
  dsimp only
  refine Meets.position fun input hat => (covers_assignedValue hat).bind fun value => ?_
  refine covers_skip fun token => ?_
  split
  · exact spans_assignment value
  · split
    · exact covers_abort
    · refine covers_skip fun _ => covers_skip fun _ => covers_skip fun hasValue => ?_
      split
      · exact covers_skip fun _ => covers_otherFrom
      · exact covers_otherFrom
  · split
    · split
      · exact covers_abort
      · exact covers_skip fun _ => covers_skip fun _ => covers_otherFrom
    · exact covers_extentFrom fun _ => rfl
  · exact covers_extentFrom fun _ => rfl

theorem spans_simpleStatement :
    States whole (simpleStatement g) fun s => s.extent.Spans whole := by
  unfold simpleStatement
  dsimp only
  refine Meets.position fun input hat => meets_peek ?_
  generalize hhead : input.rest.headD .stop = token
  have hother {word : String} (hhead : input.rest.headD .stop = .keyword word) (body : Reader Unit)
      [Consuming body] : Meets (· = input) (do
        let _ ← take
        body
        otherFrom input.index) (Stands whole) :=
    covers_take hat hhead rfl fun _ => covers_skip fun _ => covers_otherFrom
  split
  · exact covers_take hat hhead rfl fun _ => covers_extentFrom fun _ => rfl
  · exact hother hhead _
  · exact hother hhead _
  · exact covers_take hat hhead rfl fun _ => covers_skip fun value => covers_extentFrom fun _ => rfl
  · exact hother hhead _
  · exact hother hhead _
  · exact hother hhead _
  · exact hother hhead _
  · exact hother hhead _
  · exact hother hhead _
  · exact hother hhead _
  · exact .of_weaker (fun _ heq => heq ▸ hat) spans_expressionStatement

theorem spans_functionDef (decorated : Nat) (decorators : List Expr) :
    Meets (Input.Covers whole first) (functionDef g decorated first decorators) (Stands whole) := by
  unfold functionDef
  dsimp only
  refine covers_skip fun id => covers_skip fun _ => covers_skip fun found => covers_skip fun _ =>
    covers_skip fun arrow => ?_
  split
  · exact covers_skip fun _ => covers_skip fun body => covers_extentFrom fun _ => rfl
  · exact covers_skip fun body => covers_extentFrom fun _ => rfl

theorem spans_classDef :
    Meets (Input.Covers whole first) (classDef g first) (Stands whole) := by
  unfold classDef
  dsimp only
  refine covers_skip fun id => covers_skip fun opens => ?_
  split
  · exact covers_skip fun _ => covers_skip fun body => covers_extentFrom fun _ => rfl
  · exact covers_skip fun body => covers_extentFrom fun _ => rfl

/-- A definition begins at its own keyword, after its decorators. -/
theorem spans_definition : States whole (definition g) fun s => s.extent.Spans whole := by
  unfold definition
  refine .skip fun decorated => .skip fun decorators => Meets.position fun input hat => ?_
  have hfunction : Meets (Opens whole input.index) (do
      expectKeyword "def"
      functionDef g decorated input.index decorators) (Stands whole) :=
    (opens_expectKeyword "def").bind fun _ => spans_functionDef decorated decorators
  have hasync : Meets (Opens whole input.index) (do
      let _ ← takeKeyword "async"
      expectKeyword "def"
      functionDef g decorated input.index decorators) (Stands whole) := by
    refine (opens_takeKeyword "async").bind fun taken => ?_
    cases taken with
    | true => exact covers_skip fun _ => spans_functionDef decorated decorators
    | false => exact hfunction
  have hopens : Meets (Opens whole input.index) (takeKeyword "class") _ := opens_takeKeyword "class"
  refine .of_weaker (fun _ heq => ⟨heq ▸ hat, heq ▸ rfl⟩) (hopens.bind fun isClass => ?_)
  cases isClass with
  | true => exact spans_classDef
  | false => exact hasync

/-- Statements that take up room of a whole, and what is left of that. -/
def AllStand (whole : List Token) (body : List Stmt) (reached : Input) : Prop :=
  reached.At whole ∧ ∀ s ∈ body, s.extent.Spans whole

theorem spans_statement :
    States whole (statement g) fun body => ∀ s ∈ body, s.extent.Spans whole := by
  unfold statement
  dsimp only
  refine Meets.position fun input hat => meets_peek ?_
  generalize hhead : input.rest.headD .stop = token
  have hone {before : Input → Prop} {reader : Reader Stmt} (h : Meets before reader (Stands whole)) :
      Meets before (do return [← reader]) (AllStand whole) :=
    h.bind fun s => .pure fun _ hs => ⟨hs.1, List.forall_mem_singleton.mpr hs.2⟩
  have hdefinition : Meets (· = input) (do return [← definition g]) (AllStand whole) :=
    hone (.of_weaker (fun _ heq => heq ▸ hat) spans_definition)
  have hclose : Meets (Input.Covers whole input.index) (do return [← otherFrom input.index])
      (AllStand whole) :=
    hone covers_otherFrom
  have hother {word : String} (hhead : input.rest.headD .stop = .keyword word) (body : Reader Unit)
      [Consuming body] : Meets (· = input) (do
        let _ ← take
        body
        return [← otherFrom input.index]) (AllStand whole) :=
    covers_take hat hhead rfl fun _ => covers_skip fun _ => hclose
  have hsimple : Meets (· = input) (simpleLine g) (AllStand whole) :=
    .of_weaker (fun _ heq => heq ▸ hat) spans_simpleStatement.simpleLine
  split
  · exact hother hhead _
  · exact hother hhead _
  · exact hother hhead _
  · exact hother hhead _
  · exact hother hhead _
  · exact hdefinition
  · exact hdefinition
  · exact hdefinition
  · refine Meets.look (fun _ => ⟨_, rfl⟩) fun second => ?_
    split
    · exact hdefinition
    · exact covers_take hat hhead rfl fun _ => covers_skip fun _ => covers_skip fun _ => hclose
    · exact covers_take hat hhead rfl fun _ => covers_skip fun _ => covers_skip fun _ => hclose
    · exact covers_take hat hhead rfl fun _ => .unexpected
  · refine Meets.orElse ?_ hsimple
    have hmatch : Meets (· = input) (matchStatement g) fun _ => Input.Covers whole input.index := by
      unfold matchStatement
      dsimp only
      exact covers_take hat hhead rfl fun _ => covers_plain
    exact hmatch.bind fun _ => hclose
  · exact hsimple

theorem spans_wholeBlock :
    States whole (wholeBlock g) fun body => ∀ s ∈ body, s.extent.Spans whole :=
  spans_statement.statements.wholeBlock

end Rules

end Grammar

end TableAudit
