import TableAudit.Proofs.Grammar.Blocks

namespace TableAudit.Grammar

variable {α β : Type} {g : Rules}

/-- What two readers in a row give, each of them gave a part of. -/
theorem bind_eq_ok {first : Reader α} {next : α → Reader β} {input reached : Input} {b : β}
    (h : (first >>= next) input = .ok (b, reached)) :
    ∃ a middle, first input = .ok (a, middle) ∧ next a middle = .ok (b, reached) := by
  change (first input >>= fun found => next found.1 found.2) = _ at h
  cases hfirst : first input with
  | error failure =>
    rw [hfirst] at h
    cases h
  | ok found =>
    rw [hfirst] at h
    exact ⟨found.1, found.2, rfl, h⟩

theorem pure_eq_ok {a b : α} {input reached : Input}
    (h : (pure a : Reader α) input = .ok (b, reached)) : a = b ∧ input = reached := by
  cases h
  exact ⟨rfl, rfl⟩

/-- Whatever a reader gives has a property. -/
def Always (post : α → Prop) (reader : Reader α) : Prop :=
  ∀ input reached a, reader input = .ok (a, reached) → post a

theorem Always.bind {post : β → Prop} {first : Reader α} {next : α → Reader β}
    (h : ∀ a, Always post (next a)) : Always post (first >>= next) := by
  intro input reached b hrun
  obtain ⟨a, middle, -, hnext⟩ := bind_eq_ok hrun
  exact h a middle reached b hnext

theorem Always.pure {post : α → Prop} {a : α} (h : post a) : Always post (pure a) := by
  intro input reached b hrun
  obtain ⟨rfl, -⟩ := pure_eq_ok hrun
  exact h

theorem orElse_eq_ok {first second : Reader α} {input reached : Input} {a : α}
    (h : orElse first second input = .ok (a, reached)) :
    first input = .ok (a, reached) ∨ second input = .ok (a, reached) := by
  unfold orElse at h
  cases hfirst : first input with
  | ok found =>
    rw [hfirst] at h
    exact .inl h
  | error failure =>
    rw [hfirst] at h
    dsimp only at h
    split at h
    · cases h
    · exact .inr h

/-- All tokens of a text, with its end after them, among which the readers take no edges. -/
def Setting.whole (tokens : List Token) (shape : Shape) : Setting :=
  ⟨0, tokens.length, [.stop], rfl, rfl, shape⟩

/-- A place in a whole text. -/
def inputAt (left : List Token) (index last : Nat) : Input :=
  ⟨left ++ [.stop], index, last, false⟩

section Whole

variable {text left : List Token} {index last : Nat} {reached : Input} {shape : Shape}

theorem Setting.whole_meets (hindex : index + left.length = text.length) (hcloses : Closes left) :
    (Setting.whole text shape).Meets left ⟨left, index, last, false⟩ (inputAt left index last) :=
  ⟨rfl, rfl, hindex, (Nat.zero_add index).symm, rfl, rfl, hcloses⟩

/-- What a reader takes of a whole text that gives the same in every setting. -/
theorem Parallel.whole {first second : Reader α} {post : List Token → α → α → Prop} {b : α}
    (h : Parallel (Setting.whole text shape) left first second post)
    (hindex : index + left.length = text.length) (hcloses : Closes left)
    (hrun : second (inputAt left index last) = .ok (b, reached)) :
    ∃ a used more final, left = used ++ more ∧ shape.holds used ∧ post more a b ∧
      reached = inputAt more (index + used.length) final := by
  have hmeets : (Setting.whole text shape).Meets left ⟨left, index, last, false⟩
      (inputAt left index last) := Setting.whole_meets hindex hcloses
  have hruns := h _ _ hmeets
  rw [hrun] at hruns
  generalize first _ = one at hruns
  rcases hruns with (@⟨used, more, a, _, inner, _, rfl, hused, hended, hpost⟩ | _)
  obtain ⟨rest, index', last', probing⟩ := reached
  obtain rfl : rest = more ++ [.stop] := hended.outerRest
  obtain rfl : probing = false := hended.outerProbing
  have hinner : inner.index + more.length = text.length := hended.innerIndex
  have houter : index' = 0 + inner.index := hended.outerIndex
  obtain rfl : index' = index + used.length := by
    rw [List.length_append] at hindex
    omega
  exact ⟨a, used, more, last', rfl, hused, hpost, rfl⟩

end Whole

theorem takeIf_eq_ok {test : Token → Bool} {input reached : Input} {answer : Bool}
    (h : takeIf test input = .ok (answer, reached)) :
    (answer = false ∧ reached = input ∧ test (input.rest.headD .stop) = false) ∨
      ∃ token rest last, answer = true ∧ input.rest = token :: rest ∧ test token = true ∧
        reached = ⟨rest, input.index + 1, last, input.probing⟩ := by
  obtain ⟨token, _, hpeek, h⟩ := bind_eq_ok h
  cases hpeek
  by_cases htest : test (input.rest.headD .stop) = true
  · rw [if_pos htest] at h
    obtain ⟨taken, middle, htake, h⟩ := bind_eq_ok h
    obtain ⟨rfl, rfl⟩ := pure_eq_ok h
    obtain ⟨rest, index, final, probing⟩ := input
    rcases rest with _ | ⟨token, rest⟩
    · cases htake
    · refine .inr ⟨token, rest, middle.last, rfl, rfl, htest, ?_⟩
      cases token <;> cases htake <;> rfl
  · rw [if_neg htest] at h
    obtain ⟨rfl, rfl⟩ := pure_eq_ok h
    exact .inl ⟨rfl, rfl, Bool.not_eq_true _ ▸ htest⟩

theorem takeIf_true {test : Token → Bool} (hstop : test .stop = false) {left : List Token}
    {index last : Nat} {reached : Input}
    (h : takeIf test (inputAt left index last) = .ok (true, reached)) :
    ∃ token more final, left = token :: more ∧ test token = true ∧
      reached = inputAt more (index + 1) final := by
  rcases takeIf_eq_ok h with ⟨hanswer, -⟩ | ⟨token, rest, final, -, hrest, htest, rfl⟩
  · cases hanswer
  · change left ++ [.stop] = token :: rest at hrest
    rcases left with _ | ⟨first, more⟩
    · obtain ⟨rfl, -⟩ := List.cons.inj hrest
      rw [hstop] at htest
      cases htest
    · obtain ⟨rfl, rfl⟩ := List.cons.inj hrest
      exact ⟨first, more, final, rfl, htest, rfl⟩

theorem expect_eq_ok {test : Token → Bool} {input reached : Input}
    (h : expect test input = .ok ((), reached)) : takeIf test input = .ok (true, reached) := by
  obtain ⟨answer, middle, htakeIf, h⟩ := bind_eq_ok h
  cases answer with
  | false => cases h
  | true =>
    obtain ⟨-, rfl⟩ := pure_eq_ok h
    exact htakeIf

def NoFunctions (body : List Stmt) : Prop :=
  ∀ s ∈ body, s.isFunction = false

theorem always_otherFrom (first : Nat) : Always NoFunctions (do return [← otherFrom first]) := by
  have hother : Always (fun s => s.isFunction = false) (otherFrom first) := .bind fun _ => .pure rfl
  intro input reached body hrun
  obtain ⟨s, middle, hs, hbody⟩ := bind_eq_ok hrun
  obtain ⟨rfl, -⟩ := pure_eq_ok hbody
  exact List.forall_mem_singleton.mpr (hother _ _ _ hs)

section Heads

variable {text : List Token} {index last : Nat} {reached : Input} {left : List Token}

theorem noFunctions_of_simpleLine [SteadyRules (Setting.whole text .flat) g]
    (hindex : index + left.length = text.length) (hcloses : Closes left) {body : List Stmt}
    (hrun : simpleLine g (inputAt left index last) = .ok (body, reached)) : NoFunctions body := by
  have hline : Parallel (Setting.whole text .flat) left (simpleLine g) (simpleLine g) _ :=
    parallel_simpleLine
  obtain ⟨_, _, _, _, _, _, hpost, _⟩ := hline.whole hindex hcloses hrun
  exact hpost.1.simple

/-- A function among the statements that are read comes from a definition. -/
theorem definition_of_statement [SteadyRules (Setting.whole text .flat) g] (hcloses : Closes text)
    {s : Stmt} {body : List Stmt} (hfunction : s.isFunction = true) (hmem : s ∈ body)
    (hrun : statement g (inputAt text 0 0) = .ok (body, reached)) :
    definition g (inputAt text 0 0) = .ok (s, reached) := by
  have hsimple (hline : simpleLine g (inputAt text 0 0) = .ok (body, reached)) :
      definition g (inputAt text 0 0) = .ok (s, reached) := by
    have hnone := noFunctions_of_simpleLine (Nat.zero_add _) hcloses hline s hmem
    rw [hfunction] at hnone
    cases hnone
  have hnever {reader : Reader (List Stmt)} (h : Always NoFunctions reader)
      (hread : reader (inputAt text 0 0) = .ok (body, reached)) :
      definition g (inputAt text 0 0) = .ok (s, reached) := by
    have hnone := h _ _ _ hread s hmem
    rw [hfunction] at hnone
    cases hnone
  have hdefinition (hread : (do return [← definition g] : Reader (List Stmt)) (inputAt text 0 0) =
      .ok (body, reached)) : definition g (inputAt text 0 0) = .ok (s, reached) := by
    obtain ⟨found, middle, hfound, hbody⟩ := bind_eq_ok hread
    obtain ⟨rfl, rfl⟩ := pure_eq_ok hbody
    rw [List.mem_singleton.mp hmem]
    exact hfound
  unfold statement at hrun
  obtain ⟨_, _, hposition, hrun⟩ := bind_eq_ok hrun
  cases hposition
  obtain ⟨_, _, hpeek, hrun⟩ := bind_eq_ok hrun
  cases hpeek
  dsimp only at hrun
  generalize (inputAt text 0 0).rest.headD .stop = token at hrun
  have hother (body : Reader Unit) : Always NoFunctions (do
      let _ ← take
      body
      return [← otherFrom (inputAt text 0 0).index]) :=
    .bind fun _ => .bind fun _ => always_otherFrom _
  split at hrun
  case h_9 =>
    obtain ⟨_, _, hpeek, hrun⟩ := bind_eq_ok hrun
    cases hpeek
    generalize (inputAt text 0 0).rest.tail.headD .stop = second at hrun
    split at hrun
    · exact hdefinition hrun
    · exact hnever (.bind fun _ => hother _) hrun
    · exact hnever (.bind fun _ => hother _) hrun
    · obtain ⟨_, _, _, hfails⟩ := bind_eq_ok hrun
      cases hfails
  case h_10 =>
    rcases orElse_eq_ok hrun with hmatch | hline
    · exact hnever (.bind fun _ => always_otherFrom _) hmatch
    · exact hsimple hline
  all_goals first | exact hsimple hrun | exact hdefinition hrun | exact hnever (hother _) hrun

/-- A place in a text before which it has no edges. -/
def Ahead (text : List Token) (input : Input) : Prop :=
  ∃ used left last, text = used ++ left ∧ Shape.flat.holds used ∧ input = inputAt left used.length last

theorem Ahead.advance {reader : Reader α} [hreader : Steady (Setting.whole text .flat) reader]
    {input : Input} {a : α} (h : Ahead text input) (hcloses : Closes text)
    (hrun : reader input = .ok (a, reached)) : Ahead text reached := by
  obtain ⟨used, left, last, rfl, hused, rfl⟩ := h
  have hsteady : Parallel (Setting.whole (used ++ left) .flat) left reader reader fun _ a b => a = b :=
    hreader.agrees left
  obtain ⟨_, more, rest, final, rfl, hmore, -, rfl⟩ :=
    hsteady.whole List.length_append.symm hcloses.of_append hrun
  refine ⟨used ++ more, rest, final, (List.append_assoc used more rest).symm, ?_, ?_⟩
  · exact Shape.flat.append hused hmore
  · rw [List.length_append]

/-- The body of the function that a text defines is a block with no edge before it. -/
theorem block_of_definition [SteadyRules (Setting.whole text .flat) g] (hcloses : Closes text)
    {extent : Extent} {decorated : Nat} {head : FunctionHead} {body : List Stmt}
    (hrun : definition g (inputAt text 0 0) = .ok (.function extent decorated head body, reached)) :
    ∃ input ended, Ahead text input ∧ block g input = .ok (body, ended) := by
  have hstart : Ahead text (inputAt text 0 0) := ⟨[], text, 0, rfl, Shape.flat.nil, rfl⟩
  unfold definition at hrun
  obtain ⟨_, _, hposition, hrun⟩ := bind_eq_ok hrun
  cases hposition
  obtain ⟨ds, later, hdecorators, hrun⟩ := bind_eq_ok hrun
  have hlater := hstart.advance hcloses hdecorators
  obtain ⟨_, _, hposition, hrun⟩ := bind_eq_ok hrun
  cases hposition
  obtain ⟨isClass, named, hclass, hrun⟩ := bind_eq_ok hrun
  have hnamed := hlater.advance hcloses hclass
  split at hrun
  · have hnever : Always (fun s => s.isFunction = false) (classDef g later.index) := by
      rw [classDef_eq]
      exact .bind fun _ => .bind fun _ => .bind fun _ => .pure rfl
    have hfunction := hnever _ _ _ hrun
    cases hfunction
  · obtain ⟨_, begun, hasync, hrun⟩ := bind_eq_ok hrun
    have hbegun := hnamed.advance hcloses hasync
    obtain ⟨_, defined, hdef, hrun⟩ := bind_eq_ok hrun
    have hdefined := hbegun.advance hcloses hdef
    rw [functionDef_eq] at hrun
    obtain ⟨_, opened, hhead, hrun⟩ := bind_eq_ok hrun
    have hopened := hdefined.advance hcloses hhead
    obtain ⟨found, ended, hblock, hrun⟩ := bind_eq_ok hrun
    obtain ⟨_, _, -, hrun⟩ := bind_eq_ok hrun
    obtain ⟨hsame, -⟩ := pure_eq_ok hrun
    injection hsame with _ _ _ hbody
    exact ⟨opened, ended, hopened, hbody ▸ hblock⟩

theorem eq_of_first {a : α} {before after before' after' : List α} (h : a ∉ before) (h' : a ∉ before')
    (heq : before ++ a :: after = before' ++ a :: after') : before = before' ∧ after = after' := by
  induction before generalizing before' with
  | nil =>
    cases before' with
    | nil => exact ⟨rfl, (List.cons.inj heq).2⟩
    | cons b before' =>
      rw [(List.cons.inj heq).1] at h'
      exact absurd List.mem_cons_self h'
  | cons b before ih =>
    rw [List.mem_cons, not_or] at h
    cases before' with
    | nil => exact absurd (List.cons.inj heq).1.symm h.1
    | cons b' before' =>
      rw [List.mem_cons, not_or] at h'
      obtain ⟨rfl, hrest⟩ := List.cons.inj heq
      obtain ⟨rfl, rfl⟩ := ih h.2 h'.2 hrest
      exact ⟨rfl, rfl⟩

theorem length_le_of_not_mem {a : α} {before after taken more : List α} (h : a ∉ taken)
    (heq : taken ++ more = before ++ a :: after) : taken.length ≤ before.length := by
  by_contra hlonger
  rw [Nat.not_le] at hlonger
  have hget : (taken ++ more)[before.length]? = some a := by
    rw [heq, List.getElem?_append_right (Nat.le_refl _), Nat.sub_self, List.getElem?_cons_zero]
  rw [List.getElem?_append_left hlonger] at hget
  exact h (List.mem_of_getElem? hget)

/-- An indented body after a head without edges begins with the first indented line of the text. -/
theorem statements_of_indented {header rest used left : List Token} {lineEnd : Token}
    (hsame : used ++ .op ":" :: lineEnd :: left = header ++ .newline :: .indent :: rest)
    (hheader : .indent ∉ header) (hused : Shape.flat.holds used) (hnewline : isNewline lineEnd = true)
    {last : Nat} {ended : Input} {body : List Stmt}
    (hrun : (do
        expect isIndent
        let body ← g.statements
        expect isDedent
        return body : Reader (List Stmt)) (inputAt left (used.length + 2) last) = .ok (body, ended)) :
    ∃ final reached, g.statements (inputAt rest (header.length + 2) final) = .ok (body, reached) ∧
      reached.rest.headD .stop = .dedent := by
  obtain ⟨_, _, hindent, hindented⟩ := bind_eq_ok hrun
  obtain ⟨opening, left, last, rfl, hisIndent, rfl⟩ := takeIf_true rfl (expect_eq_ok hindent)
  obtain ⟨found, reached, hstatements, hended⟩ := bind_eq_ok hindented
  obtain ⟨_, _, hdedent, hended⟩ := bind_eq_ok hended
  obtain ⟨rfl, -⟩ := pure_eq_ok hended
  obtain rfl : opening = .indent := by
    cases opening <;> first | rfl | cases hisIndent
  have hbefore : .indent ∉ used ++ [.op ":", lineEnd] := by
    rw [List.mem_append, not_or]
    refine ⟨fun hmem => absurd (hused _ hmem) Bool.noConfusion, fun hmem => ?_⟩
    rcases List.mem_pair.mp hmem with h | rfl
    · cases h
    · cases hnewline
  have hsplit : (used ++ [.op ":", lineEnd]) ++ .indent :: left =
      (header ++ [.newline]) ++ .indent :: rest := by
    simpa using hsame
  obtain ⟨hbegins, rfl⟩ := eq_of_first hbefore (by simpa using hheader) hsplit
  have hindex : header.length + 2 = used.length + 2 + 1 := by
    have hlength := congrArg List.length hbegins
    simp only [List.length_append, List.length_cons, List.length_nil] at hlength
    omega
  refine ⟨last, reached, ?_, ?_⟩
  · rw [hindex]
    exact hstatements
  · rcases takeIf_eq_ok (expect_eq_ok hdedent) with ⟨h, -⟩ | ⟨token, more, final, -, hrest, htest, -⟩
    · cases h
    · rw [hrest]
      cases token <;> first | rfl | cases htest

/-- A body on the line of its head begins on the first line of the text. -/
theorem first_le_of_simpleLine [SteadyRules (Setting.whole text .flat) g] (hcloses : Closes text)
    {header rest used left : List Token} (htext : text = header ++ .newline :: .indent :: rest)
    (hsplit : text = used ++ .op ":" :: left) (hused : Shape.flat.holds used) {last : Nat}
    {ended : Input} {body : List Stmt}
    (hrun : simpleLine g (inputAt left (used.length + 1) last) = .ok (body, ended)) :
    ∃ s ∈ body, s.extent.first ≤ header.length := by
  have hline : Parallel (Setting.whole text .flat) left (simpleLine g) (simpleLine g) _ :=
    parallel_simpleLine
  have hindex : used.length + 1 + left.length = text.length := by
    rw [hsplit, List.length_append, List.length_cons]
    omega
  have hleft : Closes left := by
    rw [hsplit] at hcloses
    exact hcloses.of_append.2
  obtain ⟨inner, taken, more, _, rfl, htaken, htwins, -⟩ := hline.whole hindex hleft hrun
  have hbefore : Token.indent ∉ used ++ .op ":" :: taken := by
    intro hmem
    rcases List.mem_append.mp hmem with hmem | hmem
    · exact absurd (hused _ hmem) Bool.noConfusion
    · rcases List.mem_cons.mp hmem with h | hmem
      · cases h
      · exact absurd (htaken _ hmem) Bool.noConfusion
  have hsame : (used ++ .op ":" :: taken) ++ more = (header ++ [Token.newline]) ++ .indent :: rest := by
    simpa using hsplit.symm.trans htext
  have hlength := length_le_of_not_mem hbefore hsame
  rcases htwins.1.twins with _ | ⟨htwin, -⟩
  · exact absurd rfl htwins.1.ne_nil
  · refine ⟨_, List.mem_cons_self, ?_⟩
    have hfirst := htwin.first
    have hreach := htwin.reach
    change _ = 0 + _ at hfirst
    change _ + (more.length + 1) ≤ text.length at hreach
    simp only [List.length_append, List.length_cons, List.length_nil] at hlength hindex
    omega

/-- Where the first indented line of a text comes after the head of a definition, it begins the body. -/
theorem statements_of_block [SteadyRules (Setting.whole text .flat) g] (hcloses : Closes text)
    {header rest : List Token} (htext : text = header ++ .newline :: .indent :: rest)
    (hheader : .indent ∉ header) {input ended : Input} {body : List Stmt} (hinput : Ahead text input)
    (hrun : block g input = .ok (body, ended)) (hbelow : ∀ s ∈ body, header.length < s.extent.first) :
    ∃ final reached, g.statements (inputAt rest (header.length + 2) final) = .ok (body, reached) ∧
      reached.rest.headD .stop = .dedent := by
  obtain ⟨used, left, last, hsplit, hused, rfl⟩ := hinput
  unfold block at hrun
  obtain ⟨_, _, hcolon, hopen⟩ := bind_eq_ok hrun
  obtain ⟨colon, left, last, rfl, hisColon, rfl⟩ := takeIf_true rfl (expect_eq_ok hcolon)
  obtain rfl := eq_of_isOp hisColon
  obtain ⟨answer, _, hnewline, hbody⟩ := bind_eq_ok hopen
  cases answer with
  | true =>
    obtain ⟨lineEnd, left, last, rfl, hisNewline, rfl⟩ := takeIf_true rfl hnewline
    exact statements_of_indented (hsplit.symm.trans htext) hheader hused hisNewline hbody
  | false =>
    rw [if_neg Bool.false_ne_true] at hbody
    rcases takeIf_eq_ok hnewline with ⟨-, rfl, -⟩ | ⟨_, _, _, h, -⟩
    · obtain ⟨s, hs, hfirst⟩ := first_le_of_simpleLine hcloses htext hsplit hused hbody
      exact absurd (hbelow s hs) (Nat.not_lt_of_le hfirst)
    · cases h

end Heads

theorem eq_nil_of_dedent {left : List Token} (hbalanced : Balanced left) (hcloses : Closes left)
    (hhead : left.headD .dedent = .dedent) : left = [] := by
  cases left with
  | nil => rfl
  | cons token more =>
    obtain rfl : token = .dedent := hhead
    have hmore : more.countP isIndent = more.countP isDedent + 1 := by
      simpa [Balanced, List.countP_cons, isIndent, isDedent] using hbalanced
    cases more with
    | nil => cases hmore
    | cons next more =>
      have hcount := hcloses.2.1
      omega

/-- What a statement of a block by itself is to the one read where the block is indented. -/
structure Stmt.Copy (index count : Nat) (s t : Stmt) : Prop where
  form : t.form = s.form
  first : t.extent.first = index + s.extent.first
  bound : s.extent.first < count

theorem forall₂_of_common {γ : Type} {first : α → β → Prop} {second : α → γ → Prop}
    {both : γ → β → Prop} (h : ∀ a b c, first a b → second a c → both c b) {xs : List α}
    {ys : List β} {zs : List γ} (hfirst : List.Forall₂ first xs ys)
    (hsecond : List.Forall₂ second xs zs) : List.Forall₂ both zs ys := by
  induction hfirst generalizing zs with
  | nil =>
    rw [List.forall₂_nil_left_iff.mp hsecond]
    exact .nil
  | cons hhead _ ih =>
    cases hsecond with
    | cons hhead' htail => exact .cons (h _ _ _ hhead hhead') (ih htail)

/-- What is read of a whole text whose statements were read, by the token after them. -/
def closeText (body : List Stmt) : Token → Reader (List Stmt)
  | .stop => pure body
  | _ => unexpected

/-- What is read of a whole text, by its first token. -/
def wholeFrom (g : Rules) : Token → Reader (List Stmt)
  | .stop => pure []
  | _ => statements g >>= fun body => peek >>= closeText body

theorem wholeBlock_eq (g : Rules) : wholeBlock g = peek >>= wholeFrom g := by
  refine congrArg (peek >>= ·) (funext fun token => ?_)
  cases token <;> rfl

theorem wholeBlock_eq_ok_iff {input ended : Input} {body : List Stmt}
    (hbegins : input.rest.headD .stop ≠ .stop) : wholeBlock g input = .ok (body, ended) ↔
      statements g input = .ok (body, ended) ∧ ended.rest.headD .stop = .stop := by
  have hwhole : wholeBlock g input =
      (statements g >>= fun body => peek >>= closeText body) input := by
    rw [wholeBlock_eq]
    change wholeFrom g (input.rest.headD .stop) input = _
    generalize input.rest.headD .stop = token at hbegins
    cases token <;> first | rfl | exact absurd rfl hbegins
  rw [hwhole]
  constructor
  · intro hrun
    obtain ⟨found, reached, hstatements, hrest⟩ := bind_eq_ok hrun
    change closeText found (reached.rest.headD .stop) reached = _ at hrest
    generalize hhead : reached.rest.headD .stop = token at hrest
    cases token <;> cases hrest
    exact ⟨hstatements, hhead⟩
  · rintro ⟨hstatements, hhead⟩
    change (statements g input >>= fun found => (peek >>= closeText found.1) found.2) = _
    rw [hstatements]
    change closeText body (ended.rest.headD .stop) ended = _
    rw [hhead]
    rfl

/-- The statements of a block are read alike where they are indented and by themselves. -/
theorem wholeBlock_of_statements {depth : Nat} {piece : List Token} (hcloses : Closes piece)
    (hbalanced : Balanced piece) (hstop : .stop ∉ piece) {index last : Nat} {body : List Stmt}
    {reached : Input}
    (hrun : statements (rules named depth) (inputAt (piece ++ [.dedent]) index last) = .ok (body, reached))
    (hend : reached.rest.headD .stop = .dedent) :
    ∃ body' ended, wholeBlock (rules named depth) (inputAt piece 0 0) = .ok (body', ended) ∧
      List.Forall₂ (Stmt.Copy index piece.length) body' body := by
  let indented : Setting := ⟨index, piece.length, [.dedent, .stop], rfl, rfl, .balanced⟩
  let alone : Setting := .whole piece .balanced
  have : SteadyBlocks indented (rules named depth) := steadyBlocks rfl depth
  have : SteadyBlocks alone (rules named depth) := steadyBlocks rfl depth
  have hindented : Parallel indented piece (statements (rules named depth)) (statements (rules named depth)) _ :=
    parallel_statements
  have halone : Parallel alone piece (statements (rules named depth)) (statements (rules named depth)) _ :=
    parallel_statements
  have hruns := hindented ⟨piece, 0, 0, false⟩ (inputAt (piece ++ [.dedent]) index last)
    ⟨rfl, by simp [inputAt, indented], Nat.zero_add _, rfl, rfl, rfl, hcloses⟩
  have hruns' := halone ⟨piece, 0, 0, false⟩ (inputAt piece 0 0)
    (Setting.whole_meets (Nat.zero_add _) hcloses)
  rw [hrun] at hruns
  generalize statements (rules named depth) ⟨piece, 0, 0, false⟩ = one at hruns hruns'
  generalize hother : statements (rules named depth) (inputAt piece 0 0) = other at hruns'
  rcases hruns with @⟨used, left, first, _, inner, _, hsplit, hused, hmeets, htwins⟩
  rcases hruns' with @⟨_, left', _, body', _, ended, hsplit', -, hmeets', htwins'⟩
  obtain rfl : left = left' := hmeets.innerRest.symm.trans hmeets'.innerRest
  have hleft : left = [] := by
    subst hsplit
    refine eq_nil_of_dedent (hbalanced.of_append hused) hcloses.of_append ?_
    rw [hmeets.outerRest] at hend
    cases left with
    | nil => rfl
    | cons token more => exact hend
  subst hleft
  have hended : ended.rest = [.stop] := hmeets'.outerRest
  have hcopies : List.Forall₂ (Stmt.Copy index piece.length) body' body := by
    refine forall₂_of_common (fun s t t' h h' => ⟨?_, ?_, ?_⟩) htwins.twins htwins'.twins
    · rw [h.form, h'.form]
    · rw [h.first, h'.first]
      exact congrArg (index + ·) (Nat.zero_add _).symm
    · rw [h'.first]
      have hreach := h'.reach
      change s.extent.first + (0 + 1) ≤ piece.length at hreach
      change 0 + s.extent.first < piece.length
      omega
  have hfirst : piece.headD .stop ≠ .stop := by
    intro hhead
    cases piece with
    | nil =>
      cases hcopies with
      | nil => exact htwins'.ne_nil (List.forall₂_nil_right_iff.mp htwins'.twins ▸ rfl)
      | cons h => exact absurd h.bound (Nat.not_lt_zero _)
    | cons token more => exact hstop (hhead ▸ List.mem_cons_self)
  refine ⟨body', ended, ?_, hcopies⟩
  have hhead : (inputAt piece 0 0).rest.headD .stop = piece.headD .stop := by
    cases piece <;> rfl
  refine (wholeBlock_eq_ok_iff (hhead ▸ hfirst)).mpr ⟨hother, ?_⟩
  rw [hended]
  rfl

/-- What every step of a loop keeps, the loop keeps. -/
theorem always_repeatStep {σ : Type} {step : σ → Reader (σ × Bool)} {kept : σ → Prop}
    (hstep : ∀ state, kept state → Always (fun found => kept found.1) (step state)) {state : σ}
    (h : kept state) : Always kept (repeatStep step state) := by
  refine .bind fun count => ?_
  induction count + 1 generalizing state with
  | zero => exact .pure h
  | succ fuel ih =>
    intro input reached final hrun
    obtain ⟨found, middle, hfound, hrest⟩ := bind_eq_ok hrun
    have hkept := hstep state h _ _ _ hfound
    dsimp only at hrest
    split at hrest
    · exact ih hkept _ _ _ hrest
    · obtain ⟨rfl, -⟩ := pure_eq_ok hrest
      exact hkept

/-- The first statement read is the first of all. -/
theorem statement_of_statements {input ended : Input} {body : List Stmt}
    (hrun : statements g input = .ok (body, ended)) :
    ∃ first reached, statement g input = .ok (first, reached) ∧ first ⊆ body := by
  unfold statements at hrun
  obtain ⟨first, reached, hfirst, hloop⟩ := bind_eq_ok hrun
  obtain ⟨reversed, _, hrepeat, hbody⟩ := bind_eq_ok hloop
  obtain ⟨rfl, -⟩ := pure_eq_ok hbody
  refine ⟨first, reached, hfirst, fun s hs => List.mem_reverse.mpr ?_⟩
  refine always_repeatStep (fun state (hstate : s ∈ state) => ?_) (List.mem_reverse.mpr hs) _ _ _ hrepeat
  refine .bind fun token => ?_
  split
  · exact .pure hstate
  · exact .pure hstate
  · exact .bind fun _ => .pure (List.mem_append_right _ hstate)

/-- The body of a function, whose lines begin with the first indented line of a text and end with the
    text, is read by itself as it is read there. -/
theorem wholeBlock_of_definition {depth : Nat} {text header piece : List Token}
    (htext : text = header ++ .newline :: .indent :: (piece ++ [.dedent]))
    (hheader : .indent ∉ header) (hcloses : Closes text) (hpiece : Closes piece)
    (hbalanced : Balanced piece) (hstop : .stop ∉ piece) {extent : Extent} {decorated : Nat}
    {head : FunctionHead} {body : List Stmt} {ended : Input}
    (hrun : wholeBlock (rules named (depth + 1)) (inputAt text 0 0) =
      .ok ([.function extent decorated head body], ended))
    (hbelow : ∀ s ∈ body, header.length < s.extent.first) :
    ∃ body' ended', wholeBlock (rules named depth) (inputAt piece 0 0) = .ok (body', ended') ∧
      List.Forall₂ (Stmt.Copy (header.length + 2) piece.length) body' body := by
  have hbegins : (inputAt text 0 0).rest.headD .stop ≠ .stop := by
    intro hhead
    rw [wholeBlock_eq] at hrun
    change wholeFrom _ ((inputAt text 0 0).rest.headD .stop) _ = _ at hrun
    rw [hhead] at hrun
    cases hrun
  obtain ⟨hstatements, -⟩ := (wholeBlock_eq_ok_iff hbegins).mp hrun
  obtain ⟨first, reached, hfirst, hsubset⟩ := statement_of_statements hstatements
  have hmem : .function extent decorated head body ∈ first := by
    have : SteadyBlocks (Setting.whole text .balanced) (rules named (depth + 1)) := steadyBlocks rfl _
    have hstatement : Parallel (Setting.whole text .balanced) text (statement (rules named (depth + 1)))
        (statement (rules named (depth + 1))) _ := parallel_statement
    obtain ⟨inner, _, _, _, _, _, htwins, _⟩ := hstatement.whole (Nat.zero_add _) hcloses hfirst
    cases hshape : first with
    | nil =>
      have htwins := htwins.1
      rw [hshape] at htwins
      exact absurd (List.forall₂_nil_right_iff.mp htwins.twins) htwins.ne_nil
    | cons s others =>
      have hs : s ∈ first := hshape ▸ List.mem_cons_self
      rw [← List.mem_singleton.mp (hsubset hs)]
      exact List.mem_cons_self
  have hdefinition := definition_of_statement hcloses rfl hmem hfirst
  obtain ⟨input, ended', hahead, hblock⟩ := block_of_definition hcloses hdefinition
  obtain ⟨final, reached, hbody, hend⟩ :=
    statements_of_block hcloses htext hheader hahead hblock hbelow
  exact wholeBlock_of_statements hpiece hbalanced hstop hbody hend

end TableAudit.Grammar
