import Mathlib.Data.List.Forall2
import TableAudit.Block.Basic
import TableAudit.Proofs.Grammar.Expressions

namespace TableAudit

/-- A statement of a piece by itself and the one read for it in a setting: they say the same and
    begin at the same token, which stands before the last tokens of the piece. -/
structure Stmt.Twin (set : Grammar.Setting) (count : Nat) (s t : Stmt) : Prop where
  form : t.form = s.form
  first : t.extent.first = set.before + s.extent.first
  reach : s.extent.first + count ≤ set.size

theorem Stmt.Twin.mono {set : Grammar.Setting} {count fewer : Nat} {s t : Stmt}
    (h : s.Twin set count t) (hfewer : fewer ≤ count) : s.Twin set fewer t :=
  ⟨h.form, h.first, by have := h.reach; omega⟩

def Stmt.isFunction : Stmt → Bool
  | function .. => true
  | _ => false

namespace Grammar

variable {α β : Type} {set : Setting} {tokens : List Token} {token : Token} {index : Nat} {g : Rules}

/-- A look at the next token where edges all look alike. -/
theorem Parallel.look {next : Token → Reader α} {next' : Token → Reader β}
    {post : List Token → α → β → Prop}
    (hnext : ∀ token more, tokens = token :: more →
      Parallel set tokens (next token) (next' token) post)
    (hedge : ∀ token, isEdge token = true → next' token = next' .stop)
    (hstop : tokens = [] → Parallel set tokens (next .stop) (next' .stop) post) :
    Parallel set tokens (Grammar.peek >>= next) (Grammar.peek >>= next') post :=
  .peek hnext fun h => by
    rw [hedge _ set.first]
    exact hstop h

/-- Readers that end a statement within a line which began at a token before those left. -/
class Finishes (set : Setting) (index : Nat) (first second : Reader Stmt) : Prop where
  parallel : ∀ tokens, index + tokens.length ≤ set.size → Parallel set tokens first second
    fun left s t => s.Twin set left.length t ∧ t.isFunction = false

/-- The same where the next token is a certain one. -/
class FinishesAt (token : Token) (set : Setting) (index : Nat) (first second : Reader Stmt) :
    Prop where
  parallel : ∀ more, index + (token :: more).length ≤ set.size →
    Parallel set (token :: more) first second
      fun left s t => s.Twin set left.length t ∧ t.isFunction = false

section Finish

variable {reader : Reader α} {next next' : α → Reader Stmt} {first second first' second' : Reader Stmt}

theorem parallel_extentFrom (index : Nat) :
    Parallel set tokens (extentFrom index) (extentFrom (set.before + index)) fun left e e' =>
      left = tokens ∧ e.first = index ∧ e'.first = set.before + index :=
  .lastText fun _ _ => .pure ⟨rfl, rfl, rfl⟩

theorem finishes_extent {build : Extent → Stmt} (hextent : ∀ e, (build e).extent = e)
    (hform : ∀ e e', (build e).form = (build e').form) (hfunction : ∀ e, (build e).isFunction = false) :
    Finishes set index (extentFrom index >>= fun e => return build e)
      (extentFrom (set.before + index) >>= fun e => return build e) where
  parallel tokens hreach := by
    refine .bind (parallel_extentFrom index) fun left e e' _ h => ?_
    obtain ⟨rfl, hfirst, hfirst'⟩ := h
    refine .pure ⟨⟨hform _ _, ?_, ?_⟩, hfunction _⟩
    · rw [hextent, hextent, hfirst, hfirst']
    · rw [hextent, hfirst]
      exact hreach

instance : Finishes set index (otherFrom index) (otherFrom (set.before + index)) :=
  finishes_extent (fun _ => rfl) (fun _ _ => rfl) fun _ => rfl

instance : Finishes set index (unexpected >>= next) (unexpected >>= next') :=
  ⟨fun _ _ => .unexpected_bind⟩

instance [hreader : Steady set reader] [hnext : ∀ a, Finishes set index (next a) (next' a)] :
    Finishes set index (reader >>= next) (reader >>= next') where
  parallel tokens hreach := by
    refine .bind (hreader.agrees tokens) fun left a b hlength h => ?_
    subst h
    exact (hnext a).parallel left (by omega)

instance (test : Prop) [Decidable test] [Finishes set index first first']
    [Finishes set index second second'] :
    Finishes set index (if test then first else second) (if test then first' else second') := by
  split <;> assumption

instance (priority := low) [h : Finishes set index first second] :
    FinishesAt token set index first second :=
  ⟨fun more => h.parallel (token :: more)⟩

instance (test : Prop) [Decidable test] [FinishesAt token set index first first']
    [FinishesAt token set index second second'] :
    FinishesAt token set index (if test then first else second)
      (if test then first' else second') := by
  split <;> assumption

instance {next next' : Token → Reader Stmt} [Plain token]
    [hnext : ∀ a, Finishes set index (next a) (next' a)] :
    FinishesAt token set index (take >>= next) (take >>= next') where
  parallel more hreach := by
    refine .bind (.take_self Plain.isEdge Plain.ne_fault) fun left a b _ h => ?_
    obtain ⟨rfl, rfl, rfl⟩ := h
    refine (hnext _).parallel left ?_
    rw [List.length_cons] at hreach
    omega

end Finish

section Rules

variable [SteadyRules set g]

instance (target : Expr) :
    Finishes set index (assignment g index target) (assignment g (set.before + index) target) := by
  have hstep (state : List Expr × Expr) : SteadyStep set (nextIsOp "=" >>= fun answer =>
      if answer = true then do
        if !isTarget state.2 then unexpected
        let _ ← take
        return ((state.2 :: state.1, ← assignedValue g), true)
      else return (state, false)) := by
    dsimp only
    exact takes_nextIsOp id rfl inferInstance inferInstance
  have hbuild (targets : List Expr) (value : Expr) : Finishes set index
      (do return .assign (← extentFrom index) targets value)
      (do return .assign (← extentFrom (set.before + index)) targets value) :=
    finishes_extent (fun _ => rfl) (fun _ _ => rfl) fun _ => rfl
  unfold assignment
  infer_instance

theorem parallel_expressionStatement :
    Parallel set tokens (expressionStatement g) (expressionStatement g) fun left s t =>
      s.Twin set left.length t ∧ t.isFunction = false := by
  have hvalue : Steady set (assignedValue g) := inferInstance
  unfold expressionStatement
  refine .position fun index hindex => .bind (hvalue.agrees tokens) ?_
  rintro left value _ hlength rfl
  have hreach : index + left.length ≤ set.size := by omega
  have hexpr : Finishes set index (do return .expr (← extentFrom index) value)
      (do return .expr (← extentFrom (set.before + index)) value) :=
    finishes_extent (fun _ => rfl) (fun _ _ => rfl) fun _ => rfl
  refine .look (fun token more heq => ?_) (forall_isEdge rfl rfl rfl) fun _ => ?_
  · subst heq
    dsimp only
    split
    · exact Finishes.parallel _ hreach
    · exact FinishesAt.parallel _ hreach
    · split
      · exact FinishesAt.parallel _ hreach
      · exact hexpr.parallel _ hreach
    · exact hexpr.parallel _ hreach
  · exact hexpr.parallel _ hreach

instance : Steady set dottedName := by
  unfold dottedName
  infer_instance

instance : Steady set importedAs := by
  unfold importedAs
  infer_instance

instance : Steady set importNames := by
  unfold importNames
  infer_instance

instance : Steady set importFrom := by
  have hnames : Steady set (do
      expectKeyword "import"
      if ← takeOp "*" then return ()
      else if ← takeOp "(" then
        let _ ← commaSeparated (expectName >>= fun _ => importedAs) (Token.isOp ")")
        expectOp ")"
      else
        let _ ← commaSeparated (expectName >>= fun _ => importedAs) fun _ => false) := inferInstance
  unfold importFrom
  dsimp only
  refine takes_then inferInstance fun count => takes_then inferInstance fun bare => ?_
  split <;> infer_instance

instance : Steady set (deletion g) := by
  unfold deletion
  infer_instance

theorem parallel_simpleStatement :
    Parallel set tokens (simpleStatement g) (simpleStatement g) fun left s t =>
      s.Twin set left.length t ∧ t.isFunction = false := by
  unfold simpleStatement
  dsimp only
  refine .position fun index hindex => .look (fun token more heq => ?_) (forall_isEdge rfl rfl rfl)
    fun _ => parallel_expressionStatement
  subst heq
  have hpass : Finishes set index (do return .pass (← extentFrom index))
      (do return .pass (← extentFrom (set.before + index))) :=
    finishes_extent (fun _ => rfl) (fun _ _ => rfl) fun _ => rfl
  have hret (value : Option Expr) : Finishes set index (do return .ret (← extentFrom index) value)
      (do return .ret (← extentFrom (set.before + index)) value) :=
    finishes_extent (fun _ => rfl) (fun _ _ => rfl) fun _ => rfl
  split
  all_goals first | exact FinishesAt.parallel _ (Nat.le_of_eq hindex) | exact parallel_expressionStatement

/-- Statements of a piece and those read for it in a setting, at least one of each. -/
structure Twins (set : Setting) (count : Nat) (body body' : List Stmt) : Prop where
  ne_nil : body ≠ []
  twins : List.Forall₂ (Stmt.Twin set count) body body'

/-- The same of statements within a line, none of which is the definition of a function. -/
structure SimpleTwins (set : Setting) (count : Nat) (body body' : List Stmt) : Prop
    extends Twins set count body body' where
  simple : ∀ t ∈ body', t.isFunction = false

theorem Twins.mono {count fewer : Nat} {body body' : List Stmt} (h : Twins set count body body')
    (hfewer : fewer ≤ count) : Twins set fewer body body' :=
  ⟨h.ne_nil, h.twins.imp fun _ _ h => h.mono hfewer⟩

theorem Twins.reverse {count : Nat} {body body' : List Stmt} (h : Twins set count body body') :
    Twins set count body.reverse body'.reverse :=
  ⟨List.reverse_ne_nil_iff.mpr h.ne_nil, List.rel_reverse h.twins⟩

theorem SimpleTwins.mono {count fewer : Nat} {body body' : List Stmt}
    (h : SimpleTwins set count body body') (hfewer : fewer ≤ count) :
    SimpleTwins set fewer body body' :=
  ⟨h.toTwins.mono hfewer, h.simple⟩

theorem SimpleTwins.reverse {count : Nat} {body body' : List Stmt}
    (h : SimpleTwins set count body body') : SimpleTwins set count body.reverse body'.reverse :=
  ⟨h.toTwins.reverse, fun t ht => h.simple t (List.mem_reverse.mp ht)⟩

theorem SimpleTwins.cons {count : Nat} {body body' : List Stmt} {s t : Stmt}
    (h : SimpleTwins set count body body') (hs : s.Twin set count t ∧ t.isFunction = false) :
    SimpleTwins set count (s :: body) (t :: body') :=
  ⟨⟨List.cons_ne_nil _ _, .cons hs.1 h.twins⟩, List.forall_mem_cons.mpr ⟨hs.2, h.simple⟩⟩

theorem parallel_simpleLine : Parallel set tokens (simpleLine g) (simpleLine g) fun left body body' =>
    SimpleTwins set (left.length + 1) body body' ∧ left.length < tokens.length := by
  unfold simpleLine
  refine .bind parallel_simpleStatement fun left s t hleft h => ?_
  have hstart : SimpleTwins set left.length [s] [t] :=
    ⟨⟨List.cons_ne_nil _ _, .cons h.1 .nil⟩, List.forall_mem_singleton.mpr h.2⟩
  refine .bind (.repeatStep (fun tokens body body' h => ?_) hstart : Parallel _ _ _ _ fun left =>
    SimpleTwins set left.length) fun left body body' hline h => ?_
  · refine .bind (.takeIf Blind.eq_false) ?_
    rintro left answer _ hlength ⟨rfl, hless⟩
    cases answer with
    | false => exact .pure ⟨h.mono hlength, rfl, Bool.noConfusion⟩
    | true =>
      have hend : Parallel set left (pure (body, false)) (pure (body', false)) fun left x y =>
          SimpleTwins set left.length x.1 y.1 ∧ x.2 = y.2 ∧ (x.2 = true → left.length < tokens.length) :=
        .pure ⟨h.mono hlength, rfl, Bool.noConfusion⟩
      have hmore : Parallel set left (do return ((← simpleStatement g) :: body, true))
          (do return ((← simpleStatement g) :: body', true)) fun left x y =>
          SimpleTwins set left.length x.1 y.1 ∧ x.2 = y.2 ∧ (x.2 = true → left.length < tokens.length) := by
        refine .bind parallel_simpleStatement fun later s t hlater hstatement => .pure ⟨?_, rfl, fun _ => ?_⟩
        · exact (h.mono (Nat.le_trans hlater hlength)).cons hstatement
        · exact Nat.lt_of_le_of_lt hlater (hless rfl)
      refine .look (fun token more _ => ?_) (forall_isEdge rfl rfl rfl) fun _ => hmore
      split
      · exact hend
      · exact hmore
  · have hnewline : Advancing set (expect isNewline) := inferInstance
    refine .bind (hnewline.parallel left) fun later _ _ _ hlater => .pure ⟨?_, ?_⟩
    · exact (h.mono (hlater.2 trivial)).reverse
    · exact Nat.lt_of_lt_of_le (hlater.2 trivial) (Nat.le_trans hline hleft)

end Rules

end Grammar

end TableAudit
