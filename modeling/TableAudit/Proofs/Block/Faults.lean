import TableAudit.Proofs.Block.Compiled

namespace TableAudit

namespace Expr

/-- An argument refers to no column, and has no text by which an error could name it. -/
def Nameless (obstacle : Obstacle) (arg : Expr) : Prop :=
  arg.Refers [] ∧ arg.render = .error obstacle

/-- A declaration of a check that is refused for a nameless argument: all that is tested before the
    arguments is in order, and each argument before it refers to a column. -/
inductive DeclaresNameless (obstacle : Obstacle) : Expr → Prop
  | declared {word function arg : Expr} {name : String} {marked : Bool} {path : List String}
      {before after : List Expr} (hword : word.isWord checkWord = true)
      (hpath : function.IsPath path) (hcolumn : path.getLast? ≠ some columnWord)
      (hpositional : ∀ other ∈ before ++ arg :: after, ∀ value, other ≠ .starred value)
      (hbefore : ∀ other ∈ before, (∃ names, other.Refers names) ∧ ¬ other.Refers [])
      (harg : arg.Nameless obstacle) :
      DeclaresNameless obstacle
        (.call word
          [.literal (.text name marked), .call function (before ++ arg :: after) [] []] [] [])

end Expr

namespace Block

open TableAudit.Expr

variable {obstacle : Obstacle}

theorem checkArgument_eq_argumentWithoutText_iff (arg : Expr) :
    checkArgument arg = .error (.argumentWithoutText obstacle) ↔ arg.Nameless obstacle := by
  unfold checkArgument Nameless
  rw [bind_eq_error_iff]
  constructor
  · rintro (hcolumns | ⟨columns, hcolumns, hnext⟩)
    · cases ((columnsOf_eq_error_iff arg _).mp hcolumns).1
    · obtain ⟨names, hrefers, rfl⟩ := (columnsOf_eq_ok_iff arg columns).mp hcolumns
      by_cases hempty : names.eraseDups.isEmpty = true
      · rw [if_pos hempty] at hnext
        rw [List.isEmpty_iff, eraseDups_eq_nil_iff] at hempty
        refine ⟨hempty ▸ hrefers, ?_⟩
        cases hrender : arg.render with
        | ok text =>
          rw [hrender] at hnext
          cases hnext
        | error found =>
          rw [hrender] at hnext
          cases hnext
          rfl
      · rw [if_neg hempty] at hnext
        cases hnext
  · rintro ⟨hrefers, hrender⟩
    refine .inr ⟨[], (columnsOf_eq_ok_iff arg []).mpr ⟨[], hrefers, rfl⟩, ?_⟩
    rw [if_pos List.isEmpty_nil, hrender]
    rfl

/-- Of the conditions under which a call makes a check, only that on its arguments can fail for a
    nameless one. -/
theorem checkOfCall_eq_argumentWithoutText_iff (scope : Scope) (name : String) (function : Expr)
    (args : List Expr) (names : List (Option String)) (values : List Expr) :
    checkOfCall scope name (.call function args names values) =
        .error (.argumentWithoutText obstacle) ↔
      function.isWord columnWord = false ∧ ∃ path, function.path? = some path ∧
        (!names.isEmpty || !values.isEmpty || args.any isStarred) = false ∧
        args.forM checkArgument = .error (.argumentWithoutText obstacle) := by
  rw [checkOfCall_eq_error_iff (by simp [shapeReasons])]
  refine and_congr Iff.rfl (exists_congr fun path => and_congr Iff.rfl (and_congr Iff.rfl ⟨?_, .inl⟩))
  rintro (hargs | ⟨-, hcolumns | ⟨columns, -, ⟨-, hnone⟩ | ⟨-, hresolve⟩⟩⟩)
  · exact hargs
  · cases ((columnsOf_eq_error_iff _ _).mp hcolumns).1
  · cases hnone
  · rcases reason_of_resolvePredicate hresolve with ⟨failure, hreason⟩ | hreason <;> cases hreason

/-- An expression is refused for a nameless argument exactly when it declares a check with one. -/
theorem checkOfExpr_eq_argumentWithoutText_iff (scope : Scope) (e : Expr) :
    checkOfExpr scope e = .error (.argumentWithoutText obstacle) ↔ e.DeclaresNameless obstacle := by
  constructor
  · intro h
    rcases checkOfExpr_cases scope e with
      ⟨word, name, marked, call, rfl, hword, heq⟩ | ⟨reason, hreason, heq⟩
    · rw [heq] at h
      cases call with
      | call function args names values =>
        rw [checkOfCall_eq_argumentWithoutText_iff] at h
        obtain ⟨hplain, path, hpath, hpositional, hargs⟩ := h
        simp only [Bool.or_eq_false_iff, Bool.not_eq_false', List.isEmpty_iff] at hpositional
        obtain ⟨⟨rfl, rfl⟩, hpositional⟩ := hpositional
        rw [path?_eq_some_iff] at hpath
        obtain ⟨before, arg, after, rfl, hbefore, harg⟩ := forM_eq_error_iff.mp hargs
        rw [checkArgument_eq_argumentWithoutText_iff] at harg
        refine .declared hword hpath ?_ ((any_isStarred_eq_false_iff _).mp hpositional)
          (fun other hother => (checkArgument_eq_ok_iff other).mp (hbefore other hother)) harg
        rw [ne_eq, ← hpath.isWord_iff, hplain]
        exact Bool.false_ne_true
      | _ => cases h
    · rw [heq] at h
      cases h
      simp at hreason
  · rintro (@⟨word, function, arg, name, marked, path, before, after, hword, hpath, hcolumn,
      hpositional, hbefore, harg⟩)
    have hplain := hpath.isWord_eq_false hcolumn
    rw [checkOfExpr_call hword, checkOfCall_eq_argumentWithoutText_iff]
    refine ⟨hplain, path, (path?_eq_some_iff function path).mpr hpath,
      (any_isStarred_eq_false_iff _).mpr hpositional, ?_⟩
    rw [forM_eq_error_iff]
    exact ⟨before, arg, after, rfl,
      fun other hother => (checkArgument_eq_ok_iff other).mpr (hbefore other hother),
      (checkArgument_eq_argumentWithoutText_iff arg).mpr harg⟩

/-- The first statement of a block that cannot stand there is refused for a nameless argument. -/
def Nameless (obstacle : Obstacle) (scope : Scope) (body : List Statement) : Prop :=
  ∃ before s after checks, body = before ++ s :: after ∧ Declared scope before checks ∧
    (checks.map Check.name).Nodup ∧ ∃ e, s.form = .expression e ∧ e.DeclaresNameless obstacle

theorem checkOfForm_eq_argumentWithoutText_iff (scope : Scope) (form : Form) :
    checkOfForm scope form = .error (.argumentWithoutText obstacle) ↔
      ∃ e, form = .expression e ∧ e.DeclaresNameless obstacle := by
  unfold checkOfForm
  cases form with
  | expression e =>
    simp only [checkOfExpr_eq_argumentWithoutText_iff, Form.expression.injEq, exists_eq_left']
  | pass => simp
  | other => simp

/-- What stands first in a block and declares checks is compiled first. -/
theorem compile_append {scope : Scope} {name : String} {before after : List Statement}
    {checks : List Check} (hbefore : Declared scope before checks)
    (hnames : (checks.map Check.name).Nodup) :
    compile scope name (before ++ after) =
      (compileFrom scope checks after).map fun checks => ⟨name, checks⟩ := by
  have hfirst : (([] ++ checks : List Check).map Check.name).Nodup := hnames
  rw [compile, compileFrom_append hbefore hfirst after, List.nil_append]

theorem exists_compile_argumentWithoutText_iff (scope : Scope) (name : String)
    (body : List Statement) :
    (∃ error, compile scope name body = .error error ∧
      error.reason = .argumentWithoutText obstacle) ↔ Nameless obstacle scope body := by
  constructor
  · rintro ⟨error, herror, hreason⟩
    have hnone : (([] : List Check).map Check.name).Nodup := List.nodup_nil
    rcases declared_or_refused scope body hnone with
      ⟨checks, hchecks, hnames⟩ | ⟨before, s, after, checks, found, rfl, hbefore, hnames, hs⟩
    · have hok : compile scope name (body ++ []) =
          (compileFrom scope checks []).map fun checks => ⟨name, checks⟩ :=
        compile_append hchecks hnames
      rw [List.append_nil, herror] at hok
      cases hok
    · rw [List.nil_append] at hnames hs
      rw [compile_append hbefore hnames, compileFrom_of_refused hs] at herror
      cases herror
      cases hs with
      | undeclared hignored hnone hform =>
        subst hreason
        exact ⟨before, s, after, checks, rfl, hbefore, hnames,
          (checkOfForm_eq_argumentWithoutText_iff scope s.form).mp hform⟩
      | repeated hs hname => cases hreason
  · rintro ⟨before, s, after, checks, rfl, hbefore, hnames, e, hform, hdeclares⟩
    have hrefused : checkOfForm scope s.form = .error (.argumentWithoutText obstacle) :=
      (checkOfForm_eq_argumentWithoutText_iff scope s.form).mpr ⟨e, hform, hdeclares⟩
    refine ⟨⟨s.text, .argumentWithoutText obstacle, some s.line⟩, ?_, rfl⟩
    rw [compile_append hbefore hnames, compileFrom_of_refused]
    · rfl
    · refine .undeclared ?_ (fun check hcheck => ?_) hrefused
      · rintro (hpass | ⟨value, marked, hvalue⟩)
        · rw [hform] at hpass
          cases hpass
        · rw [hform] at hvalue
          cases hvalue
          cases hdeclares
      · rw [← Statement.checkOfForm_eq_ok_iff, hrefused] at hcheck
        cases hcheck

end Block

/-- A fault that is an error of compilation. -/
def Fault.IsCompile (fault : Fault) : Prop :=
  ∃ error, fault = .compile error

@[simp] theorem Fault.isCompile_compile (error : CompileError) : (Fault.compile error).IsCompile :=
  ⟨error, rfl⟩

@[simp] theorem Fault.not_isCompile_raised (error : Raised) : ¬ (Fault.raised error).IsCompile :=
  nofun

/-- The error of a statement is one of compilation unless it is about a nameless argument. -/
theorem Fault.ofCompile_cases (error : CompileError) :
    (∃ obstacle, error.reason = .argumentWithoutText obstacle ∧
      ofCompile error = unprintable obstacle) ∨
    (∀ obstacle, error.reason ≠ .argumentWithoutText obstacle) ∧ (ofCompile error).IsCompile := by
  unfold ofCompile
  cases error.reason <;> simp

namespace Block

/-- A result ends in a fault that is no error of compilation. -/
def EscapesBy {α : Type} (result : Except Fault α) (fault : Fault) : Prop :=
  result = .error fault ∧ ¬ fault.IsCompile

theorem escapesBy_error_iff {α : Type} (found fault : Fault) :
    EscapesBy (.error found : Except Fault α) fault ↔ fault = found ∧ ¬ found.IsCompile := by
  unfold EscapesBy
  constructor
  · rintro ⟨⟨⟩, hnot⟩
    exact ⟨rfl, hnot⟩
  · rintro ⟨rfl, hnot⟩
    exact ⟨rfl, hnot⟩

theorem not_escapesBy_ok {α : Type} (value : α) (fault : Fault) :
    ¬ EscapesBy (.ok value) fault := by
  rintro ⟨⟨⟩, -⟩

theorem not_escapesBy_compile {α : Type} (error : CompileError) (fault : Fault) :
    ¬ EscapesBy (.error (.compile error) : Except Fault α) fault := by
  rw [escapesBy_error_iff]
  exact fun h => h.2 (Fault.isCompile_compile error)

theorem escapesBy_raised_iff {α : Type} (error : Raised) (fault : Fault) :
    EscapesBy (.error (.raised error) : Except Fault α) fault ↔ fault = .raised error := by
  rw [escapesBy_error_iff, and_iff_left (Fault.not_isCompile_raised error)]

theorem escapesBy_unreadable_iff {α : Type} {source : List Char} {found : Fault}
    (h : unreadable? source = some found) (fault : Fault) :
    EscapesBy (.error found : Except Fault α) fault ↔ fault = found := by
  obtain ⟨error, rfl⟩ := raised_of_unreadable h
  exact escapesBy_raised_iff error fault

/-- What a block is compiled to, as a result of compiling declarations. -/
theorem escapesBy_compile_iff (scope : Scope) (name : String) (body : List Statement)
    (fault : Fault) :
    EscapesBy
        (match compile scope name body with
          | .ok set => pure set
          | .error error => throw (.ofCompile error))
        fault ↔
      ∃ obstacle, Nameless obstacle scope body ∧ fault = .unprintable obstacle := by
  simp only [← exists_compile_argumentWithoutText_iff scope name body]
  cases compile scope name body with
  | ok set => exact ⟨fun h => absurd h (not_escapesBy_ok set fault), fun ⟨_, ⟨_, h, _⟩, _⟩ => nomatch h⟩
  | error error =>
    change EscapesBy (.error (.ofCompile error)) fault ↔ _
    rcases Fault.ofCompile_cases error with ⟨obstacle, hreason, hfault⟩ | ⟨hreason, found, hfault⟩
    · rw [hfault, Fault.unprintable, escapesBy_raised_iff]
      simp [hreason, Fault.unprintable]
    · rw [hfault]
      refine ⟨fun h => absurd h (not_escapesBy_compile found fault), ?_⟩
      rintro ⟨obstacle, ⟨_, ⟨⟩, hsame⟩, -⟩
      exact absurd hsame (hreason obstacle)

/-- A text escapes for a character that keeps it from being read, or for a nameless argument. -/
theorem escapesBy_compileText_iff (scope : Scope) (name text : String) (fault : Fault) :
    EscapesBy (compileText scope name text) fault ↔
      unreadable? text.toList = some fault ∨
        ∃ body obstacle,
          read scope.language.named? (Text.Margin.remove text.toList) = .ok body ∧
            Nameless obstacle scope body ∧ fault = .unprintable obstacle := by
  unfold compileText
  cases hreadable : unreadable? text.toList with
  | some found =>
    have hremoved := (unreadable?_remove text.toList).trans hreadable
    rw [read_of_unreadable hremoved]
    refine (escapesBy_unreadable_iff hreadable fault).trans ?_
    simp [eq_comm]
  | none =>
    have hremoved := (unreadable?_remove text.toList).trans hreadable
    cases hread : Grammar.readBlock scope.language.named? (Text.Margin.remove text.toList) with
    | error syntaxFault =>
      rw [read_of_fault hremoved hread]
      refine ⟨fun h => absurd h (not_escapesBy_compile _ fault), ?_⟩
      rintro (⟨⟨⟩⟩ | ⟨_, _, ⟨⟩, -⟩)
    | ok found =>
      rw [read_eq_ok_iff.mpr ⟨hremoved, found.1, found.2, hread, rfl⟩]
      refine (escapesBy_compile_iff scope name _ fault).trans ?_
      simp

theorem filled_eq_error_iff (cells : List (String × Option Value)) (fault : Fault) :
    filled cells = .error fault ↔ fault = emptyCell ∧ ∃ name, (name, none) ∈ cells := by
  induction cells with
  | nil => simp [filled]
  | cons cell rest ih =>
    rcases cell with ⟨name, _ | value⟩
    · simp [filled, eq_comm]
    · rw [filled]
      cases hrest : filled rest with
      | error found =>
        rw [hrest] at ih
        simpa [Except.map] using ih
      | ok captured =>
        rw [hrest] at ih
        simpa [Except.map] using ih

namespace Definition

/-- Where the body of a function cannot be had, a character keeps its text from being read or it is an
    error of compilation. -/
theorem unreadable_or_isCompile_of_body {d : Definition} {fault : Fault} (h : d.body = .error fault) :
    (∃ text, d.source = some text ∧ unreadable? text.toList = some fault) ∨
      fault.IsCompile ∧ ∀ text, d.source = some text → unreadable? text.toList = none := by
  unfold body at h
  cases hsource : d.source with
  | none =>
    rw [hsource] at h
    cases h
    exact .inr ⟨Fault.isCompile_compile _, nofun⟩
  | some text =>
    rw [hsource] at h
    dsimp only at h
    rw [unreadable?_remove] at h
    cases hreadable : unreadable? text.toList with
    | some found =>
      rw [hreadable] at h
      cases h
      exact .inl ⟨text, rfl, hreadable⟩
    | none =>
      rw [hreadable] at h
      refine .inr ⟨?_, fun other hother => Option.some.inj hother ▸ hreadable⟩
      dsimp only at h
      cases hread : Grammar.readDefinition d.globals.language.named?
          (Text.Margin.remove text.toList) with
      | error syntaxFault =>
        rw [hread] at h
        cases h
        exact Fault.isCompile_compile _
      | ok found =>
        rw [hread] at h
        dsimp only at h
        cases hfirst : firstBody? found.1 with
        | some body =>
          rw [hfirst] at h
          cases h
        | none =>
          rw [hfirst] at h
          cases h
          exact Fault.isCompile_compile _

/-- A function escapes for a character that keeps its text from being read; and if its body can be
    read, for a variable without a value or for a nameless argument. -/
theorem escapesBy_compile_iff (d : Definition) (name : String) (fault : Fault) :
    EscapesBy (d.compile name) fault ↔
      (∃ text, d.source = some text ∧ unreadable? text.toList = some fault) ∨
        ∃ body, d.body = .ok body ∧
          ((∃ free, (free, none) ∈ d.captured) ∧ fault = emptyCell ∨
            ∃ scope obstacle, d.scope = .ok scope ∧ Nameless obstacle scope body ∧
              fault = .unprintable obstacle) := by
  unfold compile
  cases hbody : d.body with
  | error found =>
    change EscapesBy (.error found) fault ↔ _
    rcases unreadable_or_isCompile_of_body hbody with ⟨text, hsource, hreadable⟩ | ⟨⟨error, rfl⟩, hreadable⟩
    · rw [escapesBy_unreadable_iff hreadable]
      simp [hsource, hreadable, eq_comm]
    · refine ⟨fun h => absurd h (not_escapesBy_compile error fault), ?_⟩
      rintro (⟨text, hsource, htext⟩ | ⟨_, ⟨⟩, -⟩)
      rw [hreadable text hsource] at htext
      cases htext
  | ok body =>
    have hreadable : ¬ ∃ text, d.source = some text ∧ unreadable? text.toList = some fault := by
      rintro ⟨text, hsource, htext⟩
      obtain ⟨other, -, -, -, hother, hnone, -⟩ := body_eq_ok_iff.mp hbody
      cases hsource.symm.trans hother
      rw [unreadable?_remove, htext] at hnone
      cases hnone
    rw [or_iff_right hreadable]
    have hfilled := filled_eq_error_iff d.captured
    unfold scope
    cases hscope : filled d.captured with
    | error found =>
      rw [hscope] at hfilled
      obtain ⟨rfl, hempty⟩ := (hfilled found).mp rfl
      change EscapesBy (.error emptyCell) fault ↔ _
      simp [emptyCell, escapesBy_raised_iff, hempty, Except.map]
    | ok captured =>
      rw [hscope] at hfilled
      have hnone : ¬ ∃ free, (free, none) ∈ d.captured := fun h => by
        cases (hfilled emptyCell).mpr ⟨rfl, h⟩
      refine (Block.escapesBy_compile_iff (d.globals ++ captured) name body fault).trans ?_
      simp [hnone, Except.map]

end Definition

end Block

end TableAudit
