import TableAudit.Proofs.Except
import TableAudit.Proofs.Expr.Columns

namespace TableAudit

/-- A path of members leads from one value to another. -/
inductive Value.Reaches (language : Language) : Value → List String → Value → Prop
  | here (value : Value) : Reaches language value [] value
  | member {value next target : Value} {attr : String} {rest : List String}
      (hmember : language.member value attr = .ok next) (hrest : Reaches language next rest target) :
      Reaches language value (attr :: rest) target

theorem Value.follow_eq_ok_iff (language : Language) (value : Value) (path : List String)
    (target : Value) : value.follow language path = .ok target ↔ value.Reaches language path target := by
  induction path generalizing value with
  | nil =>
    constructor
    · intro h
      cases h
      exact .here _
    · intro h
      cases h
      rfl
  | cons attr rest ih =>
    rw [follow]
    constructor
    · intro h
      cases hmember : language.member value attr with
      | error message => rw [hmember] at h; cases h
      | ok next =>
        rw [hmember] at h
        exact .member hmember ((ih next).mp h)
    · intro h
      cases h with
      | member hmember hrest =>
        rw [hmember]
        exact (ih _).mpr hrest

/-- A path leads from a scope to a value: its first name stands in the scope, or else for a
    built-in value, and the others are members. -/
inductive Scope.Leads (scope : Scope) : List String → Value → Prop
  | bound {root : String} {rest : List String} {value target : Value}
      (hroot : scope.find? root = some value) (hrest : value.Reaches scope.language rest target) :
      Leads scope (root :: rest) target
  | builtin {root : String} {rest : List String} {value target : Value}
      (hfree : scope.find? root = none) (hroot : scope.language.builtin? root = some value)
      (hrest : value.Reaches scope.language rest target) : Leads scope (root :: rest) target

theorem Scope.resolve_eq_ok_iff (scope : Scope) (root : String) (rest : List String)
    (target : Value) :
    scope.resolve root rest = .ok target ↔ scope.Leads (root :: rest) target := by
  unfold resolve
  constructor
  · intro h
    cases hroot : scope.find? root with
    | some value =>
      rw [hroot] at h
      exact .bound hroot ((Value.follow_eq_ok_iff _ _ _ _).mp h)
    | none =>
      rw [hroot] at h
      cases hbuiltin : scope.language.builtin? root with
      | some value =>
        rw [hbuiltin] at h
        exact .builtin hroot hbuiltin ((Value.follow_eq_ok_iff _ _ _ _).mp h)
      | none => rw [hbuiltin] at h; cases h
  · intro h
    cases h with
    | bound hroot hrest =>
      rw [hroot]
      exact (Value.follow_eq_ok_iff _ _ _ _).mpr hrest
    | builtin hfree hroot hrest =>
      rw [hfree, hroot]
      exact (Value.follow_eq_ok_iff _ _ _ _).mpr hrest

namespace Expr

/-- An expression declares a check: a call of `check` with a text literal for the name and a call of
    a predicate. The callee of that call is a path to something that can be called and does not end
    in `col`; it has at least one argument, each positional, and each refers to a column. -/
inductive Declares (scope : Scope) : Expr → Check → Prop
  | declared {word function : Expr} {args : List Expr} {name : String} {marked : Bool}
      {path columns : List String} {target : Value} {predicate : Callable}
      (hword : word.isWord checkWord = true) (hpath : function.IsPath path)
      (hcolumn : path.getLast? ≠ some columnWord) (hargs : args ≠ [])
      (hpositional : ∀ arg ∈ args, ∀ value, arg ≠ .starred value)
      (hcolumns : RefersAll args columns) (hreferring : ∀ arg ∈ args, ¬ arg.Refers [])
      (hresolved : scope.Leads path target) (hcallable : target.callable? = some predicate) :
      Declares scope
        (.call word [.literal (.text name marked), .call function args [] []] [] [])
        ⟨name, predicate, columns.eraseDups⟩

end Expr

namespace Block

open TableAudit.Expr

theorem resolvePredicate_eq_ok_iff (scope : Scope) {path : List String} (hpath : path ≠ [])
    (predicate : Callable) :
    resolvePredicate scope path = .ok predicate ↔
      ∃ target, scope.Leads path target ∧ target.callable? = some predicate := by
  obtain ⟨root, rest, rfl⟩ := List.exists_cons_of_ne_nil hpath
  unfold resolvePredicate
  rw [List.headD_cons, List.tail_cons]
  constructor
  · intro h
    cases hresolve : scope.resolve root rest with
    | error failure => rw [hresolve] at h; cases h
    | ok target =>
      rw [hresolve] at h
      refine ⟨target, (Scope.resolve_eq_ok_iff _ _ _ _).mp hresolve, ?_⟩
      dsimp only at h
      cases hcallable : target.callable? with
      | none => rw [hcallable] at h; cases h
      | some found =>
        rw [hcallable] at h
        cases h
        rfl
  · rintro ⟨target, hleads, hcallable⟩
    rw [(Scope.resolve_eq_ok_iff _ _ _ _).mpr hleads]
    dsimp only
    rw [hcallable]

theorem eraseDups_eq_nil_iff {items : List String} : items.eraseDups = [] ↔ items = [] := by
  cases items with
  | nil => simp
  | cons first rest => simp [List.eraseDups_cons]

theorem columnsOf_eq_ok_iff (e : Expr) (columns : List String) :
    e.columnsOf = .ok columns ↔ ∃ names, e.Refers names ∧ names.eraseDups = columns := by
  rw [← columns?_eq_some_iff, columnsOf]
  cases e.columns? <;> simp

theorem columnsOf_eq_error_iff (e : Expr) (reason : Reason) :
    e.columnsOf = .error reason ↔ reason = .malformedColumn ∧ e.columns? = none := by
  unfold columnsOf
  cases e.columns? <;> simp [eq_comm]

/-- A path leads to no predicate because it leads nowhere, or to a value that cannot be called. -/
theorem reason_of_resolvePredicate {scope : Scope} {path : List String} {reason : Reason}
    (h : resolvePredicate scope path = .error reason) :
    (∃ failure, reason = .unresolved (pathText path) failure) ∨
      reason = .notCallable (pathText path) := by
  unfold resolvePredicate at h
  cases hresolve : scope.resolve (path.headD "") path.tail with
  | error failure =>
    rw [hresolve] at h
    cases h
    exact .inl ⟨failure, rfl⟩
  | ok value =>
    rw [hresolve] at h
    dsimp only at h
    split at h
    · cases h
    · cases h
      exact .inr rfl

theorem checkArgument_eq_ok_iff (arg : Expr) :
    checkArgument arg = .ok () ↔ (∃ names, arg.Refers names) ∧ ¬ arg.Refers [] := by
  unfold checkArgument
  rw [bind_eq_ok_iff]
  constructor
  · rintro ⟨columns, hcolumns, hnext⟩
    obtain ⟨names, hrefers, rfl⟩ := (columnsOf_eq_ok_iff arg columns).mp hcolumns
    refine ⟨⟨names, hrefers⟩, fun hnone => ?_⟩
    obtain rfl := hrefers.unique hnone
    revert hnext
    cases arg.render <;> exact nofun
  · rintro ⟨⟨names, hrefers⟩, hnone⟩
    refine ⟨names.eraseDups, (columnsOf_eq_ok_iff arg _).mpr ⟨names, hrefers, rfl⟩, ?_⟩
    have hnames : names.eraseDups ≠ [] := by
      rw [ne_eq, eraseDups_eq_nil_iff]
      rintro rfl
      exact hnone hrefers
    rw [if_neg]
    · rfl
    · rwa [List.isEmpty_iff]

/-- The conditions under which a call makes a check, in the order in which they are tested. -/
theorem checkOfCall_eq_ok_iff (scope : Scope) (name : String) (function : Expr)
    (args : List Expr) (names : List (Option String)) (values : List Expr) (check : Check) :
    checkOfCall scope name (.call function args names values) = .ok check ↔
      function.isWord columnWord = false ∧ ∃ path, function.path? = some path ∧
        (!names.isEmpty || !values.isEmpty || args.any isStarred) = false ∧
        args.forM checkArgument = .ok () ∧
        ∃ columns, (call function args names values).columnsOf = .ok columns ∧
          columns.isEmpty = false ∧ ∃ predicate, resolvePredicate scope path = .ok predicate ∧
            check = ⟨name, predicate, columns⟩ := by
  unfold checkOfCall
  dsimp only
  split
  · constructor
    · exact nofun
    · rintro ⟨-, path, hpath, -⟩
      cases hpath
  · rw [guard_eq_ok_iff]
    refine and_congr Iff.rfl ?_
    cases function.path? with
    | none => exact ⟨nofun, fun ⟨path, hpath, _⟩ => nomatch hpath⟩
    | some path =>
      dsimp only
      rw [guard_eq_ok_iff]
      simp only [bind_eq_ok_iff, guard_eq_ok_iff]
      constructor
      · rintro ⟨hpositional, ⟨⟩, hargs, columns, hcolumns, hnonempty, predicate, hpredicate, hcheck⟩
        cases hcheck
        exact ⟨path, rfl, hpositional, hargs, columns, hcolumns, hnonempty, predicate, hpredicate, rfl⟩
      · rintro ⟨_, ⟨⟩, hpositional, hargs, columns, hcolumns, hnonempty, predicate, hpredicate, rfl⟩
        exact ⟨hpositional, (), hargs, columns, hcolumns, hnonempty, predicate, hpredicate, rfl⟩

/-- The reasons for which a call makes no check before its arguments are looked at. -/
def shapeReasons : List Reason :=
  [.notACall, .anonymousFunction, .columnAsPredicate, .unnamedPredicate, .argumentsNotPositional]

/-- Where a call fails that has the shape of a call of a predicate: at one of its arguments, at its
    columns, or at the predicate. -/
theorem checkOfCall_eq_error_iff {reason : Reason} (hreason : reason ∉ shapeReasons) (scope : Scope)
    (name : String) (function : Expr) (args : List Expr) (names : List (Option String))
    (values : List Expr) :
    checkOfCall scope name (.call function args names values) = .error reason ↔
      function.isWord columnWord = false ∧ ∃ path, function.path? = some path ∧
        (!names.isEmpty || !values.isEmpty || args.any isStarred) = false ∧
        (args.forM checkArgument = .error reason ∨
          args.forM checkArgument = .ok () ∧
            ((call function args names values).columnsOf = .error reason ∨
              ∃ columns, (call function args names values).columnsOf = .ok columns ∧
                (columns = [] ∧ Reason.noColumn = reason ∨
                  columns ≠ [] ∧ resolvePredicate scope path = .error reason))) := by
  simp only [shapeReasons, List.mem_cons, List.not_mem_nil, or_false, not_or, eq_comm (a := reason)]
    at hreason
  obtain ⟨-, hlambda, hmarker, hunnamed, hpositional⟩ := hreason
  unfold checkOfCall
  dsimp only
  split
  · constructor
    · intro h
      cases h
      exact absurd rfl hlambda
    · rintro ⟨-, path, hpath, -⟩
      cases hpath
  · simp only [guard_eq_error_iff, hmarker, and_false, false_or]
    refine and_congr Iff.rfl ?_
    cases function.path? with
    | none =>
      constructor
      · intro h
        cases h
        exact absurd rfl hunnamed
      · rintro ⟨path, hpath, -⟩
        cases hpath
    | some path =>
      simp only [guard_eq_error_iff, hpositional, and_false, false_or, bind_eq_error_iff,
        Option.some.injEq, exists_eq_left']
      have hmade (predicate : Callable) (columns : List String) :
          (pure ⟨name, predicate, columns⟩ : Except Reason Check) ≠ .error reason := nofun
      simp only [List.isEmpty_iff, List.isEmpty_eq_false_iff, hmade, and_false, exists_false, or_false]
      exact and_congr Iff.rfl (or_congr Iff.rfl ⟨fun ⟨⟨⟩, h⟩ => h, fun h => ⟨(), h⟩⟩)

theorem any_isStarred_eq_false_iff (args : List Expr) :
    args.any isStarred = false ↔ ∀ arg ∈ args, ∀ value, arg ≠ .starred value := by
  rw [List.any_eq_false]
  refine forall₂_congr fun arg _ => ?_
  cases arg <;> simp [isStarred]

theorem forM_checkArgument_eq_ok_iff (args : List Expr) :
    args.forM checkArgument = .ok () ↔
      (∃ columns, RefersAll args columns) ∧ ∀ arg ∈ args, ¬ arg.Refers [] := by
  rw [forM_eq_ok_iff]
  simp only [checkArgument_eq_ok_iff]
  constructor
  · intro h
    exact ⟨exists_refersAll fun arg harg => (h arg harg).1, fun arg harg => (h arg harg).2⟩
  · rintro ⟨⟨columns, hcolumns⟩, hreferring⟩ arg harg
    exact ⟨hcolumns.exists_of_mem harg, hreferring arg harg⟩

/-- A call of `check` with a text literal and a call declares what this call makes. -/
theorem checkOfExpr_call {word : Expr} (hword : word.isWord checkWord = true) (scope : Scope)
    (name : String) (marked : Bool) (call : Expr) :
    checkOfExpr scope (.call word [.literal (.text name marked), call] [] []) =
      checkOfCall scope name call := by
  dsimp only [checkOfExpr]
  rw [hword]
  rfl

theorem declares_of_checkOfCall {scope : Scope} {word call : Expr} {name : String} (marked : Bool)
    {check : Check} (hword : word.isWord checkWord = true)
    (h : checkOfCall scope name call = .ok check) :
    (Expr.call word [.literal (.text name marked), call] [] []).Declares scope check := by
  cases call with
  | call function args names values =>
    rw [checkOfCall_eq_ok_iff] at h
    obtain ⟨hplain, path, hpath, hpositional, harguments, columns, hcolumns, hnonempty, predicate,
      hpredicate, rfl⟩ := h
    simp only [Bool.or_eq_false_iff, Bool.not_eq_false', List.isEmpty_iff] at hpositional
    obtain ⟨⟨rfl, rfl⟩, hpositional⟩ := hpositional
    rw [path?_eq_some_iff] at hpath
    obtain ⟨-, hreferring⟩ := (forM_checkArgument_eq_ok_iff args).mp harguments
    obtain ⟨all, hall, rfl⟩ := (columnsOf_eq_ok_iff _ columns).mp hcolumns
    rw [refers_call_iff hpath hplain] at hall
    obtain ⟨target, hresolved, hcallable⟩ :=
      (resolvePredicate_eq_ok_iff scope hpath.ne_nil predicate).mp hpredicate
    refine .declared hword hpath ?_ ?_ ((any_isStarred_eq_false_iff args).mp hpositional) hall
      hreferring hresolved hcallable
    · rw [ne_eq, ← hpath.isWord_iff, hplain]
      exact Bool.false_ne_true
    · rintro rfl
      cases hall
      cases hnonempty
  | _ => cases h

theorem checkOfExpr_of_declares {scope : Scope} {e : Expr} {check : Check}
    (h : e.Declares scope check) : checkOfExpr scope e = .ok check := by
  cases h with
  | @declared word function args name marked path columns target predicate hword hpath hcolumn hargs
      hpositional hcolumns hreferring hresolved hcallable =>
    have hplain := hpath.isWord_eq_false hcolumn
    rw [checkOfExpr_call hword, checkOfCall_eq_ok_iff]
    refine ⟨hplain, path, (path?_eq_some_iff function path).mpr hpath, ?_,
      (forM_checkArgument_eq_ok_iff args).mpr ⟨⟨columns, hcolumns⟩, hreferring⟩,
      columns.eraseDups, ?_, ?_, predicate, ?_, rfl⟩
    · exact (any_isStarred_eq_false_iff args).mpr hpositional
    · exact (columnsOf_eq_ok_iff _ _).mpr
        ⟨columns, (refers_call_iff hpath hplain args columns).mpr hcolumns, rfl⟩
    · rw [← Bool.not_eq_true, List.isEmpty_iff, eraseDups_eq_nil_iff, hcolumns.eq_nil_iff hreferring]
      exact hargs
    · exact (resolvePredicate_eq_ok_iff scope hpath.ne_nil predicate).mpr
        ⟨target, hresolved, hcallable⟩

/-- An expression without the shape of a declaration is refused for that; one with it makes the check
    of its call. -/
theorem checkOfExpr_cases (scope : Scope) (e : Expr) :
    (∃ word name marked call, e = .call word [.literal (.text name marked), call] [] [] ∧
      word.isWord checkWord = true ∧ checkOfExpr scope e = checkOfCall scope name call) ∨
    ∃ reason ∈ [Reason.notADeclaration, .wrongArguments, .nameNotLiteral],
      checkOfExpr scope e = .error reason := by
  cases e with
  | call word args names values =>
    cases hword : word.isWord checkWord with
    | false =>
      refine .inr ⟨.notADeclaration, by simp, ?_⟩
      unfold checkOfExpr
      dsimp only
      rw [hword]
      rfl
    | true =>
      simp only [checkOfExpr, hword, Bool.not_true, Bool.false_eq_true, if_false]
      split
      case h_1 title call =>
        cases hname : title.text? with
        | none => exact .inr ⟨.nameNotLiteral, by simp, rfl⟩
        | some name =>
          obtain ⟨marked, rfl⟩ := (text?_eq_some_iff title name).mp hname
          exact .inl ⟨word, name, marked, call, rfl, hword, rfl⟩
      case h_2 => exact .inr ⟨.wrongArguments, by simp, rfl⟩
  | _ => exact .inr ⟨.notADeclaration, by simp, rfl⟩

/-- The compiler takes an expression for a declaration exactly when it is one. -/
theorem checkOfExpr_eq_ok_iff (scope : Scope) (e : Expr) (check : Check) :
    checkOfExpr scope e = .ok check ↔ e.Declares scope check := by
  refine ⟨fun h => ?_, checkOfExpr_of_declares⟩
  rcases checkOfExpr_cases scope e with ⟨word, name, marked, call, rfl, hword, heq⟩ | ⟨reason, -, heq⟩
  · rw [heq] at h
    exact declares_of_checkOfCall marked hword h
  · rw [heq] at h
    cases h

end Block

namespace Statement

/-- A statement that a block ignores: `pass`, or a text by itself. -/
def Ignored (s : Statement) : Prop :=
  s.form = .pass ∨ ∃ value marked, s.form = .expression (.literal (.text value marked))

/-- A statement that is an expression which declares a check. -/
def Declares (scope : Scope) (s : Statement) (check : Check) : Prop :=
  ∃ e, s.form = .expression e ∧ e.Declares scope check

theorem isIgnorable_iff (s : Statement) : s.isIgnorable = true ↔ s.Ignored := by
  unfold isIgnorable Ignored
  cases s.form with
  | pass => simp
  | other => simp
  | expression e =>
    simp only [Option.isSome_iff_exists, Expr.text?_eq_some_iff, reduceCtorEq, false_or,
      Form.expression.injEq]

theorem checkOfForm_eq_ok_iff (scope : Scope) (s : Statement) (check : Check) :
    Block.checkOfForm scope s.form = .ok check ↔ s.Declares scope check := by
  unfold Block.checkOfForm Declares
  cases s.form with
  | expression e => simp only [Block.checkOfExpr_eq_ok_iff, Form.expression.injEq, exists_eq_left']
  | pass => simp
  | other => simp

end Statement

namespace Block

/-- The checks that the statements of a block declare, each in its place, all other statements being
    ignored. -/
inductive Declared (scope : Scope) : List Statement → List Check → Prop
  | nil : Declared scope [] []
  | ignored {s : Statement} {rest : List Statement} {checks : List Check} (hs : s.Ignored)
      (hrest : Declared scope rest checks) : Declared scope (s :: rest) checks
  | check {s : Statement} {rest : List Statement} {check : Check} {checks : List Check}
      (hs : s.Declares scope check) (hrest : Declared scope rest checks) :
      Declared scope (s :: rest) (check :: checks)

end Block

/-- A statement that cannot stand after declarations of some checks, with the error that it makes:
    it is not ignored and declares no check, or it declares one under a name of these. -/
inductive Statement.Refused (scope : Scope) (checks : List Check) (s : Statement) :
    CompileError → Prop
  | undeclared {reason : Reason} (hs : ¬ s.Ignored) (hnone : ∀ check, ¬ s.Declares scope check)
      (hreason : Block.checkOfForm scope s.form = .error reason) :
      Refused scope checks s ⟨s.text, reason, some s.line⟩
  | repeated {check : Check} (hs : s.Declares scope check)
      (hname : check.name ∈ checks.map Check.name) :
      Refused scope checks s ⟨s.text, .duplicateName check.name, some s.line⟩

namespace Block

theorem any_name_eq_iff (done : List Check) (name : String) :
    (done.any fun before => before.name == name) = true ↔ name ∈ done.map Check.name := by
  simp only [List.any_eq_true, beq_iff_eq, List.mem_map]

theorem not_ignored_of_declares {scope : Scope} {s : Statement} {check : Check}
    (h : s.Declares scope check) : ¬ s.Ignored := by
  obtain ⟨e, hform, hdeclares⟩ := h
  rintro (hpass | ⟨value, marked, hvalue⟩)
  · rw [hform] at hpass
    cases hpass
  · rw [hform] at hvalue
    cases hvalue
    cases hdeclares

theorem nodup_names_append {done : List Check} {check : Check}
    (hdone : (done.map Check.name).Nodup) (hnew : check.name ∉ done.map Check.name) :
    ((done ++ [check]).map Check.name).Nodup := by
  rw [List.map_append, List.nodup_append]
  refine ⟨hdone, by simp, ?_⟩
  rintro other hother _ hcheck rfl
  rw [List.map_singleton, List.mem_singleton] at hcheck
  exact hnew (hcheck ▸ hother)

/-- A statement that compiling goes past is ignored, or declares a check under a new name. -/
theorem compileFrom_cons_eq_ok {scope : Scope} {done checks : List Check} {s : Statement}
    {rest : List Statement} (h : compileFrom scope done (s :: rest) = .ok checks) :
    s.isIgnorable = true ∧ compileFrom scope done rest = .ok checks ∨
      s.isIgnorable = false ∧ ∃ check, checkOfForm scope s.form = .ok check ∧
        check.name ∉ done.map Check.name ∧ compileFrom scope (done ++ [check]) rest = .ok checks := by
  rw [compileFrom] at h
  by_cases hs : s.isIgnorable = true
  · rw [if_pos hs] at h
    exact .inl ⟨hs, h⟩
  · rw [if_neg hs] at h
    cases hform : checkOfForm scope s.form with
    | error reason =>
      rw [hform] at h
      cases h
    | ok check =>
      rw [hform] at h
      dsimp only at h
      by_cases hname : (done.any fun before => before.name == check.name) = true
      · rw [if_pos hname] at h
        cases h
      · rw [if_neg hname] at h
        exact .inr ⟨Bool.eq_false_iff.mpr hs, check, rfl,
          mt (any_name_eq_iff done check.name).mpr hname, h⟩

/-- Compiling goes past statements that are ignored or declare checks under new names. -/
theorem compileFrom_append {scope : Scope} {before : List Statement} {checks : List Check}
    (h : Declared scope before checks) {done : List Check}
    (hnames : ((done ++ checks).map Check.name).Nodup) (after : List Statement) :
    compileFrom scope done (before ++ after) = compileFrom scope (done ++ checks) after := by
  induction h generalizing done with
  | nil => rw [List.nil_append, List.append_nil]
  | @ignored s rest checks hs hrest ih =>
    rw [List.cons_append, compileFrom, if_pos ((Statement.isIgnorable_iff s).mpr hs)]
    exact ih hnames
  | @check s rest check checks hs hrest ih =>
    have hkept : ¬ s.isIgnorable = true := by
      rw [Statement.isIgnorable_iff]
      exact not_ignored_of_declares hs
    have hfresh : ¬ (done.any fun before => before.name == check.name) = true := by
      rw [any_name_eq_iff]
      rw [List.map_append, List.nodup_append] at hnames
      intro hmem
      exact hnames.2.2 _ hmem _ (List.mem_cons_self) rfl
    rw [List.append_cons] at hnames ⊢
    rw [List.cons_append, compileFrom, if_neg hkept,
      (Statement.checkOfForm_eq_ok_iff scope s check).mpr hs]
    dsimp only
    rw [if_neg hfresh]
    exact ih hnames

/-- A statement that is refused ends the compilation. -/
theorem compileFrom_of_refused {scope : Scope} {s : Statement} {done : List Check}
    {error : CompileError} (h : s.Refused scope done error) (after : List Statement) :
    compileFrom scope done (s :: after) = .error error := by
  cases h with
  | undeclared hs hnone hreason =>
    rw [compileFrom, if_neg (mt (Statement.isIgnorable_iff s).mp hs), hreason]
    rfl
  | @repeated check hs hname =>
    have hkept := mt (Statement.isIgnorable_iff s).mp (not_ignored_of_declares hs)
    rw [compileFrom, if_neg hkept, (Statement.checkOfForm_eq_ok_iff scope s check).mpr hs]
    dsimp only
    rw [if_pos ((any_name_eq_iff done check.name).mpr hname)]
    rfl

/-- Either all statements of a block can stand after given checks, or there is a first that
    cannot. -/
theorem declared_or_refused (scope : Scope) (body : List Statement) {done : List Check}
    (hdone : (done.map Check.name).Nodup) :
    (∃ checks, Declared scope body checks ∧ ((done ++ checks).map Check.name).Nodup) ∨
      ∃ before s after checks error, body = before ++ s :: after ∧ Declared scope before checks ∧
        ((done ++ checks).map Check.name).Nodup ∧ s.Refused scope (done ++ checks) error := by
  -- the checks declared so far are carried along, since a later name is compared with theirs
  induction body generalizing done with
  | nil => exact .inl ⟨[], .nil, by rwa [List.append_nil]⟩
  | cons s rest ih =>
    by_cases hs : s.Ignored
    · rcases ih hdone with ⟨checks, hchecks, hnames⟩ |
        ⟨before, t, after, checks, error, rfl, hbefore, hnames, hrefused⟩
      · exact .inl ⟨checks, .ignored hs hchecks, hnames⟩
      · exact .inr ⟨s :: before, t, after, checks, error, rfl, .ignored hs hbefore, hnames, hrefused⟩
    · cases hform : checkOfForm scope s.form with
      | error reason =>
        refine .inr ⟨[], s, rest, [], _, rfl, .nil, by rwa [List.append_nil],
          .undeclared hs (fun check hcheck => ?_) hform⟩
        rw [← Statement.checkOfForm_eq_ok_iff, hform] at hcheck
        cases hcheck
      | ok check =>
        have hcheck := (Statement.checkOfForm_eq_ok_iff scope s check).mp hform
        by_cases hname : check.name ∈ done.map Check.name
        · refine .inr ⟨[], s, rest, [], _, rfl, .nil, by rwa [List.append_nil], .repeated hcheck ?_⟩
          rwa [List.append_nil]
        · rcases ih (nodup_names_append hdone hname) with ⟨checks, hchecks, hnames⟩ |
            ⟨before, t, after, checks, error, rfl, hbefore, hnames, hrefused⟩
          · rw [← List.append_cons] at hnames
            exact .inl ⟨check :: checks, .check hcheck hchecks, hnames⟩
          · rw [← List.append_cons] at hnames hrefused
            exact .inr ⟨s :: before, t, after, check :: checks, error, rfl, .check hcheck hbefore,
              hnames, hrefused⟩

/-- A block compiles exactly to the checks that its statements declare, one for each and in their
    order, if all statements are ignored or declare a check and no name is declared twice.
    Otherwise compiling it is an error: that of the first statement that does neither, or declares
    a name again, with its text and its line. -/
theorem compile_iff (scope : Scope) (name : String) (body : List Statement) :
    (∀ set, compile scope name body = .ok set ↔
      set.name = name ∧ Declared scope body set.checks ∧ set.names.Nodup) ∧
    ∀ error, compile scope name body = .error error ↔
      ∃ before s after checks, body = before ++ s :: after ∧ Declared scope before checks ∧
        (checks.map Check.name).Nodup ∧ s.Refused scope checks error := by
  have hok {checks : List Check} (hchecks : Declared scope body checks)
      (hnames : (checks.map Check.name).Nodup) :
      compile scope name body = .ok ⟨name, checks⟩ := by
    have hfirst : (([] ++ checks : List Check).map Check.name).Nodup := hnames
    have happend := compileFrom_append hchecks hfirst []
    rw [List.append_nil, List.nil_append] at happend
    rw [compile, happend]
    rfl
  have herror {before after : List Statement} {s : Statement} {checks : List Check}
      {error : CompileError} (hbody : body = before ++ s :: after)
      (hbefore : Declared scope before checks) (hnames : (checks.map Check.name).Nodup)
      (hs : s.Refused scope checks error) : compile scope name body = .error error := by
    have hfirst : (([] ++ checks : List Check).map Check.name).Nodup := hnames
    have happend := compileFrom_append hbefore hfirst (s :: after)
    rw [List.nil_append, compileFrom_of_refused hs] at happend
    rw [compile, hbody, happend]
    rfl
  have hnone : (([] : List Check).map Check.name).Nodup := List.nodup_nil
  have hcases := declared_or_refused scope body hnone
  refine ⟨fun set => ⟨fun h => ?_, ?_⟩, fun error => ⟨fun h => ?_, ?_⟩⟩
  · rcases hcases with ⟨checks, hchecks, hnames⟩ |
      ⟨before, s, after, checks, error, hbody, hbefore, hnames, hs⟩
    · rw [hok hchecks hnames] at h
      cases h
      exact ⟨rfl, hchecks, hnames⟩
    · rw [herror hbody hbefore hnames hs] at h
      cases h
  · rintro ⟨rfl, hchecks, hnames⟩
    exact hok hchecks hnames
  · rcases hcases with ⟨checks, hchecks, hnames⟩ |
      ⟨before, s, after, checks, error, hbody, hbefore, hnames, hs⟩
    · rw [hok hchecks hnames] at h
      cases h
    · rw [herror hbody hbefore hnames hs] at h
      cases h
      exact ⟨before, s, after, checks, hbody, hbefore, hnames, hs⟩
  · rintro ⟨before, s, after, checks, hbody, hbefore, hnames, hs⟩
    exact herror hbody hbefore hnames hs

end Block

end TableAudit
