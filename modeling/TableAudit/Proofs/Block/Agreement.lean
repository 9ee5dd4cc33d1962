import Mathlib.Order.Bounds.Basic
import TableAudit.Proofs.Block.Acceptance
import TableAudit.Proofs.Block.Entries

namespace TableAudit.Block

open TableAudit.Expr

namespace Entry

/-- The check that an entry declares, if its predicate can be called and it has columns. -/
def check? (e : Entry) : Option Check :=
  if e.columns.isEmpty then none
  else e.predicate.callable?.map fun target => ⟨e.name, target, e.columns.eraseDups⟩

theorem isPath_pathExpr (e : Entry) : e.pathExpr.IsPath (e.root :: e.attrs) := by
  have hfold : ∀ (attrs : List String) (value : Expr) (path : List String), value.IsPath path →
      (attrs.foldl Expr.member value).IsPath (path ++ attrs) := by
    intro attrs
    induction attrs with
    | nil =>
      intro value path h
      rwa [List.append_nil]
    | cons attr attrs ih =>
      intro value path h
      rw [List.append_cons]
      exact ih _ _ (.member attr h)
  exact hfold e.attrs _ [e.root] (.name e.root)

theorem refers_columnExpr (column : String) : (columnExpr column).Refers [column] :=
  .marker column false rfl

theorem refersAll_columnExprs (columns : List String) :
    RefersAll (columns.map columnExpr) columns := by
  induction columns with
  | nil => exact .nil
  | cons column columns ih => exact .cons (refers_columnExpr column) ih

/-- A call of a path, each of whose arguments refers to columns, makes a check unless there are
    no columns or the path leads to nothing that can be called. -/
theorem checkOfCall_eq (scope : Scope) (name : String) {function : Expr} {path columns : List String}
    {args : List Expr} (hpath : function.IsPath path) (hplain : function.isWord columnWord = false)
    (hpositional : args.any isStarred = false) (hargs : args.forM checkArgument = .ok ())
    (hcolumns : (call function args [] []).columnsOf = .ok columns) :
    checkOfCall scope name (.call function args [] []) =
      if columns.isEmpty then .error .noColumn
      else (resolvePredicate scope path).map fun predicate => ⟨name, predicate, columns⟩ := by
  have hfound := (path?_eq_some_iff function path).mpr hpath
  unfold checkOfCall
  dsimp only
  split
  · cases hfound
  · have hmarker : (call function args [] []).isMarker columnWord = false := hplain
    rw [hmarker, hfound, hargs, hcolumns]
    simp only [Bool.false_eq_true, if_false, List.isEmpty_nil, Bool.not_true, Bool.or_self,
      hpositional]
    cases columns with
    | nil => rfl
    | cons column columns =>
      simp only [bind, Except.bind, List.isEmpty_cons, Bool.false_eq_true, if_false]
      cases resolvePredicate scope path <;> rfl

/-- The line of an entry declares its check; where it has none it is an error. -/
theorem checkOfExpr_expr {scope : Scope} {e : Entry} (h : e.Fits scope) :
    (∃ check, e.check? = some check ∧ checkOfExpr scope e.expr = .ok check) ∨
      e.check? = none ∧ ∃ reason, checkOfExpr scope e.expr = .error reason ∧
        ∀ obstacle, reason ≠ .argumentWithoutText obstacle := by
  have hpath := e.isPath_pathExpr
  have hplain := hpath.isWord_eq_false h.notColumn
  have hcolumns := refersAll_columnExprs e.columns
  have hpositional : (e.columns.map columnExpr).any isStarred = false := by
    rw [List.any_map, List.any_eq_false]
    exact fun column _ => Bool.false_ne_true
  have hreferring : ∀ arg ∈ e.columns.map columnExpr, ¬ arg.Refers [] := by
    intro arg harg hnone
    obtain ⟨column, -, rfl⟩ := List.mem_map.mp harg
    exact List.cons_ne_nil _ _ ((refers_columnExpr column).unique hnone)
  have hargs := (forM_checkArgument_eq_ok_iff _).mpr ⟨⟨_, hcolumns⟩, hreferring⟩
  have hall : (call e.pathExpr (e.columns.map columnExpr) [] []).columnsOf =
      .ok e.columns.eraseDups :=
    (columnsOf_eq_ok_iff _ _).mpr ⟨_, (refers_call_iff hpath hplain _ _).mpr hcolumns, rfl⟩
  have hcall := checkOfCall_eq scope e.name hpath hplain hpositional hargs hall
  have hexpr : checkOfExpr scope e.expr =
      checkOfCall scope e.name (.call e.pathExpr (e.columns.map columnExpr) [] []) := rfl
  have hempty : e.columns.eraseDups.isEmpty = e.columns.isEmpty := by
    rw [Bool.eq_iff_iff, List.isEmpty_iff, List.isEmpty_iff, eraseDups_eq_nil_iff]
  rw [hexpr, hcall, hempty, check?]
  cases e.columns.isEmpty with
  | true => exact .inr ⟨rfl, _, rfl, nofun⟩
  | false =>
    cases hcallable : e.predicate.callable? with
    | none =>
      have hresolve : resolvePredicate scope (e.root :: e.attrs) =
          .error (.notCallable (pathText (e.root :: e.attrs))) := by
        simp only [resolvePredicate, List.headD_cons, List.tail_cons, h.resolves, hcallable]
      rw [hresolve]
      exact .inr ⟨rfl, _, rfl, nofun⟩
    | some target =>
      have hresolve : resolvePredicate scope (e.root :: e.attrs) = .ok target := by
        simp only [resolvePredicate, List.headD_cons, List.tail_cons, h.resolves, hcallable]
      rw [hresolve]
      exact .inl ⟨_, rfl, rfl⟩

theorem allTexts_map_text (columns : List String) : allTexts (columns.map .text) = some columns := by
  induction columns with
  | nil => rfl
  | cons column columns ih => rw [List.map_cons, allTexts, ih, Option.map_some]

/-- The record of an entry declares its check; where it has none it is an error of compilation. -/
theorem checkOfRecord_record {scope : Scope} {e : Entry} (h : e.Fits scope) (world : World) :
    (∃ check, e.check? = some check ∧
      checkOfRecord scope.language e.record world = (.ok check, world)) ∨
    e.check? = none ∧ ∃ error,
      checkOfRecord scope.language e.record world = (.error (.compile error), world) := by
  have hparts : recordParts e.record world =
      (some (.text e.name, e.predicate, .list (e.columns.map .text)), world) := rfl
  have hcolumns : recordColumns (.list (e.columns.map .text)) world = (some e.columns, world) := by
    change (allTexts (e.columns.map .text), world) = _
    rw [allTexts_map_text]
  have hnamed := h.named
  rw [checkOfRecord, hparts, check?]
  dsimp only
  cases hcallable : e.predicate.callable? with
  | none =>
    cases e.columns.isEmpty <;> exact .inr ⟨rfl, _, rfl⟩
  | some target =>
    dsimp only
    rw [hnamed target hcallable, checkOfColumns, hcolumns]
    dsimp only
    cases e.columns.isEmpty with
    | true => exact .inr ⟨rfl, _, rfl⟩
    | false => exact .inl ⟨_, rfl, rfl⟩

/-- The line and the record of an entry make the same check or both an error. -/
theorem checks_agree {scope : Scope} {e : Entry} (h : e.Fits scope) (world : World) :
    (∃ check, checkOfExpr scope e.expr = .ok check ∧
      checkOfRecord scope.language e.record world = (.ok check, world)) ∨
    ∃ reason error, checkOfExpr scope e.expr = .error reason ∧
      (∀ obstacle, reason ≠ .argumentWithoutText obstacle) ∧
      checkOfRecord scope.language e.record world = (.error (.compile error), world) := by
  rcases checkOfExpr_expr h with ⟨check, hsome, hexpr⟩ | ⟨hnone, reason, hexpr, hreason⟩
  · rcases checkOfRecord_record h world with ⟨other, hother, hrecord⟩ | ⟨hother, -⟩
    · rw [hsome, Option.some.injEq] at hother
      subst hother
      exact .inl ⟨check, hexpr, hrecord⟩
    · rw [hsome] at hother
      cases hother
  · rcases checkOfRecord_record h world with ⟨other, hother, -⟩ | ⟨-, error, hrecord⟩
    · rw [hnone] at hother
      cases hother
    · exact .inr ⟨reason, error, hexpr, hreason, hrecord⟩

/-- After the same checks, lines and records make the same checks or both an error. -/
theorem compileFrom_buildFrom {scope : Scope} {entries : List Entry}
    (hfits : ∀ e ∈ entries, e.Fits scope) {body : List Statement}
    (hbody : body.map Statement.form = entries.map fun e => .expression e.expr)
    (done : List Check) (world : World) :
    (∃ checks, compileFrom scope done body = .ok checks ∧
      buildFrom scope.language done (entries.map record) world = (.ok checks, world)) ∨
    ∃ first second, compileFrom scope done body = .error first ∧
      (∀ obstacle, first.reason ≠ .argumentWithoutText obstacle) ∧
      buildFrom scope.language done (entries.map record) world =
        (.error (.compile second), world) := by
  induction entries generalizing body done with
  | nil =>
    rw [List.map_nil, List.map_eq_nil_iff] at hbody
    rw [hbody]
    exact .inl ⟨done, rfl, rfl⟩
  | cons e entries ih =>
    rw [List.forall_mem_cons] at hfits
    obtain ⟨s, rest, rfl, hform, hrest⟩ := List.map_eq_cons_iff.mp hbody
    have hignorable : s.isIgnorable = false := by
      rw [Statement.isIgnorable, hform]
      rfl
    have hcheck : checkOfForm scope s.form = checkOfExpr scope e.expr := by
      rw [hform]
      rfl
    rw [List.map_cons, compileFrom, buildFrom, hignorable, if_neg Bool.false_ne_true, hcheck]
    rcases checks_agree hfits.1 world with ⟨check, hexpr, hrecord⟩ | ⟨reason, error, hexpr, hreason, hrecord⟩
    · rw [hexpr, hrecord]
      dsimp only
      by_cases hname : (done.any fun before => before.name == check.name) = true
      · rw [if_pos hname, if_pos hname]
        exact .inr ⟨_, _, rfl, fun _ => Reason.noConfusion, rfl⟩
      · rw [if_neg hname, if_neg hname]
        exact ih hfits.2 hrest _
    · rw [hexpr, hrecord]
      exact .inr ⟨_, _, rfl, hreason, rfl⟩

/-- The text of entries and their records make the same check set or both an error of
    compilation. -/
theorem compileNamed_build {scope : Scope} {entries : List Entry}
    (hfits : ∀ e ∈ entries, e.Fits scope) (name : String) (closed : Bool) (world : World) :
    (∃ set, (compileNamed scope (.text name) (block closed entries) world).1 = .ok set ∧
      build (.text name) (.list (entries.map record)) scope.language world = (.ok set, world)) ∨
    ∃ first second,
      (compileNamed scope (.text name) (block closed entries) world).1 = .error (.compile first) ∧
      build (.text name) (.list (entries.map record)) scope.language world =
        (.error (.compile second), world) := by
  have hids : ∀ e ∈ entries, ∀ id ∈ e.root :: e.attrs, IsIdentifier id :=
    fun e he => (hfits e he).identifiers
  obtain ⟨body, hread, hbody⟩ := @exists_read_block scope.language.named? entries hids closed
  have hnamed : (compileNamed scope (.text name) (block closed entries) world).1 =
      compileText scope name (block closed entries) := by
    change (reported _ world).1 = _
    cases compileText scope name (block closed entries) <;> rfl
  have hcollected : Job.ofAct (Value.list (entries.map record)).collect world =
      (.ok (entries.map record), world) := rfl
  rw [hnamed, compileText, hread, build, Job.andThen, hcollected]
  simp only [bind, Except.bind, compile]
  rcases compileFrom_buildFrom hfits hbody [] world with
    ⟨checks, hcompile, hrecords⟩ | ⟨first, second, hcompile, hreason, hrecords⟩
  · rw [hcompile, hrecords]
    exact .inl ⟨_, rfl, rfl⟩
  · have hfault : Fault.ofCompile first = .compile first := by
      obtain ⟨declaration, reason, line⟩ := first
      cases reason with
      | argumentWithoutText obstacle => exact absurd rfl (hreason obstacle)
      | _ => rfl
    rw [hcompile, hrecords]
    refine .inr ⟨first, second, ?_, rfl⟩
    rw [← hfault]
    rfl

/-- The text of entries ends in an error of compilation. -/
def TextFails (scope : Scope) (name : String) (closed : Bool) (world : World)
    (entries : List Entry) : Prop :=
  ∃ error, (compileNamed scope (.text name) (block closed entries) world).1 = .error (.compile error)

/-- The records of entries end in an error of compilation. -/
def RecordsFail (scope : Scope) (name : String) (world : World) (entries : List Entry) : Prop :=
  ∃ error, (build (.text name) (.list (entries.map record)) scope.language world).1 =
    .error (.compile error)

theorem textFails_iff_recordsFail {scope : Scope} {entries : List Entry}
    (hfits : ∀ e ∈ entries, e.Fits scope) (name : String) (closed : Bool) (world : World) :
    TextFails scope name closed world entries ↔ RecordsFail scope name world entries := by
  unfold TextFails RecordsFail
  rcases compileNamed_build hfits name closed world with
    ⟨found, htext, hrecords⟩ | ⟨first, second, htext, hrecords⟩
  · simp [htext, hrecords]
  · rw [htext, hrecords]
    exact ⟨fun _ => ⟨second, rfl⟩, fun _ => ⟨first, rfl⟩⟩

/-- Both ways to declare entries make the same check set, or both end in an error of compilation and
    the shortest beginnings of the entries on which they do are the same. -/
theorem text_agrees_records {scope : Scope} {entries : List Entry}
    (hfits : ∀ e ∈ entries, e.Fits scope) (name : String) (closed : Bool) (world : World) :
    (∃ set, (compileNamed scope (.text name) (block closed entries) world).1 = .ok set ∧
      build (.text name) (.list (entries.map record)) scope.language world = (.ok set, world)) ∨
    ∃ first second count,
      (compileNamed scope (.text name) (block closed entries) world).1 = .error (.compile first) ∧
      build (.text name) (.list (entries.map record)) scope.language world =
        (.error (.compile second), world) ∧
      IsLeast {n | TextFails scope name closed world (entries.take n)} count ∧
      IsLeast {n | RecordsFail scope name world (entries.take n)} count := by
  rcases compileNamed_build hfits name closed world with hset | ⟨first, second, htext, hrecords⟩
  · exact .inl hset
  have hsame : {n | TextFails scope name closed world (entries.take n)} =
      {n | RecordsFail scope name world (entries.take n)} := by
    ext n
    exact textFails_iff_recordsFail (fun e he => hfits e (List.mem_of_mem_take he)) name closed world
  have hfails : ∃ n, TextFails scope name closed world (entries.take n) := by
    refine ⟨entries.length, first, ?_⟩
    rw [List.take_length]
    exact htext
  classical
  have hleast : IsLeast {n | TextFails scope name closed world (entries.take n)} (Nat.find hfails) :=
    ⟨Nat.find_spec hfails, fun n hn => Nat.find_min' hfails hn⟩
  exact .inr ⟨first, second, Nat.find hfails, htext, hrecords, hleast, hsame ▸ hleast⟩

/-- Entries under one name: a built-in predicate and one of a library. The name has a quote and a
    line feed, and a column occurs twice. -/
def twins : List Entry :=
  [⟨"it's\n", "callable", [], .callable (.builtin .callable), ["a", "b", "a"]⟩,
    ⟨"it's\n", "validators", ["deep", "is_odd"], .callable (.library .isOdd), ["\x07"]⟩]

theorem twins_fit : ∀ e ∈ twins, e.Fits Scope.library := by
  have hcallable : IsIdentifier "callable" := .of_checks rfl rfl rfl
  have hvalidators : IsIdentifier "validators" := .of_checks rfl rfl rfl
  have hdeep : IsIdentifier "deep" := .of_checks rfl rfl rfl
  have hodd : IsIdentifier "is_odd" := .of_checks rfl rfl rfl
  intro e he
  rcases List.mem_cons.mp he with rfl | he
  · refine ⟨List.forall_mem_singleton.mpr hcallable, by decide, rfl, ?_⟩
    rintro target ⟨⟩
    rfl
  · obtain rfl := List.mem_singleton.mp he
    refine ⟨?_, by decide, rfl, ?_⟩
    · exact List.forall_mem_cons.mpr ⟨hvalidators, List.forall_mem_cons.mpr
        ⟨hdeep, List.forall_mem_singleton.mpr hodd⟩⟩
    · rintro target ⟨⟩
      rfl

theorem text_agrees_records_twins :
    (∀ e ∈ twins, e.Fits Scope.library) ∧
    ((∃ set, (compileNamed Scope.library (.text "twins") (block true twins) {}).1 = .ok set ∧
      build (.text "twins") (.list (twins.map record)) Scope.library.language {} =
        (.ok set, {})) ∨
    ∃ first second count,
      (compileNamed Scope.library (.text "twins") (block true twins) {}).1 =
        .error (.compile first) ∧
      build (.text "twins") (.list (twins.map record)) Scope.library.language {} =
        (.error (.compile second), {}) ∧
      IsLeast {n | TextFails Scope.library "twins" true {} (twins.take n)} count ∧
      IsLeast {n | RecordsFail Scope.library "twins" {} (twins.take n)} count) :=
  ⟨twins_fit, text_agrees_records twins_fit "twins" true {}⟩

end Entry

end TableAudit.Block
