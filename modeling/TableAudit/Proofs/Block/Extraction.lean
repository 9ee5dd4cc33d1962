import TableAudit.Proofs.Block.Compiled
import TableAudit.Proofs.Expr.Markers
import TableAudit.Proofs.Related

namespace TableAudit

open TableAudit.Expr

/-- The text by which an error refers to an expression: the source, or the expression as it is printed
    if there is none. -/
def Expr.ShownAs (e : Expr) (source shown : String) : Prop :=
  if source = "" then e.render = .ok shown else shown = source

namespace Expr

variable {e : Expr} {source shown : String}

theorem exists_print_of_printAll {inField : Bool} {place : Level} {parts : List Expr}
    {texts : List String} (h : printAll inField place parts = .ok texts) {part : Expr}
    (hpart : part ∈ parts) : ∃ text, print inField place part = .ok text := by
  induction parts generalizing texts with
  | nil => cases hpart
  | cons first rest ih =>
    rw [printAll] at h
    obtain ⟨text, htext, h⟩ := bind_eq_ok_iff.mp h
    obtain ⟨others, hothers, -⟩ := bind_eq_ok_iff.mp h
    rcases List.mem_cons.mp hpart with rfl | hpart
    · exact ⟨text, htext⟩
    · exact ih hothers hpart

/-- The arguments of a call that can be printed can be printed by themselves. -/
theorem exists_render_of_mem_arguments {function part : Expr} {args values : List Expr}
    {names : List (Option String)} (h : (call function args names values).render = .ok shown)
    (hpart : part ∈ args ++ values) : ∃ text, part.render = .ok text := by
  rw [render, print] at h
  obtain ⟨callee, -, h⟩ := bind_eq_ok_iff.mp h
  obtain ⟨positional, hargs, h⟩ := bind_eq_ok_iff.mp h
  obtain ⟨keywords, hvalues, -⟩ := bind_eq_ok_iff.mp h
  rcases List.mem_append.mp hpart with hpart | hpart
  · exact exists_print_of_printAll hargs hpart
  · exact exists_print_of_printAll hvalues hpart

/-- The arguments of a call that an error can refer to are such expressions too. -/
theorem ShownAs.exists_of_mem_arguments {function part : Expr} {args values : List Expr}
    {names : List (Option String)} (h : (call function args names values).ShownAs source shown)
    (hpart : part ∈ args ++ values) : ∃ text, part.ShownAs source text := by
  by_cases hsource : source = ""
  · rw [ShownAs, if_pos hsource] at h
    simp only [ShownAs, if_pos hsource]
    exact exists_render_of_mem_arguments h hpart
  · exact ⟨source, by rw [ShownAs, if_neg hsource]⟩

end Expr

namespace Block

variable {e : Expr} {source shown : String} {line : Option Int}

theorem columnsIn_of_shown (hshown : e.ShownAs source shown) (line : Option Int) :
    columnsIn e source line =
      match e.columnsOf with
      | .ok columns => .ok columns
      | .error reason => .error (.compile ⟨shown, reason, line⟩) := by
  have hfound : (if source.isEmpty then e.render else .ok source) = .ok shown := by
    by_cases hsource : source = ""
    · rw [Expr.ShownAs, if_pos hsource] at hshown
      rw [if_pos (by simp [hsource]), hshown]
    · rw [Expr.ShownAs, if_neg hsource] at hshown
      rw [if_neg (by simpa using hsource), hshown]
  cases hcolumns : e.columnsOf with
  | ok columns => simp only [columnsIn, hfound, hcolumns]
  | error reason => simp only [columnsIn, hfound, hcolumns]

/-- Without a source an expression that cannot be printed gives no columns and no error of
    compilation. -/
theorem columnsIn_of_not_shown (h : ∀ shown, ¬ e.ShownAs source shown) (line : Option Int) :
    ∃ obstacle, e.render = .error obstacle ∧
      columnsIn e source line = .error (.unprintable obstacle) := by
  by_cases hsource : source = ""
  · cases hrender : e.render with
    | ok shown => exact absurd (by rw [Expr.ShownAs, if_pos hsource, hrender]) (h shown)
    | error obstacle =>
      refine ⟨obstacle, rfl, ?_⟩
      rw [columnsIn, if_pos (by simp [hsource]), hrender]
  · exact absurd (by rw [Expr.ShownAs, if_neg hsource]) (h source)

/-- Extraction gives the columns of the markers met, each where it first occurs. -/
theorem columnsIn_eq_ok_iff (hshown : e.ShownAs source shown) (line : Option Int)
    (columns : List String) :
    columnsIn e source line = .ok columns ↔
      ∃ names, List.Forall₂ NamesColumn e.metMarkers names ∧ columns = names.eraseDups := by
  have hcolumns : columnsIn e source line = .ok columns ↔ e.columnsOf = .ok columns := by
    rw [columnsIn_of_shown hshown]
    cases e.columnsOf <;> simp
  rw [hcolumns, columnsOf_eq_ok_iff]
  simp only [refers_iff_metMarkers, eq_comm]

/-- Extraction is an error if a marker that is met names no column. -/
theorem columnsIn_eq_error_iff (hshown : e.ShownAs source shown) (line : Option Int) (fault : Fault) :
    columnsIn e source line = .error fault ↔
      (∃ m ∈ e.metMarkers, ∀ column, ¬ m.NamesColumn column) ∧
        fault = .compile ⟨shown, .malformedColumn, line⟩ := by
  have hnone : e.columns? = none ↔ ∃ m ∈ e.metMarkers, ∀ column, ¬ m.NamesColumn column := by
    have hsome : (∃ columns, e.columns? = some columns) ↔
        ∃ names, List.Forall₂ NamesColumn e.metMarkers names := by
      simp only [columns?_eq_some_iff, refers_iff_metMarkers]
      constructor
      · rintro ⟨_, names, hnames, _⟩
        exact ⟨names, hnames⟩
      · rintro ⟨names, hnames⟩
        exact ⟨_, names, hnames, rfl⟩
    rw [exists_forall₂_iff] at hsome
    rw [← not_iff_not, ← ne_eq, Option.ne_none_iff_exists', hsome]
    simp
  rw [columnsIn_of_shown hshown, ← hnone]
  cases hcolumns : e.columnsOf with
  | ok columns =>
    have hne : e.columns? ≠ none := by
      intro h
      simp [columnsOf, h] at hcolumns
    simp [hne]
  | error reason =>
    obtain ⟨rfl, h⟩ := (columnsOf_eq_error_iff e reason).mp hcolumns
    simp [h, eq_comm]

section Call

variable {function : Expr} {args values : List Expr} {names : List (Option String)}
  {path : List String} (hpath : function.IsPath path) (hcolumn : path.getLast? ≠ some columnWord)

include hpath hcolumn

/-- In a call of a path that is no marker the markers of the arguments are met. -/
theorem metMarkers_call :
    (call function args names values).metMarkers = (args ++ values).flatMap metMarkers := by
  have hfunction : function.metMarkers = [] := by
    rw [← List.map_eq_nil_iff, ← markers_eq_map_metMarkers, hpath.markers_eq_nil]
  have hmarker : (call function args names values).isMarker columnWord = false :=
    hpath.isWord_eq_false hcolumn
  rw [metMarkers_eq_flatMap_children hmarker, children, List.cons_append, List.flatMap_cons,
    hfunction, List.nil_append]

/-- The columns of a call are those of its arguments together, each where it first occurs. -/
theorem columnsIn_call_iff (hshown : (call function args names values).ShownAs source shown)
    (line : Option Int) (columns : List String) :
    columnsIn (call function args names values) source line = .ok columns ↔
      ∃ lists, List.Forall₂ (fun part list => columnsIn part source line = .ok list)
        (args ++ values) lists ∧ columns = lists.flatten.eraseDups := by
  have hextracted (lists : List (List String)) :
      List.Forall₂ (fun part list => columnsIn part source line = .ok list) (args ++ values) lists ↔
        ∃ all, List.Forall₂ (fun part list => List.Forall₂ NamesColumn part.metMarkers list)
          (args ++ values) all ∧ lists = all.map List.eraseDups := by
    rw [← forall₂_exists_map_iff]
    refine forall₂_iff_of_forall_mem fun part hpart list => ?_
    obtain ⟨text, htext⟩ := hshown.exists_of_mem_arguments hpart
    exact columnsIn_eq_ok_iff htext line list
  rw [columnsIn_eq_ok_iff hshown, metMarkers_call hpath hcolumn]
  simp only [forall₂_flatMap_iff, hextracted]
  constructor
  · rintro ⟨_, ⟨all, hall, rfl⟩, rfl⟩
    exact ⟨_, ⟨all, hall, rfl⟩, (eraseDups_flatten_map_eraseDups all).symm⟩
  · rintro ⟨_, ⟨all, hall, rfl⟩, rfl⟩
    exact ⟨_, ⟨all, hall, rfl⟩, eraseDups_flatten_map_eraseDups all⟩

end Call

theorem forM_checkArgument_ne_noColumn (args : List Expr) :
    args.forM checkArgument ≠ .error .noColumn := by
  rw [ne_eq, forM_eq_error_iff]
  rintro ⟨before, arg, after, -, -, harg⟩
  unfold checkArgument at harg
  rw [bind_eq_error_iff] at harg
  rcases harg with hcolumns | ⟨columns, -, hnext⟩
  · cases ((columnsOf_eq_error_iff arg _).mp hcolumns).1
  · by_cases hempty : columns.isEmpty = true
    · rw [if_pos hempty] at hnext
      cases hrender : arg.render with
      | ok text =>
        rw [hrender] at hnext
        cases hnext
      | error obstacle =>
        rw [hrender] at hnext
        cases hnext
    · rw [if_neg hempty] at hnext
      cases hnext

/-- Of the conditions under which a call makes a check, only that on the columns of the whole call
    can fail for there being none. -/
theorem checkOfCall_eq_noColumn_iff (scope : Scope) (name : String) (function : Expr)
    (args : List Expr) (names : List (Option String)) (values : List Expr) :
    checkOfCall scope name (.call function args names values) = .error .noColumn ↔
      function.isWord columnWord = false ∧ ∃ path, function.path? = some path ∧
        (!names.isEmpty || !values.isEmpty || args.any isStarred) = false ∧
        args.forM checkArgument = .ok () ∧ (call function args names values).columnsOf = .ok [] := by
  rw [checkOfCall_eq_error_iff (by simp [shapeReasons])]
  refine and_congr Iff.rfl (exists_congr fun path => and_congr Iff.rfl (and_congr Iff.rfl ⟨?_, ?_⟩))
  · rintro (hargs | ⟨hargs, hcolumns | ⟨columns, hcolumns, ⟨rfl, -⟩ | ⟨-, hresolve⟩⟩⟩)
    · exact absurd hargs (forM_checkArgument_ne_noColumn args)
    · cases ((columnsOf_eq_error_iff _ _).mp hcolumns).1
    · exact ⟨hargs, hcolumns⟩
    · rcases reason_of_resolvePredicate hresolve with ⟨failure, hreason⟩ | hreason <;> cases hreason
  · rintro ⟨hargs, hcolumns⟩
    exact .inr ⟨hargs, .inr ⟨[], hcolumns, .inl ⟨rfl, rfl⟩⟩⟩

end Block

/-- A declaration of a check that comes to the test of whether it has a column: all that is tested
    before is in order, each argument of its predicate call included. -/
inductive Expr.PassesArguments : Expr → List Expr → Prop
  | passes {word function : Expr} {name : String} {marked : Bool} {path : List String}
      {args : List Expr} (hword : word.isWord checkWord = true) (hpath : function.IsPath path)
      (hcolumn : path.getLast? ≠ some columnWord)
      (hpositional : ∀ arg ∈ args, ∀ value, arg ≠ .starred value)
      (hargs : args.forM Block.checkArgument = .ok ()) :
      PassesArguments
        (.call word [.literal (.text name marked), .call function args [] []] [] []) args

namespace Block

/-- A declaration whose arguments pass has no column only if it has no argument. -/
theorem checkOfExpr_eq_noColumn_iff {declaration : Expr} {args : List Expr}
    (h : declaration.PassesArguments args) (scope : Scope) :
    checkOfExpr scope declaration = .error .noColumn ↔ args = [] := by
  cases h with
  | @passes word function name marked path args hword hpath hcolumn hpositional hargs =>
    have hplain := hpath.isWord_eq_false hcolumn
    obtain ⟨⟨columns, hcolumns⟩, hreferring⟩ := (forM_checkArgument_eq_ok_iff args).mp hargs
    have hcall := (refers_call_iff hpath hplain args columns).mpr hcolumns
    have hfound := (columnsOf_eq_ok_iff _ _).mpr ⟨columns, hcall, rfl⟩
    rw [checkOfExpr_call hword, checkOfCall_eq_noColumn_iff, hfound, Except.ok.injEq,
      eraseDups_eq_nil_iff, hcolumns.eq_nil_iff hreferring]
    constructor
    · rintro ⟨-, _, -, -, -, hnone⟩
      exact hnone
    · intro hnone
      exact ⟨hplain, path, (path?_eq_some_iff function path).mpr hpath,
        (any_isStarred_eq_false_iff args).mpr hpositional, hargs, hnone⟩

/-- The reference to a column: `col("x")`. -/
def reference (column : String) : Expr :=
  .call (.name columnWord) [.literal (.text column false)] [] []

/-- What extraction gives. The columns are those of the markers met, each where it first occurs, and
    none of them occurs twice. It is an error if one of these markers is malformed, and only then. A
    call of a path that is no marker has the columns of its arguments and keywords together, each
    where it first occurs; so a declaration whose arguments pass is refused for having no column
    exactly if it has no arguments. -/
theorem columnsIn_follows_markers (hshown : e.ShownAs source shown) (line : Option Int)
    (scope : Scope) :
    (∀ columns, columnsIn e source line = .ok columns ↔
      ∃ names, List.Forall₂ NamesColumn e.metMarkers names ∧ columns = names.eraseDups) ∧
    (∀ columns, columnsIn e source line = .ok columns → columns.Nodup) ∧
    (∀ fault, columnsIn e source line = .error fault ↔
      (∃ m ∈ e.metMarkers, ∀ column, ¬ m.NamesColumn column) ∧
        fault = .compile ⟨shown, .malformedColumn, line⟩) ∧
    (∀ function args names values path, e = .call function args names values →
      function.IsPath path → path.getLast? ≠ some columnWord →
      ∀ columns, columnsIn e source line = .ok columns ↔
        ∃ lists, List.Forall₂ (fun part list => columnsIn part source line = .ok list)
          (args ++ values) lists ∧ columns = lists.flatten.eraseDups) ∧
    (∀ args, e.PassesArguments args → (checkOfExpr scope e = .error .noColumn ↔ args = [])) := by
  refine ⟨columnsIn_eq_ok_iff hshown line, fun columns h => ?_, columnsIn_eq_error_iff hshown line,
    ?_, fun args h => checkOfExpr_eq_noColumn_iff h scope⟩
  · obtain ⟨names, -, rfl⟩ := (columnsIn_eq_ok_iff hshown line columns).mp h
    exact nodup_eraseDups names
  · rintro function args names values path rfl hpath hcolumn
    exact columnsIn_call_iff hpath hcolumn hshown line

/-- `check("a", p(col("y"), f(col("x"), k=col("y"))))` -/
def declaredNested : Expr :=
  .call (.name checkWord) [.literal (.text "a" false),
    .call (.name "p") [reference "y",
      .call (.name "f") [reference "x"] [some "k"] [reference "y"]] [] []] [] []

theorem columnsIn_follows_markers_nested :
    declaredNested.ShownAs "check" "check" ∧
      columnsIn declaredNested "check" none = .ok ["y", "x"] ∧
      declaredNested.PassesArguments
        [reference "y", .call (.name "f") [reference "x"] [some "k"] [reference "y"]] ∧
      checkOfExpr {} declaredNested ≠ .error .noColumn := by
  have hshown : declaredNested.ShownAs "check" "check" := rfl
  obtain ⟨hcolumns, -, -, -, hnone⟩ := columnsIn_follows_markers hshown none {}
  have hpasses : declaredNested.PassesArguments
      [reference "y", .call (.name "f") [reference "x"] [some "k"] [reference "y"]] :=
    .passes rfl (.name "p") (by decide) (by simp [reference]) rfl
  refine ⟨hshown, (hcolumns _).mpr ⟨["y", "x", "y"], ?_, rfl⟩, hpasses, ?_⟩
  · rw [← refers_iff_metMarkers, refers_iff_markers]
    rfl
  · rw [ne_eq, hnone _ hpasses]
    exact List.cons_ne_nil _ _

/-- The formatted text of a call whose text argument has a control character: it cannot be printed. -/
def unprinted : Expr :=
  .joined [.field (.call (.name "g") [.literal (.text "\x7f" false), reference "a"] [] []) none none]

theorem render_unprinted : unprinted.render = .error .backslash := by
  have hprinted : print true Level.test.next (.call (.name "g")
      [.literal (.text "\x7f" false), reference "a"] [] []) =
        .ok "g('\\x7f', col('a'))" := by
    rfl
  have hbackslash : withoutBackslash "g('\\x7f', col('a'))" = .error .backslash := by
    refine if_pos ?_
    rw [String.contains_char_eq]
    decide +kernel
  rw [render, unprinted, print, printParts, printPart, hprinted]
  simp only [Bool.false_eq_true, if_false, bind, Except.bind, hbackslash]

/-- A marker has its column, though its argument has none. And an expression without a source that
    cannot be printed is an error, though its one marker is in order. -/
theorem columnsIn_against_markers :
    ((Expr.name columnWord).IsPath [columnWord] ∧
      columnsIn (reference "x") "col" none = .ok ["x"] ∧
      columnsIn (.literal (.text "x" false)) "col" none = .ok []) ∧
    List.Forall₂ NamesColumn unprinted.metMarkers ["a"] ∧
      columnsIn unprinted "" none = .error (.unprintable .backslash) := by
  refine ⟨⟨.name _, rfl, rfl⟩, ?_, ?_⟩
  · rw [← refers_iff_metMarkers, refers_iff_markers]
    rfl
  · rw [columnsIn, if_pos (by decide), render_unprinted]

/-- A column is not lost: it is among those that extraction gives, or extraction is an error of
    compilation. -/
def Keeps (column : String) (result : Except Fault (List String)) : Prop :=
  (∃ error, result = .error (.compile error)) ∨ ∃ columns, result = .ok columns ∧ column ∈ columns

theorem keeps_columnsIn_iff (e : Expr) (source : String) (line : Option Int) (column : String) :
    Keeps column (columnsIn e source line) ↔
      (∃ shown, e.ShownAs source shown) ∧
        ∃ met ∈ e.metMarkers, met.NamesColumn column ∨ ∀ other, ¬ met.NamesColumn other := by
  by_cases hshown : ∃ shown, e.ShownAs source shown
  · rw [and_iff_right hshown]
    obtain ⟨shown, hshown⟩ := hshown
    constructor
    · rintro (⟨error, herror⟩ | ⟨columns, hcolumns, hmem⟩)
      · obtain ⟨⟨met, hmet, hnone⟩, -⟩ := (columnsIn_eq_error_iff hshown line _).mp herror
        exact ⟨met, hmet, .inr hnone⟩
      · obtain ⟨names, hnames, rfl⟩ := (columnsIn_eq_ok_iff hshown line columns).mp hcolumns
        rw [List.mem_eraseDups] at hmem
        obtain ⟨met, hmet, hnamed⟩ := exists_of_forall₂_left hnames.flip hmem
        exact ⟨met, hmet, .inl hnamed⟩
    · rintro ⟨met, hmet, hcolumn⟩
      by_cases hall : ∀ m ∈ e.metMarkers, ∃ other, m.NamesColumn other
      · obtain ⟨names, hnames⟩ := exists_forall₂_iff.mpr hall
        obtain ⟨name, hname, hnamed⟩ := exists_of_forall₂_left hnames hmet
        obtain rfl : name = column := by
          rcases hcolumn with hcolumn | hnone
          · exact hnamed.unique hcolumn
          · exact absurd hnamed (hnone name)
        exact .inr ⟨_, (columnsIn_eq_ok_iff hshown line _).mpr ⟨names, hnames, rfl⟩,
          List.mem_eraseDups.mpr hname⟩
      · push Not at hall
        exact .inl ⟨_, (columnsIn_eq_error_iff hshown line _).mpr ⟨hall, rfl⟩⟩
  · have hnone : ∀ shown, ¬ e.ShownAs source shown := fun shown h => hshown ⟨shown, h⟩
    obtain ⟨obstacle, -, herror⟩ := columnsIn_of_not_shown hnone line
    rw [herror]
    simp [Keeps, Fault.unprintable, hshown]

/-- A marker stands in one that is met; it is that one, unless that one names no column or has it in
    its receiver. Its column is kept exactly if there is a text for errors to show, and among the
    markers that are met one names the same column or one is malformed. -/
theorem columnsIn_keeps_iff {m : Expr} {column : String} (hm : m.StandsIn e)
    (hcolumn : m.NamesColumn column) (source : String) (line : Option Int) :
    (∃ outer ∈ e.metMarkers, m.StandsIn outer ∧
      (m = outer ∨ (∀ other, ¬ outer.NamesColumn other) ∨
        ∃ receiver args names, outer = .call (.member receiver columnWord) args names [] ∧
          m.StandsIn receiver)) ∧
    (Keeps column (columnsIn e source line) ↔
      (∃ shown, e.ShownAs source shown) ∧
        ∃ met ∈ e.metMarkers, met.NamesColumn column ∨ ∀ other, ¬ met.NamesColumn other) := by
  refine ⟨?_, keeps_columnsIn_iff e source line column⟩
  obtain ⟨outer, hmet, hstands⟩ := exists_met_of_standsIn hm hcolumn.isMarker
  refine ⟨outer, hmet, hstands, ?_⟩
  by_cases houter : ∃ other, outer.NamesColumn other
  · obtain ⟨other, houter⟩ := houter
    rcases standsIn_receiver houter hstands hcolumn.isMarker with heq | hreceiver
    · exact .inl heq
    · exact .inr (.inr hreceiver)
  · exact .inr (.inl (not_exists.mp houter))

/-- `f(col("b"), col("a").col("b"))` -/
def chained : Expr :=
  .call (.name "f") [reference "b",
    .call (.member (reference "a") columnWord) [.literal (.text "b" false)] [] []] [] []

theorem shownAs_chained : chained.ShownAs "" "f(col('b'), col('a').col('b'))" := by
  rw [ShownAs, if_pos rfl]
  rfl

theorem columnsIn_keeps_iff_chained :
    (reference "b").StandsIn chained ∧ (reference "b").NamesColumn "b" ∧
      Keeps "b" (columnsIn chained "" (some 1)) := by
  have hnamed : (reference "b").NamesColumn "b" := .marker "b" false rfl
  have hpart : reference "b" ∈ chained.children := by simp [chained, children]
  have hstands : (reference "b").StandsIn chained := .part hpart .here
  have hmet : reference "b" ∈ chained.metMarkers :=
    mem_metMarkers_iff.mpr ⟨.part rfl hpart .here, rfl⟩
  refine ⟨hstands, hnamed, (columnsIn_keeps_iff hstands hnamed "" (some 1)).2.mpr ?_⟩
  exact ⟨⟨_, shownAs_chained⟩, _, hmet, .inl hnamed⟩

/-- The column of a marker in the receiver of another one is lost. -/
theorem columnsIn_loses_receiver :
    (reference "a").StandsIn chained ∧ (reference "a").NamesColumn "a" ∧
      columnsIn chained "" (some 1) = .ok ["b"] ∧
      ¬ Keeps "a" (columnsIn chained "" (some 1)) := by
  have hcallee : (Expr.member (reference "a") columnWord).children = [reference "a"] := rfl
  have hcolumns : columnsIn chained "" (some 1) = .ok ["b"] := by
    rw [columnsIn_of_shown shownAs_chained]
    rfl
  refine ⟨?_, .marker "a" false rfl, hcolumns, ?_⟩
  · refine .part (List.mem_cons_of_mem _ (List.mem_cons_of_mem _ List.mem_cons_self)) ?_
    exact .part List.mem_cons_self (.part List.mem_cons_self .here)
  · rw [hcolumns]
    simp [Keeps]

end Block

end TableAudit
