import Mathlib.Data.List.Basic
import TableAudit.Block.Compile

namespace TableAudit.Expr

/-- What holds of an expression whenever it holds of all its parts holds of every expression. -/
theorem inductionOnChildren {motive : Expr → Prop}
    (step : ∀ e, (∀ part ∈ e.children, motive part) → motive e) (e : Expr) : motive e := by
  induction hsize : sizeOf e using Nat.strongRecOn generalizing e with
  | ind size ih =>
    subst hsize
    exact step e fun part hpart => ih _ (sizeOf_lt_of_mem_children hpart) part rfl

/-- A name, or a name with members of it: the names from the left to the right. -/
inductive IsPath : Expr → List String → Prop
  | name (id : String) : IsPath (.name id) [id]
  | member {value : Expr} {path : List String} (attr : String) (h : IsPath value path) :
      IsPath (.member value attr) (path ++ [attr])

theorem reversedPath?_eq_some_iff (e : Expr) (path : List String) :
    e.reversedPath? = some path ↔ e.IsPath path.reverse := by
  constructor
  · intro h
    induction e using reversedPath?.induct generalizing path with
    | case1 id =>
      cases h
      exact .name id
    | case2 value attr ih =>
      rw [reversedPath?, Option.map_eq_some_iff] at h
      obtain ⟨front, hfront, rfl⟩ := h
      rw [List.reverse_cons]
      exact .member attr (ih front hfront)
    | case3 e hname hmember =>
      rw [reversedPath?] at h
      · cases h
      · exact hname
      · exact hmember
  · intro h
    generalize hreversed : path.reverse = reversed at h
    rw [List.reverse_eq_iff] at hreversed
    subst hreversed
    induction h with
    | name id => rfl
    | member attr h ih => rw [reversedPath?, ih, List.reverse_append]; rfl

theorem path?_eq_some_iff (e : Expr) (path : List String) :
    e.path? = some path ↔ e.IsPath path := by
  rw [path?, Option.map_eq_some_iff]
  constructor
  · rintro ⟨reversed, hreversed, rfl⟩
    exact (reversedPath?_eq_some_iff e reversed).mp hreversed
  · intro h
    refine ⟨path.reverse, (reversedPath?_eq_some_iff e _).mpr ?_, List.reverse_reverse path⟩
    rwa [List.reverse_reverse]

theorem IsPath.ne_nil {e : Expr} {path : List String} (h : e.IsPath path) : path ≠ [] := by
  cases h with
  | name id => exact List.cons_ne_nil _ _
  | member attr h => simp

/-- A path is a word if it ends in it. -/
theorem IsPath.isWord_iff {e : Expr} {path : List String} (h : e.IsPath path) (word : String) :
    e.isWord word = true ↔ path.getLast? = some word := by
  cases h with
  | name id => simp [isWord]
  | member attr h => simp [isWord]

theorem IsPath.isWord_eq_false {e : Expr} {path : List String} {word : String} (h : e.IsPath path)
    (hword : path.getLast? ≠ some word) : e.isWord word = false := by
  rw [← Bool.not_eq_true, h.isWord_iff]
  exact hword

/-- No markers stand in a path. -/
theorem IsPath.markers_eq_nil {e : Expr} {path : List String} (h : e.IsPath path) :
    e.markers = [] := by
  induction h with
  | name id => rw [markers]
  | member attr h ih => rw [markers, ih]

mutual

/-- The columns that an expression refers to, once for each marker in the order in which the markers
    are met. A marker has a text literal as its one argument, and nothing is looked for inside; any
    other expression refers to what its parts refer to. -/
inductive Refers : Expr → List String → Prop
  | marker {function : Expr} {names : List (Option String)} (column : String) (marked : Bool)
      (hfunction : function.isWord columnWord = true) :
      Refers (.call function [.literal (.text column marked)] names []) [column]
  | parts {e : Expr} {columns : List String} (hplain : e.isMarker columnWord = false)
      (hparts : RefersAll e.children columns) : Refers e columns

/-- The columns that expressions refer to, one expression after the other. -/
inductive RefersAll : List Expr → List String → Prop
  | nil : RefersAll [] []
  | cons {e : Expr} {rest : List Expr} {columns others : List String} (hfirst : Refers e columns)
      (hrest : RefersAll rest others) : RefersAll (e :: rest) (columns ++ others)

end

theorem text?_eq_some_iff (e : Expr) (value : String) :
    e.text? = some value ↔ ∃ marked, e = .literal (.text value marked) := by
  constructor
  · intro h
    unfold text? at h
    split at h
    · next text marked =>
      cases h
      exact ⟨marked, rfl⟩
    · cases h
  · rintro ⟨marked, rfl⟩
    rfl

theorem markedColumn?_eq_some_iff (args values : List Expr) (column : String) :
    markedColumn? args values = some column ↔
      ∃ marked, args = [.literal (.text column marked)] ∧ values = [] := by
  constructor
  · intro h
    unfold markedColumn? at h
    split at h
    · obtain ⟨marked, rfl⟩ := (text?_eq_some_iff _ column).mp h
      exact ⟨marked, rfl, rfl⟩
    · cases h
  · rintro ⟨marked, rfl, rfl⟩
    rfl

theorem refersAll_iff_of_forall {es : List Expr}
    (h : ∀ e ∈ es, ∀ columns, e.Refers columns ↔ e.markers = columns.map some)
    (columns : List String) : RefersAll es columns ↔ es.flatMap markers = columns.map some := by
  induction es generalizing columns with
  | nil =>
    constructor
    · intro hall
      cases hall
      rfl
    · intro heq
      rw [List.flatMap_nil, eq_comm, List.map_eq_nil_iff] at heq
      subst heq
      exact .nil
  | cons e rest ih =>
    have hrest := ih fun other hother => h other (List.mem_cons_of_mem _ hother)
    constructor
    · intro hall
      cases hall with
      | cons hfirst hothers =>
        rw [List.flatMap_cons, List.map_append, (h e List.mem_cons_self _).mp hfirst,
          (hrest _).mp hothers]
    · intro heq
      rw [List.flatMap_cons, eq_comm, List.map_eq_append_iff] at heq
      obtain ⟨first, others, rfl, hfirst, hothers⟩ := heq
      exact .cons ((h e List.mem_cons_self _).mpr hfirst.symm) ((hrest _).mpr hothers.symm)

theorem isMarker_eq_true_iff (word : String) (e : Expr) :
    e.isMarker word = true ↔
      ∃ function args names values, e = .call function args names values ∧
        function.isWord word = true := by
  constructor
  · intro h
    unfold isMarker at h
    split at h
    · exact ⟨_, _, _, _, rfl, h⟩
    · cases h
  · rintro ⟨function, args, names, values, rfl, h⟩
    exact h

/-- A marker refers to one column if it is well formed, and to nothing otherwise. -/
theorem refers_marker_iff {function : Expr} (hfunction : function.isWord columnWord = true)
    (args : List Expr) (names : List (Option String)) (values : List Expr)
    (columns : List String) :
    (call function args names values).Refers columns ↔
      ∃ column, markedColumn? args values = some column ∧ columns = [column] := by
  constructor
  · intro h
    cases h with
    | marker column marked _ => exact ⟨column, rfl, rfl⟩
    | parts hplain _ =>
      rw [isMarker, hfunction] at hplain
      cases hplain
  · rintro ⟨column, hcolumn, rfl⟩
    obtain ⟨marked, rfl, rfl⟩ := (markedColumn?_eq_some_iff args values column).mp hcolumn
    exact .marker column marked hfunction

/-- What an expression refers to is what is read off it, when all its markers are well formed. -/
theorem refers_iff_markers (e : Expr) (columns : List String) :
    e.Refers columns ↔ e.markers = columns.map some := by
  induction e using inductionOnChildren generalizing columns with
  | step e ih =>
    cases hmarker : e.isMarker columnWord with
    | true =>
      obtain ⟨function, args, names, values, rfl, hfunction⟩ :=
        (isMarker_eq_true_iff columnWord e).mp hmarker
      rw [refers_marker_iff hfunction, markers, if_pos hfunction]
      constructor
      · rintro ⟨column, hcolumn, rfl⟩
        rw [hcolumn, List.map_singleton]
      · intro heq
        obtain ⟨column, rfl, hcolumn⟩ := List.map_eq_singleton_iff.mp heq.symm
        exact ⟨column, hcolumn.symm, rfl⟩
    | false =>
      have hparts := refersAll_iff_of_forall ih
      rw [markers_eq_flatMap_children e hmarker, ← hparts]
      constructor
      · intro h
        cases h with
        | marker column marked hfunction =>
          rw [isMarker, hfunction] at hmarker
          cases hmarker
        | parts _ hall => exact hall
      · exact .parts hmarker

theorem refersAll_iff_markersAll (es : List Expr) (columns : List String) :
    RefersAll es columns ↔ es.flatMap markers = columns.map some :=
  refersAll_iff_of_forall (fun e _ columns => refers_iff_markers e columns) columns

theorem Refers.unique {e : Expr} {columns others : List String} (h : e.Refers columns)
    (hothers : e.Refers others) : columns = others := by
  rw [refers_iff_markers] at h hothers
  exact List.map_injective_iff.mpr (fun _ _ => Option.some.inj) (h.symm.trans hothers)

/-- A call that is no marker, of a path, refers to what its positional arguments refer to. -/
theorem refers_call_iff {function : Expr} {path : List String} (hpath : function.IsPath path)
    (hplain : function.isWord columnWord = false) (args : List Expr) (columns : List String) :
    (call function args [] []).Refers columns ↔ RefersAll args columns := by
  have hmarker : (call function args [] []).isMarker columnWord = false := hplain
  rw [refers_iff_markers, markers_eq_flatMap_children _ hmarker, refersAll_iff_markersAll, children,
    List.append_nil, List.flatMap_cons, hpath.markers_eq_nil, List.nil_append]

theorem RefersAll.exists_of_mem {es : List Expr} {columns : List String} (h : RefersAll es columns)
    {e : Expr} (he : e ∈ es) : ∃ names, e.Refers names := by
  induction es generalizing columns with
  | nil => cases he
  | cons first rest ih =>
    cases h with
    | cons hfirst hrest =>
      cases he with
      | head => exact ⟨_, hfirst⟩
      | tail _ he => exact ih hrest he

theorem exists_refersAll {es : List Expr} (h : ∀ e ∈ es, ∃ names, e.Refers names) :
    ∃ columns, RefersAll es columns := by
  induction es with
  | nil => exact ⟨[], .nil⟩
  | cons first rest ih =>
    obtain ⟨names, hfirst⟩ := h first List.mem_cons_self
    obtain ⟨columns, hrest⟩ := ih fun e he => h e (List.mem_cons_of_mem _ he)
    exact ⟨names ++ columns, .cons hfirst hrest⟩

/-- Arguments that all refer to columns refer to one, unless there are none. -/
theorem RefersAll.eq_nil_iff {args : List Expr} {columns : List String}
    (h : RefersAll args columns) (hreferring : ∀ arg ∈ args, ¬ arg.Refers []) :
    columns = [] ↔ args = [] := by
  cases h with
  | nil => simp
  | @cons arg rest first others hfirst hrest =>
    have hcolumns : first ≠ [] := by
      rintro rfl
      exact hreferring arg List.mem_cons_self hfirst
    simp [hcolumns]

/-- Adding columns one by one adds those that are new, each where it first occurs. -/
theorem foldl_addColumn (names found : List String) :
    names.foldl addColumn found =
      found ++ (names.filter fun name => !found.contains name).eraseDups := by
  induction names generalizing found with
  | nil => simp
  | cons name rest ih =>
    rw [List.foldl_cons, ih, addColumn]
    by_cases hname : name ∈ found
    · simp [hname]
    · simp [hname, List.eraseDups_cons, List.filter_filter, Bool.and_comm, beq_eq_decide]

theorem eraseDups_eq_foldl (names : List String) :
    names.eraseDups = names.foldl addColumn [] := by
  simp [foldl_addColumn]

/-- Columns that were collected apart can be added to others as they were met. -/
theorem foldl_foldl_addColumn (names base found : List String) :
    (names.foldl addColumn base).foldl addColumn found =
      names.foldl addColumn (base.foldl addColumn found) := by
  induction names generalizing base with
  | nil => rfl
  | cons name rest ih =>
    rw [List.foldl_cons, List.foldl_cons, ih]
    congr 1
    by_cases hname : name ∈ base
    · have hall : name ∈ base.foldl addColumn found := by
        simp only [foldl_addColumn, List.mem_append, List.mem_eraseDups, List.mem_filter]
        by_cases hfound : name ∈ found
        · exact .inl hfound
        · exact .inr ⟨hname, by simp [hfound]⟩
      simp [addColumn, hname, hall]
    · rw [addColumn, if_neg (by simpa using hname), List.foldl_append]
      rfl

/-- Lists of columns that were collected apart have the columns of all of them together. -/
theorem eraseDups_flatten_map_eraseDups (lists : List (List String)) :
    (lists.map List.eraseDups).flatten.eraseDups = lists.flatten.eraseDups := by
  have hfold (found : List String) : (lists.map List.eraseDups).flatten.foldl addColumn found =
      lists.flatten.foldl addColumn found := by
    induction lists generalizing found with
    | nil => rfl
    | cons list rest ih =>
      rw [List.map_cons, List.flatten_cons, List.flatten_cons, List.foldl_append,
        List.foldl_append, ih, eraseDups_eq_foldl, foldl_foldl_addColumn]
      rfl
  rw [eraseDups_eq_foldl, eraseDups_eq_foldl, hfold]

/-- What has been collected is what was found before and the columns of the markers, in the order in
    which they are met. -/
def Collects (found : List String) (marks : List (Option String)) (all : List String) : Prop :=
  ∃ names : List String, marks = names.map some ∧ all = names.foldl addColumn found

theorem collects_append_iff {found all : List String} {marks more : List (Option String)} :
    Collects found (marks ++ more) all ↔
      ∃ first, Collects found marks first ∧ Collects first more all := by
  constructor
  · rintro ⟨names, hnames, rfl⟩
    obtain ⟨before, after, rfl, rfl, rfl⟩ := List.append_eq_map_iff.mp hnames
    exact ⟨_, ⟨before, rfl, rfl⟩, after, rfl, List.foldl_append⟩
  · rintro ⟨_, ⟨before, rfl, rfl⟩, after, rfl, rfl⟩
    exact ⟨before ++ after, List.map_append.symm, List.foldl_append.symm⟩

theorem foldlM_collect_eq_some_iff {es : List Expr}
    (h : ∀ e ∈ es, ∀ found all, e.collect found = some all ↔ Collects found e.markers all)
    (found all : List String) :
    es.foldlM (fun found e => collect e found) found = some all ↔
      Collects found (es.flatMap markers) all := by
  induction es generalizing found with
  | nil =>
    rw [List.foldlM_nil, List.flatMap_nil]
    constructor
    · intro heq
      cases heq
      exact ⟨[], rfl, rfl⟩
    · rintro ⟨names, hnames, rfl⟩
      obtain rfl := List.map_eq_nil_iff.mp hnames.symm
      rfl
  | cons e rest ih =>
    have hrest := ih fun other hother => h other (List.mem_cons_of_mem _ hother)
    rw [List.foldlM_cons, List.flatMap_cons, collects_append_iff, Option.bind_eq_bind,
      Option.bind_eq_some_iff]
    simp only [h e List.mem_cons_self, hrest]

/-- Collecting meets the markers of an expression in their order. -/
theorem collect_eq_some_iff (e : Expr) (found all : List String) :
    e.collect found = some all ↔ Collects found e.markers all := by
  induction e using inductionOnChildren generalizing found all with
  | step e ih =>
    cases hmarker : e.isMarker columnWord with
    | true =>
      obtain ⟨function, args, names, values, rfl, hfunction⟩ :=
        (isMarker_eq_true_iff columnWord e).mp hmarker
      rw [collect, markers, if_pos hfunction, if_pos hfunction, Option.map_eq_some_iff]
      constructor
      · rintro ⟨column, hcolumn, rfl⟩
        exact ⟨[column], by rw [hcolumn, List.map_singleton], rfl⟩
      · rintro ⟨columns, hcolumns, rfl⟩
        obtain ⟨column, rfl, hcolumn⟩ := List.map_eq_singleton_iff.mp hcolumns.symm
        exact ⟨column, hcolumn.symm, rfl⟩
    | false =>
      rw [collect_eq_foldlM_children e hmarker, markers_eq_flatMap_children e hmarker]
      exact foldlM_collect_eq_some_iff ih found all

/-- The columns of an expression are what it refers to, each where it first occurs. -/
theorem columns?_eq_some_iff (e : Expr) (columns : List String) :
    e.columns? = some columns ↔ ∃ names, e.Refers names ∧ names.eraseDups = columns := by
  rw [columns?, collect_eq_some_iff, Collects]
  simp only [refers_iff_markers, eraseDups_eq_foldl, eq_comm]

end TableAudit.Expr
