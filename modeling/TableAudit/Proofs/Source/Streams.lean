import Mathlib.Logic.Function.Basic
import TableAudit.Proofs.Check.Course
import TableAudit.Proofs.Source.Steady

namespace TableAudit

/-- What is left of a stream. -/
def World.left (world : World) (number : Nat) : List Value :=
  world.streams.getD number []

theorem World.left_drain (world : World) (number : Nat) :
    (world.drain number).2.left = Function.update world.left number [] := by
  funext other
  unfold World.left drain
  by_cases h : other = number
  · subst h
    rw [Function.update_self]
    by_cases hlength : other < world.streams.length <;> simp [hlength]
  · rw [Function.update_of_ne h]
    simp [Ne.symm h]

/-- Judging a predicate leaves the streams as they are. -/
def Judge.Spares (judge : Judge) (predicate : Callable) : Prop :=
  ∀ values world, (judge predicate values world).2.left = world.left

/-- All predicates that there are leave the streams as they are. -/
theorem Callable.spares_evaluate (predicate : Callable) :
    Judge.Spares Callable.evaluate predicate := by
  intro values world
  cases predicate with
  | library p =>
    cases p with
    | counted => rcases values with _ | ⟨first, _ | ⟨second, rest⟩⟩ <;> rfl
    | _ => rfl
  | builtin b => rfl
  | defined number path => rfl

namespace Source

variable {columns : List (Value × Value)}

theorem lookupColumn_of_lookup {name : String} {column : Value}
    (h : Value.lookup columns (.text name) = some column) :
    lookupColumn columns (.text name) = .ok column := by
  simp only [lookupColumn, Value.asKey, Value.changeable?, bind, Except.bind, h]
  rfl

theorem column_mapping_stream {name : String} {number : Nat}
    (h : Value.lookup columns (.text name) = some (.stream number)) (world : World) :
    (mapping columns).column (.text name) world =
      (.ok (.list (world.left number)), (world.drain number).2) := by
  simp only [column, lookupColumn_of_lookup h]
  rfl

theorem column_mapping_kept {name : String}
    (h : ∀ number, Value.lookup columns (.text name) ≠ some (.stream number)) :
    ∃ answer, ∀ world, (mapping columns).column (.text name) world = (answer, world) := by
  cases hlookup : Value.lookup columns (.text name) with
  | none =>
    refine ⟨.error ⟨.keyError, [.text name]⟩, fun world => ?_⟩
    simp only [column, lookupColumn, Value.asKey, Value.changeable?, bind, Except.bind, hlookup]
    rfl
  | some found =>
    have hfound := lookupColumn_of_lookup hlookup
    by_cases hsequence : isSequence found = true
    · exact ⟨.ok found, fun world => by simp only [column, hfound, materialize, hsequence, if_true]⟩
    · obtain ⟨items, hitems⟩ :=
        collect_of_not_stream fun number hstream => h number (hstream ▸ hlookup)
      refine ⟨items.map .list, fun world => ?_⟩
      simp only [column, hfound, materialize, hsequence, Bool.false_eq_true, if_false, hitems]

/-- The names of a mapping are its keys, unless one of them cannot be a member of a set. -/
theorem available_mapping (columns : List (Value × Value)) :
    ∃ answer, (∀ world, (mapping columns).available world = (answer, world)) ∧
      ∀ names, answer = .ok names → names = columns.map Prod.fst := by
  refine ⟨(columns.map Prod.fst).mapM Value.asKey, fun world => rfl, fun names h => ?_⟩
  rw [mapM_eq_ok_iff] at h
  generalize columns.map Prod.fst = keys at h ⊢
  induction h with
  | nil => rfl
  | @cons key name keys names hkey _ ih =>
    have hname : name = key := by
      unfold Value.asKey at hkey
      split at hkey <;> cases hkey
      rfl
    rw [hname, ih]

/-- Columns of a mapping served one after the other, from what is left of the streams to what is
    left afterwards. -/
inductive Serves (columns : List (Value × Value)) :
    (Nat → List Value) → List String → List Value → (Nat → List Value) → Prop
  | nil (left : Nat → List Value) : Serves columns left [] [] left
  | stream {left after : Nat → List Value} {name : String} {names : List String}
      {served : List Value} {number : Nat}
      (hname : Value.lookup columns (.text name) = some (.stream number))
      (hrest : Serves columns (Function.update left number []) names served after) :
      Serves columns left (name :: names) (.list (left number) :: served) after
  | kept {left after : Nat → List Value} {name : String} {names : List String} {column : Value}
      {served : List Value}
      (hname : ∀ number, Value.lookup columns (.text name) ≠ some (.stream number))
      (hcolumn : ∀ world, (mapping columns).column (.text name) world = (.ok column, world))
      (hrest : Serves columns left names served after) :
      Serves columns left (name :: names) (column :: served) after

/-- One of the columns is a stream. -/
def Reads (columns : List (Value × Value)) (names : List String) (number : Nat) : Prop :=
  ∃ name ∈ names, Value.lookup columns (.text name) = some (.stream number)

theorem reads_cons_iff {name : String} {names : List String} {number : Nat} :
    Reads columns (name :: names) number ↔
      Value.lookup columns (.text name) = some (.stream number) ∨ Reads columns names number := by
  unfold Reads
  rw [List.exists_mem_cons_iff]

namespace Serves

variable {left after : Nat → List Value} {names : List String} {served : List Value}

/-- A stream is left empty if it was one of the columns, and as it was if not. -/
theorem after_eq (h : Serves columns left names served after) (number : Nat) :
    (Reads columns names number → after number = []) ∧
      (¬ Reads columns names number → after number = left number) := by
  induction h with
  | nil left => exact ⟨fun ⟨_, hmem, _⟩ => absurd hmem List.not_mem_nil, fun _ => rfl⟩
  | @stream left after name names served other hname hrest ih =>
    rw [reads_cons_iff, hname, Option.some.injEq, Value.stream.injEq]
    by_cases hnumber : other = number
    · subst hnumber
      refine ⟨fun _ => ?_, fun hnone => absurd (.inl rfl) hnone⟩
      by_cases hagain : Reads columns names other
      · exact ih.1 hagain
      · rw [ih.2 hagain, Function.update_self]
    · rw [Function.update_of_ne (Ne.symm hnumber)] at ih
      exact ⟨fun hreads => ih.1 (hreads.resolve_left hnumber), fun hnone => ih.2 (mt .inr hnone)⟩
  | @kept left after name names column served hname hcolumn hrest ih =>
    rw [reads_cons_iff]
    exact ⟨fun hreads => ih.1 (hreads.resolve_left (hname number)), fun hnone => ih.2 (mt .inr hnone)⟩

theorem length_eq (h : Serves columns left names served after) : served.length = names.length := by
  induction h with
  | nil left => rfl
  | stream _ _ ih => rw [List.length_cons, List.length_cons, ih]
  | kept _ _ _ ih => rw [List.length_cons, List.length_cons, ih]

/-- Where a stream had something left for one reader and nothing for another, some column is served
    with items to the one and empty to the other. -/
theorem exists_emptied {other : Nat → List Value} {others : List Value}
    {reached : Nat → List Value} {number : Nat} (h : Serves columns left names served after)
    (hothers : Serves columns other names others reached) (hreads : Reads columns names number)
    (hleft : left number ≠ []) (hother : other number = []) :
    ∃ (index : Nat) (items : List Value), served[index]? = some (Value.list items) ∧ items ≠ [] ∧
      others[index]? = some (Value.list []) := by
  induction h generalizing other others with
  | nil left =>
    obtain ⟨_, hmem, _⟩ := hreads
    exact absurd hmem List.not_mem_nil
  | @stream left after name names served first hname hrest ih =>
    cases hothers with
    | @stream _ _ _ _ others second hsecond hothers =>
      obtain rfl : first = second := by
        rw [hname] at hsecond
        cases hsecond
        rfl
      -- the first column that is the stream takes all that is left of it in both courses
      by_cases hfirst : first = number
      · subst hfirst
        exact ⟨0, left first, rfl, hleft, by rw [hother]; rfl⟩
      · rw [reads_cons_iff, hname, Option.some.injEq, Value.stream.injEq] at hreads
        have hkept := fun (f : Nat → List Value) =>
          Function.update_of_ne (Ne.symm hfirst) ([] : List Value) f
        obtain ⟨index, items, hitems, hne, hempty⟩ := ih hothers (hreads.resolve_left hfirst)
          (by rwa [hkept]) (by rwa [hkept])
        exact ⟨index + 1, items, hitems, hne, hempty⟩
    | kept hkept _ _ => exact absurd hname (hkept first)
  | @kept left after name names column served hname hcolumn hrest ih =>
    cases hothers with
    | stream hsecond _ => exact absurd hsecond (hname _)
    | kept _ _ hothers =>
      rw [reads_cons_iff] at hreads
      obtain ⟨index, items, hitems, hne, hempty⟩ :=
        ih hothers (hreads.resolve_left (hname number)) hleft hother
      exact ⟨index + 1, items, hitems, hne, hempty⟩

end Serves

/-- Fetching columns of a mapping serves them all, or ends in an error. -/
theorem serves_fetchColumns (judge : Judge) (columns : List (Value × Value)) (names : List String)
    (fetched : List Value) (next : List Value → Inquiry Outcome) (world : World) :
    (∃ served reached, Serves columns world.left names served reached.left ∧
      (Check.fetchColumns names fetched next).run ((mapping columns).under judge) world =
        (next (fetched ++ served)).run ((mapping columns).under judge) reached) ∨
    ∃ error, ((Check.fetchColumns names fetched next).run ((mapping columns).under judge) world).1 =
      .error (.raised error) := by
  induction names generalizing fetched world with
  | nil => exact .inl ⟨[], world, .nil _, by rw [List.append_nil]; rfl⟩
  | cons name rest ih =>
    have hcolumn : ((mapping columns).under judge).column name world =
        (mapping columns).column (.text name) world := rfl
    rw [Check.fetchColumns, Inquiry.run, hcolumn]
    by_cases hstream : ∃ number, Value.lookup columns (.text name) = some (.stream number)
    · obtain ⟨number, hname⟩ := hstream
      rw [column_mapping_stream hname]
      rcases ih (fetched ++ [.list (world.left number)]) (world.drain number).2 with
        ⟨served, reached, hserves, hrun⟩ | herror
      · rw [World.left_drain] at hserves
        rw [List.append_assoc] at hrun
        exact .inl ⟨_, reached, .stream hname hserves, hrun⟩
      · exact .inr herror
    · rw [not_exists] at hstream
      obtain ⟨answer, hanswer⟩ := column_mapping_kept hstream
      rw [hanswer]
      cases answer with
      | error error => exact .inr ⟨error, rfl⟩
      | ok column =>
        rcases ih (fetched ++ [column]) world with ⟨served, reached, hserves, hrun⟩ | herror
        · rw [List.append_assoc] at hrun
          exact .inl ⟨_, reached, .kept hstream hanswer hserves, hrun⟩
        · exact .inr herror

end Source

namespace Check

variable {judge : Judge} {check : Check} {columns : List (Value × Value)}

/-- A check that has all its columns among those of a mapping. -/
def Served (check : Check) (columns : List (Value × Value)) : Prop :=
  ∀ name ∈ check.columns, Value.text name ∈ columns.map Prod.fst

/-- The streams that a check reads: those among its columns, if it has them all. -/
def Draws (check : Check) (columns : List (Value × Value)) (number : Nat) : Prop :=
  check.Served columns ∧ Source.Reads columns check.columns number

/-- The course of a check on a mapping that has an outcome: some columns are missing and no stream is
    read, or all are served and judged. -/
theorem run_mapping_cases {world : World} {outcome : Outcome}
    (h : (check.inquire.run ((Source.mapping columns).under judge) world).1 = .ok outcome) :
    (¬ check.Served columns ∧
      (check.inquire.run ((Source.mapping columns).under judge) world).2.left = world.left) ∨
    check.Served columns ∧ ∃ served reached,
      Source.Serves columns world.left check.columns served reached.left ∧
      check.inquire.run ((Source.mapping columns).under judge) world =
        (check.inquireColumns served).run ((Source.mapping columns).under judge) reached := by
  obtain ⟨answer, hanswer, hnames⟩ := Source.available_mapping columns
  have hask : ((Source.mapping columns).under judge).names world = (answer, world) := hanswer world
  rw [inquire, Inquiry.run, hask] at h ⊢
  cases answer with
  | error error => cases h
  | ok available =>
    obtain rfl := hnames available rfl
    dsimp only at h ⊢
    have hserved : check.missingColumns (columns.map Prod.fst) = [] ↔ check.Served columns :=
      missingColumns_eq_nil_iff check _
    cases hmissing : check.missingColumns (columns.map Prod.fst) with
    | nil =>
      rw [hmissing] at h
      refine .inr ⟨hserved.mp hmissing, ?_⟩
      rcases Source.serves_fetchColumns judge columns check.columns [] check.inquireColumns world with
        ⟨served, reached, hserves, hrun⟩ | ⟨error, herror⟩
      · exact ⟨served, reached, hserves, hrun⟩
      · rw [herror] at h
        cases h
    | cons name others =>
      rw [hmissing] at h
      refine .inl ⟨fun hall => ?_, rfl⟩
      rw [hserved.mpr hall] at hmissing
      cases hmissing

theorem exists_serves {world : World} {outcome : Outcome} (hserved : check.Served columns)
    (h : (check.inquire.run ((Source.mapping columns).under judge) world).1 = .ok outcome) :
    ∃ served reached, Source.Serves columns world.left check.columns served reached.left ∧
      ((check.inquireColumns served).run ((Source.mapping columns).under judge) reached).1 =
        .ok outcome := by
  rcases run_mapping_cases h with ⟨hmissing, -⟩ | ⟨-, served, reached, hserves, hrun⟩
  · exact absurd hserved hmissing
  · rw [hrun] at h
    exact ⟨served, reached, hserves, h⟩

/-- Judging columns that were fetched leaves the streams as they are. -/
theorem left_inquireColumns (hspares : judge.Spares check.predicate) (source : Source)
    (served : List Value) (world : World) :
    ((check.inquireColumns served).run (source.under judge) world).2.left = world.left := by
  have hmatched : (source.under judge).Matched check.Verdicts
      (fun s t => s = t ∧ s.left = world.left) (source.under judge) := by
    refine ⟨nofun, nofun, fun predicate hpredicate values s t hst => ?_, fun entry s t hst => ?_⟩
    · cases hpredicate
      obtain ⟨rfl, hleft⟩ := hst
      exact ⟨rfl, rfl, (hspares values s).trans hleft⟩
    · obtain ⟨rfl, hleft⟩ := hst
      exact ⟨rfl, hleft⟩
  have hrelated : world = world ∧ world.left = world.left := ⟨rfl, rfl⟩
  exact (Inquiry.run_of_matched hmatched (within_inquireColumns check served) hrelated).2.2

/-- A check that has an outcome leaves the streams that it reads empty, and the others as they
    were. -/
theorem left_run_mapping (hspares : judge.Spares check.predicate) {world : World}
    {outcome : Outcome}
    (h : (check.inquire.run ((Source.mapping columns).under judge) world).1 = .ok outcome)
    (number : Nat) :
    (check.Draws columns number →
      (check.inquire.run ((Source.mapping columns).under judge) world).2.left number = []) ∧
    (¬ check.Draws columns number →
      (check.inquire.run ((Source.mapping columns).under judge) world).2.left number =
        world.left number) := by
  rcases run_mapping_cases h with ⟨hmissing, hleft⟩ | ⟨hall, served, reached, hserves, hrun⟩
  · rw [hleft]
    exact ⟨fun hdraws => absurd hdraws.1 hmissing, fun _ => rfl⟩
  · rw [hrun, left_inquireColumns hspares]
    obtain ⟨hread, hkept⟩ := hserves.after_eq number
    exact ⟨fun hdraws => hread hdraws.2, fun hdraws => hkept fun hreads => hdraws ⟨hall, hreads⟩⟩

/-- A mapping answers a check with a pure predicate alike in worlds with the same left of the streams
    among its columns. -/
theorem matched_mapping (hpure : judge.Pure check.predicate)
    (hspares : judge.Spares check.predicate) :
    ((Source.mapping columns).under judge).Matched check.Requests
      (fun s t => ∀ number, Source.Reads columns check.columns number →
        s.left number = t.left number) ((Source.mapping columns).under judge) := by
  obtain ⟨answer, hanswer, -⟩ := Source.available_mapping columns
  have hask (world : World) : ((Source.mapping columns).under judge).names world = (answer, world) :=
    hanswer world
  refine ⟨fun _ s t hst => ?_, fun name hname s t hst => ?_,
    fun predicate hpredicate values s t hst => ?_, fun entry s t hst => hst⟩
  · rw [hask, hask]
    exact ⟨rfl, hst⟩
  · have hcolumn (world : World) : ((Source.mapping columns).under judge).column name world =
        (Source.mapping columns).column (.text name) world := rfl
    rw [hcolumn, hcolumn]
    by_cases hstream : ∃ number, Value.lookup columns (.text name) = some (.stream number)
    · obtain ⟨number, hnumber⟩ := hstream
      rw [Source.column_mapping_stream hnumber, Source.column_mapping_stream hnumber,
        hst number ⟨name, hname, hnumber⟩]
      refine ⟨rfl, fun other hreads => ?_⟩
      rw [World.left_drain, World.left_drain, Function.update_apply, Function.update_apply,
        hst other hreads]
    · rw [not_exists] at hstream
      obtain ⟨column, hkept⟩ := Source.column_mapping_kept hstream
      rw [hkept, hkept]
      exact ⟨rfl, hst⟩
  · cases hpredicate
    refine ⟨hpure values s t, fun number hreads => ?_⟩
    dsimp only [Source.under]
    rw [hspares values s, hspares values t, hst number hreads]

/-- A check with a pure predicate ends the same in two worlds with the same left of the streams that
    it reads. -/
theorem run_mapping_eq (hpure : judge.Pure check.predicate)
    (hspares : judge.Spares check.predicate) {s t : World}
    (h : ∀ number, check.Draws columns number → s.left number = t.left number) :
    (check.inquire.run ((Source.mapping columns).under judge) s).1 =
      (check.inquire.run ((Source.mapping columns).under judge) t).1 := by
  by_cases hall : check.Served columns
  · have hst : ∀ number, Source.Reads columns check.columns number → s.left number = t.left number :=
      fun number hreads => h number ⟨hall, hreads⟩
    exact (Inquiry.run_of_matched (matched_mapping hpure hspares) (within_inquire check) hst).1
  · obtain ⟨answer, hanswer, hnames⟩ := Source.available_mapping columns
    have hask (world : World) :
        ((Source.mapping columns).under judge).names world = (answer, world) := hanswer world
    rw [inquire, Inquiry.run, Inquiry.run, hask, hask]
    cases answer with
    | error error => rfl
    | ok available =>
      obtain rfl := hnames available rfl
      dsimp only
      cases hmissing : check.missingColumns (columns.map Prod.fst) with
      | nil => exact absurd ((missingColumns_eq_nil_iff check _).mp hmissing) hall
      | cons name others => rfl

end Check

end TableAudit
