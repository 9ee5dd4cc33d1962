import Mathlib.Data.List.Forall2
import TableAudit.Proofs.Check.Course
import TableAudit.Proofs.Inquiry.Agreement
import TableAudit.Proofs.Inquiry.Course

namespace TableAudit

/-- A column has these values, in number and by position. -/
structure Value.Holds (column : Value) (items : List Value) : Prop where
  length : column.length = .ok items.length
  item : ∀ {index : Nat} {value : Value}, items[index]? = some value →
    column.item index = .ok value

/-- Two columns have the same values. -/
def Value.Alike (column other : Value) : Prop :=
  ∃ items, column.Holds items ∧ other.Holds items

namespace Value.Alike

variable {column other : Value}

theorem length_eq (h : column.Alike other) : column.length = other.length := by
  obtain ⟨items, hcolumn, hother⟩ := h
  rw [hcolumn.length, hother.length]

theorem item_eq (h : column.Alike other) {count index : Nat} (hlength : column.length = .ok count)
    (hindex : index < count) : column.item index = other.item index := by
  obtain ⟨items, hcolumn, hother⟩ := h
  rw [hcolumn.length, Except.ok.injEq] at hlength
  have hvalue := List.getElem?_eq_getElem (hlength ▸ hindex)
  rw [hcolumn.item hvalue, hother.item hvalue]

end Value.Alike

/-- Going through two lists gives the same where their items do. -/
theorem mapM_congr_of_forall₂ {α β ε : Type} {f : α → Except ε β} {items others : List α}
    (h : List.Forall₂ (fun item other => f item = f other) items others) :
    items.mapM f = others.mapM f := by
  induction h with
  | nil => rfl
  | cons hfirst _ ih => rw [List.mapM_cons, List.mapM_cons, hfirst, ih]

/-- Surroundings that offer columns: these and no others are named, and each is served with its
    values. -/
structure Surroundings.Offers {σ : Type} (around : Surroundings σ)
    (columns : List (String × List Value)) : Prop where
  names : ∀ state, ∃ available, (around.names state).1 = .ok available ∧
    ∀ name, Value.text name ∈ available ↔ name ∈ columns.map Prod.fst
  column : ∀ entry ∈ columns, ∀ state, ∃ column,
    (around.column entry.1 state).1 = .ok column ∧ column.Holds entry.2

/-- The answer of a call is one that the surroundings give in some state. -/
def Call.GivenBy {σ : Type} (around : Surroundings σ) : Call → Prop
  | .names answer => ∃ state, (around.names state).1 = answer
  | .column name answer => ∃ state, (around.column name state).1 = answer
  | .ask predicate values verdict => ∃ state, (around.ask predicate values state).1 = verdict

theorem Inquiry.Course.givenBy {α σ : Type} {around : Surroundings σ} {inquiry : Inquiry α}
    {calls : List Call} {result : Except Fault α} (h : inquiry.Course around calls result) :
    ∀ call ∈ calls, call.GivenBy around := by
  induction h with
  | done => simp
  | fail => simp
  | names hanswer _ ih => exact List.forall_mem_cons.mpr ⟨⟨_, hanswer⟩, ih⟩
  | namesFail hanswer => exact List.forall_mem_singleton.mpr ⟨_, hanswer⟩
  | column hanswer _ ih => exact List.forall_mem_cons.mpr ⟨⟨_, hanswer⟩, ih⟩
  | columnFail hanswer => exact List.forall_mem_singleton.mpr ⟨_, hanswer⟩
  | ask hanswer _ _ ih => exact List.forall_mem_cons.mpr ⟨⟨_, hanswer⟩, ih⟩
  | askEscape hanswer _ => exact List.forall_mem_singleton.mpr ⟨_, hanswer⟩
  | report _ ih => exact ih

namespace Check

open Inquiry

variable {σ τ : Type} {around : Surroundings σ} {other : Surroundings τ} {check : Check}
  {columns : List (String × List Value)}

section Alike

variable {served others : List Value} (halike : List.Forall₂ Value.Alike served others)

include halike

theorem mapM_length_eq : served.mapM Value.length = others.mapM Value.length :=
  mapM_congr_of_forall₂ (halike.imp fun _ _ h => h.length_eq)

theorem rowAt_eq {count index : Nat} (hlength : ∀ column ∈ served, column.length = .ok count)
    (hindex : index < count) : rowAt served index = rowAt others index := by
  refine mapM_congr_of_forall₂ ?_
  induction halike with
  | nil => exact .nil
  | cons hfirst _ ih =>
    rw [List.forall_mem_cons] at hlength
    exact .cons (hfirst.item_eq hlength.1 hindex) (ih hlength.2)

/-- Rows are evaluated alike as long as the columns go. -/
theorem evaluateRows_eq {total : Nat} (hlength : ∀ column ∈ served, column.length = .ok total)
    (check : Check) (count index : Nat) (hcount : index + count ≤ total) (found : Findings) :
    check.evaluateRows served count index found = check.evaluateRows others count index found := by
  induction count generalizing index found with
  | zero => rfl
  | succ count ih =>
    have hnext := ih (index + 1) (by omega)
    rw [evaluateRows, evaluateRows, rowAt_eq halike hlength (by omega)]
    simp only [hnext]

/-- Of columns a check sees the lengths and the values alone. -/
theorem inquireColumns_eq (check : Check) :
    check.inquireColumns served = check.inquireColumns others := by
  unfold inquireColumns
  rw [← mapM_length_eq halike]
  cases hlengths : served.mapM Value.length with
  | error error => rfl
  | ok lengths =>
    dsimp only
    by_cases hsame : sameLength lengths = true
    · rw [if_pos hsame, if_pos hsame]
      have hall := (mapM_eq_ok_iff _ _ _).mp hlengths
      have hlength : ∀ column ∈ served, column.length = .ok (lengths.headD 0) := by
        intro column hcolumn
        obtain ⟨length, hmem, hlength⟩ := exists_of_forall₂_left hall hcolumn
        rwa [eq_headD_of_sameLength hsame length hmem] at hlength
      rw [evaluate, evaluate, evaluateRows_eq halike hlength check _ 0 (by omega)]
    · rw [if_neg hsame, if_neg hsame]

end Alike

/-- Columns that were served for names, with the values that they are offered with. -/
def Fetched (columns : List (String × List Value)) : List String → List Value → Prop :=
  List.Forall₂ fun name column => ∃ items, (name, items) ∈ columns ∧ column.Holds items

/-- Columns served for the same names are alike. -/
theorem alike_of_fetched (hnodup : (columns.map Prod.fst).Nodup) {names : List String}
    {served others : List Value} (hserved : Fetched columns names served)
    (hothers : Fetched columns names others) : List.Forall₂ Value.Alike served others := by
  induction hserved generalizing others with
  | nil =>
    cases hothers
    exact .nil
  | cons hfirst _ ih =>
    obtain ⟨items, hitems, hholds⟩ := hfirst
    cases hothers with
    | cons hsecond hothers =>
      obtain ⟨again, hagain, hother⟩ := hsecond
      obtain rfl : items = again :=
        congrArg Prod.snd (List.inj_on_of_nodup_map hnodup hitems hagain rfl)
      exact .cons ⟨items, hholds, hother⟩ (ih hothers)

/-- Columns that are offered are all served. -/
theorem exists_fetched (h : around.Offers columns) {names : List String}
    (hnames : ∀ name ∈ names, name ∈ columns.map Prod.fst) (fetched : List Value)
    (next : List Value → Inquiry Outcome) (state : σ) :
    ∃ served reached, Fetched columns names served ∧
      (fetchColumns names fetched next).run around state =
        (next (fetched ++ served)).run around reached := by
  induction names generalizing fetched state with
  | nil => exact ⟨[], state, .nil, by rw [List.append_nil]; rfl⟩
  | cons name rest ih =>
    rw [List.forall_mem_cons] at hnames
    obtain ⟨⟨_, items⟩, hentry, rfl⟩ := List.mem_map.mp hnames.1
    obtain ⟨column, hcolumn, hholds⟩ := h.column _ hentry state
    obtain ⟨served, reached, hserved, hrun⟩ :=
      ih hnames.2 (fetched ++ [column]) (around.column _ state).2
    refine ⟨column :: served, reached, .cons ⟨items, hentry, hholds⟩ hserved, ?_⟩
    rw [List.append_assoc] at hrun
    rw [fetchColumns, Inquiry.run]
    rcases hanswer : around.column _ state with ⟨answer, next⟩
    rw [hanswer] at hcolumn hrun
    cases hcolumn
    exact hrun

/-- What a check comes to in surroundings that offer columns: the name of those that it misses, or
    what it finds in those that it is served. -/
theorem run_of_offers (h : around.Offers columns) (check : Check) (state : σ) :
    (∃ missing, missing = check.columns.filter (· ∉ columns.map Prod.fst) ∧ missing ≠ [] ∧
      (check.inquire.run around state).1 =
        .ok (.unevaluated ("Required columns not found: " ++ missingMessage missing))) ∨
    (∀ name ∈ check.columns, name ∈ columns.map Prod.fst) ∧ ∃ served reached,
      Fetched columns check.columns served ∧
      check.inquire.run around state = (check.inquireColumns served).run around reached := by
  obtain ⟨available, hnames, hoffered⟩ := h.names state
  have hmissing : check.missingColumns available =
      check.columns.filter (· ∉ columns.map Prod.fst) := by
    rw [missingColumns_eq_filter]
    refine List.filter_congr fun name _ => ?_
    simp only [hoffered]
  have hall : check.missingColumns available = [] ↔
      ∀ name ∈ check.columns, name ∈ columns.map Prod.fst := by
    simp only [missingColumns_eq_nil_iff, hoffered]
  unfold inquire
  simp only [Inquiry.run]
  rcases hanswer : around.names state with ⟨answer, reached⟩
  rw [hanswer] at hnames
  cases hnames
  dsimp only
  cases hfound : check.missingColumns available with
  | nil =>
    obtain ⟨served, final, hserved, hrun⟩ :=
      exists_fetched h (hall.mp hfound) [] check.inquireColumns reached
    exact .inr ⟨hall.mp hfound, served, final, hserved, hrun⟩
  | cons name others =>
    exact .inl ⟨_, hfound ▸ hmissing, List.cons_ne_nil name others, rfl⟩

/-- Surroundings that offer columns with the same values, and in which the predicate gives the same
    verdicts, lead a check to the same result. -/
theorem run_eq_of_offers (hnodup : (columns.map Prod.fst).Nodup) (h : around.Offers columns)
    (hother : other.Offers columns)
    (hask : ∀ values s t, (around.ask check.predicate values s).1 =
      (other.ask check.predicate values t).1) (s : σ) (t : τ) :
    (check.inquire.run around s).1 = (check.inquire.run other t).1 := by
  rcases run_of_offers h check s with ⟨missing, rfl, hsome, hresult⟩ |
    ⟨hall, served, reached, hserved, hrun⟩
  all_goals rcases run_of_offers hother check t with ⟨others, rfl, hothers, hagain⟩ |
    ⟨hnone, others, final, hothers, hagain⟩
  · rw [hresult, hagain]
  · exact absurd (by simpa using hnone) hsome
  · exact absurd (by simpa using hall) hothers
  · have hagree : around.Agree check.Verdicts other := by
      refine ⟨nofun, fun _ => nofun, fun predicate hpredicate values s t => ?_⟩
      cases hpredicate
      exact hask values s t
    rw [hrun, hagain, inquireColumns_eq (alike_of_fetched hnodup hserved hothers)]
    exact run_eq_of_agree hagree (within_inquireColumns check others) reached final

theorem mem_of_mem_fetches {names : List String} {served : List Value} {name : String}
    {answer : Except Raised Value} (h : Call.column name answer ∈ fetches names served) :
    name ∈ names := by
  rw [fetches, ← List.map_uncurry_zip_eq_zipWith] at h
  obtain ⟨⟨found, column⟩, hpair, hcall⟩ := List.mem_map.mp h
  cases hcall
  exact (List.of_mem_zip hpair).1

section Given

variable {calls : List Call} {available : List Value} (h : around.Offers columns)
  (hgiven : ∀ call ∈ calls, call.GivenBy around) (hnames : Call.names (.ok available) ∈ calls)
  (hpresent : ∀ name ∈ check.columns, Value.text name ∈ available)

include h hgiven hnames hpresent

/-- Once the names have been answered, a column of the check that is among them is offered. -/
theorem exists_offered {name : String} (hname : name ∈ check.columns) :
    ∃ items, (name, items) ∈ columns := by
  obtain ⟨s, hanswer⟩ := hgiven _ hnames
  obtain ⟨again, hagain, hnamed⟩ := h.names s
  rw [hanswer] at hagain
  cases hagain
  obtain ⟨⟨_, items⟩, hentry, rfl⟩ := List.mem_map.mp ((hnamed name).mp (hpresent name hname))
  exact ⟨items, hentry⟩

/-- What is served for the columns of the check has values. -/
theorem exists_holds {served : List Value} (hserved : served.length = check.columns.length)
    (hcalls : ∀ call ∈ fetches check.columns served, call ∈ calls) {column : Value}
    (hcolumn : column ∈ served) : ∃ items, column.Holds items := by
  obtain ⟨name, hmem⟩ := exists_mem_fetches hserved hcolumn
  obtain ⟨items, hentry⟩ := exists_offered h hgiven hnames hpresent (mem_of_mem_fetches hmem)
  obtain ⟨s, hanswer⟩ := hgiven _ (hcalls _ hmem)
  obtain ⟨again, hagain, hholds⟩ := h.column _ hentry s
  rw [hanswer] at hagain
  cases hagain
  exact ⟨items, hholds⟩

end Given

/-- In surroundings that offer columns only an error of the predicate that ends the program keeps a
    check from an outcome. -/
theorem escapes_of_offers (h : around.Offers columns) {state : σ} {fault : Fault}
    (hfault : (check.inquire.run around state).1 = .error fault) :
    ∃ error values s, fault = .raised error ∧ error.escapes = true ∧
      (around.ask check.predicate values s).1 = .error error := by
  have hgiven := (check.inquire.course_run around state).givenBy
  have hends := ends_inquire around check state
  generalize check.inquire.calls around state = calls at hgiven hends
  rw [hfault] at hends
  cases hends with
  | @stops error hstops =>
    cases hstops with
    | names =>
      obtain ⟨s, hanswer⟩ := hgiven _ List.mem_cons_self
      obtain ⟨available, hagain, _⟩ := h.names s
      rw [hanswer] at hagain
      cases hagain
    | @column available served before after name error hpresent hnames hserved =>
      have hname : name ∈ check.columns := by simp [hnames]
      obtain ⟨items, hentry⟩ := exists_offered h hgiven List.mem_cons_self hpresent hname
      obtain ⟨s, hanswer⟩ := hgiven (.column name (.error error)) (by simp)
      obtain ⟨column, hagain, _⟩ := h.column _ hentry s
      rw [hanswer] at hagain
      cases hagain
    | @length available served column error hpresent hserved hcolumn hlength =>
      obtain ⟨items, hitems⟩ := exists_holds h hgiven List.mem_cons_self hpresent hserved
        (fun call hcall => List.mem_cons_of_mem _ hcall) hcolumn
      rw [hitems.length] at hlength
      cases hlength
    | @item available served count rows verdicts column error hpresent hserved hlength hrows _ _ _
        hcolumn hitem =>
      obtain ⟨items, hitems⟩ := exists_holds h hgiven List.mem_cons_self hpresent hserved
        (fun call hcall => by simp [hcall]) hcolumn
      have hcount := hitems.length.symm.trans (hlength column hcolumn)
      rw [Except.ok.injEq] at hcount
      rw [hitems.item (List.getElem?_eq_getElem (hcount ▸ hrows))] at hitem
      cases hitem
    | @escape available served count rows verdicts values error _ _ _ _ _ _ _ hescapes =>
      obtain ⟨s, hanswer⟩ := hgiven (.ask check.predicate values (.error error)) (by simp)
      exact ⟨error, values, s, rfl, hescapes, hanswer⟩

end Check

end TableAudit
