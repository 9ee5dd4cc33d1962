import Mathlib.Data.List.Forall2
import TableAudit.Proofs.Expr.Columns

namespace TableAudit.Expr

/-- A marker names a column: it is called with one text literal by position, and nothing else. -/
inductive NamesColumn : Expr → String → Prop
  | marker {function : Expr} {names : List (Option String)} (column : String) (marked : Bool)
      (hfunction : function.isWord columnWord = true) :
      NamesColumn (.call function [.literal (.text column marked)] names []) column

/-- An expression stands in another, at any depth. -/
inductive StandsIn (m : Expr) : Expr → Prop
  | here : StandsIn m m
  | part {e part : Expr} (hpart : part ∈ e.children) (h : StandsIn m part) : StandsIn m e

/-- An expression stands in another, but in no marker other than itself. -/
inductive IsMet (m : Expr) : Expr → Prop
  | here : IsMet m m
  | part {e part : Expr} (hplain : e.isMarker columnWord = false) (hpart : part ∈ e.children)
      (h : IsMet m part) : IsMet m e

/-- The markers of an expression in depth-first order, each before what comes after it: the parts of
    an expression are visited in the order of its fields, and a marker is a leaf. -/
def metMarkers (e : Expr) : List Expr :=
  if e.isMarker columnWord then [e]
  else e.children.attach.flatMap fun part => metMarkers part.1
termination_by sizeOf e
decreasing_by exact sizeOf_lt_of_mem_children part.2

variable {e m outer : Expr} {column : String}

theorem metMarkers_of_isMarker (h : e.isMarker columnWord = true) : e.metMarkers = [e] := by
  rw [metMarkers, if_pos h]

theorem metMarkers_eq_flatMap_children (h : e.isMarker columnWord = false) :
    e.metMarkers = e.children.flatMap metMarkers := by
  have hparts : (e.children.attach.flatMap fun part => metMarkers part.1) =
      e.children.attach.unattach.flatMap metMarkers := List.flatMap_subtype fun _ _ => rfl
  rw [metMarkers, if_neg (by simp [h]), hparts, List.unattach_attach]

/-- The markers that are met are those that stand in no other one. -/
theorem mem_metMarkers_iff :
    m ∈ e.metMarkers ↔ m.IsMet e ∧ m.isMarker columnWord = true := by
  induction e using inductionOnChildren with
  | step e ih =>
    cases hmarker : e.isMarker columnWord with
    | true =>
      rw [metMarkers_of_isMarker hmarker, List.mem_singleton]
      constructor
      · rintro rfl
        exact ⟨.here, hmarker⟩
      · rintro ⟨hmet, -⟩
        cases hmet with
        | here => rfl
        | part hplain => simp [hmarker] at hplain
    | false =>
      rw [metMarkers_eq_flatMap_children hmarker, List.mem_flatMap]
      constructor
      · rintro ⟨part, hpart, hm⟩
        obtain ⟨hmet, hm⟩ := (ih part hpart).mp hm
        exact ⟨.part hmarker hpart hmet, hm⟩
      · rintro ⟨hmet, hm⟩
        cases hmet with
        | here => simp [hmarker] at hm
        | part _ hpart hmet => exact ⟨_, hpart, (ih _ hpart).mpr ⟨hmet, hm⟩⟩

theorem NamesColumn.isMarker (h : m.NamesColumn column) : m.isMarker columnWord = true := by
  cases h with
  | marker _ _ hfunction => exact hfunction

theorem NamesColumn.unique {other : String} (h : m.NamesColumn column)
    (hother : m.NamesColumn other) : column = other := by
  cases h
  cases hother
  rfl

/-- A marker stands in one that is met. -/
theorem exists_met_of_standsIn (h : m.StandsIn e) (hm : m.isMarker columnWord = true) :
    ∃ outer ∈ e.metMarkers, m.StandsIn outer := by
  induction h with
  | here => exact ⟨m, by simp [metMarkers_of_isMarker hm], .here⟩
  | @part e part hpart h ih =>
    cases hmarker : e.isMarker columnWord with
    | true => exact ⟨e, by simp [metMarkers_of_isMarker hmarker], .part hpart h⟩
    | false =>
      obtain ⟨outer, hmet, hstands⟩ := ih
      rw [metMarkers_eq_flatMap_children hmarker]
      exact ⟨outer, List.mem_flatMap.mpr ⟨part, hpart, hmet⟩, hstands⟩

/-- A marker in the callee of another stands in its receiver. -/
theorem exists_receiver {function : Expr} (hword : function.isWord columnWord = true)
    (h : m.StandsIn function) (hm : m.isMarker columnWord = true) :
    ∃ receiver, function = .member receiver columnWord ∧ m.StandsIn receiver := by
  cases function with
  | member receiver attr =>
    obtain rfl : attr = columnWord := by simpa [isWord] using hword
    cases h with
    | here => cases hm
    | part hpart h =>
      rw [List.mem_singleton.mp hpart] at h
      exact ⟨receiver, rfl, h⟩
  | name id =>
    cases h with
    | here => cases hm
    | part hpart => cases hpart
  | _ => cases hword

/-- A marker in one that names a column is this one, or stands in its receiver: its text has no marker
    in it. -/
theorem standsIn_receiver (houter : outer.NamesColumn column) (h : m.StandsIn outer)
    (hm : m.isMarker columnWord = true) :
    m = outer ∨ ∃ receiver args names,
      outer = .call (.member receiver columnWord) args names [] ∧ m.StandsIn receiver := by
  cases houter with
  | marker _ _ hword =>
    cases h with
    | here => exact .inl rfl
    | part hpart h =>
      simp only [children, List.append_nil, List.mem_cons, List.not_mem_nil, or_false] at hpart
      rcases hpart with hcallee | hliteral
      · subst hcallee
        obtain ⟨receiver, rfl, hreceiver⟩ := exists_receiver hword h hm
        exact .inr ⟨receiver, _, _, rfl, hreceiver⟩
      · subst hliteral
        cases h with
        | here => cases hm
        | part hpart => cases hpart

/-- The column in the call of a marker. -/
def calledColumn? : Expr → Option String
  | call _ args _ values => markedColumn? args values
  | _ => none

theorem namesColumn_iff :
    m.NamesColumn column ↔ m.isMarker columnWord = true ∧ m.calledColumn? = some column := by
  constructor
  · intro h
    refine ⟨h.isMarker, ?_⟩
    cases h
    rfl
  · rintro ⟨hm, hcolumn⟩
    obtain ⟨function, args, names, values, rfl, hfunction⟩ :=
      (isMarker_eq_true_iff columnWord m).mp hm
    obtain ⟨marked, rfl, rfl⟩ := (markedColumn?_eq_some_iff args values column).mp hcolumn
    exact .marker column marked hfunction

theorem markers_eq_map_metMarkers (e : Expr) : e.markers = e.metMarkers.map calledColumn? := by
  induction e using inductionOnChildren with
  | step e ih =>
    cases hmarker : e.isMarker columnWord with
    | true =>
      obtain ⟨function, args, names, values, rfl, hfunction⟩ :=
        (isMarker_eq_true_iff columnWord e).mp hmarker
      rw [metMarkers_of_isMarker hmarker, markers, if_pos hfunction]
      rfl
    | false =>
      rw [metMarkers_eq_flatMap_children hmarker, markers_eq_flatMap_children e hmarker,
        List.map_flatMap]
      exact List.flatMap_congr ih

/-- An expression refers to the columns that the markers met in it name, one after the other. -/
theorem refers_iff_metMarkers (e : Expr) (columns : List String) :
    e.Refers columns ↔ List.Forall₂ NamesColumn e.metMarkers columns := by
  have hmarkers : ∀ m ∈ e.metMarkers, m.isMarker columnWord = true := fun m hm =>
    (mem_metMarkers_iff.mp hm).2
  rw [refers_iff_markers, markers_eq_map_metMarkers, ← List.forall₂_eq_eq_eq,
    List.forall₂_map_left_iff, List.forall₂_map_right_iff]
  have hnames : List.Forall₂ NamesColumn e.metMarkers columns ↔
      List.Forall₂ (fun m column => m.isMarker columnWord = true ∧ m.calledColumn? = some column)
        e.metMarkers columns := by
    simp only [← namesColumn_iff]
  rw [hnames, List.forall₂_and_left, and_iff_right hmarkers]

end TableAudit.Expr
