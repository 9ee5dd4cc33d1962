import TableAudit.Proofs.Check.Offers
import TableAudit.Proofs.CheckSet.Modes
import TableAudit.Proofs.Source.Streams

namespace TableAudit

theorem Value.ne_stream_of_items? {value : Value} {items : List Value}
    (h : value.items? = some items) (number : Nat) : value ≠ .stream number := by
  rintro rfl
  cases h

/-- A sequence has its items as a column. -/
theorem Source.holds_of_isSequence {value : Value} (h : isSequence value = true) :
    ∃ items, value.items? = some items ∧ value.Holds items := by
  cases value with
  | list items => exact ⟨items, rfl, rfl, fun hitem => by simp only [Value.item, hitem]⟩
  | tuple items =>
    exact ⟨items, rfl, rfl, fun hitem => by simp only [Value.item, Value.tupleItems?, hitem]⟩
  | record name predicate columns =>
    exact ⟨_, rfl, rfl, fun hitem => by simp only [Value.item, Value.tupleItems?, hitem]⟩
  | column name =>
    exact ⟨_, rfl, rfl, fun hitem => by simp only [Value.item, Value.tupleItems?, hitem]⟩
  | range count =>
    refine ⟨_, rfl, by simp [Value.length, Value.length?], fun {index value} hitem => ?_⟩
    rw [List.getElem?_map, Option.map_eq_some_iff] at hitem
    obtain ⟨found, hfound, rfl⟩ := hitem
    obtain ⟨hindex, rfl⟩ := List.getElem?_eq_some_iff.mp hfound
    rw [List.length_range] at hindex
    simp only [Value.item, hindex, if_true, List.getElem_range]
  | _ => cases h

namespace Source

/-- Columns under their names as keys. -/
def keyed (columns : List (String × Value)) : List (Value × Value) :=
  columns.map fun column => (.text column.1, column.2)

/-- Data that holds columns in one of the shapes there are: a mapping, given as such or as a value,
    a frame with their names as its labels, which lists the same values in one way or another, or a
    table that serves them. -/
inductive Shape (columns : List (String × Value)) : Data → Prop
  | mapping : Shape columns (.mapping (keyed columns))
  | dictionary : Shape columns (.raw (.dict (keyed columns)))
  | frame {frame : List FrameColumn}
      (h : List.Forall₂ (fun column own => own.label = .text column.1 ∧
        (FrameColumn.contents own).items? = column.2.items?) columns frame) : Shape columns (.frame frame)
  | table {table : Table} (hcolumns : table.columns = keyed columns)
      (hnames : ∀ names, table.names = some names →
        names.items? = some (columns.map fun column => .text column.1))
      (hnamed : table.namesFail = false) (hserved : table.failing = none) :
      Shape columns (.table table)

/-- Columns with the values that they have. -/
def itemsOf (columns : List (String × Value)) : List (String × List Value) :=
  columns.map fun column => (column.1, column.2.items?.getD [])

theorem map_fst_itemsOf (columns : List (String × Value)) :
    (itemsOf columns).map Prod.fst = columns.map Prod.fst := by
  rw [itemsOf, List.map_map]
  rfl

theorem map_fst_keyed (columns : List (String × Value)) :
    (keyed columns).map Prod.fst = (columns.map Prod.fst).map .text := by
  rw [keyed, List.map_map, List.map_map]
  rfl

variable {judge : Judge} {columns : List (String × Value)}

/-- A column is found under its name. -/
theorem lookup_keyed (hnodup : (columns.map Prod.fst).Nodup) {name : String} {value : Value}
    (h : (name, value) ∈ columns) : Value.lookup (keyed columns) (.text name) = some value := by
  induction columns with
  | nil => cases h
  | cons column rest ih =>
    rw [List.map_cons, List.nodup_cons] at hnodup
    unfold Value.lookup keyed at ih ⊢
    rw [List.map_cons, List.find?_cons]
    have hequal : Value.equals (.text column.1) (.text name) = (column.1 == name) := by
      rw [Value.equals]
    simp only [hequal]
    rcases List.mem_cons.mp h with rfl | hrest
    · simp
    · have hne : (column.1 == name) = false := by
        rw [beq_eq_false_iff_ne]
        rintro rfl
        exact hnodup.1 (List.mem_map.mpr ⟨_, hrest, rfl⟩)
      rw [hne]
      exact ih hnodup.2 hrest

/-- The columns of a source that are served as they are, or as lists of their items. -/
theorem offers_of_columns {source : Source}
    (hsequence : ∀ column ∈ columns, isSequence column.2 = true)
    (hnames : ∀ world, (source.available world).1 = .ok ((columns.map Prod.fst).map .text))
    (hcolumn : ∀ column ∈ columns, ∀ world, ∃ served,
      (source.column (.text column.1) world).1 = .ok served ∧
        (served = column.2 ∨ ∃ items, column.2.items? = some items ∧ served = .list items)) :
    (source.under judge).Offers (itemsOf columns) := by
  refine ⟨fun world => ⟨_, hnames world, fun name => ?_⟩, fun entry hentry world => ?_⟩
  · rw [map_fst_itemsOf, List.mem_map]
    exact ⟨fun ⟨_, hmem, h⟩ => by cases h; exact hmem, fun h => ⟨name, h, rfl⟩⟩
  · obtain ⟨column, hmem, rfl⟩ := List.mem_map.mp hentry
    obtain ⟨items, hitems, hholds⟩ := holds_of_isSequence (hsequence column hmem)
    obtain ⟨served, hanswer, hserved⟩ := hcolumn column hmem world
    refine ⟨served, hanswer, ?_⟩
    dsimp only
    rw [hitems, Option.getD_some]
    rcases hserved with rfl | ⟨again, hagain, rfl⟩
    · exact hholds
    · rw [hitems] at hagain
      cases hagain
      exact ⟨rfl, fun hitem => by simp only [Value.item, hitem]⟩

/-- Texts can be members of a set. -/
theorem mapM_asKey_texts (names : List String) :
    (names.map Value.text).mapM Value.asKey = .ok (names.map Value.text) := by
  rw [mapM_eq_ok_iff, List.forall₂_same]
  intro value hvalue
  obtain ⟨name, _, rfl⟩ := List.mem_map.mp hvalue
  rfl

section

variable (hnodup : (columns.map Prod.fst).Nodup)
  (hsequence : ∀ column ∈ columns, isSequence column.2 = true)

include hnodup hsequence

theorem offers_mapping :
    ((mapping (keyed columns)).under judge).Offers (itemsOf columns) := by
  refine offers_of_columns hsequence (fun world => ?_) fun column hcolumn world => ?_
  · change ((keyed columns).map Prod.fst).mapM Value.asKey = _
    rw [map_fst_keyed]
    exact mapM_asKey_texts _
  · refine ⟨column.2, ?_, .inl rfl⟩
    have hfound := lookupColumn_of_lookup (lookup_keyed hnodup hcolumn)
    simp only [Source.column, hfound, materialize, hsequence column hcolumn, if_true]

theorem offers_table {table : Table} (hcolumns : table.columns = keyed columns)
    (hnames : ∀ names, table.names = some names →
      names.items? = some (columns.map fun column => .text column.1))
    (hnamed : table.namesFail = false) (hserved : table.failing = none) :
    ((Source.table table).under judge).Offers (itemsOf columns) := by
  refine offers_of_columns hsequence (fun world => ?_) fun column hcolumn world => ?_
  · have hitems : (table.names.getD (.list (table.columns.map Prod.fst))).items? =
        some ((columns.map Prod.fst).map .text) := by
      cases hown : table.names with
      | none =>
        rw [hcolumns, map_fst_keyed]
        rfl
      | some names =>
        rw [Option.getD_some, hnames names hown, List.map_map]
        rfl
    simp only [available, listNames, columnNames, hnamed, Bool.false_eq_true, if_false,
      Value.collect_of_items? hitems]
    exact mapM_asKey_texts _
  · refine ⟨column.2, ?_, .inl rfl⟩
    have hfound := lookupColumn_of_lookup (lookup_keyed hnodup hcolumn)
    simp only [Source.column, hserved, hcolumns, hfound]

end

theorem exists_of_frameItem {frame : List FrameColumn} {label : Value} {found : Value ⊕ FrameColumn}
    (h : frameItem (.columns frame) label = .ok found) : ∃ own ∈ frame, found = .inr own := by
  obtain ⟨key, _, hfound⟩ := bind_eq_ok_iff.mp h
  split at hfound
  · next own hown =>
    cases hfound
    exact ⟨own, List.mem_reverse.mp (List.mem_of_find?_eq_some hown), rfl⟩
  · cases hfound

theorem standsUnder_text_iff (column : FrameColumn) (name : String) :
    FrameColumn.standsUnder column (.text name) = true ↔ column.label = .text name := by
  rw [FrameColumn.standsUnder, (equals_text_iff name (.text name)).mpr rfl, Bool.not_true,
    Bool.false_and, Bool.or_false]
  cases column.label <;> simp [Value.equals, Number.ofValue?, Value.tupleItems?]

/-- The labels of a frame are the names of its columns. -/
theorem entries_labelsOf (hnodup : (columns.map Prod.fst).Nodup) :
    (labelsOf (columns.map fun column => .text column.1)).entries =
      columns.map fun column => (column.1, .text column.1) := by
  have hdisplay : (columns.map fun column => Value.text column.1).map
      (fun label => (label.display, label)) =
        columns.map fun column => (column.1, Value.text column.1) := by
    rw [List.map_map]
    rfl
  rw [labelsOf, hdisplay]
  refine Labelled.entries_ofList ?_
  rw [List.map_map]
  exact hnodup

section Frame

variable {frame : List FrameColumn}
  (h : List.Forall₂ (fun column own => own.label = .text column.1 ∧
    (FrameColumn.contents own).items? = column.2.items?) columns frame)

include h

theorem map_label_eq : frame.map FrameColumn.label = columns.map fun column => .text column.1 := by
  induction h with
  | nil => rfl
  | cons hfirst _ ih => rw [List.map_cons, List.map_cons, ih, hfirst.1]

/-- Each column of a frame belongs to one of the columns. -/
theorem exists_column {own : FrameColumn} (hown : own ∈ frame) :
    ∃ column ∈ columns, own.label = .text column.1 ∧ (FrameColumn.contents own).items? = column.2.items? := by
  induction h with
  | nil => cases hown
  | @cons column first _ _ hfirst _ ih =>
    rcases List.mem_cons.mp hown with rfl | hrest
    · exact ⟨column, List.mem_cons_self, hfirst⟩
    · obtain ⟨found, hmem, hfound⟩ := ih hrest
      exact ⟨found, List.mem_cons_of_mem _ hmem, hfound⟩

/-- A frame finds the values of a column under its label. -/
theorem frameItem_of_mem (hnodup : (columns.map Prod.fst).Nodup) {column : String × Value}
    (hcolumn : column ∈ columns) :
    ∃ own, frameItem (.columns frame) (.text column.1) = .ok (.inr own) ∧
      (FrameColumn.contents own).items? = column.2.items? := by
  have hsome : (frame.reverse.find? fun own => FrameColumn.standsUnder own (.text column.1)).isSome := by
    rw [List.find?_isSome]
    obtain ⟨own, hmem, hown⟩ := exists_of_forall₂_left h hcolumn
    refine ⟨own, List.mem_reverse.mpr hmem, ?_⟩
    rw [standsUnder_text_iff, hown.1]
  obtain ⟨own, hfound⟩ := Option.isSome_iff_exists.mp hsome
  have hlabel := List.find?_some hfound
  obtain ⟨again, hagain, hown, hitems⟩ :=
    exists_column h (List.mem_reverse.mp (List.mem_of_find?_eq_some hfound))
  rw [standsUnder_text_iff, hown, Value.text.injEq] at hlabel
  obtain rfl : again = column := List.inj_on_of_nodup_map hnodup hagain hcolumn hlabel
  refine ⟨own, ?_, hitems⟩
  simp only [frameItem, Value.asKey, Value.changeable?, bind, Except.bind, hfound]
  rfl

theorem offers_frame (hnodup : (columns.map Prod.fst).Nodup)
    (hsequence : ∀ column ∈ columns, isSequence column.2 = true) :
    ((Source.frame (labelsOf (frame.map FrameColumn.label)) (.columns frame)).under judge).Offers
      (itemsOf columns) := by
  rw [map_label_eq h]
  have hentries := entries_labelsOf hnodup
  refine offers_of_columns hsequence (fun world => ?_) fun column hcolumn world => ?_
  · have hlabels : (labelsOf (columns.map fun column => .text column.1)).labels =
        columns.map Prod.fst := by
      rw [Labelled.labels, hentries, List.map_map]
      rfl
    change ((labelsOf (columns.map fun column => .text column.1)).labels.map .text).mapM
      Value.asKey = _
    rw [hlabels]
    exact mapM_asKey_texts _
  · have hlabel : labelFor (labelsOf (columns.map fun column => .text column.1))
        (.text column.1) = .ok (.text column.1) := by
      have hget : (labelsOf (columns.map fun column => .text column.1)).get? column.1 =
          some (.text column.1) := by
        rw [← Labelled.mem_entries_iff, hentries]
        exact List.mem_map.mpr ⟨column, hcolumn, rfl⟩
      simp only [labelFor, Value.asKey, Value.changeable?, bind, Except.bind, hget]
      rfl
    obtain ⟨items, hitems, _⟩ := holds_of_isSequence (hsequence column hcolumn)
    obtain ⟨own, hown, hcontents⟩ := frameItem_of_mem h hnodup hcolumn
    refine ⟨.list items, ?_, .inr ⟨items, hitems, rfl⟩⟩
    simp only [Source.column, hlabel, Except.bind, hown,
      Value.collect_of_items? (hcontents.trans hitems)]
    rfl

/-- A frame serves its columns alike each time. -/
theorem steady_frame {allowed : Inquiry.Request → Prop}
    (hsequence : ∀ column ∈ columns, isSequence column.2 = true) (labels : Labelled Value)
    (hpure : ∀ predicate, allowed (.verdict predicate) → judge.Pure predicate) :
    ((Source.frame labels (.columns frame)).under judge).Steady allowed := by
  refine ⟨fun _ s t => rfl, fun name _ s t => ?_, hpure⟩
  simp only [under, Source.column]
  cases hfound : (labelFor labels (.text name)).bind (frameItem (.columns frame)) with
  | error error => rfl
  | ok found =>
    obtain ⟨label, _, hitem⟩ := bind_eq_ok_iff.mp hfound
    obtain ⟨own, hown, rfl⟩ := exists_of_frameItem hitem
    obtain ⟨column, hcolumn, _, hcontents⟩ := exists_column h hown
    obtain ⟨items, hitems, _⟩ := holds_of_isSequence (hsequence column hcolumn)
    simp only [Value.collect_of_items? (hcontents.trans hitems)]

end Frame

theorem steady_mapping {allowed : Inquiry.Request → Prop}
    (hsequence : ∀ column ∈ columns, isSequence column.2 = true)
    (hpure : ∀ predicate, allowed (.verdict predicate) → judge.Pure predicate) :
    ((mapping (keyed columns)).under judge).Steady allowed := by
  refine ⟨fun _ s t => rfl, fun name _ s t => ?_, hpure⟩
  have hkept (number : Nat) :
      Value.lookup (keyed columns) (.text name) ≠ some (.stream number) := by
    intro hfound
    obtain ⟨entry, hentry, hstream⟩ := Option.map_eq_some_iff.mp hfound
    obtain ⟨column, hcolumn, rfl⟩ := List.mem_map.mp (List.mem_of_find?_eq_some hentry)
    have hsome := hsequence column hcolumn
    rw [hstream] at hsome
    cases hsome
  obtain ⟨answer, hanswer⟩ := column_mapping_kept hkept
  simp only [under, hanswer]

/-- Data in one of the shapes is read by a source that offers its columns, the same each time. -/
theorem Shape.exists_source {allowed : Inquiry.Request → Prop} {data : Data}
    (h : Shape columns data) (hnodup : (columns.map Prod.fst).Nodup)
    (hsequence : ∀ column ∈ columns, isSequence column.2 = true)
    (hpure : ∀ predicate, allowed (.verdict predicate) → judge.Pure predicate) :
    ∃ source, (∀ world, ofData data world = (.ok source, world)) ∧
      (source.under judge).Offers (itemsOf columns) ∧ (source.under judge).Steady allowed := by
  cases h with
  | mapping =>
    exact ⟨_, fun world => rfl, offers_mapping hnodup hsequence, steady_mapping hsequence hpure⟩
  | dictionary =>
    exact ⟨_, fun world => rfl, offers_mapping hnodup hsequence, steady_mapping hsequence hpure⟩
  | frame hframe =>
    exact ⟨_, fun world => rfl, offers_frame hframe hnodup hsequence,
      steady_frame hframe hsequence _ hpure⟩
  | @table table hcolumns hnames hnamed hserved =>
    have hstream (number : Nat) : table.names ≠ some (.stream number) := fun hown =>
      Value.ne_stream_of_items? (hnames _ hown) number rfl
    exact ⟨.table table, fun world => rfl,
      offers_table hnodup hsequence hcolumns hnames hnamed hserved, steady_table hstream hpure⟩

end Source

namespace CheckSet

open Source

section Offers

variable {σ τ : Type} {around : Surroundings σ} {other : Surroundings τ} {set : CheckSet}
  {offered : List (String × List Value)}

/-- In surroundings that offer the same columns, each time alike, and with the same verdicts, runs of
    a set end the same in any modes. -/
theorem runIn_eq_of_offers (hnodup : (offered.map Prod.fst).Nodup) (hoffers : around.Offers offered)
    (hsteady : around.Steady set.Requests) (hother : other.Offers offered)
    (hagain : other.Steady set.Requests)
    (hask : ∀ check ∈ set.checks, ∀ values s t, (around.ask check.predicate values s).1 =
      (other.ask check.predicate values t).1) (mode again : Mode) (s : σ) (t : τ) :
    (set.runIn around mode s).1 = (set.runIn other again t).1 := by
  have hresults : set.checks.map (fun check => (check.inquire.run around s).1) =
      set.checks.map fun check => (check.inquire.run other t).1 :=
    List.map_congr_left fun check hcheck =>
      Check.run_eq_of_offers hnodup hoffers hother (hask check hcheck) s t
  rw [runIn_eq_firstFault hsteady mode s s, runIn_eq_firstFault hagain again t t, hresults]

/-- In surroundings that offer columns, each time alike, only an error of a predicate that ends the
    program keeps a set from its outcomes. -/
theorem exists_escapes_of_offers (hoffers : around.Offers offered)
    (hsteady : around.Steady set.Requests) {mode : Mode} {state : σ} {fault : Fault}
    (hfault : (set.runIn around mode state).1 = .error fault) :
    ∃ check ∈ set.checks, ∃ error values s, fault = .raised error ∧ error.escapes = true ∧
      (around.ask check.predicate values s).1 = .error error := by
  rw [runIn_eq_firstFault hsteady mode state state] at hfault
  rcases firstFault_cases around set.checks state with ⟨outcomes, hresult, _⟩ |
    ⟨before, check, after, error, hresult, hchecks, _, hstopped, _⟩
  · rw [hresult] at hfault
    cases hfault
  · rw [hresult] at hfault
    cases hfault
    obtain ⟨found, values, s, heq, hescapes, hasked⟩ := Check.escapes_of_offers hoffers hstopped
    cases heq
    exact ⟨check, by simp [hchecks], error, values, s, rfl, hescapes, hasked⟩

end Offers

/-- Runs of a set of pure checks on the same columns end the same, whatever the shape of the data is
    and in any modes: with equal outcomes in the same order, or with the same error of a predicate
    that ends the program. A run in any other surroundings that offer these columns, each time alike
    and with the same verdicts, ends like that too. -/
theorem runUnder_eq_of_shapes {columns : List (String × Value)}
    (hnodup : (columns.map Prod.fst).Nodup)
    (hsequence : ∀ column ∈ columns, isSequence column.2 = true) {set : CheckSet} {judge : Judge}
    (hpure : ∀ check ∈ set.checks, judge.Pure check.predicate) {data other : Data}
    (hdata : Shape columns data) (hother : Shape columns other) (mode again : Mode) (s t : World) :
    (set.runUnder judge data mode s).1 = (set.runUnder judge other again t).1 ∧
      (∀ {σ : Type} (around : Surroundings σ) (state : σ), around.Offers (itemsOf columns) →
        around.Steady set.Requests →
        (∀ check ∈ set.checks, ∀ values state world,
          (around.ask check.predicate values state).1 = (judge check.predicate values world).1) →
        (set.runIn around again state).1 = (set.runUnder judge data mode s).1) ∧
      ∀ fault, (set.runUnder judge data mode s).1 = .error fault →
        ∃ check ∈ set.checks, ∃ error values world, fault = .raised error ∧
          error.escapes = true ∧ (judge check.predicate values world).1 = .error error := by
  have hallowed : ∀ predicate, set.Requests (.verdict predicate) → judge.Pure predicate := by
    rintro predicate ⟨check, hcheck, rfl⟩
    exact hpure check hcheck
  obtain ⟨source, hsource, hoffers, hsteady⟩ :=
    hdata.exists_source hnodup hsequence hallowed
  obtain ⟨twin, htwin, htwinOffers, htwinSteady⟩ :=
    hother.exists_source hnodup hsequence hallowed
  have hnames : ((itemsOf columns).map Prod.fst).Nodup := by rwa [map_fst_itemsOf]
  rw [runUnder_eq_runIn (hsource s), runUnder_eq_runIn (htwin t)]
  refine ⟨?_, fun around state hserved halike hask => ?_, fun fault hfault => ?_⟩
  · exact runIn_eq_of_offers hnames hoffers hsteady htwinOffers htwinSteady hpure mode again s t
  · exact runIn_eq_of_offers hnames hserved halike hoffers hsteady hask again mode state s
  · exact exists_escapes_of_offers hoffers hsteady hfault

/-- Columns of different lengths, one a missing one, and a predicate that ends the program: as a
    dictionary in order, and on a pool as a frame whose columns list their values in different
    ways. -/
theorem runUnder_eq_of_shapes_frame :
    let columns : List (String × Value) :=
      [("x", .tuple [.int 1, .int (-2)]), ("y", .range 3)]
    let set : CheckSet := ⟨"set",
      [⟨"a", .library .isPositive, ["x"]⟩, ⟨"b", .library .equal, ["x", "y"]⟩,
        ⟨"c", .library .isEven, ["z"]⟩, ⟨"d", .library .exits, ["y"]⟩]⟩
    let data : Data := .raw (.dict (keyed columns))
    let frame : Data := .frame
      [⟨.text "x", none, some (.list [.int 1, .int (-2)]), .null⟩,
        ⟨.text "y", none, none, .tuple [.int 0, .int 1, .int 2]⟩]
    let pooled : Mode := ⟨true, some 2, 1, [1, 0, 1]⟩
    (set.runOn data {} {}).1 = (set.runOn frame pooled {}).1 ∧
      ∀ fault, (set.runOn data {} {}).1 = .error fault →
        ∃ check ∈ set.checks, ∃ error values world, fault = .raised error ∧
          error.escapes = true ∧ (check.predicate.evaluate values world).1 = .error error := by
  intro columns set data frame pooled
  have hcounted : ¬ set.Requests (.verdict (.library .counted)) := by
    simp [set, Requests, Check.Requests]
  have hpure : ∀ check ∈ set.checks, Judge.Pure Callable.evaluate check.predicate :=
    fun _ hcheck => pure_of_not_requests hcounted hcheck
  have hframe : Shape columns frame :=
    .frame (.cons ⟨rfl, rfl⟩ (.cons ⟨rfl, rfl⟩ .nil))
  obtain ⟨hequal, -, hfault⟩ := runUnder_eq_of_shapes (by decide) (by simp [columns, isSequence])
    hpure .dictionary hframe {} pooled {} {}
  exact ⟨hequal, hfault⟩

end CheckSet

end TableAudit
