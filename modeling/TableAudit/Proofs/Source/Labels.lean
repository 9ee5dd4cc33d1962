import TableAudit.Proofs.Inquiry.Agreement
import TableAudit.Proofs.Labelled
import TableAudit.Run.CheckSet

namespace TableAudit.Source

/-- What a column of a frame gives when it is asked for: its values as a list. -/
def FrameColumn.served (column : FrameColumn) : Act Value := fun world =>
  let (items, world) := (FrameColumn.contents column).collect world
  (items.map .list, world)

/-- The labels of a frame can be keys, and none of them equals one before it. -/
structure Distinct (columns : List FrameColumn) : Prop where
  keys : ∀ column ∈ columns, column.label.changeable? = none
  unequal : columns.Pairwise fun earlier later => Value.equals later.label earlier.label = false

/-- A column of a frame is the last one whose label has a text. -/
inductive LastNamed (columns : List FrameColumn) (text : String) : FrameColumn → Prop
  | last {before after : List FrameColumn} {column : FrameColumn}
      (hcolumns : columns = before ++ column :: after) (hnamed : column.label.display = text)
      (hlater : ∀ later ∈ after, later.label.display ≠ text) : LastNamed columns text column

variable {columns : List FrameColumn} {text : String} {column : FrameColumn}

/-- The last item of a list that passes a test. -/
theorem find?_reverse_append_cons {α : Type} {test : α → Bool} {before after : List α} {item : α}
    (hitem : test item = true) (hlater : ∀ later ∈ after, test later = false) :
    (before ++ item :: after).reverse.find? test = some item := by
  have hnone : after.reverse.find? test = none := by
    rw [List.find?_eq_none]
    intro later hmem
    rw [hlater later (List.mem_reverse.mp hmem)]
    exact Bool.false_ne_true
  rw [List.reverse_append, List.reverse_cons, List.append_assoc, List.find?_append, hnone,
    Option.none_or, List.singleton_append, List.find?_cons, hitem]

/-- Each text of a label has its last column. -/
theorem exists_lastNamed (h : column ∈ columns) :
    ∃ last, LastNamed columns column.label.display last := by
  have hsome : (columns.reverse.find? fun other =>
      other.label.display == column.label.display).isSome := by
    rw [List.find?_isSome]
    exact ⟨column, List.mem_reverse.mpr h, beq_self_eq_true _⟩
  obtain ⟨last, hlast⟩ := Option.isSome_iff_exists.mp hsome
  obtain ⟨hnamed, after, before, hreverse, hlater⟩ := List.find?_eq_some_iff_append.mp hlast
  rw [List.reverse_eq_iff, List.reverse_append, List.reverse_cons, List.append_assoc,
    List.singleton_append] at hreverse
  refine ⟨last, .last hreverse (beq_iff_eq.mp hnamed) fun later hmem => ?_⟩
  simpa using hlater later (List.mem_reverse.mp hmem)

theorem LastNamed.mem (h : LastNamed columns text column) : column ∈ columns := by
  cases h with
  | last hcolumns => simp [hcolumns]

theorem LastNamed.display (h : LastNamed columns text column) : column.label.display = text := by
  cases h with
  | last _ hnamed => exact hnamed

/-- A text leads to the label that has it last. -/
theorem labelFor_of_lastNamed (h : LastNamed columns text column) :
    labelFor (labelsOf (columns.map FrameColumn.label)) (.text text) = .ok column.label := by
  cases h with
  | @last before after column hcolumns hnamed hlater =>
    have hlabels : (columns.map FrameColumn.label).map (fun label => (label.display, label)) =
        before.map (fun other => (other.label.display, other.label)) ++
          (text, column.label) ::
            after.map fun other => (other.label.display, other.label) := by
      rw [hcolumns, List.map_map, List.map_append, List.map_cons, ← hnamed]
      rfl
    have hget : (labelsOf (columns.map FrameColumn.label)).get? text = some column.label := by
      rw [labelsOf, hlabels, Labelled.get?_ofList, find?_reverse_append_cons]
      · rfl
      · exact beq_self_eq_true text
      · intro later hmem
        obtain ⟨other, hother, rfl⟩ := List.mem_map.mp hmem
        exact beq_false_of_ne (hlater other hother)
    simp only [labelFor, Value.asKey, Value.changeable?, bind, Except.bind, hget]
    rfl

/-- The label that has a text last leads to its own column. -/
theorem frameItem_of_lastNamed (hdistinct : Distinct columns) (h : LastNamed columns text column) :
    frameItem (.columns columns) column.label = .ok (.inr column) := by
  have hkey := hdistinct.keys column h.mem
  cases h with
  | @last before after column hcolumns hnamed hlater =>
    have hunequal := hdistinct.unequal
    rw [hcolumns, List.pairwise_append, List.pairwise_cons] at hunequal
    have hfound : columns.reverse.find? (fun other => FrameColumn.standsUnder other column.label) =
        some column := by
      rw [hcolumns]
      refine find?_reverse_append_cons ?_ fun later hmem => ?_
      · cases hself : Value.equals column.label column.label <;>
          simp [FrameColumn.standsUnder, hself]
      · have hlabel : later.label.display ≠ column.label.display := hnamed ▸ hlater later hmem
        simp [FrameColumn.standsUnder, hunequal.2.1.1 later hmem, hlabel]
    simp only [frameItem, Value.asKey, hkey, bind, Except.bind, hfound]
    rfl

/-- The source that a frame is adapted to. -/
def ofFrame (columns : List FrameColumn) : Source :=
  .frame (labelsOf (columns.map FrameColumn.label)) (.columns columns)

theorem column_of_lastNamed (hdistinct : Distinct columns) (h : LastNamed columns text column) :
    (ofFrame columns).column (.text text) = FrameColumn.served column := by
  funext world
  have hitem : (labelFor (labelsOf (columns.map FrameColumn.label)) (.text text)).bind
      (frameItem (.columns columns)) = .ok (.inr column) := by
    rw [labelFor_of_lastNamed h]
    exact frameItem_of_lastNamed hdistinct h
  simp only [ofFrame, Source.column, hitem]
  rfl

/-- The texts of the labels are named, each where it first occurs. -/
theorem columnNames_ofFrame (columns : List FrameColumn) (world : World) :
    (ofFrame columns).columnNames world =
      (.ok (.list ((columns.map fun column => column.label.display).eraseDups.map .text)),
        world) := by
  simp only [ofFrame, columnNames, labelsOf, Labelled.labels_ofList, List.map_map]
  rfl

/-- A column can be had under the text of its label if all columns under it have the same values. -/
theorem column_of_mem (hdistinct : Distinct columns) (hcolumn : column ∈ columns)
    (hsame : ∀ other ∈ columns, other.label.display = column.label.display →
      FrameColumn.served other = FrameColumn.served column) :
    (ofFrame columns).column (.text column.label.display) = FrameColumn.served column := by
  obtain ⟨last, hlast⟩ := exists_lastNamed hcolumn
  rw [column_of_lastNamed hdistinct hlast, hsame last hlast.mem hlast.display]

/-- Every column can be had under the text of its label exactly if columns with one text have the same
    values. -/
theorem forall_column_iff (hdistinct : Distinct columns) :
    (∀ column ∈ columns,
      (ofFrame columns).column (.text column.label.display) = FrameColumn.served column) ↔
      ∀ a ∈ columns, ∀ b ∈ columns, a.label.display = b.label.display →
        FrameColumn.served a = FrameColumn.served b := by
  constructor
  · intro h a ha b hb htext
    rw [← h a ha, ← h b hb, htext]
  · intro h column hcolumn
    exact column_of_mem hdistinct hcolumn fun other hother => h other hother column hcolumn

/-- A check runs on the columns whose labels are the names that it asks for, if nothing else is under
    these texts. -/
theorem runUnder_ofFrame (hdistinct : Distinct columns) (judge : Judge) (check : Check)
    (serve : String → Act Value)
    (hserve : ∀ name ∈ check.columns, ∃ column ∈ columns, column.label = .text name ∧
      serve name = FrameColumn.served column ∧
      ∀ other ∈ columns, other.label.display = name →
        FrameColumn.served other = FrameColumn.served column) :
    check.runUnder judge (ofFrame columns) =
      check.inquire.run { (ofFrame columns).under judge with column := serve } := by
  have hmatched : Surroundings.Matched check.Requests Eq ((ofFrame columns).under judge)
      { (ofFrame columns).under judge with column := serve } := by
    refine ⟨?_, ?_, ?_, ?_⟩
    · rintro - world _ rfl
      exact ⟨rfl, rfl⟩
    · rintro name hname world _ rfl
      obtain ⟨column, hcolumn, hlabel, hserved, hsame⟩ := hserve name hname
      have htext : column.label.display = name := by rw [hlabel, Value.display]
      have hanswer := column_of_mem hdistinct hcolumn (htext.symm ▸ hsame)
      rw [htext, ← hserved] at hanswer
      exact ⟨congrArg Prod.fst (congrFun hanswer world), congrArg Prod.snd (congrFun hanswer world)⟩
    · rintro predicate - values world _ rfl
      exact ⟨rfl, rfl⟩
    · rintro entry world _ rfl
      rfl
  funext world
  obtain ⟨hresult, hworld⟩ := Inquiry.run_of_matched hmatched (Check.within_inquire check) rfl
  exact Prod.ext hresult hworld

/-- Reading a frame whose labels differ. The texts of all labels are named, and under a text stands
    the last column that has it. So every column can be had under the text of its label exactly if
    columns with one text have the same values. A check of text labels runs on the columns of these
    labels, if what else has their texts has the same values. -/
theorem ofFrame_serves_iff (hdistinct : Distinct columns) :
    (∀ world, ofData (.frame columns) world = (.ok (ofFrame columns), world)) ∧
    (∀ world, (ofFrame columns).columnNames world =
      (.ok (.list ((columns.map fun column => column.label.display).eraseDups.map .text)),
        world)) ∧
    (∀ column ∈ columns, ∃ last, LastNamed columns column.label.display last ∧
      (ofFrame columns).column (.text column.label.display) = FrameColumn.served last) ∧
    ((∀ column ∈ columns,
        (ofFrame columns).column (.text column.label.display) = FrameColumn.served column) ↔
      ∀ a ∈ columns, ∀ b ∈ columns, a.label.display = b.label.display →
        FrameColumn.served a = FrameColumn.served b) ∧
    ∀ (judge : Judge) (check : Check) (serve : String → Act Value),
      (∀ name ∈ check.columns, ∃ column ∈ columns, column.label = .text name ∧
        serve name = FrameColumn.served column ∧
        ∀ other ∈ columns, other.label.display = name →
          FrameColumn.served other = FrameColumn.served column) →
      check.runUnder judge (ofFrame columns) =
        check.inquire.run { (ofFrame columns).under judge with column := serve } := by
  refine ⟨fun world => rfl, columnNames_ofFrame columns, fun column hcolumn => ?_,
    forall_column_iff hdistinct, runUnder_ofFrame hdistinct⟩
  obtain ⟨last, hlast⟩ := exists_lastNamed hcolumn
  exact ⟨last, hlast, column_of_lastNamed hdistinct hlast⟩

/-- A frame with labels of several kinds, each of its own text. -/
def mixedFrame : List FrameColumn :=
  [⟨.text "b", some (.list [.int 1]), none, .null⟩, ⟨.int 0, none, some (.list [.int (-1)]), .null⟩,
    ⟨.null, none, none, .tuple [.int 2]⟩, ⟨.bool true, some (.list []), none, .null⟩]

theorem ofFrame_serves_iff_mixed :
    Distinct mixedFrame ∧
      ∀ column ∈ mixedFrame,
        (ofFrame mixedFrame).column (.text column.label.display) = FrameColumn.served column := by
  have hdistinct : Distinct mixedFrame := by
    have hnumbers : Number.equals (.int 1) (.int 0) = false := rfl
    refine ⟨by decide, ?_⟩
    simp [mixedFrame, Value.equals, Number.ofValue?, hnumbers]
  have htexts : (mixedFrame.map fun column => column.label.display) = ["b", "0", "None", "True"] :=
    rfl
  have hnodup : (mixedFrame.map fun column => column.label.display).Nodup := by
    rw [htexts]
    decide
  obtain ⟨-, -, -, hserves, -⟩ := ofFrame_serves_iff hdistinct
  refine ⟨hdistinct, hserves.mpr fun a ha b hb htext => ?_⟩
  rw [List.inj_on_of_nodup_map hnodup ha hb htext]

/-- A text and a number for labels, both of one text. -/
def twinFrame : List FrameColumn :=
  [⟨.text "1", some (.list [.int (-1)]), none, .null⟩, ⟨.int 1, some (.list [.int 1]), none, .null⟩]

/-- A check of one column runs on what the source serves as this column. -/
theorem runOn_of_column {source : Source} {check : Check} {name : String} {column : Value}
    (hcolumns : check.columns = [name]) (world : World)
    (hnames : source.available world = (.ok [.text name], world))
    (hcolumn : source.column (.text name) world = (.ok column, world)) :
    check.runOn source world = (check.inquireColumns [column]).run source.surroundings world := by
  have hmissing : check.missingColumns [.text name] = [] := by
    simp [Check.missingColumns, hcolumns, Value.equals]
  simp only [Check.runOn, Check.runUnder, Check.inquire, Inquiry.run, surroundings, under, hnames,
    hmissing, hcolumns, Check.fetchColumns, hcolumn, List.nil_append]

/-- Of a text and a number with this text the number hides the text, if it comes later: a check of
    the text passes on the column of the number, though the values under the text itself fail. -/
theorem ofFrame_serves_twin :
    let check : Check := ⟨"a", .library .isPositive, ["1"]⟩
    Distinct twinFrame ∧
      (∀ world, (ofFrame twinFrame).column (.text "1") world = (.ok (.list [.int 1]), world)) ∧
      ((check.runOn (ofFrame twinFrame) {}).1.map fun outcome => (outcome.passed, outcome.total)) =
        .ok (true, 1) ∧
      ((check.runOn (ofFrame (twinFrame.take 1)) {}).1.map fun outcome =>
        (outcome.passed, outcome.total)) = .ok (false, 1) := by
  intro check
  have hdistinct : Distinct twinFrame := by
    refine ⟨by decide, ?_⟩
    simp [twinFrame, Value.equals, Number.ofValue?]
  have hfirst : Distinct (twinFrame.take 1) := by
    refine ⟨by decide, ?_⟩
    simp [twinFrame]
  have hlast : LastNamed twinFrame "1" ⟨.int 1, some (.list [.int 1]), none, .null⟩ :=
    @LastNamed.last _ _ (twinFrame.take 1) [] _ rfl rfl (List.forall_mem_nil _)
  have hown : LastNamed (twinFrame.take 1) "1" ⟨.text "1", some (.list [.int (-1)]), none, .null⟩ :=
    @LastNamed.last _ _ [] [] _ rfl rfl (List.forall_mem_nil _)
  have hserved := column_of_lastNamed hdistinct hlast
  have htexts : (twinFrame.map fun column => column.label.display) = ["1", "1"] := rfl
  have hnames (world : World) : (ofFrame twinFrame).available world = (.ok [.text "1"], world) := by
    simp only [available, listNames, columnNames_ofFrame, htexts]
    rfl
  refine ⟨hdistinct, congrFun hserved, ?_, ?_⟩
  · rw [runOn_of_column rfl {} (hnames {}) (congrFun hserved {})]
    rfl
  · rw [runOn_of_column rfl {} rfl (congrFun (column_of_lastNamed hfirst hown) {})]
    rfl

end TableAudit.Source
