import TableAudit.Outcome.Fields
import TableAudit.Proofs.Summary.Union

namespace TableAudit

namespace Field

theorem fromUTF8?_eq_some_iff {octets : List UInt8} {s : String} :
    String.fromUTF8? ⟨octets.toArray⟩ = some s ↔ octets = s.toUTF8.data.toList := by
  unfold String.fromUTF8?
  by_cases hvalid : ByteArray.IsValidUTF8 ⟨octets.toArray⟩
  · rw [dif_pos hvalid, Option.some_inj]
    constructor <;> rintro rfl <;> rfl
  · rw [dif_neg hvalid]
    refine iff_of_false (Option.some_ne_none s).symm ?_
    rintro rfl
    exact hvalid s.isValidUTF8

theorem decoded_eq_ok_iff {wrong : IssueKind} {octets : List UInt8} {s : String} :
    decoded wrong octets = .ok s ↔ octets = s.toUTF8.data.toList := by
  rw [decoded, ← fromUTF8?_eq_some_iff]
  cases String.fromUTF8? ⟨octets.toArray⟩ <;> simp

theorem Readers.documented_standard : Readers.standard.Documented where
  bool_bool _ := rfl
  int_int _ := rfl
  text_eq_ok_iff value s := by
    change Field.text value = .ok s ↔ _
    cases value with
    | bytes octets => simp only [Field.text, decoded_eq_ok_iff, reduceCtorEq, false_or, Value.bytes.injEq]
    | _ => simp [Field.text]
  sequence_list _ _ := rfl

/-- The keys of a dictionary are texts, or octets of texts in UTF-8. -/
def HasLabels (entries : List (Value × Value)) : Prop :=
  ∀ entry ∈ entries, ∃ label : String,
    entry.1 = .text label ∨ entry.1 = .bytes label.toUTF8.data.toList

namespace Reading

variable {readers : Readers} (hreaders : readers.Documented)

include hreaders

theorem keyIssues_eq_nil_iff {place : List String} {entries : List (Value × Value)} :
    keyIssues readers place entries = [] ↔ HasLabels entries := by
  rw [keyIssues, List.filterMap_eq_nil_iff]
  refine forall₂_congr fun entry _ => ?_
  simp only [← hreaders.text_eq_ok_iff]
  cases htext : readers.text entry.1 with
  | ok label => exact iff_of_true rfl ⟨label, rfl⟩
  | error kind => exact iff_of_false (Option.some_ne_none _) fun ⟨label, h⟩ => by cases h

/-- A dictionary is read if its keys are texts. -/
theorem labelled_of_hasLabels {entries : List (Value × Value)} (h : HasLabels entries)
    (place : List String) :
    labelled readers place (.dict entries) = pure (Labelled.ofList (named readers entries)) := by
  unfold labelled
  dsimp only
  rw [(keyIssues_eq_nil_iff hreaders).mpr h]

theorem labelled_of_not_hasLabels {entries : List (Value × Value)} (h : ¬ HasLabels entries)
    (place : List String) : (labelled readers place (.dict entries)).value? = none := by
  unfold labelled
  dsimp only
  cases hissues : keyIssues readers place entries with
  | nil => exact absurd ((keyIssues_eq_nil_iff hreaders).mp hissues) h
  | cons issue issues => rfl

omit hreaders

section Items

variable {α β : Type} {read : List String → Value → Reading α}

/-- Items that can each be read are read together. -/
theorem itemsFrom_map {encode : β → Value} {decode : β → α} {items : List β}
    (hread : ∀ item ∈ items, ∀ place, read place (encode item) = pure (decode item)) (name : String)
    (index : Nat) : itemsFrom name read index (items.map encode) = pure (items.map decode) := by
  induction items generalizing index with
  | nil => rfl
  | cons item rest ih =>
    obtain ⟨hitem, hrest⟩ := List.forall_mem_cons.mp hread
    rw [List.map_cons, itemsFrom, hitem, ih hrest]
    rfl

/-- One item that cannot be read is enough for no list of items to be read. -/
theorem value?_itemsFrom {items : List Value} {item : Value} (hitem : item ∈ items)
    (hread : ∀ place, (read place item).value? = none) (name : String) (index : Nat) :
    (itemsFrom name read index items).value? = none := by
  induction items generalizing index with
  | nil => cases hitem
  | cons first rest ih =>
    rw [itemsFrom]
    dsimp only
    rcases List.mem_cons.mp hitem with rfl | hrest
    · rw [hread]
      rfl
    · rw [ih hrest]
      cases (read [name, toString index] first).value? <;> rfl

/-- A field that holds a list is read as its items are, and leaves the world as it is. -/
theorem sequenceOf_list (hreaders : readers.Documented) {name : String}
    {default : Option (List α)} {wrong : IssueKind} {fields : Fields} {items : List Value}
    (hfield : fields.get? name = some (.list items)) :
    sequenceOf readers name default wrong read fields =
      Pure.pure (itemsFrom name read 0 items) := by
  funext world
  unfold sequenceOf
  rw [hfield]
  dsimp only
  rw [hreaders.sequence_list]
  rfl

end Items

end Reading

end Field

namespace Outcome

/-- The fields of an outcome with a status, failing rows with dictionaries of their values, perhaps a
    message, and the number of rows evaluated. -/
def typedFields (passed : Bool) (rows : List Int) (dicts : List (List (Value × Value)))
    (message : Option String) (total : Int) : Field.Fields :=
  [("passed", .bool passed), ("failing_rows", .list (rows.map .int)),
    ("failing_values", .list (dicts.map .dict))] ++
    (message.map fun text => ("message", .text text)).toList ++ [("total_rows", .int total)]

section Typed

variable (passed : Bool) (rows : List Int) (dicts : List (List (Value × Value)))
  (message : Option String) (total : Int) (world : World) {readers : Field.Readers}

theorem get?_typedFields :
    let fields := typedFields passed rows dicts message total
    fields.get? "passed" = some (.bool passed) ∧
      fields.get? "failing_rows" = some (.list (rows.map .int)) ∧
      fields.get? "failing_values" = some (.list (dicts.map .dict)) ∧
      fields.get? "message" = message.map .text ∧
      fields.get? "total_rows" = some (.int total) := by
  cases message <;> exact ⟨rfl, rfl, rfl, rfl, rfl⟩

/-- Fields of the right types are read as what they hold, whatever the world is; only the dictionaries
    may not be. A negative total is refused while it is read, with the issue with which the parts would
    be refused. -/
theorem ofFields_typedFields (hreaders : readers.Documented) :
    let values := Field.Reading.itemsFrom "failing_values" (Field.Reading.labelled readers) 0
      (dicts.map .dict)
    (∀ found, values = .pure found →
      ofFields (typedFields passed rows dicts message total) readers world =
        (make passed rows found (message.getD "") total, world)) ∧
    (values.value? = none → ∃ issues,
      ofFields (typedFields passed rows dicts message total) readers world = (.error issues, world)) := by
  obtain ⟨hpassed, hrows, hvalues, hmessage, htotal⟩ :=
    get?_typedFields passed rows dicts message total
  generalize typedFields passed rows dicts message total = fields at *
  replace hpassed : Field.Reading.required "passed" readers.bool fields = .pure passed := by
    rw [Field.Reading.required, hpassed]
    dsimp only
    rw [hreaders.bool_bool]
    rfl
  have hitems : Field.Reading.itemsFrom "failing_rows"
      (fun place value => .ofExcept place (readers.int value)) 0 (rows.map .int) =
        .pure (rows.map id) := by
    refine Field.Reading.itemsFrom_map (fun row _ place => ?_) "failing_rows" 0
    rw [hreaders.int_int]
    rfl
  replace hmessage : Field.Reading.withDefault "message" "" readers.text fields =
      .pure (message.getD "") := by
    rw [Field.Reading.withDefault, hmessage]
    cases message with
    | none => rfl
    | some text =>
      dsimp only [Option.map_some]
      rw [(hreaders.text_eq_ok_iff (.text text) text).mpr (.inl rfl)]
      rfl
  unfold ofFields
  rw [hpassed, hmessage, Field.Reading.sequenceOf_list hreaders hrows, hitems, List.map_id,
    pure_bind, Field.Reading.sequenceOf_list hreaders hvalues, pure_bind, Field.Reading.required,
    htotal]
  dsimp only
  refine ⟨fun found hfound => ?_, fun hnone => ?_⟩
  · rw [hfound]
    by_cases hle : 0 ≤ total
    · have hread : readers.intFrom 0 (.int total) = .ok total := by
        rw [Field.Readers.intFrom, hreaders.int_int]
        exact if_pos hle
      rw [hread]
      rfl
    · have hread : readers.intFrom 0 (.int total) = .error (.atLeast "0") := by
        rw [Field.Readers.intFrom, hreaders.int_int]
        exact if_neg hle
      rw [hread, make, dif_neg hle]
      rfl
  · rw [hnone]
    exact ⟨_, rfl⟩

/-- Where the keys of the dictionaries are texts, the parts are those of the fields. -/
theorem ofFields_of_hasLabels (hreaders : readers.Documented)
    (h : ∀ entries ∈ dicts, Field.HasLabels entries) :
    ofFields (typedFields passed rows dicts message total) readers world =
      (make passed rows
        (dicts.map fun entries => Labelled.ofList (Field.Reading.named readers entries))
        (message.getD "") total, world) :=
  (ofFields_typedFields passed rows dicts message total world hreaders).1 _
    (Field.Reading.itemsFrom_map (fun entries hentries place =>
      Field.Reading.labelled_of_hasLabels hreaders (h entries hentries) place) "failing_values" 0)

/-- The keys of the dictionaries are texts where an outcome is accepted. -/
theorem hasLabels_of_ofFields (hreaders : readers.Documented) {outcome : Outcome}
    (h : (ofFields (typedFields passed rows dicts message total) readers world).1 = .ok outcome) :
    ∀ entries ∈ dicts, Field.HasLabels entries := by
  intro entries hentries
  by_contra hlabels
  have hnone := Field.Reading.value?_itemsFrom (List.mem_map_of_mem hentries)
    (Field.Reading.labelled_of_not_hasLabels hreaders hlabels) "failing_values" 0
  obtain ⟨issues, hissues⟩ :=
    (ofFields_typedFields passed rows dicts message total world hreaders).2 hnone
  rw [hissues] at h
  cases h

/-- The fields of an outcome that comes from failing rows. -/
theorem ofRawFailures_eq :
    ofRawFailures (rows.map .int) (dicts.map .dict) (.int total) readers =
      ofFields (typedFields rows.isEmpty rows dicts (some (messageFor rows.length)) total)
        readers := by
  rw [ofRawFailures, List.isEmpty_map, List.length_map]
  rfl

/-- Fields of the right types make an outcome exactly when the keys of the dictionaries are texts, the
    total is no less than zero, there are as many dictionaries as failing rows, the failing rows ascend
    strictly within the rows evaluated, a passed outcome has none, and a failed one without any
    evaluated no row. The outcome then has these parts, and no more rows fail than were evaluated.
    Where the status comes from the failing rows, the last two are not needed. -/
theorem accepted_iff (hreaders : readers.Documented) :
    ((∃ outcome, (ofFields (typedFields passed rows dicts message total) readers world).1 = .ok outcome) ↔
      (∀ entries ∈ dicts, Field.HasLabels entries) ∧ 0 ≤ total ∧ rows.length = dicts.length ∧
        (rows.Pairwise (· < ·) ∧ ∀ row ∈ rows, 1 ≤ row ∧ row ≤ total) ∧
        (passed = true → rows = []) ∧ (passed = false → rows = [] → total = 0)) ∧
    (∀ outcome, (ofFields (typedFields passed rows dicts message total) readers world).1 = .ok outcome →
      outcome.passed = passed ∧ outcome.rows = rows ∧
        outcome.values =
          dicts.map (fun entries => Labelled.ofList (Field.Reading.named readers entries)) ∧
        outcome.message = message.getD "" ∧ outcome.total = total ∧
        (outcome.failureCount : Int) ≤ total) ∧
    ((∃ outcome, (ofRawFailures (rows.map .int) (dicts.map .dict) (.int total) readers world).1 =
        .ok outcome) ↔
      (∀ entries ∈ dicts, Field.HasLabels entries) ∧ 0 ≤ total ∧ rows.length = dicts.length ∧
        (rows.Pairwise (· < ·) ∧ ∀ row ∈ rows, 1 ≤ row ∧ row ≤ total)) := by
  have haccepts (passed : Bool) (message : Option String) :
      (∃ outcome, (ofFields (typedFields passed rows dicts message total) readers world).1 =
          .ok outcome) ↔
        (∀ entries ∈ dicts, Field.HasLabels entries) ∧ 0 ≤ total ∧ rows.length = dicts.length ∧
          (rows.Pairwise (· < ·) ∧ ∀ row ∈ rows, 1 ≤ row ∧ row ≤ total) ∧
          (passed = true → rows = []) ∧ (passed = false → rows = [] → total = 0) := by
    by_cases hlabels : ∀ entries ∈ dicts, Field.HasLabels entries
    · rw [ofFields_of_hasLabels _ _ _ _ _ _ hreaders hlabels, exists_make_eq_ok_iff, firstFlaw_eq_none_iff,
        List.length_map, and_iff_right hlabels, and_assoc]
      rfl
    · refine iff_of_false ?_ fun h => hlabels h.1
      rintro ⟨outcome, houtcome⟩
      exact hlabels (hasLabels_of_ofFields _ _ _ _ _ _ hreaders houtcome)
  refine ⟨haccepts passed message, ?_, ?_⟩
  · intro outcome houtcome
    have hlabels := hasLabels_of_ofFields _ _ _ _ _ _ hreaders houtcome
    rw [ofFields_of_hasLabels _ _ _ _ _ _ hreaders hlabels] at houtcome
    obtain ⟨hpassed, hrows, hvalues, hmessage, htotal⟩ := parts_of_make houtcome
    exact ⟨hpassed, hrows, hvalues, hmessage, htotal, htotal ▸ outcome.failureCount_le_total⟩
  · -- the status that the rows give meets the last two conditions
    have hstatus : (rows.isEmpty = true → rows = []) ∧
        (rows.isEmpty = false → rows = [] → total = 0) := by
      cases rows <;> simp
    rw [ofRawFailures_eq, haccepts]
    exact ⟨fun ⟨hlabels, htotal, hlength, hplaces, _⟩ => ⟨hlabels, htotal, hlength, hplaces⟩,
      fun ⟨hlabels, htotal, hlength, hplaces⟩ => ⟨hlabels, htotal, hlength, hplaces, hstatus⟩⟩

end Typed

/-- Two rows of values, one of them under the octets of a text. -/
def labelledRows : List (List (Value × Value)) :=
  [[(.text "x", .int (-1))], [(.bytes "x".toUTF8.data.toList, .null)]]

theorem accepted_iff_standard :
    Field.Readers.standard.Documented ∧
      ∃ outcome, (ofFields (typedFields false [1, 3] labelledRows none 3) .standard {}).1 =
        .ok outcome := by
  obtain ⟨haccepted, -⟩ :=
    accepted_iff false [1, 3] labelledRows none 3 {} Field.Readers.documented_standard
  refine ⟨Field.Readers.documented_standard, haccepted.mpr ⟨?_, by decide, rfl, by decide, nofun, nofun⟩⟩
  intro entries hentries entry hentry
  simp only [labelledRows, List.mem_cons, List.not_mem_nil, or_false] at hentries
  rcases hentries with rfl | rfl
  · obtain rfl := List.mem_singleton.mp hentry
    exact ⟨"x", .inl rfl⟩
  · obtain rfl := List.mem_singleton.mp hentry
    exact ⟨"x", .inr rfl⟩

/-- A row of values that stand under a number. -/
def numbered : List (Value × Value) :=
  [(.int 1, .int 2)]

theorem not_accepted_numbered :
    ¬ ((∃ outcome, (ofFields (typedFields false [1] [numbered] none 1) .standard {}).1 = .ok outcome) ↔
      0 ≤ (1 : Int) ∧ [(1 : Int)].length = [numbered].length ∧
        ([(1 : Int)].Pairwise (· < ·) ∧ ∀ row ∈ [(1 : Int)], 1 ≤ row ∧ row ≤ 1) ∧
        (false = true → [(1 : Int)] = []) ∧ (false = false → [(1 : Int)] = [] → (1 : Int) = 0)) := by
  intro h
  obtain ⟨outcome, houtcome⟩ := h.mpr (by simp)
  cases houtcome

end Outcome

end TableAudit
