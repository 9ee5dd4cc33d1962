import Mathlib.Data.List.Nodup
import TableAudit.Block.Definition
import TableAudit.Block.Records
import TableAudit.Proofs.Block.Acceptance
import TableAudit.Proofs.Block.Reading
import TableAudit.Proofs.Labelled

namespace TableAudit

/-- A check set that comes from compiling. -/
inductive CheckSet.Compiled (set : CheckSet) : Prop
  | text {scope : Scope} {name text : String} (h : Block.compileText scope name text = .ok set)
  | named {scope : Scope} {name : Value} {text : String} {world final : World}
      (h : Block.compileNamed scope name text world = (.ok set, final))
  | function {definition : Block.Definition} {name : String}
      (h : definition.compile name = .ok set)
  | records {language : Language} {name records : Value} {world final : World}
      (h : Block.build name records language world = (.ok set, final))
  | value {scope : Scope} {name declarations : Value} {world final : World}
      (h : Block.compileValue scope name declarations world = (.ok set, final))

/-- A check that can be asked about rows: its predicate can be called, and it has columns, each
    named once. -/
structure Check.WellFormed (check : Check) : Prop where
  callable : (Value.callable check.predicate).isCallable = true
  columns_ne_nil : check.columns ≠ []
  columns_nodup : check.columns.Nodup

/-- The labels of labelled values are distinct, and those of a list are its first occurrences. -/
theorem nodup_eraseDups (items : List String) : items.eraseDups.Nodup := by
  have hlabels := Labelled.labels_ofList (items.map fun item => (item, ()))
  rw [List.map_map, Function.comp_def, List.map_id'] at hlabels
  rw [← hlabels]
  exact (Labelled.ofList _).nodup

namespace Block

theorem nodup_of_compileFrom {scope : Scope} {done checks : List Check} {body : List Statement}
    (hdone : (done.map Check.name).Nodup) (h : compileFrom scope done body = .ok checks) :
    (checks.map Check.name).Nodup := by
  induction body generalizing done with
  | nil =>
    cases h
    exact hdone
  | cons s rest ih =>
    rcases compileFrom_cons_eq_ok h with ⟨-, h⟩ | ⟨-, check, -, hnew, h⟩
    · exact ih hdone h
    · exact ih (nodup_names_append hdone hnew) h

/-- A record that building goes past makes a check under a new name. -/
theorem buildFrom_cons_eq_ok {language : Language} {done checks : List Check} {record : Value}
    {rest : List Value} {world final : World}
    (h : buildFrom language done (record :: rest) world = (.ok checks, final)) :
    ∃ check reached, checkOfRecord language record world = (.ok check, reached) ∧
      check.name ∉ done.map Check.name ∧
      buildFrom language (done ++ [check]) rest reached = (.ok checks, final) := by
  rw [buildFrom] at h
  cases hrecord : checkOfRecord language record world with
  | mk result reached =>
    rw [hrecord] at h
    cases result with
    | error fault => cases h
    | ok check =>
      dsimp only at h
      by_cases hname : (done.any fun before => before.name == check.name) = true
      · rw [if_pos hname] at h
        cases h
      · rw [if_neg hname] at h
        exact ⟨check, reached, rfl, mt (any_name_eq_iff done check.name).mpr hname, h⟩

theorem nodup_of_buildFrom {language : Language} {done checks : List Check} {records : List Value}
    {world final : World} (hdone : (done.map Check.name).Nodup)
    (h : buildFrom language done records world = (.ok checks, final)) :
    (checks.map Check.name).Nodup := by
  induction records generalizing done world with
  | nil =>
    cases h
    exact hdone
  | cons record rest ih =>
    obtain ⟨check, reached, -, hnew, h⟩ := buildFrom_cons_eq_ok h
    exact ih (nodup_names_append hdone hnew) h

theorem wellFormed_eraseDups {name : String} {predicate : Callable} {columns : List String}
    (hcolumns : columns ≠ []) : Check.WellFormed ⟨name, predicate, columns.eraseDups⟩ where
  callable := rfl
  columns_ne_nil := mt eraseDups_eq_nil_iff.mp hcolumns
  columns_nodup := nodup_eraseDups columns

theorem wellFormed_of_declares {scope : Scope} {e : Expr} {check : Check}
    (h : e.Declares scope check) : check.WellFormed := by
  cases h with
  | declared hword hpath hcolumn hargs hpositional hcolumns hreferring hresolved hcallable =>
    exact wellFormed_eraseDups (mt (hcolumns.eq_nil_iff hreferring).mp hargs)

theorem wellFormed_of_columns {name : String} {predicate : Callable} {columns : Value}
    {check : Check} {world final : World}
    (h : checkOfColumns name predicate columns world = (.ok check, final)) : check.WellFormed := by
  unfold checkOfColumns at h
  cases hcolumns : recordColumns columns world with
  | mk found reached =>
    rw [hcolumns] at h
    cases found with
    | none => cases h
    | some texts =>
      dsimp only at h
      by_cases hempty : texts.isEmpty = true
      · rw [if_pos hempty] at h
        cases h
      · rw [if_neg hempty] at h
        cases h
        exact wellFormed_eraseDups (mt List.isEmpty_iff.mpr hempty)

/-- A record that makes a check makes it of its name, its predicate and its columns. -/
theorem exists_checkOfColumns_of_record {language : Language} {record : Value} {check : Check}
    {world final : World} (h : checkOfRecord language record world = (.ok check, final)) :
    ∃ name predicate columns reached,
      checkOfColumns name predicate columns reached = (.ok check, final) := by
  unfold checkOfRecord at h
  cases hparts : recordParts record world with
  | mk parts reached =>
    rw [hparts] at h
    cases parts with
    | none => cases h
    | some parts =>
      obtain ⟨title, value, columns⟩ := parts
      cases title with
      | text name =>
        dsimp only at h
        cases hcallable : value.callable? with
        | none =>
          rw [hcallable] at h
          cases h
        | some predicate =>
          rw [hcallable] at h
          dsimp only at h
          cases hanonymous : language.isAnonymous predicate with
          | error error =>
            rw [hanonymous] at h
            cases h
          | ok anonymous =>
            rw [hanonymous] at h
            cases anonymous with
            | true => cases h
            | false => exact ⟨name, predicate, columns, reached, h⟩
      | _ => cases h

theorem wellFormed_of_record {language : Language} {record : Value} {check : Check}
    {world final : World} (h : checkOfRecord language record world = (.ok check, final)) :
    check.WellFormed := by
  obtain ⟨name, predicate, columns, reached, h⟩ := exists_checkOfColumns_of_record h
  exact wellFormed_of_columns h

theorem wellFormed_of_compileFrom {scope : Scope} {done checks : List Check}
    {body : List Statement} (hdone : ∀ check ∈ done, check.WellFormed)
    (h : compileFrom scope done body = .ok checks) : ∀ check ∈ checks, check.WellFormed := by
  induction body generalizing done with
  | nil =>
    cases h
    exact hdone
  | cons s rest ih =>
    rcases compileFrom_cons_eq_ok h with ⟨-, h⟩ | ⟨-, check, hform, -, h⟩
    · exact ih hdone h
    · obtain ⟨e, -, hdeclares⟩ := (Statement.checkOfForm_eq_ok_iff scope s check).mp hform
      refine ih ?_ h
      rw [List.forall_mem_append, List.forall_mem_singleton]
      exact ⟨hdone, wellFormed_of_declares hdeclares⟩

theorem wellFormed_of_buildFrom {language : Language} {done checks : List Check}
    {records : List Value} {world final : World} (hdone : ∀ check ∈ done, check.WellFormed)
    (h : buildFrom language done records world = (.ok checks, final)) :
    ∀ check ∈ checks, check.WellFormed := by
  induction records generalizing done world with
  | nil =>
    cases h
    exact hdone
  | cons record rest ih =>
    obtain ⟨check, reached, hrecord, -, h⟩ := buildFrom_cons_eq_ok h
    refine ih ?_ h
    rw [List.forall_mem_append, List.forall_mem_singleton]
    exact ⟨hdone, wellFormed_of_record hrecord⟩

theorem exists_compileFrom_of_compile {scope : Scope} {name : String} {body : List Statement}
    {set : CheckSet} (h : compile scope name body = .ok set) :
    compileFrom scope [] body = .ok set.checks := by
  unfold compile at h
  cases hchecks : compileFrom scope [] body with
  | error error =>
    rw [hchecks] at h
    cases h
  | ok checks =>
    rw [hchecks] at h
    cases h
    rfl

/-- The checks of a block that compiles are those that its statements declare. -/
theorem declared_of_compile {scope : Scope} {name : String} {body : List Statement} {set : CheckSet}
    (h : compile scope name body = .ok set) : set.name = name ∧ Declared scope body set.checks := by
  have hchecks := exists_compileFrom_of_compile h
  constructor
  · rw [compile, hchecks] at h
    exact congrArg CheckSet.name (Except.ok.inj h).symm
  · have hnone : (([] : List Check).map Check.name).Nodup := List.nodup_nil
    rcases declared_or_refused scope body hnone with ⟨checks, hdeclared, hnames⟩ |
      ⟨before, s, after, checks, error, rfl, hbefore, hnames, hrefused⟩
    · have happend := compileFrom_append hdeclared hnames []
      rw [List.append_nil, hchecks] at happend
      cases happend
      exact hdeclared
    · rw [compileFrom_append hbefore hnames, compileFrom_of_refused hrefused] at hchecks
      cases hchecks

/-- A text compiles if it is read as a block that does. -/
theorem compileText_eq_ok_iff {scope : Scope} {name text : String} {set : CheckSet} :
    compileText scope name text = .ok set ↔
      ∃ body, read scope.language.named? (Text.Margin.remove text.toList) = .ok body ∧
        compile scope name body = .ok set := by
  unfold compileText
  rw [bind_eq_ok_iff]
  refine exists_congr fun body => and_congr_right fun _ => ?_
  cases compile scope name body with
  | error error => exact ⟨nofun, nofun⟩
  | ok compiled =>
    change Except.ok compiled = Except.ok set ↔ _
    rw [Except.ok.injEq, Except.ok.injEq]

/-- The body of a function can be had if there is a text of the definition, nothing keeps that from
    being read, and a function is defined in it. -/
theorem Definition.body_eq_ok_iff {definition : Definition} {body : List Statement} :
    definition.body = .ok body ↔ ∃ text statements scan found, definition.source = some text ∧
      unreadable? (Text.Margin.remove text.toList) = none ∧
      Grammar.readDefinition definition.globals.language.named? (Text.Margin.remove text.toList) =
        .ok (statements, scan) ∧
      firstBody? statements = some found ∧
      body = found.map (Stmt.resolve scan (Text.Margin.remove text.toList)) := by
  unfold Definition.body
  cases hsource : definition.source with
  | none => simp
  | some text =>
    cases hreadable : unreadable? (Text.Margin.remove text.toList) with
    | some fault => simp [hreadable]
    | none =>
      cases hread : Grammar.readDefinition definition.globals.language.named?
          (Text.Margin.remove text.toList) with
      | error fault => simp [hreadable, hread]
      | ok found =>
        obtain ⟨statements, scan⟩ := found
        cases hfirst : firstBody? statements with
        | none => simp [hreadable, hread, hfirst]
        | some body => simp [hreadable, hread, hfirst, eq_comm]

/-- A function compiles if its body can be had and compiles under its variables. -/
theorem Definition.compile_eq_ok_iff {definition : Definition} {name : String} {set : CheckSet} :
    definition.compile name = .ok set ↔
      ∃ body, definition.body = .ok body ∧ ∃ scope, definition.scope = .ok scope ∧
        Block.compile scope name body = .ok set := by
  unfold Definition.compile
  simp only [bind_eq_ok_iff]
  refine exists_congr fun body => and_congr_right fun _ => exists_congr fun scope =>
    and_congr_right fun _ => ?_
  cases Block.compile scope name body with
  | error error => exact ⟨nofun, nofun⟩
  | ok compiled =>
    change Except.ok compiled = Except.ok set ↔ _
    rw [Except.ok.injEq, Except.ok.injEq]

theorem checks_of_ofFields {fields : Field.Fields} {checks : List Check} {set : CheckSet}
    (h : CheckSet.ofFields fields checks = .ok set) : set.checks = checks := by
  unfold CheckSet.ofFields at h
  dsimp only at h
  split at h
  · cases h
    rfl
  · cases h

theorem exists_buildFrom_of_build {language : Language} {name records : Value} {set : CheckSet}
    {world final : World} (h : build name records language world = (.ok set, final)) :
    ∃ items begun reached, buildFrom language [] items begun = (.ok set.checks, reached) := by
  unfold build Job.andThen at h
  cases hitems : Job.ofAct records.collect world with
  | mk result begun =>
    rw [hitems] at h
    cases result with
    | error fault => cases h
    | ok items =>
      dsimp only at h
      cases hbuilt : buildFrom language [] items begun with
      | mk result reached =>
        rw [hbuilt] at h
        cases result with
        | error fault => cases h
        | ok checks =>
          dsimp only at h
          cases hset : CheckSet.ofFields [("name", name)] checks with
          | error issues =>
            rw [hset] at h
            cases h
          | ok built =>
            rw [hset] at h
            cases h
            rw [checks_of_ofFields hset]
            exact ⟨items, begun, final, hbuilt⟩

theorem eq_ok_of_reported {result : Except Fault CheckSet} {set : CheckSet} {world final : World}
    (h : reported result world = (.ok set, final)) : result = .ok set := by
  unfold reported at h
  cases result <;> cases h
  rfl

end Block

namespace CheckSet.Compiled

open Block

variable {set : CheckSet}

/-- A compiled set has the checks of a block of statements, or those of records. -/
theorem exists_checks (h : set.Compiled) :
    (∃ scope body, compileFrom scope [] body = .ok set.checks) ∨
      ∃ language records world final,
        buildFrom language [] records world = (.ok set.checks, final) := by
  have htext {scope : Scope} {name text : String} (h : compileText scope name text = .ok set) :
      ∃ scope body, compileFrom scope [] body = .ok set.checks := by
    obtain ⟨body, -, hcompile⟩ := compileText_eq_ok_iff.mp h
    exact ⟨scope, body, exists_compileFrom_of_compile hcompile⟩
  cases h with
  | text h => exact .inl (htext h)
  | @named _ name _ _ _ h =>
    cases name with
    | text name => exact .inl (htext (eq_ok_of_reported h))
    | _ => cases h
  | function h =>
    obtain ⟨body, -, scope, -, hcompile⟩ := Definition.compile_eq_ok_iff.mp h
    exact .inl ⟨scope, body, exists_compileFrom_of_compile hcompile⟩
  | records h => exact .inr ⟨_, exists_buildFrom_of_build h⟩
  | value h =>
    unfold compileValue at h
    split at h
    · exact .inl (htext (eq_ok_of_reported h))
    · split at h
      · exact .inr ⟨_, exists_buildFrom_of_build h⟩
      · cases h
    · cases h

/-- No two checks of a compiled set have one name. -/
theorem nodup_names (h : set.Compiled) : set.names.Nodup := by
  have hnone : (([] : List Check).map Check.name).Nodup := List.nodup_nil
  rcases h.exists_checks with ⟨scope, body, h⟩ | ⟨language, records, world, final, h⟩
  · exact nodup_of_compileFrom hnone h
  · exact nodup_of_buildFrom hnone h

theorem wellFormed (h : set.Compiled) : ∀ check ∈ set.checks, check.WellFormed := by
  have hnone : ∀ check ∈ ([] : List Check), check.WellFormed := List.forall_mem_nil _
  rcases h.exists_checks with ⟨scope, body, h⟩ | ⟨language, records, world, final, h⟩
  · exact wellFormed_of_compileFrom hnone h
  · exact wellFormed_of_buildFrom hnone h

end CheckSet.Compiled

end TableAudit
