import TableAudit.Module.Perform
import TableAudit.Proofs.Block.Faults

namespace TableAudit

namespace Block

/-- A value that is no declaration escapes if errors have no text for it. -/
theorem escapesBy_refusal_iff {α : Type} (language : Language) (value : Value) (reason : Reason)
    (fault : Fault) :
    EscapesBy (.error (refusal language value reason) : Except Fault α) fault ↔
      ∃ error, language.print value = .error error ∧ fault = .raised error := by
  unfold refusal
  cases language.print value with
  | ok shown =>
    refine ⟨fun h => absurd h (not_escapesBy_compile _ fault), ?_⟩
    rintro ⟨error, ⟨⟩, -⟩
  | error error =>
    rw [escapesBy_raised_iff]
    simp

/-- A record ends in an error that is none of compilation: it makes no check for what it is, and errors
    have no text for it; or it cannot be told whether its predicate has a name. -/
inductive RecordEscapes (language : Language) (world : World) (record : Value) : Raised → Prop
  | notARecord {error : Raised} (hparts : (recordParts record world).1 = none)
      (hprint : language.print record = .error error) : RecordEscapes language world record error
  | nameNotText {title predicate columns : Value} {error : Raised}
      (hparts : (recordParts record world).1 = some (title, predicate, columns))
      (htitle : ∀ name, title ≠ .text name) (hprint : language.print record = .error error) :
      RecordEscapes language world record error
  | unnamed {name : String} {predicate columns : Value} {target : Callable} {error : Raised}
      (hparts : (recordParts record world).1 = some (.text name, predicate, columns))
      (htarget : predicate.callable? = some target)
      (hname : language.isAnonymous target = .error error) :
      RecordEscapes language world record error

theorem not_escapesBy_columns (name : String) (predicate : Callable) (columns : Value)
    (world : World) (fault : Fault) :
    ¬ EscapesBy (checkOfColumns name predicate columns world).1 fault := by
  unfold checkOfColumns
  rcases recordColumns columns world with ⟨_ | texts, reached⟩
  · exact not_escapesBy_compile _ fault
  · by_cases hempty : texts.isEmpty = true
    · simp only [hempty, if_true]
      exact not_escapesBy_compile _ fault
    · simp only [hempty, Bool.false_eq_true, if_false]
      exact not_escapesBy_ok _ fault

section Record

variable {language : Language} {world reached : World} {record title predicate columns : Value}

theorem checkOfRecord_of_none (hparts : recordParts record world = (none, reached)) :
    checkOfRecord language record world = (.error (refusal language record .notARecord), reached) := by
  rw [checkOfRecord, hparts]

theorem checkOfRecord_of_title
    (hparts : recordParts record world = (some (title, predicate, columns), reached))
    (htitle : ∀ name, title ≠ .text name) :
    checkOfRecord language record world =
      (.error (refusal language record .nameNotText), reached) := by
  unfold checkOfRecord
  rw [hparts]
  cases title <;> first | rfl | exact absurd rfl (htitle _)

theorem checkOfRecord_of_text {name : String}
    (hparts : recordParts record world = (some (.text name, predicate, columns), reached)) :
    checkOfRecord language record world =
      match predicate.callable? with
      | none => (.error (.compile (errorFor name .recordNotCallable)), reached)
      | some target =>
        match language.isAnonymous target with
        | .error error => (.error (.raised error), reached)
        | .ok true => (.error (.compile (errorFor name .recordAnonymous)), reached)
        | .ok false => checkOfColumns name target columns reached := by
  unfold checkOfRecord
  rewrite [hparts]
  rfl

/-- A record of three parts of which the first is a text escapes for its predicate alone. -/
theorem recordEscapes_of_text_iff {name : String} {error : Raised}
    (hparts : recordParts record world = (some (.text name, predicate, columns), reached)) :
    RecordEscapes language world record error ↔
      ∃ target, predicate.callable? = some target ∧ language.isAnonymous target = .error error := by
  have hfirst := congrArg Prod.fst hparts
  constructor
  · intro h
    cases h with
    | notARecord hnone => cases hfirst.symm.trans hnone
    | nameNotText hsome htitle =>
      cases hfirst.symm.trans hsome
      exact absurd rfl (htitle name)
    | unnamed hsome htarget hname =>
      cases hfirst.symm.trans hsome
      exact ⟨_, htarget, hname⟩
  · rintro ⟨target, htarget, hname⟩
    exact .unnamed hfirst htarget hname

/-- Any other record escapes if errors have no text for it. -/
theorem recordEscapes_of_refused_iff {error : Raised}
    (hparts : ∀ name predicate columns,
      (recordParts record world).1 ≠ some (.text name, predicate, columns)) :
    RecordEscapes language world record error ↔ language.print record = .error error := by
  constructor
  · intro h
    cases h with
    | notARecord _ hprint => exact hprint
    | nameNotText _ _ hprint => exact hprint
    | unnamed hsome => exact absurd hsome (hparts _ _ _)
  · intro hprint
    cases hfirst : (recordParts record world).1 with
    | none => exact .notARecord hfirst hprint
    | some parts =>
      obtain ⟨title, predicate, columns⟩ := parts
      refine .nameNotText hfirst (fun name htitle => ?_) hprint
      exact hparts name predicate columns (htitle ▸ hfirst)

theorem escapesBy_checkOfRecord_iff (language : Language) (world : World) (record : Value)
    (fault : Fault) :
    EscapesBy (checkOfRecord language record world).1 fault ↔
      ∃ error, RecordEscapes language world record error ∧ fault = .raised error := by
  have hrefused {reason : Reason} (hparts : ∀ name predicate columns,
      (recordParts record world).1 ≠ some (.text name, predicate, columns)) :
      EscapesBy (.error (refusal language record reason) : Except Fault Check) fault ↔
        ∃ error, RecordEscapes language world record error ∧ fault = .raised error := by
    simp only [escapesBy_refusal_iff, recordEscapes_of_refused_iff hparts]
  rcases hparts : recordParts record world with ⟨_ | ⟨title, predicate, columns⟩, reached⟩
  · rw [checkOfRecord_of_none hparts]
    refine hrefused fun name predicate columns => ?_
    rw [hparts]
    exact nofun
  by_cases htitle : ∃ name, title = .text name
  · obtain ⟨name, rfl⟩ := htitle
    simp only [checkOfRecord_of_text hparts, recordEscapes_of_text_iff hparts]
    cases predicate.callable? with
    | none => simp [not_escapesBy_compile]
    | some target =>
      simp only [Option.some.injEq, exists_eq_left']
      cases language.isAnonymous target with
      | error error => simp [escapesBy_raised_iff]
      | ok anonymous =>
        cases anonymous with
        | true => simp [not_escapesBy_compile]
        | false => simp [not_escapesBy_columns]
  · have hother (name : String) : title ≠ .text name := fun h => htitle ⟨name, h⟩
    rw [checkOfRecord_of_title hparts hother]
    refine hrefused fun name predicate columns => ?_
    rw [hparts]
    rintro ⟨⟩
    exact hother name rfl

end Record

section Records

variable {language : Language} {done checks : List Check} {world reached : World}

theorem buildFrom_cons_of_ok {check : Check} {record : Value} (rest : List Value)
    (hrecord : checkOfRecord language record world = (.ok check, reached))
    (hname : check.name ∉ done.map Check.name) :
    buildFrom language done (record :: rest) world =
      buildFrom language (done ++ [check]) rest reached := by
  rw [buildFrom, hrecord]
  exact if_neg (mt (any_name_eq_iff done check.name).mp hname)

/-- Records end in an error that is none of compilation if one of them does, after others that make
    checks under different names. -/
theorem escapesBy_buildFrom_iff (records : List Value) (fault : Fault) :
    EscapesBy (buildFrom language done records world).1 fault ↔
      ∃ before record after checks reached error, records = before ++ record :: after ∧
        buildFrom language done before world = (.ok checks, reached) ∧
        RecordEscapes language reached record error ∧ fault = .raised error := by
  induction records generalizing done world with
  | nil =>
    refine iff_of_false (not_escapesBy_ok done fault) ?_
    rintro ⟨before, record, after, -, -, -, hrecords, -⟩
    exact List.append_ne_nil_of_right_ne_nil before (List.cons_ne_nil record after) hrecords.symm
  | cons record rest ih =>
    have hescapes := escapesBy_checkOfRecord_iff language world record fault
    constructor
    · intro h
      rcases hrecord : checkOfRecord language record world with ⟨found | check, next⟩
      · rw [buildFrom, hrecord] at h
        rw [hrecord, escapesBy_error_iff] at hescapes
        obtain ⟨error, herror, rfl⟩ := hescapes.mp ((escapesBy_error_iff found fault).mp h)
        exact ⟨[], record, rest, done, world, error, rfl, rfl, herror, rfl⟩
      · by_cases hname : check.name ∈ done.map Check.name
        · rw [buildFrom, hrecord] at h
          dsimp only at h
          rw [if_pos ((any_name_eq_iff done check.name).mpr hname)] at h
          exact absurd h (not_escapesBy_compile _ fault)
        · rw [buildFrom_cons_of_ok rest hrecord hname] at h
          obtain ⟨before, found, after, checks, reached, error, rfl, hbefore, herror, rfl⟩ := ih.mp h
          refine ⟨record :: before, found, after, checks, reached, error, rfl, ?_, herror, rfl⟩
          rw [buildFrom_cons_of_ok before hrecord hname]
          exact hbefore
    · rintro ⟨before, found, after, checks, reached, error, hrecords, hbefore, herror, rfl⟩
      cases before with
      | nil =>
        cases hrecords
        cases hbefore
        have hfault := hescapes.mpr ⟨error, herror, rfl⟩
        rcases hrecord : checkOfRecord language record world with ⟨found | check, next⟩
        · rw [hrecord, escapesBy_error_iff] at hfault
          rw [buildFrom, hrecord]
          exact (escapesBy_error_iff found _).mpr hfault
        · rw [hrecord] at hfault
          exact absurd hfault (not_escapesBy_ok check _)
      | cons first before =>
        cases hrecords
        obtain ⟨check, next, hrecord, hname, hbefore⟩ := buildFrom_cons_eq_ok hbefore
        rw [buildFrom_cons_of_ok _ hrecord hname]
        exact ih.mpr ⟨before, found, after, checks, reached, error, rfl, hbefore, herror, rfl⟩

/-- What goes through items gives them. -/
theorem exists_collect_of_isIterable {records : Value} (h : isIterable records = true)
    (world : World) : ∃ items reached, records.collect world = (.ok items, reached) := by
  have hitems (h : records.items?.isSome = true) :
      ∃ items reached, records.collect world = (.ok items, reached) := by
    obtain ⟨items, hitems⟩ := Option.isSome_iff_exists.mp h
    exact ⟨items, world, Value.collect_of_items? hitems world⟩
  cases records with
  | stream number => exact ⟨_, _, rfl⟩
  | _ => exact hitems h

theorem escapesBy_build_iff {title : String} {records : Value} {items : List Value} {begun : World}
    (hitems : records.collect world = (.ok items, begun)) (fault : Fault) :
    EscapesBy (build (.text title) records language world).1 fault ↔
      EscapesBy (buildFrom language [] items begun).1 fault := by
  unfold build Job.andThen Job.ofAct
  simp only [hitems]
  rcases buildFrom language [] items begun with ⟨found | checks, final⟩
  · exact (escapesBy_error_iff found fault).trans (escapesBy_error_iff found fault).symm
  · exact iff_of_false (not_escapesBy_ok _ fault) (not_escapesBy_ok checks fault)

theorem reported_fst (result : Except Fault CheckSet) (world : World) :
    (reported result world).1 = result := by
  cases result <;> rfl

end Records

end Block

namespace Module

open Block

/-- What makes a name and declarations escape, and the fault by which they do. -/
inductive Escapes (scope : Scope) (w : Workspace) : Value → Value → Fault → Prop
  /-- The name is no text, and errors have no text for it. -/
  | name {title declarations : Value} {error : Raised} (htitle : ∀ text, title ≠ .text text)
      (hprint : scope.language.print title = .error error) :
      Escapes scope w title declarations (.raised error)
  /-- A text has a null character or a surrogate. -/
  | unreadText {title source : String} {fault : Fault}
      (hsource : unreadable? source.toList = some fault) :
      Escapes scope w (.text title) (.text source) fault
  /-- In a text the first statement that cannot stand is refused for an argument without a column,
      which cannot be printed. -/
  | namelessText {title source : String} {body : List Statement} {obstacle : Expr.Obstacle}
      (hbody : read scope.language.named? (Text.Margin.remove source.toList) = .ok body)
      (hnameless : Nameless obstacle scope body) :
      Escapes scope w (.text title) (.text source) (.unprintable obstacle)
  /-- The text of a function has a null character or a surrogate. -/
  | unreadBody {title source : String} {function : Value} {d : Definition} {fault : Fault}
      (hfunction : w.definition? function = some d) (hsource : d.source = some source)
      (hunread : unreadable? source.toList = some fault) :
      Escapes scope w (.text title) function fault
  /-- A function closes over a variable without a value. -/
  | emptyCell {title free : String} {function : Value} {d : Definition} {body : List Statement}
      (hfunction : w.definition? function = some d) (hbody : d.body = .ok body)
      (hempty : (free, none) ∈ d.captured) :
      Escapes scope w (.text title) function Block.emptyCell
  /-- In the body of a function the first statement that cannot stand is refused for such an
      argument. -/
  | namelessBody {title : String} {function : Value} {d : Definition} {body : List Statement}
      {inner : Scope} {obstacle : Expr.Obstacle} (hfunction : w.definition? function = some d)
      (hbody : d.body = .ok body) (hscope : d.scope = .ok inner)
      (hnameless : Nameless obstacle inner body) :
      Escapes scope w (.text title) function (.unprintable obstacle)
  /-- The first field of a check set, which is no record, has no text for errors. -/
  | checkSet {title inner : String} {number : Nat} {error : Raised}
      (hprint : scope.language.print (.tuple [.text "name", .text inner]) = .error error) :
      Escapes scope w (.text title) (.checkSet number inner) (.raised error)
  /-- The declarations are nothing of which there are records, and errors have no text for them. -/
  | declarations {title : String} {declarations : Value} {error : Raised}
      (hfunction : w.definition? declarations = none)
      (hset : ∀ number inner, declarations ≠ .checkSet number inner)
      (hiterable : isIterable declarations = false)
      (hprint : scope.language.print declarations = .error error) :
      Escapes scope w (.text title) declarations (.raised error)
  /-- A record escapes, after others that make checks under different names. -/
  | record {title : String} {declarations record : Value} {before after : List Value}
      {checks : List Check} {begun reached : World} {error : Raised}
      (hsource : ∀ source, declarations ≠ .text source) (hiterable : isIterable declarations = true)
      (hitems : declarations.collect w.world = (.ok (before ++ record :: after), begun))
      (hbefore : buildFrom scope.language [] before begun = (.ok checks, reached))
      (hrecord : RecordEscapes scope.language reached record error) :
      Escapes scope w (.text title) declarations (.raised error)

section Declare

variable {scope : Scope} {w : Workspace} {title : String} {declarations : Value}

theorem declare_of_name {name : Value} (hname : ∀ text, name ≠ .text text) :
    (declare scope name declarations w).1 =
      .error (refusal scope.language name .setNameNotText) := by
  cases name <;> first | rfl | exact absurd rfl (hname _)

theorem declare_apply (name : Value) :
    declare scope name declarations w =
      (match name, w.definition? declarations, declarations with
        | .text title, some d, _ => Work.ofJob (reported (d.compile title))
        | .text _, none, .checkSet _ title =>
          let record := Value.tuple [.text "name", .text title]
          throw (refusal scope.language record .notARecord)
        | _, _, _ => Work.ofJob (compileValue scope name declarations) : Work CheckSet) w :=
  rfl

theorem declare_of_definition {d : Definition} (h : w.definition? declarations = some d) :
    (declare scope (.text title) declarations w).1 = d.compile title := by
  rw [declare_apply, h]
  exact reported_fst (d.compile title) w.world

theorem declare_of_other (hfunction : w.definition? declarations = none)
    (hset : ∀ number inner, declarations ≠ .checkSet number inner) :
    (declare scope (.text title) declarations w).1 =
      (compileValue scope (.text title) declarations w.world).1 := by
  rw [declare_apply, hfunction]
  cases declarations <;> first | rfl | exact absurd rfl (hset _ _)

theorem compileValue_of_ne_text (hsource : ∀ source, declarations ≠ .text source) (world : World) :
    compileValue scope (.text title) declarations world =
      if isIterable declarations = true then build (.text title) declarations scope.language world
      else (.error (refusal scope.language declarations .notDeclarations), world) := by
  have hvalue : compileValue scope (.text title) declarations =
      if isIterable declarations then build (.text title) declarations scope.language
      else Job.fault (refusal scope.language declarations .notDeclarations) := by
    cases declarations <;> first | rfl | exact absurd rfl (hsource _)
  rw [hvalue]
  by_cases hiterable : isIterable declarations = true
  · rw [if_pos hiterable, if_pos hiterable]
  · rw [if_neg hiterable, if_neg hiterable]
    rfl

/-- Nothing that has records is a function or a check set. -/
theorem definition?_of_isIterable (h : isIterable declarations = true) :
    w.definition? declarations = none ∧ ∀ number inner, declarations ≠ .checkSet number inner := by
  cases declarations <;> first | exact ⟨rfl, fun _ _ => Value.noConfusion⟩ | cases h

/-- What has no records and is no function escapes if errors have no text for it; what has records
    escapes if one of them does. -/
theorem escapesBy_declare_of_other (hfunction : w.definition? declarations = none)
    (hset : ∀ number inner, declarations ≠ .checkSet number inner)
    (hsource : ∀ source, declarations ≠ .text source) (fault : Fault) :
    EscapesBy (declare scope (.text title) declarations w).1 fault ↔
      Escapes scope w (.text title) declarations fault := by
  rw [declare_of_other hfunction hset, compileValue_of_ne_text hsource]
  constructor
  · intro h
    by_cases hiterable : isIterable declarations = true
    · rw [if_pos hiterable] at h
      obtain ⟨items, begun, hitems⟩ := exists_collect_of_isIterable hiterable w.world
      obtain ⟨before, record, after, checks, reached, error, rfl, hbefore, hrecord, rfl⟩ :=
        (escapesBy_buildFrom_iff items fault).mp ((escapesBy_build_iff hitems fault).mp h)
      exact .record hsource hiterable hitems hbefore hrecord
    · rw [if_neg hiterable] at h
      obtain ⟨error, hprint, rfl⟩ := (escapesBy_refusal_iff _ _ _ fault).mp h
      exact .declarations hfunction hset (Bool.eq_false_iff.mpr hiterable) hprint
  · intro h
    cases h with
    | name htitle => exact absurd rfl (htitle title)
    | unreadText | namelessText => exact absurd rfl (hsource _)
    | checkSet => exact absurd rfl (hset _ _)
    | unreadBody hdefined => cases hfunction.symm.trans hdefined
    | emptyCell hdefined => cases hfunction.symm.trans hdefined
    | namelessBody hdefined => cases hfunction.symm.trans hdefined
    | declarations _ _ hiterable hprint =>
      rw [if_neg (Bool.eq_false_iff.mp hiterable)]
      exact (escapesBy_refusal_iff _ _ _ _).mpr ⟨_, hprint, rfl⟩
    | record _ hiterable hitems hbefore hrecord =>
      rw [if_pos hiterable]
      exact (escapesBy_build_iff hitems _).mpr ((escapesBy_buildFrom_iff _ _).mpr
        ⟨_, _, _, _, _, _, rfl, hbefore, hrecord, rfl⟩)

theorem escapesBy_declare_of_text (source : String) (fault : Fault) :
    EscapesBy (declare scope (.text title) (.text source) w).1 fault ↔
      Escapes scope w (.text title) (.text source) fault := by
  have htext : (declare scope (.text title) (.text source) w).1 = compileText scope title source :=
    (declare_of_other rfl fun _ _ => Value.noConfusion).trans (reported_fst _ w.world)
  rw [htext, escapesBy_compileText_iff]
  constructor
  · rintro (hunread | ⟨body, obstacle, hbody, hnameless, rfl⟩)
    · exact .unreadText hunread
    · exact .namelessText hbody hnameless
  · intro h
    cases h with
    | name htitle => exact absurd rfl (htitle title)
    | unreadText hunread => exact .inl hunread
    | namelessText hbody hnameless => exact .inr ⟨_, _, hbody, hnameless, rfl⟩
    | unreadBody hdefined => cases hdefined
    | emptyCell hdefined => cases hdefined
    | namelessBody hdefined => cases hdefined
    | declarations _ _ hiterable => cases hiterable
    | record hsource => exact absurd rfl (hsource source)

theorem escapesBy_declare_of_checkSet (number : Nat) (inner : String) (fault : Fault) :
    EscapesBy (declare scope (.text title) (.checkSet number inner) w).1 fault ↔
      Escapes scope w (.text title) (.checkSet number inner) fault := by
  have hrefused : (declare scope (.text title) (.checkSet number inner) w).1 =
      .error (refusal scope.language (.tuple [.text "name", .text inner]) .notARecord) := rfl
  rw [hrefused, escapesBy_refusal_iff]
  constructor
  · rintro ⟨error, hprint, rfl⟩
    exact .checkSet hprint
  · intro h
    cases h with
    | name htitle => exact absurd rfl (htitle title)
    | checkSet hprint => exact ⟨_, hprint, rfl⟩
    | unreadBody hdefined => cases hdefined
    | emptyCell hdefined => cases hdefined
    | namelessBody hdefined => cases hdefined
    | declarations _ hset => exact absurd rfl (hset number inner)
    | record _ hiterable => cases hiterable

theorem escapesBy_declare_of_definition {d : Definition} (h : w.definition? declarations = some d)
    (fault : Fault) :
    EscapesBy (declare scope (.text title) declarations w).1 fault ↔
      Escapes scope w (.text title) declarations fault := by
  rw [declare_of_definition h, Definition.escapesBy_compile_iff]
  constructor
  · rintro (⟨source, hsource, hunread⟩ | ⟨body, hbody, ⟨⟨free, hfree⟩, rfl⟩ |
      ⟨inner, obstacle, hinner, hnameless, rfl⟩⟩)
    · exact .unreadBody h hsource hunread
    · exact .emptyCell h hbody hfree
    · exact .namelessBody h hbody hinner hnameless
  · intro hescapes
    cases hescapes with
    | name htitle => exact absurd rfl (htitle title)
    | unreadText | namelessText | checkSet => cases h
    | unreadBody hdefined hsource hunread =>
      cases hdefined.symm.trans h
      exact .inl ⟨_, hsource, hunread⟩
    | emptyCell hdefined hbody hempty =>
      cases hdefined.symm.trans h
      exact .inr ⟨_, hbody, .inl ⟨⟨_, hempty⟩, rfl⟩⟩
    | namelessBody hdefined hbody hscope hnameless =>
      cases hdefined.symm.trans h
      exact .inr ⟨_, hbody, .inr ⟨_, _, hscope, hnameless, rfl⟩⟩
    | declarations hnone => cases hnone.symm.trans h
    | record _ hiterable => cases (definition?_of_isIterable hiterable).1.symm.trans h

theorem escapesBy_declare_of_name {name : Value} (hname : ∀ text, name ≠ .text text)
    (fault : Fault) :
    EscapesBy (declare scope name declarations w).1 fault ↔
      Escapes scope w name declarations fault := by
  rw [declare_of_name hname, escapesBy_refusal_iff]
  constructor
  · rintro ⟨error, hprint, rfl⟩
    exact .name hname hprint
  · intro h
    cases h with
    | name _ hprint => exact ⟨_, hprint, rfl⟩
    | _ => exact absurd rfl (hname _)

end Declare

/-- Under any name and for any declarations, what ends in a fault that is no error of compilation is
    what is listed as escaping, and all else ends in a set or in an error of compilation. -/
theorem declare_escapes_iff (scope : Scope) (name declarations : Value) (w : Workspace) :
    (∀ fault, EscapesBy (declare scope name declarations w).1 fault ↔
        Escapes scope w name declarations fault) ∧
      (((∃ set, (declare scope name declarations w).1 = .ok set) ∨
          ∃ error, (declare scope name declarations w).1 = .error (.compile error)) ↔
        ∀ fault, ¬ Escapes scope w name declarations fault) := by
  have hescapes (fault : Fault) : EscapesBy (declare scope name declarations w).1 fault ↔
      Escapes scope w name declarations fault := by
    by_cases hname : ∃ title, name = .text title
    · obtain ⟨title, rfl⟩ := hname
      cases hfunction : w.definition? declarations with
      | some d => exact escapesBy_declare_of_definition hfunction fault
      | none =>
        cases declarations with
        | text source => exact escapesBy_declare_of_text source fault
        | checkSet number inner => exact escapesBy_declare_of_checkSet number inner fault
        | _ =>
          exact escapesBy_declare_of_other hfunction (fun _ _ => Value.noConfusion)
            (fun _ => Value.noConfusion) fault
    · exact escapesBy_declare_of_name (fun title h => hname ⟨title, h⟩) fault
  refine ⟨hescapes, ?_⟩
  simp only [← hescapes]
  cases (declare scope name declarations w).1 with
  | ok set => simp [not_escapesBy_ok]
  | error fault =>
    constructor
    · rintro (⟨set, ⟨⟩⟩ | ⟨error, ⟨⟩⟩)
      exact not_escapesBy_compile error
    · intro hnone
      obtain ⟨error, rfl⟩ := not_not.mp fun hnot => hnone fault ⟨rfl, hnot⟩
      exact .inr ⟨error, rfl⟩

/-- A null character after a declaration that is in order: there is neither a set nor an error of
    compilation. -/
theorem declare_null_escapes :
    let source := "check(\"a\", is_positive(col(\"x\")))\x00"
    let w := Workspace.start [] ⟨[], none⟩ true {}
    (declare Scope.library (.text "set") (.text source) w).1 = .error Block.nullCharacter ∧
      ¬ ((∃ set, (declare Scope.library (.text "set") (.text source) w).1 = .ok set) ∨
        ∃ error, (declare Scope.library (.text "set") (.text source) w).1 =
          .error (.compile error)) := by
  intro source w
  have hfault : (declare Scope.library (.text "set") (.text source) w).1 =
      .error Block.nullCharacter := by
    have hnull : unreadable? source.toList = some Block.nullCharacter := by
      rw [unreadable?, if_neg (by decide), if_pos (by decide)]
    exact ((escapesBy_declare_of_text source _).mpr (.unreadText hnull)).1
  refine ⟨hfault, ?_⟩
  rw [hfault]
  rintro (⟨set, ⟨⟩⟩ | ⟨error, ⟨⟩⟩)

end Module

end TableAudit
