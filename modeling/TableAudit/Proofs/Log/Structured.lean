import TableAudit.Log.Record
import TableAudit.Proofs.Calendar.Years
import TableAudit.Proofs.Json.RoundTrip

namespace TableAudit

namespace Record

/-- A member for a text that may be missing. -/
def memberOf (name : String) (value : Option String) : List (String × Json) :=
  (value.map fun value => (name, Json.text value)).toList

/-- The members of a record of a moment with this message, that is about these. -/
def members (record : Record) (moment : Moment) (message : String)
    (checkSet check : Option String) : List (String × Json) :=
  [("timestamp", .text moment.isoText), ("level", .text (Level.nameOf record.level)),
    ("logger", .text record.logger), ("message", .text message)] ++
    memberOf "checkset" checkSet ++ memberOf "check" check ++
    memberOf "thread" (record.thread.filter fun name => "checkmate".toList <+: name.toList)

theorem optionalMember_elim (name : String) (value : Option String) :
    optionalMember name (value.elim .null .text) = .ok (memberOf name value) := by
  cases value <;> rfl

theorem worker?_eq (record : Record) :
    record.worker? = record.thread.filter fun name => "checkmate".toList <+: name.toList := by
  unfold worker?
  congr 1
  funext name
  rw [Bool.eq_iff_iff, List.isPrefixOf_iff_prefix, decide_eq_true_iff]
  rfl

/-- A record of a moment has a document with its members. -/
theorem document_eq {record : Record} {moment : Moment} {message : String}
    {checkSet check : Option String} (hcreated : Moment.ofFloat record.created = .ok moment)
    (hmessage : record.message = .ok message)
    (hcheckSet : record.checkSet = checkSet.elim .null .text)
    (hcheck : record.check = check.elim .null .text) (hfailure : record.failure = .none) :
    record.document = .ok (.object (record.members moment message checkSet check)) := by
  rw [document, hcreated, hmessage, hcheckSet, hcheck, hfailure, optionalMember_elim,
    optionalMember_elim, worker?_eq]
  change Except.ok (Json.object (record.members moment message checkSet check ++ [])) = _
  rw [List.append_nil]

theorem exists_text_of_mem_members {record : Record} {moment : Moment} {message : String}
    {checkSet check : Option String} {member : String × Json}
    (h : member ∈ record.members moment message checkSet check) : ∃ value, member.2 = .text value := by
  have hmember {name : String} {value : Option String} (h : member ∈ memberOf name value) :
      ∃ value, member.2 = .text value := by
    obtain ⟨value, -, rfl⟩ := Option.map_eq_some_iff.mp (Option.mem_toList.mp h)
    exact ⟨value, rfl⟩
  rw [members, List.mem_append, List.mem_append, List.mem_append] at h
  rcases h with ((h | h) | h) | h
  · simp only [List.mem_cons, List.not_mem_nil, or_false] at h
    rcases h with rfl | rfl | rfl | rfl <;> exact ⟨_, rfl⟩
  · exact hmember h
  · exact hmember h
  · exact hmember h

theorem nodup_members (record : Record) (moment : Moment) (message : String)
    (checkSet check : Option String) :
    ((record.members moment message checkSet check).map Prod.fst).Nodup := by
  unfold members
  generalize record.thread.filter _ = thread
  cases checkSet <;> cases check <;> cases thread <;> simp [memberOf]

/-- A record without an error whose time has a moment is written as one line, from which its members
    can be read again, each with its own name and its text as it was; a thread is among them exactly if
    its name begins with that of the package. All times within the years from 1 to 9999 have a moment;
    a record of another time is not written, and the error is that of its time. -/
theorem read?_document {record : Record} {message : String} {checkSet check : Option String}
    (hmessage : record.message = .ok message)
    (hcheckSet : record.checkSet = checkSet.elim .null .text)
    (hcheck : record.check = check.elim .null .text) (hfailure : record.failure = .none) :
    (∀ moment, Moment.ofFloat record.created = .ok moment →
      ∃ text, record.document.map Json.render = .ok text ∧
        '\n' ∉ text.toList ∧ '\r' ∉ text.toList ∧
        Json.read? text = some (.object (record.members moment message checkSet check)) ∧
        ((record.members moment message checkSet check).map Prod.fst).Nodup) ∧
    (∀ whole, (Number.float record.created).truncate = .ok whole →
      -62135596800 < whole → whole < 253402300800 →
      ∃ moment, Moment.ofFloat record.created = .ok moment) ∧
    (∀ error, Moment.ofFloat record.created = .error error →
      record.document.map Json.render = .error error) := by
  refine ⟨?_, fun whole => Moment.exists_ofFloat, ?_⟩
  · intro moment hcreated
    have hdocument := document_eq hcreated hmessage hcheckSet hcheck hfailure
    have hnumerals :
        (Json.object (record.members moment message checkSet check)).hasNumerals = true := by
      rw [Json.hasNumerals, Json.membersHaveNumerals_iff]
      intro member hmember
      obtain ⟨value, hvalue⟩ := exists_text_of_mem_members hmember
      rw [hvalue]
      rfl
    have hline := Json.not_mem_render hnumerals
    exact ⟨_, congrArg (Except.map Json.render) hdocument, hline.1, hline.2,
      Json.read?_render hnumerals, nodup_members record moment message checkSet check⟩
  · intro error hcreated
    rw [document, hcreated]
    rfl

/-- A message with quotes, backslashes, line ends, controls and characters beyond ASCII, from a worker
    of the package. -/
def workerRecord : Record where
  template := .text "\"a\\b\"\n\r\t\x01\x7f/é😀\u2028\\u0041"
  level := 20
  logger := "checkmate.checks.engine"
  created := 1700000000.25
  thread := some "checkmate_0"
  checkSet := .text "first\nsecond"

theorem read?_document_worker :
    let moment : Moment := ⟨⟨2023, 11, 14⟩, 80000, 250000⟩
    let message := "\"a\\b\"\n\r\t\x01\x7f/é😀\u2028\\u0041"
    workerRecord.message = .ok message ∧ workerRecord.checkSet = .text "first\nsecond" ∧
      workerRecord.check = .null ∧ workerRecord.failure = .none ∧
      Moment.ofFloat workerRecord.created = .ok moment ∧
      ∃ text, workerRecord.document.map Json.render = .ok text ∧
        '\n' ∉ text.toList ∧ '\r' ∉ text.toList ∧
        Json.read? text = some (.object
          (workerRecord.members moment message (some "first\nsecond") none)) ∧
        ((workerRecord.members moment message (some "first\nsecond") none).map Prod.fst).Nodup := by
  intro moment message
  have hcreated : Moment.ofFloat workerRecord.created = .ok moment := by
    have hsome : (Moment.ofFloat workerRecord.created).toOption = some moment := by
      decide +kernel
    cases h : Moment.ofFloat workerRecord.created with
    | error error =>
      rw [h] at hsome
      cases hsome
    | ok other =>
      rw [h] at hsome
      exact congrArg Except.ok (Option.some.inj hsome)
  exact ⟨rfl, rfl, rfl, rfl, hcreated,
    (@read?_document workerRecord message (some "first\nsecond") none rfl rfl rfl rfl).1
      moment hcreated⟩

/-- A record of the year 33658. -/
def lateRecord : Record where
  template := .text "hi"
  level := 20
  logger := "checkmate.checks.engine"
  created := 1000000000000.0

theorem not_exists_document_late :
    lateRecord.message = .ok "hi" ∧ lateRecord.checkSet = .null ∧ lateRecord.check = .null ∧
      lateRecord.failure = .none ∧ ¬ ∃ text, lateRecord.document.map Json.render = .ok text := by
  refine ⟨rfl, rfl, rfl, rfl, ?_⟩
  rintro ⟨text, htext⟩
  have hnone : (lateRecord.document.map Json.render).toOption = none := by
    decide +kernel
  rw [htext] at hnone
  cases hnone

end Record

end TableAudit
