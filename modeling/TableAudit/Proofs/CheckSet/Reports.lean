import TableAudit.Proofs.CheckSet.Courses
import TableAudit.Proofs.CheckSet.Modes
import TableAudit.Proofs.Pool.Reports
import TableAudit.Proofs.Source.Entries

namespace TableAudit

namespace Call

/-- A column that a call serves can be read. -/
def Legible : Call → Prop
  | column _ (.ok values) => values.Readable
  | _ => True

instance decidableLegible : DecidablePred Legible
  | column _ (.ok values) => inferInstanceAs (Decidable values.Readable)
  | column _ (.error _) => isTrue trivial
  | names _ => isTrue trivial
  | ask .. => isTrue trivial

end Call

/-- The source answers a check, what it serves can be read, and the predicate raises no error that
    ends the program. -/
structure Check.Unhindered {σ : Type} (check : Check) (around : Surroundings σ) (state : σ) :
    Prop where
  answered : ∀ call ∈ check.inquire.calls around state, call.Answered
  legible : ∀ call ∈ check.inquire.calls around state, call.Legible

instance Check.decidableUnhindered {σ : Type} (check : Check) (around : Surroundings σ)
    (state : σ) : Decidable (check.Unhindered around state) :=
  decidable_of_iff
    ((∀ call ∈ check.inquire.calls around state, call.Answered) ∧
      ∀ call ∈ check.inquire.calls around state, call.Legible)
    ⟨fun h => ⟨h.1, h.2⟩, fun h => ⟨h.1, h.2⟩⟩

namespace CheckSet

open Inquiry

variable {σ : Type} {around : Surroundings σ} {set : CheckSet} {mode : Mode}

/-- What each check of a set reports by itself, in the order of the checks. -/
def reports (set : CheckSet) (around : Surroundings σ) (state : σ) : List (List Entry) :=
  set.checks.map fun check => check.inquire.reports around state

theorem map_reports_inquire (set : CheckSet) (around : Surroundings σ) (state : σ) :
    ((set.checks.map Check.inquire).map fun inquiry => inquiry.reports around state) =
      set.reports around state :=
  List.map_map

theorem exists_outcomes_of_unhindered {state : σ}
    (h : ∀ check ∈ set.checks, check.Unhindered around state) :
    ∃ outcomes, firstFault (set.checks.map fun check => (check.inquire.run around state).1) =
      .ok outcomes := by
  rcases firstFault_cases around set.checks state with ⟨outcomes, hresult, -⟩ |
    ⟨before, check, after, error, -, hchecks, -, hcheck, -⟩
  · exact ⟨outcomes, hresult⟩
  · obtain ⟨hanswered, hlegible⟩ := h check (by simp [hchecks])
    obtain ⟨outcome, houtcome, -⟩ := check.inquire_finds around state hanswered
      fun name column hcall => hlegible _ hcall
    rw [hcheck] at houtcome
    cases houtcome

section Steady

variable {log : σ → List Entry} {sign : Entry → Entry} {allowed : Request → Prop}

/-- Inquiries that are all run to their end in order add the reports of each to the log, one inquiry
    after the other. -/
theorem log_runInOrder (hlogs : around.Logs log sign) (hsteady : around.Steady allowed)
    {inquiries : List (Inquiry Outcome)} (hwithin : ∀ inquiry ∈ inquiries, inquiry.Within allowed)
    {s final : σ} (t : σ) {outcomes : List Outcome}
    (hran : runInOrder around inquiries s = (.ok outcomes, final)) :
    log final =
      log s ++ (inquiries.map fun inquiry => inquiry.reports around t).flatten.map sign := by
  induction inquiries generalizing s outcomes with
  | nil =>
    cases hran
    simp
  | cons inquiry rest ih =>
    have hlater := fun other hother => hwithin other (List.mem_cons_of_mem _ hother)
    have hfirst := log_run hlogs inquiry s
    rw [reports_eq_of_agree hsteady (hwithin inquiry List.mem_cons_self) s t] at hfirst
    rw [runInOrder] at hran
    rcases hrun : inquiry.run around s with ⟨fault | outcome, reached⟩
    · rw [hrun] at hran
      cases hran
    · rw [hrun] at hran hfirst
      dsimp only at hran hfirst
      rcases hrest : runInOrder around rest reached with ⟨fault | others, last⟩
      · rw [hrest] at hran
        cases hran
      · rw [hrest] at hran
        cases hran
        rw [ih hlater hrest, hfirst, List.map_cons, List.flatten_cons, List.map_append,
          List.append_assoc]

/-- In order, a set whose checks all have outcomes reports what they report, one after the other. -/
theorem log_runIn_ordered (hlogs : around.Logs log sign) (hsteady : around.Steady set.Requests)
    (hmode : mode.concurrent = false) {s : σ} (t : σ) {outcomes : Labelled Outcome}
    (hran : (set.runIn around mode s).1 = .ok outcomes) :
    log (set.runIn around mode s).2 = log s ++ (set.reports around t).flatten.map sign := by
  unfold runIn at hran ⊢
  simp only [hmode, Bool.false_and, Bool.false_eq_true, if_false] at hran ⊢
  rw [← set.map_reports_inquire around t]
  rcases hresult : runInOrder around (set.checks.map Check.inquire) s with ⟨fault | found, final⟩
  · rw [hresult] at hran
    cases hran
  · exact log_runInOrder hlogs hsteady set.within_requests t hresult

/-- On a pool, a set of several checks reports that it is run so, and then what its checks report,
    interleaved. -/
theorem exists_interleaves_runIn (hlogs : around.Logs log sign)
    (hsteady : around.Steady set.Requests) (hchecks : 1 < set.checks.length)
    (hmode : mode.concurrent = true) (s t : σ) :
    let workers := mode.workers set.checks.length
    let begun := around.report (poolEntry set.checks.length workers) s
    ∃ told,
      Pool.Weaves around (Pool.numbered (set.checks.map Check.inquire)) begun told
        (set.runIn around mode s).2 ∧
      log (set.runIn around mode s).2 =
        log s ++ sign (poolEntry set.checks.length workers) ::
          (told.map fun item => sign item.2) ∧
      Pool.Interleaves (set.reports around t) told := by
  intro workers begun
  obtain ⟨told, hweaves, hlog, hinterleaves⟩ :=
    Pool.exists_interleaves_run hlogs hsteady set.within_requests workers mode.schedule begun t
  have hstate : (set.runIn around mode s).2 =
      (Pool.run around workers mode.schedule (set.checks.map Check.inquire) begun).2 := by
    unfold runIn
    simp only [hmode, hchecks, decide_true, Bool.and_self, if_true]
    rfl
  rw [hstate, ← set.map_reports_inquire around t]
  refine ⟨told, hweaves, ?_, hinterleaves⟩
  rw [hlog, hlogs.report, List.append_assoc, List.singleton_append]

end Steady

theorem workers_bounds (mode : Mode) {checks : Nat} (h : 0 < checks) :
    1 ≤ mode.workers checks ∧ mode.workers checks ≤ checks := by
  unfold Mode.workers Pool.size
  omega

/-- When all is answered alike each time, reports are written down in a log that nothing else
    changes, and no check is hindered, a set of several checks is summed up both in order and on a
    pool, for any limit of workers and any schedule. In order, the reports of the checks follow each
    other, and that of the summary comes last. On a pool there is one more report, before all others,
    that tells the number of workers. After it the same reports of the checks interleave: each is
    made by a step of its check, those of one check come in their order, and only the worker that
    made it is added to each. The report of the summary comes last again, with the same counts. -/
theorem summarizeIn_reports {log : σ → List Entry} {clock : σ → Float × σ} {ordered pooled : Mode}
    {s : σ} (hlogs : around.Logs log id) (hclock : ∀ state, log (clock state).2 = log state)
    (hchecks : 1 < set.checks.length) (hordered : ordered.concurrent = false)
    (hpooled : pooled.concurrent = true) (hsteady : around.Steady set.Requests)
    (hunhindered : ∀ check ∈ set.checks, check.Unhindered around s) (timer again : Timer) (t : σ) :
    let parts := set.reports around s
    let workers := pooled.workers set.checks.length
    let opening := poolEntry set.checks.length workers
    ∃ summary other final reached told,
      set.summarizeIn around clock timer ordered s = (.ok summary, final) ∧
      log final = log s ++ parts.flatten ++ [summaryEntry summary] ∧
      set.summarizeIn around clock again pooled t =
        (.ok other, around.report (summaryEntry other) (clock reached).2) ∧
      log (around.report (summaryEntry other) (clock reached).2) =
        log t ++ opening :: told.map Prod.snd ++ [summaryEntry other] ∧
      (1 ≤ workers ∧ workers ≤ set.checks.length) ∧
      Pool.Weaves around (Pool.numbered (set.checks.map Check.inquire)) (around.report opening t)
        told reached ∧
      Pool.Interleaves parts told ∧
      other.name = summary.name ∧ other.outcomes = summary.outcomes ∧
      other.passedCount = summary.passedCount ∧ other.outcomes.size = summary.outcomes.size := by
  intro parts workers opening
  obtain ⟨outcomes, houtcomes⟩ := exists_outcomes_of_unhindered hunhindered
  have hresult (mode : Mode) (state : σ) : (set.runIn around mode state).1 =
      .ok (Labelled.ofList (set.names.zip outcomes)) := by
    rw [runIn_eq_firstFault hsteady mode state s, houtcomes]
    rfl
  have hlast := log_runIn_ordered hlogs hsteady hordered s (hresult ordered s)
  obtain ⟨told, hweaves, hlog, hinterleaves⟩ :=
    exists_interleaves_runIn hlogs hsteady hchecks hpooled t s
  obtain ⟨summary, hsummary, hname, hfound⟩ :=
    exists_summarizeIn clock timer (hresult ordered s)
  obtain ⟨other, hother, hothername, hotherfound⟩ :=
    exists_summarizeIn clock again (hresult pooled t)
  have hsame : other.outcomes = summary.outcomes := hotherfound.trans hfound.symm
  refine ⟨summary, other, _, _, told, hsummary, ?_, hother, ?_,
    workers_bounds pooled (Nat.zero_lt_of_lt hchecks), hweaves, hinterleaves,
    hothername.trans hname.symm, hsame, ?_, congrArg Labelled.size hsame⟩
  · rw [hlogs.report, hclock, hlast, List.map_id]
    rfl
  · rw [hlogs.report, hclock, hlog]
    rfl
  · unfold Summary.passedCount
    rw [hsame]

/-- Two rows that raise an error, a missing column, and columns of different lengths, on two
    workers. -/
theorem summarizeIn_reports_mixed :
    let set : CheckSet := ⟨"set",
      [⟨"positive", .library .isPositive, ["x"]⟩, ⟨"gone", .library .isEven, ["z"]⟩,
        ⟨"greater", .library .firstGreaterThanSecond, ["x", "y"]⟩]⟩
    let table : Table :=
      ⟨0, [(.text "x", .list [.int 1, .text "a", .null]), (.text "y", .list [.int 1])], none, false,
        none⟩
    let around := (Source.table table).surroundings
    let ordered : Mode := ⟨false, none, 1, []⟩
    let pooled : Mode := ⟨true, some 2, 1, [1, 0, 0, 1, 1, 1, 0, 0, 0, 1]⟩
    around.Steady set.Requests ∧ (∀ check ∈ set.checks, check.Unhindered around {}) ∧
      ∃ summary other final reached told,
        set.summarize (.table table) ordered {} = (.ok summary, final) ∧
        final.entries = (set.reports around {}).flatten ++ [summaryEntry summary] ∧
        set.summarize (.table table) pooled {} =
          (.ok other, reached.readClock.2.report (summaryEntry other)) ∧
        (reached.readClock.2.report (summaryEntry other)).entries =
          poolEntry 3 2 :: told.map Prod.snd ++ [summaryEntry other] ∧
        Pool.Weaves around (Pool.numbered (set.checks.map Check.inquire))
          (World.report (poolEntry 3 2) {}) told reached ∧
        Pool.Interleaves (set.reports around {}) told ∧
        other.passedCount = summary.passedCount := by
  intro set table around ordered pooled
  have hsteady : around.Steady set.Requests := by
    refine Source.steady_table (by simp [table]) (Callable.pure_of_not_allowed ?_)
    simp [set, Requests, Check.Requests]
  have hunhindered : ∀ check ∈ set.checks, check.Unhindered around {} := by decide +kernel
  have hordered : ordered.concurrent = false := rfl
  have hpooled : pooled.concurrent = true := rfl
  have hsource : Source.ofData (.table table) (World.readClock {}).2 = (.ok (.table table), {}) := rfl
  obtain ⟨summary, other, final, reached, told, hsummary, hfinal, hother, hlast, -, hweaves,
    hinterleaves, -, -, hcount, -⟩ :=
    summarizeIn_reports (Source.logs_surroundings (.table table)) World.entries_readClock (by decide)
      hordered hpooled hsteady hunhindered ⟨(World.readClock {}).1⟩ ⟨(World.readClock {}).1⟩ {}
  rw [← summarize_eq_summarizeIn hsource] at hsummary hother
  exact ⟨hsteady, hunhindered, summary, other, final, reached, told, hsummary, hfinal, hother, hlast,
    hweaves, hinterleaves, hcount⟩

end CheckSet

end TableAudit
