import TableAudit.Proofs.Check.Course
import TableAudit.Proofs.Inquiry.Course
import TableAudit.Proofs.Labelled
import TableAudit.Proofs.Pool.Delivery

namespace TableAudit

/-- However its surroundings change between the calls, a check goes one of the ways there are. -/
theorem Check.ends_course {σ : Type} {around : Surroundings σ} {check : Check} {calls : List Call}
    {result : Except Fault Outcome} (h : check.inquire.Course around calls result) :
    check.Ends calls result := by
  obtain ⟨hcalls, hresult⟩ := h.run_scripted
  have hends := check.ends_inquire Inquiry.scripted calls
  rwa [hcalls, hresult] at hends

namespace CheckSet

open Inquiry

variable {σ : Type} {around : Surroundings σ}

theorem forall₂_runInOrder {inquiries : List (Inquiry Outcome)} {state : σ}
    {outcomes : List Outcome} (h : (runInOrder around inquiries state).1 = .ok outcomes) :
    List.Forall₂ (fun inquiry outcome => inquiry.MayEnd around (.ok outcome)) inquiries
      outcomes := by
  induction inquiries generalizing state outcomes with
  | nil =>
    cases h
    exact .nil
  | cons inquiry rest ih =>
    rw [runInOrder] at h
    have hcourse := inquiry.course_run around state
    rcases hrun : inquiry.run around state with ⟨fault | outcome, reached⟩
    · rw [hrun] at h
      cases h
    · rw [hrun] at h hcourse
      dsimp only at h
      rcases hrest : runInOrder around rest reached with ⟨fault | others, final⟩
      · rw [hrest] at h
        cases h
      · rw [hrest] at h
        cases h
        exact .cons ⟨_, hcourse⟩ (ih (congrArg Prod.fst hrest))

theorem forall₂_of_firstFault {related : Inquiry Outcome → Except Fault Outcome → Prop}
    {inquiries : List (Inquiry Outcome)} {results : List (Except Fault Outcome)}
    {outcomes : List Outcome} (h : List.Forall₂ related inquiries results)
    (hresults : firstFault results = .ok outcomes) :
    List.Forall₂ (fun inquiry outcome => related inquiry (.ok outcome)) inquiries outcomes := by
  induction h generalizing outcomes with
  | nil =>
    cases hresults
    exact .nil
  | @cons inquiry result rest others hfirst _ ih =>
    cases result with
    | error fault => cases hresults
    | ok outcome =>
      rw [firstFault] at hresults
      cases hrest : firstFault others with
      | error fault =>
        rw [hrest] at hresults
        cases hresults
      | ok found =>
        rw [hrest] at hresults
        cases hresults
        exact .cons hfirst (ih hrest)

/-- What is left of an inquiry on a pool ends as the whole may end. -/
theorem binding_mayEnd (around : Surroundings σ) :
    Pool.Binding around
      (fun original inquiry : Inquiry Outcome => ∀ result, inquiry.MayEnd around result →
        original.MayEnd around result)
      (fun original result => original.MayEnd around result) where
  step _ _ h result hrest := h result hrest.of_step
  result {original inquiry result} h hresult := by
    refine h result ?_
    cases inquiry <;> cases hresult
    · exact ⟨[], .done⟩
    · exact ⟨[], .fail⟩

/-- A run that has outcomes has them from courses of its checks, under the names of the checks. -/
theorem exists_courses {set : CheckSet} {mode : Mode} {state : σ} {outcomes : Labelled Outcome}
    (h : (set.runIn around mode state).1 = .ok outcomes) :
    ∃ found, outcomes = Labelled.ofList (set.names.zip found) ∧
      List.Forall₂ (fun check outcome => check.inquire.MayEnd around (.ok outcome)) set.checks
        found := by
  unfold runIn at h
  dsimp only at h
  have hmapped {results : Except Fault (List Outcome)}
      (hresults : (results.map fun found => Labelled.ofList (set.names.zip found)) =
        .ok outcomes) :
      ∃ found, results = .ok found ∧ outcomes = Labelled.ofList (set.names.zip found) := by
    cases results with
    | error fault => cases hresults
    | ok found =>
      cases hresults
      exact ⟨found, rfl, rfl⟩
  split at h
  · obtain ⟨found, hfound, rfl⟩ := hmapped h
    have hpromised : ∀ inquiry ∈ set.checks.map Check.inquire, ∀ result,
        inquiry.MayEnd around result → inquiry.MayEnd around result :=
      fun inquiry _ result h => h
    have hall := Pool.forall₂_run (binding_mayEnd around) hpromised
      (mode.workers set.checks.length) mode.schedule
      (around.report (poolEntry set.checks.length (mode.workers set.checks.length)) state)
    exact ⟨found, rfl, List.forall₂_map_left_iff.mp (forall₂_of_firstFault hall hfound)⟩
  · obtain ⟨found, hfound, rfl⟩ := hmapped h
    exact ⟨found, rfl, List.forall₂_map_left_iff.mp (forall₂_runInOrder hfound)⟩

/-- Under distinct names, the outcomes are those of the checks in their order. -/
theorem outcomes_of_names {set : CheckSet} (hnames : set.names.Nodup) {found : List Outcome}
    (hlength : set.names.length = found.length) :
    (Labelled.ofList (set.names.zip found)).entries = set.names.zip found := by
  apply Labelled.entries_ofList
  rwa [List.map_fst_zip (Nat.le_of_eq hlength)]

/-- The outcome of each check stands under its name, when no name occurs twice. -/
theorem forall₂_outcome? {set : CheckSet} (hnames : set.names.Nodup) {found : List Outcome}
    {related : Check → Outcome → Prop} (h : List.Forall₂ related set.checks found) :
    List.Forall₂ (fun check outcome => related check outcome ∧
      (Labelled.ofList (set.names.zip found)).get? check.name = some outcome) set.checks found := by
  have hlength : set.names.length = found.length := by
    rw [names, List.length_map, h.length_eq]
  refine List.forall₂_iff_zip.mpr ⟨h.length_eq, fun {check outcome} hmem => ⟨?_, ?_⟩⟩
  · exact (List.forall₂_iff_zip.mp h).2 hmem
  · obtain ⟨index, hindex⟩ := List.mem_iff_getElem?.mp hmem
    rw [List.getElem?_zip_eq_some] at hindex
    have hlabel : set.names[index]? = some check.name := by
      rw [names, List.getElem?_map, hindex.1, Option.map_some]
    exact Labelled.get?_ofList_zip hnames hlength hlabel hindex.2

section Summarize

variable {set : CheckSet} {clock : σ → Float × σ} {timer : Timer} {mode : Mode} {state : σ}

/-- What is summed up are the outcomes of a run. -/
theorem runIn_of_summarizeIn {summary : Summary} {final : σ}
    (h : set.summarizeIn around clock timer mode state = (.ok summary, final)) :
    (set.runIn around mode state).1 = .ok summary.outcomes := by
  unfold summarizeIn at h
  rcases hrun : set.runIn around mode state with ⟨fault | outcomes, reached⟩
  · rw [hrun] at h
    cases h
  · rw [hrun] at h
    cases h
    rfl

/-- A run that has outcomes is summed up, and the summary is reported after all that the run
    reports. -/
theorem exists_summarizeIn (clock : σ → Float × σ) (timer : Timer) {outcomes : Labelled Outcome}
    (h : (set.runIn around mode state).1 = .ok outcomes) :
    ∃ summary, set.summarizeIn around clock timer mode state =
        (.ok summary, around.report (summaryEntry summary)
          (clock (set.runIn around mode state).2).2) ∧
      summary.name = set.name ∧ summary.outcomes = outcomes := by
  unfold summarizeIn
  rcases hrun : set.runIn around mode state with ⟨fault | found, reached⟩
  · rw [hrun] at h
    cases h
  · rw [hrun] at h
    cases h
    exact ⟨⟨set.name, outcomes, timer.elapsed (clock reached).1⟩, rfl, rfl, rfl⟩

end Summarize

/-- On data a set is summed up in the surroundings that its source makes, with a timer that was
    started before. -/
theorem summarize_eq_summarizeIn {data : Data} {source : Source} {world begun : World}
    (hsource : Source.ofData data world.readClock.2 = (.ok source, begun)) (set : CheckSet)
    (mode : Mode) : set.summarize data mode world =
      set.summarizeIn source.surroundings World.readClock ⟨world.readClock.1⟩ mode begun := by
  simp only [summarize, Job.andThen, Source.adapt, Job.ofAct, hsource]

/-- On data whose source is known, a run that has outcomes is summed up. -/
theorem exists_summarize {data : Data} {source : Source} {world begun : World}
    (hsource : Source.ofData data world.readClock.2 = (.ok source, begun)) (set : CheckSet)
    (mode : Mode) (hok : (set.runIn source.surroundings mode begun).1.isOk = true) :
    ∃ summary final, set.summarize data mode world = (.ok summary, final) ∧
      set.summarizeIn source.surroundings World.readClock ⟨world.readClock.1⟩ mode begun =
        (.ok summary, final) := by
  cases hrun : (set.runIn source.surroundings mode begun).1 with
  | error fault =>
    rw [hrun] at hok
    cases hok
  | ok outcomes =>
    obtain ⟨summary, hsummary, -, -⟩ :=
      exists_summarizeIn World.readClock ⟨world.readClock.1⟩ hrun
    exact ⟨summary, _, (summarize_eq_summarizeIn hsource set mode).trans hsummary, hsummary⟩

end CheckSet

end TableAudit
