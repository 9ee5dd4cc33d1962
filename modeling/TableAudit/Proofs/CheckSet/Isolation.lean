import TableAudit.Proofs.Check.Lengths
import TableAudit.Proofs.CheckSet.Modes
import TableAudit.Proofs.Source.Streams

namespace TableAudit

namespace CheckSet

/-- Inquiries run one after the other have outcomes when the first has one and the rest, from where
    it ends, have theirs. -/
theorem exists_of_runInOrder_cons {σ : Type} {around : Surroundings σ} {inquiry : Inquiry Outcome}
    {rest : List (Inquiry Outcome)} {state : σ} {outcomes : List Outcome}
    (h : (runInOrder around (inquiry :: rest) state).1 = .ok outcomes) :
    ∃ outcome others, outcomes = outcome :: others ∧ (inquiry.run around state).1 = .ok outcome ∧
      (runInOrder around rest (inquiry.run around state).2).1 = .ok others := by
  rw [runInOrder] at h
  rcases hrun : inquiry.run around state with ⟨fault | outcome, reached⟩
  · rw [hrun] at h
    cases h
  · rw [hrun] at h
    dsimp only at h ⊢
    rcases hrest : runInOrder around rest reached with ⟨fault | others, final⟩
    · rw [hrest] at h
      cases h
    · rw [hrest] at h
      cases h
      exact ⟨outcome, others, rfl, rfl, rfl⟩

theorem length_runInOrder {σ : Type} {around : Surroundings σ} {inquiries : List (Inquiry Outcome)}
    {state : σ} {outcomes : List Outcome} (h : (runInOrder around inquiries state).1 = .ok outcomes) :
    outcomes.length = inquiries.length := by
  induction inquiries generalizing state outcomes with
  | nil =>
    cases h
    rfl
  | cons inquiry rest ih =>
    obtain ⟨outcome, others, rfl, -, hrest⟩ := exists_of_runInOrder_cons h
    rw [List.length_cons, List.length_cons, ih hrest]

variable {judge : Judge} {columns : List (Value × Value)}

/-- In a run of checks one after the other, each begins when the streams that earlier ones read are
    empty, and the others are as they were. -/
theorem exists_reached {checks : List Check}
    (hspares : ∀ check ∈ checks, judge.Spares check.predicate) {world : World}
    {outcomes : List Outcome}
    (h : (runInOrder ((Source.mapping columns).under judge) (checks.map Check.inquire) world).1 =
      .ok outcomes) {index : Nat} {check : Check} (hcheck : checks[index]? = some check) :
    ∃ reached outcome, outcomes[index]? = some outcome ∧
      (check.inquire.run ((Source.mapping columns).under judge) reached).1 = .ok outcome ∧
      ∀ number,
        ((∃ earlier ∈ checks.take index, earlier.Draws columns number) →
          reached.left number = []) ∧
        ((¬ ∃ earlier ∈ checks.take index, earlier.Draws columns number) →
          reached.left number = world.left number) := by
  induction checks generalizing world outcomes index with
  | nil => cases hcheck
  | cons first rest ih =>
    rw [List.map_cons] at h
    rw [List.forall_mem_cons] at hspares
    obtain ⟨outcome, others, rfl, hfirst, hrest⟩ := exists_of_runInOrder_cons h
    cases index with
    | zero =>
      cases hcheck
      refine ⟨world, outcome, rfl, hfirst, fun number => ⟨?_, fun _ => rfl⟩⟩
      rintro ⟨earlier, hearlier, -⟩
      cases hearlier
    | succ index =>
      obtain ⟨reached, found, hfound, hresult, hleft⟩ := ih hspares.2 hrest hcheck
      refine ⟨reached, found, hfound, hresult, fun number => ?_⟩
      obtain ⟨hemptied, huntouched⟩ :=
        Check.left_run_mapping hspares.1 hfirst number
      obtain ⟨hread, hkept⟩ := hleft number
      rw [List.take_succ_cons, List.exists_mem_cons_iff]
      by_cases hagain : ∃ earlier ∈ rest.take index, earlier.Draws columns number
      · exact ⟨fun _ => hread hagain, fun hnone => absurd (.inr hagain) hnone⟩
      · rw [hkept hagain]
        exact ⟨fun hdraws => hemptied (hdraws.resolve_right hagain),
          fun hnone => huntouched (mt .inl hnone)⟩

/-- An earlier check of a set reads a stream that a check reads too, and there is something to read
    in it. -/
def Depletes (set : CheckSet) (columns : List (Value × Value)) (world : World) (index : Nat)
    (check : Check) : Prop :=
  ∃ earlier ∈ set.checks.take index, ∃ number, earlier.Draws columns number ∧
    check.Draws columns number ∧ world.left number ≠ []

theorem runUnder_mapping {set : CheckSet} {mode : Mode} (hmode : mode.concurrent = false)
    {world : World} {outcomes : Labelled Outcome}
    (h : (set.runUnder judge (.mapping columns) mode world).1 = .ok outcomes) :
    ∃ found, (runInOrder ((Source.mapping columns).under judge) (set.checks.map Check.inquire)
        world).1 = .ok found ∧ outcomes = Labelled.ofList (set.names.zip found) := by
  have hsource : Source.ofData (.mapping columns) world = (.ok (.mapping columns), world) := rfl
  rw [runUnder_eq_runIn hsource, runIn] at h
  simp only [hmode, Bool.false_and, Bool.false_eq_true, if_false] at h
  cases hrun : (runInOrder ((Source.mapping columns).under judge) (set.checks.map Check.inquire)
      world).1 with
  | error fault =>
    rw [hrun] at h
    cases h
  | ok found =>
    rw [hrun] at h
    cases h
    exact ⟨found, rfl, rfl⟩

/-- In a run one after the other, with predicates that leave the streams as they are, a check whose
    predicate is pure has the outcome that it has alone on a fresh mapping exactly if no earlier
    check reads a stream that it reads too, unless that was empty from the start. -/
theorem runUnder_mapping_alone_iff {set : CheckSet} {mode : Mode} {world : World}
    {outcomes : Labelled Outcome} {index : Nat} {check : Check} (hmode : mode.concurrent = false)
    (hnames : set.names.Nodup) (hcheck : set.checks[index]? = some check)
    (hpure : judge.Pure check.predicate)
    (hspares : ∀ other ∈ set.checks, judge.Spares other.predicate)
    (hrun : (set.runUnder judge (.mapping columns) mode world).1 = .ok outcomes) :
    (∃ outcome, outcomes.get? check.name = some outcome ∧
      (check.runUnder judge (.mapping columns) world).1 = .ok outcome) ↔
    ¬ set.Depletes columns world index check := by
  obtain ⟨found, hfound, rfl⟩ := runUnder_mapping hmode hrun
  obtain ⟨reached, outcome, houtcome, hresult, hleft⟩ := exists_reached hspares hfound hcheck
  have hget : (Labelled.ofList (set.names.zip found)).get? check.name = some outcome := by
    have hlength : set.names.length = found.length := by
      rw [length_runInOrder hfound, names, List.length_map, List.length_map]
    have hname : set.names[index]? = some check.name := by
      rw [names, List.getElem?_map, hcheck, Option.map_some]
    exact Labelled.get?_ofList_zip hnames hlength hname houtcome
  constructor
  · rintro ⟨alone, halone, hrunAlone⟩ ⟨earlier, hearlier, number, hearlierDraws, hdraws, hne⟩
    rw [hget] at halone
    cases halone
    have hempty := (hleft number).1 ⟨earlier, hearlier, hearlierDraws⟩
    obtain ⟨fresh, first, hfresh, hrunFresh⟩ := Check.exists_serves hdraws.1 hrunAlone
    obtain ⟨drained, last, hdrained, hrunDrained⟩ := Check.exists_serves hdraws.1 hresult
    obtain ⟨place, items, hitems, hsome, hemptied⟩ :=
      hfresh.exists_emptied hdrained hdraws.2 hne hempty
    exact Check.outcome_ne_of_emptied hrunFresh hrunDrained hfresh.length_eq hdrained.length_eq
      hitems hsome hemptied rfl
  · intro hnone
    refine ⟨outcome, hget, ?_⟩
    rw [← hresult]
    have hspared := hspares check (List.mem_of_getElem? hcheck)
    refine Check.run_mapping_eq hpure hspared fun number hdraws => ?_
    by_cases hearlier : ∃ earlier ∈ set.checks.take index, earlier.Draws columns number
    · rw [(hleft number).1 hearlier]
      obtain ⟨earlier, hmem, hearlierDraws⟩ := hearlier
      by_contra hne
      exact hnone ⟨earlier, hmem, number, hearlierDraws, hdraws, hne⟩
    · exact ((hleft number).2 hearlier).symm

/-- Three checks, two of them on one stream. -/
theorem runUnder_mapping_alone_iff_shared :
    let second : Check := ⟨"second", .library .isPositive, ["a"]⟩
    let set : CheckSet := ⟨"set",
      [⟨"first", .library .isPositive, ["a"]⟩, second, ⟨"third", .library .isEven, ["b"]⟩]⟩
    let columns : List (Value × Value) := [(.text "a", .stream 0), (.text "b", .list [.int 4])]
    let world : World := { streams := [[.int 1, .int (-1)]] }
    let mode : Mode := {}
    ∃ outcomes, (set.runOn (.mapping columns) mode world).1 = .ok outcomes ∧
      ((∃ outcome, outcomes.get? second.name = some outcome ∧
          (second.runOn (.mapping columns) world).1 = .ok outcome) ↔
        ¬ set.Depletes columns world 1 second) := by
  intro second set columns world mode
  have hok : (set.runOn (.mapping columns) mode world).1.isOk = true := by cbv
  cases hrun : (set.runOn (.mapping columns) mode world).1 with
  | error fault =>
    rw [hrun] at hok
    cases hok
  | ok outcomes =>
    refine ⟨outcomes, rfl, ?_⟩
    have hnames : set.names.Nodup := by simp [set, second, names]
    have hpure : Judge.Pure Callable.evaluate second.predicate :=
      Callable.pure_of_ne_counted (by simp [second])
    have hspares : ∀ other ∈ set.checks, Judge.Spares Callable.evaluate other.predicate :=
      fun other _ => other.predicate.spares_evaluate
    exact runUnder_mapping_alone_iff rfl hnames rfl hpure hspares hrun

/-- The second of two checks on one stream has no row in a run of the set, and passes; alone it has
    two rows, and fails. The names differ and the predicates are pure. -/
theorem runOn_mapping_differs :
    let second : Check := ⟨"second", .library .isPositive, ["a"]⟩
    let set : CheckSet := ⟨"set", [⟨"first", .library .isPositive, ["a"]⟩, second]⟩
    let columns : List (Value × Value) := [(.text "a", .stream 0)]
    let world : World := { streams := [[.int 1, .int (-1)]] }
    set.names.Nodup ∧ (∀ check ∈ set.checks, Judge.Pure Callable.evaluate check.predicate) ∧
      ((set.runOn (.mapping columns) {} world).1.map fun outcomes =>
          (outcomes.get? "second").map fun outcome => (outcome.passed, outcome.total)) =
        .ok (some (true, 0)) ∧
      ((second.runOn (.mapping columns) world).1.map fun outcome =>
          (outcome.passed, outcome.total)) = .ok (false, 2) := by
  intro second set columns world
  refine ⟨by simp [set, second, names], ?_, ?_, ?_⟩
  · intro check hcheck
    refine pure_of_not_requests ?_ hcheck
    simp [set, second, Requests, Check.Requests]
  · cbv
  · cbv

end CheckSet

end TableAudit
