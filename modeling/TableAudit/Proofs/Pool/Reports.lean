import TableAudit.Proofs.Inquiry.Reports
import TableAudit.Proofs.Pool.Delivery

namespace TableAudit

/-- The entry apart from the worker that made it. -/
def Entry.unsigned (entry : Entry) : Entry :=
  { entry with worker := none }

namespace Pool

open Inquiry

variable {α σ : Type} {around : Surroundings σ}

/-- Entries of the inquiry with a number. -/
def tagged (index : Nat) (entries : List Entry) : List (Nat × Entry) :=
  entries.map (index, ·)

/-- A run of pending inquiries, from one state to another, as steps of one of them at a time. What is
    told on the way bears the number of the inquiry that reports it. -/
inductive Weaves (around : Surroundings σ) :
    List (Nat × Inquiry α) → σ → List (Nat × Entry) → σ → Prop
  | done {state : σ} : Weaves around [] state [] state
  | perm {pending others : List (Nat × Inquiry α)} {state final : σ} {told : List (Nat × Entry)}
      (hperm : others.Perm pending) (hrest : Weaves around others state told final) :
      Weaves around pending state told final
  | settle {pending : List (Nat × Inquiry α)} {index : Nat} {inquiry : Inquiry α}
      {result : Except Fault α} {state final : σ} {told : List (Nat × Entry)}
      (hresult : inquiry.result? = some result) (hrest : Weaves around pending state told final) :
      Weaves around ((index, inquiry) :: pending) state told final
  | step {pending : List (Nat × Inquiry α)} {index : Nat} {inquiry : Inquiry α} (worker : Nat)
      {state final : σ} {told : List (Nat × Entry)}
      (hrest : Weaves around ((index, (inquiry.step (around.onWorker worker) state).1) :: pending)
        (inquiry.step (around.onWorker worker) state).2 told final) :
      Weaves around ((index, inquiry) :: pending) state
        (tagged index (inquiry.stepReports.map (Entry.onWorker worker)) ++ told) final

/-- A run of a pool goes on as that of the inquiries pending after a turn. -/
theorem exists_weaves_turn {pool : Pool α} (worker : Nat) {state final : σ}
    (h : ∃ told, Weaves around (pool.turn around worker state).1.pending
      (pool.turn around worker state).2 told final) :
    ∃ told, Weaves around pool.pending state told final := by
  unfold turn at h
  cases hslot : pool.active[worker]? with
  | none =>
    rw [hslot] at h
    exact h
  | some slot =>
    rw [hslot] at h
    cases slot with
    | none =>
      dsimp only at h
      cases hwaiting : pool.waiting with
      | nil =>
        rw [hwaiting] at h
        exact h
      | cons next rest =>
        rw [hwaiting] at h
        obtain ⟨told, hrest⟩ := h
        refine ⟨told, hrest.perm ?_⟩
        have hset := perm_filterMap_set hslot (some next)
        simp only [pending, hwaiting]
        exact (hset.append_right rest).trans List.perm_middle.symm
    | some item =>
      obtain ⟨index, inquiry⟩ := item
      have hidle := (perm_filterMap_set hslot none).append_right pool.waiting
      dsimp only at h
      cases hresult : inquiry.result? with
      | some result =>
        rw [hresult] at h
        obtain ⟨told, hrest⟩ := h
        exact ⟨told, (hrest.settle hresult).perm hidle⟩
      | none =>
        rw [hresult] at h
        obtain ⟨told, hrest⟩ := h
        have hworker : (pool.active.set worker none)[worker]? = some none :=
          List.getElem?_set_self (List.getElem?_eq_some_iff.mp hslot).1
        have hlast := perm_filterMap_set hworker
          (some (index, (inquiry.step (around.onWorker worker) state).1))
        rw [List.set_set] at hlast
        exact ⟨_, ((hrest.perm (hlast.append_right pool.waiting)).step worker).perm hidle⟩

theorem exists_weaves_follow (schedule : List Nat) {pool : Pool α} {state final : σ}
    (h : ∃ told, Weaves around (pool.follow around schedule state).1.pending
      (pool.follow around schedule state).2 told final) :
    ∃ told, Weaves around pool.pending state told final := by
  induction schedule generalizing pool state with
  | nil => exact h
  | cons worker rest ih => exact exists_weaves_turn worker (ih h)

section Finish

variable {pending : List (Nat × Inquiry α)} {final : σ}

theorem exists_weaves_step {index : Nat} {inquiry : Inquiry α} (worker : Nat) {state : σ}
    (h : ∃ told, Weaves around ((index, (inquiry.step (around.onWorker worker) state).1) :: pending)
      (inquiry.step (around.onWorker worker) state).2 told final) :
    ∃ told, Weaves around ((index, inquiry) :: pending) state told final := by
  obtain ⟨told, hrest⟩ := h
  exact ⟨_, hrest.step worker⟩

/-- Running an inquiry to its end is a number of its steps. -/
theorem exists_weaves_runOne (worker index : Nat) (inquiry : Inquiry α) {state : σ}
    (h : ∃ told, Weaves around pending (inquiry.run (around.onWorker worker) state).2 told final) :
    ∃ told, Weaves around ((index, inquiry) :: pending) state told final := by
  have hended {inquiry : Inquiry α} {result : Except Fault α} {reached : σ}
      (hresult : inquiry.result? = some result)
      (h : ∃ told, Weaves around pending reached told final) :
      ∃ told, Weaves around ((index, inquiry) :: pending) reached told final :=
    h.imp fun told hrest => hrest.settle hresult
  induction inquiry generalizing state with
  | done result => exact hended rfl h
  | fail fault => exact hended rfl h
  | names next ih =>
    refine exists_weaves_step worker ?_
    rw [Inquiry.run] at h
    rw [Inquiry.step]
    generalize (around.onWorker worker).names state = given at h ⊢
    obtain ⟨error | answer, reached⟩ := given
    · exact hended rfl h
    · exact ih answer h
  | column name next ih =>
    refine exists_weaves_step worker ?_
    rw [Inquiry.run] at h
    rw [Inquiry.step]
    generalize (around.onWorker worker).column name state = given at h ⊢
    obtain ⟨error | answer, reached⟩ := given
    · exact hended rfl h
    · exact ih answer h
  | ask predicate values next ih =>
    refine exists_weaves_step worker ?_
    rw [Inquiry.run] at h
    rw [Inquiry.step]
    generalize (around.onWorker worker).ask predicate values state = given at h ⊢
    obtain ⟨error | answer, reached⟩ := given
    · cases hescapes : error.escapes
      · simp only [hescapes, Bool.false_eq_true, if_false] at h ⊢
        exact ih (.error error) h
      · simp only [hescapes, if_true] at h ⊢
        exact hended rfl h
    · exact ih (.ok answer) h
  | report entry next ih => exact exists_weaves_step worker (ih h)

theorem exists_weaves_runAll (worker : Nat) {items : List (Nat × Inquiry α)} {state : σ}
    (h : ∃ told, Weaves around pending (runAll around worker items state).2 told final) :
    ∃ told, Weaves around (items ++ pending) state told final := by
  induction items generalizing state with
  | nil => exact h
  | cons item items ih => exact exists_weaves_runOne worker item.1 item.2 (ih h)

theorem exists_weaves_finishActive (worker : Nat) {active : List (Option (Nat × Inquiry α))}
    {state : σ}
    (h : ∃ told, Weaves around pending (finishActive around worker active state).2 told final) :
    ∃ told, Weaves around (active.filterMap id ++ pending) state told final := by
  induction active generalizing worker state with
  | nil => exact h
  | cons slot active ih =>
    cases slot with
    | none => exact ih (worker + 1) h
    | some item => exact exists_weaves_runOne worker item.1 item.2 (ih (worker + 1) h)

end Finish

/-- A run on a pool, from its start to its end, is made of steps of its inquiries. -/
theorem exists_weaves_run (around : Surroundings σ) (workers : Nat) (schedule : List Nat)
    (inquiries : List (Inquiry α)) (state : σ) :
    ∃ told, Weaves around (numbered inquiries) state told
      (run around workers schedule inquiries state).2 := by
  let pool := (start workers inquiries).follow around schedule state
  have hwaiting : ∃ told, Weaves around (pool.1.waiting ++ [])
      (finishActive around 0 pool.1.active pool.2).2 told
      (run around workers schedule inquiries state).2 :=
    exists_weaves_runAll 0 ⟨[], .done⟩
  rw [List.append_nil] at hwaiting
  rw [← pending_start workers]
  exact exists_weaves_follow schedule (exists_weaves_finishActive 0 hwaiting)

/-- What is told on the way is what is added to the log. -/
theorem Weaves.log {log : σ → List Entry} {sign : Entry → Entry} (hlogs : around.Logs log sign)
    {pending : List (Nat × Inquiry α)} {state final : σ} {told : List (Nat × Entry)}
    (h : Weaves around pending state told final) :
    log final = log state ++ told.map fun item => sign item.2 := by
  induction h with
  | done => simp
  | perm _ _ ih => exact ih
  | settle _ _ ih => exact ih
  | @step pending index inquiry worker state final told hrest ih =>
    rw [ih, log_step (hlogs.onWorker worker)]
    simp [tagged, Function.comp_def]

/-- The entries among all that belong to an inquiry. -/
def share (index : Nat) (told : List (Nat × Entry)) : List Entry :=
  (told.filter fun item => item.1 == index).map Prod.snd

theorem share_append (index : Nat) (first rest : List (Nat × Entry)) :
    share index (first ++ rest) = share index first ++ share index rest := by
  rw [share, List.filter_append, List.map_append]
  rfl

theorem share_tagged_self (index : Nat) (entries : List Entry) :
    share index (tagged index entries) = entries := by
  simp [share, tagged, List.filter_map, Function.comp_def]

theorem share_tagged_of_ne {index other : Nat} (h : other ≠ index) (entries : List Entry) :
    share index (tagged other entries) = [] := by
  simp [share, tagged, List.filter_map, Function.comp_def, h]

/-- Entries from several parts at once: those of each part come in its own order, signed by workers,
    and there are no others. -/
structure Interleaves (parts : List (List Entry)) (told : List (Nat × Entry)) : Prop where
  shares : ∀ index part, parts[index]? = some part →
    (share index told).map Entry.unsigned = part.map Entry.unsigned
  perm : ((told.map Prod.snd).map Entry.unsigned).Perm (parts.flatten.map Entry.unsigned)

section Steady

variable {allowed : Request → Prop} {pending : List (Nat × Inquiry α)} {state final : σ}
  {told : List (Nat × Entry)}

/-- What an inquiry reports by itself, apart from who reports it. -/
def unsignedReports (around : Surroundings σ) (state : σ) (inquiry : Inquiry α) : List Entry :=
  (inquiry.reports around state).map Entry.unsigned

theorem unsignedReports_of_result? {inquiry : Inquiry α} {result : Except Fault α}
    (h : inquiry.result? = some result) (t : σ) : unsignedReports around t inquiry = [] := by
  rw [unsignedReports, reports_of_result? h, List.map_nil]

theorem unsignedReports_step (hsteady : around.Steady allowed) {inquiry : Inquiry α}
    (hwithin : inquiry.Within allowed) (worker : Nat) (s t : σ) :
    unsignedReports around t inquiry =
      (inquiry.stepReports.map (Entry.onWorker worker)).map Entry.unsigned ++
        unsignedReports around t (inquiry.step (around.onWorker worker) s).1 := by
  rw [List.map_map, unsignedReports, ← reports_step (hsteady.onWorker worker) hwithin s t t,
    List.map_append]
  rfl

theorem Weaves.perm_told (hsteady : around.Steady allowed) (t : σ)
    (h : Weaves around pending state told final)
    (hwithin : ∀ item ∈ pending, item.2.Within allowed) :
    ((told.map Prod.snd).map Entry.unsigned).Perm
      (pending.flatMap fun item => unsignedReports around t item.2) := by
  induction h with
  | done => exact .refl _
  | perm hperm _ ih =>
    exact (ih fun item hitem => hwithin item (hperm.mem_iff.mp hitem)).trans (hperm.flatMap_right _)
  | settle hresult _ ih =>
    rw [List.flatMap_cons, unsignedReports_of_result? hresult, List.nil_append]
    exact ih fun item hitem => hwithin item (List.mem_cons_of_mem _ hitem)
  | @step pending index inquiry worker state final told hrest ih =>
    rw [List.forall_mem_cons] at hwithin
    have hlater := ih (List.forall_mem_cons.mpr ⟨hwithin.1.step _ _, hwithin.2⟩)
    rw [List.flatMap_cons] at hlater ⊢
    have hnow : (tagged index (inquiry.stepReports.map (Entry.onWorker worker))).map Prod.snd =
        inquiry.stepReports.map (Entry.onWorker worker) := by
      simp [tagged, Function.comp_def]
    rw [unsignedReports_step hsteady hwithin.1 worker state t, List.append_assoc, List.map_append,
      List.map_append, hnow]
    exact hlater.append_left _

/-- On the way each inquiry tells what it reports by itself, and nothing is told in the name of
    another. -/
theorem Weaves.shares (hsteady : around.Steady allowed) (t : σ)
    (h : Weaves around pending state told final)
    (hwithin : ∀ item ∈ pending, item.2.Within allowed)
    (hnodup : (pending.map Prod.fst).Nodup) :
    (∀ item ∈ pending, (share item.1 told).map Entry.unsigned = unsignedReports around t item.2) ∧
      ∀ index ∉ pending.map Prod.fst, share index told = [] := by
  induction h with
  | done => exact ⟨fun item hitem => absurd hitem List.not_mem_nil, fun index _ => rfl⟩
  | perm hperm _ ih =>
    obtain ⟨hown, hother⟩ := ih (fun item hitem => hwithin item (hperm.mem_iff.mp hitem))
      ((hperm.map Prod.fst).nodup_iff.mpr hnodup)
    exact ⟨fun item hitem => hown item (hperm.mem_iff.mpr hitem),
      fun index hindex => hother index (mt (hperm.map Prod.fst).mem_iff.mp hindex)⟩
  | settle hresult _ ih =>
    rw [List.forall_mem_cons] at hwithin ⊢
    rw [List.map_cons, List.nodup_cons] at hnodup
    obtain ⟨hown, hother⟩ := ih hwithin.2 hnodup.2
    refine ⟨⟨?_, hown⟩, fun index hindex => hother index fun h => hindex (List.mem_cons_of_mem _ h)⟩
    rw [unsignedReports_of_result? hresult, hother _ hnodup.1, List.map_nil]
  | @step pending index inquiry worker state final told hrest ih =>
    rw [List.forall_mem_cons] at hwithin
    obtain ⟨hown, hother⟩ := ih (List.forall_mem_cons.mpr ⟨hwithin.1.step _ _, hwithin.2⟩) hnodup
    rw [List.forall_mem_cons] at hown ⊢
    rw [List.map_cons, List.nodup_cons] at hnodup
    refine ⟨⟨?_, fun item hitem => ?_⟩, fun other hindex => ?_⟩
    · rw [share_append, share_tagged_self, List.map_append, hown.1,
        ← unsignedReports_step hsteady hwithin.1]
    · have hmem : item.1 ∈ pending.map Prod.fst := List.mem_map_of_mem hitem
      have hne : index ≠ item.1 := fun heq => hnodup.1 (heq ▸ hmem)
      rw [share_append, share_tagged_of_ne hne, List.nil_append, hown.2 item hitem]
    · have hne : index ≠ other := by
        rintro rfl
        exact hindex List.mem_cons_self
      rw [share_append, share_tagged_of_ne hne, List.nil_append, hother other hindex]

/-- What the inquiries of a pool tell interleaves the reports that each of them makes by itself, and
    is what a run on the pool adds to the log, for any number of workers and any schedule. -/
theorem exists_interleaves_run {log : σ → List Entry} {sign : Entry → Entry}
    (hlogs : around.Logs log sign) (hsteady : around.Steady allowed)
    {inquiries : List (Inquiry α)} (hwithin : ∀ inquiry ∈ inquiries, inquiry.Within allowed)
    (workers : Nat) (schedule : List Nat) (s t : σ) :
    ∃ told, Weaves around (numbered inquiries) s told
        (run around workers schedule inquiries s).2 ∧
      log (run around workers schedule inquiries s).2 =
        log s ++ (told.map fun item => sign item.2) ∧
      Interleaves (inquiries.map fun inquiry => inquiry.reports around t) told := by
  obtain ⟨told, hweaves⟩ := exists_weaves_run around workers schedule inquiries s
  have hpending : ∀ item ∈ numbered inquiries, item.2.Within allowed := fun item hitem =>
    hwithin item.2 (List.mem_of_getElem? (mem_numbered_iff.mp hitem))
  have hnodup : ((numbered inquiries).map Prod.fst).Nodup := by
    rw [map_fst_numbered]
    exact List.nodup_range
  refine ⟨told, hweaves, hweaves.log hlogs, fun index part hpart => ?_, ?_⟩
  · rw [List.getElem?_map, Option.map_eq_some_iff] at hpart
    obtain ⟨inquiry, hinquiry, rfl⟩ := hpart
    exact (hweaves.shares hsteady t hpending hnodup).1 (index, inquiry)
      (mem_numbered_iff.mpr hinquiry)
  · have hperm := hweaves.perm_told hsteady t hpending
    have hparts : inquiries.flatMap (unsignedReports around t) =
        (inquiries.map fun inquiry => inquiry.reports around t).flatten.map Entry.unsigned := by
      rw [List.map_flatten, List.map_map]
      rfl
    rwa [← List.flatMap_map, map_snd_numbered, hparts] at hperm

end Steady

end Pool

end TableAudit
