import Mathlib.Data.List.Forall2
import TableAudit.Proofs.Inquiry.Agreement
import TableAudit.Run.Pool

namespace TableAudit

namespace Pool

open Inquiry

variable {α σ : Type} {around : Surroundings σ} {promised : Inquiry α → Inquiry α → Prop}
  {met : Inquiry α → Except Fault α → Prop}

/-- A promise about what is left of an inquiry that no step breaks, and that its result meets. -/
structure Binding (around : Surroundings σ) (promised : Inquiry α → Inquiry α → Prop)
    (met : Inquiry α → Except Fault α → Prop) : Prop where
  step : ∀ {original inquiry} worker state, promised original inquiry →
    promised original (inquiry.step (around.onWorker worker) state).1
  result : ∀ {original inquiry result}, promised original inquiry →
    inquiry.result? = some result → met original result

/-- A promise is met by what a run of the rest ends in. -/
theorem Binding.run (h : Binding around promised met) {original inquiry : Inquiry α}
    (hpromised : promised original inquiry) (worker : Nat) (state : σ) :
    met original (inquiry.run (around.onWorker worker) state).1 := by
  induction inquiry generalizing state with
  | done result => exact h.result hpromised rfl
  | fail fault => exact h.result hpromised rfl
  | names next ih =>
    have hstep := h.step worker state hpromised
    rw [Inquiry.run]
    rw [Inquiry.step] at hstep
    generalize (around.onWorker worker).names state = given at hstep ⊢
    obtain ⟨error | answer, reached⟩ := given
    · exact h.result hstep rfl
    · exact ih answer hstep reached
  | column name next ih =>
    have hstep := h.step worker state hpromised
    rw [Inquiry.run]
    rw [Inquiry.step] at hstep
    generalize (around.onWorker worker).column name state = given at hstep ⊢
    obtain ⟨error | answer, reached⟩ := given
    · exact h.result hstep rfl
    · exact ih answer hstep reached
  | ask predicate values next ih =>
    have hstep := h.step worker state hpromised
    rw [Inquiry.run]
    rw [Inquiry.step] at hstep
    generalize (around.onWorker worker).ask predicate values state = given at hstep ⊢
    obtain ⟨error | answer, reached⟩ := given
    · cases hescapes : error.escapes
      · simp only [hescapes, Bool.false_eq_true, if_false] at hstep ⊢
        exact ih (.error error) hstep reached
      · simp only [hescapes, if_true] at hstep ⊢
        exact h.result hstep rfl
    · exact ih (.ok answer) hstep reached
  | report entry next ih => exact ih (h.step worker state hpromised) _

/-- All numbers are either pending or finished, each once; what is pending is as promised, and what
    is finished meets the promise. -/
structure Delivers (promised : Inquiry α → Inquiry α → Prop)
    (met : Inquiry α → Except Fault α → Prop) (inquiries : List (Inquiry α))
    (pending : List (Nat × Inquiry α)) (finished : List (Nat × Except Fault α)) : Prop where
  numbers : (pending.map Prod.fst ++ finished.map Prod.fst).Perm (List.range inquiries.length)
  promised : ∀ item ∈ pending, ∀ original, inquiries[item.1]? = some original →
    promised original item.2
  delivered : ∀ item ∈ finished, ∀ original, inquiries[item.1]? = some original →
    met original item.2

/-- What the workers are at, and what waits. -/
def pending (pool : Pool α) : List (Nat × Inquiry α) :=
  pool.active.filterMap id ++ pool.waiting

namespace Delivers

variable {inquiries : List (Inquiry α)} {pending others : List (Nat × Inquiry α)}
  {finished : List (Nat × Except Fault α)} {item : Nat × Inquiry α}

theorem perm (h : Delivers promised met inquiries pending finished) (hperm : others.Perm pending) :
    Delivers promised met inquiries others finished :=
  ⟨((hperm.map Prod.fst).append_right _).trans h.numbers,
    fun item hitem => h.promised item (hperm.mem_iff.mp hitem), h.delivered⟩

theorem advance (h : Delivers promised met inquiries (item :: pending) finished)
    {inquiry : Inquiry α}
    (hpromised : ∀ original, inquiries[item.1]? = some original → promised original inquiry) :
    Delivers promised met inquiries ((item.1, inquiry) :: pending) finished := by
  refine ⟨h.numbers, ?_, h.delivered⟩
  intro other hother
  cases hother with
  | head => exact hpromised
  | tail _ hother => exact h.promised other (List.mem_cons_of_mem _ hother)

theorem settle (h : Delivers promised met inquiries (item :: pending) finished)
    {result : Except Fault α}
    (hresult : ∀ original, inquiries[item.1]? = some original → met original result) :
    Delivers promised met inquiries pending (finished ++ [(item.1, result)]) := by
  refine ⟨?_, fun other hother => h.promised other (List.mem_cons_of_mem _ hother), ?_⟩
  · have hnumbers := h.numbers
    simp only [List.map_cons, List.map_append, List.map_nil, List.cons_append] at hnumbers ⊢
    refine List.Perm.trans ?_ hnumbers
    rw [← List.append_assoc]
    exact List.perm_append_singleton _ _
  · intro other hother
    rcases List.mem_append.mp hother with hother | hother
    · exact h.delivered other hother
    · rw [List.mem_singleton] at hother
      subst hother
      exact hresult

/-- When nothing is pending, each number has a result that meets its promise. -/
theorem exists_slot? (h : Delivers promised met inquiries [] finished) {index : Nat}
    {original : Inquiry α} (horiginal : inquiries[index]? = some original) :
    ∃ result, slot? finished index = some result ∧ met original result := by
  have hmem : index ∈ finished.map Prod.fst := by
    rw [← List.nil_append (finished.map Prod.fst)]
    exact h.numbers.mem_iff.mpr (List.mem_range.mpr (List.getElem?_eq_some_iff.mp horiginal).1)
  obtain ⟨item, hitem, hnumber⟩ := List.mem_map.mp hmem
  unfold slot?
  cases hfound : finished.find? fun item => item.1 == index with
  | none =>
    have hnone := List.find?_eq_none.mp hfound item hitem
    simp [hnumber] at hnone
  | some found =>
    have hequal : found.1 = index := by simpa using List.find?_some hfound
    exact ⟨found.2, rfl, h.delivered found (List.mem_of_find?_eq_some hfound) original
      (hequal ▸ horiginal)⟩

end Delivers

theorem filterMap_id_cons {β : Type} (slot : Option β) (rest : List (Option β)) :
    (slot :: rest).filterMap id = slot.toList ++ rest.filterMap id := by
  cases slot <;> rfl

theorem perm_filterMap_set {β : Type} {slots : List (Option β)} {index : Nat} {old : Option β}
    (h : slots[index]? = some old) (new : Option β) :
    (old.toList ++ (slots.set index new).filterMap id).Perm
      (new.toList ++ slots.filterMap id) := by
  induction slots generalizing index with
  | nil => cases h
  | cons slot rest ih =>
    cases index with
    | zero =>
      cases h
      rw [List.set_cons_zero, filterMap_id_cons, filterMap_id_cons]
      exact List.perm_append_comm_assoc _ _ _
    | succ index =>
      rw [List.set_cons_succ, filterMap_id_cons, filterMap_id_cons]
      have hrest := (ih h).append_left slot.toList
      exact (List.perm_append_comm_assoc _ _ _).trans
        (hrest.trans (List.perm_append_comm_assoc _ _ _))

variable {inquiries : List (Inquiry α)}

section Turns

variable {pool : Pool α}

/-- A turn of any worker keeps what is delivered. -/
theorem delivers_turn (hbinding : Binding around promised met) (worker : Nat) (state : σ)
    (h : Delivers promised met inquiries pool.pending pool.finished) :
    Delivers promised met inquiries (pool.turn around worker state).1.pending
      (pool.turn around worker state).1.finished := by
  unfold turn
  cases hslot : pool.active[worker]? with
  | none => exact h
  | some slot =>
    cases slot with
    | none =>
      dsimp only
      cases hwaiting : pool.waiting with
      | nil => exact h
      | cons next rest =>
        refine h.perm ?_
        have hset := perm_filterMap_set hslot (some next)
        simp only [pending, hwaiting]
        exact (hset.append_right rest).trans List.perm_middle.symm
    | some item =>
      obtain ⟨index, inquiry⟩ := item
      -- what the worker was at comes first, before the slots with none in its place
      have hidle := (perm_filterMap_set hslot none).append_right pool.waiting
      have hpending := h.perm hidle
      have hpromised := hpending.promised _ List.mem_cons_self
      dsimp only
      cases hresult : inquiry.result? with
      | some result =>
        exact hpending.settle fun original h => hbinding.result (hpromised original h) hresult
      | none =>
        have hstepped := fun original h => hbinding.step worker state (hpromised original h)
        have hworker : (pool.active.set worker none)[worker]? = some none :=
          List.getElem?_set_self (List.getElem?_eq_some_iff.mp hslot).1
        have hlast := perm_filterMap_set hworker
          (some (index, (inquiry.step (around.onWorker worker) state).1))
        rw [List.set_set] at hlast
        exact (hpending.advance hstepped).perm (hlast.append_right pool.waiting)

/-- Any schedule keeps what is delivered. -/
theorem delivers_follow (hbinding : Binding around promised met) (schedule : List Nat) (state : σ)
    (h : Delivers promised met inquiries pool.pending pool.finished) :
    Delivers promised met inquiries (pool.follow around schedule state).1.pending
      (pool.follow around schedule state).1.finished := by
  induction schedule generalizing pool state with
  | nil => exact h
  | cons worker rest ih => exact ih _ (delivers_turn hbinding worker state h)

end Turns

theorem delivers_runAll (hbinding : Binding around promised met) (worker : Nat)
    {items rest : List (Nat × Inquiry α)} {finished : List (Nat × Except Fault α)} (state : σ)
    (h : Delivers promised met inquiries (items ++ rest) finished) :
    Delivers promised met inquiries rest (finished ++ (runAll around worker items state).1) := by
  induction items generalizing finished state with
  | nil =>
    rw [runAll, List.append_nil]
    exact h
  | cons item items ih =>
    have hresult := fun original horiginal =>
      hbinding.run (h.promised item List.mem_cons_self original horiginal) worker state
    have hrest := ih (item.2.run (around.onWorker worker) state).2 (h.settle hresult)
    rw [List.append_assoc] at hrest
    exact hrest

theorem delivers_finishActive (hbinding : Binding around promised met) (worker : Nat)
    {active : List (Option (Nat × Inquiry α))} {rest : List (Nat × Inquiry α)}
    {finished : List (Nat × Except Fault α)} (state : σ)
    (h : Delivers promised met inquiries (active.filterMap id ++ rest) finished) :
    Delivers promised met inquiries rest (finished ++ (finishActive around worker active state).1) := by
  induction active generalizing worker finished state with
  | nil =>
    rw [finishActive, List.append_nil]
    exact h
  | cons slot active ih =>
    cases slot with
    | none => exact ih (worker + 1) state h
    | some item =>
      have hitem : Delivers promised met inquiries ([item] ++ (active.filterMap id ++ rest)) finished :=
        h
      have hfirst := delivers_runAll hbinding worker state hitem
      have hrest := ih (worker + 1) (runAll around worker [item] state).2 hfirst
      rw [List.append_assoc] at hrest
      exact hrest

theorem delivers_finish (hbinding : Binding around promised met) (pool : Pool α) (state : σ)
    (h : Delivers promised met inquiries pool.pending pool.finished) :
    Delivers promised met inquiries [] (pool.finish around state).1 := by
  have hended := delivers_finishActive hbinding 0 state h
  rw [← List.append_nil pool.waiting] at hended
  exact delivers_runAll hbinding 0 (finishActive around 0 pool.active state).2 hended

/-- At the start all inquiries are pending. -/
theorem pending_start (workers : Nat) (inquiries : List (Inquiry α)) :
    (start workers inquiries).pending = numbered inquiries := by
  simp only [start, pending]
  rw [List.filterMap_replicate_of_none rfl, List.nil_append]

theorem map_fst_numbered (inquiries : List (Inquiry α)) :
    (numbered inquiries).map Prod.fst = List.range inquiries.length := by
  rw [numbered, List.map_map]
  change inquiries.zipIdx.map Prod.snd = _
  rw [List.zipIdx_map_snd, List.range_eq_range']

theorem map_snd_numbered (inquiries : List (Inquiry α)) :
    (numbered inquiries).map Prod.snd = inquiries := by
  rw [numbered, List.map_map]
  exact List.zipIdx_map_fst 0 inquiries

theorem mem_numbered_iff {item : Nat × Inquiry α} :
    item ∈ numbered inquiries ↔ inquiries[item.1]? = some item.2 := by
  rw [numbered, List.mem_map]
  constructor
  · rintro ⟨indexed, hindexed, rfl⟩
    exact List.mem_zipIdx_iff_getElem?.mp hindexed
  · exact fun h => ⟨(item.2, item.1), List.mem_zipIdx_iff_getElem?.mpr h, rfl⟩

theorem delivers_start (hpromised : ∀ inquiry ∈ inquiries, promised inquiry inquiry)
    (workers : Nat) :
    Delivers promised met inquiries (start workers inquiries).pending
      (start workers inquiries).finished := by
  rw [pending_start]
  refine ⟨?_, ?_, fun item hitem => absurd hitem List.not_mem_nil⟩
  · rw [map_fst_numbered]
    exact .of_eq (List.append_nil _)
  · intro item hitem original horiginal
    have hinquiry := mem_numbered_iff.mp hitem
    obtain rfl : item.2 = original := Option.some.inj (hinquiry.symm.trans horiginal)
    exact hpromised item.2 (List.mem_of_getElem? hinquiry)

theorem forall₂_filterMap_range {β γ : Type} {related : β → γ → Prop} {items : List β}
    {found : Nat → Option γ}
    (h : ∀ index item, items[index]? = some item →
      ∃ other, found index = some other ∧ related item other) :
    List.Forall₂ related items ((List.range items.length).filterMap found) := by
  induction items generalizing found with
  | nil => exact .nil
  | cons item rest ih =>
    obtain ⟨other, hother, hrelated⟩ := h 0 item rfl
    rw [List.length_cons, List.range_succ_eq_map, List.filterMap_cons, hother, List.filterMap_map]
    exact .cons hrelated (ih fun index later hlater => h (index + 1) later hlater)

/-- A pool gives each inquiry a result that meets its promise, in the order of the inquiries, for
    any number of workers and any schedule. -/
theorem forall₂_run (hbinding : Binding around promised met)
    (hpromised : ∀ inquiry ∈ inquiries, promised inquiry inquiry) (workers : Nat)
    (schedule : List Nat) (state : σ) :
    List.Forall₂ met inquiries (run around workers schedule inquiries state).1 := by
  have hfollow := delivers_follow hbinding schedule state (delivers_start hpromised workers)
  have hfinish := delivers_finish hbinding _
    ((start workers inquiries).follow around schedule state).2 hfollow
  exact forall₂_filterMap_range fun index inquiry hinquiry => hfinish.exists_slot? hinquiry

section Steady

variable {allowed : Request → Prop}

/-- In steady surroundings what is left of an inquiry still ends in the result of the whole. -/
theorem binding_result (hsteady : around.Steady allowed) (state : σ) :
    Binding around
      (fun original inquiry : Inquiry α => inquiry.Within allowed ∧
        ∀ reached, (inquiry.run around reached).1 = (original.run around state).1)
      (fun original result => (original.run around state).1 = result) where
  step worker reached h :=
    ⟨h.1.step _ _, fun t => (run_step (hsteady.onWorker worker) h.1 reached t reached).trans
      (h.2 reached)⟩
  result h hresult := ((h.2 state).symm.trans (run_of_result? hresult around state))

/-- A pool gives each inquiry the result it has by itself, in the order of the inquiries, for any
    number of workers and any schedule. -/
theorem run_eq_map (hsteady : around.Steady allowed)
    (hwithin : ∀ inquiry ∈ inquiries, inquiry.Within allowed) (workers : Nat)
    (schedule : List Nat) (state : σ) :
    (run around workers schedule inquiries state).1 =
      inquiries.map fun inquiry => (inquiry.run around state).1 := by
  have hresults := forall₂_run (binding_result hsteady state)
    (fun inquiry hinquiry => ⟨hwithin inquiry hinquiry, fun reached =>
      run_eq_of_agree hsteady (hwithin inquiry hinquiry) reached state⟩) workers schedule state
  rw [← List.forall₂_eq_eq_eq, List.forall₂_map_right_iff]
  exact hresults.flip.imp fun result inquiry h => h.symm

end Steady

end Pool

end TableAudit
