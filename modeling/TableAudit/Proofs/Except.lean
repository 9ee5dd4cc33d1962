import Mathlib.Data.List.Forall2

namespace TableAudit

/-- A sequence of two steps has a result exactly when the first has one on which the second has it. -/
theorem bind_eq_ok_iff {α β ε : Type} {step : Except ε α} {next : α → Except ε β} {result : β} :
    (step >>= next) = .ok result ↔ ∃ value, step = .ok value ∧ next value = .ok result := by
  cases step <;> simp [bind, Except.bind]

/-- A sequence of two steps ends in an error exactly when one of them does. -/
theorem bind_eq_error_iff {α β ε : Type} {step : Except ε α} {next : α → Except ε β} {error : ε} :
    (step >>= next) = .error error ↔
      step = .error error ∨ ∃ value, step = .ok value ∧ next value = .error error := by
  cases step <;> simp [bind, Except.bind]

/-- Going through a list succeeds exactly when each item has a result of its own. -/
theorem mapM_eq_ok_iff {α β ε : Type} (f : α → Except ε β) (items : List α) (results : List β) :
    items.mapM f = .ok results ↔
      List.Forall₂ (fun item result => f item = .ok result) items results := by
  induction items generalizing results with
  | nil => simp [pure, Except.pure, eq_comm]
  | cons item rest ih =>
    simp only [List.mapM_cons, bind_eq_ok_iff, ih, List.forall₂_cons_left_iff]
    constructor
    · rintro ⟨first, hfirst, others, hothers, heq⟩
      cases heq
      exact ⟨first, others, hfirst, hothers, rfl⟩
    · rintro ⟨first, others, hfirst, hothers, rfl⟩
      exact ⟨first, hfirst, others, hothers, rfl⟩

theorem exists_getElem?_of_mapM_eq_ok {α β ε : Type} {f : α → Except ε β} {items : List α}
    {results : List β} (h : items.mapM f = .ok results) {index : Nat} {item : α}
    (hitem : items[index]? = some item) :
    ∃ result, results[index]? = some result ∧ f item = .ok result := by
  rw [mapM_eq_ok_iff] at h
  induction h generalizing index with
  | nil => cases hitem
  | @cons first result rest results hfirst _ ih =>
    cases index with
    | zero =>
      cases hitem
      exact ⟨result, rfl, hfirst⟩
    | succ index => exact ih hitem

/-- An error met in going through a list is that of one of its items. -/
theorem exists_of_mapM_eq_error {α β ε : Type} {f : α → Except ε β} {items : List α} {error : ε}
    (h : items.mapM f = .error error) : ∃ item ∈ items, f item = .error error := by
  induction items with
  | nil => cases h
  | cons item rest ih =>
    rw [List.mapM_cons] at h
    cases hitem : f item with
    | error first =>
      have heq : first = error := by simpa [bind, Except.bind, hitem] using h
      exact ⟨item, List.mem_cons_self, heq ▸ hitem⟩
    | ok first =>
      have hrest : rest.mapM f = .error error := by
        cases hmap : rest.mapM f <;> simp_all [bind, Except.bind, pure, Except.pure]
      obtain ⟨found, hmem, hfound⟩ := ih hrest
      exact ⟨found, List.mem_cons_of_mem item hmem, hfound⟩

theorem forM_eq_ok_iff {α ε : Type} {step : α → Except ε Unit} {items : List α} :
    items.forM step = .ok () ↔ ∀ item ∈ items, step item = .ok () := by
  induction items with
  | nil => exact ⟨fun _ item hitem => absurd hitem List.not_mem_nil, fun _ => rfl⟩
  | cons item rest ih =>
    change (step item >>= fun _ => rest.forM step) = .ok () ↔ _
    rw [List.forall_mem_cons, ← ih, bind_eq_ok_iff]
    exact ⟨fun ⟨_, hfirst, hrest⟩ => ⟨hfirst, hrest⟩, fun ⟨hfirst, hrest⟩ => ⟨(), hfirst, hrest⟩⟩

/-- Going through a list ends in the error of its first item that has one. -/
theorem forM_eq_error_iff {α ε : Type} {step : α → Except ε Unit} {items : List α} {error : ε} :
    items.forM step = .error error ↔ ∃ before item after, items = before ++ item :: after ∧
      (∀ earlier ∈ before, step earlier = .ok ()) ∧ step item = .error error := by
  induction items with
  | nil => exact ⟨nofun, fun ⟨before, item, after, h, _⟩ => by cases before <;> cases h⟩
  | cons item rest ih =>
    change (step item >>= fun _ => rest.forM step) = .error error ↔ _
    rw [bind_eq_error_iff, ih]
    constructor
    · rintro (hitem | ⟨⟨⟩, hitem, before, found, after, rfl, hbefore, hfound⟩)
      · exact ⟨[], item, rest, rfl, by simp, hitem⟩
      · exact ⟨item :: before, found, after, rfl, List.forall_mem_cons.mpr ⟨hitem, hbefore⟩, hfound⟩
    · rintro ⟨before, found, after, hitems, hbefore, hfound⟩
      cases before with
      | nil =>
        cases hitems
        exact .inl hfound
      | cons first before =>
        cases hitems
        rw [List.forall_mem_cons] at hbefore
        exact .inr ⟨(), hbefore.1, before, found, after, rfl, hbefore.2, hfound⟩

/-- A guard lets a computation go on if its condition does not hold. -/
theorem guard_eq_ok_iff {α ε : Type} {condition : Bool} {error : ε} {next : Except ε α}
    {result : α} :
    (if condition = true then (throw error >>= fun (_ : PUnit) => next) else next) = .ok result ↔
      condition = false ∧ next = .ok result := by
  cases condition with
  | true => exact ⟨nofun, nofun⟩
  | false => simp

/-- A guard whose condition holds is the error. -/
theorem guard_eq_error_iff {α ε : Type} {condition : Bool} {error found : ε} {next : Except ε α} :
    (if condition = true then (throw error >>= fun (_ : PUnit) => next) else next) = .error found ↔
      condition = true ∧ error = found ∨ condition = false ∧ next = .error found := by
  cases condition with
  | true =>
    change Except.error error = .error found ↔ _
    simp
  | false => simp

end TableAudit
