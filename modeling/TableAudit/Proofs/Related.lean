import Mathlib.Data.List.Forall2

namespace TableAudit

variable {α β γ : Type}

theorem exists_of_forall₂_left {related : α → β → Prop} {items : List α} {others : List β}
    (h : List.Forall₂ related items others) {item : α} (hitem : item ∈ items) :
    ∃ other ∈ others, related item other := by
  induction h with
  | nil => cases hitem
  | cons hfirst _ ih =>
    rcases List.mem_cons.1 hitem with rfl | hitem
    · exact ⟨_, List.mem_cons_self, hfirst⟩
    · obtain ⟨other, hmem, hrelated⟩ := ih hitem
      exact ⟨other, List.mem_cons_of_mem _ hmem, hrelated⟩

theorem forall₂_iff_of_forall_mem {related similar : α → β → Prop} {items : List α}
    {others : List β} (h : ∀ item ∈ items, ∀ other, related item other ↔ similar item other) :
    List.Forall₂ related items others ↔ List.Forall₂ similar items others := by
  induction items generalizing others with
  | nil => simp
  | cons item rest ih =>
    simp only [List.forall₂_cons_left_iff, h item List.mem_cons_self,
      ih fun later hlater => h later (List.mem_cons_of_mem _ hlater)]

/-- Each item of a list is related to something if the list is related to another. -/
theorem exists_forall₂_iff {related : α → β → Prop} {items : List α} :
    (∃ others, List.Forall₂ related items others) ↔ ∀ item ∈ items, ∃ other, related item other := by
  induction items with
  | nil => simp
  | cons item rest ih =>
    rw [List.forall_mem_cons, ← ih]
    constructor
    · rintro ⟨_, hall⟩
      cases hall with
      | cons hfirst hrest => exact ⟨⟨_, hfirst⟩, _, hrest⟩
    · rintro ⟨⟨other, hfirst⟩, others, hrest⟩
      exact ⟨other :: others, .cons hfirst hrest⟩

theorem forall₂_flatMap_iff {related : β → γ → Prop} {f : α → List β} {items : List α}
    {others : List γ} :
    List.Forall₂ related (items.flatMap f) others ↔
      ∃ lists, List.Forall₂ (fun item list => List.Forall₂ related (f item) list) items lists ∧
        others = lists.flatten := by
  induction items generalizing others with
  | nil => simp
  | cons item rest ih =>
    rw [List.flatMap_cons]
    constructor
    · intro h
      have hfirst := List.forall₂_take (f item).length h
      have hrest := List.forall₂_drop (f item).length h
      rw [List.take_left] at hfirst
      rw [List.drop_left] at hrest
      obtain ⟨lists, hlists, hflatten⟩ := ih.mp hrest
      refine ⟨others.take (f item).length :: lists, .cons hfirst hlists, ?_⟩
      rw [List.flatten_cons, ← hflatten, List.take_append_drop]
    · rintro ⟨_, hlists, rfl⟩
      cases hlists with
      | cons hfirst hrest => exact List.rel_append hfirst (ih.mpr ⟨_, hrest, rfl⟩)

/-- Each item is related to something whose value is given, if all are. -/
theorem forall₂_exists_map_iff {related : α → β → Prop} {f : β → γ} {items : List α}
    {values : List γ} :
    List.Forall₂ (fun item value => ∃ other, related item other ∧ value = f other) items values ↔
      ∃ others, List.Forall₂ related items others ∧ values = others.map f := by
  induction items generalizing values with
  | nil => simp
  | cons item rest ih =>
    constructor
    · intro h
      cases h with
      | cons hfirst hrest =>
        obtain ⟨other, hother, rfl⟩ := hfirst
        obtain ⟨others, hothers, rfl⟩ := ih.mp hrest
        exact ⟨other :: others, .cons hother hothers, rfl⟩
    · rintro ⟨_, hothers, rfl⟩
      cases hothers with
      | cons hfirst hrest => exact .cons ⟨_, hfirst, rfl⟩ (ih.mpr ⟨_, hrest, rfl⟩)

end TableAudit
