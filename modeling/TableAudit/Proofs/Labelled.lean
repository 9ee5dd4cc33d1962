import Mathlib.Data.List.Induction
import Mathlib.Data.List.Nodup
import TableAudit.Labelled

namespace TableAudit

namespace Labelled

variable {α : Type}

theorem ofList_append_singleton (entries : List (String × α)) (entry : String × α) :
    ofList (entries ++ [entry]) = (ofList entries).put entry.1 entry.2 := by
  simp only [ofList, List.foldl_append, List.foldl_cons, List.foldl_nil]

/-- The labels are those of the list, each where it first occurs. -/
theorem labels_ofList (entries : List (String × α)) :
    (ofList entries).labels = (entries.map Prod.fst).eraseDups := by
  induction entries using List.reverseRecOn with
  | nil => rfl
  | append_singleton entries entry ih =>
    rw [ofList_append_singleton, labels_put, ih, List.map_append, List.eraseDups_append]
    by_cases hmem : entry.1 ∈ entries.map Prod.fst
    · rw [if_pos (List.mem_eraseDups.mpr hmem)]
      simp [List.removeAll, hmem]
    · rw [if_neg (mt List.mem_eraseDups.mp hmem)]
      simp [List.removeAll, hmem, List.eraseDups_cons]

/-- A list without repeated labels is kept as it is. -/
theorem entries_ofList {entries : List (String × α)} (h : (entries.map Prod.fst).Nodup) :
    (ofList entries).entries = entries := by
  induction entries using List.reverseRecOn with
  | nil => rfl
  | append_singleton entries entry ih =>
    rw [List.map_append, List.nodup_append] at h
    obtain ⟨hnodup, -, hdisjoint⟩ := h
    have hfresh : entry.1 ∉ entries.map Prod.fst := by
      intro hmem
      exact hdisjoint _ hmem _ (List.mem_cons_self) rfl
    rw [ofList_append_singleton]
    change putIn entry.1 entry.2 (ofList entries).entries = _
    rw [ih hnodup, putIn, if_neg hfresh]

/-- Values beside as many distinct labels stand under these, each under its own. -/
theorem labels_values_ofList_zip {labels : List String} {values : List α} (hnodup : labels.Nodup)
    (hlength : labels.length = values.length) :
    (ofList (labels.zip values)).labels = labels ∧ (ofList (labels.zip values)).values = values := by
  have hlabels := List.map_fst_zip (Nat.le_of_eq hlength)
  have hentries := entries_ofList (hlabels.symm ▸ hnodup)
  unfold Labelled.labels Labelled.values
  rw [hentries]
  exact ⟨hlabels, List.map_snd_zip (Nat.le_of_eq hlength.symm)⟩

/-- There is nothing under a label exactly when it is none of the labels. -/
theorem get?_eq_none_iff (items : Labelled α) (label : String) :
    items.get? label = none ↔ label ∉ items.labels := by
  rw [get?, Option.map_eq_none_iff, List.find?_eq_none, labels, List.mem_map]
  constructor
  · rintro hdiffers ⟨entry, hentry, rfl⟩
    exact hdiffers entry hentry (beq_self_eq_true entry.1)
  · intro hmissing entry hentry hequal
    exact hmissing ⟨entry, hentry, beq_iff_eq.mp hequal⟩

/-- Where a value is replaced, each label leads to the same entry as before, with the new value if it
    is the one that was replaced. -/
theorem find?_replaceIn (label other : String) (value : α) (entries : List (String × α)) :
    ((replaceIn label value entries).find? fun entry => entry.1 == other) =
      (entries.find? fun entry => entry.1 == other).map
        fun entry => if entry.1 == label then (entry.1, value) else entry := by
  rw [replaceIn, List.find?_map]
  congr 2
  funext entry
  rw [Function.comp_apply]
  split <;> rfl

/-- A value that is put stands under its label, and nothing else changes. -/
theorem get?_put (items : Labelled α) (label other : String) (value : α) :
    (items.put label value).get? other = if label = other then some value else items.get? other := by
  change ((putIn label value items.entries).find? fun entry => entry.1 == other).map Prod.snd = _
  have hmissing := get?_eq_none_iff items other
  rw [get?] at hmissing ⊢
  unfold putIn
  by_cases hmem : label ∈ items.entries.map Prod.fst
  · rw [if_pos hmem, find?_replaceIn]
    cases hfound : items.entries.find? fun entry => entry.1 == other with
    | none =>
      rw [hfound] at hmissing
      have hdiffers : label ≠ other := fun hequal => hmissing.mp rfl (hequal ▸ hmem)
      rw [if_neg hdiffers, Option.map_none]
    | some entry =>
      have hentry : entry.1 = other := by simpa using List.find?_some hfound
      by_cases hequal : label = other
      · simp [hentry, hequal]
      · simp [hentry, hequal, Ne.symm hequal]
  · rw [if_neg hmem, List.find?_append, Option.map_or]
    by_cases hequal : label = other
    · rw [hmissing.mpr (hequal ▸ hmem), if_pos hequal]
      simp [hequal]
    · simp [hequal]

/-- Under a label stands the value that the list has beside it last. -/
theorem get?_ofList (entries : List (String × α)) (label : String) :
    (ofList entries).get? label =
      (entries.reverse.find? fun entry => entry.1 == label).map Prod.snd := by
  induction entries using List.reverseRecOn with
  | nil => rfl
  | append_singleton entries entry ih =>
    rw [ofList_append_singleton, get?_put, ih, List.reverse_append, List.reverse_singleton,
      List.singleton_append]
    by_cases hequal : entry.1 = label
    · simp [hequal]
    · simp [hequal]

/-- The entries are the values under their labels. -/
theorem mem_entries_iff (items : Labelled α) (label : String) (value : α) :
    (label, value) ∈ items.entries ↔ items.get? label = some value := by
  rw [get?, Option.map_eq_some_iff]
  constructor
  · intro hmem
    cases hfound : items.entries.find? fun entry => entry.1 == label with
    | none => exact absurd (beq_self_eq_true label) (List.find?_eq_none.mp hfound _ hmem)
    | some entry =>
      refine ⟨entry, rfl, ?_⟩
      have hlabel : entry.1 = label := by simpa using List.find?_some hfound
      rw [List.inj_on_of_nodup_map items.nodup (List.mem_of_find?_eq_some hfound) hmem hlabel]
  · rintro ⟨entry, hfound, rfl⟩
    have hlabel : entry.1 = label := by simpa using List.find?_some hfound
    exact hlabel ▸ List.mem_of_find?_eq_some hfound

/-- Distinct labels lead to the values beside them. -/
theorem get?_ofList_zip {labels : List String} {values : List α} (hnodup : labels.Nodup)
    (hlength : labels.length = values.length) {index : Nat} {label : String} {value : α}
    (hlabel : labels[index]? = some label) (hvalue : values[index]? = some value) :
    (ofList (labels.zip values)).get? label = some value := by
  have hkeys : ((labels.zip values).map Prod.fst).Nodup := by
    rwa [List.map_fst_zip (Nat.le_of_eq hlength)]
  rw [← mem_entries_iff, entries_ofList hkeys]
  have hentry : (labels.zip values)[index]? = some (label, value) := by
    rw [List.getElem?_zip_eq_some]
    exact ⟨hlabel, hvalue⟩
  exact List.mem_of_getElem? hentry

end Labelled

end TableAudit
