namespace TableAudit

/-- A list of labelled values with distinct labels. -/
structure Labelled (α : Type) where
  entries : List (String × α)
  nodup : (entries.map Prod.fst).Nodup := by simp

namespace Labelled

variable {α β : Type}

def empty : Labelled α :=
  { entries := [] }

instance : Inhabited (Labelled α) :=
  ⟨empty⟩

def labels (items : Labelled α) : List String :=
  items.entries.map Prod.fst

def values (items : Labelled α) : List α :=
  items.entries.map Prod.snd

def size (items : Labelled α) : Nat :=
  items.entries.length

/-- The value under a label. -/
def get? (items : Labelled α) (label : String) : Option α :=
  (items.entries.find? fun entry => entry.1 == label).map Prod.snd

/-- The entries with a value replaced. -/
def replaceIn (label : String) (value : α) (entries : List (String × α)) : List (String × α) :=
  entries.map fun entry => if entry.1 == label then (entry.1, value) else entry

theorem labels_replaceIn (label : String) (value : α) (entries : List (String × α)) :
    (replaceIn label value entries).map Prod.fst = entries.map Prod.fst := by
  induction entries with
  | nil => rfl
  | cons entry rest ih =>
    simp only [replaceIn, List.map_cons] at ih ⊢
    rw [ih]
    split <;> rfl

/-- The entries after a value is put under a label. -/
def putIn (label : String) (value : α) (entries : List (String × α)) : List (String × α) :=
  if label ∈ entries.map Prod.fst then replaceIn label value entries
  else entries ++ [(label, value)]

/-- Putting a value adds its label at the end, unless the label is there. -/
theorem labels_putIn (label : String) (value : α) (entries : List (String × α)) :
    (putIn label value entries).map Prod.fst =
      if label ∈ entries.map Prod.fst then entries.map Prod.fst
      else entries.map Prod.fst ++ [label] := by
  unfold putIn
  split
  · exact labels_replaceIn label value entries
  · simp

theorem nodup_putIn (label : String) (value : α) (entries : List (String × α))
    (h : (entries.map Prod.fst).Nodup) : ((putIn label value entries).map Prod.fst).Nodup := by
  rw [labels_putIn]
  by_cases hmem : label ∈ entries.map Prod.fst
  · rwa [if_pos hmem]
  · rw [if_neg hmem, List.nodup_append]
    exact ⟨h, by simp, by
      intro a ha b hb
      rw [List.mem_singleton.1 hb]
      exact fun heq => hmem (heq ▸ ha)⟩

/-- Puts a value under a label. -/
def put (items : Labelled α) (label : String) (value : α) : Labelled α :=
  ⟨putIn label value items.entries, nodup_putIn label value items.entries items.nodup⟩

/-- The labelled values of a list; of two with one label the later counts, in the place of the
    earlier. -/
def ofList (entries : List (String × α)) : Labelled α :=
  entries.foldl (fun items entry => items.put entry.1 entry.2) empty

/-- The labels after a value is put. -/
theorem labels_put (items : Labelled α) (label : String) (value : α) :
    (items.put label value).labels =
      if label ∈ items.labels then items.labels else items.labels ++ [label] :=
  labels_putIn label value items.entries

end Labelled

end TableAudit
