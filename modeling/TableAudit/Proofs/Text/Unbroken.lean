import TableAudit.Proofs.Text.Margin
import TableAudit.Summary.Rate

namespace TableAudit.Text

/-- A text that stays on one line. -/
def Unbroken (text : String) : Prop :=
  '\n' ∉ text.toList

instance (text : String) : Decidable (Unbroken text) :=
  inferInstanceAs (Decidable ('\n' ∉ text.toList))

@[simp] theorem unbroken_append (a b : String) : Unbroken (a ++ b) ↔ Unbroken a ∧ Unbroken b := by
  simp [Unbroken]

theorem unbroken_join (parts : List String) :
    Unbroken (String.join parts) ↔ ∀ part ∈ parts, Unbroken part := by
  simp [Unbroken, String.toList_join]

theorem unbroken_joinWith {separator : String} (hseparator : Unbroken separator)
    (parts : List String) :
    Unbroken (joinWith separator parts) ↔ ∀ part ∈ parts, Unbroken part := by
  induction parts with
  | nil => simp [joinWith, Unbroken]
  | cons part rest ih =>
    cases rest with
    | nil => simp [joinWith]
    | cons next others =>
      have hjoined : joinWith separator (part :: next :: others) =
          part ++ separator ++ joinWith separator (next :: others) := rfl
      rw [hjoined, unbroken_append, unbroken_append, and_iff_left hseparator, ih]
      exact List.forall_mem_cons.symm

@[simp] theorem unbroken_repr (n : Nat) : Unbroken (Nat.repr n) := by
  intro hfeed
  rw [Nat.toList_repr] at hfeed
  have hdigit := Nat.isDigit_of_mem_toDigits (by decide) (by decide) hfeed
  exact absurd hdigit (by decide)

@[simp] theorem unbroken_toString_nat (n : Nat) : Unbroken (toString n) :=
  unbroken_repr n

@[simp] theorem unbroken_toString_int (n : Int) : Unbroken (toString n) := by
  cases n with
  | ofNat n => exact unbroken_repr n
  | negSucc n =>
    change Unbroken ("-" ++ Nat.repr (n + 1))
    rw [unbroken_append]
    exact ⟨by decide, unbroken_repr _⟩

@[simp] theorem unbroken_rate (rate : Rate) : Unbroken rate.text := by
  cases rate with
  | tenths count =>
    rw [Rate.text, unbroken_append, unbroken_append]
    exact ⟨⟨unbroken_repr _, by decide⟩, unbroken_repr _⟩
  | unbounded => exact (by decide : Unbroken "inf")

theorem unbroken_padded (width n : Nat) : Unbroken (Decimal.padded width n) := by
  rw [Decimal.padded, unbroken_append]
  refine ⟨?_, unbroken_repr n⟩
  rw [Unbroken, Decimal.zeros, String.toList_ofList]
  exact fun hfeed => absurd (List.eq_of_mem_replicate hfeed) (by decide)

@[simp] theorem unbroken_fixed (places : Nat) (x : Float) : Unbroken (Decimal.fixed places x) := by
  have hquotient (num den : Nat) : Unbroken (Decimal.fixedQuotient places num den) := by
    unfold Decimal.fixedQuotient
    dsimp only
    split
    · exact unbroken_repr _
    · rw [unbroken_append, unbroken_append]
      exact ⟨⟨unbroken_repr _, by decide⟩, unbroken_padded _ _⟩
  unfold Decimal.fixed
  split
  · decide
  · split <;> decide
  · rw [unbroken_append]
    exact ⟨by split <;> decide, hquotient _ _⟩

/-- A line feed parts the lines before it from those after it. -/
theorem lines_append_feed (front rest : List Char) :
    lines (front ++ '\n' :: rest) = lines front ++ lines rest := by
  induction front with
  | nil => rfl
  | cons c front ih =>
    rw [List.cons_append]
    by_cases hc : c = '\n'
    · rw [hc, lines_feed, lines_feed, ih, List.cons_append]
    · obtain ⟨first, others, hlines⟩ := List.exists_cons_of_ne_nil (lines_ne_nil front)
      rw [lines_cons hc, lines_cons hc, ih, hlines]
      rfl

theorem lines_flatMap_feed (rows : List (List Char)) :
    lines (rows.flatMap fun row => row ++ ['\n']) = rows.flatMap lines ++ [[]] := by
  induction rows with
  | nil => rfl
  | cons row rest ih =>
    rw [List.flatMap_cons, List.append_assoc, List.singleton_append, lines_append_feed, ih,
      List.flatMap_cons, List.append_assoc]

theorem length_lines_pos (text : List Char) : 0 < (lines text).length :=
  List.length_pos_iff.mpr (lines_ne_nil text)

theorem length_lines_eq_one_iff (text : List Char) : (lines text).length = 1 ↔ '\n' ∉ text := by
  constructor
  · intro h hfeed
    obtain ⟨front, rest, rfl⟩ := List.append_of_mem hfeed
    rw [lines_append_feed, List.length_append] at h
    have hfront := length_lines_pos front
    have hrest := length_lines_pos rest
    omega
  · intro h
    rw [lines_of_not_mem h, List.length_singleton]

theorem length_le_length_flatMap_lines (rows : List (List Char)) :
    rows.length ≤ (rows.flatMap lines).length := by
  induction rows with
  | nil => exact Nat.zero_le _
  | cons row rest ih =>
    have hrow := length_lines_pos row
    rw [List.flatMap_cons, List.length_append, List.length_cons]
    omega

/-- Rows are as many lines as there are rows exactly if each of them is one. -/
theorem length_flatMap_lines_iff (rows : List (List Char)) :
    (rows.flatMap lines).length = rows.length ↔ ∀ row ∈ rows, '\n' ∉ row := by
  induction rows with
  | nil => simp
  | cons row rest ih =>
    have hrow := length_lines_pos row
    have hrest := length_le_length_flatMap_lines rest
    rw [List.forall_mem_cons, ← length_lines_eq_one_iff, List.flatMap_cons, List.length_append,
      List.length_cons]
    constructor
    · intro h
      exact ⟨by omega, ih.mp (by omega)⟩
    · rintro ⟨hone, hothers⟩
      have := ih.mpr hothers
      omega

end TableAudit.Text
