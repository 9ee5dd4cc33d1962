import TableAudit.Block.Compile
import TableAudit.Proofs.Text.Margin

namespace TableAudit.Block

open Text.Margin (isIndent remove)

variable {c : Char} {named : String → Option Char} {source : List Char} {fault : Fault}

/-- A character that keeps a text from being read. -/
def IsBarred (c : Char) : Prop :=
  Text.isSurrogate c = true ∨ c = '\x00'

instance (c : Char) : Decidable (IsBarred c) :=
  inferInstanceAs (Decidable (_ ∨ _))

theorem IsBarred.ne_feed (h : IsBarred c) : c ≠ '\n' := by
  rintro rfl
  exact absurd h (by decide)

theorem IsBarred.isIndent_eq_false (h : IsBarred c) : isIndent c = false := by
  rw [← Bool.not_eq_true, isIndent, Bool.or_eq_true, beq_iff_eq, beq_iff_eq]
  rintro (rfl | rfl) <;> exact absurd h (by decide)

theorem unreadable?_eq_none_iff : unreadable? source = none ↔ ∀ c ∈ source, ¬ IsBarred c := by
  unfold unreadable?
  by_cases hsurrogate : source.any Text.isSurrogate = true
  · rw [if_pos hsurrogate]
    obtain ⟨c, hc, hmark⟩ := List.any_eq_true.mp hsurrogate
    exact ⟨nofun, fun h => absurd (.inl hmark) (h c hc)⟩
  rw [if_neg hsurrogate]
  by_cases hnull : source.contains '\x00' = true
  · rw [if_pos hnull]
    exact ⟨nofun, fun h => absurd (.inr rfl) (h _ (List.contains_iff_mem.mp hnull))⟩
  · rw [if_neg hnull]
    refine ⟨fun _ c hc hbarred => ?_, fun _ => rfl⟩
    rcases hbarred with hmark | rfl
    · exact hsurrogate (List.any_eq_true.mpr ⟨c, hc, hmark⟩)
    · exact hnull (List.contains_iff_mem.mpr hc)

/-- What keeps a text from being read is an error of its own. -/
theorem raised_of_unreadable (h : unreadable? source = some fault) :
    ∃ error, fault = .raised error := by
  unfold unreadable? at h
  by_cases hsurrogate : source.any Text.isSurrogate = true
  · rw [if_pos hsurrogate] at h
    exact ⟨_, (Option.some.inj h).symm⟩
  rw [if_neg hsurrogate] at h
  by_cases hnull : source.contains '\x00' = true
  · rw [if_pos hnull] at h
    exact ⟨_, (Option.some.inj h).symm⟩
  · rw [if_neg hnull] at h
    cases h

/-- Whether a text can be read depends on the barred characters in it alone. -/
theorem unreadable?_congr {other : List Char} (h : ∀ c, IsBarred c → (c ∈ source ↔ c ∈ other)) :
    unreadable? source = unreadable? other := by
  have hsurrogate : source.any Text.isSurrogate = other.any Text.isSurrogate := by
    rw [Bool.eq_iff_iff, List.any_eq_true, List.any_eq_true]
    exact exists_congr fun c => and_congr_left fun hmark => h c (.inl hmark)
  have hnull : source.contains '\x00' = other.contains '\x00' := by
    rw [Bool.eq_iff_iff, List.contains_iff_mem, List.contains_iff_mem]
    exact h '\x00' (.inr rfl)
  rw [unreadable?, unreadable?, hsurrogate, hnull]

theorem unreadable?_remove (source : List Char) : unreadable? (remove source) = unreadable? source :=
  unreadable?_congr fun _ hc => Text.Margin.mem_remove_iff hc.ne_feed hc.isIndent_eq_false source

theorem unreadable?_feeds (count : Nat) (source : List Char) :
    unreadable? (List.replicate count '\n' ++ source) = unreadable? source := by
  refine unreadable?_congr fun c hc => ?_
  rw [List.mem_append]
  exact ⟨fun h => h.resolve_left fun hfeed => hc.ne_feed (List.eq_of_mem_replicate hfeed), .inr⟩

theorem read_of_unreadable (h : unreadable? source = some fault) :
    read named source = .error fault := by
  rw [read, h]

theorem read_of_fault (hreadable : unreadable? source = none) {fault : Grammar.SyntaxFault}
    (h : Grammar.readBlock named source = .error fault) :
    read named source = .error (.compile (syntaxError fault)) := by
  rw [read, hreadable, Statement.ofText, h]
  rfl

/-- A text is read if none of its characters keeps it from being read and its statements can be; they
    stand where they are found. -/
theorem read_eq_ok_iff {body : List Statement} : read named source = .ok body ↔
    unreadable? source = none ∧ ∃ statements scan,
      Grammar.readBlock named source = .ok (statements, scan) ∧
        body = statements.map (Stmt.resolve scan source) := by
  cases hreadable : unreadable? source with
  | some fault =>
    rw [read_of_unreadable hreadable]
    exact ⟨nofun, nofun⟩
  | none =>
    cases hread : Grammar.readBlock named source with
    | error fault =>
      rw [read_of_fault hreadable hread]
      exact ⟨nofun, nofun⟩
    | ok found =>
      rw [read, hreadable, Statement.ofText, hread]
      constructor
      · intro h
        cases h
        exact ⟨rfl, found.1, found.2, rfl, rfl⟩
      · rintro ⟨-, statements, scan, hfound, rfl⟩
        cases hfound
        rfl

end TableAudit.Block
