import TableAudit.Proofs.Grammar.Parallel
import TableAudit.Token.Lexer

namespace TableAudit

namespace Grammar

/-- Tokens with which all of some blocks end, the text itself excepted. -/
structure Unwinds (depth : Nat) (tokens : List Token) : Prop where
  count : tokens.countP isDedent + 1 = tokens.countP isIndent + depth
  closes : Closes tokens

theorem Unwinds.nil : Unwinds 1 [] :=
  ⟨rfl, trivial⟩

theorem Unwinds.balanced {tokens : List Token} (h : Unwinds 1 tokens) : Balanced tokens :=
  (Nat.succ.inj h.count).symm

theorem Unwinds.token {depth : Nat} {token : Token} {tokens : List Token}
    (h : Unwinds depth tokens) (hdepth : 1 ≤ depth) (htoken : isEdge token = false) :
    Unwinds depth (token :: tokens) := by
  have hindent : isIndent token = false := by cases token <;> first | rfl | cases htoken
  have hdedent : isDedent token = false := by cases token <;> first | rfl | cases htoken
  have hcount := h.count
  refine ⟨?_, ?_, h.closes⟩ <;> simp only [List.countP_cons, hindent, hdedent] <;> simp <;> omega

theorem Unwinds.indent {depth : Nat} {tokens : List Token} (h : Unwinds (depth + 1) tokens)
    (hdepth : 1 ≤ depth) : Unwinds depth (.indent :: tokens) := by
  have hcount := h.count
  refine ⟨?_, ?_, h.closes⟩ <;> simp only [List.countP_cons, isIndent, isDedent] <;> simp <;> omega

theorem Unwinds.dedents {depth : Nat} {tokens : List Token} (h : Unwinds depth tokens)
    (hdepth : 1 ≤ depth) (count : Nat) :
    Unwinds (depth + count) (List.replicate count .dedent ++ tokens) := by
  induction count with
  | zero => exact h
  | succ count ih =>
    have hcount := ih.count
    rw [List.replicate_succ, List.cons_append]
    generalize List.replicate count .dedent ++ tokens = all at ih hcount
    refine ⟨?_, ?_, ih.closes⟩ <;> simp only [List.countP_cons, isIndent, isDedent] <;> simp <;> omega

theorem Closes.countP_le {tokens : List Token} (h : Closes tokens) :
    tokens.countP isIndent ≤ tokens.countP isDedent := by
  cases tokens with
  | nil => exact Nat.le_refl _
  | cons => exact h.1

theorem Closes.prepend {tokens more : List Token} (hnone : .indent ∉ tokens) (h : Closes more) :
    Closes (tokens ++ more) := by
  induction tokens with
  | nil => exact h
  | cons token tokens ih =>
    rw [List.mem_cons, not_or] at hnone
    have hrest := ih hnone.2
    have hindent : isIndent token = false := by
      cases token <;> first | rfl | exact absurd rfl hnone.1
    refine ⟨?_, hrest⟩
    change (token :: (tokens ++ more)).countP isIndent ≤ (token :: (tokens ++ more)).countP isDedent
    rw [List.countP_cons, hindent, List.countP_cons]
    exact Nat.le_trans hrest.countP_le (Nat.le_add_right _ _)

theorem Closes.append_dedent {tokens : List Token} (h : Closes tokens) :
    Closes (tokens ++ [.dedent]) := by
  induction tokens with
  | nil => exact ⟨Nat.zero_le _, trivial⟩
  | cons token tokens ih =>
    refine ⟨?_, ih h.2⟩
    change (token :: tokens ++ [Token.dedent]).countP isIndent ≤
      (token :: tokens ++ [Token.dedent]).countP isDedent
    rw [List.countP_append, List.countP_append]
    exact Nat.le_trans h.1 (Nat.le_add_right _ _)

/-- A block below a header closes with its text. -/
theorem Unwinds.closes_block {header piece : List Token} (h : Unwinds 1 piece)
    (hheader : .indent ∉ header) : Closes (header ++ .newline :: .indent :: (piece ++ [.dedent])) := by
  have hcount := h.count
  have hbalance : (Token.indent :: (piece ++ [.dedent])).countP isIndent ≤
      (Token.indent :: (piece ++ [.dedent])).countP isDedent := by
    simp only [List.countP_cons, List.countP_append, isIndent, isDedent, List.countP_nil]
    simp
    omega
  exact Closes.prepend hheader
    (Closes.prepend (by simp : Token.indent ∉ [.newline]) ⟨hbalance, h.closes.append_dedent⟩)

end Grammar

namespace Token

open Grammar (Unwinds)

/-- Blocks around each other, of which the outermost, the text itself, has no margin and no other
    has none. -/
inductive Grounded : List (Nat × Nat) → Prop
  | text : Grounded [(0, 0)]
  | block {width narrow : Nat} {outer : List (Nat × Nat)} (hwidth : 0 < width)
      (houter : Grounded outer) : Grounded ((width, narrow) :: outer)

theorem Grounded.one_le_length {indents : List (Nat × Nat)} (h : Grounded indents) :
    1 ≤ indents.length := by
  cases h <;> exact Nat.succ_le_succ (Nat.zero_le _)

/-- The blocks around a place in a text, where the text is a block of another. -/
def deeper (width narrow : Nat) (indents : List (Nat × Nat)) : List (Nat × Nat) :=
  indents.map (fun block => (width + block.1, narrow + block.2)) ++ [(0, 0)]

section Margins

variable {width narrow w n : Nat} {outer : List (Nat × Nat)}

theorem layout_of_lt (h : w < width) : layout width narrow ((w, n) :: outer) =
    if outer.length + 1 ≥ blockLimit ∨ narrow ≤ n then none
    else some ([indent], (width, narrow) :: (w, n) :: outer) :=
  (if_neg (Nat.ne_of_gt h)).trans (if_pos h)

theorem layout_of_eq : layout w narrow ((w, n) :: outer) =
    if narrow = n then some ([], (w, n) :: outer) else none :=
  if_pos rfl

theorem layout_of_gt (h : width < w) : layout width narrow ((w, n) :: outer) =
    let (left, remaining) := leaveBlocks width ((w, n) :: outer)
    let (w, n) := remaining.headD (0, 0)
    if width = w ∧ narrow = n then some (List.replicate left dedent, remaining) else none :=
  (if_neg (Nat.ne_of_lt h)).trans (if_neg (Nat.lt_asymm h))

end Margins

section Deeper

variable {wide slim width narrow : Nat} {indents : List (Nat × Nat)} {tokens : List Token}

theorem deeper_cons (block : Nat × Nat) (outer : List (Nat × Nat)) :
    deeper wide slim (block :: outer) =
      (wide + block.1, slim + block.2) :: deeper wide slim outer :=
  rfl

@[simp] theorem length_deeper : (deeper wide slim indents).length = indents.length + 1 := by
  simp [deeper]

theorem Grounded.deeper (h : Grounded indents) (hwide : 0 < wide) :
    Grounded (deeper wide slim indents) := by
  induction h with
  | text => exact .block hwide .text
  | block hwidth _ ih => exact .block (Nat.lt_of_lt_of_le hwide (Nat.le_add_right _ _)) ih

/-- What is left of blocks at a margin. -/
theorem Grounded.leaveBlocks (h : Grounded indents) (width : Nat) :
    Grounded (leaveBlocks width indents).2 ∧
      (Token.leaveBlocks width indents).1 + (Token.leaveBlocks width indents).2.length =
        indents.length := by
  induction h with
  | text => exact ⟨.text, rfl⟩
  | @block w n outer hw houter ih =>
    rw [Token.leaveBlocks]
    split
    · refine ⟨ih.1, ?_⟩
      rw [List.length_cons, ← ih.2]
      exact Nat.add_right_comm _ _ _
    · exact ⟨.block hw houter, Nat.zero_add _⟩

theorem leaveBlocks_deeper (h : Grounded indents) (width : Nat) :
    leaveBlocks (wide + width) (deeper wide slim indents) =
      ((leaveBlocks width indents).1, deeper wide slim (leaveBlocks width indents).2) := by
  induction h with
  | text =>
    have hnone : ¬ wide + width < wide + 0 := by omega
    exact if_neg hnone
  | @block w n outer hw houter ih =>
    change (if wide + width < wide + w then
        ((leaveBlocks (wide + width) (deeper wide slim outer)).1 + 1,
          (leaveBlocks (wide + width) (deeper wide slim outer)).2)
      else (0, deeper wide slim ((w, n) :: outer))) = _
    rw [ih, leaveBlocks]
    by_cases hless : width < w
    · rw [if_pos hless, if_pos (by omega)]
    · rw [if_neg hless, if_neg (by omega)]

/-- A margin has the same layout by itself and further to the right. -/
theorem layout_deeper (hgrounded : Grounded indents) {after : List (Nat × Nat)}
    (h : layout (wide + width) (slim + narrow) (deeper wide slim indents) = some (tokens, after)) :
    ∃ inner, layout width narrow indents = some (tokens, inner) ∧ after = deeper wide slim inner ∧
      Grounded inner ∧ ∀ more, Unwinds inner.length more → Unwinds indents.length (tokens ++ more) := by
  obtain ⟨⟨w, n⟩, outer, rfl⟩ : ∃ block outer, indents = block :: outer := by
    cases hgrounded <;> exact ⟨_, _, rfl⟩
  rw [deeper_cons] at h
  rcases Nat.lt_trichotomy w width with hless | rfl | hless
  · rw [layout_of_lt (Nat.add_lt_add_left hless wide), length_deeper] at h
    split at h
    · cases h
    · next hlimit =>
      cases h
      refine ⟨_, (layout_of_lt hless).trans (if_neg (by omega)), rfl, .block (by omega) hgrounded,
        fun more hmore => ?_⟩
      exact Unwinds.indent hmore hgrounded.one_le_length
  · rw [layout_of_eq] at h
    split at h
    · next hnarrow =>
      cases h
      exact ⟨_, layout_of_eq.trans (if_pos (by omega)), rfl, hgrounded, fun more hmore => hmore⟩
    · cases h
  · rw [layout_of_gt (Nat.add_lt_add_left hless wide), ← deeper_cons (w, n),
      leaveBlocks_deeper hgrounded] at h
    rw [layout_of_gt hless]
    obtain ⟨hinner, hlength⟩ := hgrounded.leaveBlocks width
    generalize leaveBlocks width ((w, n) :: outer) = found at h hinner hlength
    obtain ⟨left, inner⟩ := found
    obtain ⟨⟨w', n'⟩, outer', rfl⟩ : ∃ block outer, inner = block :: outer := by
      cases hinner <;> exact ⟨_, _, rfl⟩
    change (if wide + width = wide + w' ∧ slim + narrow = slim + n' then
      some (List.replicate left dedent, deeper wide slim ((w', n') :: outer')) else none) = _ at h
    split at h
    · cases h
      refine ⟨_, if_pos (by omega), rfl, hinner, fun more hmore => ?_⟩
      have hall := hmore.dedents hinner.one_le_length left
      rwa [Nat.add_comm, hlength] at hall
    · cases h

/-- All blocks end with a text. -/
theorem layout_end (h : Grounded indents) :
    layout 0 0 indents = some (List.replicate (indents.length - 1) dedent, [(0, 0)]) := by
  have hleave : leaveBlocks 0 indents = (indents.length - 1, [(0, 0)]) := by
    induction h with
    | text => rfl
    | block hw houter ih =>
      have hlength := houter.one_le_length
      rw [leaveBlocks, if_pos hw, ih]
      simp only [List.length_cons, Nat.add_sub_cancel]
      rw [Nat.sub_add_cancel hlength]
  cases h with
  | text => rfl
  | @block w n outer hw houter =>
    rw [layout_of_gt hw, hleave]
    rfl

end Deeper

end Token

end TableAudit
