import TableAudit.Block.Definition
import TableAudit.Proofs.Token.Copies

namespace TableAudit.Block

open Text (lines unlines columns closed indented wholeRows)
open Text.Margin (isIndent clearBlank indentOf margin remove clearBlank_eq_nil_iff clearBlank_eq_self)
open Token (isSpace closeLastLine Lays IsRow IsQuiet BeginsBlock)

/-- A line with text that is no comment. -/
def isCode (line : List Char) : Bool :=
  match line.dropWhile isIndent with
  | [] => false
  | c :: _ => c != '#'

/-- A line of a block: it begins with the indentation of the block; tabs after that are no wider than
    in the block by itself; and its text begins with nothing that would move it to the left. -/
def LineOf (indentation : List Char) (wide : Nat) (line : List Char) : Prop :=
  indentation <+: line ∧ ('\t' ∈ (indentOf line).drop indentation.length → 8 ∣ wide) ∧
    (line.dropWhile isIndent).head? ≠ some '\x0c' ∧ (line.dropWhile isIndent).head? ≠ some '\\'

/-- The lines of the definition of a function that are below its header. -/
def bodyLines (source : List Char) (count : Nat) : List (List Char) :=
  (lines source).drop count

/-- What is left of the indentation of a block where the margin of the whole text is removed. -/
def blockBlanks (source first : List Char) : List Char :=
  (indentOf first).drop (margin ((lines source).map clearBlank)).length

/-- The lines below a header are those of a block, whose first line that is code is given. -/
structure IsBlock (source : List Char) (count : Nat) (first : List Char) : Prop where
  found : (bodyLines source count).find? isCode = some first
  aligned : ∀ line ∈ bodyLines source count, clearBlank line ≠ [] →
    LineOf (indentOf first) (columns (0, 0) (blockBlanks source first)).1 line

/-- A line of a block, and what is left of it where the indentation of the block is removed. -/
inductive Laid (indentation : List Char) (wide : Nat) : List Char → List Char → Prop
  | blank {line : List Char} (h : clearBlank line = []) : Laid indentation wide line []
  | text {blanks text : List Char} {c : Char} (hblanks : ∀ b ∈ blanks, isIndent b = true)
      (htabs : '\t' ∈ blanks → 8 ∣ wide) (hspace : isSpace c = false) (hescape : c ≠ '\\') :
      Laid indentation wide (indentation ++ (blanks ++ c :: text)) (blanks ++ c :: text)

theorem isIndent_of_mem_indentOf {line : List Char} : ∀ b ∈ indentOf line, isIndent b = true :=
  fun _ hb => List.mem_takeWhile_imp hb

theorem clearBlank_ne_nil {line : List Char} (h : isCode line = true) : clearBlank line ≠ [] := by
  intro hclear
  rw [isCode, List.dropWhile_eq_nil_iff.mpr ((clearBlank_eq_nil_iff line).mp hclear)] at h
  cases h

theorem clearBlank_append {indentation blanks text : List Char} {c : Char} (hc : isIndent c = false) :
    clearBlank (indentation ++ (blanks ++ c :: text)) = indentation ++ (blanks ++ c :: text) := by
  rw [clearBlank, if_neg]
  intro hall
  have hmem : c ∈ indentation ++ (blanks ++ c :: text) := by simp
  exact absurd (hc.symm.trans (List.all_eq_true.mp hall c hmem)) Bool.false_ne_true

theorem isIndent_eq_false {c : Char} (h : isSpace c = false) : isIndent c = false :=
  (Bool.or_eq_false_iff.mp h).1

section

variable {indentation line row : List Char} {wide : Nat}

theorem laid_of_line (hindentation : ∀ b ∈ indentation, isIndent b = true)
    (hline : clearBlank line ≠ [] → LineOf indentation wide line) :
    Laid indentation wide line ((clearBlank line).drop indentation.length) := by
  by_cases hblank : clearBlank line = []
  · rw [hblank, List.drop_nil]
    exact .blank hblank
  obtain ⟨⟨rest, rfl⟩, htabs, hfeed, hescape⟩ := hline hblank
  have hdrop : (indentation ++ rest).dropWhile isIndent = rest.dropWhile isIndent :=
    List.dropWhile_append_of_pos hindentation
  have hindent : (indentOf (indentation ++ rest)).drop indentation.length = rest.takeWhile isIndent := by
    rw [indentOf, List.takeWhile_append_of_pos hindentation, List.drop_left]
  rw [hdrop] at hfeed hescape
  rw [hindent] at htabs
  have hsplit : rest.takeWhile isIndent ++ rest.dropWhile isIndent = rest :=
    List.takeWhile_append_dropWhile
  have hhead := List.head?_dropWhile_not isIndent rest
  cases htext : rest.dropWhile isIndent with
  | nil =>
    rw [htext, List.append_nil] at hsplit
    refine absurd ?_ hblank
    rw [clearBlank, if_pos]
    rw [List.all_append, Bool.and_eq_true, List.all_eq_true, ← hsplit]
    exact ⟨hindentation, List.all_takeWhile⟩
  | cons c text =>
    rw [htext] at hsplit hhead hfeed hescape
    have hspace : isSpace c = false := by
      rw [isSpace, show (c == ' ' || c == '\t') = false from hhead, Bool.false_or,
        beq_eq_false_iff_ne]
      exact fun hc => hfeed (congrArg some hc)
    rw [← hsplit, clearBlank_append hhead, List.drop_left]
    exact .text (fun b hb => List.mem_takeWhile_imp hb) htabs hspace fun hc => hescape (congrArg some hc)

theorem takeWhile_text {blanks text : List Char} {c : Char} (hblanks : ∀ b ∈ blanks, isIndent b = true)
    (hspace : isSpace c = false) : (blanks ++ c :: text).takeWhile isSpace = blanks := by
  rw [List.takeWhile_append_of_pos fun b hb => Token.isSpace_of_isIndent (hblanks b hb),
    List.takeWhile_cons, hspace, if_neg Bool.false_ne_true, List.append_nil]

theorem dropWhile_text {blanks text : List Char} {c : Char} (hblanks : ∀ b ∈ blanks, isIndent b = true)
    (hspace : isSpace c = false) : (blanks ++ c :: text).dropWhile isSpace = c :: text := by
  rw [List.dropWhile_append_of_pos fun b hb => Token.isSpace_of_isIndent (hblanks b hb),
    List.dropWhile_cons, hspace, if_neg Bool.false_ne_true]

theorem Laid.lays (h : Laid indentation wide line row) (hfeed : '\n' ∉ line) : Lays wide row := by
  cases h with
  | blank =>
    exact ⟨⟨List.not_mem_nil, List.forall_mem_nil _, fun _ => rfl, by simp⟩,
      fun h => absurd h List.not_mem_nil⟩
  | @text blanks text c hblanks htabs hspace hescape =>
    refine ⟨⟨fun h => hfeed (List.mem_append_right _ h), ?_, ?_, ?_⟩, ?_⟩
    · rw [takeWhile_text hblanks hspace]
      exact hblanks
    · rw [dropWhile_text hblanks hspace]
      exact fun h => absurd h (List.cons_ne_nil _ _)
    · rw [dropWhile_text hblanks hspace]
      exact fun h => hescape (Option.some.inj h)
    · rw [takeWhile_text hblanks hspace]
      exact htabs

theorem Laid.isQuiet (h : Laid indentation wide line row)
    (hindentation : ∀ b ∈ indentation, isIndent b = true) (hcode : isCode line = false) :
    IsQuiet row := by
  cases h with
  | blank => rfl
  | @text blanks text c hblanks htabs hspace hescape =>
    have hline : (indentation ++ (blanks ++ c :: text)).dropWhile isIndent = c :: text := by
      rw [List.dropWhile_append_of_pos hindentation, List.dropWhile_append_of_pos hblanks,
        List.dropWhile_cons, isIndent_eq_false hspace, if_neg Bool.false_ne_true]
    rw [isCode, hline] at hcode
    have hcomment : c = '#' := by simpa using hcode
    rw [IsQuiet, dropWhile_text hblanks hspace, hcomment]
    rfl

theorem Laid.beginsBlock (h : Laid (indentOf line) wide line row) (hfeed : '\n' ∉ line)
    (hcode : isCode line = true) : BeginsBlock row := by
  have hindent := @isIndent_of_mem_indentOf line
  generalize hindentation : indentOf line = indentation at h hindent
  cases h with
  | blank hblank => exact absurd hblank (clearBlank_ne_nil hcode)
  | @text blanks text c hblanks htabs hspace hescape =>
    have hc := isIndent_eq_false hspace
    have hnone : blanks = [] := by
      rw [indentOf, List.takeWhile_append_of_pos hindent, List.takeWhile_append_of_pos hblanks,
        List.takeWhile_cons, hc, if_neg Bool.false_ne_true, List.append_nil] at hindentation
      exact List.append_right_eq_self.mp hindentation
    subst hnone
    rw [List.nil_append] at hfeed hcode ⊢
    have hline : (indentation ++ c :: text).dropWhile isIndent = c :: text := by
      rw [List.dropWhile_append_of_pos hindent, List.dropWhile_cons, hc, if_neg Bool.false_ne_true]
    have hcomment : c ≠ '#' := by
      rw [isCode, hline] at hcode
      simpa using hcode
    refine ⟨fun hquiet => ?_, takeWhile_text (List.forall_mem_nil _) hspace⟩
    rw [IsQuiet, List.dropWhile_cons, hspace, if_neg Bool.false_ne_true, Text.continued_cons,
      Token.isBlankLine, Bool.or_eq_true, beq_iff_eq, beq_iff_eq] at hquiet
    rcases hquiet with h | rfl
    · exact hcomment h
    · exact hfeed (List.mem_append_right _ List.mem_cons_self)

/-- A line of a block where some of its indentation is removed. -/
theorem Laid.drop_eq {outer inner : List Char} (h : Laid (outer ++ inner) wide line row) :
    (clearBlank line).drop outer.length = indented inner row := by
  cases h with
  | blank h =>
    rw [h, List.drop_nil]
    rfl
  | @text blanks text c hblanks htabs hspace hescape =>
    rw [clearBlank_append (isIndent_eq_false hspace), List.append_assoc, List.drop_left]
    cases blanks <;> rfl

end

namespace IsBlock

variable {source first : List Char} {count : Nat}

theorem first_mem (h : IsBlock source count first) : first ∈ bodyLines source count :=
  List.mem_of_find?_eq_some h.found

theorem isCode_first (h : IsBlock source count first) : isCode first = true :=
  List.find?_some h.found

theorem laid (h : IsBlock source count first) : ∀ line ∈ bodyLines source count,
    Laid (indentOf first) (columns (0, 0) (blockBlanks source first)).1 line
      ((clearBlank line).drop (indentOf first).length) :=
  fun line hline => laid_of_line isIndent_of_mem_indentOf (h.aligned line hline)

theorem margin_bodyLines (h : IsBlock source count first) :
    margin ((bodyLines source count).map clearBlank) = indentOf first := by
  have hfirst := clearBlank_eq_self (clearBlank_ne_nil h.isCode_first)
  have hmem : first ∈ (bodyLines source count).map clearBlank :=
    hfirst ▸ List.mem_map_of_mem h.first_mem
  refine Text.Margin.margin_eq_indentOf hmem (hfirst ▸ clearBlank_ne_nil h.isCode_first) ?_
  intro other hother hne
  obtain ⟨line, hline, rfl⟩ := List.mem_map.mp hother
  obtain ⟨rest, hrest⟩ := (h.aligned line hline hne).1
  have hindent : indentOf (indentOf first ++ rest) = indentOf first ++ indentOf rest :=
    List.takeWhile_append_of_pos isIndent_of_mem_indentOf
  rw [clearBlank_eq_self hne, ← hrest, hindent]
  exact List.prefix_append _ _

/-- The margin of the definition begins the indentation of its body. -/
theorem margin_append_blanks (h : IsBlock source count first) :
    margin ((lines source).map clearBlank) ++ blockBlanks source first = indentOf first := by
  have hfirst := clearBlank_eq_self (clearBlank_ne_nil h.isCode_first)
  have hmem : first ∈ (lines source).map clearBlank :=
    hfirst ▸ List.mem_map_of_mem ((List.drop_sublist _ _).mem h.first_mem)
  exact List.prefix_append_drop
    (Text.Margin.margin_begins hmem (hfirst ▸ clearBlank_ne_nil h.isCode_first)) |>.symm

/-- The lines of the body by itself, without its indentation. -/
def rows (source first : List Char) (count : Nat) : List (List Char) :=
  (bodyLines source count).map fun line => (clearBlank line).drop (indentOf first).length

theorem remove_body (h : IsBlock source count first) :
    remove (unlines (bodyLines source count)) = unlines (rows source first count) := by
  have hne : bodyLines source count ≠ [] := List.ne_nil_of_mem h.first_mem
  have hlines : lines (unlines (bodyLines source count)) = bodyLines source count :=
    Text.lines_unlines hne fun row hrow =>
      Text.feed_not_mem_lines source row ((List.drop_sublist _ _).mem hrow)
  rw [remove, hlines]
  simp only [h.margin_bodyLines, List.map_map]
  rfl

/-- The lines of the header, without the margin of the definition. -/
def headerRows (source : List Char) (count : Nat) : List (List Char) :=
  ((lines source).take count).map fun line =>
    (clearBlank line).drop (margin ((lines source).map clearBlank)).length

theorem remove_definition (h : IsBlock source count first) : remove source = unlines
    (headerRows source count ++ (rows source first count).map (indented (blockBlanks source first))) := by
  have hsplit : lines source = (lines source).take count ++ bodyLines source count :=
    (List.take_append_drop count _).symm
  have hbody : (bodyLines source count).map (fun line =>
        (clearBlank line).drop (margin ((lines source).map clearBlank)).length) =
      (rows source first count).map (indented (blockBlanks source first)) := by
    rw [rows, List.map_map]
    refine List.map_congr_left fun line hline => ?_
    have hlaid := h.laid line hline
    change _ = indented _ ((clearBlank line).drop (indentOf first).length)
    generalize (clearBlank line).drop (indentOf first).length = row at hlaid
    rw [← h.margin_append_blanks] at hlaid
    exact hlaid.drop_eq
  rw [remove, ← hbody, headerRows, ← List.map_append, ← hsplit]
  exact congrArg unlines (List.map_map ..)

theorem length_headerRows (h : IsBlock source count first) :
    (headerRows source count).length = count := by
  have hlength := List.length_pos_of_mem h.first_mem
  rw [bodyLines, List.length_drop] at hlength
  rw [headerRows, List.length_map, List.length_take]
  omega

theorem feed_not_mem_headerRows (source : List Char) (count : Nat) :
    ∀ row ∈ headerRows source count, '\n' ∉ row := by
  intro row hrow hfeed
  obtain ⟨line, hline, rfl⟩ := List.mem_map.mp hrow
  have hclear := List.mem_of_mem_drop hfeed
  have hmem : '\n' ∈ line := by
    rwa [clearBlank_eq_self (List.ne_nil_of_mem hclear)] at hclear
  exact Text.feed_not_mem_lines source line (List.mem_of_mem_take hline) hmem

theorem isIndent_of_mem_blockBlanks : ∀ b ∈ blockBlanks source first, isIndent b = true :=
  fun b hb => isIndent_of_mem_indentOf b (List.mem_of_mem_drop hb)

/-- The lines of a text that is closed, in the definition and by themselves. -/
theorem exists_rows (h : IsBlock source count first) : ∃ quiet row others,
    closeLastLine (remove (unlines (bodyLines source count))) = closed (quiet ++ row :: others) ∧
    closeLastLine (remove source) = closed (headerRows source count ++
      (quiet ++ row :: others).map (indented (blockBlanks source first))) ∧
    (∀ one ∈ quiet ++ row :: others, Lays (columns (0, 0) (blockBlanks source first)).1 one) ∧
    (∀ one ∈ quiet, IsQuiet one) ∧ BeginsBlock row := by
  have hfeed : ∀ line ∈ bodyLines source count, '\n' ∉ line := fun line hline =>
    Text.feed_not_mem_lines source line ((List.drop_sublist _ _).mem hline)
  have hlays : ∀ one ∈ rows source first count, Lays (columns (0, 0) (blockBlanks source first)).1 one := by
    intro one hone
    obtain ⟨line, hline, rfl⟩ := List.mem_map.mp hone
    exact (h.laid line hline).lays (hfeed line hline)
  obtain ⟨before, after, hsplit, hbefore⟩ :
      ∃ before after, bodyLines source count = before ++ first :: after ∧
        ∀ line ∈ before, isCode line = false := by
    obtain ⟨-, before, after, hsplit, hbefore⟩ := List.find?_eq_some_iff_append.mp h.found
    exact ⟨before, after, hsplit, fun line hline => by simpa using hbefore line hline⟩
  have hmem {line : List Char} (hline : line ∈ before ++ first :: after) : line ∈ bodyLines source count := by
    rwa [hsplit]
  let strip := fun line => (clearBlank line).drop (indentOf first).length
  have hrows : rows source first count = before.map strip ++ strip first :: after.map strip := by
    rw [rows, hsplit, List.map_append, List.map_cons]
  have hbegins : BeginsBlock (strip first) :=
    (h.laid first h.first_mem).beginsBlock (hfeed first h.first_mem) h.isCode_first
  have hne : strip first ≠ [] := by
    intro hnone
    refine hbegins.tokens ?_
    rw [hnone]
    rfl
  have hwhole : wholeRows (rows source first count) =
      before.map strip ++ strip first :: wholeRows (after.map strip) := by
    rw [hrows, Text.wholeRows_append _ (List.cons_ne_nil _ _), Text.wholeRows_cons hne]
  refine ⟨before.map strip, strip first, wholeRows (after.map strip), ?_, ?_, ?_, ?_, hbegins⟩
  · rw [h.remove_body, ← hwhole]
    exact Token.closeLastLine_unlines fun one hone => (hlays one hone).inLine
  · have hmapped : (rows source first count).map (indented (blockBlanks source first)) ≠ [] := by
      rw [hrows, ne_eq, List.map_eq_nil_iff]
      exact List.append_ne_nil_of_right_ne_nil _ (List.cons_ne_nil _ _)
    rw [h.remove_definition, Token.closeLastLine_unlines, Text.wholeRows_append _ hmapped,
      Text.wholeRows_map (Text.indented_eq_nil_iff _), hwhole]
    rw [List.forall_mem_append]
    refine ⟨feed_not_mem_headerRows source count, fun one hone => ?_⟩
    obtain ⟨row, hrow, rfl⟩ := List.mem_map.mp hone
    exact ((hlays row hrow).toIsRow.indented isIndent_of_mem_blockBlanks).inLine
  · intro one hone
    rw [← hwhole] at hone
    exact hlays one (Text.mem_of_mem_wholeRows hone)
  · intro one hone
    obtain ⟨line, hline, rfl⟩ := List.mem_map.mp hone
    exact (h.laid line (hmem (List.mem_append_left _ hline))).isQuiet isIndent_of_mem_indentOf
      (hbefore line hline)

end IsBlock

end TableAudit.Block
