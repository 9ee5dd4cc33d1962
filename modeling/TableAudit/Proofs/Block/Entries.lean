import TableAudit.Block.Records
import TableAudit.Proofs.Block.Reading
import TableAudit.Proofs.Grammar.Lines
import TableAudit.Proofs.Text.Rows

namespace TableAudit.Block

open TableAudit.Token TableAudit.Grammar TableAudit.Text.Quoted

/-- A name, a predicate with a path that leads to it, and columns. -/
structure Entry where
  name : String
  root : String
  attrs : List String
  predicate : Value
  columns : List String

namespace Entry

variable {named : String → Option Char}

/-- The line of text that declares an entry. -/
def line (e : Entry) : String :=
  "check(" ++ quote e.name ++ ", " ++ joinWith "." (e.root :: e.attrs) ++ "(" ++
    joinWith ", " (e.columns.map fun column => "col(" ++ quote column ++ ")") ++ "))"

/-- The text that declares entries, with a line feed between their lines or after each. -/
def block (closed : Bool) (entries : List Entry) : String :=
  if closed then String.join (entries.map fun e => e.line ++ "\n")
  else joinWith "\n" (entries.map line)

/-- The record that declares an entry. -/
def record (e : Entry) : Value :=
  .tuple [.text e.name, e.predicate, .list (e.columns.map .text)]

/-- An entry that can be declared in either way in a scope: its path is made of identifiers, does
    not end in the word for columns, and leads to the predicate, which is no anonymous function. -/
structure Fits (scope : Scope) (e : Entry) : Prop where
  identifiers : ∀ id ∈ e.root :: e.attrs, IsIdentifier id
  notColumn : (e.root :: e.attrs).getLast? ≠ some Expr.columnWord
  resolves : scope.resolve e.root e.attrs = .ok e.predicate
  named : ∀ target ∈ e.predicate.callable?, scope.language.isAnonymous target = .ok false

/-- The text of a name or a column as an argument. -/
def literal (text : String) : Expr :=
  .literal (.text text false)

def columnExpr (column : String) : Expr :=
  .call (.name Expr.columnWord) [literal column] [] []

/-- The path to the predicate of an entry. -/
def pathExpr (e : Entry) : Expr :=
  e.attrs.foldl Expr.member (.name e.root)

/-- The declaration of an entry. -/
def expr (e : Entry) : Expr :=
  .call (.name Expr.checkWord)
    [literal e.name, .call e.pathExpr (e.columns.map columnExpr) [] []] [] []

def literalTokens (text : String) : List Token :=
  [.text (encode text.toList)]

def columnTokens (column : String) : List Token :=
  .name "col" :: argumentTokens [literalTokens column]

def callTokens (e : Entry) : List Token :=
  .name e.root :: (memberTokens e.attrs ++ argumentTokens (e.columns.map columnTokens))

def tokens (e : Entry) : List Token :=
  .name "check" :: argumentTokens [literalTokens e.name, e.callTokens]

def columnChars (column : String) : List Char :=
  "col".toList ++ argumentChars [encode column.toList]

def callChars (e : Entry) : List Char :=
  e.root.toList ++ (memberChars e.attrs ++ argumentChars (e.columns.map columnChars))

theorem toList_joinWith (separator : String) (parts : List String) :
    (joinWith separator parts).toList = separator.toList.intercalate (parts.map String.toList) := by
  induction parts with
  | nil => rfl
  | cons part parts ih =>
    cases parts with
    | nil => rw [joinWith, List.map_singleton, List.intercalate_singleton]
    | cons next parts =>
      rw [joinWith, String.toList_append, String.toList_append, ih]
      · exact List.intercalate_cons_cons.symm
      · exact List.cons_ne_nil next parts

theorem toList_joinWith_point (root : String) (attrs : List String) :
    (joinWith "." (root :: attrs)).toList = root.toList ++ memberChars attrs := by
  rw [toList_joinWith]
  induction attrs generalizing root with
  | nil => simp [memberChars]
  | cons attr attrs ih =>
    rw [List.map_cons, List.map_cons, List.intercalate_cons_cons, ← List.map_cons, ih]
    simp [memberChars]

/-- The characters of a line. -/
theorem toList_line (e : Entry) :
    e.line.toList = "check".toList ++ argumentChars [encode e.name.toList, e.callChars] := by
  have hcolumns : (e.columns.map fun column => "col(" ++ quote column ++ ")").map String.toList =
      e.columns.map columnChars := by
    rw [List.map_map]
    refine List.map_congr_left fun column _ => ?_
    simp [columnChars, quote, argumentChars]
  simp only [line, String.toList_append, toList_joinWith_point]
  rw [toList_joinWith, hcolumns]
  simp [callChars, argumentChars, quote, List.intercalate_cons_cons]

theorem isIdentifier_col : IsIdentifier "col" :=
  .of_checks rfl rfl rfl

theorem isIdentifier_check : IsIdentifier "check" :=
  .of_checks rfl rfl rfl

theorem spells_column (column : String) :
    Spells 1 (columnChars column) (columnTokens column) := by
  have hitems : ∀ item ∈ [(encode column.toList, literalTokens column)],
      Spells 0 item.1 item.2 := by
    rintro item hitem
    rw [List.mem_singleton.mp hitem]
    exact Spells.text 0 column.toList
  have hmembers : ∀ attr ∈ ([] : List String), IsIdentifier attr := nofun
  exact Spells.call isIdentifier_col hmembers hitems

theorem spells_call {e : Entry} (hids : ∀ id ∈ e.root :: e.attrs, IsIdentifier id) :
    Spells 2 e.callChars e.callTokens := by
  rw [List.forall_mem_cons] at hids
  have hitems : ∀ item ∈ e.columns.map fun column => (columnChars column, columnTokens column),
      Spells 1 item.1 item.2 := by
    intro item hitem
    obtain ⟨column, -, rfl⟩ := List.mem_map.mp hitem
    exact spells_column column
  have hcall := Spells.call hids.1 hids.2 hitems
  rw [List.map_map, List.map_map] at hcall
  exact hcall

/-- The line of an entry gives its tokens. -/
theorem gives_line {e : Entry} (hids : ∀ id ∈ e.root :: e.attrs, IsIdentifier id)
    (rest : List Char) : Gives e.line.toList ('\n' :: rest) [] [] e.tokens := by
  have hitems : ∀ item ∈ [(encode e.name.toList, literalTokens e.name), (e.callChars, e.callTokens)],
      Spells 2 item.1 item.2 := by
    rintro item hitem
    rcases List.mem_cons.mp hitem with rfl | hitem
    · exact Spells.text 2 e.name.toList
    · rw [List.mem_singleton.mp hitem]
      exact spells_call hids
  rw [toList_line]
  have hmembers : ∀ attr ∈ ([] : List String), IsIdentifier attr := nofun
  have hblanks : ∀ b ∈ ([] : List Char), isSpace b = true := nofun
  have hend : '\n'.isDigit = false ∧ '\n' ≠ '.' := by decide
  have hdepth : ([] : List Char).length + (2 + 1) < bracketLimit := by decide
  exact gives_call isIdentifier_check hmembers hitems hblanks hend.1 hend.2 hdepth

theorem operand_literal (depth : Nat) (text : String) :
    Operand named depth (literalTokens text) (literal text) :=
  Operand.text text

theorem operand_column (depth : Nat) (column : String) :
    Operand named (depth + 2) (columnTokens column) (columnExpr column) := by
  have hitems : ∀ item ∈ [(literalTokens column, literal column)], Operand named depth item.1 item.2 := by
    intro item hitem
    rw [List.mem_singleton.mp hitem]
    exact operand_literal depth column
  exact Operand.call "col" [] hitems

theorem operand_call (depth : Nat) (e : Entry) :
    Operand named (depth + 4) e.callTokens (.call e.pathExpr (e.columns.map columnExpr) [] []) := by
  have hitems : ∀ item ∈ e.columns.map fun column => (columnTokens column, columnExpr column),
      Operand named (depth + 2) item.1 item.2 := by
    intro item hitem
    obtain ⟨column, -, rfl⟩ := List.mem_map.mp hitem
    exact operand_column depth column
  have hcall := Operand.call e.root e.attrs hitems
  rw [List.map_map, List.map_map] at hcall
  exact hcall

/-- The tokens of an entry are a line that is its declaration. -/
theorem valueLine (depth : Nat) (e : Entry) : ValueLine named (depth + 6) e.tokens e.expr := by
  have hitems : ∀ item ∈ [(literalTokens e.name, literal e.name),
      (e.callTokens, .call e.pathExpr (e.columns.map columnExpr) [] [])],
      Operand named (depth + 4) item.1 item.2 := by
    intro item hitem
    rcases List.mem_cons.mp hitem with rfl | hitem
    · exact operand_literal _ e.name
    · rw [List.mem_singleton.mp hitem]
      exact operand_call depth e
  exact ⟨Operand.call "check" [] hitems, by simp [tokens]⟩

theorem isPrintable_of_isIdentifier {id : String} (h : IsIdentifier id) :
    ∀ c ∈ id.toList, Text.isPrintable c = true := by
  have hname := h.isName
  have hascii := h.ascii
  have hrest : ∀ code < 128, Text.isNameRest (Char.ofNat code) = true →
      Text.isPrintable (Char.ofNat code) = true := by decide
  intro c hc
  have hc128 := hascii c hc
  have hmember : Text.isNameRest c = true := by
    cases hid : id.toList with
    | nil => rw [hid] at hname; cases hname
    | cons first more =>
      rw [hid] at hname hc hascii
      rw [Text.isName, Bool.and_eq_true] at hname
      rcases List.mem_cons.mp hc with rfl | hc
      · exact (of_isNameStart (hascii c List.mem_cons_self) hname.1).1
      · exact List.all_eq_true.mp hname.2 c hc
  rw [← Char.ofNat_toNat c] at hmember ⊢
  exact hrest c.toNat hc128 hmember

theorem mem_of_mem_intercalate {c : Char} {separator : List Char} {parts : List (List Char)}
    (h : c ∈ separator.intercalate parts) : c ∈ separator ∨ ∃ part ∈ parts, c ∈ part := by
  induction parts with
  | nil => cases h
  | cons part parts ih =>
    cases parts with
    | nil =>
      rw [List.intercalate_singleton] at h
      exact .inr ⟨part, List.mem_cons_self, h⟩
    | cons next parts =>
      rw [List.intercalate_cons_cons, List.mem_append, List.mem_append] at h
      rcases h with (h | h) | h
      · exact .inr ⟨part, List.mem_cons_self, h⟩
      · exact .inl h
      · refine (ih h).imp id ?_
        rintro ⟨found, hfound, hc⟩
        exact ⟨found, List.mem_cons_of_mem part hfound, hc⟩

theorem isPrintable_of_mem_argumentChars {arguments : List (List Char)}
    (h : ∀ argument ∈ arguments, ∀ c ∈ argument, Text.isPrintable c = true) :
    ∀ c ∈ argumentChars arguments, Text.isPrintable c = true := by
  have hmarks : ∀ c ∈ ['(', ')', ',', ' '], Text.isPrintable c = true := List.all_eq_true.mp rfl
  intro c hc
  simp only [argumentChars, List.mem_cons, List.mem_append, List.not_mem_nil, or_false] at hc
  rcases hc with rfl | hc | rfl
  · exact hmarks _ List.mem_cons_self
  · rcases mem_of_mem_intercalate hc with hc | ⟨argument, hargument, hc⟩
    · exact hmarks c (List.mem_cons_of_mem _ (List.mem_cons_of_mem _ hc))
    · exact h argument hargument c hc
  · exact hmarks _ (by decide)

/-- The characters of a line have a visible form. -/
theorem isPrintable_of_mem_line {e : Entry} (hids : ∀ id ∈ e.root :: e.attrs, IsIdentifier id) :
    ∀ c ∈ e.line.toList, Text.isPrintable c = true := by
  have hcolumn (column : String) : ∀ c ∈ columnChars column, Text.isPrintable c = true := by
    have harguments : ∀ argument ∈ [encode column.toList], ∀ c ∈ argument,
        Text.isPrintable c = true := by
      rintro argument hargument
      rw [List.mem_singleton.mp hargument]
      exact fun c => isPrintable_of_mem_encode
    intro c hc
    rcases List.mem_append.mp hc with hc | hc
    · exact isPrintable_of_isIdentifier isIdentifier_col c hc
    · exact isPrintable_of_mem_argumentChars harguments c hc
  have hcall : ∀ c ∈ e.callChars, Text.isPrintable c = true := by
    rw [List.forall_mem_cons] at hids
    have harguments : ∀ argument ∈ e.columns.map columnChars, ∀ c ∈ argument,
        Text.isPrintable c = true := by
      intro argument hargument
      obtain ⟨column, -, rfl⟩ := List.mem_map.mp hargument
      exact hcolumn column
    intro c hc
    rcases List.mem_append.mp hc with hc | hc
    · exact isPrintable_of_isIdentifier hids.1 c hc
    rcases List.mem_append.mp hc with hc | hc
    · obtain ⟨attr, hattr, hc⟩ := List.mem_flatMap.mp hc
      rcases List.mem_cons.mp hc with rfl | hc
      · decide
      · exact isPrintable_of_isIdentifier (hids.2 attr hattr) c hc
    · exact isPrintable_of_mem_argumentChars harguments c hc
  have harguments : ∀ argument ∈ [encode e.name.toList, e.callChars], ∀ c ∈ argument,
      Text.isPrintable c = true := by
    intro argument hargument
    rcases List.mem_cons.mp hargument with rfl | hargument
    · exact fun c => isPrintable_of_mem_encode
    · rw [List.mem_singleton.mp hargument]
      exact hcall
  intro c hc
  rw [toList_line] at hc
  rcases List.mem_append.mp hc with hc | hc
  · exact isPrintable_of_isIdentifier isIdentifier_check c hc
  · exact isPrintable_of_mem_argumentChars harguments c hc

/-- A line that begins with no blank and in which every character has a visible form. -/
structure IsPlain (row : List Char) : Prop where
  begins : ∃ c, row.head? = some c ∧ isLayoutMark c = false
  visible : ∀ c ∈ row, Text.isPrintable c = true

theorem isPlain_line {e : Entry} (hids : ∀ id ∈ e.root :: e.attrs, IsIdentifier id) :
    IsPlain e.line.toList :=
  ⟨⟨'c', by rw [toList_line]; rfl, by decide⟩, isPrintable_of_mem_line hids⟩

/-- The rows of a text that is made of lines with line feeds between them or after each. -/
def rowText (closed : Bool) (rows : List (List Char)) : List Char :=
  if closed then rows.flatMap fun row => row ++ ['\n'] else ['\n'].intercalate rows

theorem toList_block (closed : Bool) (entries : List Entry) :
    (block closed entries).toList = rowText closed (entries.map fun e => e.line.toList) := by
  cases closed with
  | false =>
    rw [block, if_neg Bool.false_ne_true, toList_joinWith, List.map_map]
    rfl
  | true =>
    rw [block, if_pos rfl, String.toList_join, rowText, if_pos rfl, List.flatMap_map,
      List.flatMap_map]
    simp only [String.toList_append]
    rfl

theorem mem_rowText {closed : Bool} {rows : List (List Char)} (hrows : ∀ row ∈ rows, IsPlain row)
    {c : Char} (hc : c ∈ rowText closed rows) : c = '\n' ∨ Text.isPrintable c = true := by
  have hrow : (∃ row ∈ rows, c ∈ row) → c = '\n' ∨ Text.isPrintable c = true := by
    rintro ⟨row, hmem, hc⟩
    exact .inr ((hrows row hmem).visible c hc)
  cases closed with
  | false =>
    rcases mem_of_mem_intercalate hc with hc | hc
    · exact .inl (List.mem_singleton.mp hc)
    · exact hrow hc
  | true =>
    obtain ⟨row, hmem, hc⟩ := List.mem_flatMap.mp hc
    rcases List.mem_append.mp hc with hc | hc
    · exact hrow ⟨row, hmem, hc⟩
    · exact .inl (List.mem_singleton.mp hc)

/-- Plain lines have no margin. -/
theorem remove_rowText (closed : Bool) {rows : List (List Char)}
    (hrows : ∀ row ∈ rows, IsPlain row) :
    Text.Margin.remove (rowText closed rows) = rowText closed rows := by
  have hfeed : ∀ row ∈ rows, '\n' ∉ row := by
    intro row hrow hmem
    exact absurd ((hrows row hrow).visible _ hmem) (by decide)
  have hflush : ∀ row ∈ rows ++ [[]], Text.Margin.IsFlush row := by
    intro row hrow c hc
    rcases List.mem_append.mp hrow with hrow | hrow
    · obtain ⟨first, hfirst, hmark⟩ := (hrows row hrow).begins
      rw [hfirst] at hc
      cases hc
      simp only [isLayoutMark, isSpace, Bool.or_eq_false_iff] at hmark
      exact Bool.or_eq_false_iff.mpr hmark.1.1.1.1
    · rw [List.mem_singleton.mp hrow] at hc
      cases hc
  refine Text.Margin.remove_eq_self fun row hrow => hflush row ?_
  cases closed with
  | true =>
    rw [← Text.lines_flatMap hfeed]
    exact hrow
  | false =>
    cases rows with
    | nil => exact hrow
    | cons first rows =>
      rw [← Text.lines_intercalate (List.cons_ne_nil first rows) hfeed]
      exact List.mem_append_left _ hrow

/-- Closing the last line closes every line. -/
theorem close_rowText (closed : Bool) {rows : List (List Char)}
    (hrows : ∀ row ∈ rows, IsPlain row) :
    closeLastLine (normalizeLineEnds (rowText closed rows)) =
      rows.flatMap fun row => row ++ ['\n'] := by
  have hreturn : '\r' ∉ rowText closed rows := by
    intro hmem
    rcases mem_rowText hrows hmem with h | h <;> exact absurd h (by decide)
  rw [normalizeLineEnds_eq_self hreturn]
  rcases List.eq_nil_or_concat rows with rfl | ⟨front, last, rfl⟩
  · cases closed <;> rfl
  have hne : front ++ [last] ≠ [] := List.append_ne_nil_of_right_ne_nil _ (List.cons_ne_nil _ _)
  rw [List.concat_eq_append] at hrows ⊢
  rw [← Text.intercalate_append_feed hne]
  cases closed with
  | true =>
    rw [rowText, if_pos rfl, ← Text.intercalate_append_feed hne, closeLastLine_append_feed]
  | false =>
    obtain ⟨⟨c, hc, -⟩, hvisible⟩ := hrows last (List.mem_append_right _ List.mem_cons_self)
    have hlast : last ≠ [] := by
      rintro rfl
      cases hc
    have hend := hvisible _ (List.getLast_mem hlast)
    have hends := Text.getLast?_intercalate ['\n'] front hlast
    rw [List.getLast?_eq_some_getLast hlast] at hends
    rw [rowText, if_neg Bool.false_ne_true, Token.closeLastLine_of_ends hends ?_]
    intro hfeed
    rw [hfeed] at hend
    exact absurd hend (by decide)

/-- The tokens of the lines of entries. -/
theorem tokens_of_entries {entries : List Entry}
    (hids : ∀ e ∈ entries, ∀ id ∈ e.root :: e.attrs, IsIdentifier id) :
    (scan ((entries.map fun e => e.line.toList).flatMap fun row => row ++ ['\n'])).tokens =
      lineTokens (entries.map fun e => (e.tokens, e.expr)) ++ [.stop] := by
  have hlines : ∀ e ∈ entries, ∃ c, e.line.toList.head? = some c ∧ isLayoutMark c = false ∧
      ∀ rest, Gives e.line.toList ('\n' :: rest) [] [] e.tokens := by
    intro e he
    obtain ⟨c, hc, hmark⟩ := (isPlain_line (hids e he)).begins
    exact ⟨c, hc, hmark, gives_line (hids e he)⟩
  have htokens := @tokens_of_lines Entry entries (fun e => e.line.toList) Entry.tokens hlines
  rw [List.flatMap_map, lineTokens, List.flatMap_map]
  exact htokens

/-- The text of entries is read as their declarations. -/
theorem exists_read_block {entries : List Entry}
    (hids : ∀ e ∈ entries, ∀ id ∈ e.root :: e.attrs, IsIdentifier id) (closed : Bool) :
    ∃ body, read named (Text.Margin.remove (block closed entries).toList) = .ok body ∧
      body.map Statement.form = entries.map fun e => .expression e.expr := by
  let rows := entries.map fun e => e.line.toList
  have hrows : ∀ row ∈ rows, IsPlain row := by
    intro row hrow
    obtain ⟨e, he, rfl⟩ := List.mem_map.mp hrow
    exact isPlain_line (hids e he)
  obtain ⟨depth, hdepth⟩ : ∃ depth, depth + 6 + 2 = depthLimit :=
    ⟨depthLimit - 8, Nat.sub_add_cancel (by decide : 8 ≤ depthLimit)⟩
  have hlines : ∀ line ∈ entries.map fun e => (e.tokens, e.expr),
      ValueLine named (depth + 6) line.1 line.2 := by
    intro line hline
    obtain ⟨e, he, rfl⟩ := List.mem_map.mp hline
    exact valueLine depth e
  have hscan := tokens_of_entries hids
  rw [← close_rowText closed hrows] at hscan
  obtain ⟨body, found, hread, hforms⟩ := exists_readText hlines hdepth hscan
  refine ⟨body.map (Stmt.resolve found (rowText closed rows)), ?_, ?_⟩
  · have hreadable : unreadable? (rowText closed rows) = none := by
      refine unreadable?_eq_none_iff.mpr fun c hc hbarred => ?_
      have hprintable := (mem_rowText hrows hc).resolve_left hbarred.ne_feed
      rcases hbarred with hsurrogate | rfl
      · rw [isSurrogate_eq_false_of_isPrintable hprintable] at hsurrogate
        cases hsurrogate
      · exact absurd hprintable (by decide)
    rw [toList_block, remove_rowText closed hrows]
    exact read_eq_ok_iff.mpr ⟨hreadable, body, found, hread, rfl⟩
  · rw [List.map_map]
    exact hforms.trans (List.map_map ..)

end Entry

end TableAudit.Block
