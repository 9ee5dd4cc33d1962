import TableAudit.Proofs.Token.Within

namespace TableAudit.Token

/-- The tokens of members, each after a point. -/
def memberTokens (attrs : List String) : List Token :=
  attrs.flatMap fun attr => [.op ".", .name attr]

/-- The tokens of arguments between parentheses. -/
def argumentTokens (arguments : List (List Token)) : List Token :=
  .op "(" :: ([.op ","].intercalate arguments ++ [.op ")"])

/-- The spelling of members, each after a point. -/
def memberChars (attrs : List String) : List Char :=
  attrs.flatMap fun attr => '.' :: attr.toList

/-- The spelling of arguments between parentheses, a blank after each comma. -/
def argumentChars (arguments : List (List Char)) : List Char :=
  '(' :: ([',', ' '].intercalate arguments ++ [')'])

/-- A piece of a text that gives its tokens before a comma or a closing parenthesis, whatever blanks
    are before it, and opens no more brackets at once than its height. -/
structure Spells (height : Nat) (piece : List Char) (tokens : List Token) : Prop where
  starts : ∃ c more, piece = c :: more ∧ c.isDigit = false ∧ c ≠ '.'
  gives : ∀ blanks, (∀ b ∈ blanks, isSpace b = true) → ∀ d, d = ',' ∨ d = ')' → ∀ rest opens,
    opens.length + height < bracketLimit → Gives (blanks ++ piece) (d :: rest) opens opens tokens

namespace Spells

theorem text (height : Nat) (text : List Char) :
    Spells height (Text.Quoted.encode text) [.text (Text.Quoted.encode text)] := by
  refine ⟨⟨_, _, rfl, ?_⟩, fun blanks hblanks d hd rest opens _ => ?_⟩
  · rcases Text.Quoted.chooseQuote_cases text with h | h <;> rw [h] <;> decide
  · have hmark : isMark d = true := by rcases hd with rfl | rfl <;> rfl
    exact gives_text text hblanks hmark

end Spells

theorem exists_of_isIdentifier {id : String} (h : IsIdentifier id) :
    ∃ c more, id.toList = c :: more ∧ c.isDigit = false ∧ c ≠ '.' := by
  have hname := h.isName
  have hascii := h.ascii
  cases hid : id.toList with
  | nil => rw [hid] at hname; cases hname
  | cons c more =>
    rw [hid] at hname hascii
    rw [Text.isName, Bool.and_eq_true] at hname
    obtain ⟨-, -, hdigit⟩ := of_isNameStart (hascii c List.mem_cons_self) hname.1
    refine ⟨c, more, rfl, hdigit, ?_⟩
    rintro rfl
    exact absurd hname.1 (by decide)

theorem gives_members {attrs : List String} (hattrs : ∀ attr ∈ attrs, IsIdentifier attr)
    (rest opens : List Char) :
    Gives (memberChars attrs) ('(' :: rest) opens opens (memberTokens attrs) := by
  induction attrs with
  | nil => exact Gives.nil _ _
  | cons attr attrs ih =>
    rw [List.forall_mem_cons] at hattrs
    obtain ⟨hattr, hattrs⟩ := hattrs
    obtain ⟨c, more, hc, hdigit, hpoint⟩ := exists_of_isIdentifier hattr
    have hname : Gives attr.toList (memberChars attrs ++ '(' :: rest) opens opens [.name attr] := by
      have hblanks : ∀ b ∈ ([] : List Char), isSpace b = true := nofun
      cases attrs with
      | nil => exact gives_name hblanks hattr rfl
      | cons next others => exact gives_name hblanks hattr rfl
    have hseparator : Gives ['.'] (attr.toList ++ (memberChars attrs ++ '(' :: rest)) opens opens
        [.op "."] := by
      rw [hc]
      exact gives_separator (.inr rfl) hdigit hpoint
    have hmember := Gives.append hseparator hname
    exact Gives.append hmember (ih hattrs)

theorem exists_intercalate_cons {α : Type} (separator first : List α) (others : List (List α)) :
    ∃ more, separator.intercalate (first :: others) = first ++ more := by
  cases others with
  | nil => exact ⟨[], by rw [List.intercalate_singleton, List.append_nil]⟩
  | cons next others => exact ⟨_, by rw [List.intercalate_cons_cons, List.append_assoc]⟩

/-- Arguments with commas between them. -/
theorem gives_arguments {height : Nat} {items : List (List Char × List Token)} (hne : items ≠ [])
    (hitems : ∀ item ∈ items, Spells height item.1 item.2) {blanks rest opens : List Char}
    (hblanks : ∀ b ∈ blanks, isSpace b = true) (hdepth : opens.length + height < bracketLimit) :
    Gives (blanks ++ [',', ' '].intercalate (items.map Prod.fst)) (')' :: rest) opens opens
      ([.op ","].intercalate (items.map Prod.snd)) := by
  induction items generalizing blanks with
  | nil => exact absurd rfl hne
  | cons item items ih =>
    rw [List.forall_mem_cons] at hitems
    obtain ⟨hitem, hitems⟩ := hitems
    cases items with
    | nil =>
      rw [List.map_singleton, List.map_singleton, List.intercalate_singleton,
        List.intercalate_singleton]
      exact hitem.gives blanks hblanks ')' (.inr rfl) rest opens hdepth
    | cons next items =>
      have hblank : ∀ b ∈ [' '], isSpace b = true := List.all_eq_true.mp rfl
      have hrest := ih (List.cons_ne_nil _ _) hitems hblank
      have hcomma := Gives.append (gives_separator (.inl rfl) rfl (by decide)) hrest
      have hall := Gives.append (hitem.gives blanks hblanks ',' (.inl rfl) _ opens hdepth) hcomma
      rw [List.append_assoc] at hall
      simp only [List.map_cons, List.intercalate_cons_cons, List.append_assoc]
      exact hall

/-- Arguments between parentheses. -/
theorem gives_enclosed {height : Nat} {items : List (List Char × List Token)}
    (hitems : ∀ item ∈ items, Spells height item.1 item.2) {rest opens : List Char} {d : Char}
    (hdigit : d.isDigit = false) (hpoint : d ≠ '.')
    (hdepth : opens.length + (height + 1) < bracketLimit) :
    Gives (argumentChars (items.map Prod.fst)) (d :: rest) opens opens
      (argumentTokens (items.map Prod.snd)) := by
  have hopen {c : Char} (more : List Char) (hstart : c.isDigit = false) (hnoPoint : c ≠ '.') :
      Gives ['('] (c :: more) opens ('(' :: opens) [.op "("] :=
    gives_open hstart hnoPoint (by omega)
  have hclose : Gives [')'] (d :: rest) ('(' :: opens) opens [.op ")"] := gives_close hdigit hpoint
  cases items with
  | nil => exact Gives.append (hopen _ rfl (by decide)) hclose
  | cons item items =>
    have hnone : ∀ b ∈ ([] : List Char), isSpace b = true := nofun
    have hlength : ('(' :: opens).length + height < bracketLimit := by
      rw [List.length_cons]
      omega
    have hinner : Gives _ (')' :: d :: rest) _ _ _ :=
      gives_arguments (List.cons_ne_nil item items) hitems hnone hlength
    obtain ⟨c, more, hc, hstart, hnoPoint⟩ := (hitems item List.mem_cons_self).starts
    obtain ⟨others, hothers⟩ := exists_intercalate_cons [',', ' '] item.1 (items.map Prod.fst)
    rw [hc, List.cons_append] at hothers
    have hfirst := hopen (more ++ others ++ [')'] ++ d :: rest) hstart hnoPoint
    have hbody := Gives.append hinner hclose
    rw [List.nil_append, List.map_cons, hc, hothers] at hbody
    have hall := Gives.append hfirst hbody
    rw [← hothers, ← hc] at hall
    exact hall

/-- A call of a path of names gives its tokens, wherever no digit or point follows. -/
theorem gives_call {height : Nat} {root : String} {attrs : List String}
    {items : List (List Char × List Token)} (hroot : IsIdentifier root)
    (hattrs : ∀ attr ∈ attrs, IsIdentifier attr)
    (hitems : ∀ item ∈ items, Spells height item.1 item.2) {blanks rest opens : List Char}
    (hblanks : ∀ b ∈ blanks, isSpace b = true) {d : Char} (hdigit : d.isDigit = false)
    (hpoint : d ≠ '.') (hdepth : opens.length + (height + 1) < bracketLimit) :
    Gives (blanks ++ (root.toList ++ (memberChars attrs ++ argumentChars (items.map Prod.fst))))
      (d :: rest) opens opens
      (.name root :: (memberTokens attrs ++ argumentTokens (items.map Prod.snd))) := by
  have harguments : Gives _ (d :: rest) _ _ _ := gives_enclosed hitems hdigit hpoint hdepth
  have hmembers := Gives.append (gives_members hattrs _ opens) harguments
  have hname : Gives (blanks ++ root.toList)
      (memberChars attrs ++ argumentChars (items.map Prod.fst) ++ d :: rest) opens opens
      [.name root] := by
    cases attrs with
    | nil => exact gives_name hblanks hroot rfl
    | cons next others => exact gives_name hblanks hroot rfl
  rw [← List.append_assoc]
  exact Gives.append hname hmembers

theorem Spells.call {height : Nat} {root : String} {attrs : List String}
    {items : List (List Char × List Token)} (hroot : IsIdentifier root)
    (hattrs : ∀ attr ∈ attrs, IsIdentifier attr)
    (hitems : ∀ item ∈ items, Spells height item.1 item.2) :
    Spells (height + 1) (root.toList ++ (memberChars attrs ++ argumentChars (items.map Prod.fst)))
      (.name root :: (memberTokens attrs ++ argumentTokens (items.map Prod.snd))) := by
  refine ⟨?_, fun blanks hblanks d hd rest opens hdepth => ?_⟩
  · obtain ⟨c, more, hc, hdigit, hpoint⟩ := exists_of_isIdentifier hroot
    exact ⟨c, more ++ _, by rw [hc]; rfl, hdigit, hpoint⟩
  · have hmark : d.isDigit = false ∧ d ≠ '.' := by rcases hd with rfl | rfl <;> decide
    exact gives_call hroot hattrs hitems hblanks hmark.1 hmark.2 hdepth

end TableAudit.Token
