import TableAudit.Proofs.Text.Cleared
import TableAudit.Proofs.Token.Lowered

namespace TableAudit

open Token (normalizeLineEnds)

/-- A place one column further to the right, if it is on the first line. -/
def Place.right (place : Place) : Place :=
  if place.line = 1 then ⟨1, place.column + 1⟩ else place

theorem Place.after_cons (place : Place) (c : Char) (text : List Char) :
    place.after (c :: text) =
      Place.after (if c == '\n' then ⟨place.line + 1, 0⟩ else ⟨place.line, place.column + 1⟩) text :=
  rfl

theorem Place.after_right (column : Nat) (text : List Char) :
    Place.after ⟨1, column + 1⟩ text = (Place.after ⟨1, column⟩ text).right := by
  induction text generalizing column with
  | nil => rfl
  | cons c text ih =>
    rw [after_cons, after_cons]
    split
    · have hline := Token.Place.line_after ⟨1 + 1, 0⟩ text
      dsimp only at hline ⊢
      rw [right, if_neg (by omega)]
    · exact ih _

theorem Place.line_pos (text : List Char) : 0 < (Place.after ⟨1, 0⟩ text).line := by
  rw [Token.Place.line_after]
  exact Nat.lt_add_right _ Nat.one_pos

namespace Text

/-- Two parts of a text, with no line end of two characters over both. -/
def Apart (before after : List Char) : Prop :=
  before.getLast? = some '\r' → after.head? ≠ some '\n'

theorem Apart.nil_left (after : List Char) : Apart [] after :=
  nofun

theorem Apart.cons {c : Char} {before after : List Char} (h : Apart before after)
    (hc : before = [] → c = '\r' → after.head? ≠ some '\n') : Apart (c :: before) after := by
  cases before with
  | nil => exact fun hlast => hc rfl (Option.some.inj hlast)
  | cons d before =>
    intro hlast
    rw [List.getLast?_cons_cons] at hlast
    exact h hlast

theorem Apart.of_cons {c : Char} {before after : List Char} (h : Apart (c :: before) after) :
    Apart before after := by
  intro hlast
  refine h ?_
  rw [List.getLast?_cons, hlast]
  rfl

theorem Apart.left {before piece after : List Char} (h : Apart before (piece ++ after)) :
    Apart before piece := by
  intro hlast hhead
  refine h hlast ?_
  rw [List.head?_append, hhead]
  rfl

/-- Line ends are told apart on both sides of a cut. -/
theorem Apart.normalizeLineEnds_append {before after : List Char} (h : Apart before after) :
    normalizeLineEnds (before ++ after) = normalizeLineEnds before ++ normalizeLineEnds after := by
  fun_induction normalizeLineEnds before with
  | case1 => rfl
  | case2 before ih =>
    rw [List.cons_append, List.cons_append, normalizeLineEnds, ih h.of_cons.of_cons, List.cons_append]
  | case3 c before hends ih =>
    rw [List.cons_append, normalizeLineEnds_cons, ih h.of_cons, List.cons_append]
    rintro rfl hhead
    cases before with
    | nil => exact h rfl hhead
    | cons d before =>
      obtain rfl : d = '\n' := Option.some.inj hhead
      exact hends before rfl rfl

/-- A text can be cut wherever the text with all its line ends alike can. -/
theorem exists_apart {text front back : List Char} (h : normalizeLineEnds text = front ++ back) :
    ∃ before after, text = before ++ after ∧ Apart before after ∧
      normalizeLineEnds before = front ∧ normalizeLineEnds after = back := by
  fun_induction normalizeLineEnds text generalizing front with
  | case1 =>
    obtain ⟨rfl, rfl⟩ := List.append_eq_nil_iff.mp h.symm
    exact ⟨[], [], rfl, .nil_left _, rfl, rfl⟩
  | case2 rest ih =>
    cases front with
    | nil => exact ⟨[], _, rfl, .nil_left _, rfl, h⟩
    | cons first front =>
      obtain ⟨rfl, hrest⟩ := List.cons.inj h
      obtain ⟨before, after, rfl, hapart, rfl, hback⟩ := ih hrest
      refine ⟨'\r' :: '\n' :: before, after, rfl, (hapart.cons ?_).cons nofun, rfl, hback⟩
      exact fun _ hfeed => absurd hfeed (by decide)
  | case3 c rest hends ih =>
    cases front with
    | nil =>
      refine ⟨[], _, rfl, .nil_left _, rfl, ?_⟩
      rw [normalizeLineEnds]
      · exact h
      · exact hends
    | cons first front =>
      obtain ⟨rfl, hrest⟩ := List.cons.inj h
      obtain ⟨before, after, rfl, hapart, rfl, hback⟩ := ih hrest
      have hnext (hc : c = '\r') : (before ++ after).head? ≠ some '\n' := by
        intro hhead
        obtain ⟨more, hmore⟩ := List.head?_eq_some_iff.mp hhead
        exact hends more hc hmore
      refine ⟨c :: before, after, rfl, hapart.cons ?_, normalizeLineEnds_cons ?_, hback⟩
      · rintro rfl hc
        exact hnext hc
      · intro hc hhead
        refine hnext hc ?_
        rw [List.head?_append, hhead]
        rfl

/-- The part of lines up to a place. -/
def upTo (rows : List (List Char)) (place : Place) : List Char :=
  (rows.take (place.line - 1)).flatten ++ (rows.getD (place.line - 1) []).take place.column

theorem upTo_cons (row : List Char) (rows : List (List Char)) {place : Place} (h : 0 < place.line) :
    upTo (row :: rows) (place.down 1) = row ++ upTo rows place := by
  have hline : place.line + 1 - 1 = place.line - 1 + 1 := by omega
  rw [upTo, upTo, Place.down, hline, List.take_succ_cons, List.flatten_cons, List.getD_cons_succ,
    List.append_assoc]

theorem upTo_pushFirst (c : Char) (rows : List (List Char)) {place : Place} (h : 0 < place.line) :
    upTo (pushFirst c rows) place.right = c :: upTo rows place := by
  obtain ⟨line, column⟩ := place
  unfold upTo Place.right
  dsimp only at h ⊢
  by_cases hone : line = 1
  · subst hone
    cases rows <;> rfl
  · rw [if_neg hone]
    obtain ⟨below, rfl⟩ : ∃ below, line = below + 2 := ⟨line - 2, by omega⟩
    cases rows with
    | nil => simp [pushFirst]
    | cons row rows => rfl

theorem keepLines_end {c : Char} {rest : List Char} (hc : c = '\n' ∨ c = '\r')
    (hends : c = '\r' → rest.head? ≠ some '\n') : keepLines (c :: rest) = [c] :: keepLines rest := by
  cases rest with
  | nil => rcases hc with rfl | rfl <;> rfl
  | cons d rest =>
    rw [keepLines]
    · rcases hc with rfl | rfl <;> rfl
    · rintro more rfl hmore
      exact hends rfl (congrArg List.head? hmore)
    · exact List.cons_ne_nil d rest

theorem keepLines_cons {c : Char} (hfeed : c ≠ '\n') (hreturn : c ≠ '\r') (rest : List Char) :
    keepLines (c :: rest) = pushFirst c (keepLines rest) := by
  have hc : (c == '\n' || c == '\r') = false := by simp [hfeed, hreturn]
  cases rest with
  | nil => simp [keepLines, pushFirst, hc]
  | cons d rest =>
    rw [keepLines, hc]
    · rfl
    · exact fun _ hreturn' => absurd hreturn' hreturn
    · exact List.cons_ne_nil d rest

/-- The lines of a text give the part before a cut back at its place. -/
theorem Apart.upTo_eq {before after : List Char} (h : Apart before after) :
    upTo (keepLines (before ++ after)) (Place.after ⟨1, 0⟩ (normalizeLineEnds before)) = before := by
  have hpos (text : List Char) := Place.line_pos (normalizeLineEnds text)
  -- a line end takes the place to the next line, and the lines with it
  have hended (row before after : List Char) (ih : upTo (keepLines (before ++ after))
        (Place.after ⟨1, 0⟩ (normalizeLineEnds before)) = before) :
      upTo (row :: keepLines (before ++ after))
        (Place.after ⟨1, 0⟩ ('\n' :: normalizeLineEnds before)) = row ++ before := by
    have hplace : Place.after ⟨1, 0⟩ ('\n' :: normalizeLineEnds before) =
        (Place.after ⟨1, 0⟩ (normalizeLineEnds before)).down 1 :=
      Place.after_down 1 ⟨1, 0⟩ _
    rw [hplace, upTo_cons _ _ (hpos before), ih]
  fun_induction normalizeLineEnds before with
  | case1 => simp [upTo, Place.after]
  | case2 before ih => exact hended ['\r', '\n'] before after (ih h.of_cons.of_cons)
  | case3 c before hends ih =>
    by_cases hc : c = '\n' ∨ c = '\r'
    · have hfeed : (if c == '\r' then '\n' else c) = '\n' := by
        rcases hc with rfl | rfl <;> rfl
      rw [hfeed, List.cons_append, keepLines_end hc]
      · exact hended [c] before after (ih h.of_cons)
      · rintro rfl hhead
        cases before with
        | nil => exact h rfl hhead
        | cons d before =>
          obtain rfl : d = '\n' := Option.some.inj hhead
          exact hends before rfl rfl
    · rw [not_or] at hc
      rw [if_neg (by simpa using hc.2), List.cons_append, keepLines_cons hc.1 hc.2, Place.after_cons,
        if_neg (by simpa using hc.1), Place.after_right, upTo_pushFirst _ _ (hpos before),
        ih h.of_cons]

theorem flatten_take_succ (rows : List (List Char)) (count : Nat) :
    (rows.take (count + 1)).flatten = rows.getD 0 [] ++ (rows.tail.take count).flatten := by
  cases rows with
  | nil => simp
  | cons row rows => rfl

/-- What is left of a line after one column up to another. -/
theorem drop_of_take_append {row piece : List Char} {start stop : Nat}
    (h : row.take start ++ piece = row.take stop) : (row.take stop).drop start = piece := by
  by_cases hstart : start ≤ row.length
  · rw [← h, List.drop_append_of_le_length (by rw [List.length_take_of_le hstart]),
      List.drop_of_length_le (List.length_take_le _ _), List.nil_append]
  · have hall : row.take start = row := List.take_of_length_le (by omega)
    have hlength := congrArg List.length h
    rw [hall, List.length_append, List.length_take] at hlength
    have hpiece : piece.length = 0 := by omega
    rw [List.length_eq_zero_iff.mp hpiece, List.drop_of_length_le]
    rw [List.length_take]
    omega

/-- The piece between two places is what is up to the second and not up to the first. -/
theorem between_of_upTo {text piece : List Char} {start stop : Place} (hpos : 0 < start.line)
    (hle : start.line ≤ stop.line)
    (h : upTo (keepLines text) start ++ piece = upTo (keepLines text) stop) :
    between text start.line start.column stop.line stop.column = piece := by
  unfold upTo at h
  unfold between
  generalize keepLines text = rows at h ⊢
  rcases Nat.eq_or_lt_of_le hle with hsame | hless
  · rw [hsame, List.append_assoc] at h
    rw [if_pos hsame, hsame]
    exact drop_of_take_append (List.append_cancel_left h)
  · rw [if_neg (Nat.ne_of_lt hless)]
    have hrows : (rows.take (stop.line - 1)).flatten = (rows.take (start.line - 1)).flatten ++
        (rows.getD (start.line - 1) [] ++
          ((rows.drop start.line).take (stop.line - start.line - 1)).flatten) := by
      have hcount : stop.line - 1 = start.line - 1 + (stop.line - start.line - 1 + 1) := by omega
      have htail : (rows.drop (start.line - 1)).tail = rows.drop start.line := by
        rw [List.tail_drop, Nat.sub_add_cancel hpos]
      have hhead : (rows.drop (start.line - 1)).getD 0 [] = rows.getD (start.line - 1) [] := by
        rw [List.getD_eq_getElem?_getD, List.getD_eq_getElem?_getD, List.getElem?_drop, Nat.add_zero]
      rw [hcount, List.take_add, List.flatten_append, flatten_take_succ, htail, hhead]
    rw [hrows] at h
    simp only [List.append_assoc] at h ⊢
    have hline := List.append_cancel_left h
    nth_rewrite 2 [← List.take_append_drop start.column (rows.getD (start.line - 1) [])] at hline
    rw [List.append_assoc] at hline
    exact (List.append_cancel_left hline).symm

/-- A piece of a text lies between the places of its ends. -/
theorem between_eq {before piece after : List Char} (hbefore : Apart before (piece ++ after))
    (hpiece : Apart (before ++ piece) after) {start stop : Place}
    (hstart : start = Place.after ⟨1, 0⟩ (normalizeLineEnds before))
    (hstop : stop = Place.after ⟨1, 0⟩ (normalizeLineEnds (before ++ piece))) :
    between (before ++ piece ++ after) start.line start.column stop.line stop.column = piece := by
  have hle : start.line ≤ stop.line := by
    rw [hstart, hstop, hbefore.left.normalizeLineEnds_append, Token.Place.after_append,
      Token.Place.line_after (Place.after _ _)]
    exact Nat.le_add_right _ _
  refine between_of_upTo (hstart ▸ Place.line_pos _) hle ?_
  have hfirst := hbefore.upTo_eq
  rw [← List.append_assoc] at hfirst
  rw [hstart, hstop, hpiece.upTo_eq, hfirst]

/-- A piece of a text from one place to another, as lines and columns are counted in it. -/
def IsPiece (text : List Char) (start stop : Place) (piece : List Char) : Prop :=
  ∃ before after, text = before ++ piece ++ after ∧
    start = Place.after ⟨1, 0⟩ (normalizeLineEnds before) ∧
    stop = Place.after ⟨1, 0⟩ (normalizeLineEnds (before ++ piece))

/-- Between the places of two cuts in a text with all its line ends alike there is a piece of it. -/
theorem isPiece_between {text front middle : List Char} (hmiddle : middle ≠ [])
    (hwithin : front ++ middle <+: normalizeLineEnds text) {start stop : Place}
    (hstart : start = Place.after ⟨1, 0⟩ front) (hstop : stop = Place.after ⟨1, 0⟩ (front ++ middle)) :
    IsPiece text start stop (between text start.line start.column stop.line stop.column) := by
  obtain ⟨back, hback⟩ := hwithin
  rw [List.append_assoc] at hback
  obtain ⟨before, more, rfl, hbefore, rfl, hmore⟩ := exists_apart hback.symm
  obtain ⟨piece, after, rfl, hpiece, rfl, -⟩ := exists_apart hmore
  have hsome : piece ≠ [] := by
    rintro rfl
    exact hmiddle rfl
  have hapart : Apart (before ++ piece) after := by
    intro hlast
    rw [List.getLast?_append_of_ne_nil _ hsome] at hlast
    exact hpiece hlast
  rw [← hbefore.left.normalizeLineEnds_append] at hstop
  have hbetween := between_eq hbefore hapart hstart hstop
  rw [List.append_assoc] at hbetween
  rw [hbetween]
  exact ⟨before, after, (List.append_assoc _ _ _).symm, hstart, hstop⟩

theorem keepLines_feeds (count : Nat) (text : List Char) :
    keepLines (List.replicate count '\n' ++ text) = List.replicate count ['\n'] ++ keepLines text := by
  induction count with
  | zero => rfl
  | succ count ih =>
    rw [List.replicate_succ, List.cons_append, keepLines_end (.inl rfl) nofun, ih]
    rfl

/-- Below some empty lines a piece stands as many lines further down. -/
theorem between_feeds (count : Nat) (text : List Char) {start stop : Place} (hstart : 0 < start.line)
    (hstop : 0 < stop.line) :
    between (List.replicate count '\n' ++ text) (start.down count).line (start.down count).column
        (stop.down count).line (stop.down count).column =
      between text start.line start.column stop.line stop.column := by
  have hrow {line : Nat} (hline : 0 < line) :
      (List.replicate count ['\n'] ++ keepLines text).getD (line + count - 1) [] =
        (keepLines text).getD (line - 1) [] := by
    rw [List.getD_eq_getElem?_getD, List.getD_eq_getElem?_getD,
      List.getElem?_append_right (by rw [List.length_replicate]; omega), List.length_replicate,
      show line + count - 1 - count = line - 1 by omega]
  have hrows : (List.replicate count ['\n'] ++ keepLines text).drop (start.line + count) =
      (keepLines text).drop start.line := by
    rw [List.drop_append, List.length_replicate, Nat.add_sub_cancel, List.drop_of_length_le,
      List.nil_append]
    rw [List.length_replicate]
    omega
  unfold between Place.down
  dsimp only
  rw [keepLines_feeds, hrow hstart, hrow hstop, hrows, Nat.add_sub_add_right]
  simp only [Nat.add_right_cancel_iff]

end Text

end TableAudit
