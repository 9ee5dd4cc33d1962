import Mathlib.Data.List.Basic
import TableAudit.Proofs.Grammar.Written

namespace TableAudit.Grammar

open TableAudit.Expr

/-- Characters of a formatted text hold expressions: each is written in a field of its own, and the
    fields stand one after the other. -/
def Holds (named : String → Option Char) (text : List Char) (values : List Expr) : Prop :=
  ∃ (fields : List Field) (after : List Char),
    text = fields.flatMap (fun field => field.before ++ field.source) ++ after ∧
      fields.map Field.value = values ∧
      ∀ field ∈ fields, field.tokens <+: embeddedTokens field.source ∧
        field.marks = field.value.markers ∧ Written named field.tokens field.value field.marks

namespace Holds

variable {named : String → Option Char} {text more : List Char} {values others : List Expr}

theorem nothing (text : List Char) : Holds named text [] :=
  ⟨[], text, rfl, rfl, List.forall_mem_nil _⟩

/-- Characters in front belong to no field. -/
theorem behind (before : List Char) (h : Holds named text values) : Holds named (before ++ text) values := by
  obtain ⟨fields, after, rfl, rfl, hfields⟩ := h
  cases fields with
  | nil => exact nothing _
  | cons field fields =>
    refine ⟨{ field with before := before ++ field.before } :: fields, after, ?_, rfl, ?_⟩
    · simp only [List.flatMap_cons, List.append_assoc]
    · rw [List.forall_mem_cons] at hfields
      exact List.forall_mem_cons.mpr hfields

theorem append (h : Holds named text values) (hmore : Holds named more others) :
    Holds named (text ++ more) (values ++ others) := by
  obtain ⟨fields, after, rfl, rfl, hfields⟩ := h
  obtain ⟨laters, last, hlast, rfl, hlaters⟩ := hmore.behind after
  refine ⟨fields ++ laters, last, ?_, List.map_append, List.forall_mem_append.mpr ⟨hfields, hlaters⟩⟩
  rw [List.append_assoc, hlast, List.flatMap_append, List.append_assoc]

theorem before (after : List Char) (h : Holds named text values) : Holds named (text ++ after) values := by
  have happend := h.append (nothing after)
  rwa [List.append_nil] at happend

theorem field {source : List Char} {tokens : List Token} {value : Expr}
    (htokens : tokens <+: embeddedTokens source) (h : Written named tokens value value.markers) :
    Holds named source [value] :=
  ⟨[⟨[], source, tokens, value, value.markers⟩], [], by simp, rfl,
    List.forall_mem_singleton.mpr ⟨htokens, rfl, h⟩⟩

/-- A formatted text is written as literals whose characters hold the expressions in its fields. -/
theorem written {lexemes : List (List Char)} {parts : List Expr}
    (h : Holds named lexemes.flatten (fieldValues (.joined parts))) :
    Written named (lexemes.map .text) (.joined parts) (Expr.joined parts).markers := by
  obtain ⟨fields, after, htext, hvalues, hfields⟩ := h
  have hwritten := Written.formatted htext hvalues.symm (fun field hfield => (hfields field hfield).1)
    fun field hfield => (hfields field hfield).2.2
  rwa [hwritten.eq_markers] at hwritten

end Holds

/-- The expressions in the fields of a piece. -/
def Piece.values : Piece → List Expr
  | chars _ => []
  | field value => fieldValues value

theorem fieldValuesAll_eq_flatMap (es : List Expr) : fieldValuesAll es = es.flatMap fieldValues := by
  induction es with
  | nil => rfl
  | cons e rest ih => rw [fieldValuesAll, ih, List.flatMap_cons]

theorem fieldValues_toExpr (piece : Piece) : fieldValues piece.toExpr = piece.values := by
  cases piece with
  | chars text => rw [Piece.toExpr, fieldValues, Piece.values]
  | field value => rfl

theorem flatMap_values_mergePieces (pieces : List Piece) :
    (mergePieces pieces).flatMap Piece.values = pieces.flatMap Piece.values := by
  induction pieces with
  | nil => rfl
  | cons piece rest ih =>
    cases piece with
    | chars text =>
      rw [mergePieces, List.flatMap_cons, ← ih]
      split
      · next hmerged =>
        rw [hmerged]
        rfl
      · split <;> rfl
    | field value => rw [mergePieces, List.flatMap_cons, List.flatMap_cons, ih]

/-- Joining pieces keeps the expressions in them. -/
theorem fieldValues_joinPieces (pieces : List Piece) :
    fieldValues (joinPieces pieces) = pieces.flatMap Piece.values := by
  rw [joinPieces, fieldValues, fieldValuesAll_eq_flatMap, List.flatMap_map]
  simp only [fieldValues_toExpr]
  exact flatMap_values_mergePieces pieces

/-- A run that goes on behind some characters ends as what follows them does. -/
theorem exists_run_of_map (more : List Char → List Char)
    {run : Option (List Char × List Char × RunEnd)} {found rest : List Char} {ending : RunEnd}
    (h : (run.map fun read => (more read.1, read.2)) = some (found, rest, ending)) :
    ∃ own, run = some (own, rest, ending) := by
  obtain ⟨⟨own, _, _⟩, hrun, heq⟩ := Option.map_eq_some_iff.mp h
  cases heq
  exact ⟨own, hrun⟩

theorem suffix_of_literalRun {raw top naming : Bool} {text found rest : List Char} {ending : RunEnd}
    (h : literalRun raw top naming text = some (found, rest, ending)) : rest <:+ text := by
  fun_induction literalRun raw top naming text generalizing found rest ending with
  | case1 =>
    cases h
    exact List.suffix_refl _
  | case2 c tail ih =>
    obtain ⟨_, hrun⟩ := exists_run_of_map (c :: ·) h
    exact (ih hrun).trans (List.suffix_cons ..)
  | case3 =>
    cases h
    exact List.nil_suffix
  | case4 c tail _ ih =>
    obtain ⟨_, hrun⟩ := exists_run_of_map ('\\' :: ·) h
    exact (ih hrun).trans (List.suffix_cons ..)
  | case5 c tail _ ih =>
    obtain ⟨_, hrun⟩ := exists_run_of_map ('\\' :: c :: ·) h
    exact ((ih hrun).trans (List.suffix_cons ..)).trans (List.suffix_cons ..)
  | case6 =>
    cases h
    exact (List.tail_suffix _).trans (List.suffix_cons ..)
  | case7 => cases h
  | case8 =>
    cases h
    exact List.suffix_refl _
  | case9 c tail _ _ _ ih =>
    obtain ⟨_, hrun⟩ := exists_run_of_map (c :: ·) h
    exact (ih hrun).trans (List.suffix_cons ..)

theorem eq_append_of_onward {c : Char} {found : Option (List Char × List Char)}
    {source rest more : List Char} (h : fieldSource.onward c found = some (source, rest))
    (hfound : ∀ read, found = some (read, rest) → more = read ++ rest) :
    c :: more = source ++ rest := by
  obtain ⟨⟨read, _⟩, hread, heq⟩ := Option.map_eq_some_iff.mp h
  cases heq
  rw [hfound read hread, List.cons_append]

/-- The source of a field stands in the text before what is left. -/
theorem eq_append_of_fieldSource {skip : Nat} {quoting : Quoting}
    {nested text source rest : List Char}
    (h : fieldSource skip quoting nested text = some (source, rest)) : text = source ++ rest := by
  fun_induction fieldSource skip quoting nested text generalizing source rest
  all_goals first
    | cases h
      done
    | cases h
      rfl
    | exact eq_append_of_onward h fun read hread => by
        apply_assumption
        exact hread

/-- A conversion is taken from the front. -/
theorem suffix_of_conversion? {text rest : List Char} {conversion : Option Char}
    (h : conversion? text = some (conversion, rest)) : rest <:+ text := by
  unfold conversion? at h
  split at h
  · split at h
    · cases h
      exact (List.suffix_cons ..).trans (List.suffix_cons ..)
    · cases h
  · cases h
  · cases h
    exact List.suffix_refl _

theorem embedded_of_fieldValue? {embedded : List Char → Option Expr} {source : List Char}
    {value : Expr} (h : fieldValue? embedded source = some value) : embedded source = some value := by
  unfold fieldValue? at h
  split at h
  · cases h
  · exact h

/-- Up to the rest a text holds expressions. -/
def HoldsTo (named : String → Option Char) (text rest : List Char) (values : List Expr) : Prop :=
  ∃ used, text = used ++ rest ∧ Holds named used values

namespace HoldsTo

variable {text middle rest : List Char} {values others : List Expr}

theorem trans (h : HoldsTo named text middle values) (hmore : HoldsTo named middle rest others) :
    HoldsTo named text rest (values ++ others) := by
  obtain ⟨used, rfl, hused⟩ := h
  obtain ⟨more, rfl, hmore⟩ := hmore
  exact ⟨used ++ more, (List.append_assoc ..).symm, hused.append hmore⟩

theorem of_suffix (h : rest <:+ text) : HoldsTo named text rest [] := by
  obtain ⟨used, rfl⟩ := h
  exact ⟨used, rfl, .nothing used⟩

theorem skip (h : middle <:+ text) (hrest : HoldsTo named middle rest values) : HoldsTo named text rest values :=
  (of_suffix h).trans hrest

end HoldsTo

/-- The pieces around a replacement field add nothing to what it holds. -/
theorem flatMap_values_field (chars shown : List Char) (value : Expr) (conversion : Option Char)
    (format : Option Expr) (more : List Piece) :
    (Piece.chars chars :: .chars shown :: .field (.field value conversion format) :: more).flatMap
        Piece.values =
      [value] ++ (fieldValuesOptional format ++ more.flatMap Piece.values) := by
  simp only [List.flatMap_cons, Piece.values, fieldValues, List.nil_append, List.cons_append]

section Formatted

variable {embedded : List Char → Option Expr}
  (hembedded : ∀ source e, embedded source = some e →
    ∃ tokens, tokens <+: embeddedTokens source ∧ Written named tokens e e.markers)

include hembedded

/-- What is read of a formatted text holds the expressions in its pieces. -/
theorem holdsTo_of_formatted {raw : Bool} {fuel level : Nat} {text rest : List Char}
    {pieces : List Piece} (h : formatted named embedded raw fuel level text = some (pieces, rest)) :
    HoldsTo named text rest (pieces.flatMap Piece.values) := by
  induction fuel generalizing level text rest pieces with
  | zero => cases h
  | succ fuel ih =>
    unfold formatted at h
    simp only [Option.bind_eq_bind, Option.bind_eq_some_iff] at h
    obtain ⟨⟨piece, remaining, ending⟩, hrun, chars, -, h⟩ := h
    have hremaining := suffix_of_literalRun hrun
    dsimp only at h hremaining
    split at h
    · obtain ⟨⟨more, tail⟩, hmore, heq⟩ := Option.bind_eq_some_iff.mp h
      cases heq
      exact (ih hmore).skip hremaining
    · cases h
      exact .of_suffix hremaining
    · cases h
      exact .of_suffix hremaining
    · split at h
      · cases h
      · simp only [Option.bind_eq_some_iff] at h
        obtain ⟨⟨source, behind⟩, hsource, value, hvalue, ⟨conversion, spec⟩, hspec, h⟩ := h
        have hbody : HoldsTo named text behind [value] := by
          obtain rfl := eq_append_of_fieldSource hsource
          obtain ⟨tokens, htokens, hwritten⟩ := hembedded source value (embedded_of_fieldValue? hvalue)
          exact .skip ((List.suffix_cons ..).trans hremaining) ⟨source, rfl, .field htokens hwritten⟩
        have hspec : spec <:+ behind := by
          refine (suffix_of_conversion? hspec).trans ?_
          dsimp only
          split
          · exact (List.dropWhile_suffix _).trans (List.suffix_cons ..)
          · exact List.suffix_refl _
        dsimp only at h
        split at h
        · obtain ⟨⟨format, last⟩, hformat, h⟩ := Option.bind_eq_some_iff.mp h
          obtain ⟨⟨found, _⟩, hfound, heq⟩ := Option.map_eq_some_iff.mp hformat
          cases heq
          dsimp only at h
          split at h
          · obtain ⟨⟨more, tail⟩, hmore, heq⟩ := Option.bind_eq_some_iff.mp h
            cases heq
            have hmore := (ih hmore).skip (List.suffix_cons '}' _)
            have hinner := ((ih hfound).skip (List.suffix_cons ':' _)).skip hspec
            rw [flatMap_values_field, fieldValuesOptional, fieldValues_joinPieces]
            exact hbody.trans (hinner.trans hmore)
          · cases h
        · obtain ⟨⟨format, last⟩, hformat, h⟩ := Option.bind_eq_some_iff.mp h
          cases hformat
          dsimp only at h
          split at h
          · obtain ⟨⟨more, tail⟩, hmore, heq⟩ := Option.bind_eq_some_iff.mp h
            cases heq
            have hmore := ((ih hmore).skip (List.suffix_cons '}' _)).skip hspec
            rw [flatMap_values_field]
            exact hbody.trans hmore
          · cases h

/-- One literal holds the expressions in its pieces. -/
theorem holds_of_literalPieces {lexeme : List Char} {pieces : List Piece}
    (h : literalPieces named embedded (literalParts lexeme) = some pieces) :
    Holds named lexeme (pieces.flatMap Piece.values) := by
  unfold literalPieces at h
  split at h
  · split at h
    · next found hformatted =>
      cases h
      obtain ⟨used, hused, hholds⟩ := holdsTo_of_formatted hembedded hformatted
      rw [List.append_nil] at hused
      obtain ⟨front, back, hlexeme⟩ : (literalParts lexeme).body <:+: lexeme :=
        (List.take_prefix _ _).isInfix.trans
          ((List.drop_suffix _ _).trans (List.drop_suffix _ _)).isInfix
      rw [hused] at hlexeme
      rw [← hlexeme]
      exact (hholds.behind front).before back
    · cases h
  · obtain ⟨text, _, rfl⟩ := Option.map_eq_some_iff.mp h
    exact .nothing lexeme

theorem holds_of_mapM {lexemes : List (List Char)} {pieces : List (List Piece)}
    (h : (lexemes.map literalParts).mapM (literalPieces named embedded) = some pieces) :
    Holds named lexemes.flatten (pieces.flatten.flatMap Piece.values) := by
  induction lexemes generalizing pieces with
  | nil =>
    cases h
    exact .nothing []
  | cons lexeme rest ih =>
    rw [List.map_cons, List.mapM_cons] at h
    obtain ⟨first, hfirst, h⟩ := Option.bind_eq_some_iff.mp h
    obtain ⟨others, hothers, h⟩ := Option.bind_eq_some_iff.mp h
    cases h
    rw [List.flatten_cons, List.flatten_cons, List.flatMap_append]
    exact (holds_of_literalPieces hembedded hfirst).append (ih hothers)

end Formatted

/-- Without a formatted text no expression is read in a field. -/
theorem mapM_literalPieces_eq (embedded other : List Char → Option Expr) {parts : List LiteralParts}
    (h : parts.any LiteralParts.isFormatted = false) :
    parts.mapM (literalPieces named embedded) = parts.mapM (literalPieces named other) := by
  induction parts with
  | nil => rfl
  | cons first rest ih =>
    rw [List.any_cons, Bool.or_eq_false_iff] at h
    have hfirst : literalPieces named embedded first = literalPieces named other first := by
      simp only [literalPieces, h.1, Bool.false_eq_true, if_false]
    rw [List.mapM_cons, List.mapM_cons, hfirst, ih h.2]

/-- Text literals that stand for an expression are how it is written. -/
theorem written_of_textLiteral? {embedded : List Char → Option Expr}
    (hembedded : ∀ source e, embedded source = some e →
      ∃ tokens, tokens <+: embeddedTokens source ∧ Written named tokens e e.markers)
    {lexemes : List (List Char)} {e : Expr} (h : textLiteral? named embedded lexemes = some e) :
    Written named (lexemes.map .text) e e.markers := by
  have hown := h
  unfold textLiteral? at h
  dsimp only at h
  split at h
  · next hbytes =>
    have hplain : textLiteral? named (fun _ => none) lexemes = textLiteral? named embedded lexemes := by
      unfold textLiteral?
      simp only [hbytes, if_true]
    split at h
    · obtain ⟨bytes, _, heq⟩ := Option.bind_eq_some_iff.mp h
      cases heq
      rw [markers]
      exact .quoted (hplain.trans hown)
    · cases h
  · next hbytes =>
    obtain ⟨pieces, hpieces, h⟩ := Option.bind_eq_some_iff.mp h
    split at h
    · cases h
      have hholds := holds_of_mapM hembedded hpieces
      rw [← fieldValues_joinPieces] at hholds
      exact hholds.written
    · next hformatted =>
      cases h
      have hplain : textLiteral? named (fun _ => none) lexemes = textLiteral? named embedded lexemes := by
        unfold textLiteral?
        simp only [hbytes, mapM_literalPieces_eq (fun _ => none) embedded
          (Bool.eq_false_iff.mpr hformatted)]
      rw [markers]
      exact .quoted (hplain.trans hown)

end TableAudit.Grammar
