import Mathlib
import TableAudit.Expr.Columns
import TableAudit.Grammar.Text

namespace TableAudit.Expr

open Grammar

/-- Tokens within a line among which there is no text literal, so that no reference is spelled by
    them alone. -/
def Silent (tokens : List Token) : Prop :=
  ∀ token ∈ tokens, token.isText = false ∧ token.isLayout = false

theorem Silent.nil : Silent [] :=
  List.forall_mem_nil _

theorem Silent.append {tokens more : List Token} (h : Silent tokens) (hmore : Silent more) :
    Silent (tokens ++ more) :=
  List.forall_mem_append.mpr ⟨h, hmore⟩

/-- A part of an expression, where it stands in the text: its tokens, the turn in which its references
    count, and these references. -/
structure Part where
  tokens : List Token
  value : Expr
  turn : Nat
  marks : List (Option String)

/-- The parts turn by turn, and in the order of the text within a turn. -/
def inTurn (parts : List Part) : List Part :=
  parts.filter (·.turn = 0) ++ parts.filter (·.turn = 1) ++ parts.filter (·.turn = 2)

/-- Whether all parts of an expression count in the order of the text. -/
def countsInOrder : Expr → Bool
  | call .. | lambda .. | conditional .. | dict .. => false
  | _ => true

/-- The turns of the parts of an expression other than a call, which stand in the order of the
    text. -/
inductive Turns : Expr → List Nat → Prop
  | inOrder {e : Expr} {turns : List Nat} (horder : e.countsInOrder = true)
      (hturns : ∀ turn ∈ turns, turn = 0) : Turns e turns
  | lambda {params : Params} {keywordDefaults defaults : List Expr} {body : Expr} :
      Turns (.lambda params keywordDefaults defaults body)
        (List.replicate defaults.length 1 ++ List.replicate keywordDefaults.length 0 ++ [2])
  | conditional {test body otherwise : Expr} : Turns (.conditional test body otherwise) [1, 0, 2]
  | dict {keyed : List Bool} {keys values : List Expr} :
      Turns (.dict keyed keys values)
        (keyed.flatMap fun isKeyed => if isKeyed then [0, 1] else [1])

/-- Whether an expression is spelled by tokens of its own, which are names or text literals. -/
def isSpelled : Expr → Bool
  | name _ | member .. | literal (.text ..) | literal (.bytes _) | joined _ | field .. => true
  | _ => false

/-- An argument of a call, where it stands in the text. It may have a name or spread a mapping, and
    a comma may follow it. -/
structure Argument where
  keyword : Option (Option String)
  tokens : List Token
  value : Expr
  marks : List (Option String)
  comma : Bool

/-- The tokens that give an argument its name, or say that it spreads a mapping. -/
def introduction : Option (Option String) → List Token
  | none => []
  | some (some id) => [.name id, .op "="]
  | some none => [.op "**"]

/-- Whether tokens begin as those of an argument that has a name or spreads a mapping. -/
def isIntroduced : List Token → Bool
  | .name _ :: .op "=" :: _ => true
  | .op "**" :: _ => true
  | _ => false

namespace Argument

/-- All tokens of an argument. -/
def text (argument : Argument) : List Token :=
  introduction argument.keyword ++ argument.tokens ++ if argument.comma then [.op ","] else []

/-- The positional arguments, starred ones included. -/
def positional (arguments : List Argument) : List Argument :=
  arguments.filter (·.keyword.isNone)

/-- The arguments that have a name or spread a mapping. -/
def named (arguments : List Argument) : List Argument :=
  arguments.filter (·.keyword.isSome)

/-- The call of a function with arguments. -/
def call (function : Expr) (arguments : List Argument) : Expr :=
  .call function ((positional arguments).map value) (arguments.filterMap keyword)
    ((named arguments).map value)

/-- The references of a call, of which those of the function are given: the positional arguments
    count before the others. A marker is one reference, whatever stands inside it. -/
def callMarks (function : Expr) (own : List (Option String)) (arguments : List Argument) :
    List (Option String) :=
  if function.isWord columnWord then
    [markedColumn? ((positional arguments).map value) ((named arguments).map value)]
  else own ++ (positional arguments).flatMap marks ++ (named arguments).flatMap marks

/-- Arguments as they stand in a call: a positional one is not introduced by a name or a sign, and a
    comma follows all but the last. -/
structure Listed (arguments : List Argument) : Prop where
  plain : ∀ argument ∈ arguments, argument.keyword = none → isIntroduced argument.tokens = false
  commas : ∀ argument ∈ arguments.dropLast, argument.comma = true

end Argument

mutual

/-- The expressions in the replacement fields of a formatted text, those in formats included. -/
def fieldValues : Expr → List Expr
  | joined parts => fieldValuesAll parts
  | field value _ format => value :: fieldValuesOptional format
  | literal _ => []
  | e => [e]

def fieldValuesAll : List Expr → List Expr
  | [] => []
  | e :: rest => fieldValues e ++ fieldValuesAll rest

def fieldValuesOptional : Option Expr → List Expr
  | none => []
  | some e => fieldValues e

end

/-- A replacement field, where it stands in a formatted text: the characters before it and those of
    its expression, with the tokens of the expression and its references. -/
structure Field where
  before : List Char
  source : List Char
  tokens : List Token
  value : Expr
  marks : List (Option String)

/-- The tokens of the expression in a replacement field, which is read as if in parentheses. -/
def embeddedTokens (source : List Char) : List Token :=
  (Token.scan (Token.closeLastLine ('(' :: source ++ [')']))).tokens

/-- An expression is written as tokens, and these are its references in the order in which they
    count. Text literals may call characters by name. -/
inductive Written (named : String → Option Char) : List Token → Expr → List (Option String) → Prop
  | name {id : String} : Written named [.name id] (.name id) []
  | member {tokens : List Token} {value : Expr} {attr : String} {marks : List (Option String)}
      (h : Written named tokens value marks) :
      Written named (tokens ++ [.op ".", .name attr]) (.member value attr) marks
  | quoted {lexemes : List (List Char)} {value : Literal}
      (hvalue : textLiteral? named (fun _ => none) lexemes = some (.literal value)) :
      Written named (lexemes.map .text) (.literal value) []
  | formatted {lexemes : List (List Char)} {parts : List Expr} {fields : List Field}
      {after : List Char}
      (htext : lexemes.flatten =
        fields.flatMap (fun field => field.before ++ field.source) ++ after)
      (hvalues : fieldValues (.joined parts) = fields.map Field.value)
      (htokens : ∀ field ∈ fields, field.tokens <+: embeddedTokens field.source)
      (hwritten : ∀ field ∈ fields, Written named field.tokens field.value field.marks) :
      Written named (lexemes.map .text) (.joined parts) (fields.flatMap Field.marks)
  | call {function : Expr} {head : List Token} {own : List (Option String)}
      {arguments : List Argument} (hfunction : Written named head function own)
      (hlisted : Argument.Listed arguments)
      (hwritten : ∀ argument ∈ arguments, Written named argument.tokens argument.value argument.marks) :
      Written named (head ++ .op "(" :: arguments.flatMap Argument.text ++ [.op ")"])
        (Argument.call function arguments) (Argument.callMarks function own arguments)
  | parts {e : Expr} {parts : List Part} (hspelled : e.isSpelled = false) (hturns : Turns e (parts.map Part.turn))
      (hchildren : (inTurn parts).map Part.value = e.children)
      (hwritten : ∀ part ∈ parts, Written named part.tokens part.value part.marks) :
      Written named (parts.flatMap Part.tokens) e ((inTurn parts).flatMap Part.marks)
  | enclosed {before tokens after : List Token} {e : Expr} {marks : List (Option String)}
      (hbefore : Silent before) (h : Written named tokens e marks) (hafter : Silent after) :
      Written named (before ++ tokens ++ after) e marks

variable {named : String → Option Char}

theorem Turns.isMarker_eq_false {e : Expr} {turns : List Nat} (h : Turns e turns) (word : String) :
    e.isMarker word = false := by
  cases h with
  | inOrder horder _ =>
    cases e with
    | call => cases horder
    | _ => rfl
  | _ => rfl

theorem mem_of_mem_inTurn {parts : List Part} {part : Part} (h : part ∈ inTurn parts) :
    part ∈ parts := by
  simp only [inTurn, List.mem_append, List.mem_filter] at h
  rcases h with (h | h) | h <;> exact h.1

/-- The references of a formatted text are those of the expressions in its fields. -/
theorem markers_eq_flatMap_fieldValues (e : Expr) : e.markers = e.fieldValues.flatMap markers := by
  refine fieldValues.induct (fun e => e.markers = e.fieldValues.flatMap markers)
    (fun format => markersOptional format = (fieldValuesOptional format).flatMap markers)
    (fun parts => markersAll parts = (fieldValuesAll parts).flatMap markers)
    (fun parts ih => ?_) (fun value conversion format ih => ?_) (fun value => ?_)
    (fun e hjoined hfield hliteral => ?_) ?_ (fun e rest ihe ih => ?_) ?_ (fun e ih => ?_) e
  · rw [markers, fieldValues, ih]
  · rw [markers, fieldValues, ih, List.flatMap_cons]
  · rw [markers, fieldValues, List.flatMap_nil]
  · rw [fieldValues.eq_4 e hjoined hfield hliteral, List.flatMap_singleton]
  · rw [markersAll, fieldValuesAll, List.flatMap_nil]
  · rw [markersAll, fieldValuesAll, ihe, ih, List.flatMap_append]
  · rw [markersOptional, fieldValuesOptional, List.flatMap_nil]
  · rw [markersOptional, fieldValuesOptional, ih]

theorem Written.eq_markers {tokens : List Token} {e : Expr} {marks : List (Option String)}
    (h : Written named tokens e marks) : marks = e.markers := by
  induction h with
  | name => rw [markers]
  | member _ ih => rw [markers, ih]
  | quoted _ => rw [markers]
  | @formatted lexemes parts fields after _ hvalues _ _ ih =>
    rw [markers_eq_flatMap_fieldValues, hvalues, List.flatMap_map]
    exact List.flatMap_congr ih
  | @call function head own arguments _ _ _ ihfunction ih =>
    have hpart {test : Argument → Bool} : (arguments.filter test).flatMap Argument.marks =
        markersAll ((arguments.filter test).map Argument.value) := by
      rw [markersAll_eq_flatMap, List.flatMap_map]
      exact List.flatMap_congr fun argument hmem => ih argument (List.mem_of_mem_filter hmem)
    rw [Argument.call, Argument.callMarks, markers, ihfunction, Argument.positional, Argument.named,
      hpart, hpart]
  | @parts e parts _ hturns hchildren _ ih =>
    rw [markers_eq_flatMap_children e (hturns.isMarker_eq_false _), ← hchildren, List.flatMap_map]
    exact List.flatMap_congr fun part hpart => ih part (mem_of_mem_inTurn hpart)
  | enclosed _ _ _ ih => exact ih

/-- What introduces an argument, and the comma that follows it, stand within a line. -/
theorem Argument.isLayout_eq_false {argument : Argument}
    (h : ∀ token ∈ argument.tokens, token.isLayout = false) :
    ∀ token ∈ argument.text, token.isLayout = false := by
  obtain ⟨keyword, tokens, value, marks, comma⟩ := argument
  have hintroduction : ∀ token ∈ introduction keyword, token.isLayout = false := by
    obtain _ | _ | id := keyword <;> simp [introduction, Token.isLayout]
  have hcomma : ∀ token ∈ if comma then [Token.op ","] else [], token.isLayout = false := by
    cases comma <;> simp [Token.isLayout]
  exact List.forall_mem_append.mpr ⟨List.forall_mem_append.mpr ⟨hintroduction, h⟩, hcomma⟩

/-- Expressions are written within lines. -/
theorem Written.isLayout_eq_false {tokens : List Token} {e : Expr} {marks : List (Option String)}
    (h : Written named tokens e marks) : ∀ token ∈ tokens, token.isLayout = false := by
  have hsilent {own : List Token} (h : Silent own) : ∀ token ∈ own, token.isLayout = false :=
    fun token htoken => (h token htoken).2
  have hlexemes (lexemes : List (List Char)) :
      ∀ token ∈ lexemes.map Token.text, token.isLayout = false :=
    List.forall_mem_map.mpr fun _ _ => rfl
  induction h with
  | name => exact List.forall_mem_singleton.mpr rfl
  | member _ ih =>
    refine List.forall_mem_append.mpr ⟨ih, ?_⟩
    exact List.forall_mem_cons.mpr ⟨rfl, List.forall_mem_singleton.mpr rfl⟩
  | quoted _ => exact hlexemes _
  | formatted _ _ _ _ _ => exact hlexemes _
  | call _ _ _ ihfunction ih =>
    have harguments := List.forall_mem_flatMap.mpr fun argument hmem =>
      Argument.isLayout_eq_false (ih argument hmem)
    refine List.forall_mem_append.mpr ⟨List.forall_mem_append.mpr ⟨ihfunction, ?_⟩, ?_⟩
    · exact List.forall_mem_cons.mpr ⟨rfl, harguments⟩
    · exact List.forall_mem_singleton.mpr rfl
  | parts _ _ _ _ ih => exact List.forall_mem_flatMap.mpr ih
  | enclosed hbefore _ hafter ih =>
    exact List.forall_mem_append.mpr
      ⟨List.forall_mem_append.mpr ⟨hsilent hbefore, ih⟩, hsilent hafter⟩

/-- Tokens in which expressions are written one after the other. -/
inductive Run (named : String → Option Char) : List Token → List Expr → Prop
  | nil {tokens : List Token} (h : Silent tokens) : Run named tokens []
  | cons {tokens rest : List Token} {e : Expr} {es : List Expr} (h : Written named tokens e e.markers)
      (hrest : Run named rest es) : Run named (tokens ++ rest) (e :: es)

namespace Run

variable {tokens more : List Token} {e : Expr} {es others : List Expr}

theorem silent_append {before : List Token} (hbefore : Silent before) (h : Run named tokens es) :
    Run named (before ++ tokens) es := by
  cases h with
  | nil hsilent => exact .nil (hbefore.append hsilent)
  | @cons own rest e es hwritten hrest =>
    have henclosed := Written.enclosed hbefore hwritten Silent.nil
    rw [List.append_nil] at henclosed
    rw [← List.append_assoc]
    exact .cons henclosed hrest

theorem append (h : Run named tokens es) (hmore : Run named more others) : Run named (tokens ++ more) (es ++ others) := by
  induction h with
  | nil hsilent => exact silent_append hsilent hmore
  | cons hwritten _ ih =>
    rw [List.append_assoc]
    exact .cons hwritten ih

/-- What expressions are written as can be divided between them. -/
theorem split (h : Run named tokens (es ++ others)) :
    ∃ front back, tokens = front ++ back ∧ Run named front es ∧ Run named back others := by
  induction es generalizing tokens with
  | nil => exact ⟨[], tokens, rfl, .nil Silent.nil, h⟩
  | cons e es ih =>
    cases h with
    | cons hwritten hrest =>
      obtain ⟨front, back, rfl, hfront, hback⟩ := ih hrest
      exact ⟨_, back, (List.append_assoc ..).symm, .cons hwritten hfront, hback⟩

/-- One expression takes all of its run. -/
theorem written (h : Run named tokens [e]) : Written named tokens e e.markers := by
  cases h with
  | cons hwritten hrest =>
    cases hrest with
    | nil hsilent => exact .enclosed Silent.nil hwritten hsilent

theorem of_written {marks : List (Option String)} (h : Written named tokens e marks) : Run named tokens [e] := by
  obtain rfl := h.eq_markers
  have hrun := cons h (nil Silent.nil)
  rwa [List.append_nil] at hrun

/-- The tokens of a run, divided into those of its expressions and silent ones behind the last. -/
theorem exists_parts (h : Run named tokens es) {turns : List Nat} (hlength : turns.length = es.length) :
    ∃ (parts : List Part) (after : List Token), tokens = parts.flatMap Part.tokens ++ after ∧
      Silent after ∧ parts.map Part.turn = turns ∧ parts.map Part.value = es ∧
      ∀ part ∈ parts, part.marks = part.value.markers ∧
        Written named part.tokens part.value part.marks := by
  induction h generalizing turns with
  | @nil tokens hsilent =>
    obtain rfl := List.length_eq_zero_iff.mp hlength
    exact ⟨[], tokens, rfl, hsilent, rfl, rfl, List.forall_mem_nil _⟩
  | @cons own rest e es hwritten _ ih =>
    cases turns with
    | nil => cases hlength
    | cons turn turns =>
      obtain ⟨parts, after, rfl, hafter, hturns, hvalues, hparts⟩ := ih (Nat.succ.inj hlength)
      refine ⟨⟨own, e, turn, e.markers⟩ :: parts, after, ?_, hafter, ?_, ?_, ?_⟩
      · rw [List.flatMap_cons, List.append_assoc]
      · rw [List.map_cons, hturns]
      · rw [List.map_cons, hvalues]
      · exact List.forall_mem_cons.mpr ⟨⟨rfl, hwritten⟩, hparts⟩

end Run

/-- The expressions whose turn it is, in the given order. -/
def atTurn (turn : Nat) (turns : List Nat) (es : List Expr) : List Expr :=
  ((turns.zip es).filter (·.1 = turn)).map Prod.snd

theorem atTurn_cons (turn first : Nat) (turns : List Nat) (e : Expr) (es : List Expr) :
    atTurn turn (first :: turns) (e :: es) =
      if first = turn then e :: atTurn turn turns es else atTurn turn turns es := by
  by_cases h : first = turn <;> simp [atTurn, h]

theorem atTurn_append {turns : List Nat} {es : List Expr} (h : turns.length = es.length)
    (turn : Nat) (more : List Nat) (others : List Expr) :
    atTurn turn (turns ++ more) (es ++ others) = atTurn turn turns es ++ atTurn turn more others := by
  rw [atTurn, List.zip_append h, List.filter_append, List.map_append]
  rfl

theorem atTurn_replicate (turn other : Nat) (es : List Expr) :
    atTurn turn (List.replicate es.length other) es = if other = turn then es else [] := by
  induction es with
  | nil => exact (ite_self _).symm
  | cons e rest ih =>
    rw [List.length_cons, List.replicate_succ, atTurn_cons, ih]
    split <;> rfl

/-- Expressions turn by turn, and in the given order within a turn. -/
def arranged (turns : List Nat) (es : List Expr) : List Expr :=
  atTurn 0 turns es ++ atTurn 1 turns es ++ atTurn 2 turns es

theorem map_value_inTurn (parts : List Part) :
    (inTurn parts).map Part.value = arranged (parts.map Part.turn) (parts.map Part.value) := by
  have hturn (turn : Nat) : (parts.filter (·.turn = turn)).map Part.value =
      atTurn turn (parts.map Part.turn) (parts.map Part.value) := by
    rw [atTurn, List.zip_map', List.filter_map, List.map_map]
    rfl
  simp only [inTurn, arranged, List.map_append, hturn]

/-- Wherever the first expressions are written, so are the others. -/
def Folds (named : String → Option Char) (es others : List Expr) : Prop :=
  ∀ tokens, Run named tokens es → Run named tokens others

namespace Folds

variable {es others more : List Expr} {e : Expr}

theorem refl (es : List Expr) : Folds named es es :=
  fun _ h => h

theorem trans (h : Folds named es others) (hmore : Folds named others more) : Folds named es more :=
  fun tokens hrun => hmore tokens (h tokens hrun)

/-- An expression is written where its parts are, in the order of the text. -/
theorem compose {turns : List Nat} (hturns : Turns e turns) (hlength : turns.length = es.length)
    (hchildren : arranged turns es = e.children) (hspelled : e.isSpelled = false) : Folds named es [e] := by
  intro tokens hrun
  obtain ⟨parts, after, rfl, hafter, rfl, rfl, hparts⟩ := hrun.exists_parts hlength
  rw [← map_value_inTurn] at hchildren
  have hwritten := Written.parts hspelled hturns hchildren fun part hpart => (hparts part hpart).2
  exact .of_written (.enclosed Silent.nil hwritten hafter)

theorem arranged_replicate_zero (es : List Expr) :
    arranged (List.replicate es.length 0) es = es := by
  simp [arranged, atTurn_replicate]

/-- Most expressions have their parts in the order of the text. -/
theorem inOrder (horder : e.countsInOrder = true) (hspelled : e.isSpelled = false)
    (hchildren : e.children = es) : Folds named es [e] := by
  have hturns : Turns e (List.replicate es.length 0) :=
    .inOrder horder fun turn hturn => List.eq_of_mem_replicate hturn
  refine compose hturns (List.length_replicate ..) ?_ hspelled
  rw [arranged_replicate_zero, hchildren]

theorem conditional {test body otherwise : Expr} :
    Folds named [body, test, otherwise] [.conditional test body otherwise] :=
  compose .conditional rfl rfl rfl

theorem lambda {params : Params} {keywordDefaults defaults : List Expr} {body : Expr} :
    Folds named (defaults ++ keywordDefaults ++ [body])
      [.lambda params keywordDefaults defaults body] := by
  refine compose .lambda ?_ ?_ rfl
  · simp only [List.length_append, List.length_replicate, List.length_singleton]
  · have hturn (turn : Nat) : atTurn turn
        (List.replicate defaults.length 1 ++ List.replicate keywordDefaults.length 0 ++ [2])
        (defaults ++ keywordDefaults ++ [body]) =
          (if 1 = turn then defaults else []) ++ (if 0 = turn then keywordDefaults else []) ++
            atTurn turn [2] [body] := by
      rw [atTurn_append, atTurn_append, atTurn_replicate, atTurn_replicate]
      · rw [List.length_replicate]
      · simp only [List.length_append, List.length_replicate]
    rw [arranged, hturn, hturn, hturn, children]
    simp [atTurn]

/-- Behind each key of a dictionary stands its value. -/
theorem dict (entries : List (Option Expr × Expr)) :
    Folds named (entries.flatMap fun entry => entry.1.toList ++ [entry.2]) [Grammar.dictOf entries] := by
  have hturn (turn : Nat) (h : turn = 0 ∨ turn = 1 ∨ turn = 2) : atTurn turn
      ((entries.map fun entry => entry.1.isSome).flatMap fun isKeyed => if isKeyed then [0, 1] else [1])
      (entries.flatMap fun entry => entry.1.toList ++ [entry.2]) =
        (if 0 = turn then entries.filterMap Prod.fst else []) ++
          if 1 = turn then entries.map Prod.snd else [] := by
    induction entries with
    | nil => simp [atTurn]
    | cons entry rest ih =>
      obtain ⟨_ | key, value⟩ := entry <;> obtain rfl | rfl | rfl := h <;>
        simp [atTurn_cons, ih]
  refine compose .dict ?_ ?_ rfl
  · rw [List.length_flatMap, List.length_flatMap, List.map_map]
    refine congrArg List.sum (List.map_congr_left ?_)
    rintro ⟨_ | key, value⟩ _ <;> rfl
  · simp [arranged, hturn, Grammar.dictOf, children]

end Folds

end TableAudit.Expr
