import TableAudit.Proofs.Block.Compiled
import TableAudit.Proofs.Grammar.Extents
import TableAudit.Block.Definition

namespace TableAudit

open TableAudit.Expr

/-- A part of an expression is written as some of its tokens. -/
theorem Expr.Written.exists_child {named : String → Option Char} {tokens : List Token}
    {e child : Expr} {marks : List (Option String)} (h : Written named tokens e marks) (hspelled : e.isSpelled = false)
    (hchild : child ∈ e.children) :
    ∃ own, own <:+: tokens ∧ Written named own child child.markers := by
  have hpart {parts : List Part} (hchildren : (inTurn parts).map Part.value = e.children)
      (hwritten : ∀ part ∈ parts, Written named part.tokens part.value part.marks) :
      ∃ own, own <:+: parts.flatMap Part.tokens ∧ Written named own child child.markers := by
    rw [← hchildren] at hchild
    obtain ⟨part, hmem, rfl⟩ := List.mem_map.mp hchild
    have hpart := hwritten part (mem_of_mem_inTurn hmem)
    rw [hpart.eq_markers] at hpart
    exact ⟨part.tokens, List.infix_of_mem_flatten (List.mem_map_of_mem (mem_of_mem_inTurn hmem)),
      hpart⟩
  have hargument {arguments : List Argument} {argument : Argument} (front back : List Token)
      (hmem : argument ∈ arguments)
      (hwritten : Written named argument.tokens argument.value argument.marks) :
      ∃ own, own <:+: front ++ arguments.flatMap Argument.text ++ back ∧
        Written named own argument.value argument.value.markers := by
    rw [hwritten.eq_markers] at hwritten
    refine ⟨argument.tokens, ?_, hwritten⟩
    have htext : argument.tokens <:+: argument.text :=
      ⟨introduction argument.keyword, if argument.comma then [.op ","] else [], rfl⟩
    have hall : argument.text <:+: arguments.flatMap Argument.text :=
      List.infix_of_mem_flatten (List.mem_map_of_mem hmem)
    exact htext.trans (hall.trans ⟨front, back, rfl⟩)
  induction h with
  | name => cases hspelled
  | member => cases hspelled
  | quoted => cases hchild
  | formatted => cases hspelled
  | @call function head own arguments hfunction hlisted hwritten _ _ =>
    rw [Argument.call, children, List.mem_append, List.mem_cons] at hchild
    have hmem {test : Argument → Bool} (h : child ∈ (arguments.filter test).map Argument.value) :
        ∃ argument ∈ arguments, argument.value = child := by
      obtain ⟨argument, hfilter, rfl⟩ := List.mem_map.mp h
      exact ⟨argument, List.mem_of_mem_filter hfilter, rfl⟩
    have hfront : head ++ .op "(" :: arguments.flatMap Argument.text ++ [.op ")"] =
        head ++ [.op "("] ++ arguments.flatMap Argument.text ++ [.op ")"] := by
      rw [List.append_assoc head [_]]
      rfl
    rw [hfront]
    obtain (rfl | hpositional) | hnamed := hchild
    · rw [hfunction.eq_markers] at hfunction
      refine ⟨head, ⟨[], [.op "("] ++ arguments.flatMap Argument.text ++ [.op ")"], ?_⟩, hfunction⟩
      simp only [List.nil_append, List.append_assoc]
    · obtain ⟨argument, hin, rfl⟩ := hmem hpositional
      exact hargument _ _ hin (hwritten argument hin)
    · obtain ⟨argument, hin, rfl⟩ := hmem hnamed
      exact hargument _ _ hin (hwritten argument hin)
  | parts _ _ hchildren hwritten _ => exact hpart hchildren hwritten
  | enclosed _ _ _ ih =>
    obtain ⟨own, htokens, hown⟩ := ih hspelled hchild hpart
    exact ⟨own, htokens.trans ⟨_, _, rfl⟩, hown⟩

/-- A statement that declares nothing and is no mistake. -/
def Stmt.isIgnored : Stmt → Bool
  | .pass _ => true
  | .expr _ value => value.text?.isSome
  | _ => false

theorem Stmt.isIgnorable_resolve (s : Stmt) (scan : Scan) (source : List Char) :
    (s.resolve scan source).isIgnorable = s.isIgnored := by
  cases s <;> rfl

namespace Block

/-- A statement declares a check. Its call is written as some of its tokens, and the columns are those
    of the references in them, each in the turn of its first one. -/
inductive DeclaresInTurn (named : String → Option Char) (whole : List Token) :
    Stmt → Check → Prop
  | declared {extent : Extent} {word call : Expr} {name : String} {marked : Bool}
      {predicate : Callable} {own : List Token} {columns : List String}
      (htokens : own <:+: extent.tokensOf whole) (hwritten : Written named own call (columns.map some)) :
      DeclaresInTurn named whole (.expr extent (.call word [.literal (.text name marked), call] [] []))
        ⟨name, predicate, columns.eraseDups⟩

theorem declaresInTurn_of_declares {named : String → Option Char} {whole : List Token} {scope : Scope}
    {extent : Extent} {e : Expr} {check : Check} (hspelled : (Stmt.expr extent e).Spelled named whole)
    (h : e.Declares scope check) : DeclaresInTurn named whole (.expr extent e) check := by
  cases h with
  | @declared word function args name marked path columns target predicate hword hpath hcolumn hargs
      hpositional hcolumns hreferring hresolved hcallable =>
    have hplain := hpath.isWord_eq_false hcolumn
    rw [← refers_call_iff hpath hplain, refers_iff_markers] at hcolumns
    cases hspelled with
    | expr hwritten =>
      have hcall : call function args [] [] ∈
          (call word [.literal (.text name marked), .call function args [] []] [] []).children := by
        simp [children]
      obtain ⟨own, htokens, hown⟩ := hwritten.exists_child rfl hcall
      rw [hcolumns] at hown
      exact .declared htokens hown

/-- Compiling statements that are spelled where they stand makes their checks with the columns in
    turn. -/
theorem forall₂_of_compileFrom {named : String → Option Char} {whole : List Token} {scope : Scope}
    {scan : Scan} {source : List Char} {body : List Stmt} (hspelled : ∀ s ∈ body, s.Spelled named whole)
    {done checks : List Check}
    (h : compileFrom scope done (body.map (Stmt.resolve scan source)) = .ok checks) :
    ∃ more, checks = done ++ more ∧
      List.Forall₂ (DeclaresInTurn named whole) (body.filter fun s => !s.isIgnored) more := by
  induction body generalizing done with
  | nil =>
    cases h
    exact ⟨[], (List.append_nil _).symm, .nil⟩
  | cons s rest ih =>
    rw [List.forall_mem_cons] at hspelled
    rw [List.map_cons] at h
    have hstep := compileFrom_cons_eq_ok h
    rw [Stmt.isIgnorable_resolve] at hstep
    rcases hstep with ⟨hignored, h⟩ | ⟨hkept, check, hform, -, h⟩
    · rw [List.filter_cons_of_neg (by simp [hignored])]
      exact ih hspelled.2 h
    · rw [List.filter_cons_of_pos (by simp [hkept])]
      obtain ⟨more, rfl, hmore⟩ := ih hspelled.2 h
      refine ⟨check :: more, (List.append_cons ..).symm, .cons ?_ hmore⟩
      obtain ⟨e, hexpression, hdeclares⟩ := (Statement.checkOfForm_eq_ok_iff scope _ check).mp hform
      cases s with
      | expr extent value =>
        cases hexpression
        exact declaresInTurn_of_declares hspelled.1 hdeclares
      | _ => cases hexpression

theorem spelled_firstBody? {named : String → Option Char} {whole : List Token}
    {statements body : List Stmt} (hspelled : ∀ s ∈ statements, s.Spelled named whole)
    (h : firstBody? statements = some body) : ∀ s ∈ body, s.Spelled named whole := by
  fun_induction firstBody? statements with
  | case1 => cases h
  | case2 =>
    cases h
    cases hspelled _ List.mem_cons_self with
    | function hbody => exact hbody
  | case3 s rest _ ih => exact ih (fun t ht => hspelled t (List.mem_cons_of_mem _ ht)) h

theorem exists_declarations_of_text {scope : Scope} {name text : String} {set : CheckSet}
    (h : compileText scope name text = .ok set) :
    ∃ statements scan, Grammar.readBlock scope.language.named? (Text.Margin.remove text.toList) =
        .ok (statements, scan) ∧
      List.Forall₂ (DeclaresInTurn scope.language.named? scan.tokens)
        (statements.filter fun s => !s.isIgnored) set.checks := by
  obtain ⟨body, hbody, hcompile⟩ := compileText_eq_ok_iff.mp h
  obtain ⟨-, statements, scan, hread, rfl⟩ := read_eq_ok_iff.mp hbody
  obtain ⟨more, hmore, hall⟩ := forall₂_of_compileFrom (Grammar.spelled_of_readTextAt hread)
    (exists_compileFrom_of_compile hcompile)
  rw [hmore]
  exact ⟨statements, scan, hread, hall⟩

theorem exists_declarations_of_definition {d : Definition} {name : String} {set : CheckSet}
    (h : d.compile name = .ok set) :
    ∃ text statements scan body, d.source = some text ∧
      Grammar.readDefinition d.globals.language.named? (Text.Margin.remove text.toList) =
        .ok (statements, scan) ∧
      firstBody? statements = some body ∧
      List.Forall₂ (DeclaresInTurn d.globals.language.named? scan.tokens)
        (body.filter fun s => !s.isIgnored) set.checks := by
  obtain ⟨resolved, hbody, scope, -, hcompile⟩ := Definition.compile_eq_ok_iff.mp h
  obtain ⟨text, statements, scan, body, hsource, -, hread, hfirst, rfl⟩ :=
    Definition.body_eq_ok_iff.mp hbody
  have hspelled := spelled_firstBody? (Grammar.spelled_of_readTextAt hread) hfirst
  obtain ⟨more, hmore, hall⟩ :=
    forall₂_of_compileFrom hspelled (exists_compileFrom_of_compile hcompile)
  rw [hmore]
  exact ⟨text, statements, scan, body, hsource, hread, hfirst, hall⟩

/-- The columns of every check that is compiled, from a text or from the body of a function, are those
    of the references in the tokens of its call, in turn. -/
theorem compiled_columns_in_turn (name : String) :
    (∀ (scope : Scope) text set, compileText scope name text = .ok set →
      ∃ statements scan, Grammar.readBlock scope.language.named? (Text.Margin.remove text.toList) =
          .ok (statements, scan) ∧
        List.Forall₂ (DeclaresInTurn scope.language.named? scan.tokens)
          (statements.filter fun s => !s.isIgnored) set.checks) ∧
    ∀ (d : Definition) set, d.compile name = .ok set →
      ∃ text statements scan body, d.source = some text ∧
        Grammar.readDefinition d.globals.language.named? (Text.Margin.remove text.toList) =
          .ok (statements, scan) ∧
        firstBody? statements = some body ∧
        List.Forall₂ (DeclaresInTurn d.globals.language.named? scan.tokens)
          (body.filter fun s => !s.isIgnored) set.checks :=
  ⟨fun _ _ _ h => exists_declarations_of_text h, fun _ _ h => exists_declarations_of_definition h⟩

/-- A declaration of a check whose predicate is called with one argument. -/
def lineOf (argument : String) : String :=
  "check(\"a\", first_of(" ++ argument ++ "))\n"

def definitionOf (argument : String) : Definition :=
  ⟨"f", some ("def f():\n  " ++ lineOf argument), Scope.library, []⟩

/-- A conditional expression, whose test stands behind the value in front. -/
def conditionalText : String :=
  "col(\"b\") if col(\"a\") else col(\"c\")"

theorem compiled_columns_in_turn_conditional :
    (∃ set, compileText Scope.library "set" (lineOf conditionalText) = .ok set ∧
      ∃ statements scan,
        Grammar.readBlock Scope.library.language.named?
            (Text.Margin.remove (lineOf conditionalText).toList) = .ok (statements, scan) ∧
        List.Forall₂ (DeclaresInTurn Scope.library.language.named? scan.tokens)
          (statements.filter fun s => !s.isIgnored) set.checks) ∧
    ∃ set, (definitionOf conditionalText).compile "set" = .ok set ∧
      ∃ text statements scan body, (definitionOf conditionalText).source = some text ∧
        Grammar.readDefinition Scope.library.language.named? (Text.Margin.remove text.toList) =
          .ok (statements, scan) ∧
        firstBody? statements = some body ∧
        List.Forall₂ (DeclaresInTurn Scope.library.language.named? scan.tokens)
          (body.filter fun s => !s.isIgnored) set.checks := by
  have htext : (compileText Scope.library "set" (lineOf conditionalText)).isOk = true := by
    decide +kernel
  have hdefinition : ((definitionOf conditionalText).compile "set").isOk = true := by
    decide +kernel
  constructor
  · cases h : compileText Scope.library "set" (lineOf conditionalText) with
    | error fault =>
      rw [h] at htext
      cases htext
    | ok set => exact ⟨set, rfl, (compiled_columns_in_turn "set").1 _ _ set h⟩
  · cases h : (definitionOf conditionalText).compile "set" with
    | error fault =>
      rw [h] at hdefinition
      cases hdefinition
    | ok set => exact ⟨set, rfl, (compiled_columns_in_turn "set").2 _ set h⟩

/-- The texts of the references among tokens, in the order of the text. -/
def referenceTexts : List Token → List String
  | .name "col" :: .op "(" :: .text lexeme :: rest => String.ofList lexeme :: referenceTexts rest
  | _ :: rest => referenceTexts rest
  | [] => []

/-- The columns of the check that is declared with an argument, and the texts of the references in its
    line. -/
def columnsAndTexts (argument : String) : List String × List String :=
  (((compileText Scope.library "set" (lineOf argument)).toOption.elim [] CheckSet.checks).flatMap
    Check.columns, referenceTexts (Token.scan (lineOf argument).toList).tokens)

/-- In a conditional, a dictionary, a call with named arguments and a function with parameters that are
    passed by name only, the columns need not stand in the order of the text. -/
theorem compiled_columns_against_text :
    columnsAndTexts conditionalText = (["a", "b", "c"], ["\"b\"", "\"a\"", "\"c\""]) ∧
      columnsAndTexts "\x7bcol(\"b\"): col(\"a\"), col(\"c\"): 1\x7d" =
        (["b", "c", "a"], ["\"b\"", "\"a\"", "\"c\""]) ∧
      columnsAndTexts "f(k=col(\"b\"), *col(\"a\"))" = (["a", "b"], ["\"b\"", "\"a\""]) ∧
      columnsAndTexts "lambda p=col(\"b\"), *, q=col(\"a\"): p" =
        (["a", "b"], ["\"b\"", "\"a\""]) := by
  decide +kernel

end Block

end TableAudit
