import HaskellTags.Proofs.Outline.SourceOrder

/-!
# Constructors between their operands

A constructor declaration without a name of its own is named by the first node below it that
can name a constructor.  In `a :*: b` that is the operator, since the operands are types and
a type is named by a node of another type.  But an operand may hold an operator of types,
which is written like one of constructors: in `(a :+: b) :*: c` the first such node is `:+:`.

So the operator names the constructor exactly if nothing before it can name one, and
otherwise the first node that can does.
-/

namespace HaskellTags
namespace Outline

open Text HaskellTags.Tree Tree.Node

section Operators

/-- The type of an operator of constructors. -/
def constructorOperator : String := "constructor_operator"

/-- A node can name a constructor. -/
def namesConstructor (m : Node) : Bool :=
  constructorTypes.contains m.type

/-- The children before the first one that fills a field. -/
def childrenBefore (field : String) (n : Node) : List Node :=
  n.children.takeWhile fun c => c.label.field ≠ some field

/-- A constructor declaration without a name of its own that has, after some other children,
operands with an operator of constructors between them. -/
structure HasInfix (con form operator : Node) (lead : List Node) : Prop where
  con_type : con.type = "data_constructor" ∨ con.type = "newtype_constructor"
  unnamed : con.childByField "name" = none
  child : ∃ rest : List Node, con.children = lead ++ form :: rest
  form_type : form.type = Grammar.infixForm
  operator_eq : form.childByField "operator" = some operator
  operator_type : operator.type = constructorOperator

/-- What stands before the operator of a constructor declaration. -/
def beforeOperator (form : Node) (lead : List Node) : List Node :=
  lead ++ childrenBefore "operator" form

/-- The node that names the constructor: the first one that can, or else the operator. -/
def givesName (form operator : Node) (lead : List Node) : Node :=
  ((nodesIn (beforeOperator form lead)).find? namesConstructor).getD operator

theorem children_of_childByField
    {field : String} {n c : Node}
    (h : n.childByField field = some c) :
    ∃ rest : List Node, n.children = childrenBefore field n ++ c :: rest := by
  obtain ⟨hfield, before, rest, hsplit, hbefore⟩ := List.find?_eq_some_iff_append.1 h
  have hc : c.label.field = some field := by
    simpa using hfield
  have htake : childrenBefore field n = before := by
    rw [childrenBefore, hsplit, List.takeWhile_append_of_pos (by simpa using hbefore)]
    simp [hc]
  exact ⟨rest, by rw [htake, hsplit]⟩

variable {con form operator : Node} {lead : List Node}

/-- The first node that can name a constructor stands before the operator, or is the
operator. -/
theorem firstOf_of_hasInfix
    (h : HasInfix con form operator lead) :
    con.firstOf constructorTypes = some (givesName form operator lead) := by
  obtain ⟨rest, hrest⟩ := h.child
  obtain ⟨right, hright⟩ := children_of_childByField h.operator_eq
  have hform : namesConstructor form = false := by
    rw [namesConstructor, h.form_type]
    rfl
  have hoperator : namesConstructor operator = true := by
    rw [namesConstructor, h.operator_type]
    rfl
  have hfound :
      (nodesIn con.children).find? namesConstructor =
        ((nodesIn (beforeOperator form lead)).find? namesConstructor).or (some operator) := by
    rw [hrest, beforeOperator, nodesIn_append, nodesIn_append, nodesIn, nodes_eq, hright,
      nodesIn_append, nodesIn, nodes_eq]
    simp [hform, hoperator]
  rw [firstOf_eq_find?, givesName]
  refine hfound.trans ?_
  cases (nodesIn (beforeOperator form lead)).find? namesConstructor <;> rfl

theorem constructorsOf_of_hasInfix
    (h : HasInfix con form operator lead)
    (src : Source) :
    constructorsOf src con =
      [⟨spanOf src con, nameOf src (givesName form operator lead)⟩] := by
  have htype : con.type ≠ Grammar.typedConstructor := by
    rcases h.con_type with htype | htype
    · rw [htype]
      decide
    · rw [htype]
      decide
  rw [constructorsOf, constructorNames, if_neg htype, h.unnamed, firstOf_of_hasInfix h]
  rfl

theorem nameOf_of_hasInfix
    (h : HasInfix con form operator lead)
    (src : Source) :
    nameOf src operator = ⟨operator.text src.octets, spanOf src operator, true⟩ := by
  have hnode : nameNode operator = operator := by
    rw [nameNode, h.operator_type]
    rfl
  rw [nameOf, hnode, h.operator_type]
  rfl

theorem form_mem_children
    (h : HasInfix con form operator lead) :
    form ∈ con.children := by
  obtain ⟨rest, hrest⟩ := h.child
  rw [hrest]
  exact List.mem_append_right lead List.mem_cons_self

theorem nodesIn_beforeOperator_subset
    (h : HasInfix con form operator lead) :
    nodesIn (beforeOperator form lead) ⊆ con.nodes := by
  obtain ⟨rest, hrest⟩ := h.child
  intro m hm
  rw [beforeOperator, nodesIn_append, List.mem_append] at hm
  rcases hm with hlead | hleft
  · have hsub : lead ⊆ con.children := by
      rw [hrest]
      exact List.subset_append_left lead _
    exact nodesIn_children_subset con (nodesIn_mono hsub hlead)
  · have hsub : childrenBefore "operator" form ⊆ form.children :=
      (List.takeWhile_sublist _).subset
    exact nodes_subset_of_mem_children (form_mem_children h)
      (nodesIn_children_subset form (nodesIn_mono hsub hleft))

/-- In a well-placed declaration what stands before the operator ends before it starts. -/
theorem before_of_mem_beforeOperator
    (h : HasInfix con form operator lead)
    (hplaced : con.WellPlaced)
    {m : Node}
    (hm : m ∈ nodesIn (beforeOperator form lead)) :
    m.Before operator := by
  obtain ⟨rest, hrest⟩ := h.child
  obtain ⟨right, hright⟩ := children_of_childByField h.operator_eq
  have hform : form.WellPlaced := hplaced.of_mem_children (form_mem_children h)
  rw [beforeOperator, nodesIn_append, List.mem_append] at hm
  rcases hm with hlead | hleft
  · have hwithin : operator.Within form :=
      hform.arranged.within operator (mem_children_of_childByField h.operator_eq)
    exact (hplaced.before_of_mem_nodesIn hrest hlead).of_within (Within.refl m) hwithin
  · exact hform.before_of_mem_nodesIn hright hleft

/-- A name before an operator that is not empty has another place. -/
theorem span_ne_of_before
    {m operator : Node}
    (hplaced : m.WellPlaced)
    (hbefore : m.Before operator)
    (hsome : ¬ operator.label.stop ≤ operator.label.start)
    (src : Source) :
    (nameOf src m).span ≠ spanOf src operator := by
  intro hspan
  have hwithin : (nameNode m).Within m := within_of_mem_nodes hplaced (nameNode_mem m)
  apply hsome
  rw [← fromOne_le_fromOne_iff, ← stop_spanOf src, ← start_spanOf src]
  calc
    (spanOf src operator).stop = (nameOf src m).span.stop := by rw [hspan]
    _ ≤ (spanOf src m).stop := (spanOf_within hwithin).2
    _ ≤ (spanOf src operator).start := stop_spanOf_le_start src hbefore

end Operators

section Declarations

theorem declOf_constructors_of_head
    (src : Source)
    {n : Node}
    (htype : n.type = Grammar.dataType ∨ n.type = Grammar.newtype)
    (hhead : typeName n ≠ none) :
    (declOf src n).1.constructors =
      (n.outermost Grammar.constructors).flatMap (constructorsOf src) := by
  obtain ⟨head, hhead⟩ := Option.ne_none_iff_exists'.1 hhead
  have hdata : ∀ form : DataForm,
      (dataOf src form n).1.constructors =
        (n.outermost Grammar.constructors).flatMap (constructorsOf src) := by
    intro form
    rw [dataOf, hhead]
    rfl
  rcases htype with htype | htype
  · have hdecl : declOf src n = dataOf src .data n := by
      rw [declOf, htype]
      rfl
    rw [hdecl, hdata]
  · have hdecl : declOf src n = dataOf src .newtype n := by
      rw [declOf, htype]
      rfl
    rw [hdecl, hdata]

/-- Among the constructors of a type the one with an operator between operands is named by
the operator if nothing before the operator can name a constructor, and otherwise by the
first node that can.  In a well-placed declaration it is therefore found at the operator in
the first case only. -/
theorem infix_constructor_named_by_first
    (src : Source)
    {n con form operator : Node} {lead cons cons' : List Node}
    (htype : n.type = Grammar.dataType ∨ n.type = Grammar.newtype)
    (hhead : typeName n ≠ none)
    (hcons : n.outermost Grammar.constructors = cons ++ con :: cons')
    (h : HasInfix con form operator lead) :
    ∃ name : Name,
      (declOf src n).1.constructors =
        cons.flatMap (constructorsOf src) ++
          ⟨spanOf src con, name⟩ :: cons'.flatMap (constructorsOf src) ∧
      ((∀ m ∈ nodesIn (beforeOperator form lead), namesConstructor m = false) →
        name = ⟨operator.text src.octets, spanOf src operator, true⟩) ∧
      (∀ m : Node, (nodesIn (beforeOperator form lead)).find? namesConstructor = some m →
        name = nameOf src m) ∧
      (con.WellPlaced → ¬ operator.label.stop ≤ operator.label.start →
        (name.span = spanOf src operator ↔
          ∀ m ∈ nodesIn (beforeOperator form lead), namesConstructor m = false)) := by
  have hnone :
      (nodesIn (beforeOperator form lead)).find? namesConstructor = none ↔
        ∀ m ∈ nodesIn (beforeOperator form lead), namesConstructor m = false := by
    simp only [List.find?_eq_none, Bool.not_eq_true]
  refine ⟨nameOf src (givesName form operator lead), ?_, ?_, ?_, ?_⟩
  · rw [declOf_constructors_of_head src htype hhead, hcons, List.flatMap_append,
      List.flatMap_cons, constructorsOf_of_hasInfix h]
    rfl
  · intro hfree
    rw [givesName, hnone.2 hfree]
    exact nameOf_of_hasInfix h src
  · intro m hm
    rw [givesName, hm]
    rfl
  · intro hplaced hsome
    rw [← hnone, givesName]
    cases hfound : (nodesIn (beforeOperator form lead)).find? namesConstructor with
    | none =>
        refine iff_of_true ?_ rfl
        exact congrArg Name.span (nameOf_of_hasInfix h src)
    | some m =>
        have hm : m ∈ nodesIn (beforeOperator form lead) := List.mem_of_find?_eq_some hfound
        have hmPlaced : m.WellPlaced :=
          hplaced.of_mem_nodes (nodesIn_beforeOperator_subset h hm)
        refine iff_of_false ?_ (Option.some_ne_none m)
        exact span_ne_of_before hmPlaced (before_of_mem_beforeOperator h hplaced hm) hsome src

namespace Operands

def first : Row := ⟨0, 0⟩

/-- An operator between two operands. -/
def form (field : String) (start stop : Nat) (left operator right : Node) : Node :=
  first.node "infix" (some field) start stop [left, operator, right]

def typeNode (field : String) (start : Nat) : Node :=
  first.node "name" (some field) start (start + 1) []

def operatorNode (start : Nat) : Node :=
  first.node "constructor_operator" (some "operator") start (start + 3) []

/-- Two types with an operator between them, in parentheses. -/
def sum (field : String) (start : Nat) : Node :=
  first.node "parens" (some field) start (start + 9) [
    form "type" (start + 1) (start + 8) (typeNode "left_operand" (start + 1))
      (operatorNode (start + 3)) (typeNode "right_operand" (start + 7))]

/-- A constructor with an operator, which starts at the blank after the equals sign: so the
grammar has it where an operand comes first. -/
def constructor (form : Node) : Node :=
  first.node "data_constructor" (some "constructor") 8 24 [form]

/-- The declaration of a type with one constructor. -/
def declaration (constructor : Node) : Node :=
  first.node "data_type" none 0 24 [
    first.token "data" 0, typeNode "name" 5, first.token "=" 7,
    first.node "data_constructors" (some "constructors") 8 24 [constructor]]

def onTheRight : Source := ⟨"M.hs", octetsOf "data T = A :*: (B :+: C)"⟩

def rightForm : Node :=
  form "constructor" 8 24 (typeNode "left_operand" 9) (operatorNode 11) (sum "right_operand" 15)

def onTheLeft : Source := ⟨"M.hs", octetsOf "data T = (A :+: B) :*: C"⟩

def leftForm : Node :=
  form "constructor" 8 24 (sum "left_operand" 9) (operatorNode 19) (typeNode "right_operand" 23)

theorem hasInfix_right :
    HasInfix (constructor rightForm) rightForm (operatorNode 11) [] :=
  ⟨.inl rfl, rfl, ⟨[], rfl⟩, rfl, rfl, rfl⟩

theorem hasInfix_left :
    HasInfix (constructor leftForm) leftForm (operatorNode 19) [] :=
  ⟨.inl rfl, rfl, ⟨[], rfl⟩, rfl, rfl, rfl⟩

end Operands

/-- An operator of types in the right operand does not matter. -/
theorem infix_constructor_named_by_first_right :
    HasInfix (Operands.constructor Operands.rightForm) Operands.rightForm
        (Operands.operatorNode 11) [] ∧
      (declOf Operands.onTheRight
          (Operands.declaration (Operands.constructor Operands.rightForm))).1.constructors =
        [⟨⟨"M.hs", 1, 9, 1, 25⟩, ⟨":*:", ⟨"M.hs", 1, 12, 1, 15⟩, true⟩⟩] := by
  have hhead :
      typeName (Operands.declaration (Operands.constructor Operands.rightForm)) ≠ none :=
    Option.some_ne_none (Operands.typeNode "name" 5)
  have hcons :
      (Operands.declaration (Operands.constructor Operands.rightForm)).outermost
          Grammar.constructors =
        [] ++ Operands.constructor Operands.rightForm :: [] := rfl
  have hfree :
      ∀ m ∈ nodesIn (beforeOperator Operands.rightForm []), namesConstructor m = false := by
    decide
  have htext : (Operands.operatorNode 11).text Operands.onTheRight.octets = ":*:" := by
    decide +kernel
  obtain ⟨name, hname, hoperator, -, -⟩ :=
    infix_constructor_named_by_first Operands.onTheRight (.inl rfl) hhead hcons
      Operands.hasInfix_right
  refine ⟨Operands.hasInfix_right, ?_⟩
  rw [hname, hoperator hfree, htext]
  rfl

/-- The constructor of `(A :+: B) :*: C` is named by the operator of types in its left
operand. -/
theorem left_operand_names_infix_constructor :
    HasInfix (Operands.constructor Operands.leftForm) Operands.leftForm
        (Operands.operatorNode 19) [] ∧
      (Operands.declaration (Operands.constructor Operands.leftForm)).outermost
          Grammar.constructors = [Operands.constructor Operands.leftForm] ∧
      (Operands.operatorNode 19).text Operands.onTheLeft.octets = ":*:" ∧
      (declOf Operands.onTheLeft
          (Operands.declaration (Operands.constructor Operands.leftForm))).1.constructors =
        [⟨⟨"M.hs", 1, 9, 1, 25⟩, ⟨":+:", ⟨"M.hs", 1, 13, 1, 16⟩, true⟩⟩] := by
  refine ⟨Operands.hasInfix_left, rfl, ?_, ?_⟩
  · decide +kernel
  · decide +kernel

end Declarations
end Outline
end HaskellTags
