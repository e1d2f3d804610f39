import HaskellTags.Tree.Grammar
import Mathlib.Data.List.Forall2
import Mathlib.Data.Option.Basic

/-!
# Trees that shed comments

A grammar hangs comments anywhere into a tree.  One tree sheds another's comments
if it is the same but for some bare comments, at any depth, that are left out.
The relation is defined on lists of children, where a child is dropped or kept,
and every way of looking up a node respects it: what is found in the one tree is
found in the other, with comments shed below it.
-/

namespace HaskellTags
namespace Tree
namespace Node

section Relations

/-- A comment with nothing below it that fills no field. -/
def isBareComment (n : Node) : Bool :=
  n.isComment && n.children.isEmpty && n.label.field.isNone

/-- The later nodes are the earlier ones without some bare comments among them
and below them. -/
inductive ShedsIn : List Node → List Node → Prop
  | nil :
      ShedsIn [] []
  | drop
      {c : Node} {ns ms : List Node}
      (hcomment : c.isBareComment = true)
      (hrest : ShedsIn ns ms) :
      ShedsIn (c :: ns) ms
  | keep
      {l : Label} {cs ds ns ms : List Node}
      (hbelow : ShedsIn cs ds)
      (hrest : ShedsIn ns ms) :
      ShedsIn (.node l cs :: ns) (.node l ds :: ms)

/-- The later tree is the earlier one without some bare comments below it. -/
structure Sheds (n m : Node) : Prop where
  label_eq : n.label = m.label
  below : ShedsIn n.children m.children

theorem Sheds.type_eq
    {n m : Node}
    (h : Sheds n m) :
    n.type = m.type :=
  congrArg Label.type h.label_eq

theorem Sheds.isComment_eq
    {n m : Node}
    (h : Sheds n m) :
    n.isComment = m.isComment := by
  rw [isComment, isComment, h.type_eq]

theorem sheds_node
    {l : Label} {cs ds : List Node}
    (h : ShedsIn cs ds) :
    Sheds (.node l cs) (.node l ds) :=
  ⟨rfl, h⟩

theorem isComment_of_bare
    {c : Node}
    (hc : c.isBareComment = true) :
    c.isComment = true := by
  simp only [isBareComment, Bool.and_eq_true] at hc
  exact hc.1.1

theorem children_of_bare
    {c : Node}
    (hc : c.isBareComment = true) :
    c.children = [] := by
  simp only [isBareComment, Bool.and_eq_true, List.isEmpty_iff] at hc
  exact hc.1.2

theorem field_of_bare
    {c : Node}
    (hc : c.isBareComment = true) :
    c.label.field = none := by
  simp only [isBareComment, Bool.and_eq_true, Option.isNone_iff_eq_none] at hc
  exact hc.2

/-- A list of types without comments has none that a bare comment could have. -/
theorem not_contains_of_bare
    {c : Node} {types : List String}
    (hc : c.isBareComment = true)
    (htypes : ∀ type ∈ types, Grammar.comments.contains type = false) :
    types.contains c.type = false := by
  rw [List.contains_eq_mem, decide_eq_false_iff_not]
  intro hmem
  have hcomment := isComment_of_bare hc
  rw [isComment, htypes c.type hmem] at hcomment
  cases hcomment

theorem outermost_eq_nil_of_bare
    {c : Node}
    (hc : c.isBareComment = true)
    (types : List String) :
    c.outermost types = [] := by
  have hchildren := children_of_bare hc
  cases c with
  | node l cs =>
      rw [children] at hchildren
      rw [hchildren, outermost, outermostIn]

end Relations

section Lists

/-- Nodes chosen by their labels. -/
theorem ShedsIn.filter
    {ns ms : List Node}
    (h : ShedsIn ns ms)
    (p : Node → Bool)
    (hp : ∀ n m : Node, n.label = m.label → p n = p m) :
    ShedsIn (ns.filter p) (ms.filter p) := by
  induction h with
  | nil =>
      exact .nil
  | @drop c ns ms hcomment hrest ih =>
      rw [List.filter_cons]
      split
      · exact .drop hcomment ih
      · exact ih
  | @keep l cs ds ns ms hbelow hrest _ ih =>
      rw [List.filter_cons, List.filter_cons,
        hp (.node l cs) (.node l ds) rfl]
      split
      · exact .keep hbelow ih
      · exact ih

/-- Where there is no bare comment, the nodes go in parallel. -/
theorem ShedsIn.forall₂
    {ns ms : List Node}
    (h : ShedsIn ns ms)
    (hns : ∀ n ∈ ns, n.isBareComment = false) :
    List.Forall₂ Sheds ns ms := by
  induction h with
  | nil =>
      exact .nil
  | @drop c ns ms hcomment hrest ih =>
      rw [hns c List.mem_cons_self] at hcomment
      cases hcomment
  | @keep l cs ds ns ms hbelow hrest _ ih =>
      refine .cons (sheds_node hbelow) (ih ?_)
      intro n hn
      exact hns n (List.mem_cons_of_mem _ hn)

/-- Nodes chosen by their labels, bare comments never. -/
theorem ShedsIn.forall₂_filter
    {ns ms : List Node}
    (h : ShedsIn ns ms)
    (p : Node → Bool)
    (hp : ∀ n m : Node, n.label = m.label → p n = p m)
    (hbare : ∀ c : Node, c.isBareComment = true → p c = false) :
    List.Forall₂ Sheds (ns.filter p) (ms.filter p) := by
  apply (h.filter p hp).forall₂
  intro n hn
  have hpn := List.of_mem_filter hn
  by_contra hcomment
  rw [hbare n (by simpa using hcomment)] at hpn
  cases hpn

theorem ShedsIn.forall₂_flatMap
    {ns ms : List Node}
    (h : ShedsIn ns ms)
    (f : Node → List Node)
    (hf : ∀ n m : Node, Sheds n m → List.Forall₂ Sheds (f n) (f m))
    (hbare : ∀ c : Node, c.isBareComment = true → f c = []) :
    List.Forall₂ Sheds (ns.flatMap f) (ms.flatMap f) := by
  induction h with
  | nil =>
      exact .nil
  | @drop c ns ms hcomment hrest ih =>
      rw [List.flatMap_cons, hbare c hcomment]
      exact ih
  | @keep l cs ds ns ms hbelow hrest _ ih =>
      rw [List.flatMap_cons, List.flatMap_cons]
      exact List.rel_append (hf _ _ (sheds_node hbelow)) ih

/-- What is found first, if bare comments are nothing to be found. -/
theorem ShedsIn.rel_findSome?
    {ns ms : List Node}
    (h : ShedsIn ns ms)
    (f : Node → Option Node)
    (hf : ∀ n m : Node, Sheds n m → Option.Rel Sheds (f n) (f m))
    (hbare : ∀ c : Node, c.isBareComment = true → f c = none) :
    Option.Rel Sheds (ns.findSome? f) (ms.findSome? f) := by
  induction h with
  | nil =>
      exact .none
  | @drop c ns ms hcomment hrest ih =>
      rw [List.findSome?_cons, hbare c hcomment]
      exact ih
  | @keep l cs ds ns ms hbelow hrest _ ih =>
      rw [List.findSome?_cons, List.findSome?_cons]
      have hfirst : Option.Rel Sheds (f (.node l cs)) (f (.node l ds)) :=
        hf _ _ (sheds_node hbelow)
      generalize f (.node l cs) = found at hfirst ⊢
      generalize f (.node l ds) = kept at hfirst ⊢
      cases hfirst with
      | some hfound =>
          exact .some hfound
      | none =>
          exact ih

theorem ShedsIn.takeWhile
    {ns ms : List Node}
    (h : ShedsIn ns ms)
    (p : Node → Bool)
    (hp : ∀ n m : Node, n.label = m.label → p n = p m)
    (hbare : ∀ c : Node, c.isBareComment = true → p c = true) :
    ShedsIn (ns.takeWhile p) (ms.takeWhile p) := by
  induction h with
  | nil =>
      exact .nil
  | @drop c ns ms hcomment hrest ih =>
      rw [List.takeWhile_cons, hbare c hcomment]
      exact .drop hcomment ih
  | @keep l cs ds ns ms hbelow hrest _ ih =>
      rw [List.takeWhile_cons, List.takeWhile_cons,
        hp (.node l cs) (.node l ds) rfl]
      split
      · exact .keep hbelow ih
      · exact .nil

theorem ShedsIn.any_eq
    {ns ms : List Node}
    (h : ShedsIn ns ms)
    (p : Node → Bool)
    (hp : ∀ n m : Node, n.label = m.label → p n = p m)
    (hbare : ∀ c : Node, c.isBareComment = true → p c = false) :
    ns.any p = ms.any p := by
  induction h with
  | nil =>
      rfl
  | @drop c ns ms hcomment hrest ih =>
      rw [List.any_cons, hbare c hcomment, Bool.false_or]
      exact ih
  | @keep l cs ds ns ms hbelow hrest _ ih =>
      rw [List.any_cons, List.any_cons, ih,
        hp (.node l cs) (.node l ds) rfl]

/-- What one lookup finds, or else another one. -/
theorem rel_or
    {found kept found' kept' : Option Node}
    (h : Option.Rel Sheds found kept)
    (h' : Option.Rel Sheds found' kept') :
    Option.Rel Sheds (found.or found') (kept.or kept') := by
  cases h with
  | some hfound =>
      exact .some hfound
  | none =>
      exact h'

theorem map_eq_map_of_rel
    {α : Type}
    {found kept : Option Node}
    (h : Option.Rel Sheds found kept)
    {f g : Node → α}
    (hfg : ∀ n m : Node, Sheds n m → f n = g m) :
    found.map f = kept.map g := by
  cases h with
  | some hfound =>
      exact congrArg some (hfg _ _ hfound)
  | none =>
      rfl

theorem map_eq_map_of_forall₂
    {α : Type}
    {ns ms : List Node}
    (h : List.Forall₂ Sheds ns ms)
    {f : Node → α}
    (hf : ∀ n ∈ ns, ∀ m : Node, Sheds n m → f n = f m) :
    ns.map f = ms.map f := by
  induction h with
  | nil =>
      rfl
  | @cons n m ns ms hfirst hrest ih =>
      rw [List.map_cons, List.map_cons, hf n List.mem_cons_self m hfirst, ih]
      intro n' hn'
      exact hf n' (List.mem_cons_of_mem n hn')

/-- The first node, if it is no bare comment. -/
theorem ShedsIn.rel_head?
    {ns ms : List Node}
    (h : ShedsIn ns ms)
    (hfirst : ∀ n : Node, ns.head? = some n → n.isBareComment = false) :
    Option.Rel Sheds ns.head? ms.head? := by
  cases h with
  | nil =>
      exact .none
  | @drop c ns ms hcomment hrest =>
      rw [hfirst c rfl] at hcomment
      cases hcomment
  | @keep l cs ds ns ms hbelow hrest =>
      exact .some (sheds_node hbelow)

theorem rel_head?
    {ns ms : List Node}
    (h : List.Forall₂ Sheds ns ms) :
    Option.Rel Sheds ns.head? ms.head? := by
  cases h with
  | nil =>
      exact .none
  | cons hfirst hrest =>
      exact .some hfirst

end Lists

section Lookup

theorem Sheds.namedChildren
    {n m : Node}
    (h : Sheds n m) :
    ShedsIn n.namedChildren m.namedChildren :=
  h.below.filter _ fun _ _ hlabel => by rw [hlabel]

theorem Sheds.headChildren
    {n m : Node}
    (h : Sheds n m) :
    ShedsIn n.headChildren m.headChildren := by
  apply h.below.takeWhile
  · intro a b hlabel
    rw [type, type, hlabel]
  · intro c hc
    rw [not_contains_of_bare hc (by decide)]
    rfl

theorem Sheds.rel_childByField
    {n m : Node}
    (h : Sheds n m)
    (field : String) :
    Option.Rel Sheds (n.childByField field) (m.childByField field) := by
  rw [childByField, childByField, ← List.head?_filter, ← List.head?_filter]
  apply rel_head?
  apply h.below.forall₂_filter
  · intro a b hlabel
    rw [hlabel]
  · intro c hc
    simp [field_of_bare hc]

theorem Sheds.hasToken_eq
    {n m : Node}
    (h : Sheds n m)
    (token : String)
    (htoken : Grammar.comments.contains token = false) :
    n.hasToken token = m.hasToken token := by
  apply h.below.any_eq
  · intro a b hlabel
    rw [type, type, hlabel]
  · intro c hc
    have hne : [token].contains c.type = false :=
      not_contains_of_bare hc (by simpa using htoken)
    simpa using hne

/-- The outermost nodes of some types, comments not among them. -/
theorem ShedsIn.forall₂_outermostIn
    {ns ms : List Node}
    (h : ShedsIn ns ms)
    (types : List String)
    (htypes : ∀ type ∈ types, Grammar.comments.contains type = false) :
    List.Forall₂ Sheds (outermostIn types ns) (outermostIn types ms) := by
  induction h with
  | nil =>
      exact .nil
  | @drop c ns ms hcomment hrest ih =>
      rw [outermostIn, not_contains_of_bare hcomment htypes,
        outermost_eq_nil_of_bare hcomment]
      exact ih
  | @keep l cs ds ns ms hbelow hrest ihbelow ih =>
      rw [outermostIn, outermostIn]
      refine List.rel_append ?_ ih
      change List.Forall₂ Sheds
        (if types.contains l.type then [.node l cs] else outermostIn types cs)
        (if types.contains l.type then [.node l ds] else outermostIn types ds)
      split
      · exact .cons (sheds_node hbelow) .nil
      · exact ihbelow

theorem Sheds.forall₂_outermost
    {n m : Node}
    (h : Sheds n m)
    (types : List String)
    (htypes : ∀ type ∈ types, Grammar.comments.contains type = false) :
    List.Forall₂ Sheds (n.outermost types) (m.outermost types) := by
  obtain ⟨hlabel, hbelow⟩ := h
  cases n with
  | node l cs =>
      cases m with
      | node k ds =>
          rw [outermost, outermost]
          exact hbelow.forall₂_outermostIn types htypes

theorem Sheds.rel_firstOf
    {n m : Node}
    (h : Sheds n m)
    (types : List String)
    (htypes : ∀ type ∈ types, Grammar.comments.contains type = false) :
    Option.Rel Sheds (n.firstOf types) (m.firstOf types) :=
  rel_head? (h.forall₂_outermost types htypes)

end Lookup

end Node
end Tree
end HaskellTags
