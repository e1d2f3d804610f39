import Mathlib.Data.List.Forall2

/-!
# Lists in step, side by side and in order

Outlines, sites and tags are lists that correspond element by element, stated by
`List.Forall₂`.  What is known of the elements of one list, or of their order,
passes to the other one.

Lists that stand side by side with a separator between them are looked at one by one
wherever the separator ends what was begun before it, by `apply_intercalate`.

Lists are ordered by the first place where they differ, as the words of a dictionary
are.  `InLexOrder.flatMap` says which encodings keep this order.
-/

namespace HaskellTags
namespace Lists

variable {α β : Type}
variable {R : α → β → Prop} {xs : List α} {ys : List β}

theorem exists_of_mem_right
    (h : List.Forall₂ R xs ys)
    {y : β}
    (hy : y ∈ ys) :
    ∃ x ∈ xs, R x y := by
  induction h with
  | nil =>
      cases hy
  | @cons a b as bs hab hrest ih =>
      rcases List.mem_cons.mp hy with rfl | hlater
      · exact ⟨a, List.mem_cons_self, hab⟩
      · obtain ⟨x, hx, hxy⟩ := ih hlater
        exact ⟨x, List.mem_cons_of_mem a hx, hxy⟩

/-- What holds between the elements of one list, in order, carries over. -/
theorem pairwise_of_forall₂
    {S : α → α → Prop} {T : β → β → Prop}
    (h : List.Forall₂ R xs ys)
    (hxs : xs.Pairwise S)
    (hT : ∀ {a a' : α} {b b' : β}, R a b → R a' b' → S a a' → T b b') :
    ys.Pairwise T := by
  induction h with
  | nil =>
      exact .nil
  | cons hab hrest ih =>
      rw [List.pairwise_cons] at hxs
      refine .cons ?_ (ih hxs.2)
      intro b' hb'
      obtain ⟨a', ha', hab'⟩ := exists_of_mem_right hrest hb'
      exact hT hab hab' (hxs.1 a' ha')

/-- What is taken while a condition holds comes before an element that fails it. -/
theorem mem_of_mem_takeWhile
    {p : α → Bool} {before after : List α} {k x : α}
    (hk : p k = false)
    (hx : x ∈ (before ++ k :: after).takeWhile p) :
    x ∈ before := by
  induction before with
  | nil =>
      rw [List.nil_append, List.takeWhile_cons, hk] at hx
      cases hx
  | cons first before ih =>
      rw [List.cons_append, List.takeWhile_cons] at hx
      split at hx
      · rcases List.mem_cons.mp hx with rfl | hlater
        · exact List.mem_cons_self
        · exact List.mem_cons_of_mem first (ih hlater)
      · cases hx

section Joining

theorem nil_intercalate
    (parts : List (List α)) :
    [].intercalate parts = parts.flatten := by
  induction parts with
  | nil =>
      rfl
  | cons part parts ih =>
      by_cases hnone : parts = []
      · rw [hnone, List.intercalate_singleton]
        exact (List.append_nil part).symm
      · rw [List.intercalate_cons_of_ne_nil hnone, ih, List.append_nil]
        rfl

/-- What goes over one separator goes over all. -/
theorem apply_intercalate
    {f : List α → List β} {separator : α} {between : List β}
    (hf : ∀ xs ys, f (xs ++ separator :: ys) = f xs ++ between ++ f ys)
    {parts : List (List α)}
    (hne : parts ≠ []) :
    f ([separator].intercalate parts) = between.intercalate (parts.map f) := by
  induction parts with
  | nil =>
      exact absurd rfl hne
  | cons part parts ih =>
      by_cases hnone : parts = []
      · rw [hnone, List.map_singleton, List.intercalate_singleton, List.intercalate_singleton]
      · have hmap : parts.map f ≠ [] := by
          simpa using hnone
        rw [List.intercalate_cons_of_ne_nil hnone, List.append_assoc, List.singleton_append,
          hf, ih hnone, List.map_cons, List.intercalate_cons_of_ne_nil hmap]

/-- What a separator parts is collected from the lists one by one. -/
theorem flatMap_intercalate
    {f : List α → List β} {separator : α}
    (hf : ∀ xs ys, f (xs ++ separator :: ys) = f xs ++ f ys)
    {parts : List (List α)}
    (hne : parts ≠ []) :
    f ([separator].intercalate parts) = parts.flatMap f := by
  have hjoin : ∀ xs ys, f (xs ++ separator :: ys) = f xs ++ [] ++ f ys := by
    intro xs ys
    rw [hf, List.append_nil]
  rw [apply_intercalate hjoin hne, nil_intercalate]
  rfl

end Joining

section Order

/-- Where two lists first differ, the first one has the smaller element. -/
def Precedes (lt : α → α → Prop) (xs ys : List α) : Prop :=
  ∃ (common : List α) (x y : α) (xs' ys' : List α),
    xs = common ++ x :: xs' ∧ ys = common ++ y :: ys' ∧ lt x y

/-- One list is the start of the other, or it has the smaller element where they
first differ. -/
def InLexOrder (lt : α → α → Prop) (xs ys : List α) : Prop :=
  xs <+: ys ∨ Precedes lt xs ys

variable {lt : α → α → Prop}

theorem nil_inLexOrder
    (ys : List α) :
    InLexOrder lt [] ys :=
  .inl List.nil_prefix

theorem not_cons_inLexOrder_nil
    {x : α} {xs : List α} :
    ¬ InLexOrder lt (x :: xs) [] := by
  rintro (hstart | ⟨common, a, b, xs', ys', -, hys, -⟩)
  · cases List.prefix_nil.1 hstart
  · cases (List.append_eq_nil_iff.1 hys.symm).2

theorem inLexOrder_cons_iff
    {x y : α} {xs ys : List α} :
    InLexOrder lt (x :: xs) (y :: ys) ↔ lt x y ∨ x = y ∧ InLexOrder lt xs ys := by
  constructor
  · rintro (hstart | ⟨common, a, b, xs', ys', hxs, hys, hlt⟩)
    · obtain ⟨hxy, hrest⟩ := List.cons_prefix_cons.1 hstart
      exact .inr ⟨hxy, .inl hrest⟩
    · cases common with
      | nil =>
          cases hxs
          cases hys
          exact .inl hlt
      | cons c common =>
          cases hxs
          cases hys
          exact .inr ⟨rfl, .inr ⟨common, a, b, xs', ys', rfl, rfl, hlt⟩⟩
  · rintro (hlt | ⟨rfl, hstart | ⟨common, a, b, xs', ys', rfl, rfl, hlt⟩⟩)
    · exact .inr ⟨[], x, y, xs, ys, rfl, rfl, hlt⟩
    · exact .inl (List.cons_prefix_cons.2 ⟨rfl, hstart⟩)
    · exact .inr ⟨x :: common, a, b, xs', ys', rfl, rfl, hlt⟩

theorem inLexOrder_total
    (htotal : ∀ x y, lt x y ∨ x = y ∨ lt y x)
    (xs ys : List α) :
    InLexOrder lt xs ys ∨ InLexOrder lt ys xs := by
  induction xs generalizing ys with
  | nil =>
      exact .inl (nil_inLexOrder ys)
  | cons x xs ih =>
      cases ys with
      | nil =>
          exact .inr (nil_inLexOrder _)
      | cons y ys =>
          rw [inLexOrder_cons_iff, inLexOrder_cons_iff]
          rcases htotal x y with hlt | rfl | hlt
          · exact .inl (.inl hlt)
          · rcases ih ys with h | h
            · exact .inl (.inr ⟨rfl, h⟩)
            · exact .inr (.inr ⟨rfl, h⟩)
          · exact .inr (.inl hlt)

theorem inLexOrder_trans
    (htrans : ∀ x y z, lt x y → lt y z → lt x z)
    {xs ys zs : List α}
    (hxy : InLexOrder lt xs ys)
    (hyz : InLexOrder lt ys zs) :
    InLexOrder lt xs zs := by
  induction xs generalizing ys zs with
  | nil =>
      exact nil_inLexOrder zs
  | cons x xs ih =>
      cases ys with
      | nil =>
          exact absurd hxy not_cons_inLexOrder_nil
      | cons y ys =>
          cases zs with
          | nil =>
              exact absurd hyz not_cons_inLexOrder_nil
          | cons z zs =>
              rw [inLexOrder_cons_iff] at hxy hyz ⊢
              rcases hxy with hxy | ⟨rfl, hxy⟩
              · rcases hyz with hyz | ⟨rfl, -⟩
                · exact .inl (htrans x y z hxy hyz)
                · exact .inl hxy
              · rcases hyz with hyz | ⟨rfl, hyz⟩
                · exact .inl hyz
                · exact .inr ⟨rfl, ih hxy hyz⟩

theorem inLexOrder_antisymm
    (hasymm : ∀ x y, lt x y → ¬ lt y x)
    {xs ys : List α}
    (hxy : InLexOrder lt xs ys)
    (hyx : InLexOrder lt ys xs) :
    xs = ys := by
  induction xs generalizing ys with
  | nil =>
      cases ys with
      | nil =>
          rfl
      | cons y ys =>
          exact absurd hyx not_cons_inLexOrder_nil
  | cons x xs ih =>
      cases ys with
      | nil =>
          exact absurd hxy not_cons_inLexOrder_nil
      | cons y ys =>
          rw [inLexOrder_cons_iff] at hxy hyx
          rcases hxy with hxy | ⟨rfl, hxy⟩
          · rcases hyx with hyx | ⟨rfl, -⟩
            · exact absurd hyx (hasymm x y hxy)
            · exact absurd hxy (hasymm y y hxy)
          · rcases hyx with hyx | ⟨-, hyx⟩
            · exact absurd hyx (hasymm x x hyx)
            · rw [ih hxy hyx]

/-- An encoding that keeps the order of elements, and in which none of them is the
start of a greater one, keeps the order of lists. -/
theorem InLexOrder.flatMap
    {lt' : β → β → Prop} {f : α → List β}
    (hf : ∀ x y, lt x y → Precedes lt' (f x) (f y))
    {xs ys : List α}
    (h : InLexOrder lt xs ys) :
    InLexOrder lt' (xs.flatMap f) (ys.flatMap f) := by
  rcases h with ⟨more, rfl⟩ | ⟨common, x, y, xs', ys', rfl, rfl, hlt⟩
  · rw [List.flatMap_append]
    exact .inl (List.prefix_append _ _)
  · obtain ⟨shared, a, b, as, bs, hx, hy, hab⟩ := hf x y hlt
    refine .inr ⟨common.flatMap f ++ shared, a, b, as ++ xs'.flatMap f,
      bs ++ ys'.flatMap f, ?_, ?_, hab⟩
    · simp [hx]
    · simp [hy]

end Order

end Lists
end HaskellTags
