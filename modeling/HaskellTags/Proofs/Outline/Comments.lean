import HaskellTags.Proofs.Outline.Definitions
import HaskellTags.Proofs.Tree.Comments

/-!
# Comments and outlines

Shedding comments hardly changes an outline.  Every way in which a header, an
imported name or a declaration is looked up passes over bare comments, so the
same nodes are found and their labels are the same.  The text of a type has a
space for each comment, and may differ.

There is one place where a comment counts: the first named child of an operator
in parentheses is taken for its name, even if it is a comment.  `Uncovered` is
what excludes this.
-/

namespace HaskellTags

/-- A declaration without the text of its type. -/
def Decl.withoutTypeText : Decl → Decl
  | .signature span names type => .signature span names ⟨"", type.span⟩
  | d => d

/-- A module without the texts of its types. -/
def Module.withoutTypeTexts (m : Module) : Module :=
  { m with decls := m.decls.map Decl.withoutTypeText }

namespace Outline

open Text HaskellTags.Tree HaskellTags.Tree.Node

section Names

theorem spanOf_eq_of_sheds
    {n m : Node}
    (h : Sheds n m)
    (src : Source) :
    spanOf src n = spanOf src m := by
  rw [spanOf, spanOf, h.label_eq]

theorem text_eq_of_sheds
    {n m : Node}
    (h : Sheds n m)
    (source : Octets) :
    n.text source = m.text source := by
  rw [Node.text, Node.text, h.label_eq]

theorem moduleNameOf_eq_of_sheds
    {n m : Node}
    (h : Sheds n m)
    (src : Source) :
    moduleNameOf src n = moduleNameOf src m := by
  rw [moduleNameOf, moduleNameOf, text_eq_of_sheds h, spanOf_eq_of_sheds h]

/-- If the node is an operator in parentheses, no bare comment stands where its
name is looked for. -/
def Uncovered (n : Node) : Prop :=
  Grammar.parenthesized.contains n.type = true →
    n.namedChildren.head?.any isBareComment = false

instance (n : Node) :
    Decidable (Uncovered n) :=
  inferInstanceAs (Decidable (_ → _))

theorem sheds_nameNode
    {n m : Node}
    (h : Sheds n m)
    (hn : Uncovered n) :
    Sheds (nameNode n) (nameNode m) := by
  unfold nameNode
  rw [← h.type_eq]
  by_cases hparens : Grammar.parenthesized.contains n.type = true
  · rw [if_pos hparens, if_pos hparens]
    have hfirst :
        Option.Rel Sheds n.namedChildren.head? m.namedChildren.head? := by
      apply h.namedChildren.rel_head?
      intro c hc
      simpa [hc] using hn hparens
    generalize n.namedChildren.head? = found at hfirst ⊢
    generalize m.namedChildren.head? = kept at hfirst ⊢
    cases hfirst with
    | some hname =>
        exact hname
    | none =>
        exact h
  · rw [if_neg hparens, if_neg hparens]
    exact h

theorem nameOf_eq_of_sheds
    {n m : Node}
    (h : Sheds n m)
    (hn : Uncovered n)
    (src : Source) :
    nameOf src n = nameOf src m := by
  have hname := sheds_nameNode h hn
  simp only [nameOf, text_eq_of_sheds hname, spanOf_eq_of_sheds hname,
    hname.type_eq]

end Names

section Imports

theorem headerName_eq_of_sheds
    {n m : Node}
    (h : Sheds n m)
    (src : Source) :
    headerName src n = headerName src m := by
  have hfound :=
    rel_or (h.rel_childByField "module")
      (h.rel_firstOf Grammar.moduleNames (by decide))
  exact map_eq_map_of_rel hfound fun _ _ hname => moduleNameOf_eq_of_sheds hname src

theorem importList_eq_of_sheds
    {n m list kept : Node}
    (h : Sheds n m)
    (hlist : Sheds list kept)
    (src : Source) :
    importList src n list = importList src m kept := by
  have hnames :
      List.Forall₂ Sheds
        (list.namedChildren.filter fun c => !c.isComment)
        (kept.namedChildren.filter fun c => !c.isComment) := by
    apply hlist.namedChildren.forall₂_filter
    · intro a b hlabel
      rw [isComment, isComment, Node.type, Node.type, hlabel]
    · intro c hc
      rw [isComment_of_bare hc]
      rfl
  have htexts :=
    map_eq_map_of_forall₂ hnames fun _ _ _ hname =>
      text_eq_of_sheds hname src.octets
  simp only [importList, htexts,
    h.hasToken_eq Grammar.hidingWord (by decide),
    hlist.hasToken_eq Grammar.hidingWord (by decide)]

theorem importOf_eq_of_sheds
    {n m : Node}
    (h : Sheds n m)
    (src : Source) :
    importOf src n = importOf src m := by
  have halias :=
    map_eq_map_of_rel (h.rel_childByField "alias")
      fun _ _ hname => moduleNameOf_eq_of_sheds hname src
  have hnames :=
    map_eq_map_of_rel (h.rel_childByField "names")
      fun _ _ hlist => importList_eq_of_sheds h hlist src
  apply map_eq_map_of_rel (h.rel_childByField "module")
  intro source kept hsource
  rw [moduleNameOf_eq_of_sheds hsource, spanOf_eq_of_sheds h, halias, hnames,
    h.hasToken_eq Grammar.qualifiedWord (by decide)]

end Imports

section Declarations

theorem typeNameIn_of_bare
    {c : Node}
    (hc : c.isBareComment = true) :
    typeNameIn c = none := by
  have hinfix : c.type ≠ Grammar.infixForm :=
    type_ne_of_isComment (isComment_of_bare hc) _ (by decide)
  unfold typeNameIn
  rw [not_contains_of_bare hc (by decide), not_contains_of_bare hc (by decide),
    if_neg hinfix, Node.firstOf, outermost_eq_nil_of_bare hc]
  rfl

theorem rel_typeNameIn
    {n m : Node}
    (h : Sheds n m) :
    Option.Rel Sheds (typeNameIn n) (typeNameIn m) := by
  unfold typeNameIn
  rw [← h.type_eq]
  split
  · exact .some h
  · refine rel_or ?_ (h.rel_firstOf _ (by decide))
    split
    · exact h.rel_childByField "operator"
    · exact .none

theorem rel_typeName
    {n m : Node}
    (h : Sheds n m) :
    Option.Rel Sheds (typeName n) (typeName m) :=
  rel_or (h.rel_childByField "name")
    (h.headChildren.rel_findSome? typeNameIn
      (fun _ _ => rel_typeNameIn) (fun _ => typeNameIn_of_bare))

theorem forall₂_toList
    {found kept : Option Node}
    (h : Option.Rel Sheds found kept) :
    List.Forall₂ Sheds found.toList kept.toList := by
  cases h with
  | some hfound =>
      exact .cons hfound .nil
  | none =>
      exact .nil

theorem forall₂_constructorNames
    {n m : Node}
    (h : Sheds n m) :
    List.Forall₂ Sheds (constructorNames n) (constructorNames m) := by
  unfold constructorNames
  rw [← h.type_eq]
  split
  · exact h.headChildren.forall₂_outermostIn _ (by decide)
  · exact forall₂_toList
      (rel_or (h.rel_childByField "name") (h.rel_firstOf _ (by decide)))

theorem forall₂_signatureNames
    {n m : Node}
    (h : Sheds n m) :
    List.Forall₂ Sheds (signatureNames n) (signatureNames m) := by
  have hlist := h.rel_childByField "names"
  have hname := h.rel_childByField "name"
  unfold signatureNames
  generalize n.childByField "names" = found at hlist ⊢
  generalize m.childByField "names" = kept at hlist ⊢
  cases hlist with
  | some hlist =>
      apply hlist.namedChildren.forall₂_filter
      · intro a b hlabel
        rw [Node.type, Node.type, hlabel]
      · intro c hc
        exact not_contains_of_bare hc (by decide)
  | none =>
      generalize n.childByField "name" = found at hname ⊢
      generalize m.childByField "name" = kept at hname ⊢
      cases hname with
      | some hname =>
          exact .cons hname .nil
      | none =>
          exact h.headChildren.forall₂_outermostIn _ (by decide)

theorem constructorsOf_eq_of_sheds
    {n m : Node}
    (h : Sheds n m)
    (hnames : ∀ name ∈ constructorNames n, Uncovered name)
    (src : Source) :
    constructorsOf src n = constructorsOf src m := by
  unfold constructorsOf
  rw [← spanOf_eq_of_sheds h]
  apply map_eq_map_of_forall₂ (forall₂_constructorNames h)
  intro name hname kept hkept
  rw [nameOf_eq_of_sheds hkept (hnames name hname)]

theorem synonymOf_eq_of_sheds
    {n m : Node}
    (h : Sheds n m)
    (hnames : ∀ name ∈ (typeName n).toList, Uncovered name)
    (src : Source) :
    synonymOf src n = synonymOf src m := by
  have hhead := rel_typeName h
  unfold synonymOf
  rw [← spanOf_eq_of_sheds h, ← h.type_eq]
  generalize typeName n = found at hhead hnames ⊢
  generalize typeName m = kept at hhead ⊢
  cases hhead with
  | some hhead =>
      have hname := nameOf_eq_of_sheds hhead (hnames _ (by simp)) src
      simp only [hname]
  | none =>
      rfl

theorem dataOf_eq_of_sheds
    {n m : Node}
    (h : Sheds n m)
    (hnames : ∀ name ∈ dataNames n, Uncovered name)
    (src : Source)
    (form : DataForm) :
    (dataOf src form n).1 = (dataOf src form m).1 := by
  have hconstructors := h.forall₂_outermost Grammar.constructors (by decide)
  have hhead := rel_typeName h
  unfold dataNames at hnames
  unfold dataOf
  rw [← spanOf_eq_of_sheds h, ← h.type_eq]
  generalize typeName n = found at hhead hnames ⊢
  generalize typeName m = kept at hhead ⊢
  cases hhead with
  | none =>
      rfl
  | some hhead =>
      have hlists :
          (n.outermost Grammar.constructors).map (constructorsOf src) =
            (m.outermost Grammar.constructors).map (constructorsOf src) := by
        apply map_eq_map_of_forall₂ hconstructors
        intro c hc kept hkept
        apply constructorsOf_eq_of_sheds hkept
        intro name hname
        apply hnames
        exact List.mem_cons_of_mem _ (List.mem_flatMap.mpr ⟨c, hc, hname⟩)
      have hname := nameOf_eq_of_sheds hhead (hnames _ List.mem_cons_self) src
      simp only [hname, List.flatMap_def, hlists]

theorem signatureType_span_of_sheds
    {n m : Node}
    (h : Sheds n m)
    (src : Source) :
    (signatureType src n).span = (signatureType src m).span := by
  have htype := h.rel_childByField "type"
  unfold signatureType
  generalize n.childByField "type" = found at htype ⊢
  generalize m.childByField "type" = kept at htype ⊢
  cases htype with
  | some htype =>
      exact congrArg some (spanOf_eq_of_sheds htype src)
  | none =>
      rfl

theorem signatureOf_eq_of_sheds
    {n m : Node}
    (h : Sheds n m)
    (hnames : ∀ name ∈ signatureNames n, Uncovered name)
    (src : Source) :
    (signatureOf src n).1.withoutTypeText =
      (signatureOf src m).1.withoutTypeText := by
  have hfound := forall₂_signatureNames h
  have htexts :=
    map_eq_map_of_forall₂ hfound fun name hname _ hkept =>
      nameOf_eq_of_sheds hkept (hnames name hname) src
  unfold signatureOf
  rw [← spanOf_eq_of_sheds h, ← h.type_eq]
  generalize signatureNames n = names at hfound htexts ⊢
  generalize signatureNames m = keptNames at hfound htexts ⊢
  cases hfound with
  | nil =>
      rfl
  | cons hfirst hrest =>
      simp only [Decl.withoutTypeText, htexts, signatureType_span_of_sheds h src]

/-- A declaration whose names are uncovered keeps everything but the text of its
type. -/
theorem declOf_eq_of_sheds
    {n m : Node}
    (h : Sheds n m)
    (hnames : ∀ name ∈ declNames n, Uncovered name)
    (src : Source) :
    (declOf src n).1.withoutTypeText = (declOf src m).1.withoutTypeText := by
  unfold declNames at hnames
  unfold declOf
  rw [← h.type_eq, ← spanOf_eq_of_sheds h]
  split_ifs at hnames ⊢ with hsynonym hdata hnewtype hsignature
  · rw [synonymOf_eq_of_sheds h hnames]
  · rw [dataOf_eq_of_sheds h hnames]
  · rw [dataOf_eq_of_sheds h hnames]
  · exact signatureOf_eq_of_sheds h hnames src
  · rfl

end Declarations

section Modules

theorem forall₂_headersOfChild
    {n m : Node}
    (h : Sheds n m) :
    List.Forall₂ Sheds (headersOfChild n) (headersOfChild m) := by
  unfold headersOfChild
  rw [← h.type_eq]
  split
  · exact .cons h .nil
  · exact .nil

theorem forall₂_importsOfChild
    {n m : Node}
    (h : Sheds n m) :
    List.Forall₂ Sheds (importsOfChild n) (importsOfChild m) := by
  unfold importsOfChild
  rw [← h.type_eq]
  split_ifs
  · apply h.namedChildren.forall₂_filter
    · intro a b hlabel
      rw [Node.type, Node.type, hlabel]
    · intro c hc
      have hne := type_ne_of_isComment (isComment_of_bare hc) Grammar.importNode (by decide)
      simpa using hne
  · exact .cons h .nil
  · exact .nil

theorem forall₂_declsOfChild
    {n m : Node}
    (h : Sheds n m) :
    List.Forall₂ Sheds (declsOfChild n) (declsOfChild m) := by
  unfold declsOfChild
  rw [← h.isComment_eq, ← h.type_eq]
  split_ifs
  · exact .nil
  · exact .nil
  · exact .nil
  · exact .nil
  · apply h.namedChildren.forall₂_filter
    · intro a b hlabel
      rw [isComment, isComment, Node.type, Node.type, hlabel]
    · intro c hc
      rw [isComment_of_bare hc]
      rfl
  · exact .cons h .nil

/-- What a bare comment among the children of the root stands for: nothing. -/
theorem ofChild_of_bare
    {c : Node}
    (hc : c.isBareComment = true) :
    headersOfChild c = [] ∧ importsOfChild c = [] ∧ declsOfChild c = [] := by
  have hcomment := isComment_of_bare hc
  have hne := type_ne_of_isComment hcomment
  refine ⟨?_, ?_, ?_⟩
  · rw [headersOfChild, if_neg (hne Grammar.header (by decide))]
  · rw [importsOfChild, if_neg (hne Grammar.imports (by decide)),
      if_neg (hne Grammar.importNode (by decide))]
  · rw [declsOfChild, if_pos hcomment]

theorem ofTree_head_of_sheds
    {root shed : Node}
    (h : Sheds root shed)
    (src : Source) :
    (ofTree src root).1.head = (ofTree src shed).1.head := by
  have hheaders : List.Forall₂ Sheds (headerNodes root) (headerNodes shed) :=
    h.namedChildren.forall₂_flatMap headersOfChild
      (fun _ _ => forall₂_headersOfChild) (fun _ hc => (ofChild_of_bare hc).1)
  have hnames :=
    map_eq_map_of_forall₂ hheaders fun _ _ _ hheader =>
      headerName_eq_of_sheds hheader src
  have hbind :
      ∀ ns : List Node,
        ns.getLast?.bind (headerName src) =
          (ns.map (headerName src)).getLast?.bind id := by
    intro ns
    rw [List.getLast?_map]
    cases ns.getLast? <;> rfl
  rw [ofTree_head, ofTree_head, hbind, hbind, hnames]

theorem ofTree_imports_of_sheds
    {root shed : Node}
    (h : Sheds root shed)
    (src : Source) :
    (ofTree src root).1.imports = (ofTree src shed).1.imports := by
  have himports : List.Forall₂ Sheds (importNodes root) (importNodes shed) :=
    h.namedChildren.forall₂_flatMap importsOfChild
      (fun _ _ => forall₂_importsOfChild) (fun _ hc => (ofChild_of_bare hc).2.1)
  have hparts :=
    map_eq_map_of_forall₂ himports fun _ _ _ himport =>
      importOf_eq_of_sheds himport src
  have hfilter :
      ∀ ns : List Node,
        ns.filterMap (importOf src) = (ns.map (importOf src)).filterMap id := by
    intro ns
    rw [List.filterMap_map]
    rfl
  rw [ofTree_imports, ofTree_imports, hfilter, hfilter, hparts]

theorem ofTree_decls_of_sheds
    {root shed : Node}
    (h : Sheds root shed)
    (hnames : ∀ name ∈ (declNodes root).flatMap declNames, Uncovered name)
    (src : Source) :
    (ofTree src root).1.decls.map Decl.withoutTypeText =
      (ofTree src shed).1.decls.map Decl.withoutTypeText := by
  have hdecls : List.Forall₂ Sheds (declNodes root) (declNodes shed) :=
    h.namedChildren.forall₂_flatMap declsOfChild
      (fun _ _ => forall₂_declsOfChild) (fun _ hc => (ofChild_of_bare hc).2.2)
  rw [ofTree_decls, ofTree_decls, List.map_map, List.map_map]
  apply map_eq_map_of_forall₂ hdecls
  intro n hn m hm
  apply declOf_eq_of_sheds hm
  intro name hname
  exact hnames name (List.mem_flatMap.mpr ⟨n, hn, hname⟩)

/--
Where no comment covers the name of an operator in parentheses, the outline of a
tree does not depend on its bare comments, the texts of types apart.
-/
theorem ofTree_of_shed_comments
    (src : Source)
    (root shed : Node)
    (h : Sheds root shed)
    (hnames : ∀ name ∈ (declNodes root).flatMap declNames, Uncovered name) :
    (ofTree src root).1.withoutTypeTexts =
      (ofTree src shed).1.withoutTypeTexts := by
  simp only [Module.withoutTypeTexts, Module.mk.injEq]
  exact ⟨ofTree_head_of_sheds h src, ofTree_imports_of_sheds h src,
    ofTree_decls_of_sheds h hnames src⟩

namespace Remarks

/-- A source with a comment in every kind of place. -/
def source : Source where
  file := "M.hs"
  octets :=
    octetsOf "import A (\x7b-1-\x7d x)\n\x7b-2-\x7d\n" ++
      octetsOf "data \x7b-3-\x7d T = \x7b-4-\x7d C\n(+\x7b-5-\x7d) :: T\n"

def first : Row := ⟨0, 0⟩

def second : Row := ⟨1, 19⟩

def third : Row := ⟨2, 25⟩

def fourth : Row := ⟨3, 48⟩

def comment (row : Row) (start stop : Nat) : Node :=
  row.node "comment" none start stop []

/-- The tree of the source, with its comments or without them. -/
def tree (commented : Bool) : Node :=
  let remark (row : Row) (start stop : Nat) : List Node :=
    if commented then [comment row start stop] else []
  first.across fourth "haskell" none 0 13 (
    [first.node "imports" none 0 18 [
      first.node "import" none 0 18 [
        first.node "module" (some "module") 7 8 [],
        first.node "import_list" (some "names") 9 18
          (remark first 10 15 ++ [first.node "import_name" none 16 17 []])]]] ++
    remark second 0 5 ++
    [third.across fourth "declarations" none 0 13 [
      third.node "data_type" none 0 22
        (remark third 5 10 ++ [third.node "name" none 11 12 [],
          third.node "data_constructor" none 15 22
            (remark third 15 20 ++ [third.node "constructor" none 21 22 []])]),
      fourth.node "signature" none 0 13 [
        fourth.node "prefix_id" (some "name") 0 8
          ([fourth.node "operator" none 1 2 []] ++ remark fourth 2 7),
        fourth.token "::" 9,
        fourth.node "name" (some "type") 12 13 []]]])

theorem sheds_tree :
    Sheds (tree true) (tree false) := by
  have hremark (row : Row) (start stop : Nat) :
      (comment row start stop).isBareComment = true := rfl
  refine ⟨rfl, .keep ?_ (.drop (hremark second 0 5) (.keep ?_ .nil))⟩
  · exact .keep (.keep .nil (.keep (.drop (hremark first 10 15) (.keep .nil .nil)) .nil))
      .nil
  · refine .keep ?_ (.keep ?_ .nil)
    · exact .drop (hremark third 5 10)
        (.keep .nil (.keep (.drop (hremark third 15 20) (.keep .nil .nil)) .nil))
    · exact .keep (.keep .nil (.drop (hremark fourth 2 7) .nil))
        (.keep .nil (.keep .nil .nil))

end Remarks

theorem ofTree_of_shed_remarks :
    Sheds (Remarks.tree true) (Remarks.tree false) ∧
    (∀ name ∈ (declNodes (Remarks.tree true)).flatMap declNames, Uncovered name) ∧
    (ofTree Remarks.source (Remarks.tree true)).1.withoutTypeTexts =
      (ofTree Remarks.source (Remarks.tree false)).1.withoutTypeTexts := by
  have hnames :
      ∀ name ∈ (declNodes (Remarks.tree true)).flatMap declNames,
        Uncovered name := by
    decide +kernel
  exact ⟨Remarks.sheds_tree, hnames,
    ofTree_of_shed_comments Remarks.source _ _ Remarks.sheds_tree hnames⟩

namespace Remarks

def coveredSource : Source where
  file := "M.hs"
  octets := octetsOf "(\x7b-1-\x7d+) :: T"

/-- The signature of an operator in parentheses, with a comment before it or
without one. -/
def coveredTree (commented : Bool) : Node :=
  first.node "haskell" none 0 13 [
    first.node "declarations" none 0 13 [
      first.node "signature" none 0 13 [
        first.node "prefix_id" (some "name") 0 8
          ((if commented then [comment first 1 6] else []) ++
            [first.node "operator" none 6 7 []]),
        first.token "::" 9,
        first.node "name" (some "type") 12 13 []]]]

end Remarks

/-- A comment before an operator in parentheses becomes its name, so that
shedding it changes the outline. -/
theorem shed_operator_changes_name :
    Sheds (Remarks.coveredTree true) (Remarks.coveredTree false) ∧
    (ofTree Remarks.coveredSource (Remarks.coveredTree true)).1.definitions.map
      Prod.fst = ["\x7b-1-\x7d"] ∧
    (ofTree Remarks.coveredSource (Remarks.coveredTree false)).1.definitions.map
      Prod.fst = ["+"] ∧
    (ofTree Remarks.coveredSource (Remarks.coveredTree true)).1.withoutTypeTexts ≠
      (ofTree Remarks.coveredSource (Remarks.coveredTree false)).1.withoutTypeTexts := by
  have hremark : (Remarks.comment Remarks.first 1 6).isBareComment = true := rfl
  have hsheds : Sheds (Remarks.coveredTree true) (Remarks.coveredTree false) := by
    refine ⟨rfl, .keep (.keep (.keep ?_ (.keep .nil (.keep .nil .nil))) .nil) .nil⟩
    exact .drop hremark (.keep .nil .nil)
  refine ⟨hsheds, ?_, ?_, ?_⟩
  · decide +kernel
  · decide +kernel
  · decide +kernel

end Modules

end Outline
end HaskellTags
