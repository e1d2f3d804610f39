import HaskellTags.Outline.OfTree
import HaskellTags.Proofs.Tree.Nodes
import Mathlib.Tactic.SplitIfs

/-!
# What an outline defines

An outline is read off the nodes of a concrete tree.  `headerNodes`,
`importNodes` and `declNodes` are the nodes that stand for the header, the
imports and the declarations of a module, and the three equations `ofTree_head`,
`ofTree_imports` and `ofTree_decls` say that nothing else counts.

`definingNodes` goes one step further: it lists the nodes whose texts are the
names that a module defines.  By `ofTree_definitions` the names of the outline
and their places are the texts and places of these nodes, in order.
-/

namespace HaskellTags
namespace Outline

open Text HaskellTags.Tree

section Roles

/-- The header that a child of the root is. -/
def headersOfChild (c : Node) : List Node :=
  if c.type = Grammar.header then [c] else []

/-- The imports among a child of the root and its children. -/
def importsOfChild (c : Node) : List Node :=
  if c.type = Grammar.imports then
    c.namedChildren.filter fun i => i.type = Grammar.importNode
  else if c.type = Grammar.importNode then [c]
  else []

/-- The declarations among a child of the root and its children. -/
def declsOfChild (c : Node) : List Node :=
  if c.isComment then []
  else if c.type = Grammar.header then []
  else if c.type = Grammar.imports then []
  else if c.type = Grammar.importNode then []
  else if c.type = Grammar.declarations then
    c.namedChildren.filter fun d => !d.isComment
  else [c]

/-- The headers of a module. -/
def headerNodes (root : Node) : List Node :=
  root.namedChildren.flatMap headersOfChild

/-- The imports of a module. -/
def importNodes (root : Node) : List Node :=
  root.namedChildren.flatMap importsOfChild

/-- The declarations of a module. -/
def declNodes (root : Node) : List Node :=
  root.namedChildren.flatMap declsOfChild

end Roles

section Parts

theorem type_ne_of_isComment
    {n : Node}
    (hn : n.isComment = true)
    (type : String)
    (htype : Grammar.comments.contains type = false) :
    n.type ≠ type := by
  rintro rfl
  rw [Node.isComment, htype] at hn
  cases hn

theorem headerPart_eq
    (src : Source)
    (n : Node) :
    (headerPart src n).1 = [.header (headerName src n)] := by
  unfold headerPart
  cases headerName src n <;> rfl

theorem importPart_eq
    (src : Source)
    (n : Node) :
    (importPart src n).1 = ((importOf src n).map Part.importing).toList := by
  unfold importPart
  cases importOf src n <;> rfl

/--
What a child of the root writes, by the nodes that it stands for.  At most one
of the three lists has elements.
-/
theorem partsOf_eq
    (src : Source)
    (c : Node) :
    (partsOf src c).1 =
      (headersOfChild c).map (fun n => .header (headerName src n)) ++
        (importsOfChild c).flatMap
          (fun n => ((importOf src n).map Part.importing).toList) ++
        (declsOfChild c).map (fun n => .decl (declOf src n).1) := by
  -- the types of the roles differ, so that each test settles the others
  have himports : Grammar.imports ≠ Grammar.header := by decide
  have himport : Grammar.importNode ≠ Grammar.header := by decide
  have hblock : Grammar.importNode ≠ Grammar.imports := by decide
  have hheader : Grammar.header ≠ Grammar.imports := by decide
  have hheader' : Grammar.header ≠ Grammar.importNode := by decide
  unfold partsOf
  split_ifs with hcomment h₁ h₂ h₃ h₄
  · have hne := type_ne_of_isComment hcomment
    simp [headersOfChild, importsOfChild, declsOfChild, hcomment,
      hne Grammar.header (by decide), hne Grammar.imports (by decide),
      hne Grammar.importNode (by decide)]
  · simp [headersOfChild, importsOfChild, declsOfChild, hcomment, h₁,
      hheader, hheader', headerPart_eq]
  · simp [headersOfChild, importsOfChild, declsOfChild, hcomment, h₂,
      himports, partsOfAll, importPart_eq]
  · simp [headersOfChild, importsOfChild, declsOfChild, hcomment, h₃,
      himport, hblock, importPart_eq]
  · simp only [headersOfChild, importsOfChild, declsOfChild, if_neg hcomment,
      if_neg h₁, if_neg h₂, if_neg h₃, if_pos h₄]
    exact List.map_eq_flatMap.symm
  · simp [headersOfChild, importsOfChild, declsOfChild, hcomment, h₁, h₂, h₃,
      h₄, declPart]

/-- What the nodes of a list write, seen through one kind of part. -/
theorem filterMap_partsOfAll
    {α : Type}
    (g : Part → Option α)
    (f : Node → List Part × List Warning)
    (ns : List Node) :
    (partsOfAll f ns).1.filterMap g =
      ns.flatMap fun n => (f n).1.filterMap g :=
  List.filterMap_flatMap

theorem header?_importPart
    (src : Source)
    (n : Node) :
    ((importOf src n).map Part.importing).toList.filterMap Part.header? = [] := by
  cases importOf src n <;> rfl

theorem import?_importPart
    (src : Source)
    (n : Node) :
    ((importOf src n).map Part.importing).toList.filterMap Part.import? =
      (importOf src n).toList := by
  cases importOf src n <;> rfl

theorem decl?_importPart
    (src : Source)
    (n : Node) :
    ((importOf src n).map Part.importing).toList.filterMap Part.decl? = [] := by
  cases importOf src n <;> rfl

theorem header?_partsOf
    (src : Source)
    (c : Node) :
    (partsOf src c).1.filterMap Part.header? =
      (headersOfChild c).map (headerName src) := by
  simp [partsOf_eq, List.filterMap_map, List.filterMap_flatMap,
    Function.comp_def, Part.header?, header?_importPart]

theorem import?_partsOf
    (src : Source)
    (c : Node) :
    (partsOf src c).1.filterMap Part.import? =
      (importsOfChild c).filterMap (importOf src) := by
  rw [List.filterMap_eq_flatMap_toList (importOf src)]
  simp [partsOf_eq, List.filterMap_map, List.filterMap_flatMap,
    Function.comp_def, Part.import?, import?_importPart]

theorem decl?_partsOf
    (src : Source)
    (c : Node) :
    (partsOf src c).1.filterMap Part.decl? =
      (declsOfChild c).map fun n => (declOf src n).1 := by
  simp [partsOf_eq, List.filterMap_map, List.filterMap_flatMap,
    Function.comp_def, Part.decl?, decl?_importPart]

/-- The head of a module is the name in its last header. -/
theorem ofTree_head
    (src : Source)
    (root : Node) :
    (ofTree src root).1.head =
      (headerNodes root).getLast?.bind (headerName src) := by
  have hparts :
      (partsOfAll (partsOf src) root.namedChildren).1.filterMap Part.header? =
        (headerNodes root).map (headerName src) := by
    simp only [filterMap_partsOfAll, header?_partsOf, headerNodes,
      List.map_flatMap]
  rw [ofTree, moduleOf, hparts, List.getLast?_map]
  cases (headerNodes root).getLast? <;> rfl

/-- The imports of a module are those of its import nodes. -/
theorem ofTree_imports
    (src : Source)
    (root : Node) :
    (ofTree src root).1.imports =
      (importNodes root).filterMap (importOf src) := by
  simp only [ofTree, moduleOf, filterMap_partsOfAll, import?_partsOf,
    importNodes, List.filterMap_flatMap]

/-- An import stands where its node stands. -/
theorem span_of_importOf
    {src : Source} {n : Node} {i : Import}
    (h : importOf src n = some i) :
    i.span = spanOf src n := by
  unfold importOf at h
  obtain ⟨moduleNode, _, rfl⟩ := Option.map_eq_some_iff.mp h
  rfl

/-- The declarations of a module are those of its declaration nodes. -/
theorem ofTree_decls
    (src : Source)
    (root : Node) :
    (ofTree src root).1.decls =
      (declNodes root).map fun n => (declOf src n).1 := by
  simp only [ofTree, moduleOf, filterMap_partsOfAll, decl?_partsOf,
    declNodes, List.map_flatMap]

end Parts

section Names

/-- The node that names the module in a header. -/
def headerNameNode (n : Node) : Option Node :=
  (n.childByField "module").or (n.firstOf Grammar.moduleNames)

/-- The nodes that name a type and its constructors; without the first there are
none. -/
def dataNames (n : Node) : List Node :=
  match typeName n with
  | none => []
  | some head => head :: (n.outermost Grammar.constructors).flatMap constructorNames

/-- The nodes in which the names of a declaration are found. -/
def declNames (n : Node) : List Node :=
  if Grammar.synonyms.contains n.type then (typeName n).toList
  else if n.type = Grammar.dataType then dataNames n
  else if n.type = Grammar.newtype then dataNames n
  else if n.type = Grammar.signature then signatureNames n
  else []

/-- The nodes that name what a declaration defines, parentheses taken off. -/
def declaredNodes (n : Node) : List Node :=
  (declNames n).map nameNode

/-- The nodes that name what a module defines, the module itself first. -/
def definingNodes (root : Node) : List Node :=
  ((headerNodes root).getLast?.bind headerNameNode).toList ++
    (declNodes root).flatMap declaredNodes

/-- The text of a node and its place. -/
def placeOf (src : Source) (n : Node) : String × Span :=
  (n.text src.octets, spanOf src n)

end Names

end Outline

/-- The names that a declaration defines. -/
def Decl.names : Decl → List Name
  | .synonym _ head => [head]
  | .data _ _ head constructors => head :: constructors.map Constructor.name
  | .signature _ names _ => names
  | .other _ _ => []
  | .loose _ => []

/-- The texts and places of the names that a module defines, its own first. -/
def Module.definitions (m : Module) : List (String × Span) :=
  m.head.toList.map (fun name => (name.text, name.span)) ++
    m.decls.flatMap fun d => d.names.map fun name => (name.text, name.span)

namespace Outline

open Text HaskellTags.Tree

section Places

theorem synonymOf_names
    (src : Source)
    (n : Node) :
    (synonymOf src n).names = (typeName n).toList.map (nameOf src) := by
  unfold synonymOf
  cases typeName n <;> rfl

theorem dataOf_names
    (src : Source)
    (form : DataForm)
    (n : Node) :
    (dataOf src form n).1.names = (dataNames n).map (nameOf src) := by
  unfold dataOf dataNames
  cases typeName n with
  | none =>
      rfl
  | some head =>
      simp [Decl.names, constructorsOf, List.map_flatMap, Function.comp_def]

theorem signatureOf_names
    (src : Source)
    (n : Node) :
    (signatureOf src n).1.names = (signatureNames n).map (nameOf src) := by
  unfold signatureOf
  cases signatureNames n <;> rfl

/-- The names of a declaration are those of the nodes in which they are found. -/
theorem declOf_names
    (src : Source)
    (n : Node) :
    (declOf src n).1.names = (declNames n).map (nameOf src) := by
  unfold declOf declNames
  by_cases hsynonym : Grammar.synonyms.contains n.type = true
  · rw [if_pos hsynonym, if_pos hsynonym]
    exact synonymOf_names src n
  rw [if_neg hsynonym, if_neg hsynonym]
  by_cases hdata : n.type = Grammar.dataType
  · rw [if_pos hdata, if_pos hdata]
    exact dataOf_names src .data n
  rw [if_neg hdata, if_neg hdata]
  by_cases hnewtype : n.type = Grammar.newtype
  · rw [if_pos hnewtype, if_pos hnewtype]
    exact dataOf_names src .newtype n
  rw [if_neg hnewtype, if_neg hnewtype]
  by_cases hsignature : n.type = Grammar.signature
  · rw [if_pos hsignature, if_pos hsignature]
    exact signatureOf_names src n
  rw [if_neg hsignature, if_neg hsignature]
  rfl

/-- The names of a declaration stand where its declared nodes stand. -/
theorem declOf_places
    (src : Source)
    (n : Node) :
    ((declOf src n).1.names.map fun name => (name.text, name.span)) =
      (declaredNodes n).map (placeOf src) := by
  rw [declOf_names, declaredNodes, List.map_map, List.map_map]
  rfl

/-- The head of a module stands where the name in its last header stands. -/
theorem ofTree_head_place
    (src : Source)
    (root : Node) :
    ((ofTree src root).1.head.toList.map fun name => (name.text, name.span)) =
      ((headerNodes root).getLast?.bind headerNameNode).toList.map
        (placeOf src) := by
  rw [ofTree_head]
  cases (headerNodes root).getLast? with
  | none =>
      rfl
  | some header =>
      change ((headerNameNode header).map (moduleNameOf src)).toList.map _ =
        (headerNameNode header).toList.map _
      cases headerNameNode header <;> rfl

/-- The names of a module are written by its defining nodes. -/
theorem ofTree_definitions
    (src : Source)
    (root : Node) :
    (ofTree src root).1.definitions =
      (definingNodes root).map (placeOf src) := by
  rw [Module.definitions, definingNodes, List.map_append, ofTree_head_place,
    ofTree_decls, List.flatMap_map, List.map_flatMap]
  simp only [declOf_places]

end Places

section Membership

open Node

theorem nameNode_mem
    (n : Node) :
    nameNode n ∈ n.nodes := by
  unfold nameNode
  split_ifs
  · cases h : n.namedChildren.head? with
    | none =>
        exact self_mem_nodes n
    | some c =>
        have hc : c ∈ n.children :=
          namedChildren_subset n (List.mem_of_head? h)
        exact nodes_subset_of_mem_children hc (self_mem_nodes c)
  · exact self_mem_nodes n

theorem mem_of_childByField
    {field : String} {n c : Node}
    (h : n.childByField field = some c) :
    c ∈ nodesIn n.children :=
  mem_nodesIn.mpr ⟨c, mem_children_of_childByField h, self_mem_nodes c⟩

/-- A node found by field, or else by another way, is below if that one is. -/
theorem mem_of_childByField_or
    {field : String} {n m : Node} {other : Option Node}
    (hother : other = some m → m ∈ nodesIn n.children)
    (h : (n.childByField field).or other = some m) :
    m ∈ nodesIn n.children := by
  rcases Option.or_eq_some_iff.mp h with hfield | ⟨_, hfound⟩
  · exact mem_of_childByField hfield
  · exact hother hfound

theorem typeNameIn_mem
    {c m : Node}
    (h : typeNameIn c = some m) :
    m ∈ c.nodes := by
  unfold typeNameIn at h
  split_ifs at h with hname hinfix
  · cases h
    exact self_mem_nodes c
  · exact nodesIn_children_subset c
      (mem_of_childByField_or mem_nodes_of_firstOf h)
  · exact nodesIn_children_subset c (mem_nodes_of_firstOf h)

theorem typeName_mem
    {n m : Node}
    (h : typeName n = some m) :
    m ∈ nodesIn n.children := by
  refine mem_of_childByField_or ?_ h
  intro hhead
  obtain ⟨c, hc, hm⟩ := List.exists_of_findSome?_eq_some hhead
  exact mem_nodesIn.mpr ⟨c, headChildren_subset n hc, typeNameIn_mem hm⟩

theorem constructorNames_subset
    (n : Node) :
    constructorNames n ⊆ nodesIn n.children := by
  intro m hm
  unfold constructorNames at hm
  split_ifs at hm
  · exact nodesIn_mono (headChildren_subset n)
      (outermostIn_subset constructorTypes n.headChildren hm)
  · rw [Option.mem_toList] at hm
    exact mem_of_childByField_or mem_nodes_of_firstOf hm

theorem dataNames_subset
    (n : Node) :
    dataNames n ⊆ nodesIn n.children := by
  intro m hm
  unfold dataNames at hm
  cases htype : typeName n with
  | none =>
      simp [htype] at hm
  | some head =>
      simp only [htype, List.mem_cons, List.mem_flatMap] at hm
      rcases hm with rfl | ⟨c, hc, hm⟩
      · exact typeName_mem htype
      · have hbelow := outermost_subset Grammar.constructors n hc
        exact nodes_subset_of_mem_nodesIn hbelow
          (nodesIn_children_subset c (constructorNames_subset c hm))

theorem signatureNames_subset
    (n : Node) :
    signatureNames n ⊆ nodesIn n.children := by
  intro m hm
  unfold signatureNames at hm
  cases hlist : n.childByField "names" with
  | some list =>
      simp only [hlist] at hm
      have hmem : m ∈ list.children :=
        namedChildren_subset list (List.mem_of_mem_filter hm)
      exact nodes_subset_of_mem_nodesIn (mem_of_childByField hlist)
        (nodes_subset_of_mem_children hmem (self_mem_nodes m))
  | none =>
      cases hname : n.childByField "name" with
      | some name =>
          simp only [hlist, hname, List.mem_singleton] at hm
          rw [hm]
          exact mem_of_childByField hname
      | none =>
          simp only [hlist, hname] at hm
          exact nodesIn_mono (headChildren_subset n)
            (outermostIn_subset functionTypes n.headChildren hm)

theorem declNames_subset
    (n : Node) :
    declNames n ⊆ nodesIn n.children := by
  intro m hm
  unfold declNames at hm
  split_ifs at hm
  · exact typeName_mem (Option.mem_toList.mp hm)
  · exact dataNames_subset n hm
  · exact dataNames_subset n hm
  · exact signatureNames_subset n hm
  · cases hm

theorem declaredNodes_subset
    (n : Node) :
    declaredNodes n ⊆ n.nodes := by
  intro m hm
  obtain ⟨name, hname, rfl⟩ := List.mem_map.mp hm
  exact nodes_subset_of_mem_nodes
    (nodesIn_children_subset n (declNames_subset n hname))
    (nameNode_mem name)

theorem headersOfChild_sublist
    (c : Node) :
    (headersOfChild c).Sublist c.nodes := by
  unfold headersOfChild
  split_ifs
  · exact List.singleton_sublist.mpr (self_mem_nodes c)
  · exact List.nil_sublist _

theorem importsOfChild_sublist
    (c : Node) :
    (importsOfChild c).Sublist c.nodes := by
  unfold importsOfChild
  split_ifs
  · exact List.filter_sublist.trans (namedChildren_sublist_nodes c)
  · exact List.singleton_sublist.mpr (self_mem_nodes c)
  · exact List.nil_sublist _

theorem declsOfChild_sublist
    (c : Node) :
    (declsOfChild c).Sublist c.nodes := by
  unfold declsOfChild
  split_ifs
  · exact List.nil_sublist _
  · exact List.nil_sublist _
  · exact List.nil_sublist _
  · exact List.nil_sublist _
  · exact List.filter_sublist.trans (namedChildren_sublist_nodes c)
  · exact List.singleton_sublist.mpr (self_mem_nodes c)

theorem headerNodes_sublist_nodes
    (root : Node) :
    (headerNodes root).Sublist root.nodes :=
  flatMap_namedChildren_sublist_nodes root headersOfChild_sublist

/-- The import nodes are nodes of the tree, in its order. -/
theorem importNodes_sublist_nodes
    (root : Node) :
    (importNodes root).Sublist root.nodes :=
  flatMap_namedChildren_sublist_nodes root importsOfChild_sublist

/-- The declaration nodes are nodes of the tree, in its order. -/
theorem declNodes_sublist_nodes
    (root : Node) :
    (declNodes root).Sublist root.nodes :=
  flatMap_namedChildren_sublist_nodes root declsOfChild_sublist

/-- The defining nodes are nodes of the tree. -/
theorem definingNodes_subset
    (root : Node) :
    definingNodes root ⊆ root.nodes := by
  intro m hm
  rw [definingNodes, List.mem_append] at hm
  rcases hm with hhead | hdecl
  · rw [Option.mem_toList] at hhead
    obtain ⟨header, hlast, hname⟩ := Option.bind_eq_some_iff.mp hhead
    have hheader : header ∈ root.nodes :=
      (headerNodes_sublist_nodes root).subset (List.mem_of_getLast? hlast)
    have hmem : m ∈ nodesIn header.children :=
      mem_of_childByField_or mem_nodes_of_firstOf hname
    exact nodes_subset_of_mem_nodes hheader
      (nodesIn_children_subset header hmem)
  · obtain ⟨d, hd, hmd⟩ := List.mem_flatMap.mp hdecl
    have hdecls : d ∈ root.nodes :=
      (declNodes_sublist_nodes root).subset hd
    exact nodes_subset_of_mem_nodes hdecls (declaredNodes_subset d hmd)

end Membership

end Outline
end HaskellTags
