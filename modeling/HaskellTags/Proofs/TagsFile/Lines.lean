import HaskellTags.Proofs.Run.Delivery
import HaskellTags.Proofs.Tag.Locators
import HaskellTags.Proofs.TagsFile.Reading
import HaskellTags.Proofs.Text.Words

/-!
# One line for each tag

A tags file is read line by line, so no text of a tag may hold a line feed, and
none but the pattern a tab.  The texts of a tag come from four places.  Patterns
are lines of the source and end before a line feed.  Names, parents and aliases
are the texts of nodes, decoded with replacement, which puts no separator where
the octets have none.  Signatures are one-line forms, which keep no blank but
the space.  The file is what the caller names.

`texts_of_mem_sitesOf` gathers the texts of a module, whatever is asked of them.
-/

namespace HaskellTags

open Text HaskellTags.Tree

section Sources

/-- The octet that ends a field. -/
def Text.tab : UInt8 := 0x09

/-- The octets of a node hold neither a tab nor a line feed. -/
def Tree.Node.Unbroken (source : Octets) (n : Node) : Prop :=
  tab ∉ slice source n.label.startByte n.label.endByte ∧
    lineFeed ∉ slice source n.label.startByte n.label.endByte

instance (source : Octets) (n : Node) :
    Decidable (n.Unbroken source) :=
  inferInstanceAs (Decidable (_ ∧ _))

theorem Text.not_mem_decode
    {source : Octets} {octet : UInt8} {c : Char}
    (hoctet : octet ∉ source)
    (heq : c.toNat = octet.toNat)
    (hascii : c.toNat < 0x80) :
    c ∉ (decode source).toList := by
  intro hc
  rw [decode, String.toList_ofList] at hc
  obtain ⟨found, hfound, hsame⟩ := exists_octet_of_mem_decodeChars hc hascii
  have hoctets : found = octet :=
    UInt8.toNat_inj.1 (hsame.symm.trans heq)
  exact hoctet (hoctets ▸ hfound)

theorem Tree.Node.Unbroken.withinField_text
    {source : Octets} {n : Node}
    (h : n.Unbroken source) :
    Tag.WithinField (n.text source) :=
  ⟨not_mem_decode h.1 rfl (by decide), not_mem_decode h.2 rfl (by decide)⟩

theorem Text.withinField_oneLine
    (s : String) :
    Tag.WithinField (oneLine s) := by
  have hwords : ∀ w ∈ words s.toList, IsWord w :=
    fun w hw => isWord_of_mem_words hw
  rw [Tag.WithinField, oneLine_eq, String.toList_ofList]
  constructor
  · intro htab
    exact absurd (eq_space_of_mem_spaced hwords htab rfl) (by decide)
  · intro hfeed
    exact absurd (eq_space_of_mem_spaced hwords hfeed rfl) (by decide)

end Sources

namespace Outline

/-- The nodes that name the modules of imports and their aliases. -/
def importNameNodes (root : Node) : List Node :=
  (importNodes root).flatMap fun n =>
    (n.childByField "module").toList ++ (n.childByField "alias").toList

/-- The texts of an import are those of its nodes. -/
theorem texts_of_mem_imports
    {src : Source} {root : Node} {P : String → Prop} {i : Import}
    (hnodes : ∀ n ∈ importNameNodes root, P (n.text src.octets))
    (hi : i ∈ (ofTree src root).1.imports) :
    P i.source.text ∧ ∀ name ∈ i.asName, P name.text := by
  rw [ofTree_imports] at hi
  obtain ⟨n, hn, himport⟩ := List.mem_filterMap.1 hi
  obtain ⟨moduleNode, hmodule, rfl⟩ := Option.map_eq_some_iff.1 himport
  have hnamed :
      ∀ m ∈ (n.childByField "module").toList ++ (n.childByField "alias").toList,
        P (m.text src.octets) :=
    fun m hm => hnodes m (List.mem_flatMap.2 ⟨n, hn, hm⟩)
  constructor
  · exact hnamed moduleNode (by simp [hmodule])
  · intro name hname
    obtain ⟨aliasNode, halias, rfl⟩ := Option.map_eq_some_iff.1 hname
    exact hnamed aliasNode (by simp [halias])

end Outline

namespace Tag

section Texts

variable {render : Renderer} {P : String → Prop}

/-- The name, the name of the parent and the signature of a site fulfil `P`. -/
structure Site.Texts (P : String → Prop) (s : Site) : Prop where
  name : P s.name
  parent : ∀ p ∈ s.parent, P p.name
  signature : ∀ text ∈ s.signature, P text

theorem Site.texts_of_name
    {s : Site}
    (hname : P s.name)
    (hparent : s.parent = none)
    (hsignature : s.signature = none) :
    s.Texts P := by
  refine ⟨hname, ?_, ?_⟩
  · rw [hparent]
    rintro _ ⟨⟩
  · rw [hsignature]
    rintro _ ⟨⟩

theorem texts_of_mem_sitesOfDecl
    {d : Decl}
    (hnames : ∀ name ∈ d.names, P name.text)
    (htypes : ∀ type, P (render type)) :
    ∀ s ∈ sitesOfDecl render d, s.Texts P := by
  intro s hs
  cases d with
  | synonym span head =>
      rw [sitesOfDecl, List.mem_singleton] at hs
      rw [hs]
      exact Site.texts_of_name (hnames head List.mem_cons_self) rfl rfl
  | data span form head constructors =>
      have hhead : P head.text := hnames head List.mem_cons_self
      rw [sitesOfDecl, List.mem_cons, List.mem_map] at hs
      rcases hs with rfl | ⟨c, hc, rfl⟩
      · exact Site.texts_of_name hhead rfl rfl
      · have hname : c.name ∈ head :: constructors.map Constructor.name :=
          List.mem_cons_of_mem _ (List.mem_map_of_mem hc)
        refine ⟨hnames c.name hname, ?_, ?_⟩
        · rintro _ ⟨⟩
          exact hhead
        · rintro _ ⟨⟩
  | signature span names type =>
      rw [sitesOfDecl, List.mem_map] at hs
      obtain ⟨name, hname, rfl⟩ := hs
      refine ⟨hnames name hname, ?_, ?_⟩
      · rintro _ ⟨⟩
      · rintro _ ⟨⟩
        exact htypes type
  | other span form =>
      cases hs
  | loose c =>
      cases hs

/-- What holds of the names of a module, of its imports and of all rendered types
holds of the texts of its sites. -/
theorem texts_of_mem_sitesOf
    {m : Module}
    (hnames : ∀ place ∈ m.definitions, P place.1)
    (himports : ∀ i ∈ m.imports, P i.source.text ∧ ∀ name ∈ i.asName, P name.text)
    (htypes : ∀ type, P (render type)) :
    ∀ s ∈ sitesOf render m, s.Texts P := by
  intro s hs
  rw [Module.definitions, List.forall_mem_append] at hnames
  rw [sitesOf, List.mem_append, List.mem_append] at hs
  rcases hs with (hhead | himport) | hdecl
  · obtain ⟨name, hname, rfl⟩ := List.mem_map.1 hhead
    exact Site.texts_of_name (hnames.1 _ (List.mem_map_of_mem hname)) rfl rfl
  · obtain ⟨i, hi, rfl⟩ := List.mem_map.1 himport
    obtain ⟨hsource, halias⟩ := himports i hi
    refine ⟨hsource, ?_, ?_⟩
    · rintro _ ⟨⟩
    · intro text htext
      obtain ⟨name, hname, rfl⟩ := Option.map_eq_some_iff.1 htext
      exact halias name hname
  · obtain ⟨d, hd, hs⟩ := List.mem_flatMap.1 hdecl
    refine texts_of_mem_sitesOfDecl ?_ htypes s hs
    intro name hname
    exact hnames.2 (name.text, name.span)
      (List.mem_flatMap.2 ⟨d, hd, List.mem_map_of_mem hname⟩)

/-- The signature of a function is a rendered type. -/
theorem exists_signature_of_mem_sitesOf
    {m : Module} {s : Site}
    (hs : s ∈ sitesOf render m)
    (hkind : s.kind = .function) :
    ∃ type : TypeText, s.signature = some (render type) := by
  rw [sitesOf, List.mem_append, List.mem_append] at hs
  rcases hs with (hhead | himport) | hdecl
  · obtain ⟨name, -, rfl⟩ := List.mem_map.1 hhead
    cases hkind
  · obtain ⟨i, -, rfl⟩ := List.mem_map.1 himport
    cases hkind
  · obtain ⟨d, -, hs⟩ := List.mem_flatMap.1 hdecl
    cases d with
    | synonym span head =>
        rw [sitesOfDecl, List.mem_singleton] at hs
        rw [hs] at hkind
        cases hkind
    | data span form head constructors =>
        rw [sitesOfDecl, List.mem_cons, List.mem_map] at hs
        rcases hs with rfl | ⟨c, -, rfl⟩
        · cases form <;> cases hkind
        · cases hkind
    | signature span names type =>
        rw [sitesOfDecl, List.mem_map] at hs
        obtain ⟨name, -, rfl⟩ := hs
        exact ⟨type, rfl⟩
    | other span form =>
        cases hs
    | loose c =>
        cases hs

theorem mem_of_lineAt
    {lines : List String} {number : Int} {line : String}
    (h : lineAt lines number = some line) :
    line ∈ lines := by
  simp only [lineAt] at h
  split at h
  · exact List.mem_of_getElem? h
  · split at h
    · exact List.mem_of_getElem? h
    · cases h

end Texts

section Trees

variable {src : Outline.Source} {root : Node}

/-- The sites of a tree whose names are unbroken stay within their fields. -/
theorem withinField_of_mem_sitesOf
    (hnames : ∀ n ∈ Outline.definingNodes root ++ Outline.importNameNodes root,
      n.Unbroken src.octets) :
    ∀ s ∈ sitesOf (.ofText oneLine) (Outline.ofTree src root).1,
      s.Texts WithinField := by
  rw [List.forall_mem_append] at hnames
  apply texts_of_mem_sitesOf
  · rw [Outline.ofTree_definitions]
    intro place hplace
    obtain ⟨n, hn, rfl⟩ := List.mem_map.1 hplace
    exact (hnames.1 n hn).withinField_text
  · intro i hi
    exact Outline.texts_of_mem_imports
      (fun n hn => (hnames.2 n hn).withinField_text) hi
  · intro type
    exact withinField_oneLine type.text

/-- A signature that is words with one space between them. -/
def Spaced (signature : Option String) : Prop :=
  ∃ ws : List (List Char),
    (∀ w ∈ ws, IsWord w) ∧ signature = some (String.ofList (spaced ws))

theorem separable_of_mem_tags
    {tags : List Tag}
    (hfile : WithinField src.file)
    (hnames : ∀ n ∈ Outline.definingNodes root ++ Outline.importNameNodes root,
      n.Unbroken src.octets)
    (htags :
      (ofModule oneLine (lines (decode src.octets))
        (Outline.ofTree src root).1).outcome = .ok tags) :
    ∀ t ∈ tags, t.Separable ∧ (t.kind = .function → Spaced t.signature) := by
  intro t ht
  rw [ofModule, ofModuleWith_outcome_eq_ok_iff] at htags
  obtain ⟨s, hs, htag⟩ := Lists.exists_of_mem_right htags ht
  obtain ⟨pattern, hline, rfl⟩ := tag?_eq_ok_iff.1 htag
  obtain ⟨hname, hparent, hsignature⟩ := withinField_of_mem_sitesOf hnames s hs
  have hspan : s.span.file = src.file := by
    obtain ⟨n, -, hspan⟩ := exists_node_of_mem_sitesOf _ hs
    rw [hspan]
    rfl
  have hpattern : '\n' ∉ pattern.toList :=
    lineFeed_not_mem_of_mem_lines (mem_of_lineAt hline)
  refine ⟨⟨hname, ?_, hpattern, hparent, hsignature⟩, ?_⟩
  · rw [← hspan] at hfile
    exact hfile
  · intro hkind
    obtain ⟨type, htype⟩ := exists_signature_of_mem_sitesOf hs hkind
    refine ⟨words type.text.toList, fun w hw => isWord_of_mem_words hw, ?_⟩
    rw [← oneLine_eq]
    exact htype

end Trees

end Tag

namespace TagsFile

open Tag

section Written

/-- If the names of a tree are unbroken and its rows are rows of the source, the
module has tags whose texts stay within their fields and whose functions have
signatures of spaced words; what is printed of the tags or written into a file, sorted
or not and with a header or without one, has one line for each of them and no other but
those of the header. -/
theorem one_line_for_each_tag
    (src : Outline.Source)
    (root : Node)
    (hfile : WithinField src.file)
    (hnames : ∀ n ∈ Outline.definingNodes root ++ Outline.importNameNodes root,
      n.Unbroken src.octets)
    (hrows : ∀ n ∈ Outline.definingNodes root ++ Outline.importNodes root,
      n.RowWithin src.octets) :
    ∃ tags : List Tag,
      (ofModule oneLine (Text.lines (decode src.octets))
        (Outline.ofTree src root).1).outcome = .ok tags ∧
      (∀ t ∈ tags, t.Separable ∧ (t.kind = .function → Spaced t.signature)) ∧
      ∀ (workingDirectory : String) (files : Files.Entry) (sorted withHeader : Bool),
        ∃ shown : List Tag,
          shown.Perm tags ∧ (sorted = false → shown = tags) ∧
          splitText (· == '\n')
              (Run.writeLines workingDirectory files Run.standardOutput
                (lines sorted withHeader tags)).printed =
            (if withHeader then header sorted else []) ++ shown.map render ++ [""] ∧
          ∀ (path : String) (count : Nat),
            (Run.writeLines workingDirectory files path
              (lines sorted withHeader tags)).outcome = .ok count →
            ∃ octets : Octets,
              (Run.writeLines workingDirectory files path
                (lines sorted withHeader tags)).received path = .ok octets ∧
              octets.splitOn lineFeed =
                ((if withHeader then header sorted else []) ++ shown.map render ++ [""]).map
                  octetsOf := by
  obtain ⟨tags, htags⟩ := exists_tags_of_rowWithin oneLine hrows
  have hseparable := separable_of_mem_tags hfile hnames htags
  refine ⟨tags, htags, hseparable, ?_⟩
  intro workingDirectory files sorted withHeader
  have hlines : ∀ line ∈ lines sorted withHeader tags, '\n' ∉ line.toList :=
    lineFeed_not_mem_lines sorted withHeader fun t ht => (hseparable t ht).1
  refine ⟨arranged sorted tags, arranged_perm sorted tags, ?_, ?_, ?_⟩
  · rintro rfl
    rfl
  · rw [Run.writeLines_standardOutput]
    exact splitText_text hlines
  · intro path count hok
    exact ⟨_, Run.received_of_writeLines hok, splitOn_octetsOf_text hlines⟩

namespace Sample

/-- A source with a signature over two lines, in which a tab, an ill-formed
comment and a no-break space stand between the words of the type. -/
def source : Outline.Source where
  file := "src/M.hs"
  octets :=
    octetsOf "import A as B\nf, (+) ::\n\tInt \x7b-" ++ [0xFF] ++
      octetsOf "-\x7d ->\u00a0T"

/-- The tree of the source. -/
def tree : Node :=
  let first : Row := ⟨0, 0⟩
  let second : Row := ⟨1, 14⟩
  let third : Row := ⟨2, 24⟩
  first.across third "haskell" none 0 16 [
    first.node "imports" none 0 13 [
      first.node "import" none 0 13 [
        first.node "module" (some "module") 7 8 [],
        first.node "module" (some "alias") 12 13 []]],
    second.across third "declarations" none 0 16 [
      second.across third "signature" none 0 16 [
        second.node "binding_list" (some "names") 0 6 [
          second.node "variable" none 0 1 [],
          second.node "prefix_id" none 3 6 [
            second.node "operator" none 4 5 []]],
        third.node "function" (some "type") 1 16 [
          third.node "comment" none 5 10 []]]]]

end Sample

theorem one_line_for_each_sample :
    WithinField Sample.source.file ∧
    (∀ n ∈ Outline.definingNodes Sample.tree ++ Outline.importNameNodes Sample.tree,
      n.Unbroken Sample.source.octets) ∧
    (∀ n ∈ Outline.definingNodes Sample.tree ++ Outline.importNodes Sample.tree,
      n.RowWithin Sample.source.octets) ∧
    ∃ tags : List Tag,
      (ofModule oneLine (Text.lines (decode Sample.source.octets))
        (Outline.ofTree Sample.source Sample.tree).1).outcome = .ok tags ∧
      (∀ t ∈ tags, t.Separable ∧ (t.kind = .function → Spaced t.signature)) ∧
      tags.map (fun t => (t.name, t.pattern, t.signature)) =
        [("A", "import A as B", some "B"), ("f", "f, (+) ::", some "Int -> T"),
          ("+", "f, (+) ::", some "Int -> T")] := by
  have hfile : WithinField Sample.source.file := by decide
  have hnames :
      ∀ n ∈ Outline.definingNodes Sample.tree ++ Outline.importNameNodes Sample.tree,
        n.Unbroken Sample.source.octets := by
    decide +kernel
  have hrows :
      ∀ n ∈ Outline.definingNodes Sample.tree ++ Outline.importNodes Sample.tree,
        n.RowWithin Sample.source.octets := by
    decide +kernel
  obtain ⟨tags, htags, hseparable, -⟩ :=
    one_line_for_each_tag Sample.source Sample.tree hfile hnames hrows
  have htexts :
      ((ofModule oneLine (Text.lines (decode Sample.source.octets))
        (Outline.ofTree Sample.source Sample.tree).1).outcome.toOption.map
          fun tags => tags.map fun t => (t.name, t.pattern, t.signature)) =
        some [("A", "import A as B", some "B"), ("f", "f, (+) ::", some "Int -> T"),
          ("+", "f, (+) ::", some "Int -> T")] := by
    decide +kernel
  rw [htags] at htexts
  exact ⟨hfile, hnames, hrows, tags, htags, hseparable, Option.some.inj htexts⟩

end Written

end TagsFile
end HaskellTags
