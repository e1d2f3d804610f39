import HaskellTags.Proofs.Tag.Sites
import HaskellTags.Text.Blank
import Mathlib.Computability.RegularExpressions

/-!
# The shape of a tag list

The tags of a module are a flat list, but the list can be read back: its kinds
are a word of a regular language, and position alone tells which type a
constructor belongs to.  Both properties are closed under concatenation.  So it
is enough to look at the group of tags of one declaration, form by form, and to
put the groups together.
-/

namespace HaskellTags

/-- How many tags a declaration has. -/
def Decl.tagCount : Decl → Nat
  | .synonym _ _ => 1
  | .data _ _ _ constructors => 1 + constructors.length
  | .signature _ names _ => names.length
  | .other _ _ => 0
  | .loose _ => 0

/-- How many tags some declarations have together. -/
def tagTotal (ds : List Decl) : Nat :=
  ds.foldr (fun d total => d.tagCount + total) 0

namespace Tag

open RegularExpression

section Shapes

/-- The kinds of what one declaration, or one name of a signature, gives. -/
def unitKinds : RegularExpression Kind :=
  char .synonym + (char .data + char .newtype) * (char .constructor).star +
    char .function

/-- The kinds of the tags of a module. -/
def moduleKinds : RegularExpression Kind :=
  (1 + char .header) * (char .importing).star * unitKinds.star

/-- The optional fields of a tag are those of its kind. -/
structure Fits (t : Tag) : Prop where
  parent_iff : t.parent.isSome = true ↔ t.kind = .constructor
  access_only : t.access.isSome = true → t.kind = .importing
  signature_only :
    t.signature.isSome = true → t.kind = .importing ∨ t.kind = .function
  signature_always : t.kind = .function → t.signature.isSome = true

/-- The nearest type before a place: only constructors stand in between. -/
def OwnerBefore (before : List Tag) (owner : Tag) : Prop :=
  ∃ earlier between : List Tag,
    before = earlier ++ owner :: between ∧
    (owner.kind = .data ∨ owner.kind = .newtype) ∧
    ∀ t ∈ between, t.kind = .constructor

/-- Every constructor belongs to the nearest type before it. -/
def Owned (tags : List Tag) : Prop :=
  ∀ (before : List Tag) (t : Tag) (after : List Tag),
    tags = before ++ t :: after →
    t.kind = .constructor →
    ∃ owner : Tag,
      OwnerBefore before owner ∧
      t.parent = some ⟨owner.kind, owner.name⟩

/-- The shape of the tags of a module. -/
structure Shape (m : Module) (tags : List Tag) : Prop where
  kinds_mem : tags.map Tag.kind ∈ moduleKinds.matches'
  fits : ∀ t ∈ tags, Fits t
  owned : Owned tags
  length_eq :
    tags.length =
      (if m.head.isSome then 1 else 0) + m.imports.length + tagTotal m.decls

end Shapes

section Kinds

/-- A word whose letters are words of a language is a word of its closure. -/
theorem mem_star_of_forall
    {P : RegularExpression Kind} {kinds : List Kind}
    (h : ∀ k ∈ kinds, [k] ∈ P.matches') :
    kinds ∈ P.star.matches' := by
  rw [matches'_star, Language.mem_kstar]
  refine ⟨kinds.map fun k => [k], (List.flatMap_singleton' kinds).symm, ?_⟩
  intro word hword
  obtain ⟨k, hk, rfl⟩ := List.mem_map.mp hword
  exact h k hk

theorem mem_star_of_mem
    {P : RegularExpression Kind} {kinds : List Kind}
    (h : kinds ∈ P.matches') :
    kinds ∈ P.star.matches' := by
  rw [matches'_star, Language.mem_kstar]
  exact ⟨[kinds], by simp, by simpa using h⟩

theorem append_mem_star
    {P : RegularExpression Kind} {kinds others : List Kind}
    (h : kinds ∈ P.star.matches')
    (hothers : others ∈ P.star.matches') :
    kinds ++ others ∈ P.star.matches' := by
  rw [matches'_star] at h hothers ⊢
  rw [← kstar_mul_kstar]
  exact Language.append_mem_mul h hothers

theorem synonym_mem_unitKinds :
    [Kind.synonym] ∈ unitKinds.matches' :=
  Or.inl (Or.inl rfl)

theorem function_mem_unitKinds :
    [Kind.function] ∈ unitKinds.matches' :=
  Or.inr rfl

theorem data_mem_unitKinds
    (form : DataForm)
    {kinds : List Kind}
    (h : ∀ k ∈ kinds, k = .constructor) :
    kindOf form :: kinds ∈ unitKinds.matches' := by
  have hform :
      [kindOf form] ∈ (char Kind.data + char Kind.newtype).matches' := by
    cases form with
    | data =>
        exact Or.inl rfl
    | newtype =>
        exact Or.inr rfl
  have hconstructors : kinds ∈ (char Kind.constructor).star.matches' := by
    apply mem_star_of_forall
    intro k hk
    rw [h k hk]
    rfl
  have hword := Language.append_mem_mul hform hconstructors
  exact Or.inl (Or.inr hword)

end Kinds

section Ownership

theorem OwnerBefore.append_left
    {before : List Tag} {owner : Tag}
    (h : OwnerBefore before owner)
    (tags : List Tag) :
    OwnerBefore (tags ++ before) owner := by
  obtain ⟨earlier, between, rfl, hkind, hbetween⟩ := h
  exact ⟨tags ++ earlier, between, by simp, hkind, hbetween⟩

theorem owned_of_no_constructor
    {tags : List Tag}
    (h : ∀ t ∈ tags, t.kind ≠ .constructor) :
    Owned tags := by
  rintro before t after rfl hkind
  exact absurd hkind (h t (by simp))

/-- Ownership is a matter of each part alone: what owns a constructor is never
further away than the start of its part. -/
theorem Owned.append
    {xs ys : List Tag}
    (hxs : Owned xs)
    (hys : Owned ys) :
    Owned (xs ++ ys) := by
  intro before t after hsplit hkind
  rcases List.append_eq_append_iff.mp hsplit with
    ⟨middle, rfl, hmiddle⟩ | ⟨middle, hxs', hmiddle⟩
  · obtain ⟨owner, howner, hparent⟩ := hys middle t after hmiddle hkind
    exact ⟨owner, howner.append_left xs, hparent⟩
  · cases middle with
    | nil =>
        obtain ⟨owner, howner, hparent⟩ := hys [] t after hmiddle.symm hkind
        refine ⟨owner, ?_, hparent⟩
        simpa [hxs'] using howner.append_left xs
    | cons first middle =>
        rw [List.cons_append, List.cons.injEq] at hmiddle
        obtain ⟨rfl, _⟩ := hmiddle
        exact hxs before t middle hxs' hkind

theorem owned_cons
    {owner : Tag} {tags : List Tag}
    (howner : owner.kind = .data ∨ owner.kind = .newtype)
    (htags : ∀ t ∈ tags,
      t.kind = .constructor ∧ t.parent = some ⟨owner.kind, owner.name⟩) :
    Owned (owner :: tags) := by
  intro before t after hsplit hkind
  cases before with
  | nil =>
      rw [List.nil_append, List.cons.injEq] at hsplit
      rw [hsplit.1, hkind] at howner
      simp at howner
  | cons first between =>
      rw [List.cons_append, List.cons.injEq] at hsplit
      obtain ⟨rfl, rfl⟩ := hsplit
      refine ⟨owner, ⟨[], between, rfl, howner, ?_⟩, (htags t (by simp)).2⟩
      intro s hs
      exact (htags s (List.mem_append_left _ hs)).1

end Ownership

section Declarations

variable {render : Renderer} {lines : List String}

theorem kindOf_data_or_newtype
    (form : DataForm) :
    kindOf form = .data ∨ kindOf form = .newtype := by
  cases form <;> simp [kindOf]

/-- What the group of tags of a declaration contributes. -/
structure GroupShape (d : Decl) (g : List Tag) : Prop where
  kinds_mem : g.map Tag.kind ∈ unitKinds.star.matches'
  owned : Owned g
  length_eq : g.length = d.tagCount

theorem groupShape_synonym
    {span : Span} {head : Name} {g : List Tag}
    (h : (ofDeclWith render lines (.synonym span head)).outcome = .ok g) :
    GroupShape (.synonym span head) g := by
  rw [ofDeclWith_outcome, Outcome.mapM_eq_ok_iff] at h
  cases h with
  | cons hfirst hrest =>
      cases hrest
      obtain ⟨pattern, _, rfl⟩ := tag?_eq_ok_iff.mp hfirst
      refine ⟨mem_star_of_mem synonym_mem_unitKinds, ?_, rfl⟩
      apply owned_of_no_constructor
      simp [Site.withPattern]

theorem groupShape_data
    {span : Span} {form : DataForm} {head : Name}
    {constructors : List Constructor} {g : List Tag}
    (h : (ofDeclWith render lines
      (.data span form head constructors)).outcome = .ok g) :
    GroupShape (.data span form head constructors) g := by
  rw [ofDeclWith_outcome, Outcome.mapM_eq_ok_iff] at h
  cases h with
  | @cons _ owner _ tags hfirst hrest =>
      obtain ⟨pattern, _, rfl⟩ := tag?_eq_ok_iff.mp hfirst
      have htags :
          ∀ t ∈ tags,
            t.kind = .constructor ∧
            t.parent = some ⟨kindOf form, head.text⟩ := by
        intro t ht
        obtain ⟨s, hs, pattern', rfl⟩ := exists_site_of_mem hrest ht
        obtain ⟨c, _, rfl⟩ := List.mem_map.mp hs
        exact ⟨rfl, rfl⟩
      have hlength : tags.length = constructors.length := by
        rw [← hrest.length_eq, List.length_map]
      refine ⟨mem_star_of_mem ?_, ?_, ?_⟩
      · apply data_mem_unitKinds form
        intro k hk
        obtain ⟨t, ht, rfl⟩ := List.mem_map.mp hk
        exact (htags t ht).1
      · exact owned_cons (kindOf_data_or_newtype form) htags
      · rw [List.length_cons, Decl.tagCount]
        omega

theorem groupShape_signature
    {span : Span} {names : List Name} {type : TypeText} {g : List Tag}
    (h : (ofDeclWith render lines (.signature span names type)).outcome = .ok g) :
    GroupShape (.signature span names type) g := by
  rw [ofDeclWith_outcome, Outcome.mapM_eq_ok_iff] at h
  have hkind : ∀ t ∈ g, t.kind = .function := by
    intro t ht
    obtain ⟨s, hs, pattern, rfl⟩ := exists_site_of_mem h ht
    obtain ⟨name, _, rfl⟩ := List.mem_map.mp hs
    rfl
  refine ⟨?_, ?_, ?_⟩
  · apply mem_star_of_forall
    intro k hk
    obtain ⟨t, ht, rfl⟩ := List.mem_map.mp hk
    rw [hkind t ht]
    exact function_mem_unitKinds
  · apply owned_of_no_constructor
    intro t ht
    simp [hkind t ht]
  · rw [← h.length_eq]
    simp [sitesOfDecl, Decl.tagCount]

theorem groupShape_nil
    {d : Decl}
    (h : d.tagCount = 0) :
    GroupShape d [] := by
  refine ⟨?_, ?_, h.symm⟩
  · exact mem_star_of_forall (by simp)
  · exact owned_of_no_constructor (by simp)

theorem groupShape_of_ofDeclWith
    {d : Decl} {g : List Tag}
    (h : (ofDeclWith render lines d).outcome = .ok g) :
    GroupShape d g := by
  cases d with
  | synonym span head =>
      exact groupShape_synonym h
  | data span form head constructors =>
      exact groupShape_data h
  | signature span names type =>
      exact groupShape_signature h
  | other span form =>
      cases h
      exact groupShape_nil rfl
  | loose c =>
      cases h
      exact groupShape_nil rfl

/-- The groups of several declarations, put together. -/
theorem shape_flatten
    {ds : List Decl} {groups : List (List Tag)}
    (h : List.Forall₂ (fun d g => (ofDeclWith render lines d).outcome = .ok g)
      ds groups) :
    groups.flatten.map Tag.kind ∈ unitKinds.star.matches' ∧
    Owned groups.flatten ∧
    groups.flatten.length = tagTotal ds := by
  have hshapes : List.Forall₂ GroupShape ds groups :=
    h.imp fun _ _ hgroup => groupShape_of_ofDeclWith hgroup
  clear h
  induction hshapes with
  | nil =>
      refine ⟨mem_star_of_forall (by simp), ?_, rfl⟩
      exact owned_of_no_constructor (by simp)
  | @cons d g ds groups hg hgroups ih =>
      obtain ⟨hkinds, howned, hlength⟩ := ih
      refine ⟨?_, hg.owned.append howned, ?_⟩
      · rw [List.flatten_cons, List.map_append]
        exact append_mem_star hg.kinds_mem hkinds
      · rw [List.flatten_cons, List.length_append, hg.length_eq, hlength]
        rfl

end Declarations

section Modules

variable {render : Renderer} {lines : List String}

theorem fits_of_mem_sitesOfDecl
    {d : Decl} {s : Site}
    (hs : s ∈ sitesOfDecl render d)
    (pattern : String) :
    Fits (s.withPattern pattern) := by
  cases d with
  | synonym span head =>
      rw [sitesOfDecl, List.mem_singleton] at hs
      subst hs
      constructor <;> simp [Site.withPattern]
  | data span form head constructors =>
      rw [sitesOfDecl, List.mem_cons] at hs
      rcases hs with rfl | hs
      · cases form <;> constructor <;> simp [Site.withPattern, kindOf]
      · obtain ⟨c, _, rfl⟩ := List.mem_map.mp hs
        constructor <;> simp [Site.withPattern, siteOfConstructor]
  | signature span names type =>
      obtain ⟨name, _, rfl⟩ := List.mem_map.mp hs
      constructor <;> simp [Site.withPattern, siteOfFunction]
  | other span form =>
      cases hs
  | loose c =>
      cases hs

theorem fits_of_mem_sitesOf
    {m : Module} {s : Site}
    (hs : s ∈ sitesOf render m)
    (pattern : String) :
    Fits (s.withPattern pattern) := by
  rw [sitesOf, List.mem_append, List.mem_append] at hs
  rcases hs with (hhead | himport) | hdecl
  · obtain ⟨name, _, rfl⟩ := List.mem_map.mp hhead
    constructor <;> simp [Site.withPattern, siteOfHead]
  · obtain ⟨i, _, rfl⟩ := List.mem_map.mp himport
    constructor <;> simp [Site.withPattern, siteOfImport]
  · obtain ⟨d, _, hd⟩ := List.mem_flatMap.mp hdecl
    exact fits_of_mem_sitesOfDecl hd pattern

theorem kind_of_at?
    {name : String} {kind : Kind} {span : Span} {parent : Option Parent}
    {signature : Option String} {access : Option Access} {t : Tag}
    (h : at? lines name kind span parent signature access = .ok t) :
    t.kind = kind := by
  have hsite : Site.tag? lines ⟨name, kind, span, parent, signature, access⟩ = .ok t := h
  obtain ⟨pattern, _, rfl⟩ := tag?_eq_ok_iff.mp hsite
  rfl

/-- All tags of one list are of one kind if each of them is. -/
theorem forall_kind_of_forall₂
    {α : Type}
    {f : α → Except Failure Tag}
    {kind : Kind}
    (hf : ∀ (a : α) (t : Tag), f a = .ok t → t.kind = kind)
    {as : List α} {tags : List Tag}
    (h : List.Forall₂ (fun a t => f a = .ok t) as tags) :
    ∀ t ∈ tags, t.kind = kind := by
  intro t ht
  obtain ⟨a, _, hat⟩ := Lists.exists_of_mem_right h ht
  exact hf a t hat

theorem head_kinds_mem
    {name : Option ModuleName} {tags : List Tag}
    (h : List.Forall₂ (fun n t => ofHead lines n = .ok t) name.toList tags) :
    tags.map Tag.kind ∈ (1 + char Kind.header).matches' := by
  cases name with
  | none =>
      cases h
      exact Or.inl rfl
  | some name =>
      cases h with
      | cons hfirst hrest =>
          cases hrest
          rw [List.map_singleton, kind_of_at? hfirst]
          exact Or.inr rfl

theorem import_kinds_mem
    {imports : List Import} {tags : List Tag}
    (h : List.Forall₂ (fun i t => ofImport lines i = .ok t) imports tags) :
    tags.map Tag.kind ∈ (char Kind.importing).star.matches' := by
  have hkind := forall_kind_of_forall₂ (fun _ _ ht => kind_of_at? ht) h
  apply mem_star_of_forall
  intro k hk
  obtain ⟨t, ht, rfl⟩ := List.mem_map.mp hk
  rw [hkind t ht]
  rfl

/--
Whatever the lines of a source and the renderer are, the tags of a module have
the shape of the module.
-/
theorem tags_have_shape
    (render : Renderer)
    (lines : List String)
    (m : Module)
    (tags : List Tag)
    (h : (ofModuleWith render lines m).outcome = .ok tags) :
    Shape m tags := by
  have hsites := (ofModuleWith_outcome_eq_ok_iff render lines).mp h
  obtain ⟨head, imports, groups, rfl, hhead, himports, hgroups⟩ :=
    exists_groups_of_ofModuleWith h
  obtain ⟨hkinds, howned, hlength⟩ := shape_flatten hgroups
  have hheadKind := forall_kind_of_forall₂ (fun _ _ ht => kind_of_at? ht) hhead
  have himportKind :=
    forall_kind_of_forall₂ (fun _ _ ht => kind_of_at? ht) himports
  refine ⟨?_, ?_, ?_, ?_⟩
  · rw [List.map_append, List.map_append]
    exact Language.append_mem_mul
      (Language.append_mem_mul (head_kinds_mem hhead) (import_kinds_mem himports))
      hkinds
  · intro t ht
    obtain ⟨s, hs, pattern, rfl⟩ := exists_site_of_mem hsites ht
    exact fits_of_mem_sitesOf hs pattern
  · have hheadOwned : Owned head := by
      apply owned_of_no_constructor
      intro t ht
      simp [hheadKind t ht]
    have himportsOwned : Owned imports := by
      apply owned_of_no_constructor
      intro t ht
      simp [himportKind t ht]
    exact (hheadOwned.append himportsOwned).append howned
  · have hheadLength : head.length = if m.head.isSome then 1 else 0 := by
      rw [← hhead.length_eq]
      cases m.head <;> rfl
    rw [List.length_append, List.length_append, hheadLength,
      ← himports.length_eq, hlength]

end Modules

namespace Specimen

def lines : List String :=
  ["module M where", "import qualified A as B", "data D = D1 | D2", "data E",
    "f, g :: D", "f = g", "newtype N = N D"]

def span (line : Int) : Span :=
  ⟨"M.hs", line, 1, line, 2⟩

def name (text : String) (line : Int) : Name :=
  ⟨text, span line, false⟩

def declarations : List Decl :=
  [.data (span 3) .data (name "D" 3)
      [⟨span 3, name "D1" 3⟩, ⟨span 3, name "D2" 3⟩],
    .data (span 4) .data (name "E" 4) [],
    .signature (span 5) [name "f" 5, name "g" 5] ⟨"D", none⟩,
    .other (span 6) "bind",
    .data (span 7) .newtype (name "N" 7) [⟨span 7, name "N" 7⟩]]

/-- A module with an empty type before a signature and both forms of types. -/
def outline : Module where
  head := some ⟨"M", span 1⟩
  imports := [⟨span 2, ⟨"A", span 2⟩, true, some ⟨"B", span 2⟩, none⟩]
  decls := declarations

end Specimen

theorem tags_have_shape_specimen :
    ∃ tags : List Tag,
      (ofModuleWith (.ofText Text.oneLine) Specimen.lines
        Specimen.outline).outcome = .ok tags ∧
      tags.map Tag.kind =
        [.header, .importing, .data, .constructor, .constructor, .data,
          .function, .function, .newtype, .constructor] ∧
      Shape Specimen.outline tags := by
  refine ⟨_, rfl, rfl, ?_⟩
  exact tags_have_shape (.ofText Text.oneLine) Specimen.lines Specimen.outline _ rfl

end Tag
end HaskellTags
