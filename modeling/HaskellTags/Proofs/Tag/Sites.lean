import HaskellTags.Proofs.Journal
import HaskellTags.Proofs.Lists
import HaskellTags.Tag.OfOutline

/-!
# Sites of tags

An outline fixes everything about its tags but their patterns.  A site is a tag
before its pattern is looked up, and `sitesOf` lists the sites of a module in
the order of its tags.  `ofModuleWith_outcome` says that the extraction looks up
one site after another and does nothing else that could fail.

The lines of the source enter only through `tag?`, so what holds of all sites
of a module holds of its tags for any source.
-/

namespace HaskellTags
namespace Tag

section Sites

/-- A tag before its pattern is looked up. -/
structure Site where
  name : String
  kind : Kind
  span : Span
  parent : Option Parent
  signature : Option String
  access : Option Access
  deriving DecidableEq, Repr

/-- The tag of a site whose line is known. -/
def Site.withPattern (s : Site) (pattern : String) : Tag :=
  ⟨s.name, s.span.file, pattern, s.kind, s.span.startLine,
    s.parent, s.signature, s.access⟩

/-- The tag of a site, with its pattern looked up. -/
def Site.tag? (lines : List String) (s : Site) : Except Failure Tag :=
  at? lines s.name s.kind s.span s.parent s.signature s.access

/-- The site of a module's name. -/
def siteOfHead (name : ModuleName) : Site :=
  ⟨name.text, .header, name.span, none, none, none⟩

/-- The site of an import. -/
def siteOfImport (i : Import) : Site :=
  ⟨i.source.text, .importing, i.span, none,
    i.asName.map ModuleName.text, accessOf i⟩

/-- The site of a constructor. -/
def siteOfConstructor (parent : Parent) (c : Constructor) : Site :=
  ⟨c.name.text, .constructor, c.name.span, some parent, none, none⟩

/-- The site of a function. -/
def siteOfFunction (signature : String) (name : Name) : Site :=
  ⟨name.text, .function, name.span, none, some signature, none⟩

/-- The sites of a declaration. -/
def sitesOfDecl (render : Renderer) : Decl → List Site
  | .synonym _ head => [⟨head.text, .synonym, head.span, none, none, none⟩]
  | .data _ form head constructors =>
    ⟨head.text, kindOf form, head.span, none, none, none⟩ ::
      constructors.map (siteOfConstructor ⟨kindOf form, head.text⟩)
  | .signature _ names type => names.map (siteOfFunction (render type))
  | .other _ _ => []
  | .loose _ => []

/-- The sites of a module, in the order of its tags. -/
def sitesOf (render : Renderer) (m : Module) : List Site :=
  m.head.toList.map siteOfHead ++ m.imports.map siteOfImport ++
    m.decls.flatMap (sitesOfDecl render)

end Sites

section Lookup

/-- A site has a tag if the source has its line, and the line is the pattern. -/
theorem tag?_eq_ok_iff
    {lines : List String} {s : Site} {t : Tag} :
    s.tag? lines = .ok t ↔
      ∃ pattern : String,
        lineAt lines s.span.startLine = some pattern ∧
        t = s.withPattern pattern := by
  unfold Site.tag? at?
  cases lineAt lines s.span.startLine with
  | none =>
      simp
  | some pattern =>
      simp [Site.withPattern, eq_comm]

/-- A line number from one on is looked up by its place. -/
theorem lineAt_add_one
    (lines : List String)
    (row : Nat) :
    lineAt lines ((row : Int) + 1) = lines[row]? := by
  simp [lineAt]

end Lookup

section Extraction

variable (render : Renderer) (lines : List String)

/-- The tags of a declaration are those of its sites. -/
theorem ofDeclWith_outcome
    (d : Decl) :
    (ofDeclWith render lines d).outcome =
      (sitesOfDecl render d).mapM (Site.tag? lines) := by
  cases d with
  | synonym span head =>
      simp [ofDeclWith, sitesOfDecl, Site.tag?]
  | data span form head constructors =>
      simp only [ofDeclWith, sitesOfDecl, Journal.outcome_ofExcept,
        List.mapM_cons, List.mapM_map]
      rfl
  | signature span names type =>
      simp only [ofDeclWith, sitesOfDecl, Journal.outcome_bind,
        Journal.outcome_note, Outcome.ok_bind, Journal.outcome_ofExcept,
        List.mapM_map]
      rfl
  | other span form =>
      rfl
  | loose c =>
      rfl

theorem ofDecls_outcome
    (ds : List Decl) :
    (ofDecls render lines ds).outcome =
      (ds.flatMap (sitesOfDecl render)).mapM (Site.tag? lines) := by
  induction ds with
  | nil =>
      rfl
  | cons d ds ih =>
      simp only [ofDecls, Journal.outcome_bind, ofDeclWith_outcome, ih,
        List.flatMap_cons, List.mapM_append]
      rfl

theorem mapM_ofHead
    (names : List ModuleName) :
    names.mapM (ofHead lines) = (names.map siteOfHead).mapM (Site.tag? lines) := by
  rw [List.mapM_map]
  rfl

theorem mapM_ofImport
    (imports : List Import) :
    imports.mapM (ofImport lines) = (imports.map siteOfImport).mapM (Site.tag? lines) := by
  rw [List.mapM_map]
  rfl

/-- The extraction looks up the sites of a module one after another. -/
theorem ofModuleWith_outcome
    (m : Module) :
    (ofModuleWith render lines m).outcome =
      (sitesOf render m).mapM (Site.tag? lines) := by
  simp only [ofModuleWith, sitesOf, Journal.outcome_bind,
    Journal.outcome_ofExcept, Journal.outcome_note, Outcome.ok_bind,
    ofDecls_outcome, mapM_ofHead, mapM_ofImport, List.mapM_append, bind_assoc,
    pure_bind]
  rfl

/-- A module has tags if the source has the line of every site. -/
theorem ofModuleWith_outcome_eq_ok_iff
    {m : Module} {tags : List Tag} :
    (ofModuleWith render lines m).outcome = .ok tags ↔
      List.Forall₂ (fun s t => Site.tag? lines s = .ok t)
        (sitesOf render m) tags := by
  rw [ofModuleWith_outcome, Outcome.mapM_eq_ok_iff]

end Extraction

section Groups

variable {render : Renderer} {lines : List String}

/-- A tag that was looked up is its site with a pattern. -/
theorem exists_site_of_mem
    {sites : List Site} {tags : List Tag} {t : Tag}
    (h : List.Forall₂ (fun s t => Site.tag? lines s = .ok t) sites tags)
    (ht : t ∈ tags) :
    ∃ s ∈ sites, ∃ pattern : String, t = s.withPattern pattern := by
  obtain ⟨s, hs, htag⟩ := Lists.exists_of_mem_right h ht
  obtain ⟨pattern, _, heq⟩ := tag?_eq_ok_iff.mp htag
  exact ⟨s, hs, pattern, heq⟩

/-- The tags of several declarations come in groups, one for each of them. -/
theorem exists_groups_of_ofDecls
    {ds : List Decl} {tags : List Tag}
    (h : (ofDecls render lines ds).outcome = .ok tags) :
    ∃ groups : List (List Tag),
      tags = groups.flatten ∧
      List.Forall₂ (fun d g => (ofDeclWith render lines d).outcome = .ok g)
        ds groups := by
  induction ds generalizing tags with
  | nil =>
      cases h
      exact ⟨[], rfl, .nil⟩
  | cons d ds ih =>
      rw [ofDecls, Journal.outcome_bind, Outcome.bind_eq_ok_iff] at h
      obtain ⟨group, hgroup, hrest⟩ := h
      rw [Journal.outcome_bind, Outcome.bind_eq_ok_iff] at hrest
      obtain ⟨others, hothers, htags⟩ := hrest
      cases htags
      obtain ⟨groups, rfl, hgroups⟩ := ih hothers
      exact ⟨group :: groups, rfl, .cons hgroup hgroups⟩

/-- The tags of a module: its own, those of its imports, and one group for each
declaration. -/
theorem exists_groups_of_ofModuleWith
    {m : Module} {tags : List Tag}
    (h : (ofModuleWith render lines m).outcome = .ok tags) :
    ∃ (head imports : List Tag) (groups : List (List Tag)),
      tags = head ++ imports ++ groups.flatten ∧
      List.Forall₂ (fun name t => ofHead lines name = .ok t) m.head.toList head ∧
      List.Forall₂ (fun i t => ofImport lines i = .ok t) m.imports imports ∧
      List.Forall₂ (fun d g => (ofDeclWith render lines d).outcome = .ok g)
        m.decls groups := by
  rw [ofModuleWith, Journal.outcome_bind, Outcome.bind_eq_ok_iff] at h
  obtain ⟨head, hhead, h⟩ := h
  rw [Journal.outcome_bind, Outcome.bind_eq_ok_iff] at h
  obtain ⟨imports, himports, h⟩ := h
  rw [Journal.outcome_bind, Outcome.bind_eq_ok_iff] at h
  obtain ⟨decls, hdecls, h⟩ := h
  cases h
  obtain ⟨groups, rfl, hgroups⟩ := exists_groups_of_ofDecls hdecls
  exact ⟨head, imports, groups, rfl, Outcome.mapM_eq_ok_iff.mp hhead,
    Outcome.mapM_eq_ok_iff.mp himports, hgroups⟩

end Groups

end Tag
end HaskellTags
