import HaskellTags.Proofs.Tag.Sites

/-!
# Lines looked up and types rendered

An extraction looks up one line for each tag, in the order of the tags, and ends
at the first line that the source does not have.  Numbers from zero downwards count
from the end of the source, so they are there as far back as there are lines.

On its way it renders the type of each signature that it comes to, before it looks
at the names: the signature with the missing line is rendered, and what stands
behind it is not.  The renderer enters in no other way, by
`ofModuleWith_eq_of_renderedTypes`.
-/

namespace HaskellTags
namespace Tag

section Lines

/-- A source has the line with a number: counted from zero, the number is less than
that of the lines, and it goes back from the end no further than they do. -/
def HasLine (lines : List String) (number : Int) : Prop :=
  -(lines.length : Int) ≤ number - 1 ∧ number - 1 < lines.length

instance (lines : List String) (number : Int) :
    Decidable (HasLine lines number) :=
  inferInstanceAs (Decidable (_ ∧ _))

/-- A line that is there is found by its number modulo that of the lines. -/
theorem lineAt_of_hasLine
    {lines : List String} {number : Int}
    (h : HasLine lines number) :
    lineAt lines number = lines[((number - 1) % lines.length).toNat]? := by
  obtain ⟨hlow, hhigh⟩ := h
  unfold lineAt
  by_cases hstart : 0 ≤ number - 1
  · rw [if_pos hstart, Int.emod_eq_of_lt hstart hhigh]
  · have hback : (number - 1) % (lines.length : Int) = number - 1 + lines.length := by
      rw [← Int.add_emod_right]
      exact Int.emod_eq_of_lt (by omega) (by omega)
    have hfromEnd : 0 ≤ number - 1 + lines.length := by omega
    rw [if_neg hstart, if_pos hfromEnd, hback]

theorem lineAt_eq_none_iff
    {lines : List String} {number : Int} :
    lineAt lines number = none ↔ ¬ HasLine lines number := by
  constructor
  · intro hnone hline
    rw [lineAt_of_hasLine hline, List.getElem?_eq_none_iff] at hnone
    obtain ⟨hlow, hhigh⟩ := hline
    have hpos : 0 < (lines.length : Int) := by omega
    have hlt := Int.emod_lt_of_pos (number - 1) hpos
    have hnonneg := Int.emod_nonneg (number - 1) (Int.ne_of_gt hpos)
    omega
  · intro hmissing
    unfold HasLine at hmissing
    simp only [lineAt]
    split
    · rw [List.getElem?_eq_none_iff]
      omega
    · split
      · rw [List.getElem?_eq_none_iff]
        omega
      · rfl

/-- A site has a tag if its line is there, and fails by its line otherwise. -/
theorem tag?_of_missing
    {lines : List String} {s : Site}
    (h : ¬ HasLine lines s.span.startLine) :
    s.tag? lines = .error .lineOutOfRange ∨ s.tag? lines = .error .lineTooLarge := by
  unfold Site.tag? at?
  rw [lineAt_eq_none_iff.2 h]
  cases isLineNumber s.span.startLine with
  | true =>
      exact .inl rfl
  | false =>
      exact .inr rfl

theorem exists_tag?_iff
    {lines : List String} {s : Site} :
    (∃ t, s.tag? lines = .ok t) ↔ HasLine lines s.span.startLine := by
  constructor
  · rintro ⟨t, ht⟩
    obtain ⟨pattern, hpattern, -⟩ := tag?_eq_ok_iff.1 ht
    by_contra hmissing
    rw [lineAt_eq_none_iff.2 hmissing] at hpattern
    cases hpattern
  · intro hline
    cases hpattern : lineAt lines s.span.startLine with
    | none =>
        exact absurd hline (lineAt_eq_none_iff.1 hpattern)
    | some pattern =>
        exact ⟨_, tag?_eq_ok_iff.2 ⟨pattern, hpattern, rfl⟩⟩

/-- Sites have their tags if all their lines are there. -/
theorem exists_mapM_tag?_iff
    {lines : List String} {sites : List Site} :
    (∃ tags, sites.mapM (Site.tag? lines) = .ok tags) ↔
      ∀ number ∈ sites.map (fun s => s.span.startLine), HasLine lines number := by
  rw [List.forall_mem_map]
  constructor
  · rintro ⟨tags, htags⟩ s hs
    obtain ⟨t, -, ht⟩ :=
      Lists.exists_of_mem_right (Outcome.mapM_eq_ok_iff.1 htags).flip hs
    exact exists_tag?_iff.1 ⟨t, ht⟩
  · intro hlines
    exact Outcome.exists_mapM_eq_ok fun s hs => exists_tag?_iff.2 (hlines s hs)

/-- Sites fail by a line if one of their lines is not there, and in no other way. -/
theorem mapM_tag?_eq_error_iff
    {lines : List String} {sites : List Site} :
    (sites.mapM (Site.tag? lines) = .error .lineOutOfRange ∨
        sites.mapM (Site.tag? lines) = .error .lineTooLarge) ↔
      ∃ number ∈ sites.map (fun s => s.span.startLine), ¬ HasLine lines number := by
  constructor
  · intro herror
    by_contra hnone
    have hlines :
        ∀ number ∈ sites.map (fun s => s.span.startLine), HasLine lines number := by
      intro number hnumber
      by_contra hmissing
      exact hnone ⟨number, hnumber, hmissing⟩
    obtain ⟨tags, htags⟩ := exists_mapM_tag?_iff.2 hlines
    rw [htags] at herror
    rcases herror with herror | herror <;> cases herror
  · rintro ⟨number, hnumber, hmissing⟩
    cases hresult : sites.mapM (Site.tag? lines) with
    | ok tags =>
        exact absurd (exists_mapM_tag?_iff.1 ⟨tags, hresult⟩ number hnumber) hmissing
    | error failure =>
        obtain ⟨s, -, hfailure⟩ := Outcome.exists_mem_of_mapM_eq_error hresult
        have hline : ¬ HasLine lines s.span.startLine := by
          intro hline
          obtain ⟨t, ht⟩ := exists_tag?_iff.2 hline
          rw [ht] at hfailure
          cases hfailure
        rcases tag?_of_missing hline with h | h
        · rw [h] at hfailure
          cases hfailure
          exact .inl rfl
        · rw [h] at hfailure
          cases hfailure
          exact .inr rfl

end Lines

section Places

/-- The numbers of the lines that a declaration's tags stand on. -/
def linesOfDecl : Decl → List Int
  | .synonym _ head => [head.span.startLine]
  | .data _ _ head constructors =>
    head.span.startLine :: constructors.map fun c => c.name.span.startLine
  | .signature _ names _ => names.map fun name => name.span.startLine
  | .other _ _ => []
  | .loose _ => []

/-- The numbers of the lines of a module's name and of its imports. -/
def linesBeforeDecls (m : Module) : List Int :=
  m.head.toList.map (fun name => name.span.startLine) ++
    m.imports.map fun i => i.span.startLine

/-- The numbers of the lines that a module's tags stand on, in the order of the
tags. -/
def linesOf (m : Module) : List Int :=
  linesBeforeDecls m ++ m.decls.flatMap linesOfDecl

theorem startLines_sitesOfDecl
    (render : Renderer)
    (d : Decl) :
    (sitesOfDecl render d).map (fun s => s.span.startLine) = linesOfDecl d := by
  cases d with
  | synonym span head =>
      rfl
  | data span form head constructors =>
      simp [sitesOfDecl, linesOfDecl, siteOfConstructor]
  | signature span names type =>
      simp [sitesOfDecl, linesOfDecl, siteOfFunction]
  | other span form =>
      rfl
  | loose c =>
      rfl

theorem startLines_sitesOf
    (render : Renderer)
    (m : Module) :
    (sitesOf render m).map (fun s => s.span.startLine) = linesOf m := by
  simp only [sitesOf, linesOf, linesBeforeDecls, List.map_append, List.map_map,
    List.map_flatMap, startLines_sitesOfDecl]
  rfl

/-- A declaration has tags if all its lines are there. -/
theorem exists_ofDeclWith_iff
    {render : Renderer} {lines : List String} {d : Decl} :
    (∃ tags, (ofDeclWith render lines d).outcome = .ok tags) ↔
      ∀ number ∈ linesOfDecl d, HasLine lines number := by
  rw [ofDeclWith_outcome, exists_mapM_tag?_iff, startLines_sitesOfDecl]

end Places

section Renderings

/-- The types among notes that were rendered, in order. -/
def renderedIn (notes : List Note) : List String :=
  notes.filterMap Note.rendered?

@[simp] theorem renderedIn_append
    (notes more : List Note) :
    renderedIn (notes ++ more) = renderedIn notes ++ renderedIn more :=
  List.filterMap_append

/-- The type of a signature. -/
def typeOf? : Decl → Option TypeText
  | .signature _ _ type => some type
  | _ => none

/-- Whether all the lines of a declaration are there. -/
def isComplete (lines : List String) (d : Decl) : Bool :=
  (linesOfDecl d).all fun number => HasLine lines number

/-- The declarations that an extraction comes to: up to the first one with a line
that is not there, and this one. -/
def reached (lines : List String) (ds : List Decl) : List Decl :=
  ds.takeWhile (isComplete lines) ++ (ds.dropWhile (isComplete lines)).take 1

/-- The types that an extraction renders: those of the signatures that it comes to,
if it comes to a declaration at all. -/
def renderedTypes (lines : List String) (m : Module) : List TypeText :=
  if (linesBeforeDecls m).all fun number => HasLine lines number then
    (reached lines m.decls).filterMap typeOf?
  else []

theorem isComplete_iff
    {render : Renderer} {lines : List String} {d : Decl} :
    isComplete lines d = true ↔ ∃ tags, (ofDeclWith render lines d).outcome = .ok tags := by
  rw [exists_ofDeclWith_iff]
  simp [isComplete]

theorem reached_cons
    (lines : List String)
    (d : Decl)
    (ds : List Decl) :
    reached lines (d :: ds) =
      d :: if isComplete lines d then reached lines ds else [] := by
  unfold reached
  cases hd : isComplete lines d with
  | true =>
      rw [List.takeWhile_cons_of_pos hd, List.dropWhile_cons_of_pos hd]
      rfl
  | false =>
      simp [hd]

theorem filterMap_typeOf?_cons
    (d : Decl)
    (ds : List Decl) :
    (d :: ds).filterMap typeOf? = (typeOf? d).toList ++ ds.filterMap typeOf? := by
  cases hd : typeOf? d <;> simp [hd]

/-- The type of a signature is rendered once, with names or without, and whether or
not their lines are there. -/
theorem renderedIn_ofDeclWith
    (render : Renderer)
    (lines : List String)
    (d : Decl) :
    renderedIn (ofDeclWith render lines d).notes =
      (typeOf? d).toList.map TypeText.text := by
  cases d <;> rfl

theorem renderedIn_ofDecls
    (render : Renderer)
    (lines : List String)
    (ds : List Decl) :
    renderedIn (ofDecls render lines ds).notes =
      ((reached lines ds).filterMap typeOf?).map TypeText.text := by
  induction ds with
  | nil =>
      rfl
  | cons d ds ih =>
      rw [reached_cons, filterMap_typeOf?_cons, List.map_append,
        ← renderedIn_ofDeclWith render lines d]
      cases hresult : (ofDeclWith render lines d).outcome with
      | ok tags =>
          rw [if_pos (isComplete_iff.2 ⟨tags, hresult⟩), ← ih, ofDecls,
            Journal.bind_of_ok hresult, renderedIn_append, Journal.notes_bind_pure]
      | error failure =>
          have hmissing : ¬ isComplete lines d = true := by
            intro hcomplete
            obtain ⟨tags, htags⟩ := isComplete_iff.1 hcomplete
            rw [hresult] at htags
            cases htags
          rw [if_neg hmissing, ofDecls, Journal.bind_of_error hresult]
          exact (List.append_nil _).symm

/-- A declaration is rendered by what the renderer makes of its type. -/
theorem ofDeclWith_eq_of_typeOf?
    {render other : Renderer} {d : Decl}
    (h : ∀ type ∈ typeOf? d, other type = render type)
    (lines : List String) :
    ofDeclWith other lines d = ofDeclWith render lines d := by
  cases d with
  | signature span names type =>
      simp only [ofDeclWith, h type rfl]
  | _ =>
      rfl

theorem ofDecls_eq_of_reached
    {render other : Renderer} {lines : List String} {ds : List Decl}
    (h : ∀ type ∈ (reached lines ds).filterMap typeOf?, other type = render type) :
    ofDecls other lines ds = ofDecls render lines ds := by
  induction ds with
  | nil =>
      rfl
  | cons d ds ih =>
      rw [reached_cons, filterMap_typeOf?_cons, List.forall_mem_append] at h
      have hd : ofDeclWith other lines d = ofDeclWith render lines d :=
        ofDeclWith_eq_of_typeOf? (fun type htype => h.1 type (Option.mem_toList.2 htype)) lines
      rw [ofDecls, ofDecls, hd]
      cases hresult : (ofDeclWith render lines d).outcome with
      | ok tags =>
          rw [if_pos (isComplete_iff.2 ⟨tags, hresult⟩)] at h
          rw [ih h.2]
      | error failure =>
          rw [Journal.bind_of_error hresult, Journal.bind_of_error hresult]

end Renderings

section Modules

/-- The sites of a module's name and of its imports. -/
def sitesBeforeDecls (m : Module) : List Site :=
  m.head.toList.map siteOfHead ++ m.imports.map siteOfImport

theorem startLines_sitesBeforeDecls
    (m : Module) :
    (sitesBeforeDecls m).map (fun s => s.span.startLine) = linesBeforeDecls m := by
  simp only [sitesBeforeDecls, linesBeforeDecls, List.map_append, List.map_map]
  rfl

theorem all_hasLine_iff
    {lines : List String} {m : Module} :
    (linesBeforeDecls m).all (fun number => HasLine lines number) = true ↔
      ∃ before, (sitesBeforeDecls m).mapM (Site.tag? lines) = .ok before := by
  rw [exists_mapM_tag?_iff, startLines_sitesBeforeDecls]
  simp

/-- What is left to do in a module after its name and its imports. -/
def declsAfter (render : Renderer) (lines : List String) (m : Module) (before : List Tag) :
    Extraction (List Tag) := do
  let decls ← ofDecls render lines m.decls
  let tags := before ++ decls
  Journal.note (.log (finished tags.length m.decls.length))
  return tags

/-- A module's name and its imports come first, and the renderer has no part in
them. -/
theorem ofModuleWith_eq
    (render : Renderer)
    (lines : List String)
    (m : Module) :
    ofModuleWith render lines m =
      Journal.ofExcept ((sitesBeforeDecls m).mapM (Site.tag? lines)) >>=
        declsAfter render lines m := by
  rw [ofModuleWith, mapM_ofHead, mapM_ofImport, sitesBeforeDecls, List.mapM_append]
  cases hhead : (m.head.toList.map siteOfHead).mapM (Site.tag? lines) with
  | error failure =>
      rfl
  | ok head =>
      cases himports : (m.imports.map siteOfImport).mapM (Site.tag? lines) with
      | error failure =>
          rfl
      | ok imports =>
          rfl

theorem renderedIn_declsAfter
    (render : Renderer)
    (lines : List String)
    (m : Module)
    (before : List Tag) :
    renderedIn (declsAfter render lines m before).notes =
      ((reached lines m.decls).filterMap typeOf?).map TypeText.text := by
  rw [← renderedIn_ofDecls render, declsAfter]
  cases hresult : (ofDecls render lines m.decls).outcome with
  | error failure =>
      rw [Journal.bind_of_error hresult]
  | ok decls =>
      rw [Journal.bind_of_ok hresult, renderedIn_append]
      exact List.append_nil _

/-- What has been rendered when a module is done, or when a line was missing. -/
theorem renderedIn_ofModuleWith
    (render : Renderer)
    (lines : List String)
    (m : Module) :
    renderedIn (ofModuleWith render lines m).notes =
      (renderedTypes lines m).map TypeText.text := by
  rw [ofModuleWith_eq, renderedTypes]
  cases hbefore : (sitesBeforeDecls m).mapM (Site.tag? lines) with
  | ok before =>
      rw [if_pos (all_hasLine_iff.2 ⟨before, hbefore⟩), Journal.bind_of_ok rfl,
        renderedIn_append, renderedIn_declsAfter]
      rfl
  | error failure =>
      have hmissing : ¬ (linesBeforeDecls m).all (fun number => HasLine lines number) = true := by
        intro hlines
        obtain ⟨before, hok⟩ := all_hasLine_iff.1 hlines
        rw [hbefore] at hok
        cases hok
      rw [if_neg hmissing, Journal.bind_of_error rfl]
      rfl

/-- Renderers that agree on the rendered types make the same of a module. -/
theorem ofModuleWith_eq_of_renderedTypes
    {render other : Renderer} {lines : List String} {m : Module}
    (h : ∀ type ∈ renderedTypes lines m, other type = render type) :
    ofModuleWith other lines m = ofModuleWith render lines m := by
  rw [ofModuleWith_eq, ofModuleWith_eq]
  cases hbefore : (sitesBeforeDecls m).mapM (Site.tag? lines) with
  | ok before =>
      rw [renderedTypes, if_pos (all_hasLine_iff.2 ⟨before, hbefore⟩)] at h
      rw [Journal.bind_of_ok rfl, Journal.bind_of_ok rfl, declsAfter,
        ofDecls_eq_of_reached h]
      rfl
  | error failure =>
      rw [Journal.bind_of_error rfl, Journal.bind_of_error rfl]

end Modules

section Tags

/-- A tag stands on the line with a number: the line is its pattern, and it is found
by the number modulo that of all lines. -/
structure StandsOn (lines : List String) (number : Int) (t : Tag) : Prop where
  line_eq : t.line = number
  pattern_eq : lines[((number - 1) % lines.length).toNat]? = some t.pattern

/-- The tags of a declaration: one on each of its lines, and with the type of a
signature as it was rendered. -/
structure GroupOf (render : Renderer) (lines : List String) (d : Decl)
    (group : List Tag) : Prop where
  standsOn : List.Forall₂ (StandsOn lines) (linesOfDecl d) group
  signature_eq : ∀ type ∈ typeOf? d, ∀ t ∈ group, t.signature = some (render type)

theorem standsOn_of_tag?
    {lines : List String} {s : Site} {t : Tag}
    (h : s.tag? lines = .ok t) :
    StandsOn lines s.span.startLine t := by
  have hline := exists_tag?_iff.1 ⟨t, h⟩
  obtain ⟨pattern, hpattern, rfl⟩ := tag?_eq_ok_iff.1 h
  rw [lineAt_of_hasLine hline] at hpattern
  exact ⟨rfl, hpattern⟩

theorem forall₂_standsOn
    {lines : List String} {sites : List Site} {tags : List Tag}
    (h : sites.mapM (Site.tag? lines) = .ok tags) :
    List.Forall₂ (StandsOn lines) (sites.map fun s => s.span.startLine) tags := by
  rw [List.forall₂_map_left_iff]
  exact (Outcome.mapM_eq_ok_iff.1 h).imp fun _ _ => standsOn_of_tag?

theorem groupOf_of_ofDeclWith
    {render : Renderer} {lines : List String} {d : Decl} {group : List Tag}
    (h : (ofDeclWith render lines d).outcome = .ok group) :
    GroupOf render lines d group := by
  rw [ofDeclWith_outcome] at h
  refine ⟨?_, ?_⟩
  · rw [← startLines_sitesOfDecl render]
    exact forall₂_standsOn h
  · intro type htype t ht
    obtain ⟨s, hs, pattern, rfl⟩ := exists_site_of_mem (Outcome.mapM_eq_ok_iff.1 h) ht
    cases d with
    | signature span names type' =>
        cases htype
        obtain ⟨name, -, rfl⟩ := List.mem_map.1 hs
        rfl
    | _ =>
        cases htype

/--
An extraction fails by a line exactly if one of the lines that its tags stand on is
not there.  Otherwise each tag has its line as its pattern, and the tags of a
signature have its type as rendered.  In either case each signature that was come to
is rendered once, in order, and the renderer is asked for nothing else.
-/
theorem extraction_stops_at_missing_line
    (render : Renderer)
    (lines : List String)
    (m : Module) :
    let extraction := ofModuleWith render lines m
    ((extraction.outcome = .error .lineOutOfRange ∨
        extraction.outcome = .error .lineTooLarge) ↔
      ∃ number ∈ linesOf m, ¬ HasLine lines number) ∧
    ((∀ number ∈ linesOf m, HasLine lines number) →
      ∃ (before : List Tag) (groups : List (List Tag)),
        extraction.outcome = .ok (before ++ groups.flatten) ∧
        List.Forall₂ (StandsOn lines) (linesBeforeDecls m) before ∧
        List.Forall₂ (GroupOf render lines) m.decls groups) ∧
    renderedIn extraction.notes = (renderedTypes lines m).map TypeText.text ∧
    ∀ other : Renderer,
      (∀ type ∈ renderedTypes lines m, other type = render type) →
      ofModuleWith other lines m = extraction := by
  intro extraction
  have hsites : extraction.outcome = (sitesOf render m).mapM (Site.tag? lines) :=
    ofModuleWith_outcome render lines m
  refine ⟨?_, ?_, renderedIn_ofModuleWith render lines m,
    fun other => ofModuleWith_eq_of_renderedTypes⟩
  · rw [hsites, mapM_tag?_eq_error_iff, startLines_sitesOf]
  · intro hlines
    rw [← startLines_sitesOf render] at hlines
    obtain ⟨tags, htags⟩ := exists_mapM_tag?_iff.2 hlines
    obtain ⟨head, imports, groups, rfl, hhead, himports, hgroups⟩ :=
      exists_groups_of_ofModuleWith (hsites.trans htags)
    refine ⟨head ++ imports, groups, hsites.trans htags, ?_,
      hgroups.imp fun _ _ => groupOf_of_ofDeclWith⟩
    rw [← startLines_sitesBeforeDecls]
    apply forall₂_standsOn
    rw [Outcome.mapM_eq_ok_iff, sitesBeforeDecls]
    exact List.rel_append
      (List.forall₂_map_left_iff.2 hhead) (List.forall₂_map_left_iff.2 himports)

namespace Partway

def lines : List String :=
  ["f :: A", "g :: B"]

def name (text : String) (line : Int) : Name :=
  ⟨text, ⟨"M.hs", line, 1, line, 2⟩, false⟩

def signature (names : List Name) (type : String) : Decl :=
  .signature ⟨"M.hs", 1, 1, 1, 2⟩ names ⟨type, none⟩

/-- Signatures without a name, on the last line counted from the end, and on lines
before and after all there are. -/
def outline : Module where
  head := none
  imports := []
  decls :=
    [signature [] "X", signature [name "g" 0] "B",
      signature [name "f" 1, name "h" 3, name "i" (-2)] "C", signature [] "D"]

end Partway

theorem extraction_stops_at_missing_line_partway :
    let extraction := ofModuleWith (.ofText id) Partway.lines Partway.outline
    (extraction.outcome = .error .lineOutOfRange ∨
        extraction.outcome = .error .lineTooLarge) ∧
      renderedIn extraction.notes = ["X", "B", "C"] ∧
      ∃ t, (ofModuleWith (.ofText id) Partway.lines
          { Partway.outline with decls := Partway.outline.decls.take 2 }).outcome = .ok [t] ∧
        t.pattern = "g :: B" := by
  intro extraction
  obtain ⟨hfails, -, hrendered, -⟩ :=
    extraction_stops_at_missing_line (.ofText id) Partway.lines Partway.outline
  exact ⟨hfails.2 ⟨3, by decide, by decide⟩, hrendered, _, rfl, rfl⟩

end Tags

end Tag
end HaskellTags
