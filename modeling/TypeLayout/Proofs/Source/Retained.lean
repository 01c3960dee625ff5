import TypeLayout.Proofs.Source.Census
import TypeLayout.Proofs.Source.Occurrences
import TypeLayout.Proofs.Source.Rivals
/-! A clean outcome loses nothing. Where no error comes up, the second pass goes through every
occurrence that the first pass has made room for, and keeps each in the scope around it; typedefs
may be among them. -/

namespace TypeLayout

open Registry

variable {first : Registry}

section

variable {z z' : Resolution} {s : ScopeId} {p : List String} {a : Descriptor}

theorem resolveEnum_retains {e : EnumDecl} (hz : z.registry.Built)
    (hp : z.registry.scopeAt p = some s) (h : (resolveEnum s e).run z = (.ok a, z')) :
    Retains first [⟨p, .enum e⟩] z.registry z'.registry ∧
      z'.registry.Lists s [.enum e] a.id?.toList := by
  obtain ⟨type, z₁, h₁, h⟩ := run_bind_eq_ok.mp h
  rw [run_ofExcept] at h₁
  obtain ⟨ht, rfl⟩ := Prod.mk.inj h₁
  cases hname : e.name with
  | none =>
    rw [hname] at h
    cases h
    exact ⟨retains_unnamed hname, lists_unnamed hname⟩
  | some name =>
    rw [hname] at h
    obtain ⟨id, z₂, h₂, h⟩ := run_bind_eq_ok.mp h
    obtain ⟨hd, -⟩ := ResolveM.run_define_ok h₂
    cases h
    have hs := hz.wellFormed.scopeAt_lt hp
    exact ⟨retains_define hz.wellFormed hp hd hname rfl (.enum ht),
      lists_named hname (named?_of_define hs hd).1⟩

theorem virtualBases_eq {r : Registry} {bs : List BaseDecl} {specs : List BaseSpec}
    (h : List.Forall₂ (fun b spec => r.resolveBase s b = .ok spec) bs specs) :
    specs.map BaseSpec.isVirtual = bs.map BaseDecl.isVirtual := by
  induction h with
  | nil => rfl
  | cons hb _ ih =>
    obtain ⟨id, -, rfl⟩ := resolveBase_ok hb
    exact congrArg _ ih

theorem closeRecord_retains {decl : RecordDecl} {body : Aggregate} (hz : z.registry.Built)
    (hp : z.registry.scopeAt p = some s)
    (hx : ∀ x ∈ ownSites p decl.name (.record decl), z.registry.Accepts x)
    (hcopies : ∀ id, z.registry.definition? id = none →
      Copies first z.registry s id decl body)
    (h : (closeRecord s body decl.name).run z = (.ok a, z')) :
    Retains first [⟨p, .record decl⟩] z.registry z'.registry ∧
      z'.registry.Lists s [.record decl] a.id?.toList := by
  cases hname : decl.name with
  | none =>
    rw [hname] at h
    cases h
    exact ⟨retains_unnamed hname, lists_unnamed hname⟩
  | some name =>
    rw [hname] at h hx
    obtain ⟨id, hd, rfl⟩ := closeRecord_named_ok h
    obtain ⟨j, -, -, hat, -⟩ := hx _ List.mem_cons_self
    have hbound : z.registry.rival? s name (.aggregate body) = some j :=
      (tagAt_cons hp).symm.trans hat
    obtain ⟨rfl, hnone⟩ := incomplete_of_define hbound hd
    have hs := hz.wellFormed.scopeAt_lt hp
    have hrenders := Renders.record (hcopies id hnone)
    exact ⟨retains_define hz.wellFormed hp hd hname rfl (hrenders.growsTo (growsTo_define hd)),
      lists_named hname (named?_of_define hs hd).1⟩

end

mutual

theorem resolveDeclaration_retains (d : Declaration) (defining : List TypeId)
    {z z' : Resolution} {s : ScopeId} {p : List String} (hz : z.registry.Built)
    (hfirst : first.GrowsTo z.registry) (hp : z.registry.scopeAt p = some s)
    (hx : ∀ x ∈ d.sites p, z.registry.Accepts x) {id : Option TypeId}
    (h : (resolveDeclaration defining s d).run z = (.ok id, z'))
    (hc : z'.deferred = z.deferred) :
    Retains first (d.occurrences p) z.registry z'.registry ∧
      z'.registry.Lists s [d] id.toList := by
  cases d with
  | record r =>
    obtain ⟨a, z₁, h₁, h⟩ := run_bind_eq_ok.mp h
    cases h
    exact resolveRecord_retains r defining hz hfirst hp hx h₁ hc
  | forward tag name =>
    obtain ⟨j, z₁, h₁, h⟩ := run_bind_eq_ok.mp h
    cases h
    obtain ⟨r', hdecl, rfl⟩ := ResolveM.run_declare_ok h₁
    have hbound := (declare_bound (hz.wellFormed.scopeAt_lt hp) hdecl).1
    exact ⟨(growsTo_declare hdecl).retains_nil, lists_named rfl hbound⟩
  | enum e =>
    obtain ⟨a, z₁, h₁, h⟩ := run_bind_eq_ok.mp h
    cases h
    exact resolveEnum_retains hz hp h₁
  | typedef name target =>
    obtain ⟨type, z₁, h₁, h⟩ := run_bind_eq_ok.mp h
    obtain ⟨_, z₂, h₂, h⟩ := run_bind_eq_ok.mp h
    cases h₂
    obtain ⟨_, z₃, h₃, h⟩ := run_bind_eq_ok.mp h
    cases h₃
    obtain ⟨j, z₄, h₄, h⟩ := run_bind_eq_ok.mp h
    cases h
    obtain ⟨hd, hc₄⟩ := ResolveM.run_define_ok h₄
    have hs := hz.wellFormed.scopeAt_lt hp
    have hz₁ := (resolveDeclarator_built target defining hz hs).kept_of_run h₁
    have hr₁ := resolveDeclarator_retains target defining hz hfirst hp hx h₁ (hc₄.symm.trans hc)
    have hp₁ := hr₁.toGrowsTo.scopeAt hp
    have hr₄ : Retains first [⟨p, .typedef name target⟩] _ _ :=
      retains_define hz₁.wellFormed hp₁ hd rfl rfl .typedef
    exact ⟨hr₁.trans hr₄, lists_named rfl (named?_of_define (hz₁.wellFormed.scopeAt_lt hp₁) hd).1⟩

theorem resolveRecord_retains (r : RecordDecl) (defining : List TypeId) {z z' : Resolution}
    {s : ScopeId} {p : List String} (hz : z.registry.Built) (hfirst : first.GrowsTo z.registry)
    (hp : z.registry.scopeAt p = some s) (hx : ∀ x ∈ r.sites p, z.registry.Accepts x)
    {a : Descriptor} (h : (resolveRecord defining s r).run z = (.ok a, z'))
    (hc : z'.deferred = z.deferred) :
    Retains first (r.occurrences p) z.registry z'.registry ∧
      z'.registry.Lists s [.record r] a.id?.toList := by
  obtain ⟨tag, name, bases, members, functions, nested⟩ := r
  obtain ⟨id, t, z₁, z₂, specs, xs, z₄, h₁, h₂, hc₂, hspecs, h₄, hc₄, h₅⟩ :=
    resolveRecord_clean h hc
  have hown : ∀ x ∈ ownSites p name (.record ⟨tag, name, bases, members, functions, nested⟩),
      z.registry.Accepts x := fun x hmem => hx x (List.mem_append_left _ hmem)
  have hinside : ∀ x ∈ sitesAll (insideOf p name) nested ++ sitesOfMembers (insideOf p name)
      members, z.registry.Accepts x := fun x hmem => hx x (List.mem_append_right _ hmem)
  obtain ⟨rfl, ht⟩ := openRecord_ok rfl hz hp hown h₁
  have hz₂ := (resolveNested_built nested _ hz (hz.wellFormed.scopeAt_lt ht)).kept_of_run h₂
  have hr₂ := resolveNested_retains nested _ hz hfirst ht
    (fun x hmem => hinside x (List.mem_append_left _ hmem)) h₂ hc₂
  have hg₂ := hr₂.toGrowsTo
  have ht₂ := hg₂.scopeAt ht
  have hz₄ := (resolveMembers_built members _ hz₂
    (hz₂.wellFormed.scopeAt_lt ht₂)).kept_of_run h₄
  obtain ⟨hr₄, hxs⟩ := resolveMembers_retains members _ hz₂ (hfirst.trans hg₂) ht₂
    (fun x hmem => (hinside x (List.mem_append_right _ hmem)).growsTo hg₂) h₄ hc₄
  have hg₄ := hg₂.trans hr₄.toGrowsTo
  -- what is not complete after the members was not complete where the bases were looked up
  have hcopies : ∀ id, z₄.registry.definition? id = none → Copies first z₄.registry s id
      ⟨tag, name, bases, members, functions, nested⟩ ⟨tag, name, xs, specs, functions⟩ := by
    intro id hnone
    refine ⟨rfl, rfl, hxs, rfl, virtualBases_eq hspecs, z₂.registry, ?_, hspecs⟩
    refine ⟨hfirst.trans hg₂, hr₄.toGrowsTo, ?_⟩
    cases hd : z₂.registry.definition? id with
    | none => rfl
    | some d => exact (hr₄.toGrowsTo.definition? hd).symm.trans hnone
  obtain ⟨hr₅, hlists⟩ := closeRecord_retains hz₄ (hg₄.scopeAt hp)
    (fun x hmem => (hown x hmem).growsTo hg₄) hcopies h₅
  exact ⟨(hr₂.trans hr₄).trans hr₅, hlists⟩

theorem resolveDeclarator_retains (d : Declarator) (defining : List TypeId) {z z' : Resolution}
    {s : ScopeId} {p : List String} (hz : z.registry.Built) (hfirst : first.GrowsTo z.registry)
    (hp : z.registry.scopeAt p = some s) (hx : ∀ x ∈ d.sites p, z.registry.Accepts x)
    {a : Descriptor} (h : (resolveDeclarator defining s d).run z = (.ok a, z'))
    (hc : z'.deferred = z.deferred) :
    Retains first (d.occurrences p) z.registry z'.registry := by
  cases d with
  | fundamental spelling =>
    unfold resolveDeclarator at h
    cases hk : Fundamental.ofSpelling? spelling with
    | some kind =>
      rw [hk] at h
      cases h
      exact (GrowsTo.refl _).retains_nil
    | none =>
      rw [hk] at h
      cases h
  | named name =>
    obtain ⟨_, z₁, h₁, h⟩ := run_bind_eq_ok.mp h
    cases h₁
    rw [run_ofExcept] at h
    obtain ⟨-, rfl⟩ := Prod.mk.inj h
    exact (GrowsTo.refl _).retains_nil
  | pointer pointee =>
    obtain ⟨t, z₁, h₁, h⟩ := run_bind_eq_ok.mp h
    cases h
    exact resolveDeclarator_retains pointee defining hz hfirst hp hx h₁ hc
  | array element count =>
    obtain ⟨t, z₁, h₁, h⟩ := run_bind_eq_ok.mp h
    cases h
    exact resolveDeclarator_retains element defining hz hfirst hp hx h₁ hc
  | record r => exact (resolveRecord_retains r defining hz hfirst hp hx h hc).1
  | enum e => exact (resolveEnum_retains hz hp h).1

theorem resolveNested_retains (ds : List Declaration) (defining : List TypeId)
    {z z' : Resolution} {s : ScopeId} {p : List String} (hz : z.registry.Built)
    (hfirst : first.GrowsTo z.registry) (hp : z.registry.scopeAt p = some s)
    (hx : ∀ x ∈ sitesAll p ds, z.registry.Accepts x) {u : Unit}
    (h : (resolveNested defining s ds).run z = (.ok u, z')) (hc : z'.deferred = z.deferred) :
    Retains first (occurrencesAll p ds) z.registry z'.registry := by
  cases ds with
  | nil =>
    cases h
    exact (GrowsTo.refl _).retains_nil
  | cons d ds =>
    obtain ⟨id, z₁, h₁, hc₁, h₂, hc₂⟩ := resolveNested_cons_clean h hc
    have hs := hz.wellFormed.scopeAt_lt hp
    have hz₁ := (resolveDeclaration_built d defining hz hs).kept_of_run h₁
    obtain ⟨hr₁, -⟩ := resolveDeclaration_retains d defining hz hfirst hp
      (fun x hmem => hx x (List.mem_append_left _ hmem)) h₁ hc₁
    have hg₁ := hr₁.toGrowsTo
    exact hr₁.trans (resolveNested_retains ds defining hz₁ (hfirst.trans hg₁) (hg₁.scopeAt hp)
      (fun x hmem => (hx x (List.mem_append_right _ hmem)).growsTo hg₁) h₂ hc₂)

theorem resolveMembers_retains (xs : List MemberDecl) (defining : List TypeId)
    {z z' : Resolution} {s : ScopeId} {p : List String} (hz : z.registry.Built)
    (hfirst : first.GrowsTo z.registry) (hp : z.registry.scopeAt p = some s)
    (hx : ∀ x ∈ sitesOfMembers p xs, z.registry.Accepts x) {ms : List Member}
    (h : (resolveMembers defining s xs).run z = (.ok ms, z')) (hc : z'.deferred = z.deferred) :
    Retains first (occurrencesOfMembers p xs) z.registry z'.registry ∧
      ms.map Member.outline = xs.map MemberDecl.outline := by
  cases xs with
  | nil =>
    cases h
    exact ⟨(GrowsTo.refl _).retains_nil, rfl⟩
  | cons x xs =>
    obtain ⟨name, type, width⟩ := x
    obtain ⟨d, z₁, rest, h₁, hc₁, h₂, hc₂, rfl⟩ := resolveMembers_cons_clean h hc
    have hs := hz.wellFormed.scopeAt_lt hp
    have hz₁ := (resolveDeclarator_built type defining hz hs).kept_of_run h₁
    have hr₁ := resolveDeclarator_retains type defining hz hfirst hp
      (fun x hmem => hx x (List.mem_append_left _ hmem)) h₁ hc₁
    have hg₁ := hr₁.toGrowsTo
    obtain ⟨hr₂, hrest⟩ := resolveMembers_retains xs defining hz₁ (hfirst.trans hg₁)
      (hg₁.scopeAt hp) (fun x hmem => (hx x (List.mem_append_right _ hmem)).growsTo hg₁) h₂ hc₂
    exact ⟨hr₁.trans hr₂, congrArg ((name, width) :: ·) hrest⟩

end

namespace Resolution

variable {z : Resolution} {o : Outcome}

theorem resolveStep_retains {d : Declaration} (hz : z.registry.Built)
    (hfirst : first.GrowsTo z.registry) (hx : ∀ x ∈ d.sites [], z.registry.Accepts x)
    (hc : (resolveStep d o z).1.errors = []) :
    Retains first (d.occurrences []) z.registry (resolveStep d o z).2.registry ∧
      ∃ ids, (resolveStep d o z).1.resolved = o.resolved ++ ids ∧
        (resolveStep d o z).2.registry.Lists .global [d] ids := by
  rcases hrun : (resolveDeclaration [] .global d).run z with ⟨e | id, z₁⟩
  · simp [resolveStep, hrun, collectDeferred] at hc
  · have hstep : resolveStep d o z =
        collectDeferred { o with resolved := o.resolved ++ id.toList } z₁ := by
      rw [resolveStep, hrun]
    rw [hstep] at hc ⊢
    have hd₁ : z₁.deferred = [] := (List.append_eq_nil_iff.mp hc).2
    have hd : z.deferred <+: z₁.deferred := (resolveDeclaration_remembers d [] .global).of_run hrun
    have hsame : z₁.deferred = z.deferred := by
      rw [hd₁] at hd ⊢
      exact (List.prefix_nil.mp hd).symm
    obtain ⟨hr, hlists⟩ := resolveDeclaration_retains (p := []) d [] hz hfirst rfl hx hrun hsame
    exact ⟨hr, id.toList, rfl, hlists⟩

theorem resolvePass_retains {ds : List Declaration} (hz : z.registry.Built)
    (hfirst : first.GrowsTo z.registry) (hx : ∀ x ∈ sitesAll [] ds, z.registry.Accepts x)
    (hc : (resolvePass ds o z).1.errors = []) :
    Retains first (occurrencesAll [] ds) z.registry (resolvePass ds o z).2.registry ∧
      ∃ ids, (resolvePass ds o z).1.resolved = o.resolved ++ ids ∧
        (resolvePass ds o z).2.registry.Lists .global ds ids := by
  induction ds generalizing o z with
  | nil => exact ⟨(GrowsTo.refl _).retains_nil, [], (List.append_nil _).symm, .nil⟩
  | cons d ds ih =>
    have hstep : (resolveStep d o z).1.errors = [] :=
      List.prefix_nil.mp (hc ▸ errors_resolvePass ds _ _)
    have hz₁ := resolveStep_kept (resolveDeclaration_built d [] hz hz.wellFormed.global_lt) o
    obtain ⟨hr₁, ids, hids, hlists⟩ := resolveStep_retains hz hfirst
      (fun x hmem => hx x (List.mem_append_left _ hmem)) hstep
    have hg₁ := hr₁.toGrowsTo
    obtain ⟨hr, js, hjs, hrest⟩ := ih (o := (resolveStep d o z).1) hz₁ (hfirst.trans hg₁)
      (fun x hmem => (hx x (List.mem_append_right _ hmem)).growsTo hg₁) hc
    refine ⟨hr₁.trans hr, ids ++ js, ?_, (hlists.growsTo hr.toGrowsTo).append hrest⟩
    rw [resolvePass_cons, hjs, hids, List.append_assoc]

end Resolution

namespace SourceUnit

/-- Without errors, every record, enumeration and typedef of a unit is kept where it stands, and
there is an id for each declaration of the unit that has a name, in order. -/
theorem resolve_retains {u : SourceUnit} (hc : u.resolve.1.isClean = true) :
    (∀ x ∈ occurrencesAll [] u.declarations, Keeps u.predeclared u.resolve.2.registry x) ∧
      u.resolve.2.registry.Lists .global u.declarations u.resolve.1.resolved := by
  -- errors are only added, so the first pass ended without one
  have hc := List.isEmpty_iff.mp hc
  have hbuilt := Resolution.predeclarePass_kept built_durable (z := { registry := .withPrelude })
    .prelude u.declarations {}
  have hfirst := hc ▸ Resolution.errors_resolvePass u.declarations
    (Resolution.predeclarePass u.declarations {} { registry := .withPrelude }).1
    (Resolution.predeclarePass u.declarations {} { registry := .withPrelude }).2
  have hgains := Resolution.predeclarePass_gains (z := { registry := .withPrelude }) .prelude
    (List.prefix_nil.mp hfirst)
  obtain ⟨hr, ids, hids, hlists⟩ := Resolution.resolvePass_retains hbuilt
    (.refl u.predeclared) hgains.accepts hc
  rw [Resolution.predeclarePass_resolved, List.nil_append] at hids
  refine ⟨hr.keeps, ?_⟩
  rw [show u.resolve.1.resolved = ids from hids]
  exact hlists

def point : RecordDecl :=
  ⟨.structType, some "Point", [],
    [⟨"x", .fundamental "double", none⟩, ⟨"y", .fundamental "double", none⟩], [], []⟩

def figureBase : BaseDecl := ⟨"Figure", true⟩

/-- A class that is derived through a typedef and tells of a record in the middle of a member. -/
def drawing : SourceUnit where
  declarations :=
    [.typedef figureBase.name (.record ⟨.structType, some "Shape", [],
       [⟨"owner", .pointer (.named "Circle"), none⟩], ["area"], []⟩),
     .record ⟨.classType, some "Circle", [figureBase],
       [⟨"place", .record ⟨.unionType, none, [],
          [⟨"corners", .pointer (.array (.record point) 2), none⟩,
           ⟨"flags", .fundamental "int", some 3⟩], [], []⟩, none⟩], [],
       [.enum ⟨some "Color", none⟩]⟩]

/-- The point lies in the class, as the union around it has no name. -/
theorem drawing_retains : drawing.resolve.1.isClean = true ∧
    ⟨["Circle"], .record point⟩ ∈ occurrencesAll [] drawing.declarations ∧
    Keeps drawing.predeclared drawing.resolve.2.registry ⟨["Circle"], .record point⟩ ∧
    drawing.resolve.2.registry.Lists .global drawing.declarations drawing.resolve.1.resolved := by
  have hclean : drawing.resolve.1.isClean = true := by decide +kernel
  have hmem : ⟨["Circle"], .record point⟩ ∈ occurrencesAll [] drawing.declarations :=
    List.mem_of_getElem? (show (occurrencesAll [] drawing.declarations)[3]? = some _ from rfl)
  obtain ⟨hkeeps, hlists⟩ := resolve_retains hclean
  exact ⟨hclean, hmem, hkeeps _ hmem, hlists⟩

end SourceUnit

end TypeLayout
