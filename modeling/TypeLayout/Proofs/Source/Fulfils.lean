import TypeLayout.Proofs.Source.Reading
import TypeLayout.Proofs.Source.Remembers
/-! The second pass of a unit without typedefs, where nothing fails. Every tag is there already, so
the pass completes the entries of the sites that have a body and leaves the tree of scopes alone;
each definition is the reading of its declaration. -/

namespace TypeLayout

open Registry

mutual

def Declaration.typedefFree : Declaration → Bool
  | .record r => r.typedefFree
  | .typedef _ _ => false
  | _ => true

def RecordDecl.typedefFree : RecordDecl → Bool
  | ⟨_, _, _, members, _, nested⟩ => typedefFreeMembers members && typedefFreeAll nested

def Declarator.typedefFree : Declarator → Bool
  | .record r => r.typedefFree
  | .pointer pointee => pointee.typedefFree
  | .array element _ => element.typedefFree
  | _ => true

def typedefFreeAll : List Declaration → Bool
  | [] => true
  | d :: ds => d.typedefFree && typedefFreeAll ds

def typedefFreeMembers : List MemberDecl → Bool
  | [] => true
  | ⟨_, type, _⟩ :: xs => type.typedefFree && typedefFreeMembers xs

end

namespace Registry

/-- The sites that have a body are defined as they read, and nothing else is. -/
structure Fulfils (xs : List Site) (r r' : Registry) : Prop extends FillsTo r r' where
  defined : ∀ x ∈ xs, x.2.hasBody = true →
    ∃ id y, r'.tagAt x.1 = some id ∧ r'.Reads x.1 x.2 y ∧ r'.definition? id = some y
  origin : ∀ {id y}, r'.definition? id = some y →
    r.definition? id = some y ∨ ∃ x ∈ xs, x.2.hasBody = true ∧ r'.tagAt x.1 = some id

variable {r r' r'' : Registry} {s : ScopeId} {name : String} {id : TypeId} {p : List String}
  {xs ys : List Site}

theorem FillsTo.fulfils_nil (h : r.FillsTo r') (hd : r'.definition? = r.definition?) :
    Fulfils [] r r' where
  toFillsTo := h
  defined _ hx := by cases hx
  origin hy := Or.inl (hd ▸ hy)

theorem Fulfils.refl (r : Registry) : Fulfils [] r r := (FillsTo.refl r).fulfils_nil rfl

theorem Fulfils.trans (h : Fulfils xs r r') (h' : Fulfils ys r' r'') :
    Fulfils (xs ++ ys) r r'' where
  toFillsTo := h.toFillsTo.trans h'.toFillsTo
  defined x hx hb := by
    rcases List.mem_append.mp hx with hx | hx
    · obtain ⟨id, y, hat, hreads, hy⟩ := h.defined x hx hb
      exact ⟨id, y, h'.toGrowsTo.tagAt hat, hreads.fillsTo h'.toFillsTo,
        h'.toGrowsTo.definition? hy⟩
    · exact h'.defined x hx hb
  origin {id y} hy := by
    rcases h'.origin hy with hy | ⟨x, hx, hb, hat⟩
    · refine (h.origin hy).imp_right fun ⟨x, hx, hb, hat⟩ => ?_
      exact ⟨x, List.mem_append_left _ hx, hb, h'.toGrowsTo.tagAt hat⟩
    · exact Or.inr ⟨x, List.mem_append_right _ hx, hb, hat⟩

theorem Fulfils.swap (h : Fulfils (xs ++ ys) r r') : Fulfils (ys ++ xs) r r' where
  toFillsTo := h.toFillsTo
  defined x hx := h.defined x (List.perm_append_comm.mem_iff.mp hx)
  origin hy := (h.origin hy).imp_right fun ⟨x, hx, hrest⟩ =>
    ⟨x, List.perm_append_comm.mem_iff.mp hx, hrest⟩

theorem fulfils_define (hp : r.scopeAt p = some s) {d : Declaration}
    (hx : r.Accepts (name :: p, d)) {y : Definition} (htag : y.tag?.isSome = true)
    (h : r.define s name y = .ok (id, r')) (hreads : r.Reads (name :: p) d y) :
    Fulfils [(name :: p, d)] r r' ∧ r'.boundTag? s name = some id := by
  obtain ⟨j, -, -, hat, -⟩ := hx
  have hbound : r.boundTag? s name = some j := (tagAt_cons hp).symm.trans hat
  -- a tag only rivals tags, so the definition completes the entry that the first pass made
  have hrival : r.rival? s name y = r.boundTag? s name := by
    cases y with
    | typedef t => cases htag
    | _ => rfl
  obtain ⟨hfill, rfl, hdef⟩ := fillsTo_define h (hrival.trans hbound)
  refine ⟨⟨hfill, fun x hx _ => ?_, fun {k w} hw => ?_⟩, ?_⟩
  · rw [List.mem_singleton.mp hx]
    exact ⟨id, y, hfill.toGrowsTo.tagAt hat, hreads.fillsTo hfill, (hdef id).trans (if_pos rfl)⟩
  · rw [hdef] at hw
    by_cases hk : k = id
    · exact Or.inr ⟨_, List.mem_cons_self, hreads.hasBody, hk ▸ hfill.toGrowsTo.tagAt hat⟩
    · rw [if_neg hk] at hw
      exact Or.inl hw
  · rw [hfill.boundTag?_eq]
    exact hbound

end Registry

section

variable {z z' : Resolution} {s : ScopeId} {p : List String} {a : Descriptor}

theorem resolveEnum_fulfils {e : EnumDecl} (hp : z.registry.scopeAt p = some s)
    (hx : ∀ x ∈ ownSites p e.name (.enum e), z.registry.Accepts x)
    (h : (resolveEnum s e).run z = (.ok a, z')) :
    Fulfils (ownSites p e.name (.enum e)) z.registry z'.registry ∧
      z'.registry.names.readEnum s e = .ok a := by
  obtain ⟨type, z₁, h₁, h⟩ := run_bind_eq_ok.mp h
  rw [run_ofExcept] at h₁
  obtain ⟨ht, rfl⟩ := Prod.mk.inj h₁
  unfold Names.readEnum
  cases hname : e.name with
  | none =>
    rw [hname] at h
    cases h
    rw [ht]
    exact ⟨.refl _, rfl⟩
  | some name =>
    rw [hname] at h hx
    obtain ⟨id, z₂, h₂, h⟩ := run_bind_eq_ok.mp h
    obtain ⟨hd, -⟩ := ResolveM.run_define_ok h₂
    cases h
    obtain ⟨hful, hbound⟩ := fulfils_define hp (hx _ List.mem_cons_self) rfl hd (.enum ht)
    refine ⟨hful, ?_⟩
    dsimp only [Names.readTag, names]
    rw [hbound]

theorem openRecord_ok {tag : AggregateKind} {name : Option String} {d : Declaration}
    (hd : d.tag? = some (.aggregate tag)) (hz : z.registry.Built)
    (hp : z.registry.scopeAt p = some s)
    (hx : ∀ x ∈ ownSites p name d, z.registry.Accepts x) {id : Option TypeId} {t : ScopeId}
    (h : (openRecord s tag name).run z = (.ok (id, t), z')) :
    z' = z ∧ z.registry.scopeAt (insideOf p name) = some t := by
  cases name with
  | none =>
    cases h
    exact ⟨rfl, hp⟩
  | some name =>
    have haccepts := hx _ List.mem_cons_self
    obtain ⟨j, r', hdecl, rfl, -, hpair⟩ := openRecord_named_ok h
    cases hpair
    rcases declare_cases hdecl with ⟨hbound, -, rfl⟩ | ⟨hfree, -, -⟩
    · exact ⟨rfl, hz.scopeAt_of_accepts hd haccepts ((tagAt_cons hp).trans hbound) s⟩
    · obtain ⟨i, -, -, hat, -⟩ := haccepts
      rw [tagAt_cons hp, hfree] at hat
      cases hat

theorem readBases_of_each {r : Registry} {bs : List BaseDecl} {specs : List BaseSpec}
    (h : List.Forall₂ (fun b spec => r.resolveBase s b = .ok spec) bs specs) :
    r.names.readBases s bs = .ok specs := by
  induction h with
  | nil => rfl
  | cons hb _ ih =>
    obtain ⟨id, hid, rfl⟩ := resolveBase_ok hb
    exact bind_eq_ok.mpr ⟨id, hid, bind_eq_ok.mpr ⟨_, ih, rfl⟩⟩

theorem closeRecord_fulfils {decl : RecordDecl} {t : ScopeId} {body : Aggregate}
    (hp : z.registry.scopeAt p = some s)
    (ht : z.registry.scopeAt (insideOf p decl.name) = some t)
    (hx : ∀ x ∈ ownSites p decl.name (.record decl), z.registry.Accepts x)
    (hbody : z.registry.names.readBody s t decl = .ok body)
    (h : (closeRecord s body decl.name).run z = (.ok a, z')) :
    Fulfils (ownSites p decl.name (.record decl)) z.registry z'.registry ∧
      z'.registry.names.readDeclarator s (.record decl) = .ok a := by
  unfold Names.readDeclarator
  cases hname : decl.name with
  | none =>
    rw [hname] at h ht
    cases h
    have hst : s = t := Option.some.inj (hp.symm.trans ht)
    subst hst
    dsimp only
    rw [hbody]
    exact ⟨.refl _, rfl⟩
  | some name =>
    rw [hname] at h ht hx
    obtain ⟨id, hd, rfl⟩ := closeRecord_named_ok h
    obtain ⟨hful, hbound⟩ := fulfils_define hp (hx _ List.mem_cons_self) rfl hd
      (.record hp ht hbody)
    refine ⟨hful, ?_⟩
    dsimp only [Names.readTag, names]
    rw [hbound]

end

mutual

theorem resolveDeclaration_fulfils (d : Declaration) (hfree : d.typedefFree = true)
    (defining : List TypeId) {z z' : Resolution} {s : ScopeId} {p : List String}
    (hz : z.registry.Built) (hp : z.registry.scopeAt p = some s)
    (hx : ∀ x ∈ d.sites p, z.registry.Accepts x) {id : Option TypeId}
    (h : (resolveDeclaration defining s d).run z = (.ok id, z'))
    (hc : z'.deferred = z.deferred) : Fulfils (d.sites p) z.registry z'.registry := by
  cases d with
  | record r =>
    obtain ⟨a, z₁, h₁, h⟩ := run_bind_eq_ok.mp h
    cases h
    exact (resolveRecord_fulfils r hfree defining hz hp hx h₁ hc).1
  | forward tag name =>
    obtain ⟨j, z₁, h₁, h⟩ := run_bind_eq_ok.mp h
    cases h
    obtain ⟨r', hdecl, rfl⟩ := ResolveM.run_declare_ok h₁
    obtain ⟨i, -, -, hat, -⟩ := hx _ List.mem_cons_self
    rcases declare_cases hdecl with ⟨-, -, rfl⟩ | ⟨hfree, -, -⟩
    · refine { Fulfils.refl z.registry with defined := fun x hx hb => ?_, origin := Or.inl }
      rw [List.mem_singleton.mp hx] at hb
      cases hb
    · rw [tagAt_cons hp, hfree] at hat
      cases hat
  | enum e =>
    obtain ⟨a, z₁, h₁, h⟩ := run_bind_eq_ok.mp h
    cases h
    exact (resolveEnum_fulfils hp hx h₁).1
  | typedef name target => cases hfree

theorem resolveRecord_fulfils (r : RecordDecl) (hfree : r.typedefFree = true)
    (defining : List TypeId) {z z' : Resolution} {s : ScopeId} {p : List String}
    (hz : z.registry.Built) (hp : z.registry.scopeAt p = some s)
    (hx : ∀ x ∈ r.sites p, z.registry.Accepts x) {a : Descriptor}
    (h : (resolveRecord defining s r).run z = (.ok a, z')) (hc : z'.deferred = z.deferred) :
    Fulfils (r.sites p) z.registry z'.registry ∧
      z'.registry.names.readDeclarator s (.record r) = .ok a := by
  obtain ⟨tag, name, bases, members, functions, nested⟩ := r
  obtain ⟨hm, hn⟩ := Bool.and_eq_true_iff.mp hfree
  obtain ⟨id, t, z₁, z₂, specs, xs, z₄, h₁, h₂, hc₂, hspecs, h₄, hc₄, h₅⟩ :=
    resolveRecord_clean h hc
  have hown : ∀ x ∈ ownSites p name (.record ⟨tag, name, bases, members, functions, nested⟩),
      z.registry.Accepts x := fun x hmem => hx x (List.mem_append_left _ hmem)
  have hinside : ∀ x ∈ sitesAll (insideOf p name) nested ++ sitesOfMembers (insideOf p name)
      members, z.registry.Accepts x := fun x hmem => hx x (List.mem_append_right _ hmem)
  obtain ⟨rfl, ht⟩ := openRecord_ok rfl hz hp hown h₁
  have hz₂ := (resolveNested_built nested _ hz (hz.wellFormed.scopeAt_lt ht)).kept_of_run h₂
  have hf₂ := resolveNested_fulfils nested hn _ hz ht
    (fun x hmem => hinside x (List.mem_append_left _ hmem)) h₂ hc₂
  have ht₂ := hf₂.toGrowsTo.scopeAt ht
  obtain ⟨hf₄, hxs⟩ := resolveMembers_fulfils members hm _ hz₂ ht₂
    (fun x hmem => (hinside x (List.mem_append_right _ hmem)).growsTo hf₂.toGrowsTo) h₄ hc₄
  have hf := hf₂.trans hf₄
  have hbody : z₄.registry.names.readBody s t ⟨tag, name, bases, members, functions, nested⟩ =
      .ok ⟨tag, name, xs, specs, functions⟩ := by
    refine bind_eq_ok.mpr ⟨specs, ?_, bind_eq_ok.mpr ⟨xs, hxs, rfl⟩⟩
    rw [hf₄.names_eq]
    exact readBases_of_each hspecs
  obtain ⟨hf₅, ha⟩ := closeRecord_fulfils (hf.toGrowsTo.scopeAt hp) (hf.toGrowsTo.scopeAt ht)
    (fun x hmem => (hown x hmem).growsTo hf.toGrowsTo) hbody h₅
  exact ⟨(hf.trans hf₅).swap, ha⟩

theorem resolveDeclarator_fulfils (d : Declarator) (hfree : d.typedefFree = true)
    (defining : List TypeId) {z z' : Resolution} {s : ScopeId} {p : List String}
    (hz : z.registry.Built) (hp : z.registry.scopeAt p = some s)
    (hx : ∀ x ∈ d.sites p, z.registry.Accepts x) {a : Descriptor}
    (h : (resolveDeclarator defining s d).run z = (.ok a, z')) (hc : z'.deferred = z.deferred) :
    Fulfils (d.sites p) z.registry z'.registry ∧
      z'.registry.names.readDeclarator s d = .ok a := by
  cases d with
  | fundamental spelling =>
    unfold resolveDeclarator at h
    unfold Names.readDeclarator
    cases hk : Fundamental.ofSpelling? spelling with
    | some kind =>
      rw [hk] at h
      cases h
      exact ⟨.refl _, rfl⟩
    | none =>
      rw [hk] at h
      cases h
  | named name =>
    obtain ⟨_, z₁, h₁, h⟩ := run_bind_eq_ok.mp h
    cases h₁
    rw [run_ofExcept] at h
    obtain ⟨hname, rfl⟩ := Prod.mk.inj h
    exact ⟨.refl _, hname⟩
  | pointer pointee =>
    obtain ⟨t, z₁, h₁, h⟩ := run_bind_eq_ok.mp h
    cases h
    obtain ⟨hf, ht⟩ := resolveDeclarator_fulfils pointee hfree defining hz hp hx h₁ hc
    refine ⟨hf, ?_⟩
    rw [Names.readDeclarator, ht]
    rfl
  | array element count =>
    obtain ⟨t, z₁, h₁, h⟩ := run_bind_eq_ok.mp h
    cases h
    obtain ⟨hf, ht⟩ := resolveDeclarator_fulfils element hfree defining hz hp hx h₁ hc
    refine ⟨hf, ?_⟩
    rw [Names.readDeclarator, ht]
    rfl
  | record r => exact resolveRecord_fulfils r hfree defining hz hp hx h hc
  | enum e =>
    unfold Names.readDeclarator
    exact resolveEnum_fulfils hp hx h

theorem resolveNested_fulfils (ds : List Declaration) (hfree : typedefFreeAll ds = true)
    (defining : List TypeId) {z z' : Resolution} {s : ScopeId} {p : List String}
    (hz : z.registry.Built) (hp : z.registry.scopeAt p = some s)
    (hx : ∀ x ∈ sitesAll p ds, z.registry.Accepts x) {u : Unit}
    (h : (resolveNested defining s ds).run z = (.ok u, z')) (hc : z'.deferred = z.deferred) :
    Fulfils (sitesAll p ds) z.registry z'.registry := by
  cases ds with
  | nil =>
    cases h
    exact .refl _
  | cons d ds =>
    obtain ⟨hd, hds⟩ := Bool.and_eq_true_iff.mp hfree
    obtain ⟨id, z₁, h₁, hc₁, h₂, hc₂⟩ := resolveNested_cons_clean h hc
    have hs := hz.wellFormed.scopeAt_lt hp
    have hz₁ := (resolveDeclaration_built d defining hz hs).kept_of_run h₁
    have hf₁ := resolveDeclaration_fulfils d hd defining hz hp
      (fun x hmem => hx x (List.mem_append_left _ hmem)) h₁ hc₁
    have hf₂ := resolveNested_fulfils ds hds defining hz₁ (hf₁.toGrowsTo.scopeAt hp)
      (fun x hmem => (hx x (List.mem_append_right _ hmem)).growsTo hf₁.toGrowsTo) h₂ hc₂
    exact hf₁.trans hf₂

theorem resolveMembers_fulfils (xs : List MemberDecl) (hfree : typedefFreeMembers xs = true)
    (defining : List TypeId) {z z' : Resolution} {s : ScopeId} {p : List String}
    (hz : z.registry.Built) (hp : z.registry.scopeAt p = some s)
    (hx : ∀ x ∈ sitesOfMembers p xs, z.registry.Accepts x) {ms : List Member}
    (h : (resolveMembers defining s xs).run z = (.ok ms, z')) (hc : z'.deferred = z.deferred) :
    Fulfils (sitesOfMembers p xs) z.registry z'.registry ∧
      z'.registry.names.readMembers s xs = .ok ms := by
  cases xs with
  | nil =>
    cases h
    exact ⟨.refl _, rfl⟩
  | cons x xs =>
    obtain ⟨name, type, width⟩ := x
    obtain ⟨ht, hxs⟩ := Bool.and_eq_true_iff.mp hfree
    obtain ⟨d, z₁, rest, h₁, hc₁, h₂, hc₂, rfl⟩ := resolveMembers_cons_clean h hc
    have hs := hz.wellFormed.scopeAt_lt hp
    have hz₁ := (resolveDeclarator_built type defining hz hs).kept_of_run h₁
    obtain ⟨hf₁, hd⟩ := resolveDeclarator_fulfils type ht defining hz hp
      (fun x hmem => hx x (List.mem_append_left _ hmem)) h₁ hc₁
    obtain ⟨hf₂, hrest⟩ := resolveMembers_fulfils xs hxs defining hz₁ (hf₁.toGrowsTo.scopeAt hp)
      (fun x hmem => (hx x (List.mem_append_right _ hmem)).growsTo hf₁.toGrowsTo) h₂ hc₂
    refine ⟨hf₁.trans hf₂, bind_eq_ok.mpr ⟨d, ?_, bind_eq_ok.mpr ⟨rest, hrest, rfl⟩⟩⟩
    rw [hf₂.names_eq]
    exact hd

end

end TypeLayout
