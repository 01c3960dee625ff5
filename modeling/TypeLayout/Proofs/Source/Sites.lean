import TypeLayout.Proofs.Registry.Routes
import TypeLayout.Proofs.Source.Built
import TypeLayout.Proofs.Source.Steps
/-! Where a unit declares tags. The sites of a declaration are the routes of the tags that it and
everything inside it bind; the first pass adds the tags of these routes and no others. -/

namespace TypeLayout

open Registry

/-- A declaration of a tag, with the route of the tag. -/
abbrev Site := List String × Declaration

/-- The route of the scope inside a record: its own if it has a name, else the one around it. -/
def insideOf (p : List String) : Option String → List String
  | some name => name :: p
  | none => p

def ownSites (p : List String) (name : Option String) (d : Declaration) : List Site :=
  name.toList.map fun n => (n :: p, d)

mutual

def Declaration.sites (p : List String) : Declaration → List Site
  | .record r => r.sites p
  | .forward tag name => ownSites p name (.forward tag name)
  | .enum e => ownSites p e.name (.enum e)
  | .typedef _ target => target.sites p

def RecordDecl.sites (p : List String) : RecordDecl → List Site
  | ⟨tag, name, bases, members, functions, nested⟩ =>
    ownSites p name (.record ⟨tag, name, bases, members, functions, nested⟩) ++
      (sitesAll (insideOf p name) nested ++ sitesOfMembers (insideOf p name) members)

def Declarator.sites (p : List String) : Declarator → List Site
  | .record r => r.sites p
  | .enum e => ownSites p e.name (.enum e)
  | .pointer pointee => pointee.sites p
  | .array element _ => element.sites p
  | _ => []

def sitesAll (p : List String) : List Declaration → List Site
  | [] => []
  | d :: ds => d.sites p ++ sitesAll p ds

def sitesOfMembers (p : List String) : List MemberDecl → List Site
  | [] => []
  | ⟨_, type, _⟩ :: xs => type.sites p ++ sitesOfMembers p xs

end

def Declaration.tag? : Declaration → Option TagKind
  | .record r => some (.aggregate r.tag)
  | .forward tag _ => some tag.kind
  | .enum _ => some .enum
  | .typedef _ _ => none

namespace Registry

/-- A tag is bound at the end of the route that a declaration may repeat. -/
def Accepts (r : Registry) (x : Site) : Prop :=
  ∃ id tag tag', r.tagAt x.1 = some id ∧ r.tagOf? id = some tag ∧ x.2.tag? = some tag' ∧
    tag.compatible tag' = true

/-- Growth by the tags of some sites. -/
structure Gains (xs : List Site) (r r' : Registry) : Prop extends GrowsTo r r' where
  definition?_eq : ∀ id, r'.definition? id = r.definition? id
  boundTypedef?_eq : ∀ s n, r'.boundTypedef? s n = r.boundTypedef? s n
  tag_isSome : ∀ {id e}, r'.entry? id = some e → r.size ≤ id.index → e.tag?.isSome = true
  tagOf?_eq : ∀ {id}, id.index < r.size → r'.tagOf? id = r.tagOf? id
  site_of_tagAt : ∀ {q id}, r'.tagAt q = some id →
    r.tagAt q = some id ∨ ∃ x ∈ xs, x.1 = q ∧ x.2.tag? = r'.tagOf? id
  accepts : ∀ x ∈ xs, r'.Accepts x

variable {r r' r'' : Registry} {s : ScopeId} {name : String} {id : TypeId} {p : List String}
  {xs ys : List Site}

theorem GrowsTo.tagOf? (h : r.GrowsTo r') {tag : TagKind} (ht : r.tagOf? id = some tag) :
    ∃ tag', r'.tagOf? id = some tag' ∧ tag'.compatible tag = true := by
  obtain ⟨e, he, ht⟩ := Option.bind_eq_some_iff.mp ht
  obtain ⟨e', he', hb⟩ := h.entry he
  have htag : r'.tagOf? id = e'.tag? := by
    simp only [Registry.tagOf?, he', Option.bind_eq_bind, Option.bind_some]
  rcases hb.tag_cases with hs | ⟨tag₁, tag₂, h₁, h₂, hc⟩
  · exact ⟨tag, htag.trans (hs.trans ht), tag.compatible_refl⟩
  · rw [ht] at h₁
    cases h₁
    exact ⟨tag₂, htag.trans h₂, TagKind.compatible_comm .. ▸ hc⟩

theorem Accepts.growsTo {x : Site} (h : r.Accepts x) (hg : r.GrowsTo r') : r'.Accepts x := by
  obtain ⟨id, tag, tag', hat, htag, hx, hc⟩ := h
  obtain ⟨tag'', htag'', hc'⟩ := hg.tagOf? htag
  exact ⟨id, tag'', tag', hg.tagAt hat, htag'', hx, TagKind.compatible_trans hc' hc⟩

theorem Gains.refl (r : Registry) : Gains [] r r where
  toGrowsTo := .refl r
  definition?_eq _ := rfl
  boundTypedef?_eq _ _ := rfl
  tag_isSome he hid := absurd (entry?_lt he) (Nat.not_lt_of_le hid)
  tagOf?_eq _ := rfl
  site_of_tagAt h := Or.inl h
  accepts _ h := by cases h

theorem Gains.trans (hr' : r'.WellFormed) (h : Gains xs r r') (h' : Gains ys r' r'') :
    Gains (xs ++ ys) r r'' where
  toGrowsTo := h.toGrowsTo.trans h'.toGrowsTo
  definition?_eq id := (h'.definition?_eq id).trans (h.definition?_eq id)
  boundTypedef?_eq s n := (h'.boundTypedef?_eq s n).trans (h.boundTypedef?_eq s n)
  tag_isSome {id e} he hid := by
    by_cases hlt : id.index < r'.size
    · obtain ⟨e₀, he₀, hb⟩ := h'.becomes hlt he
      rw [hb.tag_isSome]
      exact h.tag_isSome he₀ hid
    · exact h'.tag_isSome he (Nat.le_of_not_lt hlt)
  tagOf?_eq hid :=
    (h'.tagOf?_eq (Nat.lt_of_lt_of_le hid h.toGrowsTo.size_le)).trans (h.tagOf?_eq hid)
  site_of_tagAt {q id} hq := by
    rcases h'.site_of_tagAt hq with hq | ⟨x, hx, hat, htag⟩
    · refine (h.site_of_tagAt hq).imp_right fun ⟨x, hx, hat, htag⟩ => ?_
      exact ⟨x, List.mem_append_left _ hx, hat, htag.trans (h'.tagOf?_eq (hr'.tagAt_lt hq)).symm⟩
    · exact Or.inr ⟨x, List.mem_append_right _ hx, hat, htag⟩
  accepts x hx := by
    rcases List.mem_append.mp hx with hx | hx
    · exact (h.accepts x hx).growsTo h'.toGrowsTo
    · exact h'.accepts x hx

theorem gains_alloc (hr : r.Built) (hp : r.scopeAt p = some s) {tag : TagKind} {d : Declaration}
    (hd : d.tag? = some tag) (hfree : r.boundTag? s name = none) :
    Gains [(name :: p, d)] r (r.alloc s name (.forward tag)).2 := by
  have htags : ∀ q, (r.alloc s name (.forward tag)).2.tagAt q =
      if q = name :: p then some ⟨r.size⟩ else r.tagAt q :=
    fun q => hr.linked.tagAt_alloc hr.wellFormed hp rfl hfree
  have htag : (r.alloc s name (.forward tag)).2.tagOf? ⟨r.size⟩ = some tag := by
    rw [tagOf?, entry?_alloc, if_pos rfl]
    rfl
  constructor
  case toGrowsTo => exact r.growsTo_alloc ..
  case boundTypedef?_eq => exact fun t n => boundTypedef?_alloc rfl
  case definition?_eq =>
    intro j
    rw [definition?_alloc]
    by_cases hj : j.index = r.size
    · have hnone : r.entry? j = none := entry?_of_ge (Nat.le_of_eq hj.symm)
      rw [if_pos hj, definition?, hnone]
      rfl
    · rw [if_neg hj]
  case tag_isSome =>
    intro j e he hj
    rw [entry?_alloc] at he
    by_cases hnew : j.index = r.size
    · rw [if_pos hnew] at he
      cases he
      rfl
    · rw [if_neg hnew] at he
      exact absurd (entry?_lt he) (Nat.not_lt_of_le hj)
  case tagOf?_eq =>
    intro j hj
    rw [tagOf?, entry?_alloc, if_neg (Nat.ne_of_lt hj)]
    rfl
  case site_of_tagAt =>
    intro q j hq
    rw [htags] at hq
    by_cases hnew : q = name :: p
    · rw [if_pos hnew] at hq
      cases hq
      exact Or.inr ⟨_, List.mem_cons_self, hnew.symm, hd.trans htag.symm⟩
    · rw [if_neg hnew] at hq
      exact Or.inl hq
  case accepts =>
    intro x hx
    rw [List.mem_singleton.mp hx]
    exact ⟨⟨r.size⟩, tag, tag, (htags _).trans (if_pos rfl), htag, hd, tag.compatible_refl⟩

theorem gains_declare (hr : r.Built) (hp : r.scopeAt p = some s) {tag : TagKind}
    (h : r.declare s name tag = .ok (id, r')) {d : Declaration} (hd : d.tag? = some tag) :
    Gains [(name :: p, d)] r r' ∧ r'.tagAt (name :: p) = some id := by
  rcases declare_cases h with ⟨hbound, ⟨t, ht, hc⟩, rfl⟩ | ⟨hfree, rfl, rfl⟩
  · have hat : r'.tagAt (name :: p) = some id := (tagAt_cons hp).trans hbound
    refine ⟨?_, hat⟩
    refine { Gains.refl r' with site_of_tagAt := Or.inl, accepts := fun x hx => ?_ }
    rw [List.mem_singleton.mp hx]
    exact ⟨id, t, tag, hat, ht, hd, hc⟩
  · refine ⟨gains_alloc hr hp hd hfree, ?_⟩
    exact (hr.linked.tagAt_alloc hr.wellFormed hp rfl hfree).trans (if_pos rfl)

theorem Built.scopeAt_of_accepts (hr : r.Built) {n : String} {a : AggregateKind}
    {d : Declaration} (hd : d.tag? = some (.aggregate a)) (h : r.Accepts (n :: p, d))
    (hid : r.tagAt (n :: p) = some id) (t : ScopeId) :
    r.scopeAt (n :: p) = some ((r.body? id).getD t) := by
  obtain ⟨j, tag, tag', hat, htag, hx, hc⟩ := h
  rw [hid] at hat
  cases hat
  rw [hd] at hx
  cases hx
  obtain ⟨e, he, htag⟩ := Option.bind_eq_some_iff.mp htag
  have hagg : e.isAggregate = true := by
    change e.tag?.any _ = true
    rw [htag]
    exact TagKind.isAggregate_eq_of_compatible hc
  obtain ⟨b, hb⟩ := Option.isSome_iff_exists.mp (hr.wellFormed.body_isSome he hagg)
  have hbody : r.body? id = some b := Option.bind_eq_some_iff.mpr ⟨e, he, hb⟩
  rw [scopeAt_of_tagAt hid, hbody]
  rfl

end Registry

section

variable {z z' : Resolution} {s : ScopeId} {p : List String} {u : Unit}

theorem predeclareEnum_gains {e : EnumDecl} (hz : z.registry.Built)
    (hp : z.registry.scopeAt p = some s) (h : (predeclareEnum s e).run z = (.ok u, z')) :
    Gains (ownSites p e.name (.enum e)) z.registry z'.registry := by
  unfold predeclareEnum at h
  cases hname : e.name with
  | none =>
    rw [hname] at h
    cases h
    exact .refl _
  | some name =>
    rw [hname] at h
    obtain ⟨id, h⟩ := run_discard_eq_ok.mp h
    obtain ⟨r', hd, rfl⟩ := ResolveM.run_declare_ok h
    exact (gains_declare hz hp hd rfl).1

theorem predeclareTag_gains {tag : AggregateKind} {name : Option String} {d : Declaration}
    (hd : d.tag? = some (.aggregate tag)) (hz : z.registry.Built)
    (hp : z.registry.scopeAt p = some s) {t : ScopeId}
    (h : (predeclareTag s tag name).run z = (.ok t, z')) :
    Gains (ownSites p name d) z.registry z'.registry ∧
      z'.registry.scopeAt (insideOf p name) = some t := by
  cases name with
  | none =>
    cases h
    exact ⟨.refl _, hp⟩
  | some name =>
    obtain ⟨id, z₁, hid, h⟩ := run_bind_eq_ok.mp h
    obtain ⟨r', hdecl, rfl⟩ := ResolveM.run_declare_ok hid
    cases h
    obtain ⟨hgains, hat⟩ := gains_declare hz hp hdecl hd
    have hbuilt := Built.declare hz (hz.wellFormed.scopeAt_lt hp) hdecl
    exact ⟨hgains, hbuilt.scopeAt_of_accepts hd (hgains.accepts _ List.mem_cons_self) hat s⟩

mutual

theorem predeclare_gains (d : Declaration) {z z' : Resolution} {s : ScopeId} {p : List String}
    (hz : z.registry.Built) (hp : z.registry.scopeAt p = some s) {u : Unit}
    (h : (predeclare s d).run z = (.ok u, z')) :
    Gains (d.sites p) z.registry z'.registry := by
  cases d with
  | record r => exact predeclareRecord_gains r hz hp h
  | forward tag name =>
    obtain ⟨id, h⟩ := run_discard_eq_ok.mp h
    obtain ⟨r', hd, rfl⟩ := ResolveM.run_declare_ok h
    exact (gains_declare hz hp hd rfl).1
  | enum e => exact predeclareEnum_gains hz hp h
  | typedef name target => exact predeclareDeclarator_gains target hz hp h

theorem predeclareRecord_gains (r : RecordDecl) {z z' : Resolution} {s : ScopeId}
    {p : List String} (hz : z.registry.Built) (hp : z.registry.scopeAt p = some s) {u : Unit}
    (h : (predeclareRecord s r).run z = (.ok u, z')) :
    Gains (r.sites p) z.registry z'.registry := by
  obtain ⟨tag, name, bases, members, functions, nested⟩ := r
  obtain ⟨t, z₁, h₁, h⟩ := run_bind_eq_ok.mp h
  obtain ⟨_, z₂, h₂, h₃⟩ := run_bind_eq_ok.mp h
  have hs := hz.wellFormed.scopeAt_lt hp
  have hz₁ := (predeclareTag_ensures built_durable hz hs tag name).kept_of_run h₁
  obtain ⟨hg₁, ht⟩ := predeclareTag_gains (d := .record ⟨tag, name, bases, members, functions,
    nested⟩) rfl hz hp h₁
  have hz₂ := (predeclareAll_ensures nested built_durable hz₁
    (hz₁.wellFormed.scopeAt_lt ht)).kept_of_run h₂
  have hg₂ := predeclareAll_gains nested hz₁ ht h₂
  have hg₃ := predeclareMembers_gains members hz₂ (hg₂.scopeAt ht) h₃
  exact hg₁.trans hz₁.wellFormed (hg₂.trans hz₂.wellFormed hg₃)

theorem predeclareDeclarator_gains (d : Declarator) {z z' : Resolution} {s : ScopeId}
    {p : List String} (hz : z.registry.Built) (hp : z.registry.scopeAt p = some s) {u : Unit}
    (h : (predeclareDeclarator s d).run z = (.ok u, z')) :
    Gains (d.sites p) z.registry z'.registry := by
  cases d with
  | fundamental spelling =>
    cases h
    exact .refl _
  | named name =>
    cases h
    exact .refl _
  | pointer pointee => exact predeclareDeclarator_gains pointee hz hp h
  | array element count => exact predeclareDeclarator_gains element hz hp h
  | record r => exact predeclareRecord_gains r hz hp h
  | enum e => exact predeclareEnum_gains hz hp h

theorem predeclareAll_gains (ds : List Declaration) {z z' : Resolution} {s : ScopeId}
    {p : List String} (hz : z.registry.Built) (hp : z.registry.scopeAt p = some s) {u : Unit}
    (h : (predeclareAll s ds).run z = (.ok u, z')) :
    Gains (sitesAll p ds) z.registry z'.registry := by
  cases ds with
  | nil =>
    cases h
    exact .refl _
  | cons d ds =>
    obtain ⟨_, z₁, h₁, h₂⟩ := run_bind_eq_ok.mp h
    have hs := hz.wellFormed.scopeAt_lt hp
    have hz₁ := (predeclare_ensures d built_durable hz hs).kept_of_run h₁
    have hg₁ := predeclare_gains d hz hp h₁
    exact hg₁.trans hz₁.wellFormed (predeclareAll_gains ds hz₁ (hg₁.scopeAt hp) h₂)

theorem predeclareMembers_gains (xs : List MemberDecl) {z z' : Resolution} {s : ScopeId}
    {p : List String} (hz : z.registry.Built) (hp : z.registry.scopeAt p = some s) {u : Unit}
    (h : (predeclareMembers s xs).run z = (.ok u, z')) :
    Gains (sitesOfMembers p xs) z.registry z'.registry := by
  cases xs with
  | nil =>
    cases h
    exact .refl _
  | cons x xs =>
    obtain ⟨name, type, width⟩ := x
    obtain ⟨_, z₁, h₁, h₂⟩ := run_bind_eq_ok.mp h
    have hs := hz.wellFormed.scopeAt_lt hp
    have hz₁ := (predeclareDeclarator_ensures type built_durable hz hs).kept_of_run h₁
    have hg₁ := predeclareDeclarator_gains type hz hp h₁
    exact hg₁.trans hz₁.wellFormed (predeclareMembers_gains xs hz₁ (hg₁.scopeAt hp) h₂)

end

end

end TypeLayout
