import TypeLayout.Proofs.Source.Fulfils
/-! What the registry of a unit holds when the unit has no typedefs and resolves without errors: the
standard typedefs, a tag at the route of every site, and the definition that each body reads as. -/

namespace TypeLayout

open Registry

namespace Registry

structure Flat (r : Registry) : Prop where
  scopes_size : r.scopes.size = 1
  entry : ∀ {id e}, r.entry? id = some e →
    e.scope = .global ∧ ∃ kind, e.state = .defined (.typedef (.fundamental kind))

theorem withPrelude_flat : withPrelude.Flat := by
  refine prelude_induction ⟨rfl, fun h => ?_⟩ fun r name kind hr => ⟨?_, fun {id e} h => ?_⟩
  · rw [entry?_empty] at h
    cases h
  · rw [scopes_alloc, if_neg (fun h => by cases h)]
    simp [bind, hr.scopes_size]
  · rw [entry?_alloc] at h
    split at h
    · cases h
      exact ⟨rfl, kind, rfl⟩
    · exact hr.entry h

variable {r r' : Registry} {id : TypeId} {p q : List String} {s : ScopeId} {n : String}

theorem Flat.boundTag? (h : r.Flat) (hr : r.Linked) : r.boundTag? s n = none := by
  cases hb : r.boundTag? s n with
  | none => rfl
  | some id =>
    obtain ⟨e, he, -, -, htag⟩ := hr.entry_of_bound hb
    obtain ⟨-, kind, hstate⟩ := h.entry he
    rw [Entry.tag?, hstate] at htag
    cases htag

theorem Flat.tagAt (h : r.Flat) (hr : r.Linked) : r.tagAt q = none := by
  cases q with
  | nil => rfl
  | cons n q =>
    refine Option.bind_eq_none_iff.mpr fun s _ => ?_
    exact h.boundTag? hr

theorem Flat.boundTypedef?_eq_none (h : r.Flat) (hs : 0 < s.index) :
    r.boundTypedef? s n = none := by
  have hnone : r.scope? s = none := scope?_of_ge (h.scopes_size ▸ hs)
  rw [boundTypedef?, hnone]
  rfl

/-- What a registry holds of some sites beside the standard typedefs. -/
structure Census (xs : List Site) (r : Registry) : Prop where
  built : r.Built
  prelude : withPrelude.GrowsTo r
  boundTypedef?_eq : ∀ s n, r.boundTypedef? s n = withPrelude.boundTypedef? s n
  tag_isSome : ∀ {id e}, r.entry? id = some e → withPrelude.size ≤ id.index → e.tag?.isSome = true
  accepts : ∀ x ∈ xs, r.Accepts x
  site : ∀ {q id}, r.tagAt q = some id →
    ∃ x ∈ xs, x.1 = q ∧ (r.definition? id = none → x.2.tag? = r.tagOf? id)
  defined : ∀ x ∈ xs, x.2.hasBody = true →
    ∃ id y, r.tagAt x.1 = some id ∧ r.Reads x.1 x.2 y ∧ r.definition? id = some y
  origin : ∀ {id y}, r.definition? id = some y →
    withPrelude.definition? id = some y ∨ ∃ x ∈ xs, x.2.hasBody = true ∧ r.tagAt x.1 = some id

theorem GrowsTo.tagOf?_of_undefined (h : r.GrowsTo r') (hid : id.index < r.size)
    (hd : r'.definition? id = none) : r'.tagOf? id = r.tagOf? id := by
  obtain ⟨e, he⟩ := entry?_of_lt hid
  obtain ⟨e', he', hb⟩ := h.entry he
  simp only [Registry.tagOf?, he, he', Option.bind_eq_bind, Option.bind_some]
  rcases hb.state with hs | ⟨_, d, _, _, hs, _⟩
  · exact congrArg EntryState.tag? hs
  · have hsome : e'.state.definition? = some d := hs ▸ rfl
    rw [Registry.definition?, he'] at hd
    cases hd.symm.trans hsome

theorem Gains.census {xs : List Site} (hg : Gains xs withPrelude r) (hf : Fulfils xs r r')
    (hr : r.Built) (hr' : r'.Built) : Census xs r' where
  built := hr'
  prelude := hg.toGrowsTo.trans hf.toGrowsTo
  boundTypedef?_eq s n := by
    unfold boundTypedef?
    rw [hf.scope?_eq]
    exact hg.boundTypedef?_eq s n
  tag_isSome {id e'} he' hid := by
    obtain ⟨e, he, hb⟩ := hf.becomes (hf.size_eq ▸ entry?_lt he') he'
    rw [hb.tag_isSome]
    exact hg.tag_isSome he hid
  accepts x hx := (hg.accepts x hx).growsTo hf.toGrowsTo
  site {q id} hq := by
    rw [hf.tagAt_eq] at hq
    rcases hg.site_of_tagAt hq with hnone | ⟨x, hx, hat, htag⟩
    · rw [withPrelude_flat.tagAt withPrelude_linked] at hnone
      cases hnone
    · refine ⟨x, hx, hat, fun hd => htag.trans ?_⟩
      exact (hf.toGrowsTo.tagOf?_of_undefined (hr.wellFormed.tagAt_lt hq) hd).symm
  defined := hf.defined
  origin hy := (hf.origin hy).imp_left fun h => (hg.definition?_eq _) ▸ h

namespace Census

variable {xs : List Site}

theorem linked (h : Census xs r) : r.Linked := h.built.linked

theorem wellFormed (h : Census xs r) : r.WellFormed := h.built.wellFormed

theorem prelude_entry (h : Census xs r) (hid : id.index < withPrelude.size) :
    ∃ e, withPrelude.entry? id = some e ∧ r.entry? id = some e ∧ e.scope = .global ∧
      ∃ kind, e.state = .defined (.typedef (.fundamental kind)) := by
  obtain ⟨e, he⟩ := entry?_of_lt hid
  obtain ⟨hscope, kind, hstate⟩ := withPrelude_flat.entry he
  obtain ⟨e', he', hb⟩ := h.prelude.entry he
  rw [hb.eq_of_defined hstate] at he'
  exact ⟨e, he, he', hscope, kind, hstate⟩

theorem prelude_body (h : Census xs r) (hid : id.index < withPrelude.size) :
    r.body? id = none := by
  obtain ⟨e, -, he, -, kind, hstate⟩ := h.prelude_entry hid
  rw [body?, he]
  by_contra hsome
  have hagg := h.linked.aggregate_of_body he (Option.isSome_iff_ne_none.mpr hsome)
  rw [Entry.isAggregate, hstate] at hagg
  cases hagg

theorem size_le_of_tagAt (h : Census xs r) (hq : r.tagAt q = some id) :
    withPrelude.size ≤ id.index := by
  by_contra hlt
  obtain ⟨e, -, he, -, kind, hstate⟩ := h.prelude_entry (Nat.lt_of_not_le hlt)
  obtain ⟨e', he', htag⟩ := h.linked.entry_of_tagAt hq
  rw [he] at he'
  cases he'
  rw [Entry.tag?, hstate] at htag
  cases htag

theorem forward_of_undefined (h : Census xs r) (hq : r.tagAt q = some id)
    (hd : r.definition? id = none) : (∃ tag n, (q, .forward tag n) ∈ xs ∧
      r.tagOf? id = some tag.kind) ∧ ∀ x ∈ xs, x.1 = q → x.2.hasBody = false := by
  have hnone : ∀ x ∈ xs, x.1 = q → x.2.hasBody = false := by
    intro x hx hxq
    by_contra hb
    obtain ⟨j, w, hj, -, hw⟩ := h.defined x hx (by simpa using hb)
    rw [hxq, hq] at hj
    cases hj
    rw [hd] at hw
    cases hw
  obtain ⟨⟨_, d⟩, hx, rfl, htag⟩ := h.site hq
  have hbody := hnone _ hx rfl
  refine ⟨?_, hnone⟩
  cases d with
  | forward tag n => exact ⟨tag, n, hx, (htag hd).symm⟩
  | typedef n target =>
    obtain ⟨_, _, _, -, -, ht, -⟩ := h.accepts _ hx
    cases ht
  | _ => cases hbody

theorem cases_lt (h : Census xs r) (hid : id.index < r.size) :
    id.index < withPrelude.size ∨ ∃ q, r.tagAt q = some id := by
  by_cases hlt : id.index < withPrelude.size
  · exact Or.inl hlt
  · obtain ⟨e, he⟩ := entry?_of_lt hid
    exact Or.inr ⟨_, h.linked.tagAt_route h.wellFormed.toTreelike he
      (h.tag_isSome he (Nat.le_of_not_lt hlt))⟩

end Census

end Registry

namespace Resolution

variable {z : Resolution} {o : Outcome}

theorem errors_predeclareStep (d : Declaration) (o : Outcome) (z : Resolution) :
    o.errors <+: (predeclareStep d o z).1.errors := by
  unfold predeclareStep
  split
  · exact List.prefix_refl _
  · exact List.prefix_append _ _

theorem errors_predeclarePass (ds : List Declaration) (o : Outcome) (z : Resolution) :
    o.errors <+: (predeclarePass ds o z).1.errors := by
  induction ds generalizing o z with
  | nil => exact List.prefix_refl _
  | cons d ds ih => exact (errors_predeclareStep d o z).trans (ih _ _)

theorem errors_resolveStep (d : Declaration) (o : Outcome) (z : Resolution) :
    o.errors <+: (resolveStep d o z).1.errors := by
  unfold resolveStep
  split
  · exact List.prefix_append _ _
  · exact (List.prefix_append _ _).trans (List.prefix_append _ _)

theorem errors_resolvePass (ds : List Declaration) (o : Outcome) (z : Resolution) :
    o.errors <+: (resolvePass ds o z).1.errors := by
  induction ds generalizing o z with
  | nil => exact List.prefix_refl _
  | cons d ds ih => exact (errors_resolveStep d o z).trans (ih _ _)

theorem predeclareStep_gains {d : Declaration} (hz : z.registry.Built)
    (hc : (predeclareStep d o z).1.errors = []) :
    Gains (d.sites []) z.registry (predeclareStep d o z).2.registry := by
  rcases hrun : (predeclare .global d).run z with ⟨e | u, z₁⟩
  · simp [predeclareStep, hrun] at hc
  · have hstep : predeclareStep d o z = (o, z₁) := by rw [predeclareStep, hrun]
    rw [hstep]
    exact predeclare_gains d hz rfl hrun

theorem predeclarePass_gains {ds : List Declaration} (hz : z.registry.Built)
    (hc : (predeclarePass ds o z).1.errors = []) :
    Gains (sitesAll [] ds) z.registry (predeclarePass ds o z).2.registry := by
  induction ds generalizing o z with
  | nil => exact .refl _
  | cons d ds ih =>
    have hstep : (predeclareStep d o z).1.errors = [] :=
      List.prefix_nil.mp (hc ▸ errors_predeclarePass ds _ _)
    have hz₁ := predeclareStep_kept built_durable hz d o
    exact (predeclareStep_gains hz hstep).trans hz₁.wellFormed (ih hz₁ hc)

theorem resolveStep_fulfils {d : Declaration} (hfree : d.typedefFree = true)
    (hz : z.registry.Built) (hx : ∀ x ∈ d.sites [], z.registry.Accepts x)
    (hc : (resolveStep d o z).1.errors = []) :
    Fulfils (d.sites []) z.registry (resolveStep d o z).2.registry := by
  rcases hrun : (resolveDeclaration [] .global d).run z with ⟨e | id, z₁⟩
  · simp [resolveStep, hrun, collectDeferred] at hc
  · have hstep : resolveStep d o z =
        collectDeferred { o with resolved := o.resolved ++ id.toList } z₁ := by
      rw [resolveStep, hrun]
    rw [hstep] at hc ⊢
    have hd₁ : z₁.deferred = [] := (List.append_eq_nil_iff.mp hc).2
    have hd : z.deferred <+: z₁.deferred := (resolveDeclaration_remembers d [] .global).of_run hrun
    have hsame : z₁.deferred = z.deferred := by
      rw [hd₁] at hd ⊢
      exact (List.prefix_nil.mp hd).symm
    have hf : Fulfils (d.sites []) z.registry z₁.registry :=
      resolveDeclaration_fulfils d hfree [] hz rfl hx hrun hsame
    exact hf

theorem resolvePass_fulfils {ds : List Declaration} (hfree : typedefFreeAll ds = true)
    (hz : z.registry.Built) (hx : ∀ x ∈ sitesAll [] ds, z.registry.Accepts x)
    (hc : (resolvePass ds o z).1.errors = []) :
    Fulfils (sitesAll [] ds) z.registry (resolvePass ds o z).2.registry := by
  induction ds generalizing o z with
  | nil => exact .refl _
  | cons d ds ih =>
    obtain ⟨hd, hds⟩ := Bool.and_eq_true_iff.mp hfree
    have hstep : (resolveStep d o z).1.errors = [] :=
      List.prefix_nil.mp (hc ▸ errors_resolvePass ds _ _)
    have hz₁ := resolveStep_kept (resolveDeclaration_built d [] hz hz.wellFormed.global_lt) o
    have hf := resolveStep_fulfils hd hz (fun x hmem => hx x (List.mem_append_left _ hmem)) hstep
    refine hf.trans (ih hds hz₁ (fun x hmem => ?_) hc)
    exact (hx x (List.mem_append_right _ hmem)).growsTo hf.toGrowsTo

end Resolution

theorem SourceUnit.census {u : SourceUnit} (hfree : typedefFreeAll u.declarations = true)
    (hc : u.resolve.1.isClean = true) :
    Census (sitesAll [] u.declarations) u.resolve.2.registry := by
  -- errors are only added, so the first pass ended without one
  have hc := List.isEmpty_iff.mp hc
  have hbuilt := Resolution.predeclarePass_kept built_durable (z := { registry := .withPrelude })
    .prelude u.declarations {}
  have hfirst := hc ▸ Resolution.errors_resolvePass u.declarations
    (Resolution.predeclarePass u.declarations {} { registry := .withPrelude }).1
    (Resolution.predeclarePass u.declarations {} { registry := .withPrelude }).2
  have hgains := Resolution.predeclarePass_gains (z := { registry := .withPrelude }) .prelude
    (List.prefix_nil.mp hfirst)
  exact hgains.census (Resolution.resolvePass_fulfils hfree hbuilt hgains.accepts hc) hbuilt
    u.resolve_built

end TypeLayout
