import TypeLayout.Proofs.Source.Reported
/-! What the second pass visits lies inside the records that are being defined. Each of these is an
entry that is no typedef, so no reading through typedefs passes through it. -/

namespace TypeLayout

open Registry

namespace Registry

variable {r r' : Registry} {id : TypeId} {ids : List TypeId}

def Nominal (r : Registry) (ids : List TypeId) : Prop :=
  ∀ id ∈ ids, id.index < r.size ∧ ¬ r.IsTypedef id

theorem Nominal.growsTo (h : r.Nominal ids) (hg : r.GrowsTo r') : r'.Nominal ids := by
  intro id hid
  obtain ⟨hlt, hnot⟩ := h id hid
  exact ⟨Nat.lt_of_lt_of_le hlt hg.size_le, fun ht => hnot (hg.isTypedef hlt ht)⟩

theorem nominal_of_tag {tag : TagKind} (h : r.tagOf? id = some tag) :
    id.index < r.size ∧ ¬ r.IsTypedef id := by
  obtain ⟨e, he, -⟩ := Option.bind_eq_some_iff.mp h
  refine ⟨entry?_lt he, fun ⟨t, ht⟩ => ?_⟩
  rw [tagOf?_of_definition? ht] at h
  cases h

end Registry

section

variable {defining : List TypeId} {s : ScopeId} {z z₁ : Resolution}

theorem openRecord_nominal (hs : s.index < z.registry.scopes.size)
    (hdefining : z.registry.Nominal defining) {tag : AggregateKind} {name : Option String}
    {p : Option TypeId × ScopeId} (hopen : (openRecord s tag name).run z = (.ok p, z₁)) :
    z₁.registry.Nominal (p.1.toList ++ defining) := by
  cases name with
  | none =>
    cases hopen
    exact hdefining
  | some name =>
    obtain ⟨id, r, hdeclare, rfl, -, rfl⟩ := openRecord_named_ok hopen
    obtain ⟨-, kind, hkind, -⟩ := declare_bound hs hdeclare
    intro j hj
    rcases List.mem_cons.mp hj with rfl | hj
    · exact nominal_of_tag hkind
    · exact hdefining.growsTo (growsTo_declare hdeclare) j hj

end

namespace Visit

/-- The visit lies within the records `defining`, at a scope of a registry in which these are
entries that are no typedefs, like all records that are being defined there. -/
structure Within (v : Visit) (defining : List TypeId) : Prop where
  built : v.before.registry.Built
  scope_lt : v.scope.index < v.before.registry.scopes.size
  nominal : v.before.registry.Nominal v.defining
  encloses : defining ⊆ v.defining

theorem Within.mono {v : Visit} {inside defining : List TypeId} (h : v.Within inside)
    (hsub : defining ⊆ inside) : v.Within defining :=
  { h with encloses := fun _ hid => h.encloses (hsub hid) }

end Visit

-- A visit is at the item itself or on the way through it, so each case goes by where in the list
-- the visit stands.
mutual

theorem visitsInDeclaration_within (d : Declaration) {defining : List TypeId} {s : ScopeId}
    {z : Resolution} (hz : z.registry.Built) (hs : s.index < z.registry.scopes.size)
    (hd : z.registry.Nominal defining) {v : Visit}
    (hv : v ∈ visitsInDeclaration defining s z d) : v.Within defining := by
  cases d with
  | record r =>
    rcases List.mem_append.mp hv with hv | hv
    · obtain ⟨p, _, -, hwithin⟩ := visitsInRecord_within r hz hs hd hv
      exact hwithin.mono (List.subset_append_right _ _)
    · obtain rfl := List.mem_singleton.mp hv
      exact ⟨hz, hs, hd, List.Subset.refl _⟩
  | typedef name target => exact visitsInDeclarator_within target hz hs hd hv
  | forward tag name => cases hv
  | enum e => cases hv

theorem visitsInRecord_within (r : RecordDecl) {defining : List TypeId} {s : ScopeId}
    {z : Resolution} (hz : z.registry.Built) (hs : s.index < z.registry.scopes.size)
    (hd : z.registry.Nominal defining) {v : Visit}
    (hv : v ∈ visitsInRecord defining s z r) :
    ∃ p z₁, (openRecord s r.tag r.name).run z = (.ok p, z₁) ∧
      v.Within (p.1.toList ++ defining) := by
  obtain ⟨tag, name, bases, members, functions, nested⟩ := r
  unfold visitsInRecord at hv
  split at hv
  next e z₁ hopen => cases hv
  next id body z₁ hopen =>
    have hopened := openRecord_built hz hs tag name
    have hz₁ := hopened.kept_of_run hopen
    have hbody := hopened.of_answer hopen
    have hinside := openRecord_nominal hs hd hopen
    refine ⟨_, _, hopen, ?_⟩
    rcases List.mem_append.mp hv with hv | hv
    · exact visitsInNested_within nested hz₁ hbody hinside hv
    · split at hv
      next e z₂ hbases => cases hv
      next specs z₂ hbases =>
        have hz₂ := (resolveNested_built nested (id.toList ++ defining) hz₁ hbody).kept
        have hgrows := (resolveNested_lockstep z₁.registry (id.toList ++ defining) body
          nested).grows.trans ((resolveBases_lockstep _ s bases).grows_of_run hbases)
        have hz₃ := (resolveBases_built hz₂ bases).kept_of_run hbases
        exact visitsInMembers_within members hz₃ (Nat.lt_of_lt_of_le hbody hgrows.scopes_le)
          (hinside.growsTo hgrows) hv

theorem visitsInDeclarator_within (d : Declarator) {defining : List TypeId} {s : ScopeId}
    {z : Resolution} (hz : z.registry.Built) (hs : s.index < z.registry.scopes.size)
    (hd : z.registry.Nominal defining) {v : Visit}
    (hv : v ∈ visitsInDeclarator defining s z d) : v.Within defining := by
  cases d with
  | pointer pointee => exact visitsInDeclarator_within pointee hz hs hd hv
  | array element count => exact visitsInDeclarator_within element hz hs hd hv
  | record r =>
    rcases List.mem_append.mp hv with hv | hv
    · obtain ⟨p, _, -, hwithin⟩ := visitsInRecord_within r hz hs hd hv
      exact hwithin.mono (List.subset_append_right _ _)
    · obtain rfl := List.mem_singleton.mp hv
      exact ⟨hz, hs, hd, List.Subset.refl _⟩
  | fundamental spelling => cases hv
  | named name => cases hv
  | enum e => cases hv

theorem visitsInNested_within (ds : List Declaration) {defining : List TypeId} {s : ScopeId}
    {z : Resolution} (hz : z.registry.Built) (hs : s.index < z.registry.scopes.size)
    (hd : z.registry.Nominal defining) {v : Visit}
    (hv : v ∈ visitsInNested defining s z ds) : v.Within defining := by
  cases ds with
  | nil => cases hv
  | cons d ds =>
    rcases List.mem_append.mp hv with hv | hv
    · exact visitsInDeclaration_within d hz hs hd hv
    rcases List.mem_cons.mp hv with rfl | hv
    · exact ⟨hz, hs, hd, List.Subset.refl _⟩
    · have hz₁ := (setAside_ensures d (resolveDeclaration_built d defining hz hs)).kept
      have hgrows := ((resolveDeclaration_lockstep z.registry defining s d).setAside _ d d).grows
      exact visitsInNested_within ds hz₁ (Nat.lt_of_lt_of_le hs hgrows.scopes_le)
        (hd.growsTo hgrows) hv

theorem visitsInMembers_within (xs : List MemberDecl) {defining : List TypeId} {s : ScopeId}
    {z : Resolution} (hz : z.registry.Built) (hs : s.index < z.registry.scopes.size)
    (hd : z.registry.Nominal defining) {v : Visit}
    (hv : v ∈ visitsInMembers defining s z xs) : v.Within defining := by
  cases xs with
  | nil => cases hv
  | cons x xs =>
    obtain ⟨name, type, width⟩ := x
    rcases List.mem_append.mp hv with hv | hv
    · exact visitsInDeclarator_within type hz hs hd hv
    · split at hv
      next e z₁ htype => cases hv
      next d z₁ htype =>
        have hz₁ := (resolveDeclarator_built type defining hz hs).kept_of_run htype
        have hgrows := (resolveDeclarator_lockstep z.registry defining s type).grows_of_run htype
        split at hv
        next e hcheck => cases hv
        next u hcheck =>
          exact visitsInMembers_within xs hz₁ (Nat.lt_of_lt_of_le hs hgrows.scopes_le)
            (hd.growsTo hgrows) hv

end

theorem Resolution.visits_within {z : Resolution} (hz : z.registry.Built) (ds : List Declaration)
    {v : Visit} (hv : v ∈ visits z ds) : v.Within [] := by
  induction ds generalizing z with
  | nil => cases hv
  | cons d ds ih =>
    have hs := hz.wellFormed.global_lt
    have hnone : z.registry.Nominal [] := fun _ hid => by cases hid
    rcases List.mem_append.mp hv with hv | hv
    · rcases List.mem_cons.mp hv with rfl | hv
      · exact ⟨hz, hs, hnone, List.Subset.refl _⟩
      · exact visitsInDeclaration_within d hz hs hnone hv
    · exact ih (resolveStep_kept (resolveDeclaration_built d [] hz hs) {}) hv

theorem SourceUnit.visits_within (u : SourceUnit) {v : Visit} (hv : v ∈ u.visits) : v.Within [] :=
  Resolution.visits_within (Resolution.predeclarePass_kept built_durable .prelude _ _) _ hv

end TypeLayout
