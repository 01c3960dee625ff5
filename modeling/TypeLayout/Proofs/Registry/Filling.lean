import TypeLayout.Proofs.Registry.Finding
import TypeLayout.Proofs.Registry.Growth
/-! Completing declarations. A registry that grows by definitions of entries it has keeps its tree,
so every name is found where it was found before. -/

namespace TypeLayout

namespace Registry

structure FillsTo (r r' : Registry) : Prop extends GrowsTo r r' where
  size_eq : r'.size = r.size
  scopes_eq : r'.scopes = r.scopes

variable {r r' r'' : Registry} {s : ScopeId} {name : String} {id : TypeId}

theorem FillsTo.refl (r : Registry) : r.FillsTo r := ⟨.refl r, rfl, rfl⟩

theorem FillsTo.trans (h : r.FillsTo r') (h' : r'.FillsTo r'') : r.FillsTo r'' :=
  ⟨h.toGrowsTo.trans h'.toGrowsTo, h'.size_eq.trans h.size_eq, h'.scopes_eq.trans h.scopes_eq⟩

theorem definition?_of_declare {tag : TagKind} {j : TypeId} {d : Definition}
    (h : r.declare s name tag = .ok (id, r')) (hj : r'.definition? j = some d) :
    r.definition? j = some d := by
  rcases declare_cases h with ⟨-, -, rfl⟩ | ⟨-, rfl, rfl⟩
  · exact hj
  · rw [definition?_alloc] at hj
    split at hj
    · cases hj
    · exact hj

theorem definition?_of_define {d d' : Definition} {j : TypeId}
    (h : r.define s name d = .ok (id, r')) (hj : r'.definition? j = some d') :
    r.definition? j = some d' ∨ d' = d := by
  rcases define_cases h with ⟨-, rfl, -⟩ | ⟨-, rfl, rfl⟩
  · rw [definition?_setState] at hj
    split at hj
    · obtain ⟨-, -, hd⟩ := Option.map_eq_some_iff.mp hj
      exact .inr hd.symm
    · exact .inl hj
  · rw [definition?_alloc] at hj
    split at hj
    · exact .inr (Option.some.inj hj).symm
    · exact .inl hj

theorem fillsTo_define {d : Definition} {j : TypeId} (h : r.define s name d = .ok (id, r'))
    (hbound : r.rival? s name d = some j) :
    r.FillsTo r' ∧ id = j ∧ ∀ k, r'.definition? k = if k = id then some d else r.definition? k := by
  have hg := growsTo_define h
  rcases define_cases h with ⟨hrival, rfl, e, -, -, he, -⟩ | ⟨hfree, -, -⟩
  · rw [hbound] at hrival
    cases hrival
    refine ⟨⟨hg, size_setState .., rfl⟩, rfl, fun k => ?_⟩
    rw [definition?_setState]
    by_cases hk : k = id
    · simp [hk, he]
    · have hne : ¬ id.index = k.index := fun h => hk (congrArg TypeId.mk h.symm)
      simp [hk, hne]
  · rw [hfree] at hbound
    cases hbound

namespace FillsTo

variable (h : r.FillsTo r')
include h

theorem scope?_eq : r'.scope? = r.scope? := by
  funext s
  unfold scope?
  rw [h.scopes_eq]

theorem boundTag?_eq : r'.boundTag? = r.boundTag? := by
  funext s n
  unfold Registry.boundTag?
  rw [h.scope?_eq]

theorem bound?_eq : r'.bound? = r.bound? := by
  funext s n
  unfold bound?
  rw [h.scope?_eq]

theorem body?_eq : r'.body? = r.body? := by
  funext id
  by_cases hid : id.index < r.size
  · obtain ⟨e, he⟩ := entry?_of_lt hid
    obtain ⟨e', he', hb⟩ := h.entry he
    simp only [Registry.body?, he, he', Option.bind_eq_bind, Option.bind_some, hb.body]
  · have hnone : r.entry? id = none := entry?_of_ge (Nat.le_of_not_lt hid)
    have hsize := h.size_eq
    have hnone' : r'.entry? id = none :=
      entry?_of_ge (show r'.size ≤ id.index by omega)
    simp only [Registry.body?, hnone, hnone']

theorem scopesOutward_eq (n : Nat) (s : ScopeId) :
    r'.scopesOutward n s = r.scopesOutward n s := by
  induction n generalizing s with
  | zero => rfl
  | succ n ih =>
    simp only [scopesOutward, h.scope?_eq]
    cases r.scope? s >>= Scope.parent with
    | none => rfl
    | some p => simp only [ih]

theorem findWithin_eq (id : TypeId) (parts : List String) :
    r'.findWithin id parts = r.findWithin id parts := by
  induction parts generalizing id with
  | nil => rfl
  | cons part parts ih => simp only [findWithin, h.body?_eq, h.bound?_eq, ih]

theorem find_eq : r'.find = r.find := by
  funext s name
  have hwithin : r'.findWithin = r.findWithin :=
    funext fun id => funext fun parts => h.findWithin_eq id parts
  simp only [find, findPath?, startScopes, enclosing, h.scopesOutward_eq, h.scopes_eq, h.bound?_eq,
    hwithin]

end FillsTo

end Registry

end TypeLayout
