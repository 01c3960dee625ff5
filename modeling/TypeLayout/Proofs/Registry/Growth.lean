import TypeLayout.Proofs.Registry.Typedefs
/-! How a registry grows. Entries and scopes keep their names and places, a defined entry keeps its
definition, and so every type keeps its name and its reading through typedefs. -/

namespace TypeLayout

theorem TagKind.compatible_trans {a b c : TagKind} (h : a.compatible b = true)
    (h' : b.compatible c = true) : a.compatible c = true := by
  cases a <;> cases b <;> cases c <;> simp_all [TagKind.compatible]

theorem TagKind.compatible_refl (a : TagKind) : a.compatible a = true := by
  rcases a with (_ | _ | _) | _ <;> rfl

/-- What may happen to an entry: a forward declaration is completed by a definition with a
compatible tag. -/
structure Entry.Becomes (e e' : Entry) : Prop where
  name : e'.name = e.name
  scope : e'.scope = e.scope
  body : e'.body = e.body
  state : e'.state = e.state ∨ ∃ tag d other, e.state = .forward tag ∧ e'.state = .defined d ∧
    d.tag? = some other ∧ tag.compatible other = true

structure Scope.Widens (s s' : Scope) : Prop where
  parent : s'.parent = s.parent
  owner : s'.owner = s.owner
  tags : s.tags <+: s'.tags
  typedefs : s.typedefs <+: s'.typedefs

theorem Entry.Becomes.refl (e : Entry) : e.Becomes e := ⟨rfl, rfl, rfl, Or.inl rfl⟩

theorem Entry.Becomes.trans {e₁ e₂ e₃ : Entry} (h : e₁.Becomes e₂) (h' : e₂.Becomes e₃) :
    e₁.Becomes e₃ where
  name := h'.name.trans h.name
  scope := h'.scope.trans h.scope
  body := h'.body.trans h.body
  state := by
    rcases h.state with hs | ⟨tag, d, other, hs, hs', hd⟩
    · rw [← hs]
      exact h'.state
    · rcases h'.state with h₂ | ⟨_, _, _, h₂, -⟩
      · exact Or.inr ⟨tag, d, other, hs, h₂.trans hs', hd⟩
      · rw [hs'] at h₂
        cases h₂

theorem Entry.Becomes.tag_cases {e e' : Entry} (h : e.Becomes e') :
    e'.tag? = e.tag? ∨ ∃ tag tag', e.tag? = some tag ∧ e'.tag? = some tag' ∧
      tag.compatible tag' = true := by
  rcases h.state with hs | ⟨tag, d, other, hs, hs', hd, hc⟩
  · exact Or.inl (congrArg EntryState.tag? hs)
  · exact Or.inr ⟨tag, other, congrArg EntryState.tag? hs,
      (congrArg EntryState.tag? hs').trans hd, hc⟩

theorem Entry.Becomes.tag_isSome {e e' : Entry} (h : e.Becomes e') :
    e'.tag?.isSome = e.tag?.isSome := by
  rcases h.tag_cases with hs | ⟨tag, tag', hs, hs', -⟩
  · rw [hs]
  · rw [hs, hs']
    rfl

theorem Entry.Becomes.isAggregate {e e' : Entry} (h : e.Becomes e') :
    e'.isAggregate = e.isAggregate := by
  change e'.tag?.any _ = e.tag?.any _
  rcases h.tag_cases with hs | ⟨tag, tag', hs, hs', hc⟩
  · rw [hs]
  · rw [hs, hs']
    exact (TagKind.isAggregate_eq_of_compatible hc).symm

theorem Entry.Becomes.eq_of_defined {e e' : Entry} (h : e.Becomes e') {d : Definition}
    (hd : e.state = .defined d) : e' = e := by
  have hstate : e'.state = e.state := by
    rcases h.state with hs | ⟨_, _, _, hs, -⟩
    · exact hs
    · rw [hd] at hs
      cases hs
  obtain ⟨name, scope, state, body⟩ := e
  obtain ⟨rfl, rfl, rfl⟩ := And.intro h.name (And.intro h.scope h.body)
  cases e'
  cases hstate
  rfl

theorem Scope.Widens.refl (s : Scope) : s.Widens s :=
  ⟨rfl, rfl, List.prefix_refl _, List.prefix_refl _⟩

theorem Scope.Widens.trans {s₁ s₂ s₃ : Scope} (h : s₁.Widens s₂) (h' : s₂.Widens s₃) :
    s₁.Widens s₃ :=
  ⟨h'.parent.trans h.parent, h'.owner.trans h.owner, h.tags.trans h'.tags,
    h.typedefs.trans h'.typedefs⟩

theorem Scope.widens_bindAs (s : Scope) (state : EntryState) (name : String) (id : TypeId) :
    s.Widens (s.bindAs state name id) where
  parent := s.parent_bindAs state name id
  owner := s.owner_bindAs state name id
  tags := by
    rw [tags_bindAs]
    exact List.prefix_append _ _
  typedefs := by
    rw [typedefs_bindAs]
    exact List.prefix_append _ _

namespace Registry

structure GrowsTo (r r' : Registry) : Prop where
  entry : ∀ {id e}, r.entry? id = some e → ∃ e', r'.entry? id = some e' ∧ e.Becomes e'
  scope : ∀ {s sc}, r.scope? s = some sc → ∃ sc', r'.scope? s = some sc' ∧ sc.Widens sc'
  size_le : r.size ≤ r'.size
  scopes_le : r.scopes.size ≤ r'.scopes.size

variable {r r' : Registry}

theorem GrowsTo.refl (r : Registry) : r.GrowsTo r where
  entry h := ⟨_, h, .refl _⟩
  scope h := ⟨_, h, .refl _⟩
  size_le := Nat.le_refl _
  scopes_le := Nat.le_refl _

theorem GrowsTo.trans {r'' : Registry} (h : r.GrowsTo r') (h' : r'.GrowsTo r'') :
    r.GrowsTo r'' where
  entry he := by
    obtain ⟨e', he', hb⟩ := h.entry he
    obtain ⟨e'', he'', hb'⟩ := h'.entry he'
    exact ⟨e'', he'', hb.trans hb'⟩
  scope hs := by
    obtain ⟨sc', hs', hw⟩ := h.scope hs
    obtain ⟨sc'', hs'', hw'⟩ := h'.scope hs'
    exact ⟨sc'', hs'', hw.trans hw'⟩
  size_le := Nat.le_trans h.size_le h'.size_le
  scopes_le := Nat.le_trans h.scopes_le h'.scopes_le

theorem GrowsTo.becomes (h : r.GrowsTo r') {id : TypeId} {e' : Entry} (hid : id.index < r.size)
    (he' : r'.entry? id = some e') : ∃ e, r.entry? id = some e ∧ e.Becomes e' := by
  obtain ⟨e, he⟩ := entry?_of_lt hid
  obtain ⟨e'', he'', hb⟩ := h.entry he
  rw [he'] at he''
  cases he''
  exact ⟨e, he, hb⟩

theorem growsTo_alloc (r : Registry) (s : ScopeId) (name : String) (state : EntryState) :
    r.GrowsTo (r.alloc s name state).2 where
  entry {id e} h := by
    have hid := entry?_lt h
    refine ⟨e, ?_, .refl e⟩
    rw [entry?_alloc, if_neg (by omega)]
    exact h
  scope {t sc} h := by
    have ht := scope?_lt h
    rw [scope?_alloc_of_lt r s name state ht, h]
    refine ⟨_, rfl, ?_⟩
    split
    · exact sc.widens_bindAs state name _
    · exact .refl sc
  size_le := by
    rw [size_alloc]
    exact Nat.le_succ _
  scopes_le := r.scopes_size_le_alloc s name state

theorem growsTo_setState {id : TypeId} {e : Entry} {tag other : TagKind} {d : Definition}
    (he : r.entry? id = some e) (hs : e.state = .forward tag) (ht : d.tag? = some other)
    (hc : tag.compatible other = true) : r.GrowsTo (r.setState id (.defined d)) where
  entry {j e₀} h := by
    rw [entry?_setState, h]
    refine ⟨_, rfl, ?_⟩
    split
    next hj =>
      have hj : id = j := by cases id; cases j; simpa using hj
      subst hj
      rw [he] at h
      cases h
      exact ⟨rfl, rfl, rfl, Or.inr ⟨tag, d, other, hs, rfl, ht, hc⟩⟩
    next => exact .refl e₀
  scope h := ⟨_, h, .refl _⟩
  size_le := Nat.le_of_eq (size_setState r _ id).symm
  scopes_le := Nat.le_refl _

theorem growsTo_declare {s : ScopeId} {name : String} {tag : TagKind} {id : TypeId}
    (h : r.declare s name tag = .ok (id, r')) : r.GrowsTo r' := by
  rcases declare_cases h with ⟨-, -, rfl⟩ | ⟨-, -, rfl⟩
  · exact .refl _
  · exact r.growsTo_alloc s name _

theorem growsTo_define {s : ScopeId} {name : String} {d : Definition} {id : TypeId}
    (h : r.define s name d = .ok (id, r')) : r.GrowsTo r' := by
  rcases define_cases h with ⟨-, rfl, e, tag, other, he, hst, ht, hc⟩ | ⟨-, -, rfl⟩
  · exact growsTo_setState he hst ht hc
  · exact r.growsTo_alloc s name _

theorem GrowsTo.definition? (h : r.GrowsTo r') {id : TypeId} {d : Definition}
    (hd : r.definition? id = some d) : r'.definition? id = some d := by
  obtain ⟨e, he, hs⟩ := definition?_eq_some hd
  obtain ⟨e', he', hb⟩ := h.entry he
  have hs' : e'.state = .defined d := by
    rcases hb.state with h' | ⟨_, _, _, h', -⟩
    · exact h'.trans hs
    · rw [hs] at h'
      cases h'
  simp [Registry.definition?, he', Entry.definition?, EntryState.definition?, hs']

theorem GrowsTo.isTypedef (h : r.GrowsTo r') {id : TypeId} (hid : id.index < r.size)
    (ht : r'.IsTypedef id) : r.IsTypedef id := by
  -- a forward declaration has a tag, which a typedef has not
  obtain ⟨t, ht⟩ := ht
  obtain ⟨e, he⟩ := entry?_of_lt hid
  obtain ⟨e', he', hb⟩ := h.entry he
  obtain ⟨e'', he'', hs''⟩ := definition?_eq_some ht
  rw [he'] at he''
  cases he''
  rcases hb.state with h' | ⟨_, d, other, -, h', hd, -⟩
  · refine ⟨t, ?_⟩
    simp [Registry.definition?, he, Entry.definition?, EntryState.definition?, ← h', hs'']
  · rw [hs''] at h'
    cases h'
    cases hd

theorem GrowsTo.strip_eq (h : r.GrowsTo r') (hr : r.Founded) (hr' : r'.Founded) {d : Descriptor}
    (hd : ∀ j ∈ d.mentions, j.index < r.size) : r'.strip d = r.strip d := by
  induction d using hr.typedef_induction with
  | link id t ht ih =>
    rw [hr.strip_typedef ht, hr'.strip_typedef (h.definition? ht)]
    exact ih fun j hj => hr.mention_lt ht hj
  | stop d hnt =>
    rw [strip_of_not_typedef hnt]
    refine strip_of_not_typedef fun id hid ht => ?_
    subst hid
    exact hnt id rfl (h.isTypedef (hd id (List.mem_singleton.mpr rfl)) ht)

theorem GrowsTo.owner?_eq (h : r.GrowsTo r') (hr : r.Treelike) {id : TypeId}
    (hid : id.index < r.size) : r'.owner? id = r.owner? id := by
  obtain ⟨e, he⟩ := entry?_of_lt hid
  obtain ⟨sc, hsc⟩ := scope?_of_lt (hr.scope_lt he)
  obtain ⟨e', he', hb⟩ := h.entry he
  obtain ⟨sc', hsc', hw⟩ := h.scope hsc
  simp [owner?, he, he', hb.scope, hsc, hsc', hw.owner]

theorem Treelike.owner?_lt (hr : r.Treelike) {id o : TypeId} (h : r.owner? id = some o) :
    o.index < id.index := by
  unfold owner? at h
  obtain ⟨e, he, h⟩ := Option.bind_eq_some_iff.mp h
  obtain ⟨sc, hsc, ho⟩ := Option.bind_eq_some_iff.mp h
  exact hr.owner_lt he hsc ho

theorem Treelike.namesOutward_eq (hr : r.Treelike) {n m : Nat} {id : TypeId}
    (hn : id.index < n) (hm : id.index < m) : r.namesOutward n id = r.namesOutward m id := by
  induction n generalizing m id with
  | zero => exact absurd hn (Nat.not_lt_zero _)
  | succ n ih =>
    obtain ⟨m, rfl⟩ := Nat.exists_eq_succ_of_ne_zero (Nat.ne_of_gt (Nat.zero_lt_of_lt hm))
    unfold namesOutward
    split
    · rfl
    · split
      next o ho =>
        have hlt := hr.owner?_lt ho
        rw [ih (by omega) (show o.index < m by omega)]
      · rfl

theorem GrowsTo.namesOutward_eq (h : r.GrowsTo r') (hr : r.Treelike) {n : Nat} {id : TypeId}
    (hid : id.index < r.size) : r'.namesOutward n id = r.namesOutward n id := by
  induction n generalizing id with
  | zero => rfl
  | succ n ih =>
    obtain ⟨e, he⟩ := entry?_of_lt hid
    obtain ⟨e', he', hb⟩ := h.entry he
    simp only [namesOutward, he, he', hb.name, h.owner?_eq hr hid]
    cases ho : r.owner? id with
    | none => rfl
    | some o =>
      have hlt := hr.owner?_lt ho
      simp only [ih (show o.index < r.size by omega)]

theorem GrowsTo.qualifiedName_eq (h : r.GrowsTo r') (hr : r.Treelike) {id : TypeId}
    (hid : id.index < r.size) : r'.qualifiedName id = r.qualifiedName id := by
  have hle := h.size_le
  unfold qualifiedName
  rw [h.namesOutward_eq hr hid, hr.namesOutward_eq (n := r'.size) (m := r.size) (by omega) hid]

theorem GrowsTo.typeName_eq (h : r.GrowsTo r') (hr : r.Treelike) {d : Descriptor}
    (hd : ∀ j ∈ d.mentions, j.index < r.size) : r'.typeName d = r.typeName d := by
  suffices hw : ∀ dims, r'.typeNameWith d dims = r.typeNameWith d dims from hw ""
  intro dims
  fun_induction typeNameWith r d dims with
  | case1 element count dims ih => simp only [typeNameWith, ih hd]
  | case2 pointee dims ih => simp only [typeNameWith, ih hd]
  | case7 id dims =>
    simp only [typeNameWith, h.qualifiedName_eq hr (hd id (List.mem_singleton.mpr rfl))]
  | _ => simp only [typeNameWith]

end Registry

end TypeLayout
