import TypeLayout.Proofs.Registry.Filling
/-! The tree of scopes. A tag is bound exactly where its entry says, a body is the scope of one
entry and lies in the scope of that entry, and every scope other than the global one is a body. -/

namespace TypeLayout

namespace Scope

variable {sc : Scope} {state : EntryState} {name n : String} {id : TypeId}

theorem tag?_bindAs (hfree : state.tag?.isSome = true → sc.tag? name = none) :
    (sc.bindAs state name id).tag? n =
      if state.tag?.isSome = true ∧ n = name then some id else sc.tag? n := by
  unfold tag? at hfree ⊢
  rw [tags_bindAs]
  by_cases htag : state.tag?.isSome = true
  · rw [if_pos htag, List.lookup_append]
    by_cases hn : n = name
    · subst hn
      simp [hfree htag, htag]
    · have hne : (n == name) = false := beq_false_of_ne hn
      simp [List.lookup_cons, hne, hn]
  · simp [htag]

theorem typedef?_bindAs (htag : state.tag?.isSome = true) :
    (sc.bindAs state name id).typedef? n = sc.typedef? n := by
  simp [typedef?, typedefs_bindAs, htag]

end Scope

namespace Registry

variable {r r' : Registry} {s t : ScopeId} {name n : String} {state : EntryState} {id : TypeId}

theorem scope?_alloc_bind {α : Type} (f : Scope → Option α)
    (hf : f { parent := some s, owner := some ⟨r.size⟩ } = none) :
    ((r.alloc s name state).2.scope? t >>= f) =
      (r.scope? t >>= fun sc => f (if s = t then sc.bindAs state name ⟨r.size⟩ else sc)) := by
  by_cases ht : t.index < r.scopes.size
  · obtain ⟨sc, hsc⟩ := scope?_of_lt ht
    rw [scope?_alloc_of_lt r s name state ht, hsc]
    have hst : s.index = t.index ↔ s = t := ⟨congrArg ScopeId.mk, congrArg ScopeId.index⟩
    simp only [Option.map_some, Option.bind_eq_bind, Option.bind_some, hst]
  · have hnone : r.scope? t = none := scope?_of_ge (Nat.le_of_not_lt ht)
    rw [hnone]
    cases hsc : (r.alloc s name state).2.scope? t with
    | none => rfl
    | some sc =>
      rw [(r.scope?_alloc_of_ge s name state (Nat.le_of_not_lt ht) hsc).2.2]
      exact hf

theorem boundTag?_alloc (hs : s.index < r.scopes.size)
    (hfree : state.tag?.isSome = true → r.boundTag? s name = none) :
    (r.alloc s name state).2.boundTag? t n =
      if state.tag?.isSome = true ∧ t = s ∧ n = name then some ⟨r.size⟩ else r.boundTag? t n := by
  unfold boundTag? at hfree ⊢
  rw [scope?_alloc_bind _ rfl]
  by_cases hst : s = t
  · subst hst
    obtain ⟨sc, hsc⟩ := scope?_of_lt hs
    rw [hsc] at hfree ⊢
    simp only [if_true, Option.bind_eq_bind, Option.bind_some, true_and] at hfree ⊢
    exact Scope.tag?_bindAs hfree
  · simp only [if_neg hst, Ne.symm hst, false_and, and_false, if_false]

theorem declare_bound (hs : s.index < r.scopes.size) {tag : TagKind}
    (h : r.declare s name tag = .ok (id, r')) :
    r'.boundTag? s name = some id ∧
      ∃ t, r'.tagOf? id = some t ∧ t.compatible tag = true := by
  rcases declare_cases h with ⟨hbound, hkind, rfl⟩ | ⟨hfree, rfl, rfl⟩
  · exact ⟨hbound, hkind⟩
  · refine ⟨?_, tag, ?_, tag.compatible_refl⟩
    · rw [boundTag?_alloc hs fun _ => hfree]
      exact if_pos ⟨rfl, rfl, rfl⟩
    · rw [tagOf?, entry?_alloc, if_pos rfl]
      rfl

theorem boundTypedef?_alloc (htag : state.tag?.isSome = true) :
    (r.alloc s name state).2.boundTypedef? t n = r.boundTypedef? t n := by
  unfold boundTypedef?
  rw [scope?_alloc_bind _ rfl]
  congr 1
  funext sc
  split
  · exact Scope.typedef?_bindAs htag
  · rfl

theorem newBody_eq_some :
    r.newBody state = some t ↔ state.isAggregate = true ∧ t.index = r.scopes.size := by
  unfold newBody
  split
  next h =>
    simp only [h, true_and, Option.some.injEq]
    exact ⟨fun ht => ht ▸ rfl, fun ht => congrArg ScopeId.mk ht.symm⟩
  next h => simp [h]

theorem place_alloc {sc : Scope} (h : (r.alloc s name state).2.scope? t = some sc) :
    (∃ sc₀, r.scope? t = some sc₀ ∧ sc.parent = sc₀.parent ∧ sc.owner = sc₀.owner) ∨
    (r.newBody state = some t ∧ r.scopes.size ≤ t.index ∧ sc.parent = some s ∧
      sc.owner = some ⟨r.size⟩) := by
  rcases scope?_alloc_cases h with ⟨sc₀, h₀, rfl | rfl⟩ | ⟨ht, rfl⟩
  · exact Or.inl ⟨_, h₀, rfl, rfl⟩
  · exact Or.inl ⟨_, h₀, by simp, by simp⟩
  · obtain ⟨hagg, hidx, -⟩ := r.scope?_alloc_of_ge s name state ht h
    exact Or.inr ⟨newBody_eq_some.mpr ⟨hagg, hidx⟩, ht, rfl, rfl⟩

theorem body?_alloc : (r.alloc s name state).2.body? id =
    if id.index = r.size then r.newBody state else r.body? id := by
  unfold body?
  rw [entry?_alloc]
  split <;> rfl

structure Linked (r : Registry) : Prop where
  bound_of_entry : ∀ {id e}, r.entry? id = some e → e.tag?.isSome = true →
    r.boundTag? e.scope e.name = some id
  entry_of_bound : ∀ {s n id}, r.boundTag? s n = some id →
    ∃ e, r.entry? id = some e ∧ e.name = n ∧ e.scope = s ∧ e.tag?.isSome = true
  aggregate_of_body : ∀ {id e}, r.entry? id = some e → e.body.isSome = true →
    e.isAggregate = true
  scope_of_body : ∀ {id e s sc}, r.entry? id = some e → e.body = some s → r.scope? s = some sc →
    sc.parent = some e.scope ∧ sc.owner = some id
  body_of_scope : ∀ {s sc}, r.scope? s = some sc →
    (s = .global ∧ sc.parent = none ∧ sc.owner = none) ∨
      ∃ o, sc.owner = some o ∧ r.body? o = some s
  parent_lt : ∀ {s sc t}, r.scope? s = some sc → sc.parent = some t → t.index < s.index

theorem Linked.alloc (hr : r.Linked) (ht : r.Treelike) (hs : s.index < r.scopes.size)
    (hfree : state.tag?.isSome = true → r.boundTag? s name = none) :
    (r.alloc s name state).2.Linked where
  bound_of_entry {id e} he htag := by
    rw [boundTag?_alloc hs hfree]
    rw [entry?_alloc] at he
    split at he
    next hid =>
      cases he
      have hid : (⟨r.size⟩ : TypeId) = id := congrArg TypeId.mk hid.symm
      rw [if_pos ⟨htag, rfl, rfl⟩, hid]
    next =>
      have hbound := hr.bound_of_entry he htag
      rw [if_neg ?_, hbound]
      rintro ⟨hnew, hscope, hname⟩
      rw [hscope, hname, hfree hnew] at hbound
      cases hbound
  entry_of_bound {t n id} h := by
    rw [boundTag?_alloc hs hfree] at h
    rw [entry?_alloc]
    split at h
    next hnew =>
      cases h
      rw [if_pos rfl]
      exact ⟨_, rfl, hnew.2.2.symm, hnew.2.1.symm, hnew.1⟩
    next =>
      obtain ⟨e, he, hrest⟩ := hr.entry_of_bound h
      rw [if_neg (Nat.ne_of_lt (entry?_lt he))]
      exact ⟨e, he, hrest⟩
  aggregate_of_body {id e} he hb := by
    rw [entry?_alloc] at he
    split at he
    · cases he
      obtain ⟨b, hb⟩ := Option.isSome_iff_exists.mp hb
      exact (newBody_eq_some.mp hb).1
    · exact hr.aggregate_of_body he hb
  scope_of_body {id e t sc} he hb hsc := by
    rw [entry?_alloc] at he
    split at he
    next hid =>
      cases he
      have hid : (⟨r.size⟩ : TypeId) = id := congrArg TypeId.mk hid.symm
      rcases place_alloc hsc with ⟨sc₀, h₀, -⟩ | ⟨-, -, hparent, howner⟩
      · have hlt := scope?_lt h₀
        have hnew := (newBody_eq_some.mp hb).2
        omega
      · exact ⟨hparent, howner.trans (congrArg some hid)⟩
    next =>
      rcases place_alloc hsc with ⟨sc₀, h₀, hparent, howner⟩ | ⟨-, hge, -⟩
      · rw [hparent, howner]
        exact hr.scope_of_body he hb h₀
      · have hlt := ht.body_lt he hb
        omega
  body_of_scope {t sc} hsc := by
    rcases place_alloc hsc with ⟨sc₀, h₀, hparent, howner⟩ | ⟨hnew, -, -, howner⟩
    · rw [hparent, howner]
      refine (hr.body_of_scope h₀).imp_right fun ⟨o, ho, hbody⟩ => ⟨o, ho, ?_⟩
      obtain ⟨e, he, -⟩ := Option.bind_eq_some_iff.mp hbody
      rw [body?_alloc, if_neg (Nat.ne_of_lt (entry?_lt he))]
      exact hbody
    · refine Or.inr ⟨⟨r.size⟩, howner, ?_⟩
      rw [body?_alloc, if_pos rfl]
      exact hnew
  parent_lt {t sc p} hsc hp := by
    rcases place_alloc hsc with ⟨sc₀, h₀, hparent, -⟩ | ⟨-, hge, hparent, -⟩
    · exact hr.parent_lt h₀ (hparent ▸ hp)
    · rw [hparent] at hp
      cases hp
      exact Nat.lt_of_lt_of_le hs hge

theorem Linked.fillsTo (hr : r.Linked) (h : r.FillsTo r') : r'.Linked := by
  have hold : ∀ {id e'}, r'.entry? id = some e' → ∃ e, r.entry? id = some e ∧ e.Becomes e' :=
    fun he' => h.becomes (h.size_eq ▸ entry?_lt he') he'
  constructor
  · intro id e' he' htag
    obtain ⟨e, he, hb⟩ := hold he'
    rw [h.boundTag?_eq, hb.scope, hb.name]
    exact hr.bound_of_entry he (hb.tag_isSome ▸ htag)
  · intro s n id hbound
    rw [h.boundTag?_eq] at hbound
    obtain ⟨e, he, hname, hs, htag⟩ := hr.entry_of_bound hbound
    obtain ⟨e', he', hb⟩ := h.entry he
    exact ⟨e', he', hb.name.trans hname, hb.scope.trans hs, hb.tag_isSome ▸ htag⟩
  · intro id e' he' hbody
    obtain ⟨e, he, hb⟩ := hold he'
    rw [hb.isAggregate]
    exact hr.aggregate_of_body he (hb.body ▸ hbody)
  · intro id e' s sc he' hbody hsc
    obtain ⟨e, he, hb⟩ := hold he'
    rw [h.scope?_eq] at hsc
    rw [hb.scope]
    exact hr.scope_of_body he (hb.body ▸ hbody) hsc
  · intro s sc hsc
    rw [h.scope?_eq] at hsc
    rw [h.body?_eq]
    exact hr.body_of_scope hsc
  · intro s sc t hsc hp
    rw [h.scope?_eq] at hsc
    exact hr.parent_lt hsc hp

theorem empty_linked : empty.Linked where
  bound_of_entry h := by rw [entry?_empty] at h; cases h
  entry_of_bound {s n id} h := by
    obtain ⟨sc, hsc, ht⟩ := Option.bind_eq_some_iff.mp h
    rw [scope?_empty hsc] at ht
    cases ht
  aggregate_of_body h := by rw [entry?_empty] at h; cases h
  scope_of_body h := by rw [entry?_empty] at h; cases h
  body_of_scope {s sc} h := by
    have hlt : s.index < 1 := scope?_lt h
    have hs : s = .global := congrArg ScopeId.mk (Nat.lt_one_iff.mp hlt)
    rw [scope?_empty h]
    exact Or.inl ⟨hs, rfl, rfl⟩
  parent_lt h hp := by rw [scope?_empty h] at hp; cases hp

theorem withPrelude_linked : withPrelude.Linked := by
  suffices h : withPrelude.WellFormed ∧ withPrelude.Linked from h.2
  refine prelude_induction (P := fun r => r.WellFormed ∧ r.Linked)
    ⟨empty_wellFormed, empty_linked⟩ fun r name kind ⟨hwf, hr⟩ => ⟨?_, ?_⟩
  · refine hwf.alloc hwf.global_lt name fun d hd j hj => ?_
    cases hd
    cases hj
  · exact hr.alloc hwf.toTreelike hwf.global_lt fun htag => by cases htag

theorem Built.linked (h : r.Built) : r.Linked := by
  induction h with
  | empty => exact empty_linked
  | prelude => exact withPrelude_linked
  | declare hb hs hd ih =>
    rcases declare_cases hd with ⟨-, -, rfl⟩ | ⟨hfree, -, rfl⟩
    · exact ih
    · exact ih.alloc hb.wellFormed.toTreelike hs fun _ => hfree
  | @define r r' s name d id hb hs hm hd ih =>
    have hg := growsTo_define hd
    rcases define_cases hd with ⟨-, rfl, -⟩ | ⟨hfree, -, rfl⟩
    · exact ih.fillsTo ⟨hg, size_setState .., rfl⟩
    · refine ih.alloc hb.wellFormed.toTreelike hs fun htag => ?_
      cases d with
      | typedef t => cases htag
      | _ => exact hfree

end Registry

end TypeLayout
