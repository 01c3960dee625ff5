import TypeLayout.Proofs.Registry.Allocation
import TypeLayout.Proofs.Registry.Mentions
import TypeLayout.Registry.Prelude
/-! Registries that declarations and definitions build. Ids and scopes point into the registry, the
owner of an entry is older than the entry, and a typedef mentions older entries only, which is why
following typedefs comes to an end. -/

namespace TypeLayout

namespace Registry

/-- Entries lie in scopes of the registry, and aggregates have a scope of their own. -/
structure Treelike (r : Registry) : Prop where
  scope_lt : ∀ {id e}, r.entry? id = some e → e.scope.index < r.scopes.size
  body_lt : ∀ {id e s}, r.entry? id = some e → e.body = some s → s.index < r.scopes.size
  body_isSome : ∀ {id e}, r.entry? id = some e → e.isAggregate = true → e.body.isSome = true
  owner_lt : ∀ {id e sc o}, r.entry? id = some e → r.scope? e.scope = some sc →
    sc.owner = some o → o.index < id.index
  scopeOwner_lt : ∀ {s sc o}, r.scope? s = some sc → sc.owner = some o → o.index < r.size

/-- Names are bound to entries of the registry. -/
structure Binding (r : Registry) : Prop where
  tag_lt : ∀ {s sc p}, r.scope? s = some sc → p ∈ sc.tags → p.2.index < r.size
  typedef_lt : ∀ {s sc p}, r.scope? s = some sc → p ∈ sc.typedefs → p.2.index < r.size

/-- Definitions mention entries of the registry, and typedefs older ones. -/
structure Founded (r : Registry) : Prop where
  mention_lt : ∀ {id d j}, r.definition? id = some d → j ∈ d.mentions → j.index < r.size
  typedef_mention_lt : ∀ {id t j}, r.definition? id = some (.typedef t) → j ∈ t.mentions →
    j.index < id.index

structure WellFormed (r : Registry) : Prop extends Treelike r, Binding r, Founded r where
  global_lt : ScopeId.global.index < r.scopes.size

variable {r : Registry} {s : ScopeId} {state : EntryState}

theorem entry?_empty (id : TypeId) : empty.entry? id = none := by simp [empty, entry?]

theorem scope?_empty {sc : Scope} (h : empty.scope? s = some sc) :
    sc = { parent := none, owner := none } := by
  simp only [empty, scope?, Array.getElem?_eq_some_iff] at h
  obtain ⟨hlt, h⟩ := h
  simpa using h.symm

theorem empty_wellFormed : empty.WellFormed where
  scope_lt h := by rw [entry?_empty] at h; cases h
  body_lt h := by rw [entry?_empty] at h; cases h
  body_isSome h := by rw [entry?_empty] at h; cases h
  owner_lt h := by rw [entry?_empty] at h; cases h
  scopeOwner_lt h ho := by rw [scope?_empty h] at ho; cases ho
  tag_lt h hp := by rw [scope?_empty h] at hp; cases hp
  typedef_lt h hp := by rw [scope?_empty h] at hp; cases hp
  mention_lt h := by rw [definition?, entry?_empty] at h; cases h
  typedef_mention_lt h := by rw [definition?, entry?_empty] at h; cases h
  global_lt := by decide

theorem newBody_lt {t : ScopeId} (s : ScopeId) (name : String) (h : r.newBody state = some t) :
    t.index < (r.alloc s name state).2.scopes.size := by
  unfold newBody at h
  split at h
  next ha =>
    obtain rfl := Option.some.inj h
    rw [scopes_alloc, if_pos ha]
    simp [bind]
  next => cases h

theorem scope?_alloc_cases {name : String} {t : ScopeId} {sc : Scope}
    (h : (r.alloc s name state).2.scope? t = some sc) :
    (∃ sc₀, r.scope? t = some sc₀ ∧ (sc = sc₀ ∨ sc = sc₀.bindAs state name ⟨r.size⟩)) ∨
    (r.scopes.size ≤ t.index ∧ sc = { parent := some s, owner := some ⟨r.size⟩ }) := by
  by_cases ht : t.index < r.scopes.size
  · rw [scope?_alloc_of_lt r s name state ht] at h
    obtain ⟨sc₀, h₀, h⟩ := Option.map_eq_some_iff.mp h
    refine Or.inl ⟨sc₀, h₀, ?_⟩
    split at h
    · exact Or.inr h.symm
    · exact Or.inl h.symm
  · have ht : r.scopes.size ≤ t.index := Nat.le_of_not_lt ht
    exact Or.inr ⟨ht, (scope?_alloc_of_ge r s name state ht h).2.2⟩

theorem owner_alloc_cases {name : String} {t : ScopeId} {sc : Scope} {o : TypeId}
    (h : (r.alloc s name state).2.scope? t = some sc) (ho : sc.owner = some o) :
    (∃ sc₀, r.scope? t = some sc₀ ∧ sc₀.owner = some o) ∨
    (r.scopes.size ≤ t.index ∧ o = ⟨r.size⟩) := by
  rcases scope?_alloc_cases h with ⟨sc₀, h₀, rfl | rfl⟩ | ⟨ht, rfl⟩
  · exact Or.inl ⟨sc, h₀, ho⟩
  · exact Or.inl ⟨sc₀, h₀, by simpa using ho⟩
  · exact Or.inr ⟨ht, (Option.some.inj ho).symm⟩

theorem Treelike.alloc (hr : r.Treelike) (hs : s.index < r.scopes.size) (name : String)
    (state : EntryState) : (r.alloc s name state).2.Treelike where
  scope_lt {id e} h := by
    refine Nat.lt_of_lt_of_le ?_ (r.scopes_size_le_alloc s name state)
    rw [entry?_alloc] at h
    split at h
    · cases h
      exact hs
    · exact hr.scope_lt h
  body_lt {id e t} h ht := by
    rw [entry?_alloc] at h
    split at h
    · cases h
      exact newBody_lt s name ht
    · exact Nat.lt_of_lt_of_le (hr.body_lt h ht) (r.scopes_size_le_alloc s name state)
  body_isSome {id e} h ha := by
    rw [entry?_alloc] at h
    split at h
    · cases h
      have ha : state.isAggregate = true := ha
      simp [newBody, ha]
    · exact hr.body_isSome h ha
  owner_lt {id e sc o} h hsc ho := by
    rw [entry?_alloc] at h
    split at h
    next hid =>
      cases h
      rcases owner_alloc_cases hsc ho with ⟨sc₀, h₀, ho⟩ | ⟨ht, -⟩
      · have hlt := hr.scopeOwner_lt h₀ ho
        omega
      · dsimp only at ht
        omega
    next =>
      have he := hr.scope_lt h
      rcases owner_alloc_cases hsc ho with ⟨sc₀, h₀, ho⟩ | ⟨ht, -⟩
      · exact hr.owner_lt h h₀ ho
      · omega
  scopeOwner_lt {t sc o} hsc ho := by
    rw [size_alloc]
    rcases owner_alloc_cases hsc ho with ⟨sc₀, h₀, ho⟩ | ⟨-, rfl⟩
    · exact Nat.lt_succ_of_lt (hr.scopeOwner_lt h₀ ho)
    · exact Nat.lt_succ_self _

theorem Binding.alloc (hr : r.Binding) (s : ScopeId) (name : String) (state : EntryState) :
    (r.alloc s name state).2.Binding where
  tag_lt {t sc p} hsc hp := by
    rw [size_alloc]
    rcases scope?_alloc_cases hsc with ⟨sc₀, h₀, rfl | rfl⟩ | ⟨-, rfl⟩
    · exact Nat.lt_succ_of_lt (hr.tag_lt h₀ hp)
    · rw [Scope.tags_bindAs, List.mem_append] at hp
      rcases hp with hp | hp
      · exact Nat.lt_succ_of_lt (hr.tag_lt h₀ hp)
      · split at hp
        · rw [List.mem_singleton.mp hp]
          exact Nat.lt_succ_self _
        · cases hp
    · cases hp
  typedef_lt {t sc p} hsc hp := by
    rw [size_alloc]
    rcases scope?_alloc_cases hsc with ⟨sc₀, h₀, rfl | rfl⟩ | ⟨-, rfl⟩
    · exact Nat.lt_succ_of_lt (hr.typedef_lt h₀ hp)
    · rw [Scope.typedefs_bindAs, List.mem_append] at hp
      rcases hp with hp | hp
      · exact Nat.lt_succ_of_lt (hr.typedef_lt h₀ hp)
      · split at hp
        · cases hp
        · rw [List.mem_singleton.mp hp]
          exact Nat.lt_succ_self _
    · cases hp

theorem Founded.alloc (hr : r.Founded) (s : ScopeId) (name : String)
    (hm : ∀ d, state.definition? = some d → ∀ j ∈ d.mentions, j.index < r.size) :
    (r.alloc s name state).2.Founded where
  mention_lt {id d j} h hj := by
    rw [size_alloc]
    rw [definition?_alloc] at h
    split at h
    · exact Nat.lt_succ_of_lt (hm d h j hj)
    · exact Nat.lt_succ_of_lt (hr.mention_lt h hj)
  typedef_mention_lt {id t j} h hj := by
    rw [definition?_alloc] at h
    split at h
    next hid =>
      rw [hid]
      exact hm _ h j hj
    next => exact hr.typedef_mention_lt h hj

theorem WellFormed.alloc (hr : r.WellFormed) (hs : s.index < r.scopes.size) (name : String)
    (hm : ∀ d, state.definition? = some d → ∀ j ∈ d.mentions, j.index < r.size) :
    (r.alloc s name state).2.WellFormed where
  toTreelike := hr.toTreelike.alloc hs name state
  toBinding := hr.toBinding.alloc s name state
  toFounded := hr.toFounded.alloc s name hm
  global_lt := Nat.lt_of_lt_of_le hr.global_lt (r.scopes_size_le_alloc s name state)

theorem definition?_setState (id j : TypeId) (d : Definition) :
    (r.setState id (.defined d)).definition? j =
      if id.index = j.index then (r.entry? j).map fun _ => d else r.definition? j := by
  unfold definition?
  rw [entry?_setState]
  cases r.entry? j with
  | none => simp
  | some e => split <;> rfl

theorem Treelike.setState (hr : r.Treelike) {id : TypeId} {e : Entry} (he : r.entry? id = some e)
    {d : Definition} (ha : (EntryState.defined d).isAggregate = e.isAggregate) :
    (r.setState id (.defined d)).Treelike := by
  have hold : ∀ {j e'}, entry? (r.setState id (.defined d)) j = some e' →
      ∃ e₀, r.entry? j = some e₀ ∧ e'.scope = e₀.scope ∧ e'.body = e₀.body ∧
        e'.isAggregate = e₀.isAggregate := by
    intro j e' h
    rw [entry?_setState] at h
    obtain ⟨e₀, h₀, rfl⟩ := Option.map_eq_some_iff.mp h
    split
    next hj =>
      have hj : id = j := by cases id; cases j; simpa using hj
      subst hj
      rw [he] at h₀
      cases h₀
      exact ⟨e, he, rfl, rfl, ha⟩
    next => exact ⟨e₀, h₀, rfl, rfl, rfl⟩
  constructor
  · intro j e' h
    obtain ⟨e₀, h₀, hs, -, -⟩ := hold h
    rw [hs]
    exact hr.scope_lt h₀
  · intro j e' s h hb
    obtain ⟨e₀, h₀, -, hb₀, -⟩ := hold h
    exact hr.body_lt h₀ (hb₀ ▸ hb)
  · intro j e' h ha'
    obtain ⟨e₀, h₀, -, hb₀, ha₀⟩ := hold h
    rw [hb₀]
    exact hr.body_isSome h₀ (ha₀ ▸ ha')
  · intro j e' sc o h hsc ho
    obtain ⟨e₀, h₀, hs, -, -⟩ := hold h
    rw [hs] at hsc
    exact hr.owner_lt h₀ hsc ho
  · intro t sc o hsc ho
    rw [size_setState]
    exact hr.scopeOwner_lt hsc ho

theorem Founded.setState (hr : r.Founded) (id : TypeId) {d : Definition}
    (ht : d.tag?.isSome = true) (hm : ∀ j ∈ d.mentions, j.index < r.size) :
    (r.setState id (.defined d)).Founded where
  mention_lt {j d' k} h hk := by
    rw [size_setState]
    rw [definition?_setState] at h
    split at h
    · obtain ⟨-, -, rfl⟩ := Option.map_eq_some_iff.mp h
      exact hm k hk
    · exact hr.mention_lt h hk
  typedef_mention_lt {j t k} h hk := by
    rw [definition?_setState] at h
    split at h
    · obtain ⟨-, -, rfl⟩ := Option.map_eq_some_iff.mp h
      cases ht
    · exact hr.typedef_mention_lt h hk

theorem WellFormed.setState (hr : r.WellFormed) {id : TypeId} {e : Entry} {tag other : TagKind}
    {d : Definition} (he : r.entry? id = some e) (hs : e.state = .forward tag)
    (ht : d.tag? = some other) (hc : tag.compatible other = true)
    (hm : ∀ j ∈ d.mentions, j.index < r.size) : (r.setState id (.defined d)).WellFormed where
  toTreelike := by
    refine hr.toTreelike.setState he ?_
    simp only [EntryState.isAggregate, EntryState.tag?, ht, Entry.isAggregate, hs, Option.any_some]
    exact (TagKind.isAggregate_eq_of_compatible hc).symm
  toBinding := by
    constructor
    · intro s sc p h hp
      rw [size_setState]
      exact hr.tag_lt h hp
    · intro s sc p h hp
      rw [size_setState]
      exact hr.typedef_lt h hp
  toFounded := hr.toFounded.setState id (by simp [ht]) hm
  global_lt := hr.global_lt

theorem WellFormed.declare (hr : r.WellFormed) (hs : s.index < r.scopes.size) {name : String}
    {tag : TagKind} {id : TypeId} {r' : Registry} (h : r.declare s name tag = .ok (id, r')) :
    r'.WellFormed := by
  rcases declare_cases h with ⟨-, -, rfl⟩ | ⟨-, -, rfl⟩
  · exact hr
  · refine hr.alloc hs name ?_
    intro d hd
    cases hd

theorem WellFormed.define (hr : r.WellFormed) (hs : s.index < r.scopes.size) {name : String}
    {d : Definition} (hm : ∀ j ∈ d.mentions, j.index < r.size) {id : TypeId} {r' : Registry}
    (h : r.define s name d = .ok (id, r')) : r'.WellFormed := by
  rcases define_cases h with ⟨-, rfl, e, tag, other, he, hst, ht, hc⟩ | ⟨-, -, rfl⟩
  · exact hr.setState he hst ht hc hm
  · refine hr.alloc hs name ?_
    intro d' hd
    cases hd
    exact hm

theorem prelude_induction {P : Registry → Prop} (hempty : P .empty)
    (halloc : ∀ r name kind, P r →
      P (r.alloc .global name (.defined (.typedef (.fundamental kind)))).2) : P .withPrelude := by
  unfold withPrelude
  generalize builtinTypedefs = ts
  suffices h : ∀ r, P r → P (ts.foldl (fun r t =>
      (r.alloc .global t.1 (.defined (.typedef (.fundamental t.2)))).2) r) from h _ hempty
  induction ts with
  | nil => exact fun r hr => hr
  | cons t ts ih => exact fun r hr => ih _ (halloc r t.1 t.2 hr)

theorem withPrelude_wellFormed : withPrelude.WellFormed := by
  refine prelude_induction empty_wellFormed fun r name kind hr => ?_
  refine hr.alloc hr.global_lt name fun d hd j hj => ?_
  cases hd
  cases hj

/-- A registry that calls of `declare` and `define` build, in scopes it has, with definitions that
mention ids it has answered. -/
inductive Built : Registry → Prop
  | empty : Built .empty
  | prelude : Built .withPrelude
  | declare {r r' : Registry} {s : ScopeId} {name : String} {tag : TagKind} {id : TypeId} :
    Built r → s.index < r.scopes.size → r.declare s name tag = .ok (id, r') → Built r'
  | define {r r' : Registry} {s : ScopeId} {name : String} {d : Definition} {id : TypeId} :
    Built r → s.index < r.scopes.size → (∀ j ∈ d.mentions, j.index < r.size) →
    r.define s name d = .ok (id, r') → Built r'

theorem Built.wellFormed (h : r.Built) : r.WellFormed := by
  induction h with
  | empty => exact empty_wellFormed
  | prelude => exact withPrelude_wellFormed
  | declare _ hs hd ih => exact ih.declare hs hd
  | define _ hs hm hd ih => exact ih.define hs hm hd

end Registry

end TypeLayout
