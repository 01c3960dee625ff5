import TypeLayout.Registry.Declare
/-! What allocating an entry and completing a declaration leave behind, entry by entry and scope by
scope, and the cases of `declare` and `define`. -/

namespace TypeLayout

namespace Scope

variable (s : Scope) (state : EntryState) (name : String) (id : TypeId)

@[simp] theorem parent_bindAs : (s.bindAs state name id).parent = s.parent := by
  unfold bindAs
  split <;> rfl

@[simp] theorem owner_bindAs : (s.bindAs state name id).owner = s.owner := by
  unfold bindAs
  split <;> rfl

theorem tags_bindAs : (s.bindAs state name id).tags =
    s.tags ++ if state.tag?.isSome then [(name, id)] else [] := by
  cases state with
  | forward tag => rfl
  | defined d => cases d <;> simp [bindAs, bindTag, bindTypedef, EntryState.tag?, Definition.tag?]

theorem typedefs_bindAs : (s.bindAs state name id).typedefs =
    s.typedefs ++ if state.tag?.isSome then [] else [(name, id)] := by
  cases state with
  | forward tag => simp [bindAs, bindTag, EntryState.tag?]
  | defined d => cases d <;> simp [bindAs, bindTag, bindTypedef, EntryState.tag?, Definition.tag?]

end Scope

namespace Registry

variable (r : Registry) (s : ScopeId) (name : String) (state : EntryState)

def newBody : Option ScopeId := if state.isAggregate then some ⟨r.scopes.size⟩ else none

theorem alloc_fst : (r.alloc s name state).1 = ⟨r.size⟩ := by
  unfold alloc
  dsimp only
  split <;> rfl

theorem entries_alloc :
    (r.alloc s name state).2.entries = r.entries.push ⟨name, s, state, r.newBody state⟩ := by
  unfold alloc newBody
  dsimp only
  split <;> rfl

@[simp] theorem size_alloc : (r.alloc s name state).2.size = r.size + 1 := by
  simp [size, entries_alloc]

theorem entry?_alloc (id : TypeId) : entry? (r.alloc s name state).2 id =
    if id.index = r.size then some ⟨name, s, state, r.newBody state⟩ else r.entry? id := by
  simp only [entries_alloc, size, entry?]
  exact Array.getElem?_push

theorem definition?_alloc (id : TypeId) : (r.alloc s name state).2.definition? id =
    if id.index = r.size then state.definition? else r.definition? id := by
  unfold definition?
  rw [entry?_alloc]
  split <;> rfl

theorem scopes_alloc : (r.alloc s name state).2.scopes =
    if state.isAggregate then
      (r.bind s name ⟨r.size⟩ state).push { parent := some s, owner := some ⟨r.size⟩ }
    else r.bind s name ⟨r.size⟩ state := by
  unfold alloc
  dsimp only
  split <;> rfl

theorem scope?_bind (id : TypeId) (t : ScopeId) : (r.bind s name id state)[t.index]? =
    (r.scope? t).map fun sc => if s.index = t.index then sc.bindAs state name id else sc := by
  unfold bind scope?
  rw [Array.getElem?_modify]
  split <;> simp

theorem scopes_size_le_alloc : r.scopes.size ≤ (r.alloc s name state).2.scopes.size := by
  rw [scopes_alloc]
  split <;> simp [bind]

theorem scope?_alloc_of_lt {t : ScopeId} (ht : t.index < r.scopes.size) :
    (r.alloc s name state).2.scope? t =
      (r.scope? t).map fun sc =>
        if s.index = t.index then sc.bindAs state name ⟨r.size⟩ else sc := by
  have hb : t.index < (r.bind s name ⟨r.size⟩ state).size := by simpa [bind] using ht
  rw [scope?, scopes_alloc]
  split
  · rw [Array.getElem?_push_lt hb, ← Array.getElem?_eq_getElem hb, scope?_bind]
  · rw [scope?_bind]

theorem scope?_alloc_of_ge {t : ScopeId} {sc : Scope} (ht : r.scopes.size ≤ t.index)
    (h : (r.alloc s name state).2.scope? t = some sc) :
    state.isAggregate = true ∧ t.index = r.scopes.size ∧
      sc = { parent := some s, owner := some ⟨r.size⟩ } := by
  have hb : (r.bind s name ⟨r.size⟩ state).size = r.scopes.size := by simp [bind]
  rw [scope?, scopes_alloc] at h
  split at h
  · rw [Array.getElem?_push, hb] at h
    split at h
    · exact ⟨‹_›, ‹_›, (Option.some.inj h).symm⟩
    · rw [Array.getElem?_eq_none (by omega)] at h
      cases h
  · rw [Array.getElem?_eq_none (by omega)] at h
    cases h

theorem entry?_setState (id j : TypeId) : entry? (r.setState id state) j =
    (r.entry? j).map fun e => if id.index = j.index then { e with state := state } else e := by
  simp only [setState, entry?]
  rw [Array.getElem?_modify]
  split <;> simp

@[simp] theorem size_setState (id : TypeId) : (r.setState id state).size = r.size := by
  simp [size, setState]

@[simp] theorem scope?_setState (id : TypeId) (t : ScopeId) :
    (r.setState id state).scope? t = r.scope? t := rfl

variable {r s name state}

theorem entry?_of_lt {id : TypeId} (h : id.index < r.size) : ∃ e, r.entry? id = some e :=
  ⟨_, Array.getElem?_eq_getElem h⟩

theorem entry?_of_ge {id : TypeId} (h : r.size ≤ id.index) : r.entry? id = none :=
  Array.getElem?_eq_none h

theorem scope?_of_lt {t : ScopeId} (h : t.index < r.scopes.size) : ∃ sc, r.scope? t = some sc :=
  ⟨_, Array.getElem?_eq_getElem h⟩

theorem scope?_of_ge {t : ScopeId} (h : r.scopes.size ≤ t.index) : r.scope? t = none :=
  Array.getElem?_eq_none h

theorem entry?_lt {id : TypeId} {e : Entry} (h : r.entry? id = some e) : id.index < r.size :=
  (Array.getElem?_eq_some_iff.mp h).1

theorem scope?_lt {t : ScopeId} {sc : Scope} (h : r.scope? t = some sc) :
    t.index < r.scopes.size :=
  (Array.getElem?_eq_some_iff.mp h).1

theorem definition?_eq_some {id : TypeId} {d : Definition} (h : r.definition? id = some d) :
    ∃ e, r.entry? id = some e ∧ e.state = .defined d := by
  obtain ⟨e, he, hd⟩ := Option.bind_eq_some_iff.mp h
  refine ⟨e, he, ?_⟩
  unfold Entry.definition? EntryState.definition? at hd
  split at hd
  · cases hd
  · rw [‹e.state = _›, Option.some.inj hd]

theorem tagOf?_of_definition? {id : TypeId} {d : Definition} (h : r.definition? id = some d) :
    r.tagOf? id = d.tag? := by
  obtain ⟨e, he, hs⟩ := definition?_eq_some h
  simp only [tagOf?, he, Option.bind_eq_bind, Option.bind_some, Entry.tag?, hs, EntryState.tag?]

theorem definition?_lt {id : TypeId} {d : Definition} (h : r.definition? id = some d) :
    id.index < r.size := by
  obtain ⟨e, he, -⟩ := definition?_eq_some h
  exact entry?_lt he

theorem declare_cases {tag : TagKind} {id : TypeId} {r' : Registry}
    (h : r.declare s name tag = .ok (id, r')) :
    (r.boundTag? s name = some id ∧ (∃ t, r.tagOf? id = some t ∧ t.compatible tag = true) ∧
      r' = r) ∨
    (r.boundTag? s name = none ∧ id = ⟨r.size⟩ ∧ r' = (r.alloc s name (.forward tag)).2) := by
  unfold declare at h
  split at h
  next i hi =>
    split at h
    next hc =>
      cases h
      obtain ⟨t, ht, hc⟩ := (Option.any_eq_true _ _).mp hc
      exact Or.inl ⟨hi, ⟨t, ht, hc⟩, rfl⟩
    next => cases h
  next hi =>
    have he := Except.ok.inj h
    exact Or.inr ⟨hi, by rw [← alloc_fst r s name (.forward tag), he], by rw [he]⟩

theorem define_cases {d : Definition} {id : TypeId} {r' : Registry}
    (h : r.define s name d = .ok (id, r')) :
    (r.rival? s name d = some id ∧ r' = r.setState id (.defined d) ∧
      ∃ e tag other, r.entry? id = some e ∧ e.state = .forward tag ∧ d.tag? = some other ∧
        tag.compatible other = true) ∨
    (r.rival? s name d = none ∧ id = ⟨r.size⟩ ∧ r' = (r.alloc s name (.defined d)).2) := by
  unfold define at h
  split at h
  next i hi =>
    split at h
    next hc =>
      cases h
      unfold completes at hc
      split at hc
      next tag other hs ht =>
        obtain ⟨e, he, hs⟩ := Option.map_eq_some_iff.mp hs
        exact Or.inl ⟨hi, rfl, e, tag, other, he, hs, ht, hc⟩
      next => cases hc
    next => cases h
  next hi =>
    have he := Except.ok.inj h
    exact Or.inr ⟨hi, by rw [← alloc_fst r s name (.defined d), he], by rw [he]⟩

theorem define_lt {d : Definition} {id : TypeId} {r' : Registry}
    (h : r.define s name d = .ok (id, r')) : id.index < r'.size := by
  rcases define_cases h with ⟨-, rfl, e, -, -, he, -⟩ | ⟨-, rfl, rfl⟩
  · rw [size_setState]
    exact entry?_lt he
  · rw [size_alloc]
    exact Nat.lt_succ_self _

end Registry

end TypeLayout
