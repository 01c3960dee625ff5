import TypeLayout.Proofs.Registry.Catalogue
import TypeLayout.Proofs.Stateful
/-! The registry as a state. A declaration and a definition write to the registry they are called on,
an allocation one field after the other; what they answer and leave is what is answered with the
registry handed on, and one that is refused has written nothing. -/

namespace TypeLayout

/-- A failed step keeps what it wrote. -/
abbrev RegistryM := ExceptT LayoutError (StateM Registry)

namespace RegistryM

open Registry (Step)

variable {r r' : Registry} {s : ScopeId} {name : String} {id : TypeId} {e : LayoutError}

def openScope (parent : ScopeId) (owner : TypeId) : RegistryM ScopeId := do
  let r ← get
  set { r with scopes := r.scopes.push { parent := some parent, owner := some owner } }
  pure ⟨r.scopes.size⟩

def enroll (e : Entry) : RegistryM Unit := modify fun r => { r with entries := r.entries.push e }

def bindName (s : ScopeId) (name : String) (id : TypeId) (state : EntryState) : RegistryM Unit :=
  modify fun r => { r with scopes := r.bind s name id state }

def alloc (s : ScopeId) (name : String) (state : EntryState) : RegistryM TypeId := do
  let id : TypeId := ⟨(← get).size⟩
  let body ← if state.isAggregate then some <$> openScope s id else pure none
  enroll ⟨name, s, state, body⟩
  bindName s name id state
  pure id

def declare (s : ScopeId) (name : String) (tag : TagKind) : RegistryM TypeId := do
  let r ← get
  match r.boundTag? s name with
  | some id =>
    if (r.tagOf? id).any (·.compatible tag) then pure id
    else throw (.duplicateDefinition (r.qualifiedName id))
  | none => alloc s name (.forward tag)

def define (s : ScopeId) (name : String) (d : Definition) : RegistryM TypeId := do
  let r ← get
  match r.rival? s name d with
  | some id =>
    if r.completes id d then
      modify (·.setState id (.defined d))
      pure id
    else throw (.duplicateDefinition (r.qualifiedName id))
  | none => alloc s name (.defined d)

def act : Step → RegistryM TypeId
  | .declare s name tag => declare s name tag
  | .define s name d => define s name d

theorem run_alloc (hs : s.index < r.scopes.size) (name : String) (state : EntryState) :
    (alloc s name state).run r = (.ok (r.alloc s name state).1, (r.alloc s name state).2) := by
  have hbind : ∀ sc, (r.scopes.push sc).modify s.index (·.bindAs state name ⟨r.size⟩) =
      (r.bind s name ⟨r.size⟩ state).push sc := by
    intro sc
    refine Array.ext (by simp [Registry.bind]) fun i _ _ => ?_
    simp only [Registry.bind, Array.getElem_modify, Array.getElem_push, Array.size_modify]
    grind
  unfold alloc Registry.alloc
  dsimp only
  cases state.isAggregate with
  | true =>
    rw [if_pos rfl, ← hbind]
    rfl
  | false => rfl

theorem run_declare (hs : s.index < r.scopes.size) (name : String) (tag : TagKind) :
    (declare s name tag).run r = r.perform (.declare s name tag) := by
  have hget : (get : RegistryM Registry).run r = (.ok r, r) := rfl
  unfold declare
  rw [run_bind_ok hget, Registry.perform, Registry.declare]
  cases r.boundTag? s name with
  | none => exact run_alloc hs name (.forward tag)
  | some id =>
    dsimp only
    split <;> rfl

theorem run_define (hs : s.index < r.scopes.size) (name : String) (d : Definition) :
    (define s name d).run r = r.perform (.define s name d) := by
  have hget : (get : RegistryM Registry).run r = (.ok r, r) := rfl
  unfold define
  rw [run_bind_ok hget, Registry.perform, Registry.define]
  cases r.rival? s name d with
  | none => exact run_alloc hs name (.defined d)
  | some id =>
    dsimp only
    split <;> rfl

theorem run_act {step : Step} (hs : step.scope.index < r.scopes.size) :
    (act step).run r = r.perform step := by
  cases step with
  | declare s name tag => exact run_declare hs name tag
  | define s name d => exact run_define hs name d

/-- A step that is refused is refused before it writes. -/
theorem act_error {step : Step} (h : (act step).run r = (.error e, r')) : r' = r := by
  have halloc : ∀ {s name state}, (alloc s name state).run r ≠ (.error e, r') := by
    intro s name state
    unfold alloc
    split <;> exact nofun
  have hget : (get : RegistryM Registry).run r = (.ok r, r) := rfl
  cases step with
  | declare s name tag =>
    unfold act declare at h
    rw [run_bind_ok hget] at h
    cases hb : r.boundTag? s name with
    | none =>
      rw [hb] at h
      exact absurd h halloc
    | some id =>
      rw [hb] at h
      dsimp only at h
      split at h <;> cases h
      rfl
  | define s name d =>
    unfold act define at h
    rw [run_bind_ok hget] at h
    cases hb : r.rival? s name d with
    | none =>
      rw [hb] at h
      exact absurd h halloc
    | some id =>
      rw [hb] at h
      dsimp only at h
      split at h <;> cases h
      rfl

end RegistryM

end TypeLayout
