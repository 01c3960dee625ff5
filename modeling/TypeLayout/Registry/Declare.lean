import TypeLayout.Registry.Basic
/-! Declaring and defining names. A call that fails changes nothing; one that succeeds either
allocates an entry or completes a forward declaration in place. -/

namespace TypeLayout.Registry

def bind (r : Registry) (s : ScopeId) (name : String) (id : TypeId) (state : EntryState) :
    Array Scope :=
  r.scopes.modify s.index (·.bindAs state name id)

def alloc (r : Registry) (s : ScopeId) (name : String) (state : EntryState) : TypeId × Registry :=
  let id : TypeId := ⟨r.size⟩
  let scopes := r.bind s name id state
  if state.isAggregate then
    (id, { entries := r.entries.push ⟨name, s, state, some ⟨r.scopes.size⟩⟩
           scopes := scopes.push { parent := some s, owner := some id } })
  else
    (id, { entries := r.entries.push ⟨name, s, state, none⟩, scopes := scopes })

/-- Introduce a tag. Repeating a compatible declaration answers the entry that is there. -/
def declare (r : Registry) (s : ScopeId) (name : String) (tag : TagKind) :
    Except LayoutError (TypeId × Registry) :=
  match r.boundTag? s name with
  | some id =>
    if (r.tagOf? id).any (·.compatible tag) then .ok (id, r)
    else .error (.duplicateDefinition (r.qualifiedName id))
  | none => .ok (r.alloc s name (.forward tag))

def rival? (r : Registry) (s : ScopeId) (name : String) : Definition → Option TypeId
  | .typedef _ => r.boundTypedef? s name
  | _ => r.boundTag? s name

/-- A forward declaration is completed by a definition with a compatible tag. -/
def completes (r : Registry) (id : TypeId) (d : Definition) : Bool :=
  match (r.entry? id).map Entry.state, d.tag? with
  | some (.forward tag), some other => tag.compatible other
  | _, _ => false

def setState (r : Registry) (id : TypeId) (state : EntryState) : Registry :=
  { r with entries := r.entries.modify id.index fun e => { e with state := state } }

def define (r : Registry) (s : ScopeId) (name : String) (d : Definition) :
    Except LayoutError (TypeId × Registry) :=
  match r.rival? s name d with
  | some id =>
    if r.completes id d then .ok (id, r.setState id (.defined d))
    else .error (.duplicateDefinition (r.qualifiedName id))
  | none => .ok (r.alloc s name (.defined d))

end TypeLayout.Registry
