import TypeLayout.LayoutError
import TypeLayout.Registry.Entry
import TypeLayout.Text.Blank
/-! The registry of named types: entries in the order they were allocated, and the tree of scopes
that follows the nesting of declarations. Entries are never removed, so an id stays valid; a name
is bound at most once in each name space of a scope. -/

namespace TypeLayout

structure Registry where
  entries : Array Entry
  scopes : Array Scope

namespace Registry

def empty : Registry := ⟨#[], #[{ parent := none, owner := none }]⟩

instance : Inhabited Registry := ⟨empty⟩

def size (r : Registry) : Nat := r.entries.size

def entry? (r : Registry) (id : TypeId) : Option Entry := r.entries[id.index]?

def scope? (r : Registry) (s : ScopeId) : Option Scope := r.scopes[s.index]?

def definition? (r : Registry) (id : TypeId) : Option Definition :=
  r.entry? id >>= Entry.definition?

def tagOf? (r : Registry) (id : TypeId) : Option TagKind := r.entry? id >>= Entry.tag?

def body? (r : Registry) (id : TypeId) : Option ScopeId := r.entry? id >>= Entry.body

def boundTag? (r : Registry) (s : ScopeId) (name : String) : Option TypeId :=
  r.scope? s >>= (·.tag? name)

def boundTypedef? (r : Registry) (s : ScopeId) (name : String) : Option TypeId :=
  r.scope? s >>= (·.typedef? name)

def bound? (r : Registry) (s : ScopeId) (name : String) : Option TypeId :=
  r.scope? s >>= (·.get? name)

def owner? (r : Registry) (id : TypeId) : Option TypeId :=
  r.entry? id >>= fun e => r.scope? e.scope >>= Scope.owner

def namesOutward (r : Registry) : Nat → TypeId → List String
  | 0, _ => []
  | n + 1, id =>
    match r.entry? id with
    | none => []
    | some e =>
      e.name :: match r.owner? id with
        | some o => r.namesOutward n o
        | none => []

/-- `Outer::Inner`. An owner is older than what it owns, so no chain is longer than the registry. -/
def qualifiedName (r : Registry) (id : TypeId) : String :=
  Text.join "::" (r.namesOutward r.size id).reverse

def displayName (r : Registry) (id : TypeId) : String :=
  match r.tagOf? id with
  | some tag => tag.keyword ++ " " ++ r.qualifiedName id
  | none => r.qualifiedName id

def definition (r : Registry) (id : TypeId) : Except LayoutError Definition :=
  match r.definition? id with
  | some d => .ok d
  | none => .error (.incompleteType (r.displayName id) none)

/-- The name of a type before the array bounds `dims`, which follow the innermost element. -/
def typeNameWith (r : Registry) : Descriptor → String → String
  | .array element count, dims => r.typeNameWith element (dims ++ s!"[{count}]")
  | .pointer pointee, dims => r.typeNameWith pointee "" ++ "*" ++ dims
  | .fundamental kind, dims => kind.spelling ++ dims
  | .enum ⟨some name, _⟩, dims => "enum " ++ name ++ dims
  | .enum ⟨none, _⟩, dims => "enum (anonymous)" ++ dims
  | .aggregate body, dims => body.displayName ++ dims
  | .named id, dims => r.qualifiedName id ++ dims

def typeName (r : Registry) (d : Descriptor) : String := r.typeNameWith d ""

def stripFrom (r : Registry) : Nat → Descriptor → Descriptor
  | n + 1, .named id =>
    match r.definition? id with
    | some (.typedef target) => r.stripFrom n target
    | _ => .named id
  | _, d => d

/-- The type read through typedefs. A typedef is younger than what it names, so no chain is
longer than the registry. -/
def strip (r : Registry) (d : Descriptor) : Descriptor := r.stripFrom r.size d

def definedAggregates (r : Registry) : List TypeId :=
  (r.entries.toList.zipIdx.filter (·.1.isDefinedAggregate)).map fun p => ⟨p.2⟩

end Registry

end TypeLayout
