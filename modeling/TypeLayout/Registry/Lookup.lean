import TypeLayout.Registry.Basic
import TypeLayout.Registry.Path
/-! Finding entries by name. A plain name is looked for from a scope outward; what follows a pair
of colons is looked for in the body of what precedes it. -/

namespace TypeLayout.Registry

def scopesOutward (r : Registry) : Nat → ScopeId → List ScopeId
  | 0, _ => []
  | n + 1, s =>
    s :: match r.scope? s >>= Scope.parent with
      | some p => r.scopesOutward n p
      | none => []

/-- A scope is younger than the scope around it, so no chain is longer than the tree. -/
def enclosing (r : Registry) (s : ScopeId) : List ScopeId := r.scopesOutward r.scopes.size s

def startScopes (r : Registry) (s : ScopeId) (anchored : Bool) : List ScopeId :=
  if anchored then [.global] else r.enclosing s

def findWithin (r : Registry) : TypeId → List String → Option TypeId
  | id, [] => some id
  | id, part :: parts =>
    match r.body? id >>= (r.bound? · part) with
    | some inner => r.findWithin inner parts
    | none => none

def findPath? (r : Registry) (s : ScopeId) (path : Path) : Option TypeId :=
  match path.parts with
  | [] => none
  | first :: rest =>
    if first.isEmpty then none
    else (r.startScopes s path.anchored).findSome? (r.bound? · first) >>= (r.findWithin · rest)

def unknown (name : String) : LayoutError := .unknownType (Text.trim name)

def find (r : Registry) (s : ScopeId) (name : String) : Except LayoutError TypeId :=
  match r.findPath? s (.ofString name) with
  | some id => .ok id
  | none => .error (unknown name)

/-- As `findPath?`, but the last part has to be a tag, as after `struct`. The outer parts are read
as a path of their own, so empty ones in front of them fall away. -/
def findTagPath? (r : Registry) (s : ScopeId) (path : Path) : Option TypeId :=
  match path.parts.getLast? with
  | none => none
  | some last =>
    match path.parts.dropLast with
    | [] => (r.startScopes s path.anchored).findSome? (r.boundTag? · last)
    | outer =>
      r.findPath? s (.ofString (Path.text ⟨path.anchored, outer⟩)) >>= r.body? >>=
        (r.boundTag? · last)

def findTag (r : Registry) (s : ScopeId) (name : String) : Except LayoutError TypeId :=
  match r.findTagPath? s (.ofString name) with
  | some id => .ok id
  | none => .error (unknown name)

def lookup (r : Registry) (s : ScopeId) (name : String) : Except LayoutError TypeId := do
  let id ← r.find s name
  let _ ← r.definition id
  pure id

end TypeLayout.Registry
