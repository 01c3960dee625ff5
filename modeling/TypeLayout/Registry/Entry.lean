import TypeLayout.Descriptor
/-! What the registry holds: entries, which are forward declared or defined, and scopes, in which
tags and typedef names are two name spaces. -/

namespace TypeLayout

structure ScopeId where
  index : Nat
deriving DecidableEq, Repr

instance : ToString ScopeId := ⟨fun s => "scope#" ++ toString s.index⟩

def ScopeId.global : ScopeId := ⟨0⟩

inductive TagKind
  | aggregate (kind : AggregateKind)
  | enum
deriving DecidableEq, Repr

namespace TagKind

def keyword : TagKind → String
  | aggregate kind => kind.keyword
  | enum => "enum"

def isAggregate : TagKind → Bool
  | aggregate _ => true
  | enum => false

/-- `struct` and `class` name the same kind of entity. -/
def compatible : TagKind → TagKind → Bool
  | aggregate a, aggregate b => a.isUnion == b.isUnion
  | enum, enum => true
  | _, _ => false

theorem compatible_comm (a b : TagKind) : a.compatible b = b.compatible a := by
  rcases a with (_ | _ | _) | _ <;> rcases b with (_ | _ | _) | _ <;> rfl

theorem isAggregate_eq_of_compatible {a b : TagKind} (h : a.compatible b = true) :
    a.isAggregate = b.isAggregate := by
  cases a <;> cases b <;> simp_all [compatible, isAggregate]

end TagKind

inductive Definition
  | aggregate (body : Aggregate)
  | enum (type : EnumType)
  | typedef (target : Descriptor)

namespace Definition

def tag? : Definition → Option TagKind
  | aggregate body => some (.aggregate body.kind)
  | enum _ => some .enum
  | typedef _ => none

def weight : Definition → Nat
  | aggregate body => (Descriptor.aggregate body).weight
  | enum _ => 1
  | typedef target => target.weight

end Definition

inductive EntryState
  | forward (tag : TagKind)
  | defined (definition : Definition)

namespace EntryState

def tag? : EntryState → Option TagKind
  | forward tag => some tag
  | defined definition => definition.tag?

def definition? : EntryState → Option Definition
  | forward _ => none
  | defined definition => some definition

def isAggregate (s : EntryState) : Bool := s.tag?.any (·.isAggregate)

end EntryState

structure Entry where
  name : String
  scope : ScopeId
  state : EntryState
  body : Option ScopeId

namespace Entry

def definition? (e : Entry) : Option Definition := e.state.definition?

def tag? (e : Entry) : Option TagKind := e.state.tag?

def isComplete (e : Entry) : Bool := e.definition?.isSome

def isAggregate (e : Entry) : Bool := e.state.isAggregate

def isDefinedAggregate (e : Entry) : Bool := e.isComplete && e.isAggregate

end Entry

structure Scope where
  parent : Option ScopeId
  owner : Option TypeId
  tags : List (String × TypeId) := []
  typedefs : List (String × TypeId) := []
deriving DecidableEq, Repr

namespace Scope

def tag? (s : Scope) (name : String) : Option TypeId := s.tags.lookup name

def typedef? (s : Scope) (name : String) : Option TypeId := s.typedefs.lookup name

/-- Ordinary look-up: a typedef wins over a tag of the same name. -/
def get? (s : Scope) (name : String) : Option TypeId := s.typedef? name <|> s.tag? name

def bindTag (s : Scope) (name : String) (id : TypeId) : Scope :=
  { s with tags := s.tags ++ [(name, id)] }

def bindTypedef (s : Scope) (name : String) (id : TypeId) : Scope :=
  { s with typedefs := s.typedefs ++ [(name, id)] }

def bindAs (s : Scope) (state : EntryState) (name : String) (id : TypeId) : Scope :=
  match state with
  | .defined (.typedef _) => s.bindTypedef name id
  | _ => s.bindTag name id

end Scope

end TypeLayout
