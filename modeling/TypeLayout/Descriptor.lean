import TypeLayout.Fundamental
/-! Resolved types. Named records, enumerations and typedefs are reached through their id, which
keeps pointer cycles finite; an anonymous record or enumeration is held in place. -/

namespace TypeLayout

structure TypeId where
  index : Nat
deriving DecidableEq, Repr

instance : ToString TypeId := ⟨fun id => "#" ++ toString id.index⟩

inductive AggregateKind
  | structType | classType | unionType
deriving DecidableEq, Repr

namespace AggregateKind

def keyword : AggregateKind → String
  | structType => "struct"
  | classType => "class"
  | unionType => "union"

def isUnion : AggregateKind → Bool
  | unionType => true
  | _ => false

end AggregateKind

structure EnumType where
  name : Option String
  underlying : Fundamental
deriving DecidableEq, Repr

mutual

inductive Descriptor
  | fundamental (kind : Fundamental)
  | pointer (pointee : Descriptor)
  | array (element : Descriptor) (count : Nat)
  | enum (type : EnumType)
  | aggregate (body : Aggregate)
  | named (id : TypeId)

structure Member where
  name : String
  type : Descriptor
  bitWidth : Option Nat

structure BaseSpec where
  type : Descriptor
  isVirtual : Bool

structure Aggregate where
  kind : AggregateKind
  name : Option String
  members : List Member
  bases : List BaseSpec
  virtualFunctions : List String

end

namespace Aggregate

def displayName (a : Aggregate) : String :=
  match a.name with
  | some name => a.kind.keyword ++ " " ++ name
  | none => a.kind.keyword ++ " (anonymous)"

def declaresVirtual (a : Aggregate) : Bool := !a.virtualFunctions.isEmpty

end Aggregate

/-- A zero-width bit-field separates storage units and holds nothing. -/
def Member.isSeparator (m : Member) : Bool := m.bitWidth == some 0

namespace Descriptor

instance : Inhabited Descriptor := ⟨.fundamental .void⟩

def isPointer : Descriptor → Bool
  | pointer _ => true
  | _ => false

def isArray : Descriptor → Bool
  | array _ _ => true
  | _ => false

def innermost : Descriptor → Descriptor
  | array element _ => element.innermost
  | d => d

end Descriptor

mutual

def Descriptor.weight : Descriptor → Nat
  | .fundamental _ | .enum _ | .named _ => 1
  | .pointer d => d.weight + 1
  | .array d _ => d.weight + 1
  | .aggregate ⟨_, _, members, bases, _⟩ => memberWeight members + baseWeight bases + 1

def memberWeight : List Member → Nat
  | [] => 0
  | ⟨_, d, _⟩ :: ms => d.weight + memberWeight ms + 1

def baseWeight : List BaseSpec → Nat
  | [] => 0
  | ⟨d, _⟩ :: bs => d.weight + baseWeight bs + 1

end

end TypeLayout
