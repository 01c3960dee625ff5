import TypeLayout.Layout.Result
/-! What a class takes from its direct bases: whether it is polymorphic, dynamic or empty, and the
virtual bases of its whole hierarchy. -/

namespace TypeLayout

structure LaidBase where
  id : TypeId
  name : String
  isVirtual : Bool
  layout : Layout

namespace LaidBase

def insertNew (ids : List TypeId) (id : TypeId) : List TypeId :=
  if ids.contains id then ids else ids ++ [id]

def brings (b : LaidBase) : List TypeId :=
  (if b.isVirtual then [b.id] else []) ++ b.layout.virtualBases

def virtualBases (bs : List LaidBase) : List TypeId :=
  (bs.flatMap brings).foldl insertNew []

def primary? (bs : List LaidBase) : Option LaidBase :=
  bs.find? fun b => !b.isVirtual && b.layout.flags.dynamic

end LaidBase

def Aggregate.flagsOver (a : Aggregate) (bs : List LaidBase) : Flags :=
  let polymorphic := a.declaresVirtual || bs.any (·.layout.flags.polymorphic)
  let hasVirtualBases := !(LaidBase.virtualBases bs).isEmpty
  let dynamic := polymorphic || hasVirtualBases
  { polymorphic := polymorphic
    dynamic := dynamic
    empty := !dynamic && a.members.all (·.isSeparator) && bs.all (·.layout.flags.empty)
    hasVirtualBases := hasVirtualBases }

end TypeLayout
