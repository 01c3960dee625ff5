import TypeLayout.Alignment
import TypeLayout.Descriptor
/-! The layout of a type: its extent, and for aggregates where everything in it lies. -/

namespace TypeLayout

abbrev bitLimit : Nat := 0x100000000

inductive Storage
  | whole
  | bits (unitSize bitOffset bitWidth : Nat)
deriving DecidableEq, Repr

namespace Storage

def isBits : Storage → Bool
  | bits _ _ _ => true
  | whole => false

def note : Storage → String
  | whole => ""
  | bits _ first width => s!"bits {first}.." ++ toString ((first + width) % bitLimit)

end Storage

structure Field where
  name : String
  typeName : String
  offset : Nat
  size : Nat
  align : Alignment
  storage : Storage
deriving DecidableEq, Repr

def Field.stop (f : Field) : Nat := f.offset + f.size

/-- A base class inside a derived object; an empty base may take no bytes. -/
structure BaseSubobject where
  name : String
  offset : Nat
  size : Nat
  isVirtual : Bool
deriving DecidableEq, Repr

def BaseSubobject.stop (b : BaseSubobject) : Nat := b.offset + b.size

structure VtableSlot where
  offset : Nat
  owner : String
  inVirtualBase : Bool
deriving DecidableEq, Repr

structure Region where
  offset : Nat
  size : Nat
deriving DecidableEq, Repr

def Region.stop (r : Region) : Nat := r.offset + r.size

structure Flags where
  polymorphic : Bool := false
  /-- Polymorphic, or has a virtual base somewhere in its hierarchy. -/
  dynamic : Bool := false
  /-- No data, no vtable pointer, only empty bases. -/
  empty : Bool := false
  hasBitFields : Bool := false
  hasVirtualBases : Bool := false
  isUnion : Bool := false
deriving DecidableEq, Repr

def Flags.names (f : Flags) : List String :=
  [(f.polymorphic, "polymorphic"), (f.dynamic, "dynamic"), (f.empty, "empty"),
   (f.hasBitFields, "has_bitfields"), (f.hasVirtualBases, "has_virtual_bases"),
   (f.isUnion, "union")].filterMap fun p => if p.1 then some p.2 else none

structure Layout where
  size : Nat
  align : Alignment
  nvSize : Nat
  nvAlign : Alignment
  fields : List Field := []
  bases : List BaseSubobject := []
  slots : List VtableSlot := []
  padding : List Region := []
  /-- The virtual bases of the whole hierarchy, each once, in the order of their placement. -/
  virtualBases : List TypeId := []
  flags : Flags := {}
deriving DecidableEq, Repr

namespace Layout

def scalar (size : Nat) (align : Alignment) : Layout :=
  { size := size, align := align, nvSize := size, nvAlign := align }

def field? (l : Layout) (name : String) : Option Field := l.fields.find? (·.name == name)

def base? (l : Layout) (name : String) : Option BaseSubobject := l.bases.find? (·.name == name)

def paddingBytes (l : Layout) : Nat := l.padding.foldl (fun n p => n + p.size) 0

/-- The slots that move with the non-virtual part. -/
def ownSlots (l : Layout) : List VtableSlot := l.slots.filter (!·.inVirtualBase)

end Layout

end TypeLayout
