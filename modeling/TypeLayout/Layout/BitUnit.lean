import TypeLayout.Layout.Result
import TypeLayout.Machine
/-! Packing bit-fields into storage units. A field joins the open unit while its size class is the
unit's and the bits still fit; otherwise a new unit opens at the next aligned offset. -/

namespace TypeLayout

structure StorageUnit where
  sizeClass : SizeClass
  size : Nat
  align : Alignment
deriving DecidableEq, Repr

def StorageUnit.bits (u : StorageUnit) : Nat := u.size * 8 % bitLimit

structure OpenUnit where
  unit : StorageUnit
  offset : Nat
  used : Nat
deriving DecidableEq, Repr

def OpenUnit.takes (o : OpenUnit) (unit : StorageUnit) (width : Nat) : Bool :=
  o.unit.sizeClass == unit.sizeClass && (o.used + width) % bitLimit ≤ o.unit.bits

structure BitPlacement where
  offset : Nat
  unitSize : Nat
  bitOffset : Nat
  opened : Bool
deriving DecidableEq, Repr

def BitPlacement.stop? (p : BitPlacement) : Option Nat :=
  if p.offset + p.unitSize < addressLimit then some (p.offset + p.unitSize) else none

abbrev Packer := Option OpenUnit

namespace Packer

def openAt (cursor : Nat) (unit : StorageUnit) (width : Nat) : Option (BitPlacement × Packer) :=
  (unit.align.align? cursor).map fun offset =>
    (⟨offset, unit.size, 0, true⟩, some ⟨unit, offset, width⟩)

/-- `cursor` is the first free byte; `none` where a new unit cannot be aligned. -/
def place? (p : Packer) (cursor : Nat) (unit : StorageUnit) (width : Nat) :
    Option (BitPlacement × Packer) :=
  match p with
  | some o =>
    if o.takes unit width then
      some (⟨o.offset, o.unit.size, o.used, false⟩,
        some { o with used := (o.used + width) % bitLimit })
    else openAt cursor unit width
  | none => openAt cursor unit width

end Packer

end TypeLayout
