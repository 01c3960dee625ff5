import TypeLayout.Layout.BasePolicy
import TypeLayout.Layout.BitUnit
/-! The layout of a struct or class while it grows. A draft holds the first free offset, the
strictest alignment so far and everything placed; each step adds one base, member or separator,
records the bytes it skips as padding, or fails where the result would not fit in 64 bits. -/

namespace TypeLayout

structure Draft where
  offset : Nat := 0
  align : Alignment := .one
  padding : List Region := []
  slots : List VtableSlot := []
  bases : List BaseSubobject := []
  fields : List Field := []
  packer : Packer := none
  hasBitFields : Bool := false
  /-- What was placed last, which an overflow at the end is blamed on. -/
  last : String

namespace Draft

def padTo (d : Draft) (target : Nat) : Draft :=
  if d.offset < target then
    { d with offset := target, padding := d.padding ++ [⟨d.offset, target - d.offset⟩] }
  else d

def addSlot (d : Draft) (owner : String) (size : Nat) (pointer : Alignment) : Draft :=
  { d with
    offset := size
    align := d.align.max pointer
    slots := d.slots ++ [⟨0, owner, false⟩] }

def movedSlots (layout : Layout) (offset : Nat) (isVirtual : Bool) : List VtableSlot :=
  layout.ownSlots.map fun s => ⟨offset + s.offset, s.owner, isVirtual⟩

def addBase (d : Draft) (policy : BasePolicy) (owner name : String) (layout : Layout)
    (isVirtual : Bool) : Except LayoutError Draft :=
  match policy.place? d.offset layout with
  | none => .error (.sizeOverflow owner name)
  | some p =>
    match p.stop? with
    | none => .error (.sizeOverflow owner name)
    | some stop =>
      let d := d.padTo p.offset
      .ok { d with
        slots := d.slots ++ movedSlots layout p.offset isVirtual
        bases := d.bases ++ [⟨name, p.offset, p.size, isVirtual⟩]
        align := d.align.max p.align
        offset := max d.offset stop
        last := name }

def addField (d : Draft) (owner name typeName : String) (layout : Layout) :
    Except LayoutError Draft :=
  match layout.align.align? d.offset with
  | none => .error (.sizeOverflow owner name)
  | some offset =>
    if offset + layout.size < addressLimit then
      let d := d.padTo offset
      .ok { d with
        fields := d.fields ++ [⟨name, typeName, offset, layout.size, layout.align, .whole⟩]
        align := d.align.max layout.align
        offset := offset + layout.size
        packer := none
        last := name }
    else .error (.sizeOverflow owner name)

/-- A zero-width bit-field closes the open unit and aligns what follows. -/
def separate (d : Draft) (owner name : String) (unit : StorageUnit) : Except LayoutError Draft :=
  match unit.align.align? d.offset with
  | none => .error (.sizeOverflow owner name)
  | some offset => .ok { d.padTo offset with packer := none, last := name }

def addBits (d : Draft) (owner name typeName : String) (unit : StorageUnit) (width : Nat) :
    Except LayoutError (BitPlacement × Draft) :=
  match d.packer.place? d.offset unit width with
  | none => .error (.sizeOverflow owner name)
  | some (p, packer) =>
    match p.stop? with
    | none => .error (.sizeOverflow owner name)
    | some stop =>
      let d := if p.opened then d.padTo p.offset else d
      .ok (p, { d with
        fields := d.fields ++
          [⟨name, typeName, p.offset, unit.size, unit.align, .bits unit.size p.bitOffset width⟩]
        align := d.align.max unit.align
        offset := max d.offset stop
        packer := packer
        hasBitFields := true
        last := name })

def rounded (d : Draft) (owner : String) : Except LayoutError Nat :=
  match d.align.align? d.offset with
  | none => .error (.sizeOverflow owner d.last)
  | some size => .ok size

/-- A class in which nothing takes a byte has size one. -/
def finish (d : Draft) (owner : String) (flags : Flags) : Except LayoutError (Nat × Draft) :=
  if flags.empty && d.offset = 0 then .ok (1, d)
  else (d.rounded owner).map fun size => (size, d.padTo size)

def sortSlots (slots : List VtableSlot) : List VtableSlot :=
  slots.mergeSort fun a b => a.offset ≤ b.offset

end Draft

end TypeLayout
