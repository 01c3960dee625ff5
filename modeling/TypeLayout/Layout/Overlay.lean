import TypeLayout.Layout.Result
import TypeLayout.LayoutError
/-! The layout of a union while it grows: every field lies at offset zero. -/

namespace TypeLayout

structure Overlay where
  fields : List Field := []
  size : Nat := 0
  widest : String := ""
  align : Alignment := .one
  hasBitFields : Bool := false

def Overlay.add (o : Overlay) (f : Field) : Overlay where
  fields := o.fields ++ [f]
  size := max o.size f.size
  widest := if o.size ≤ f.size then f.name else o.widest
  align := o.align.max f.align
  hasBitFields := o.hasBitFields || f.storage.isBits

def Overlay.finish (o : Overlay) (owner : String) : Except LayoutError Layout :=
  match o.align.align? o.size with
  | none => .error (.sizeOverflow owner o.widest)
  | some size =>
    .ok { Layout.scalar size o.align with
      fields := o.fields
      padding := if o.size < size then [⟨o.size, size - o.size⟩] else []
      flags := { hasBitFields := o.hasBitFields, isUnion := true } }

/-- A union in which nothing is stored takes one byte. -/
def Layout.emptyUnion : Layout :=
  { Layout.scalar 1 .one with flags := { empty := true, isUnion := true } }

end TypeLayout
