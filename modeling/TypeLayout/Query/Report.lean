import TypeLayout.Layout.Result
import TypeLayout.Profile
/-! Reports: what one query shows. Everything a layout places becomes a row; rows are ordered by
offset, and at one offset slots come before bases, bases before data, data before padding. -/

namespace TypeLayout

inductive RowKind
  | vtablePointer | base | virtualBase | member | bitField | padding
deriving DecidableEq, Repr

namespace RowKind

def rank : RowKind → Nat
  | vtablePointer => 0
  | base | virtualBase => 1
  | member | bitField => 2
  | padding => 3

def label : RowKind → String
  | vtablePointer => "vptr"
  | base => "base"
  | virtualBase => "virtual base"
  | member => "member"
  | bitField => "bit-field"
  | padding => "padding"

def tag : RowKind → String
  | vtablePointer => "vtable_pointer"
  | base => "base"
  | virtualBase => "virtual_base"
  | member => "member"
  | bitField => "bitfield"
  | padding => "padding"

end RowKind

structure Row where
  name : String
  offset : Nat
  size : Nat
  kind : RowKind
  typeName : Option String := none
  /-- The bits of a bit-field, the class that introduced a vtable pointer. -/
  note : Option String := none
deriving DecidableEq, Repr

namespace Row

def stop (r : Row) : Nat := r.offset + r.size

def isPadding (r : Row) : Bool := r.kind == .padding

def ofSlot (width : Nat) (s : VtableSlot) : Row :=
  { name := "<vptr>", offset := s.offset, size := width, kind := .vtablePointer, note := s.owner }

def ofBase (b : BaseSubobject) : Row :=
  { name := b.name, offset := b.offset, size := b.size
    kind := if b.isVirtual then .virtualBase else .base }

def ofField (f : Field) : Row :=
  { name := f.name, offset := f.offset, size := f.size
    kind := if f.storage.isBits then .bitField else .member
    typeName := f.typeName
    note := if f.storage.isBits then some f.storage.note else none }

def ofPadding (p : Region) : Row :=
  { name := "<padding>", offset := p.offset, size := p.size, kind := .padding }

def before (a b : Row) : Bool :=
  a.offset < b.offset || (a.offset == b.offset && a.kind.rank ≤ b.kind.rank)

def text (r : Row) : String :=
  "  " ++ Text.padLeft 6 (toString r.offset) ++ "  " ++ Text.padLeft 4 (toString r.size) ++ "  " ++
    r.name ++ (match r.typeName with | some type => ": " ++ type | none => "") ++
    (match r.note with | some note => " (" ++ note ++ ")" | none => "")

end Row

structure Report where
  typeName : String
  size : Nat
  align : Nat
  profile : String
  description : Option String
  polymorphic : Bool
  rows : List Row
deriving DecidableEq, Repr

namespace Report

def rowsOf (l : Layout) (slotWidth : Nat) : List Row :=
  l.slots.map (Row.ofSlot slotWidth) ++ l.bases.map Row.ofBase ++ l.fields.map Row.ofField ++
    l.padding.map Row.ofPadding

/-- Rows that the order does not tell apart stay as they were. -/
def ofLayout (name : String) (l : Layout) (p : Profile) (description : Option String) : Report where
  typeName := name
  size := l.size
  align := l.align.value
  profile := p.name
  description := description
  polymorphic := l.flags.polymorphic
  rows := (rowsOf l p.machine.vtablePointerSize).mergeSort Row.before

def row? (r : Report) (name : String) : Option Row := r.rows.find? (·.name == name)

def paddingBytes (r : Report) : Nat :=
  (r.rows.filter (·.isPadding)).foldl (fun n row => n + row.size) 0

def hasRows (r : Report) : Bool := !r.rows.isEmpty

def text (r : Report) : String :=
  r.typeName ++ " [" ++ r.profile ++ "]: size " ++ toString r.size ++ ", align " ++
    toString r.align ++ "\n" ++
    (match r.description with | some d => "  " ++ d ++ "\n" | none => "") ++
    String.join (r.rows.map fun row => row.text ++ "\n")

end Report

end TypeLayout
