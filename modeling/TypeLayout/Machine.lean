import TypeLayout.Alignment
import TypeLayout.Fundamental
/-! A machine: a size and alignment for each size class, the width of data pointers and that of
vtable slots, which is the same. -/

namespace TypeLayout

/-- A size that is a non-zero multiple of its alignment. -/
structure Extent where
  size : Nat
  align : Alignment
  size_pos : 0 < size
  size_lt : size < addressLimit
  align_dvd : align.value ∣ size
deriving DecidableEq

namespace Extent

def natural (align : Alignment) : Extent where
  size := align.value
  align := align
  size_pos := align.value_pos
  size_lt := align.value_lt
  align_dvd := Nat.dvd_refl _

/-- Sizes reach up to `addressLimit`, so only the two conditions an extent adds are reported. -/
def ofSize (size align : Nat) : Except LayoutError Extent := do
  let a ← Alignment.ofNat align
  if h : 0 < size ∧ size < addressLimit ∧ a.value ∣ size then
    .ok ⟨size, a, h.1, h.2.1, h.2.2⟩
  else
    .error (.invalidProfile s!"size {size} is not a non-zero multiple of alignment {align}")

end Extent

structure Machine where
  char : Extent
  short : Extent
  int : Extent
  long : Extent
  longLong : Extent
  float : Extent
  double : Extent
  longDouble : Extent
  bool : Extent
  wideChar : Extent
  pointer : Alignment
  vtablePointerSize : Nat
  vtablePointerSize_eq : vtablePointerSize = pointer.value
deriving DecidableEq

namespace Machine

def row (m : Machine) : SizeClass → Extent
  | .char => m.char
  | .short => m.short
  | .int => m.int
  | .long => m.long
  | .longLong => m.longLong
  | .float => m.float
  | .double => m.double
  | .longDouble => m.longDouble
  | .bool => m.bool
  | .wideChar => m.wideChar

def setRow (m : Machine) (r : Extent) : SizeClass → Machine
  | .char => { m with char := r }
  | .short => { m with short := r }
  | .int => { m with int := r }
  | .long => { m with long := r }
  | .longLong => { m with longLong := r }
  | .float => { m with float := r }
  | .double => { m with double := r }
  | .longDouble => { m with longDouble := r }
  | .bool => { m with bool := r }
  | .wideChar => { m with wideChar := r }

@[simp] theorem row_setRow_self (m : Machine) (r : Extent) (c : SizeClass) :
    (m.setRow r c).row c = r := by cases c <;> rfl

theorem row_setRow_of_ne (m : Machine) (r : Extent) {c d : SizeClass} (h : d ≠ c) :
    (m.setRow r c).row d = m.row d := by
  revert h
  cases c <;> cases d <;> first | (intro h; exact absurd rfl h) | (intro; rfl)

@[simp] theorem pointer_setRow (m : Machine) (r : Extent) (c : SizeClass) :
    (m.setRow r c).pointer = m.pointer := by cases c <;> rfl

/-- Data pointers are as wide as they are aligned. -/
def pointerSize (m : Machine) : Nat := m.pointer.value

@[simp] theorem vtablePointerSize_eq_pointerSize (m : Machine) :
    m.vtablePointerSize = m.pointerSize := m.vtablePointerSize_eq

/-- The first of the integer classes, widest alias first, that is as wide as a pointer. -/
def pointerClass? (m : Machine) : Option SizeClass :=
  [SizeClass.long, .longLong, .int, .short].find? fun c => (m.row c).size == m.pointerSize

def class? (m : Machine) (k : Fundamental) : Option SizeClass :=
  if k.isPointerWide then m.pointerClass? else k.sizeClass?

/-- Size and alignment of a fundamental type; `none` for `void`. A pointer-wide integer without a
class of its width is laid out as a pointer. -/
def extent? (m : Machine) (k : Fundamental) : Option (Nat × Alignment) :=
  match m.class? k with
  | some c => some ((m.row c).size, (m.row c).align)
  | none => if k.isPointerWide then some (m.pointerSize, m.pointer) else none

theorem extent?_eq_none_iff (m : Machine) (k : Fundamental) :
    m.extent? k = none ↔ k = .void := by
  cases k <;> simp [extent?, class?, Fundamental.isPointerWide, Fundamental.sizeClass?] <;>
    split <;> simp

end Machine

end TypeLayout
