import TypeLayout.Fundamental.Specifier
import TypeLayout.Profile
/-! Custom profiles: a base profile, overridden rows in order, and a pointer width. A profile
that carries the name of a preset without being it is marked with a star. -/

namespace TypeLayout

structure Override where
  sizeClass : SizeClass
  size : Nat
  align : Nat
deriving DecidableEq, Repr

namespace Override

def apply (o : Override) (m : Machine) : Except LayoutError Machine :=
  match Extent.ofSize o.size o.align with
  | .ok r => .ok (m.setRow r o.sizeClass)
  | .error e => .error (.invalidProfile (o.sizeClass.spelling ++ ": " ++ e.message))

def applyAll : List Override → Machine → Except LayoutError Machine
  | [], m => .ok m
  | o :: os, m => o.apply m >>= applyAll os

end Override

namespace Profile

/-- The profile that the name promises: the preset of that name, else the profile itself. -/
def namesake (p : Profile) : Profile :=
  match preset p.name with
  | .ok q => q
  | .error _ => p

def marked (p : Profile) : Profile :=
  if p.name.toList.getLast? = some '*' || p = p.namesake then p
  else { p with name := p.name ++ "*" }

structure Builder where
  base : Profile
  overrides : List Override := []
  pointerSize : Option Nat := none

namespace Builder

def withName (b : Builder) (name : String) : Builder :=
  { b with base := { b.base with name := name } }

def withRow (b : Builder) (c : SizeClass) (size align : Nat) : Builder :=
  { b with overrides := b.overrides ++ [⟨c, size, align⟩] }

def withPointerSize (b : Builder) (size : Nat) : Builder := { b with pointerSize := some size }

/-- Both pointers are given the width that was asked for. -/
def pointer (b : Builder) (m : Machine) : Except LayoutError Machine :=
  match b.pointerSize with
  | none => .ok m
  | some size => match Alignment.ofNat? size with
    | some a => .ok { m with
        pointer := a
        vtablePointerSize := a.value
        vtablePointerSize_eq := rfl }
    | none => .error (.invalidProfile s!"pointer size {size} is not a power of two")

def build (b : Builder) : Except LayoutError Profile := do
  let m ← Override.applyAll b.overrides b.base.machine
  let m ← b.pointer m
  pure (marked { b.base with machine := m })

end Builder

end Profile

end TypeLayout
