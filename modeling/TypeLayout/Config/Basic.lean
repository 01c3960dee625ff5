import TypeLayout.Layout.BasePolicy
import TypeLayout.OffsetFormat
import TypeLayout.Profile.Builder
/-! Configurations: a preset with overrides, and how layouts are computed and shown. -/

namespace TypeLayout

structure Replacement where
  size : Nat
  align : Nat
deriving DecidableEq, Repr

structure Config where
  profile : String := "lp64"
  /-- By the spelling of a fundamental type, each spelling once. -/
  overrides : List (String × Replacement) := []
  pointerSize : Option Nat := none
  basePolicy : BasePolicy := .itaniumBaseline
  cacheLayouts : Bool := true
  offsetFormat : OffsetFormat := .decimal
deriving DecidableEq, Repr

namespace Config

def setOverride (spelling : String) (x : Replacement) :
    List (String × Replacement) → List (String × Replacement)
  | [] => [(spelling, x)]
  | (s, y) :: rest =>
    if s = spelling then (s, x) :: rest else (s, y) :: setOverride spelling x rest

def withProfile (c : Config) (name : String) : Config := { c with profile := name }

def withOverride (c : Config) (spelling : String) (size align : Nat) : Config :=
  { c with overrides := setOverride spelling ⟨size, align⟩ c.overrides }

def withPointerSize (c : Config) (size : Nat) : Config := { c with pointerSize := some size }

def withBasePolicy (c : Config) (p : BasePolicy) : Config := { c with basePolicy := p }

def withCacheLayouts (c : Config) (enabled : Bool) : Config := { c with cacheLayouts := enabled }

def withOffsetFormat (c : Config) (f : OffsetFormat) : Config := { c with offsetFormat := f }

def overrideOf (o : String × Replacement) : Except LayoutError Override :=
  match SizeClass.ofSpelling? o.1 with
  | some c => .ok ⟨c, o.2.size, o.2.align⟩
  | none => .error (.invalidProfile ("unknown fundamental type " ++ LayoutError.ticked o.1))

def abiProfile (c : Config) : Except LayoutError Profile := do
  let preset ← Profile.preset c.profile
  if c.overrides.isEmpty && c.pointerSize.isNone then pure preset
  else
    let overrides ← c.overrides.mapM overrideOf
    Profile.Builder.build { base := preset, overrides := overrides, pointerSize := c.pointerSize }

end Config

end TypeLayout
