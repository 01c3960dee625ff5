import TypeLayout.Machine
import TypeLayout.Text.Lowercase
import TypeLayout.Text.Pad
/-! A profile is a named machine. Three presets are known by name and by the names of common
targets, in any case. -/

namespace TypeLayout

structure Profile where
  name : String
  machine : Machine
deriving DecidableEq

namespace Profile

def paddedLongDouble : Extent where
  size := 12
  align := .four
  size_pos := Nat.succ_pos _
  size_lt := Nat.lt_of_sub_eq_succ rfl
  align_dvd := ⟨3, rfl⟩

def ilp32 : Profile where
  name := "ilp32"
  machine :=
    { char := .natural .one, short := .natural .two, int := .natural .four,
      long := .natural .four, longLong := .natural .eight, float := .natural .four,
      double := .natural .eight, longDouble := paddedLongDouble, bool := .natural .one,
      wideChar := .natural .four, pointer := .four, vtablePointerSize := 4,
      vtablePointerSize_eq := rfl }

def lp64 : Profile where
  name := "lp64"
  machine :=
    { char := .natural .one, short := .natural .two, int := .natural .four,
      long := .natural .eight, longLong := .natural .eight, float := .natural .four,
      double := .natural .eight, longDouble := .natural .sixteen, bool := .natural .one,
      wideChar := .natural .four, pointer := .eight, vtablePointerSize := 8,
      vtablePointerSize_eq := rfl }

def llp64 : Profile where
  name := "llp64"
  machine :=
    { char := .natural .one, short := .natural .two, int := .natural .four,
      long := .natural .four, longLong := .natural .eight, float := .natural .four,
      double := .natural .eight, longDouble := .natural .eight, bool := .natural .one,
      wideChar := .natural .two, pointer := .eight, vtablePointerSize := 8,
      vtablePointerSize_eq := rfl }

instance : Inhabited Profile := ⟨lp64⟩

def presets : List Profile := [ilp32, lp64, llp64]

def presetNamed? (name : String) : Option Profile :=
  if ["ilp32", "x86", "i386", "i686", "arm", "32"].contains name then some ilp32
  else if ["lp64", "x86_64", "x64", "amd64", "aarch64", "arm64", "64"].contains name then
    some lp64
  else if ["llp64", "win64", "windows"].contains name then some llp64
  else none

def preset (name : String) : Except LayoutError Profile :=
  let lowered := Text.lowercase name
  match presetNamed? lowered with
  | some p => .ok p
  | none => .error (.invalidProfile ("unknown preset " ++ LayoutError.ticked lowered))

def rows (p : Profile) : List (SizeClass × Extent) :=
  SizeClass.all.map fun c => (c, p.machine.row c)

def is64Bit (p : Profile) : Bool := p.machine.pointerSize == 8

def rowText (r : SizeClass × Extent) : String :=
  Text.padRight 12 r.1.spelling ++ " size " ++ Text.padLeft 2 (toString r.2.size) ++
    "  align " ++ Text.padLeft 2 (toString r.2.align)

def describe (p : Profile) : String :=
  "profile " ++ p.name ++ " (pointer " ++ toString p.machine.pointerSize ++ " bytes, vptr " ++
    toString p.machine.vtablePointerSize ++ " bytes)\n" ++
    String.join (p.rows.map fun r => "  " ++ rowText r ++ "\n")

end Profile

end TypeLayout
