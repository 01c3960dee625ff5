import TypeLayout.Config.Basic
import TypeLayout.Json.Printer
import TypeLayout.Json.Shape
/-! Configurations as JSON. Every field may be left out; of an override that is given twice the
last counts. -/

namespace TypeLayout

open Json (Shape Mismatch Reader)

namespace Config

structure ReplacementFields where
  size : Option Nat := none
  align : Option Nat := none

def replacementRecord : Reader.Record ReplacementFields Replacement where
  expected := "struct FundamentalOverride"
  names := ["size", "align"]
  needed := 2
  start := {}
  isGiven key f := if key = "size" then f.size.isSome else f.align.isSome
  step _ key f := do
    let n ← Reader.scalar Shape.word64
    return if key = "size" then { f with size := some n } else { f with align := some n }
  finish f := do return ⟨← Shape.required "size" f.size, ← Shape.required "align" f.align⟩

def overrideMember (depth : Nat) (key : String) (os : List (String × Replacement)) :
    Reader (List (String × Replacement)) := do
  Reader.colon
  return setOverride key (← replacementRecord.read depth) os

def overridesReader (depth : Nat) : Reader (List (String × Replacement)) := Reader.placed do
  match ← Reader.peek with
  | some '{' => Reader.object depth fun inner => Reader.foldMembers (overrideMember inner) []
  | _ => Reader.misplaced "a map"

def policies : List (String × BasePolicy) :=
  [("itanium_baseline", .itaniumBaseline), ("strict_sequential", .strictSequential)]

def offsetFormats : List (String × OffsetFormat) := [("hex", .hex), ("decimal", .decimal)]

structure Fields where
  profile : Option String := none
  overrides : Option (List (String × Replacement)) := none
  pointerSize : Option (Option Nat) := none
  basePolicy : Option BasePolicy := none
  cacheLayouts : Option Bool := none
  offsetFormat : Option OffsetFormat := none

def Fields.isGiven (key : String) (f : Fields) : Bool :=
  match key with
  | "profile" => f.profile.isSome
  | "overrides" => f.overrides.isSome
  | "pointer_size" => f.pointerSize.isSome
  | "base_policy" => f.basePolicy.isSome
  | "cache_layouts" => f.cacheLayouts.isSome
  | _ => f.offsetFormat.isSome

def Fields.step (depth : Nat) (key : String) (f : Fields) : Reader Fields := do
  match key with
  | "profile" => return { f with profile := some (← Reader.scalar Shape.string) }
  | "overrides" => return { f with overrides := some (← overridesReader depth) }
  | "pointer_size" =>
    return { f with pointerSize := some (← Reader.optional (Reader.scalar Shape.word64)) }
  | "base_policy" => return { f with basePolicy := some (← Reader.choice depth policies) }
  | "cache_layouts" => return { f with cacheLayouts := some (← Reader.scalar Shape.bool) }
  | _ => return { f with offsetFormat := some (← Reader.choice depth offsetFormats) }

def Fields.finish (f : Fields) : Config :=
  let c : Config := {}
  { profile := f.profile.getD c.profile
    overrides := f.overrides.getD c.overrides
    pointerSize := f.pointerSize.getD c.pointerSize
    basePolicy := f.basePolicy.getD c.basePolicy
    cacheLayouts := f.cacheLayouts.getD c.cacheLayouts
    offsetFormat := f.offsetFormat.getD c.offsetFormat }

def record : Reader.Record Fields Config where
  expected := "struct Config"
  names :=
    ["profile", "overrides", "pointer_size", "base_policy", "cache_layouts", "offset_format"]
  needed := 0
  start := {}
  isGiven := Fields.isGiven
  step := Fields.step
  finish f := .ok f.finish

def parse (text : String) : Except Json.Fault Config := (record.read Json.maxDepth).run text

def replacementJson (x : Replacement) : Json :=
  .object [("size", .natural x.size), ("align", .natural x.align)]

def json (c : Config) : Json :=
  .object
    [("profile", .string c.profile),
     ("overrides", .object (c.overrides.map fun o => (o.1, replacementJson o.2))),
     ("pointer_size", match c.pointerSize with | some n => .natural n | none => .null),
     ("base_policy", .string c.basePolicy.name),
     ("cache_layouts", .bool c.cacheLayouts),
     ("offset_format", .string c.offsetFormat.name)]

end Config

end TypeLayout
