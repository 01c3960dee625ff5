import TypeLayout.Layout.BitUnit
import TypeLayout.Layout.Host
import TypeLayout.Registry.Basic
/-! What a layout is computed from: a registry, a machine and a base policy. -/

namespace TypeLayout

structure LayoutEnv where
  registry : Registry
  machine : Machine
  policy : BasePolicy

namespace LayoutEnv

def key (env : LayoutEnv) (id : TypeId) : LayoutKey := ⟨id, env.machine, env.policy⟩

def fundamental (env : LayoutEnv) (kind : Fundamental) : Except LayoutError Layout :=
  match env.machine.extent? kind with
  | some (size, align) => .ok (.scalar size align)
  | none => .error (.incompleteType kind.spelling none)

def pointer (env : LayoutEnv) : Layout := .scalar env.machine.pointerSize env.machine.pointer

def array (env : LayoutEnv) (element : Descriptor) (count : Nat) (l : Layout) :
    Except LayoutError Layout :=
  if l.size = 0 then .error (.invalidArrayElement (env.registry.typeName element))
  else if l.size * count < addressLimit then .ok (.scalar (l.size * count) l.align)
  else .error (.invalidArrayElement (env.registry.typeName (.array element count)))

def unsupported (env : LayoutEnv) (x : Member) : LayoutError :=
  .unsupportedBitField x.name (env.registry.typeName x.type)

/-- The fundamental type that stores a bit-field; an enumeration is stored as its underlying
type. -/
def bitFieldKind (env : LayoutEnv) (x : Member) : Except LayoutError Fundamental :=
  match env.registry.strip x.type with
  | .fundamental kind => .ok kind
  | .enum e => .ok e.underlying
  | .named id =>
    match env.registry.definition id with
    | .ok (.enum e) => .ok e.underlying
    | .ok _ => .error (env.unsupported x)
    | .error e => .error (e.inMember x.name)
  | _ => .error (env.unsupported x)

def storageUnit (env : LayoutEnv) (x : Member) : Except LayoutError StorageUnit := do
  let kind ← env.bitFieldKind x
  if kind.isIntegral then
    match env.machine.class? kind with
    | some c => pure ⟨c, (env.machine.row c).size, (env.machine.row c).align⟩
    | none => .error (env.unsupported x)
  else .error (env.unsupported x)

def fittingUnit (env : LayoutEnv) (x : Member) (width : Nat) : Except LayoutError StorageUnit := do
  let unit ← env.storageUnit x
  if unit.bits < width then .error (.invalidBitFieldWidth x.name width unit.bits)
  else pure unit

def baseId (env : LayoutEnv) (b : BaseSpec) : Except LayoutError TypeId :=
  match env.registry.strip b.type with
  | .named id => .ok id
  | other => .error (.unknownType ("base class " ++
      LayoutError.ticked (env.registry.typeName other)))

end LayoutEnv

end TypeLayout
