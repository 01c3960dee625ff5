import TypeLayout.Proofs.Layout.ByteMap
import TypeLayout.Proofs.Layout.Placement
/-! The layout rule without a limit on sizes. A class is a row of parts: its vtable pointer, its
bases, its members, and behind its non-virtual part the virtual bases; each part starts at the least
multiple of its alignment that is not below the end of the part before it. Bit-fields are left
out. -/

namespace TypeLayout

/-- What a class is made of. -/
inductive Part
  | slot (owner : String)
  | base (b : LaidBase)
  | member (x : Member) (layout : Layout)

def Region.between (start stop : Nat) : List Region :=
  if start < stop then [⟨start, stop - start⟩] else []

namespace LayoutEnv

def piece (env : LayoutEnv) : Part → Piece
  | .slot _ => ⟨env.machine.pointerSize, env.machine.pointer⟩
  | .base b => env.policy.piece b.layout
  | .member _ l => l.piece

def starts (env : LayoutEnv) : List Part → Nat → List (Part × Nat)
  | [], _ => []
  | p :: ps, cursor => (p, (env.piece p).start cursor) :: env.starts ps ((env.piece p).stop cursor)

def stopOf (env : LayoutEnv) (ps : List Part) (cursor : Nat) : Nat :=
  ps.foldl (fun cursor p => (env.piece p).stop cursor) cursor

def gaps (env : LayoutEnv) : List Part → Nat → List Region
  | [], _ => []
  | p :: ps, cursor =>
    Region.between cursor ((env.piece p).start cursor) ++ env.gaps ps ((env.piece p).stop cursor)

def strictest (env : LayoutEnv) (ps : List Part) (align : Alignment) : Alignment :=
  ps.foldl (fun align p => align.max (env.piece p).align) align

def fieldsAt (env : LayoutEnv) (p : Part × Nat) : List Field :=
  match p.1 with
  | .member x l => [⟨x.name, env.registry.typeName x.type, p.2, l.size, l.align, .whole⟩]
  | _ => []

def entriesAt (env : LayoutEnv) (p : Part × Nat) : List BaseSubobject :=
  match p.1 with
  | .base b => [⟨b.name, p.2, (env.policy.piece b.layout).size, b.isVirtual⟩]
  | _ => []

def slotsAt (p : Part × Nat) : List VtableSlot :=
  match p.1 with
  | .slot owner => [⟨p.2, owner, false⟩]
  | .base b => Draft.movedSlots b.layout p.2 b.isVirtual
  | .member _ _ => []

section

variable (env : LayoutEnv) (x : Descriptor → Layout)

def basesBy (bs : List BaseSpec) : List LaidBase :=
  bs.filterMap fun b =>
    match env.registry.strip b.type with
    | .named id => some ⟨id, env.registry.qualifiedName id, b.isVirtual, x (.named id)⟩
    | _ => none

def virtualBasesBy (ids : List TypeId) : List LaidBase :=
  ids.map fun id => ⟨id, env.registry.qualifiedName id, true, x (.named id)⟩

/-- The vtable pointer, if no base lends one, the bases that are not virtual, and the members. -/
def ownParts (owner : String) (a : Aggregate) : List Part :=
  let bs := env.basesBy x a.bases
  (if (a.flagsOver bs).dynamic && (LaidBase.primary? bs).isNone then [.slot owner] else []) ++
    (bs.filter (!·.isVirtual)).map .base ++ a.members.map fun m => .member m (x m.type)

def sharedParts (a : Aggregate) : List Part :=
  (env.virtualBasesBy x (LaidBase.virtualBases (env.basesBy x a.bases))).map .base

/-- Where the virtual bases begin: behind the non-virtual part, which is rounded up. -/
def sharedStart (owner : String) (a : Aggregate) : Nat :=
  if (LaidBase.virtualBases (env.basesBy x a.bases)).isEmpty then
    env.stopOf (env.ownParts x owner a) 0
  else (env.strictest (env.ownParts x owner a) .one).roundUp
    (env.stopOf (env.ownParts x owner a) 0)

/-- The rule for a struct or class. -/
def recordBy (owner : String) (a : Aggregate) : Layout :=
  let bs := env.basesBy x a.bases
  let flags := a.flagsOver bs
  let own := env.ownParts x owner a
  let shared := env.sharedParts x a
  let ownStop := env.stopOf own 0
  let nvAlign := env.strictest own .one
  let start := env.sharedStart x owner a
  let stop := env.stopOf shared start
  let align := env.strictest shared nvAlign
  let size := if flags.empty && stop = 0 then 1 else align.roundUp stop
  let parts := env.starts own 0 ++ env.starts shared start
  { size := size
    align := align
    nvSize := nvAlign.roundUp ownStop
    nvAlign := nvAlign
    fields := parts.flatMap env.fieldsAt
    bases := parts.flatMap env.entriesAt
    slots := Draft.sortSlots (parts.flatMap slotsAt)
    padding := env.gaps own 0 ++ Region.between ownStop start ++ env.gaps shared start ++
      if flags.empty && stop = 0 then [] else Region.between stop size
    virtualBases := LaidBase.virtualBases bs
    flags := flags }

/-- The rule for a union: as large as its largest member. -/
def unionBy (a : Aggregate) : Layout :=
  if a.members.isEmpty then .emptyUnion
  else
    let largest := (a.members.map fun m => (x m.type).size).foldl max 0
    let align := (a.members.map fun m => (x m.type).align).foldl Alignment.max .one
    let size := align.roundUp largest
    { Layout.scalar size align with
      fields := a.members.map fun m =>
        ⟨m.name, env.registry.typeName m.type, 0, (x m.type).size, (x m.type).align, .whole⟩
      padding := Region.between largest size
      flags := { isUnion := true } }

def aggregateBy (owner : String) (a : Aggregate) : Layout :=
  if a.kind.isUnion then env.unionBy x a else env.recordBy x owner a

def nothing : Layout := .scalar 0 .one

def fundamentalBy (kind : Fundamental) : Layout :=
  match env.machine.extent? kind with
  | some (size, align) => .scalar size align
  | none => nothing

/-- The layout of a type from the layouts of the types that it holds. -/
def rule : Descriptor → Layout
  | .fundamental kind => env.fundamentalBy kind
  | .pointer _ => env.pointer
  | .array element count => .scalar ((x element).size * count) (x element).align
  | .enum e => env.fundamentalBy e.underlying
  | .aggregate a => env.aggregateBy x a.displayName a
  | .named id =>
    match env.registry.definition? id with
    | some (.typedef t) => x t
    | some (.enum e) => env.fundamentalBy e.underlying
    | some (.aggregate a) => env.aggregateBy x (env.registry.qualifiedName id) a
    | none => nothing

end

section

variable {env : LayoutEnv} {x : Descriptor → Layout} {id : TypeId}

theorem rule_typedef {t : Descriptor} (h : env.registry.definition? id = some (.typedef t)) :
    env.rule x (.named id) = x t := by
  simp only [rule, h]

theorem rule_enum {e : EnumType} (h : env.registry.definition? id = some (.enum e)) :
    env.rule x (.named id) = env.fundamentalBy e.underlying := by
  simp only [rule, h]

theorem rule_body {a : Aggregate} (h : env.registry.definition? id = some (.aggregate a)) :
    env.rule x (.named id) = env.aggregateBy x (env.registry.qualifiedName id) a := by
  simp only [rule, h]

theorem rule_undefined (h : env.registry.definition? id = none) :
    env.rule x (.named id) = nothing := by
  simp only [rule, h]

end

def exactWithin (env : LayoutEnv) : Nat → Descriptor → Layout
  | 0 => fun _ => nothing
  | n + 1 => env.rule (env.exactWithin n)

/-- The layout by the rule. -/
def exact (env : LayoutEnv) (d : Descriptor) : Layout :=
  env.exactWithin (env.registry.layoutFuel d) d

end LayoutEnv

end TypeLayout
