import TypeLayout.Layout.Draft
import TypeLayout.Layout.Env
import TypeLayout.Layout.Hierarchy
import TypeLayout.Layout.Overlay
/-! Laying out types. The computation runs in any monad that offers a `LayoutHost`: plain results
alone, or stored layouts and a log. `layoutWithin` descends with explicit fuel; `layoutOf` supplies
enough for every registry in which an id is mentioned only after it was allocated. -/

namespace TypeLayout

section

variable {m : Type → Type} [Monad m] [MonadExceptOf LayoutError m] [LayoutHost m]

open LayoutHost (note fetch store)

abbrev Descend (m : Type → Type) := Trail → Descriptor → m Layout

namespace LayoutEnv

def overlayMember (env : LayoutEnv) (descend : Descend m) (trail : Trail) (x : Member)
    (o : Overlay) : m Overlay :=
  match x.bitWidth with
  | some width => do
    let unit ← ofExcept (env.fittingUnit x width)
    if width = 0 then pure o
    else
      pure (o.add ⟨x.name, env.registry.typeName x.type, 0, unit.size, unit.align,
        .bits unit.size 0 width⟩)
  | none => do
    let l ← inMember x.name (descend (trail.enter x.name) x.type)
    pure (o.add ⟨x.name, env.registry.typeName x.type, 0, l.size, l.align, .whole⟩)

def overlayMembers (env : LayoutEnv) (descend : Descend m) (trail : Trail) :
    List Member → Overlay → m Overlay
  | [], o => pure o
  | x :: xs, o => do
    let o ← env.overlayMember descend trail x o
    env.overlayMembers descend trail xs o

def union (env : LayoutEnv) (descend : Descend m) (trail : Trail) (a : Aggregate) (owner : String) :
    m Layout := do
  if !a.bases.isEmpty || a.declaresVirtual then note (.unionIgnoresBases a.displayName)
  if a.members.all (·.isSeparator) then pure .emptyUnion
  else
    let o ← env.overlayMembers descend trail a.members {}
    ofExcept (o.finish owner)

def laidBases (env : LayoutEnv) (descend : Descend m) (trail : Trail) :
    List BaseSpec → m (List LaidBase)
  | [] => pure []
  | b :: bs => do
    let id ← ofExcept (env.baseId b)
    let name := env.registry.qualifiedName id
    let l ← descend (trail.enter name) (.named id)
    let rest ← env.laidBases descend trail bs
    pure (⟨id, name, b.isVirtual, l⟩ :: rest)

def placeBases (env : LayoutEnv) (owner : String) : List LaidBase → Draft → Except LayoutError Draft
  | [], d => .ok d
  | b :: bs, d =>
    if b.isVirtual then env.placeBases owner bs d
    else d.addBase env.policy owner b.name b.layout false >>= env.placeBases owner bs

def placeMember (env : LayoutEnv) (descend : Descend m) (trail : Trail) (owner : String)
    (x : Member) (d : Draft) : m Draft :=
  match x.bitWidth with
  | some width => do
    let unit ← ofExcept (env.fittingUnit x width)
    if width = 0 then ofExcept (d.separate owner x.name unit)
    else
      let (p, d) ← ofExcept (d.addBits owner x.name (env.registry.typeName x.type) unit width)
      note (.placedBits owner x.name p.offset p.bitOffset)
      pure d
  | none => do
    let l ← inMember x.name (descend (trail.enter x.name) x.type)
    let d ← ofExcept (d.addField owner x.name (env.registry.typeName x.type) l)
    note (.placedField owner x.name (d.offset - l.size) l.size)
    pure d

def placeMembers (env : LayoutEnv) (descend : Descend m) (trail : Trail) (owner : String) :
    List Member → Draft → m Draft
  | [], d => pure d
  | x :: xs, d => do
    let d ← env.placeMember descend trail owner x d
    env.placeMembers descend trail owner xs d

def placeVirtualBases (env : LayoutEnv) (descend : Descend m) (trail : Trail) (owner : String) :
    List TypeId → Draft → m Draft
  | [], d => pure d
  | id :: ids, d => do
    let name := env.registry.qualifiedName id
    let l ← descend (trail.enter name) (.named id)
    let d ← ofExcept (d.addBase env.policy owner name l true)
    env.placeVirtualBases descend trail owner ids d

def openDraft (env : LayoutEnv) (owner : String) (flags : Flags) (bs : List LaidBase) : Draft :=
  let d : Draft := { last := owner }
  if flags.dynamic && (LaidBase.primary? bs).isNone then
    d.addSlot owner env.machine.vtablePointerSize env.machine.pointer
  else d

def noteSlot (owner : String) (flags : Flags) (bs : List LaidBase) : m Unit :=
  match LaidBase.primary? bs with
  | some b => note (.reusedSlot owner b.name)
  | none => if flags.dynamic then note (.ownSlot owner) else pure ()

def record (env : LayoutEnv) (descend : Descend m) (trail : Trail) (a : Aggregate)
    (owner : String) : m Layout := do
  let bs ← env.laidBases descend trail a.bases
  let flags := a.flagsOver bs
  let virtualBases := LaidBase.virtualBases bs
  noteSlot owner flags bs
  let d ← ofExcept (env.placeBases owner bs (env.openDraft owner flags bs))
  let d ← env.placeMembers descend trail owner a.members d
  let nvAlign := d.align
  let nvSize ← ofExcept (d.rounded owner)
  let d ← env.placeVirtualBases descend trail owner virtualBases
    (if virtualBases.isEmpty then d else d.padTo nvSize)
  let (size, d) ← ofExcept (d.finish owner flags)
  pure
    { size := size
      align := d.align
      nvSize := nvSize
      nvAlign := nvAlign
      fields := d.fields
      bases := d.bases
      slots := Draft.sortSlots d.slots
      padding := d.padding
      virtualBases := virtualBases
      flags := { flags with hasBitFields := d.hasBitFields } }

def aggregate (env : LayoutEnv) (descend : Descend m) (trail : Trail) (a : Aggregate)
    (owner : String) : m Layout := do
  let l ← if a.kind.isUnion then env.union descend trail a owner
    else env.record descend trail a owner
  note (.laidOut a.kind owner l)
  pure l

/-- A named aggregate: refused inside itself, else fetched or laid out and stored. -/
def namedAggregate (env : LayoutEnv) (descend : Descend m) (trail : Trail) (id : TypeId)
    (a : Aggregate) : m Layout :=
  let name := env.registry.qualifiedName id
  match trail.find? (·.id == id) with
  | some frame => throw (LayoutError.cyclicAggregate name frame.member)
  | none => do
    match ← fetch (env.key id) with
    | some l => pure l
    | none => do
      let l ← env.aggregate descend (⟨id, ""⟩ :: trail) a name
      store (env.key id) l

def layoutStep (env : LayoutEnv) (descend : Descend m) (trail : Trail) : Descriptor → m Layout
  | .fundamental kind => ofExcept (env.fundamental kind)
  | .pointer _ => pure env.pointer
  | .array element count => do
    let l ← descend trail element
    ofExcept (env.array element count l)
  | .enum e => ofExcept (env.fundamental e.underlying)
  | .aggregate a => env.aggregate descend trail a a.displayName
  | .named id => do
    match ← ofExcept (env.registry.definition id) with
    | .typedef target => descend trail target
    | .enum e => ofExcept (env.fundamental e.underlying)
    | .aggregate a => env.namedAggregate descend trail id a

/-- Fuel bounds the depth of the descent. A registry whose typedefs lead back to themselves, which
no sequence of definitions builds, uses it up and is reported as a cycle. -/
def layoutWithin (env : LayoutEnv) : Nat → Descend m
  | 0 => fun _ d => throw (LayoutError.cyclicAggregate (env.registry.typeName d) "")
  | n + 1 => env.layoutStep (env.layoutWithin n)

end LayoutEnv

end

namespace Registry

def weightBelow (r : Registry) : Nat → Nat
  | 0 => 0
  | n + 1 => r.weightBelow n + ((r.definition? ⟨n⟩).map Definition.weight).getD 0

def weight (r : Registry) : Nat := r.weightBelow r.size

/-- Between two aggregates in progress a descent meets no definition twice, and no aggregate is in
progress twice. -/
def layoutFuel (r : Registry) (d : Descriptor) : Nat :=
  d.weight + (r.size + 2) * (r.weight + r.size + 2)

end Registry

def LayoutEnv.layoutOf {m : Type → Type} [Monad m] [MonadExceptOf LayoutError m] [LayoutHost m]
    (env : LayoutEnv) (d : Descriptor) : m Layout :=
  env.layoutWithin (env.registry.layoutFuel d) [] d

end TypeLayout
