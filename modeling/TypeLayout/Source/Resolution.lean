import TypeLayout.Fundamental.Specifier
import TypeLayout.Log
import TypeLayout.Registry.Lookup
import TypeLayout.Registry.Prelude
import TypeLayout.Source.Declaration
/-! Resolving declarations into a registry. A first pass binds every named record and enumeration
as a forward declaration, so that pointers may name types declared later; a second pass resolves
bodies. A declaration that fails stays incomplete and the others still resolve. -/

namespace TypeLayout

structure Resolution where
  registry : Registry
  /-- Failures inside records that did not stop the record. -/
  deferred : List LayoutError := []
  journal : Array Log.Entry := #[]

/-- A failed step keeps what it declared. -/
abbrev ResolveM := ExceptT LayoutError (StateM Resolution)

namespace ResolveM

def note (level : Log.Level) (origin message : String) : ResolveM Unit :=
  modify fun z => { z with journal := z.journal.push ⟨level, origin, message⟩ }

def trace (message : String) : ResolveM Unit := note .trace "resolver::resolver" message

def warn (message : String) : ResolveM Unit := note .warn "resolver::resolver" message

def registry : ResolveM Registry := do return (← get).registry

def declare (s : ScopeId) (name : String) (tag : TagKind) : ResolveM TypeId := do
  let (id, r) ← ofExcept ((← registry).declare s name tag)
  modify fun z => { z with registry := r }
  pure id

/-- Completing a forward declaration allocates nothing, which is how it is told in the log. -/
def define (s : ScopeId) (name : String) (d : Definition) : ResolveM TypeId := do
  let before ← registry
  let (id, r) ← ofExcept (before.define s name d)
  if r.size = before.size then
    note .trace "registry::registry" ("completing forward declaration of " ++ name)
  modify fun z => { z with registry := r }
  pure id

/-- The scope inside a record: its own if it has a name, else the one around it. -/
def bodyScope (s : ScopeId) (id : TypeId) : ResolveM ScopeId := do
  return ((← registry).body? id).getD s

end ResolveM

open ResolveM (registry bodyScope)

def predeclareEnum (s : ScopeId) (e : EnumDecl) : ResolveM Unit :=
  match e.name with
  | some name => discard (ResolveM.declare s name .enum)
  | none => pure ()

def predeclareTag (s : ScopeId) (tag : AggregateKind) : Option String → ResolveM ScopeId
  | some name => do bodyScope s (← ResolveM.declare s name (.aggregate tag))
  | none => pure s

mutual

def predeclare (s : ScopeId) : Declaration → ResolveM Unit
  | .record r => predeclareRecord s r
  | .forward tag name => discard (ResolveM.declare s name tag.kind)
  | .enum e => predeclareEnum s e
  | .typedef _ target => predeclareDeclarator s target

def predeclareRecord (s : ScopeId) : RecordDecl → ResolveM Unit
  | ⟨tag, name, _, members, _, nested⟩ => do
    let body ← predeclareTag s tag name
    predeclareAll body nested
    predeclareMembers body members

def predeclareDeclarator (s : ScopeId) : Declarator → ResolveM Unit
  | .record r => predeclareRecord s r
  | .enum e => predeclareEnum s e
  | .pointer pointee => predeclareDeclarator s pointee
  | .array element _ => predeclareDeclarator s element
  | _ => pure ()

def predeclareAll (s : ScopeId) : List Declaration → ResolveM Unit
  | [] => pure ()
  | d :: ds => do
    predeclare s d
    predeclareAll s ds

def predeclareMembers (s : ScopeId) : List MemberDecl → ResolveM Unit
  | [] => pure ()
  | ⟨_, type, _⟩ :: xs => do
    predeclareDeclarator s type
    predeclareMembers s xs

end

def underlyingOf (spelling : String) : Except LayoutError Fundamental :=
  match Fundamental.ofSpelling? spelling with
  | some kind =>
    if kind.isIntegral then .ok kind
    else .error (.unknownType ("enum underlying type " ++ LayoutError.ticked spelling))
  | none => .error (.unknownType ("enum underlying type " ++ LayoutError.ticked spelling))

def EnumDecl.type (e : EnumDecl) : Except LayoutError EnumType :=
  match e.underlying with
  | some spelling => (underlyingOf spelling).map fun kind => ⟨e.name, kind⟩
  | none => .ok ⟨e.name, .int⟩

def resolveEnum (s : ScopeId) (e : EnumDecl) : ResolveM Descriptor := do
  let type ← ofExcept e.type
  match e.name with
  | some name => return .named (← ResolveM.define s name (.enum type))
  | none => return .enum type

/-- A name is an entry if one is found, and else may spell a fundamental type. -/
def Registry.resolveName (r : Registry) (s : ScopeId) (name : String) :
    Except LayoutError Descriptor :=
  match r.find s name with
  | .ok id => .ok (.named id)
  | .error e =>
    match Fundamental.ofSpelling? name with
    | some kind => .ok (.fundamental kind)
    | none => .error e

def Registry.resolveBase (r : Registry) (s : ScopeId) (b : BaseDecl) :
    Except LayoutError BaseSpec := do
  let id ← r.find s b.name
  match r.strip (.named id) with
  | .named target =>
    match ← r.definition target with
    | .aggregate body =>
      if body.kind.isUnion then .error (notAClass b.name) else .ok ⟨.named id, b.isVirtual⟩
    | _ => .error (notAClass b.name)
  | _ => .error (notAClass b.name)
where
  notAClass (name : String) : LayoutError :=
    .unknownType ("base class " ++ LayoutError.ticked name)

def resolveBases (s : ScopeId) : List BaseDecl → ResolveM (List BaseSpec)
  | [] => pure []
  | b :: bs => do
    let spec ← ofExcept ((← registry).resolveBase s b)
    return spec :: (← resolveBases s bs)

/-- The record that a member of this type would hold by value, looking through arrays and typedefs
once more after the first typedef. -/
def Registry.heldBy (r : Registry) (d : Descriptor) : Descriptor :=
  r.strip (r.strip d.innermost).innermost

def Registry.cycleIn (r : Registry) (defining : List TypeId) (d : Descriptor) (member : String) :
    Except LayoutError Unit :=
  match d with
  | .named id =>
    if defining.contains id then .error (.cyclicAggregate (r.qualifiedName id) member) else .ok ()
  | _ => .ok ()

def Registry.requireComplete (r : Registry) (d : Descriptor) (member : String) :
    Except LayoutError Unit :=
  match r.strip d with
  | .named id =>
    match r.definition id with
    | .ok _ => .ok ()
    | .error e => .error (e.inMember member)
  | .fundamental .void => .error (.incompleteType "void" (some member))
  | _ => .ok ()

/-- A member neither holds a record that is being defined nor, outside arrays, an incomplete
type. -/
def Registry.checkMember (r : Registry) (defining : List TypeId) (d : Descriptor)
    (member : String) : Except LayoutError Unit := do
  r.cycleIn defining (r.heldBy d) member
  if d.isArray then pure () else r.requireComplete d member

def openRecord (s : ScopeId) (tag : AggregateKind) :
    Option String → ResolveM (Option TypeId × ScopeId)
  | none => pure (none, s)
  | some name => do
    let id ← ResolveM.declare s name (.aggregate tag)
    let r ← registry
    if (r.definition? id).isSome then throw (LayoutError.duplicateDefinition (r.qualifiedName id))
    else return (some id, ← bodyScope s id)

def closeRecord (s : ScopeId) (body : Aggregate) : Option String → ResolveM Descriptor
  | none => pure (.aggregate body)
  | some name => do
    let id ← ResolveM.define s name (.aggregate body)
    ResolveM.trace ("defined " ++ (← registry).displayName id)
    pure (.named id)

def Descriptor.id? : Descriptor → Option TypeId
  | .named id => some id
  | _ => none

def Declaration.label (d : Declaration) : String := d.name?.getD "(anonymous)"

/-- A failing declaration inside a record is set aside. -/
def setAside {α : Type} (d : Declaration) (x : ResolveM α) : ResolveM Unit :=
  tryCatch (discard x) fun e => do
    ResolveM.warn ("nested declaration " ++ d.label ++ " failed: " ++ e.message)
    modify fun z => { z with deferred := z.deferred ++ [e] }

mutual

def resolveDeclaration (defining : List TypeId) (s : ScopeId) :
    Declaration → ResolveM (Option TypeId)
  | .record r => do return (← resolveRecord defining s r).id?
  | .forward tag name => do return some (← ResolveM.declare s name tag.kind)
  | .enum e => do return (← resolveEnum s e).id?
  | .typedef name target => do
    let type ← resolveDeclarator defining s target
    ResolveM.trace ("typedef " ++ name ++ " = " ++ (← registry).typeName type)
    return some (← ResolveM.define s name (.typedef type))

def resolveRecord (defining : List TypeId) (s : ScopeId) : RecordDecl → ResolveM Descriptor
  | ⟨tag, name, bases, members, functions, nested⟩ => do
    let (id, body) ← openRecord s tag name
    let inside := id.toList ++ defining
    resolveNested inside body nested
    let specs ← resolveBases s bases
    let resolved ← resolveMembers inside body members
    closeRecord s ⟨tag, name, resolved, specs, functions⟩ name

def resolveDeclarator (defining : List TypeId) (s : ScopeId) : Declarator → ResolveM Descriptor
  | .fundamental spelling =>
    match Fundamental.ofSpelling? spelling with
    | some kind => pure (.fundamental kind)
    | none => throw (LayoutError.unknownType spelling)
  | .named name => do ofExcept ((← registry).resolveName s name)
  | .pointer pointee => do return .pointer (← resolveDeclarator defining s pointee)
  | .array element count => do return .array (← resolveDeclarator defining s element) count
  | .record r => resolveRecord defining s r
  | .enum e => resolveEnum s e

def resolveNested (defining : List TypeId) (s : ScopeId) : List Declaration → ResolveM Unit
  | [] => pure ()
  | d :: ds => do
    setAside d (resolveDeclaration defining s d)
    resolveNested defining s ds

def resolveMembers (defining : List TypeId) (s : ScopeId) : List MemberDecl → ResolveM (List Member)
  | [] => pure []
  | ⟨name, type, width⟩ :: xs => do
    let d ← tryCatch (resolveDeclarator defining s type) fun e => throw (e.inMember name)
    ofExcept ((← registry).checkMember defining d name)
    return ⟨name, d, width⟩ :: (← resolveMembers defining s xs)

end

structure Outcome where
  /-- The ids of the top-level declarations that resolved, in source order. -/
  resolved : List TypeId := []
  errors : List LayoutError := []
deriving DecidableEq, Repr

namespace Outcome

def isClean (o : Outcome) : Bool := o.errors.isEmpty

end Outcome

namespace Resolution

def log (z : Resolution) (level : Log.Level) (message : String) : Resolution :=
  { z with journal := z.journal.push ⟨level, "resolver::resolver", message⟩ }

def predeclareStep (d : Declaration) (o : Outcome) (z : Resolution) : Outcome × Resolution :=
  match (predeclare .global d).run z with
  | (.ok _, z) => (o, z)
  | (.error e, z) =>
    ({ o with errors := o.errors ++ [e] },
      z.log .warn ("forward declaration failed: " ++ e.message))

def predeclarePass : List Declaration → Outcome → Resolution → Outcome × Resolution
  | [], o, z => (o, z)
  | d :: ds, o, z =>
    let (o, z) := predeclareStep d o z
    predeclarePass ds o z

/-- The errors set aside inside a declaration follow the error of the declaration itself. -/
def collectDeferred (o : Outcome) (z : Resolution) : Outcome × Resolution :=
  ({ o with errors := o.errors ++ z.deferred }, { z with deferred := [] })

def resolveStep (d : Declaration) (o : Outcome) (z : Resolution) : Outcome × Resolution :=
  match (resolveDeclaration [] .global d).run z with
  | (.ok id?, z) => collectDeferred { o with resolved := o.resolved ++ id?.toList } z
  | (.error e, z) =>
    collectDeferred { o with errors := o.errors ++ [e] }
      (z.log .warn ("skipping declaration " ++ d.label ++ ": " ++ e.message))

def resolvePass : List Declaration → Outcome → Resolution → Outcome × Resolution
  | [], o, z => (o, z)
  | d :: ds, o, z =>
    let (o, z) := resolveStep d o z
    resolvePass ds o z

def resolveAll (ds : List Declaration) (z : Resolution) : Outcome × Resolution :=
  let (o, z) := predeclarePass ds {} z
  let (o, z) := resolvePass ds o z
  (o, z.log .debug ("resolved " ++ toString o.resolved.length ++ " of " ++ toString ds.length ++
    " declarations (" ++ toString o.errors.length ++ " errors)"))

end Resolution

def SourceUnit.resolve (u : SourceUnit) : Outcome × Resolution :=
  Resolution.resolveAll u.declarations { registry := .withPrelude }

end TypeLayout
