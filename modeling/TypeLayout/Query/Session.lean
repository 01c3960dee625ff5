import TypeLayout.Layout.Cache
import TypeLayout.Layout.Engine
import TypeLayout.Query.Expression
import TypeLayout.Query.Report
import TypeLayout.Source.Resolution
/-! Sessions: queries against generations of a registry. Installing a registry starts the next
generation with an empty cache; the generation before is kept as it was left. -/

namespace TypeLayout

/-- One generation: a registry that is only read, and the layouts computed from it. -/
structure Snapshot where
  registry : Registry
  cache : Cache := {}
  generation : Nat := 0

structure Session where
  current : Snapshot
  retired : List Snapshot := []
  policy : BasePolicy := .itaniumBaseline
  caching : Bool := true
  journal : Array Log.Entry := #[]

abbrev Answer := String × Except LayoutError Report

namespace Registry

def resolveText (r : Registry) (text : String) :
    Except LayoutError (TypeExpression × Descriptor) := do
  let e ← TypeExpression.parse text
  return (e, ← e.resolve r)

def describe? (r : Registry) (d : Descriptor) : Option String :=
  match r.strip d with
  | .fundamental kind => some kind.description
  | _ => none

def reportName (r : Registry) (e : TypeExpression) : Descriptor → String
  | .named id => r.displayName id
  | _ => e.text

end Registry

namespace Session

def ofRegistry (r : Registry) : Session := { current := { registry := r } }

def ofUnit (u : SourceUnit) : Outcome × Session :=
  let (o, z) := u.resolve
  (o, { ofRegistry z.registry with journal := z.journal })

def registry (s : Session) : Registry := s.current.registry

def snapshot? (s : Session) (generation : Nat) : Option Snapshot :=
  (s.current :: s.retired).find? (·.generation == generation)

def env (s : Session) (p : Profile) : LayoutEnv := ⟨s.registry, p.machine, s.policy⟩

def compute {α : Type} (s : Session) (x : DeskM α) : Except LayoutError α × Session :=
  let (a, desk) := x.runOn ⟨s.current.cache, s.caching, s.journal⟩
  (a, { s with current := { s.current with cache := desk.cache }, journal := desk.journal })

def install (s : Session) (r : Registry) : Session :=
  let generation := s.current.generation + 1
  { s with
    current := { registry := r, generation := generation }
    retired := s.current :: s.retired
    journal := s.journal.push
      ⟨.info, "query::session", "installed registry snapshot " ++ toString generation⟩ }

def reload (s : Session) (u : SourceUnit) : Outcome × Session :=
  let (o, z) := u.resolve
  (o, { s with journal := s.journal ++ z.journal }.install z.registry)

def layoutOf (s : Session) (text : String) (p : Profile) : Except LayoutError Layout × Session :=
  match s.registry.resolveText text with
  | .ok (_, d) => s.compute ((s.env p).layoutOf d)
  | .error e => (.error e, s)

def report (s : Session) (text : String) (p : Profile) : Except LayoutError Report × Session :=
  match s.registry.resolveText text with
  | .ok (e, d) =>
    let (l, s) := s.compute ((s.env p).layoutOf d)
    (l.map fun l =>
      Report.ofLayout (s.registry.reportName e d) l p (s.registry.describe? d), s)
  | .error e => (.error e, s)

def reportNamed (s : Session) (id : TypeId) (p : Profile) : Except LayoutError Report × Session :=
  let (l, s) := s.compute ((s.env p).layoutOf (.named id))
  (l.map fun l => Report.ofLayout (s.registry.displayName id) l p none, s)

def reports (p : Profile) : List String → Session → List (Except LayoutError Report) × Session
  | [], s => ([], s)
  | text :: texts, s =>
    let (r, s) := s.report text p
    let (rs, s) := reports p texts s
    (r :: rs, s)

def reportsNamed (p : Profile) : List TypeId → Session → List Answer × Session
  | [], s => ([], s)
  | id :: ids, s =>
    let name := s.registry.qualifiedName id
    let (r, s) := s.reportNamed id p
    let (rs, s) := reportsNamed p ids s
    ((name, r) :: rs, s)

def dump (s : Session) (p : Profile) : List Answer × Session :=
  reportsNamed p s.registry.definedAggregates s

/-- Whether a type is laid out once and then shared: an aggregate behind a name, with stored
layouts. -/
def shares (s : Session) (d : Descriptor) : Bool :=
  s.caching && match s.registry.strip d with
    | .named id => (s.registry.entry? id).any (·.isDefinedAggregate)
    | _ => false

end Session

end TypeLayout
