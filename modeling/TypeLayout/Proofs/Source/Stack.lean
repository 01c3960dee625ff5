import TypeLayout.Proofs.Source.Steps
/-! Resolving with a stack. A resolver keeps the records that are being defined in its state: each is
pushed before its body is resolved and popped behind it, whether the body fails or not. So a step
finds on the stack the records it would be handed, and leaves the stack as it was. -/

namespace TypeLayout

structure Resolver where
  resolution : Resolution
  defining : List TypeId := []

/-- A failed step keeps the stack as well. -/
abbrev ResolverM := ExceptT LayoutError (StateM Resolver)

namespace ResolverM

variable {α : Type}

def lift (x : ResolveM α) : ResolverM α := ExceptT.mk fun w =>
  let (a, z) := x.run w.resolution
  (a, { w with resolution := z })

def defining : ResolverM (List TypeId) := do return (← get).defining

def push (id : Option TypeId) : ResolverM Unit :=
  modify fun w => { w with defining := id.toList ++ w.defining }

def pop (id : Option TypeId) : ResolverM Unit :=
  modify fun w => { w with defining := w.defining.drop id.toList.length }

/-- A step with a record on the stack. Its failure is not passed on before the record is popped. -/
def within (id : Option TypeId) (x : ResolverM α) : ResolverM α := do
  push id
  let a ← ExceptT.lift x.run
  pop id
  ofExcept a

def setAside (d : Declaration) (x : ResolverM α) : ResolverM Unit :=
  tryCatch (discard x) fun e => lift (TypeLayout.setAside d (throw e : ResolveM Unit))

end ResolverM

namespace Resolver

open ResolverM (lift within)

mutual

def resolveDeclaration (s : ScopeId) : Declaration → ResolverM (Option TypeId)
  | .record r => do return (← resolveRecord s r).id?
  | .forward tag name => lift do return some (← ResolveM.declare s name tag.kind)
  | .enum e => lift do return (← resolveEnum s e).id?
  | .typedef name target => do
    let type ← resolveDeclarator s target
    lift do
      ResolveM.trace ("typedef " ++ name ++ " = " ++ (← ResolveM.registry).typeName type)
      return some (← ResolveM.define s name (.typedef type))

def resolveRecord (s : ScopeId) : RecordDecl → ResolverM Descriptor
  | ⟨tag, name, bases, members, functions, nested⟩ => do
    let (id, body) ← lift (openRecord s tag name)
    let aggregate ← within id do
      resolveNested body nested
      let specs ← lift (resolveBases s bases)
      let resolved ← resolveMembers body members
      return ⟨tag, name, resolved, specs, functions⟩
    lift (closeRecord s aggregate name)

def resolveDeclarator (s : ScopeId) : Declarator → ResolverM Descriptor
  | .fundamental spelling =>
    match Fundamental.ofSpelling? spelling with
    | some kind => pure (.fundamental kind)
    | none => throw (LayoutError.unknownType spelling)
  | .named name => lift do ofExcept ((← ResolveM.registry).resolveName s name)
  | .pointer pointee => do return .pointer (← resolveDeclarator s pointee)
  | .array element count => do return .array (← resolveDeclarator s element) count
  | .record r => resolveRecord s r
  | .enum e => lift (resolveEnum s e)

def resolveNested (s : ScopeId) : List Declaration → ResolverM Unit
  | [] => pure ()
  | d :: ds => do
    ResolverM.setAside d (resolveDeclaration s d)
    resolveNested s ds

def resolveMembers (s : ScopeId) : List MemberDecl → ResolverM (List Member)
  | [] => pure []
  | ⟨name, type, width⟩ :: xs => do
    let d ← tryCatch (resolveDeclarator s type) fun e => throw (e.inMember name)
    let defining ← ResolverM.defining
    lift (ofExcept ((← lift ResolveM.registry).checkMember defining d name))
    return ⟨name, d, width⟩ :: (← resolveMembers s xs)

end

end Resolver

/-- With these records on the stack the step does what the other one does, and leaves them there. -/
def Balanced {α : Type} (ids : List TypeId) (y : ResolverM α) (x : ResolveM α) : Prop :=
  ∀ z : Resolution, y.run ⟨z, ids⟩ = ((x.run z).1, ⟨(x.run z).2, ids⟩)

namespace Balanced

variable {α β : Type} {ids : List TypeId} {y : ResolverM α} {x : ResolveM α}

theorem lift (x : ResolveM α) : Balanced ids (ResolverM.lift x) x := fun _ => rfl

theorem pure (a : α) : Balanced ids (pure a) (pure a) := fun _ => rfl

theorem throw (e : LayoutError) : Balanced ids (throw e : ResolverM α) (throw e) := fun _ => rfl

theorem bind (h : Balanced ids y x) {g : α → ResolverM β} {f : α → ResolveM β}
    (hf : ∀ a, Balanced ids (g a) (f a)) : Balanced ids (y >>= g) (x >>= f) := by
  intro z
  have hy := h z
  rcases hrun : x.run z with ⟨e | a, z₁⟩
  · rw [hrun] at hy
    rw [run_bind_error hrun, run_bind_error hy]
  · rw [hrun] at hy
    rw [run_bind_ok hrun, run_bind_ok hy]
    exact hf a z₁

theorem tryCatch (h : Balanced ids y x) {g : LayoutError → ResolverM α}
    {f : LayoutError → ResolveM α} (hf : ∀ e, Balanced ids (g e) (f e)) :
    Balanced ids (tryCatch y g) (tryCatch x f) := by
  intro z
  have hy := h z
  rcases hrun : x.run z with ⟨e | a, z₁⟩
  · rw [hrun] at hy
    rw [run_tryCatch_error hrun, run_tryCatch_error hy]
    exact hf e z₁
  · rw [hrun] at hy
    rw [run_tryCatch_ok hrun, run_tryCatch_ok hy]

theorem defining {g : List TypeId → ResolverM α} (h : Balanced ids (g ids) x) :
    Balanced ids (ResolverM.defining >>= g) x := by
  intro z
  rw [run_bind_ok (x := ResolverM.defining) rfl]
  exact h z

theorem run_pop (id : Option TypeId) (ids : List TypeId) (z : Resolution) :
    (ResolverM.pop id).run ⟨z, id.toList ++ ids⟩ = (.ok (), ⟨z, ids⟩) := by
  have hdrop : (id.toList ++ ids).drop id.toList.length = ids := List.drop_left
  change (Except.ok (), (⟨z, (id.toList ++ ids).drop id.toList.length⟩ : Resolver)) = _
  rw [hdrop]

theorem within {id : Option TypeId} (h : Balanced (id.toList ++ ids) y x) :
    Balanced ids (ResolverM.within id y) x := by
  intro z
  have hpush : (ResolverM.push id).run ⟨z, ids⟩ = (.ok (), ⟨z, id.toList ++ ids⟩) := rfl
  have hbody : (ExceptT.lift y.run : ResolverM _).run ⟨z, id.toList ++ ids⟩ =
      (.ok (x.run z).1, ⟨(x.run z).2, id.toList ++ ids⟩) := by
    change (Except.ok (y.run ⟨z, id.toList ++ ids⟩).1, (y.run ⟨z, id.toList ++ ids⟩).2) = _
    rw [h z]
  unfold ResolverM.within
  rw [run_bind_ok hpush, run_bind_ok hbody, run_bind_ok (run_pop id ids _), run_ofExcept]

theorem setAside (h : Balanced ids y x) (d : Declaration) :
    Balanced ids (ResolverM.setAside d y) (setAside d x) := by
  have hdiscard : Balanced ids (discard y) (discard x) := by
    rw [discard_eq_bind, discard_eq_bind]
    exact h.bind fun _ => .pure ()
  exact hdiscard.tryCatch fun e => .lift _

end Balanced

mutual

theorem resolveDeclaration_balanced (d : Declaration) (ids : List TypeId) (s : ScopeId) :
    Balanced ids (Resolver.resolveDeclaration s d) (resolveDeclaration ids s d) := by
  cases d with
  | record r => exact (resolveRecord_balanced r ids s).bind fun _ => .pure _
  | forward tag name =>
    rw [Resolver.resolveDeclaration, resolveDeclaration]
    exact .lift _
  | enum e =>
    rw [Resolver.resolveDeclaration, resolveDeclaration]
    exact .lift _
  | typedef name target => exact (resolveDeclarator_balanced target ids s).bind fun _ => .lift _

theorem resolveRecord_balanced (r : RecordDecl) (ids : List TypeId) (s : ScopeId) :
    Balanced ids (Resolver.resolveRecord s r) (resolveRecord ids s r) := by
  rw [resolveRecord_eq]
  obtain ⟨tag, name, bases, members, functions, nested⟩ := r
  refine (Balanced.lift _).bind fun p => (Balanced.within ?_).bind fun _ => .lift _
  refine (resolveNested_balanced nested _ p.2).bind fun _ => (Balanced.lift _).bind fun _ => ?_
  exact (resolveMembers_balanced members _ p.2).bind fun _ => .pure _

theorem resolveDeclarator_balanced (d : Declarator) (ids : List TypeId) (s : ScopeId) :
    Balanced ids (Resolver.resolveDeclarator s d) (resolveDeclarator ids s d) := by
  cases d with
  | fundamental spelling =>
    rw [Resolver.resolveDeclarator, resolveDeclarator]
    cases Fundamental.ofSpelling? spelling with
    | some kind => exact .pure _
    | none => exact .throw _
  | named name => exact .lift _
  | pointer pointee => exact (resolveDeclarator_balanced pointee ids s).bind fun _ => .pure _
  | array element count => exact (resolveDeclarator_balanced element ids s).bind fun _ => .pure _
  | record r => exact resolveRecord_balanced r ids s
  | enum e => exact .lift _

theorem resolveNested_balanced (ds : List Declaration) (ids : List TypeId) (s : ScopeId) :
    Balanced ids (Resolver.resolveNested s ds) (resolveNested ids s ds) := by
  cases ds with
  | nil => exact .pure ()
  | cons d ds =>
    exact ((resolveDeclaration_balanced d ids s).setAside d).bind
      fun _ => resolveNested_balanced ds ids s

theorem resolveMembers_balanced (xs : List MemberDecl) (ids : List TypeId) (s : ScopeId) :
    Balanced ids (Resolver.resolveMembers s xs) (resolveMembers ids s xs) := by
  cases xs with
  | nil => exact .pure []
  | cons x xs =>
    obtain ⟨name, type, width⟩ := x
    refine ((resolveDeclarator_balanced type ids s).tryCatch fun _ => .throw _).bind
      fun _ => .defining ?_
    refine (Balanced.lift _).bind fun _ => (Balanced.lift _).bind fun _ => ?_
    exact (resolveMembers_balanced xs ids s).bind fun _ => .pure _

end

end TypeLayout
