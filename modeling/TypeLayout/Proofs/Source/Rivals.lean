import TypeLayout.Layout.Engine
import TypeLayout.Profile
import TypeLayout.Proofs.Source.Lockstep
import TypeLayout.Proofs.Source.Sites
/-! Declarations that are refused because their name is a tag of another kind already. In the second
pass such a rival changes nothing but the errors, wherever it stands. In the first pass it ends its
whole top-level declaration, so the tags behind it are not known early. -/

namespace TypeLayout

open Registry

namespace Registry

variable {r r' : Registry} {s : ScopeId} {d : Declaration}

/-- The name that a declaration binds is a tag of another kind already. -/
def Refuses (r : Registry) (s : ScopeId) (d : Declaration) : Prop :=
  ∃ name tag id bound, d.name? = some name ∧ d.tag? = some tag ∧ r.boundTag? s name = some id ∧
    r.tagOf? id = some bound ∧ bound.compatible tag = false

theorem Refuses.growsTo (h : r.Refuses s d) (grows : r.GrowsTo r') : r'.Refuses s d := by
  obtain ⟨name, tag, id, bound, named, tagged, found, kind, other⟩ := h
  obtain ⟨bound', kind', same⟩ := grows.tagOf? kind
  refine ⟨name, tag, id, bound', named, tagged, grows.boundTag? found, kind', ?_⟩
  refine Bool.eq_false_iff.mpr fun agrees => Bool.eq_false_iff.mp other ?_
  exact TagKind.compatible_trans (TagKind.compatible_comm .. ▸ same) agrees

section

variable {name : String} {tag bound : TagKind} {id : TypeId} (found : r.boundTag? s name = some id)
  (kind : r.tagOf? id = some bound) (other : bound.compatible tag = false)
include found kind other

theorem declare_refused : ∃ e, r.declare s name tag = .error e := by
  refine ⟨.duplicateDefinition (r.qualifiedName id), ?_⟩
  simp [declare, found, kind, other]

theorem define_refused {x : Definition} (tagged : x.tag? = some tag) :
    ∃ e, r.define s name x = .error e := by
  refine ⟨.duplicateDefinition (r.qualifiedName id), ?_⟩
  have rival : r.rival? s name x = some id := by
    cases x with
    | typedef t => cases tagged
    | _ => exact found
  have incomplete : r.completes id x = false := by
    obtain ⟨e, entry, kind⟩ := Option.bind_eq_some_iff.mp kind
    cases state : e.state with
    | defined y => simp [completes, entry, state]
    | forward t =>
      obtain rfl : t = bound := by simpa [Entry.tag?, EntryState.tag?, state] using kind
      simp [completes, entry, state, tagged, other]
  simp [define, rival, incomplete]

end

end Registry

def Fails {α : Type} (x : ResolveM α) (z : Resolution) : Prop :=
  ∃ e w, x.run z = (.error e, w) ∧ w.registry = z.registry

namespace Fails

variable {α β : Type} {x : ResolveM α} {z : Resolution}

theorem bind (h : Fails x z) (f : α → ResolveM β) : Fails (x >>= f) z := by
  obtain ⟨e, w, run, same⟩ := h
  exact ⟨e, w, run_bind_error run, same⟩

theorem discard (h : Fails x z) : Fails (discard x) z := by
  rw [discard_eq_bind]
  exact h.bind _

theorem check {y : Except LayoutError β} (h : ∃ e, y = .error e) (f : β → ResolveM α) :
    Fails (MonadExcept.ofExcept y >>= f) z := by
  obtain ⟨e, rfl⟩ := h
  exact ⟨e, z, run_bind_error (run_ofExcept _ z), rfl⟩

theorem ask {f : Registry → ResolveM α} (h : Fails (f z.registry) z) :
    Fails (ResolveM.registry >>= f) z := by
  obtain ⟨e, w, run, same⟩ := h
  exact ⟨e, w, (run_bind_ok rfl).trans run, same⟩

theorem declare {s : ScopeId} {name : String} {tag : TagKind}
    (h : ∃ e, z.registry.declare s name tag = .error e) : Fails (ResolveM.declare s name tag) z :=
  ask (check h _)

theorem define {s : ScopeId} {name : String} {x : Definition}
    (h : ∃ e, z.registry.define s name x = .error e) : Fails (ResolveM.define s name x) z :=
  ask (check h _)

end Fails

section

variable {z : Resolution} {s : ScopeId} {d : Declaration}

theorem predeclare_fails (h : z.registry.Refuses s d) : Fails (predeclare s d) z := by
  obtain ⟨name, tag, id, bound, named, tagged, found, kind, other⟩ := h
  have declared := Fails.declare (declare_refused found kind other)
  cases d with
  | record a =>
    obtain ⟨_, _, _, _, _, _⟩ := a
    cases named
    cases tagged
    exact (declared.bind _).bind _
  | forward _ _ =>
    cases named
    cases tagged
    exact declared.discard
  | enum e =>
    cases tagged
    rw [predeclare, predeclareEnum, show e.name = some name from named]
    exact declared.discard
  | typedef _ _ => cases tagged

theorem resolveDeclaration_fails (h : z.registry.Refuses s d) (defining : List TypeId) :
    Fails (resolveDeclaration defining s d) z := by
  obtain ⟨name, tag, id, bound, named, tagged, found, kind, other⟩ := h
  have declared := Fails.declare (declare_refused found kind other)
  cases d with
  | record a =>
    obtain ⟨_, _, _, _, _, _⟩ := a
    cases named
    cases tagged
    exact ((declared.bind _).bind _).bind _
  | forward _ _ =>
    cases named
    cases tagged
    exact declared.bind _
  | enum e =>
    cases tagged
    refine Fails.bind ?_ _
    rw [resolveEnum, show e.name = some name from named]
    cases type : e.type with
    | error reason => exact Fails.check ⟨reason, rfl⟩ _
    | ok t =>
      have defined := Fails.define (define_refused found kind other (x := .enum t) rfl)
      obtain ⟨reason, w, run, same⟩ := defined.bind fun id => pure (Descriptor.named id)
      exact ⟨reason, w, (run_bind_ok (run_ofExcept _ z)).trans run, same⟩
  | typedef _ _ => cases tagged

end

/-! In the first pass what fails ends the declaration around it, so only a rival with nothing behind
it does no harm. -/

theorem predeclareAll_append (s : ScopeId) (front back : List Declaration) :
    predeclareAll s (front ++ back) = (do predeclareAll s front; predeclareAll s back) := by
  induction front with
  | nil => rfl
  | cons d front ih =>
    change (do predeclare s d; predeclareAll s (front ++ back)) = (do
      (do predeclare s d; predeclareAll s front)
      predeclareAll s back)
    rw [ih, bind_assoc]

theorem predeclareAll_last {z : Resolution} {s : ScopeId} {d : Declaration} {ds : List Declaration}
    (refused : ((predeclareAll s ds).run z).2.registry.Refuses s d) :
    ((predeclareAll s (ds ++ [d])).run z).2.registry =
      ((predeclareAll s ds).run z).2.registry := by
  rw [predeclareAll_append]
  rcases run : (predeclareAll s ds).run z with ⟨_ | _, w⟩
  · -- an earlier failure ends the pass before the rival is reached
    rw [run_bind_error run]
  · rw [run] at refused
    obtain ⟨e, w', fails, same⟩ := (predeclare_fails refused).bind fun _ => predeclareAll s []
    rw [run_bind_ok run]
    exact (congrArg (·.2.registry) fails).trans same

theorem predeclareRecord_last {z : Resolution} {s body : ScopeId} {tag : AggregateKind}
    {name : Option String} {bases : List BaseDecl} {functions : List String}
    {nested : List Declaration} {d : Declaration}
    (opened : ((predeclareTag s tag name).run z).1 = .ok body)
    (refused : Refuses
      ((predeclareRecord s ⟨tag, name, bases, [], functions, nested⟩).run z).2.registry body d) :
    ((predeclareRecord s ⟨tag, name, bases, [], functions, nested ++ [d]⟩).run z).2.registry =
      ((predeclareRecord s ⟨tag, name, bases, [], functions, nested⟩).run z).2.registry := by
  have memberless (ds : List Declaration) :
      (predeclareRecord s ⟨tag, name, bases, [], functions, ds⟩).run z =
        (predeclareAll body ds).run ((predeclareTag s tag name).run z).2 := by
    refine (run_bind_ok (Prod.ext opened rfl)).trans ?_
    change (predeclareAll body ds >>= fun _ => pure ()).run _ = _
    rw [bind_pure]
  rw [memberless] at refused
  rw [memberless, memberless]
  exact predeclareAll_last refused

/-! Rivals among other declarations. -/

mutual

/-- The same declaration, perhaps with further ones inside that `r` refuses where they stand. -/
inductive Declaration.Joined (r : Registry) : ScopeId → Declaration → Declaration → Prop
  | same {s : ScopeId} {d : Declaration} : Declaration.Joined r s d d
  | record {s : ScopeId} {a a' : RecordDecl} :
    RecordDecl.Joined r s a a' → Declaration.Joined r s (.record a) (.record a')
  | typedef {s : ScopeId} {name : String} {t t' : Declarator} :
    Declarator.Joined r s t t' → Declaration.Joined r s (.typedef name t) (.typedef name t')

inductive Declarator.Joined (r : Registry) : ScopeId → Declarator → Declarator → Prop
  | same {s : ScopeId} {t : Declarator} : Declarator.Joined r s t t
  | pointer {s : ScopeId} {t t' : Declarator} :
    Declarator.Joined r s t t' → Declarator.Joined r s (.pointer t) (.pointer t')
  | array {s : ScopeId} {t t' : Declarator} {count : Nat} :
    Declarator.Joined r s t t' → Declarator.Joined r s (.array t count) (.array t' count)
  | record {s : ScopeId} {a a' : RecordDecl} :
    RecordDecl.Joined r s a a' → Declarator.Joined r s (.record a) (.record a')

inductive RecordDecl.Joined (r : Registry) : ScopeId → RecordDecl → RecordDecl → Prop
  | inside {s t : ScopeId} {tag : AggregateKind} {name : Option String} {bases : List BaseDecl}
      {members members' : List MemberDecl} {functions : List String}
      {nested nested' : List Declaration} :
    r.inside? s name = some t → DeclarationsJoined r t nested nested' →
      MembersJoined r t members members' →
      RecordDecl.Joined r s ⟨tag, name, bases, members, functions, nested⟩
        ⟨tag, name, bases, members', functions, nested'⟩

inductive MembersJoined (r : Registry) : ScopeId → List MemberDecl → List MemberDecl → Prop
  | nil {s : ScopeId} : MembersJoined r s [] []
  | cons {s : ScopeId} {name : String} {t t' : Declarator} {width : Option Nat}
      {xs xs' : List MemberDecl} :
    Declarator.Joined r s t t' → MembersJoined r s xs xs' →
      MembersJoined r s (⟨name, t, width⟩ :: xs) (⟨name, t', width⟩ :: xs')

inductive DeclarationsJoined (r : Registry) :
    ScopeId → List Declaration → List Declaration → Prop
  | nil {s : ScopeId} : DeclarationsJoined r s [] []
  | cons {s : ScopeId} {d d' : Declaration} {ds ds' : List Declaration} :
    Declaration.Joined r s d d' → DeclarationsJoined r s ds ds' →
      DeclarationsJoined r s (d :: ds) (d' :: ds')
  | rival {s : ScopeId} {d : Declaration} {ds ds' : List Declaration} :
    r.Refuses s d → DeclarationsJoined r s ds ds' → DeclarationsJoined r s ds (d :: ds')

end

theorem DeclarationsJoined.refl (r : Registry) (s : ScopeId) (ds : List Declaration) :
    DeclarationsJoined r s ds ds := by
  induction ds with
  | nil => exact .nil
  | cons d ds ih => exact .cons .same ih

theorem DeclarationsJoined.append {r : Registry} {s : ScopeId} (front : List Declaration)
    {ds ds' : List Declaration} (h : DeclarationsJoined r s ds ds') :
    DeclarationsJoined r s (front ++ ds) (front ++ ds') := by
  induction front with
  | nil => exact h
  | cons d front ih => exact .cons .same ih

/-- What fails and is set aside is as if it were not there. -/
theorem Lockstep.after_setAside {α β : Type} {r : Registry} {x : ResolveM α} {y : ResolveM β}
    {f : Unit → ResolveM β} {Q : β → Prop} {d : Declaration}
    (fails : ∀ z : Resolution, r.GrowsTo z.registry → Fails x z) (h : Lockstep r y (f ()) Q) :
    Lockstep r y (TypeLayout.setAside d x >>= f) Q := by
  intro z z' same grows
  obtain ⟨e, w, run, kept⟩ := (fails z' (same ▸ grows)).discard
  obtain ⟨w', caught, kept'⟩ : ∃ w', (TypeLayout.setAside d x).run z' = (.ok (), w') ∧
      w'.registry = w.registry := ⟨_, (run_tryCatch_error run).trans rfl, rfl⟩
  rw [run_bind_ok caught]
  exact h z w' (kept'.trans (kept.trans same)) grows

-- By recursion on the side with the rivals: it is the one that every case makes smaller.
mutual

theorem resolveDeclaration_joined {r : Registry} {s : ScopeId} {d d' : Declaration}
    (h : d.Joined r s d') (defining : List TypeId) :
    Lockstep r (resolveDeclaration defining s d) (resolveDeclaration defining s d')
      fun _ => True := by
  cases h with
  | same => exact resolveDeclaration_lockstep r defining s d
  | record h => exact (resolveRecord_joined h defining).bind fun _ _ => .pure trivial
  | typedef h =>
    refine (resolveDeclarator_joined h defining).bind fun _ _ => ?_
    refine Lockstep.registry.bind fun _ _ => Lockstep.note.bind fun _ _ => ?_
    exact (Lockstep.define r s _ _).bind fun _ _ => .pure trivial
termination_by sizeOf d'

theorem resolveRecord_joined {r : Registry} {s : ScopeId} {a a' : RecordDecl}
    (h : a.Joined r s a') (defining : List TypeId) :
    Lockstep r (resolveRecord defining s a) (resolveRecord defining s a') fun _ => True := by
  cases h with
  | inside entered nested members =>
    refine (openRecord_lockstep r s _ _).bind fun p found => ?_
    obtain rfl := found _ entered
    refine (resolveNested_joined nested _).bind fun _ _ => ?_
    refine (resolveBases_lockstep r s _).bind fun _ _ => ?_
    refine (resolveMembers_joined members _).bind fun _ _ => ?_
    exact closeRecord_lockstep r s _ _
termination_by sizeOf a'

theorem resolveDeclarator_joined {r : Registry} {s : ScopeId} {t t' : Declarator}
    (h : t.Joined r s t') (defining : List TypeId) :
    Lockstep r (resolveDeclarator defining s t) (resolveDeclarator defining s t')
      fun _ => True := by
  cases h with
  | same => exact resolveDeclarator_lockstep r defining s t
  | pointer h => exact (resolveDeclarator_joined h defining).bind fun _ _ => .pure trivial
  | array h => exact (resolveDeclarator_joined h defining).bind fun _ _ => .pure trivial
  | record h => exact resolveRecord_joined h defining
termination_by sizeOf t'

theorem resolveNested_joined {r : Registry} {s : ScopeId} {ds ds' : List Declaration}
    (h : DeclarationsJoined r s ds ds') (defining : List TypeId) :
    Lockstep r (resolveNested defining s ds) (resolveNested defining s ds') fun _ => True := by
  cases h with
  | nil => exact .pure trivial
  | cons first rest =>
    refine ((resolveDeclaration_joined first defining).setAside r _ _).bind fun _ _ => ?_
    exact resolveNested_joined rest defining
  | @rival _ d _ ds' refused rest =>
    have joined := resolveNested_joined rest defining
    exact .after_setAside (f := fun _ => resolveNested defining s ds')
      (fun z grows => resolveDeclaration_fails (refused.growsTo grows) defining) joined
termination_by sizeOf ds'

theorem resolveMembers_joined {r : Registry} {s : ScopeId} {xs xs' : List MemberDecl}
    (h : MembersJoined r s xs xs') (defining : List TypeId) :
    Lockstep r (resolveMembers defining s xs) (resolveMembers defining s xs') fun _ => True := by
  cases h with
  | nil => exact .pure trivial
  | cons first rest =>
    refine ((resolveDeclarator_joined first defining).tryCatch fun _ => .throw _).bind
      fun _ _ => ?_
    refine Lockstep.registry.bind fun _ _ => (Lockstep.ofExcept fun _ eq => eq).bind fun _ _ => ?_
    exact (resolveMembers_joined rest defining).bind fun _ _ => .pure trivial
termination_by sizeOf xs'

end

namespace Resolution

variable {r : Registry} {z z' : Resolution}

/-! The first pass. -/

theorem predeclareStep_of_run {d : Declaration} {a : Except LayoutError Unit} (o : Outcome)
    (run : (predeclare .global d).run z = (a, z')) :
    (predeclareStep d o z).1.resolved = o.resolved ∧
      (predeclareStep d o z).2.registry = z'.registry := by
  rw [predeclareStep, run]
  cases a <;> exact ⟨rfl, rfl⟩

theorem predeclarePass_resolved (ds : List Declaration) (o : Outcome) (z : Resolution) :
    (predeclarePass ds o z).1.resolved = o.resolved := by
  induction ds generalizing o z with
  | nil => rfl
  | cons d ds ih => exact (ih ..).trans (predeclareStep_of_run o rfl).1

theorem predeclarePass_lockstep (same : z'.registry = z.registry) (grows : r.GrowsTo z.registry)
    (ds : List Declaration) (o o' : Outcome) :
    (predeclarePass ds o' z').2.registry = (predeclarePass ds o z).2.registry ∧
      r.GrowsTo (predeclarePass ds o z).2.registry := by
  induction ds generalizing o o' z z' with
  | nil => exact ⟨same, grows⟩
  | cons d ds ih =>
    obtain ⟨a, w, w', run, run', same, grows, -⟩ := predeclare_lockstep r .global d z z' same grows
    have step := (predeclareStep_of_run o run).2
    have step' := (predeclareStep_of_run o' run').2
    exact ih (step'.trans (same.trans step.symm)) (step ▸ grows) _ _

theorem predeclarePass_cons (d : Declaration) (ds : List Declaration) (o : Outcome) :
    predeclarePass (d :: ds) o z =
      predeclarePass ds (predeclareStep d o z).1 (predeclareStep d o z).2 :=
  rfl

theorem predeclarePass_append (front back : List Declaration) (o : Outcome) (z : Resolution) :
    predeclarePass (front ++ back) o z =
      predeclarePass back (predeclarePass front o z).1 (predeclarePass front o z).2 := by
  induction front generalizing o z with
  | nil => rfl
  | cons d front ih => exact ih ..

theorem predeclarePass_rival {front back : List Declaration} {d : Declaration}
    (refused : (predeclarePass front {} z).2.registry.Refuses .global d) :
    (predeclarePass (front ++ d :: back) {} z).2.registry =
      (predeclarePass (front ++ back) {} z).2.registry := by
  rw [predeclarePass_append, predeclarePass_append]
  obtain ⟨e, w, run, kept⟩ := predeclare_fails refused
  have step := (predeclareStep_of_run (predeclarePass front {} z).1 run).2
  exact (predeclarePass_lockstep (step.trans kept) (.refl _) back ..).1

/-! The second pass. -/

theorem resolveStep_of_run {d : Declaration} {a : Except LayoutError (Option TypeId)} (o : Outcome)
    (run : (resolveDeclaration [] .global d).run z = (a, z')) :
    (resolveStep d o z).1.resolved = o.resolved ++ (a.toOption.bind id).toList ∧
      (resolveStep d o z).2.registry = z'.registry := by
  rw [resolveStep, run]
  cases a with
  | error e => exact ⟨(List.append_nil _).symm, rfl⟩
  | ok found => exact ⟨rfl, rfl⟩

theorem resolvePass_cons (d : Declaration) (ds : List Declaration) (o : Outcome) :
    resolvePass (d :: ds) o z = resolvePass ds (resolveStep d o z).1 (resolveStep d o z).2 :=
  rfl

theorem resolvePass_joined {ds ds' : List Declaration} {o o' : Outcome}
    (joined : DeclarationsJoined r .global ds ds') (same : z'.registry = z.registry)
    (grows : r.GrowsTo z.registry) (resolved : o'.resolved = o.resolved) :
    (resolvePass ds' o' z').1.resolved = (resolvePass ds o z).1.resolved ∧
      (resolvePass ds' o' z').2.registry = (resolvePass ds o z).2.registry := by
  induction ds' generalizing ds o o' z z' with
  | nil =>
    cases joined
    exact ⟨resolved, same⟩
  | cons d' ds' ih =>
    cases joined with
    | @cons _ d _ ds _ first rest =>
      obtain ⟨a, w, w', run, run', same, grows, -⟩ :=
        resolveDeclaration_joined first [] z z' same grows
      obtain ⟨ids, step⟩ := resolveStep_of_run o run
      obtain ⟨ids', step'⟩ := resolveStep_of_run o' run'
      rw [resolvePass_cons, resolvePass_cons]
      refine ih rest (step'.trans (same.trans step.symm)) (step ▸ grows) ?_
      rw [ids', ids, resolved]
    | rival refused rest =>
      -- what the first pass knew is still there, so the rival is still refused
      obtain ⟨e, w', run', kept⟩ :=
        resolveDeclaration_fails (refused.growsTo (same.symm ▸ grows)) []
      obtain ⟨ids', step'⟩ := resolveStep_of_run o' run'
      exact ih rest (step'.trans (kept.trans same)) grows
        (ids'.trans ((List.append_nil _).trans resolved))

end Resolution

open Resolution

def SourceUnit.predeclared (u : SourceUnit) : Registry :=
  (predeclarePass u.declarations {} { registry := .withPrelude }).2.registry

namespace SourceUnit

/-- A rival at the top level changes nothing but the errors. -/
theorem resolve_top_rival {front back : List Declaration} {d : Declaration}
    (refused : (predeclared ⟨front⟩).Refuses .global d) :
    (resolve ⟨front ++ d :: back⟩).1.resolved = (resolve ⟨front ++ back⟩).1.resolved ∧
      (resolve ⟨front ++ d :: back⟩).2.registry = (resolve ⟨front ++ back⟩).2.registry := by
  have grows : (predeclared ⟨front⟩).GrowsTo (predeclared ⟨front ++ back⟩) := by
    rw [predeclared, predeclared, predeclarePass_append]
    exact (predeclarePass_lockstep rfl (.refl _) back _ {}).2
  exact resolvePass_joined (.append front (.rival (refused.growsTo grows) (.refl ..)))
    (predeclarePass_rival refused) (.refl _)
    ((predeclarePass_resolved ..).trans (predeclarePass_resolved ..).symm)

/-- Rivals change nothing but the errors, at any depth, if the first pass learns the same tags. -/
theorem resolve_of_rivals {u u' : SourceUnit} (first : u'.predeclared = u.predeclared)
    (joined : DeclarationsJoined u.predeclared .global u.declarations u'.declarations) :
    u'.resolve.1.resolved = u.resolve.1.resolved ∧
      u'.resolve.2.registry = u.resolve.2.registry :=
  resolvePass_joined joined first (.refl _) <|
    (predeclarePass_resolved ..).trans (predeclarePass_resolved ..).symm

theorem predeclared_last (front back nested : List Declaration) {tag : AggregateKind}
    {name : Option String} {bases : List BaseDecl} {functions : List String} {body : ScopeId}
    {d : Declaration}
    (opened : ((predeclareTag .global tag name).run
      (predeclarePass front {} { registry := .withPrelude }).2).1 = .ok body)
    (refused : (predeclared ⟨front ++ [.record ⟨tag, name, bases, [], functions, nested⟩]⟩).Refuses
      body d) :
    predeclared ⟨front ++ .record ⟨tag, name, bases, [], functions, nested ++ [d]⟩ :: back⟩ =
      predeclared ⟨front ++ .record ⟨tag, name, bases, [], functions, nested⟩ :: back⟩ := by
  rw [predeclared, predeclarePass_append, predeclarePass_cons, predeclarePass,
    (predeclareStep_of_run _ rfl).2] at refused
  rw [predeclared, predeclared, predeclarePass_append, predeclarePass_append, predeclarePass_cons,
    predeclarePass_cons]
  refine (predeclarePass_lockstep ?_ (.refl _) back ..).1
  rw [(predeclareStep_of_run _ rfl).2, (predeclareStep_of_run _ rfl).2]
  exact predeclareRecord_last opened refused

/-- `S` with the types `A`, `C` and `B` inside, where `C` points to `B`, and with others between
them or behind them. -/
def siblingsUnit (between behind : List Declaration) : SourceUnit where
  declarations :=
    [.record ⟨.structType, some "S", [], [], [],
      .record ⟨.structType, some "A", [], [], [], []⟩ :: (between ++
      [.record ⟨.structType, some "C", [], [⟨"next", .pointer (.named "B"), none⟩], [], []⟩,
        .record ⟨.structType, some "B", [], [⟨"x", .fundamental "int", none⟩], [], []⟩] ++
      behind)⟩]

theorem siblingsUnit_keeps_its_types :
    (siblingsUnit [] [.forward .enumTag "A"]).predeclared = (siblingsUnit [] []).predeclared ∧
    DeclarationsJoined (siblingsUnit [] []).predeclared .global (siblingsUnit [] []).declarations
      (siblingsUnit [] [.forward .enumTag "A"]).declarations ∧
    (siblingsUnit [] [.forward .enumTag "A"]).resolve.1.resolved =
      (siblingsUnit [] []).resolve.1.resolved ∧
    (siblingsUnit [] [.forward .enumTag "A"]).resolve.2.registry =
      (siblingsUnit [] []).resolve.2.registry := by
  have found : (siblingsUnit [] []).predeclared.boundTag? ⟨1⟩ "A" = some ⟨34⟩ := by
    decide +kernel
  have kind : (siblingsUnit [] []).predeclared.tagOf? ⟨34⟩ = some (.aggregate .structType) := by
    decide +kernel
  have refused : (siblingsUnit [] []).predeclared.Refuses ⟨1⟩ (.forward .enumTag "A") :=
    ⟨"A", .enum, ⟨34⟩, .aggregate .structType, rfl, rfl, found, kind, rfl⟩
  have inside : (siblingsUnit [] []).predeclared.inside? .global (some "S") = some ⟨1⟩ := by
    decide +kernel
  have joined : DeclarationsJoined (siblingsUnit [] []).predeclared .global
      (siblingsUnit [] []).declarations (siblingsUnit [] [.forward .enumTag "A"]).declarations :=
    .cons (.record (.inside inside (.append [_, _, _] (.rival refused .nil)) .nil)) .nil
  have opened : ((predeclareTag .global .structType (some "S")).run
      { registry := .withPrelude }).1 = .ok ⟨1⟩ := by decide +kernel
  have first : (siblingsUnit [] [.forward .enumTag "A"]).predeclared =
      (siblingsUnit [] []).predeclared :=
    predeclared_last [] [] [_, _, _] opened refused
  exact ⟨first, joined, resolve_of_rivals first joined⟩

/-- Between `A` and `C` the rival stops the first pass before `B` is bound, so `C` has no layout
any more. -/
theorem siblingsUnit_loses_a_type :
    (siblingsUnit [] []).resolve.1.errors = [] ∧
    (siblingsUnit [] []).resolve.2.registry.qualifiedName ⟨35⟩ = "S::C" ∧
    (LayoutEnv.layoutOf ⟨(siblingsUnit [] []).resolve.2.registry, Profile.lp64.machine,
      .itaniumBaseline⟩ (.named ⟨35⟩) : Except LayoutError Layout).map (·.size) = .ok 8 ∧
    (siblingsUnit [.forward .enumTag "A"] []).resolve.1.errors =
      [.duplicateDefinition "S::A", .duplicateDefinition "S::A", .unknownType "B"] ∧
    (siblingsUnit [.forward .enumTag "A"] []).resolve.2.registry.qualifiedName ⟨35⟩ = "S::C" ∧
    (LayoutEnv.layoutOf ⟨(siblingsUnit [.forward .enumTag "A"] []).resolve.2.registry,
      Profile.lp64.machine, .itaniumBaseline⟩ (.named ⟨35⟩) : Except LayoutError Layout).map
        (·.size) = .error (.incompleteType "struct S::C" none) := by
  decide +kernel

end SourceUnit

end TypeLayout
