import TypeLayout.Proofs.Source.Enclosed
import TypeLayout.Proofs.Source.Outside
import TypeLayout.Proofs.Source.Stack
/-! How the resolution of a named record ends. Its name is refused, or the entry that was declared for
it is completed, or the entry waits on. Nothing in a body can define the entry around it, for the
entry lies in an older scope than the body; so when the body has resolved, its entry is completed
and no other. -/

namespace TypeLayout

open Registry

namespace Registry

variable {r r' : Registry} {s : ScopeId} {name : String} {kind : AggregateKind} {id : TypeId}
  {e : LayoutError}

def Taken (r : Registry) (s : ScopeId) (name : String) (kind : AggregateKind) (id : TypeId) :
    Prop :=
  r.boundTag? s name = some id ∧ ((r.definition? id).isSome = true ∨
    (r.tagOf? id).any (·.compatible (.aggregate kind)) = false)

/-- How the resolution of a record with this name and kind ends, from `r` on. -/
inductive RecordEnd (r : Registry) (s : ScopeId) (name : String) (kind : AggregateKind) :
    Except LayoutError (Option TypeId) → Registry → Prop
  /-- Nothing is done. -/
  | refused {id : TypeId} : r.Taken s name kind id →
    RecordEnd r s name kind (.error (.duplicateDefinition (r.qualifiedName id))) r
  /-- The entry that was declared first is answered and complete. -/
  | complete {r₁ r' : Registry} {id : TypeId} {body : Aggregate} :
    r.declare s name (.aggregate kind) = .ok (id, r₁) → r'.boundTag? s name = some id →
    r'.definition? id = some (.aggregate body) → RecordEnd r s name kind (.ok (some id)) r'
  /-- It waits, and a later definition of its name completes it under its id. -/
  | waits {r₁ r' : Registry} {id : TypeId} {e : LayoutError} :
    r.declare s name (.aggregate kind) = .ok (id, r₁) → r'.Awaits s name kind id →
    (∀ later, r'.GrowsTo later → later.definition? id = none → ∀ body : Aggregate,
      (TagKind.aggregate kind).compatible (.aggregate body.kind) = true →
      ∃ after, later.define s name (.aggregate body) = .ok (id, after) ∧
        after.definition? id = some (.aggregate body)) →
    RecordEnd r s name kind (.error e) r'

theorem declare_error (h : r.declare s name (.aggregate kind) = .error e) :
    ∃ id, r.Taken s name kind id ∧ e = .duplicateDefinition (r.qualifiedName id) := by
  unfold declare at h
  split at h
  next id hbound =>
    split at h
    next => cases h
    next hother =>
      cases h
      exact ⟨id, ⟨hbound, .inr (Bool.eq_false_iff.mpr hother)⟩, rfl⟩
  next => cases h

theorem taken_of_declare (h : r.declare s name (.aggregate kind) = .ok (id, r'))
    (hcomplete : (r'.definition? id).isSome = true) : r' = r ∧ r.Taken s name kind id := by
  rcases declare_cases h with ⟨hbound, -, rfl⟩ | ⟨-, rfl, rfl⟩
  · exact ⟨rfl, hbound, .inl hcomplete⟩
  · rw [definition?_alloc, if_pos rfl] at hcomplete
    cases hcomplete

theorem Awaits.recordEnd {r₁ : Registry} (h : r'.Awaits s name kind id)
    (hdeclare : r.declare s name (.aggregate kind) = .ok (id, r₁)) (e : LayoutError) :
    RecordEnd r s name kind (.error e) r' :=
  .waits hdeclare h fun _ hg hopen _ hkind => (h.growsTo hg hopen).define hkind

end Registry

section

variable {z z' : Resolution} {s : ScopeId} {name : String}

theorem openRecord_named_error {tag : AggregateKind} {e : LayoutError}
    (h : (openRecord s tag (some name)).run z = (.error e, z')) :
    z'.registry = z.registry ∧ ∃ id, z.registry.Taken s name tag id ∧
      e = .duplicateDefinition (z.registry.qualifiedName id) := by
  cases hdeclare : z.registry.declare s name (.aggregate tag) with
  | error e' =>
    cases h.symm.trans (run_bind_error (ResolveM.run_declare_of_error hdeclare))
    exact ⟨rfl, declare_error hdeclare⟩
  | ok p =>
    obtain ⟨id, r⟩ := p
    unfold openRecord at h
    rw [run_bind_ok (ResolveM.run_declare_of_ok hdeclare),
      run_bind_ok (x := ResolveM.registry) rfl] at h
    dsimp only at h
    split at h
    next hcomplete =>
      cases h
      obtain ⟨rfl, htaken⟩ := taken_of_declare hdeclare hcomplete
      exact ⟨rfl, id, htaken, rfl⟩
    next => cases h

/-- The entry around a body waits until the body has resolved, or failed. -/
theorem resolveBody_awaits {kind : AggregateKind} {id : TypeId} (hz : z.registry.Reached)
    (hawaits : z.registry.Awaits s name kind id) {r : RecordDecl} {defining : List TypeId}
    {a : Except LayoutError Aggregate}
    (h : (resolveBody defining s ((z.registry.body? id).getD s) r).run z = (a, z')) :
    z'.registry.Awaits s name kind id ∧ ∀ body, a = .ok body → body.kind = r.tag := by
  obtain ⟨t, ht⟩ := hawaits.exists_body? hz.arranged
  obtain ⟨hinside, htsize⟩ := hz.arranged.body?_of_bound hawaits.bound ht
  rw [ht] at h
  have hrun := resolveBody_sameBefore r defining s (.refl hz (s.index + 1)) htsize hinside
  have hsame := hrun.kept_of_run h
  refine ⟨hawaits.growsTo (hrun.grows_of_run h) ?_, ?_⟩
  · -- the entry lies before the body, and there nothing has changed
    obtain ⟨e, he, -, hscope, -⟩ := hz.arranged.entry_of_bound hawaits.bound
    have he' := hsame.entry he (hscope ▸ Nat.lt_succ_self _)
    have hopen := hawaits.definition?_eq
    simp only [definition?, he, he'] at hopen ⊢
    exact hopen
  · rintro body rfl
    exact hrun.of_answer h

theorem resolveRecord_ends {r : RecordDecl} (hname : r.name = some name) (defining : List TypeId)
    (hz : z.registry.Reached) (hs : s.index < z.registry.scopes.size) :
    RecordEnd z.registry s name r.tag (((resolveRecord defining s r).run z).1.map Descriptor.id?)
      ((resolveRecord defining s r).run z).2.registry := by
  rw [resolveRecord_eq, hname]
  rcases hopen : (openRecord s r.tag (some name)).run z with ⟨e | p, z₁⟩
  · rw [run_bind_error hopen]
    obtain ⟨hsame, id, htaken, rfl⟩ := openRecord_named_error hopen
    rw [hsame]
    exact .refused htaken
  · rw [run_bind_ok hopen]
    obtain ⟨id, r₁, hdeclare, hstate, hincomplete, rfl⟩ := openRecord_named_ok hopen
    obtain rfl : r₁ = z₁.registry := by rw [hstate]
    have hawaits := awaits_of_declare hs hdeclare hincomplete
    have hz₁ := hz.declare hs hdeclare
    dsimp only
    rcases hbody : (resolveBody ((some id).toList ++ defining) s
      ((z₁.registry.body? id).getD s) r).run z₁ with ⟨e | body, z₂⟩
    · rw [run_bind_error hbody]
      exact (resolveBody_awaits hz₁ hawaits hbody).1.recordEnd hdeclare e
    · rw [run_bind_ok hbody]
      obtain ⟨hawaits₂, hkind⟩ := resolveBody_awaits hz₁ hawaits hbody
      have hcompatible : (TagKind.aggregate r.tag).compatible (.aggregate body.kind) = true := by
        rw [hkind body rfl]
        exact TagKind.compatible_refl _
      obtain ⟨after, hdefine, hcomplete⟩ := hawaits₂.define hcompatible
      obtain ⟨z₃, hclose, rfl⟩ := closeRecord_of_define hdefine
      rw [hclose]
      exact .complete hdeclare ((growsTo_define hdefine).boundTag? hawaits₂.bound) hcomplete

theorem run_resolveDeclaration_record (defining : List TypeId) (s : ScopeId) (r : RecordDecl)
    (z : Resolution) : (resolveDeclaration defining s (.record r)).run z =
      (((resolveRecord defining s r).run z).1.map Descriptor.id?,
        ((resolveRecord defining s r).run z).2) := by
  rw [resolveDeclaration]
  rcases hrun : (resolveRecord defining s r).run z with ⟨e | a, z₁⟩
  · rw [run_bind_error hrun]
    rfl
  · rw [run_bind_ok hrun]
    rfl

end

namespace Resolver

/-- The record ends as one of its name and kind does, with the stack as it was and with nothing
that the registry held lost. Handing the records down gives the same. -/
def Settles (w : Resolver) (s : ScopeId) (r : RecordDecl) (name : String) : Prop :=
  ∃ a w', (Resolver.resolveDeclaration s (.record r)).run w = (a, w') ∧
    (TypeLayout.resolveDeclaration w.defining s (.record r)).run w.resolution =
      (a, w'.resolution) ∧
    w'.defining = w.defining ∧
    w.resolution.registry.RecordEnd s name r.tag a w'.resolution.registry ∧
    w.resolution.registry.Preserves w'.resolution.registry

theorem settles {w : Resolver} {s : ScopeId} {r : RecordDecl} {name : String}
    (hw : w.resolution.registry.Reached) (hs : s.index < w.resolution.registry.scopes.size)
    (hname : r.name = some name) : w.Settles s r name := by
  have hbalanced := resolveDeclaration_balanced (.record r) w.defining s w.resolution
  have hgrows := (resolveDeclaration_lockstep w.resolution.registry w.defining s (.record r)).grows
  refine ⟨_, _, hbalanced, rfl, rfl, ?_, hgrows.preserves⟩
  have hends := resolveRecord_ends hname w.defining hw hs
  rw [run_resolveDeclaration_record]
  exact hends

end Resolver

def Visit.record? (v : Visit) : Option RecordDecl :=
  match v.item with
  | .record r => some r
  | .declaration (.record r) => some r
  | .declaration _ => none

namespace Resolver

/-- A named record is settled wherever it is resolved: in any state of a resolver, and so wherever
the second pass over a unit comes to it. -/
theorem record_settled :
    (∀ (w : Resolver) (s : ScopeId) (r : RecordDecl) (name : String),
      w.resolution.registry.Reached → s.index < w.resolution.registry.scopes.size →
      r.name = some name → w.Settles s r name) ∧
    ∀ (z : Resolution) (ds : List Declaration), z.registry.Built →
      ∀ v ∈ Resolution.visits (Resolution.predeclarePass ds {} z).2 ds, ∀ r name,
      v.record? = some r → r.name = some name →
      Settles ⟨v.before, v.defining⟩ v.scope r name := by
  refine ⟨fun w s r name => settles, fun z ds hz v hv r name _ hname => ?_⟩
  have hwithin := Resolution.visits_within (Resolution.predeclarePass_kept built_durable hz ds {})
    ds hv
  exact settles hwithin.built.reached hwithin.scope_lt hname

def shadowed : RecordDecl :=
  ⟨.classType, some "Node", [],
    [⟨"part", .record ⟨.structType, some "Node", [], [], [], []⟩, none⟩,
      ⟨"inner", .named "::Node", none⟩], [], []⟩

def forwardNode : Registry := (Registry.empty.perform (.declare .global "Node" (.aggregate
  .structType))).2

/-- The class inside is complete and the one around it waits. -/
theorem shadowed_settles :
    forwardNode.Reached ∧ Settles ⟨{ registry := forwardNode }, []⟩ .global shadowed "Node" ∧
    ((resolveDeclaration .global (.record shadowed)).run ⟨{ registry := forwardNode }, []⟩).1 =
      .error (.cyclicAggregate "Node" "inner") ∧
    ∃ v ∈ Resolution.visits (Resolution.predeclarePass [.record shadowed] {}
        { registry := .withPrelude }).2 [.record shadowed],
      v.defining = [⟨33⟩] ∧ ∃ r, v.record? = some r ∧ r.name = some "Node" ∧
        Settles ⟨v.before, v.defining⟩ v.scope r "Node" := by
  have hreached : forwardNode.Reached := .step _ .empty (by decide)
  refine ⟨hreached, record_settled.1 _ _ _ _ hreached (by decide) rfl, by decide +kernel, ?_⟩
  have hfound : ((Resolution.visits (Resolution.predeclarePass [.record shadowed] {}
      { registry := .withPrelude }).2 [.record shadowed]).any fun v =>
        v.defining == [⟨33⟩] && (v.record?.bind RecordDecl.name) == some "Node") = true := by
    decide +kernel
  simp only [List.any_eq_true, Bool.and_eq_true, beq_iff_eq] at hfound
  obtain ⟨v, hv, hdefining, hnamed⟩ := hfound
  obtain ⟨r, hr, hname⟩ := Option.bind_eq_some_iff.mp hnamed
  exact ⟨v, hv, hdefining, r, hr, hname, record_settled.2 _ _ .prelude v hv r "Node" hr hname⟩

end Resolver

end TypeLayout
