import TypeLayout.Proofs.Source.Fulfils
import TypeLayout.Proofs.Source.Rivals
/-! What the second pass says about the first. A tag that the first pass cannot declare the second
cannot declare either, so what answers in the second pass, with nothing set aside inside, has
answered in the first. -/

namespace TypeLayout

open Registry

namespace Registry

variable {r r' : Registry} {s : ScopeId} {name : String} {tag : TagKind}

def Agrees (r : Registry) (s : ScopeId) (name : String) (tag : TagKind) : Prop :=
  ∀ id bound, r.boundTag? s name = some id → r.tagOf? id = some bound → bound.compatible tag = true

theorem Agrees.earlier (later : r'.Agrees s name tag) (grows : r.GrowsTo r') :
    r.Agrees s name tag := by
  intro id bound found kind
  obtain ⟨bound', kind', same⟩ := grows.tagOf? kind
  have same := TagKind.compatible_comm .. ▸ same
  exact TagKind.compatible_trans same (later id bound' (grows.boundTag? found) kind')

theorem agrees_of_declare {p : TypeId × Registry} (declared : r.declare s name tag = .ok p) :
    r.Agrees s name tag := by
  intro id bound found kind
  by_contra other
  obtain ⟨e, refused⟩ := declare_refused found kind (Bool.eq_false_iff.mpr other)
  cases refused.symm.trans declared

theorem agrees_of_define {d : Definition} (tagged : d.tag? = some tag) {p : TypeId × Registry}
    (defined : r.define s name d = .ok p) : r.Agrees s name tag := by
  intro id bound found kind
  by_contra other
  obtain ⟨e, refused⟩ := define_refused found kind (Bool.eq_false_iff.mpr other) tagged
  cases refused.symm.trans defined

theorem Linked.declare_of_agrees (hr : r.Linked) (agrees : r.Agrees s name tag) :
    ∃ p, r.declare s name tag = .ok p := by
  unfold declare
  cases found : r.boundTag? s name with
  | none => exact ⟨_, rfl⟩
  | some id =>
    obtain ⟨e, entry, -, -, tagged⟩ := hr.entry_of_bound found
    obtain ⟨bound, kind⟩ := Option.isSome_iff_exists.mp tagged
    have kind : r.tagOf? id = some bound := Option.bind_eq_some_iff.mpr ⟨e, entry, kind⟩
    exact ⟨(id, r), by simp [kind, agrees id bound found kind]⟩

end Registry

/-- If all that the step leaves behind is in `r` later on, then it answers. -/
def Announces {α : Type} (r : Registry) (x : ResolveM α) (z : Resolution) (Q : α → Prop) : Prop :=
  (x.run z).2.registry.GrowsTo r → ∃ a w, x.run z = (.ok a, w) ∧ Q a

namespace Announces

variable {α β : Type} {r r' : Registry} {x : ResolveM α} {z : Resolution} {Q : α → Prop}
  {S : β → Prop}

theorem pure {a : α} (h : Q a) : Announces r (pure a : ResolveM α) z Q := fun _ => ⟨a, z, rfl, h⟩

theorem mono (h : Announces r' x z Q) (grows : r.GrowsTo r') : Announces r x z Q :=
  fun left => h (left.trans grows)

theorem bind (h : Announces r x z Q) {f : α → ResolveM β}
    (tail : ∀ a r, Lockstep r (f a) (f a) fun _ => True)
    (hf : ∀ a w, x.run z = (.ok a, w) → Q a → Announces r (f a) w S) :
    Announces r (x >>= f) z S := by
  intro left
  obtain ⟨a, w, run, answer⟩ := h ((Lockstep.grows_bind rfl fun a => tail a _).trans left)
  rw [run_bind_ok run] at left ⊢
  exact hf a w run answer left

theorem discard (h : Announces r x z Q) : Announces r (discard x) z fun _ => True := by
  rw [discard_eq_bind]
  exact h.bind (fun _ _ => .pure trivial) fun _ _ _ _ => .pure trivial

theorem declare (hz : z.registry.Built) {s : ScopeId} {name : String} {tag : TagKind}
    (agrees : r.Agrees s name tag) : Announces r (ResolveM.declare s name tag) z fun _ => True := by
  intro left
  have before := (Lockstep.declare z.registry s name tag).grows.trans left
  obtain ⟨p, declared⟩ := hz.linked.declare_of_agrees (agrees.earlier before)
  have run : (ResolveM.declare s name tag).run z = (.ok p.1, { z with registry := p.2 }) := by
    refine (run_bind_ok (x := ResolveM.registry) rfl).trans ?_
    rw [declared]
    rfl
  exact ⟨_, _, run, trivial⟩

end Announces

section

variable {z z' w : Resolution} {s : ScopeId}

theorem predeclareTag_inside (hz : z.registry.Built) (hs : s.index < z.registry.scopes.size)
    {tag : AggregateKind} {name : Option String} {body : ScopeId}
    (run : (predeclareTag s tag name).run z = (.ok body, w)) :
    w.registry.inside? s name = some body := by
  cases name with
  | none =>
    cases run
    rfl
  | some name =>
    obtain ⟨id, z₁, first, run⟩ := run_bind_eq_ok.mp run
    obtain ⟨r, declared, rfl⟩ := ResolveM.run_declare_ok first
    cases run
    have built := Built.declare hz hs declared
    obtain ⟨found, bound, kind, same⟩ := declare_bound hs declared
    have inside := built.linked.isSome_body? built.wellFormed kind
    rw [TagKind.isAggregate_eq_of_compatible same] at inside
    obtain ⟨t, body⟩ := Option.isSome_iff_exists.mp inside
    change (r.boundTag? s name).bind r.body? = some ((r.body? id).getD s)
    rw [found, body]
    exact body

theorem predeclareTag_announces (hz : z.registry.Built) (hs : s.index < z.registry.scopes.size)
    {tag : AggregateKind} {name : Option String} {p : Option TypeId × ScopeId}
    (opened : (openRecord s tag name).run z' = (.ok p, w)) :
    Announces z'.registry (predeclareTag s tag name) z (· = p.2) := by
  intro left
  have answers : Announces z'.registry (predeclareTag s tag name) z fun _ => True := by
    cases name with
    | none => exact .pure trivial
    | some name =>
      obtain ⟨_, _, declared, -⟩ := openRecord_named_ok opened
      exact (Announces.declare hz (agrees_of_declare declared)).bind
        (fun id r => (Lockstep.bodyScope r s id).consequence fun _ _ => trivial)
        fun _ _ _ _ _ => ⟨_, _, rfl, trivial⟩
  obtain ⟨body, z₁, run, -⟩ := answers left
  rw [run] at left
  obtain ⟨_, _, _, run', -, -, -, answer⟩ :=
    openRecord_lockstep z₁.registry s tag name z' z' rfl left
  have entered := answer p (congrArg Prod.fst (run'.symm.trans opened))
  exact ⟨body, z₁, run, (entered _ (predeclareTag_inside hz hs run)).symm⟩

theorem predeclareEnum_announces (hz : z.registry.Built) {e : EnumDecl} {d : Descriptor}
    (second : (resolveEnum s e).run z' = (.ok d, w)) :
    Announces z'.registry (predeclareEnum s e) z fun _ => True := by
  obtain ⟨type, z₂, typed, second⟩ := run_bind_eq_ok.mp second
  rw [run_ofExcept] at typed
  obtain ⟨-, rfl⟩ := Prod.mk.inj typed
  unfold predeclareEnum
  cases named : e.name with
  | none => exact .pure trivial
  | some name =>
    rw [named] at second
    obtain ⟨_, _, defined, -⟩ := run_bind_eq_ok.mp second
    have agrees := agrees_of_define (d := .enum type) rfl (ResolveM.run_define_ok defined).1
    exact (Announces.declare hz agrees).discard

end

mutual

theorem predeclare_announces (d : Declaration) {defining : List TypeId} {s : ScopeId}
    {z z' w : Resolution} (hz : z.registry.Built) (hs : s.index < z.registry.scopes.size)
    {i : Option TypeId} (second : (resolveDeclaration defining s d).run z' = (.ok i, w))
    (clean : errorsOf (visitsInDeclaration defining s z' d) = []) :
    Announces z'.registry (predeclare s d) z fun _ => True := by
  cases d with
  | record r =>
    obtain ⟨_, _, second, -⟩ := run_bind_eq_ok.mp second
    rw [visitsInDeclaration, errorsOf_record] at clean
    exact predeclareRecord_announces r hz hs second clean
  | forward tag name =>
    obtain ⟨_, _, second, -⟩ := run_bind_eq_ok.mp second
    obtain ⟨_, declared, -⟩ := ResolveM.run_declare_ok second
    exact (Announces.declare hz (agrees_of_declare declared)).discard
  | enum e =>
    obtain ⟨_, _, second, -⟩ := run_bind_eq_ok.mp second
    exact predeclareEnum_announces hz second
  | typedef name target =>
    obtain ⟨_, _, second, -⟩ := run_bind_eq_ok.mp second
    exact predeclareDeclarator_announces target hz hs second clean

theorem predeclareRecord_announces (r : RecordDecl) {defining : List TypeId} {s : ScopeId}
    {z z' w : Resolution} (hz : z.registry.Built) (hs : s.index < z.registry.scopes.size)
    {d : Descriptor} (second : (resolveRecord defining s r).run z' = (.ok d, w))
    (clean : errorsOf (visitsInRecord defining s z' r) = []) :
    Announces z'.registry (predeclareRecord s r) z fun _ => True := by
  obtain ⟨tag, name, bases, members, functions, nested⟩ := r
  obtain ⟨⟨id, body⟩, w₁, opened, second⟩ := run_bind_eq_ok.mp second
  obtain ⟨_, w₂, inner, second⟩ := run_bind_eq_ok.mp second
  obtain ⟨_, w₃, based, second⟩ := run_bind_eq_ok.mp second
  obtain ⟨_, w₄, resolved, -⟩ := run_bind_eq_ok.mp second
  rw [visitsInRecord_of_run opened inner based, errorsOf_append] at clean
  obtain ⟨clean, clean'⟩ := List.append_eq_nil_iff.mp clean
  -- the registry grows from where the record is opened to where its members are resolved
  have later₁ := (openRecord_lockstep z'.registry s tag name).grows_of_run opened
  have later₂ := (resolveNested_lockstep w₁.registry _ body nested).grows_of_run inner
  have later₃ := (resolveBases_lockstep w₂.registry s bases).grows_of_run based
  refine (predeclareTag_announces hz hs opened).bind (fun t r => ?_) fun t z₁ first eq => ?_
  · exact (predeclareAll_lockstep r t nested).bind fun _ _ => predeclareMembers_lockstep r t members
  obtain rfl := eq.symm
  have ensured := predeclareTag_ensures built_durable hz hs tag name
  have hz₁ := ensured.kept_of_run first
  have hbody := ensured.of_answer first
  refine ((predeclareAll_announces nested hz₁ hbody clean).mono later₁).bind
    (fun _ r => predeclareMembers_lockstep r body members) fun _ z₂ first _ => ?_
  have ensured := predeclareAll_ensures nested built_durable hz₁ hbody
  have hbody₂ := Nat.lt_of_lt_of_le hbody (predeclareAll_lockstep _ body nested).grows.scopes_le
  rw [first] at hbody₂
  have hz₂ := ensured.kept_of_run first
  exact (predeclareMembers_announces members hz₂ hbody₂ resolved clean').mono
    (later₁.trans (later₂.trans later₃))

theorem predeclareDeclarator_announces (t : Declarator) {defining : List TypeId} {s : ScopeId}
    {z z' w : Resolution} (hz : z.registry.Built) (hs : s.index < z.registry.scopes.size)
    {d : Descriptor} (second : (resolveDeclarator defining s t).run z' = (.ok d, w))
    (clean : errorsOf (visitsInDeclarator defining s z' t) = []) :
    Announces z'.registry (predeclareDeclarator s t) z fun _ => True := by
  cases t with
  | fundamental spelling => exact .pure trivial
  | named name => exact .pure trivial
  | pointer pointee =>
    obtain ⟨_, _, second, -⟩ := run_bind_eq_ok.mp second
    exact predeclareDeclarator_announces pointee hz hs second clean
  | array element count =>
    obtain ⟨_, _, second, -⟩ := run_bind_eq_ok.mp second
    exact predeclareDeclarator_announces element hz hs second clean
  | record r =>
    rw [visitsInDeclarator, errorsOf_record] at clean
    exact predeclareRecord_announces r hz hs second clean
  | enum e => exact predeclareEnum_announces hz second

theorem predeclareAll_announces (ds : List Declaration) {defining : List TypeId} {s : ScopeId}
    {z z' : Resolution} (hz : z.registry.Built) (hs : s.index < z.registry.scopes.size)
    (clean : errorsOf (visitsInNested defining s z' ds) = []) :
    Announces z'.registry (predeclareAll s ds) z fun _ => True := by
  cases ds with
  | nil => exact .pure trivial
  | cons d ds =>
    rw [visitsInNested, errorsOf_append, errorsOf_cons] at clean
    obtain ⟨clean, clean'⟩ := List.append_eq_nil_iff.mp clean
    obtain ⟨answered, clean'⟩ := List.append_eq_nil_iff.mp clean'
    obtain ⟨i, second⟩ := failure?_eq_none.mp (Option.toList_eq_nil_iff.mp answered)
    refine (predeclare_announces d hz hs (Prod.ext second rfl) clean).bind
      (fun _ r => predeclareAll_lockstep r s ds) fun _ z₁ first _ => ?_
    have hz₁ := (predeclare_ensures d built_durable hz hs).kept_of_run first
    have grows := (predeclare_lockstep z.registry s d).grows_of_run first
    have later := ((resolveDeclaration_lockstep z'.registry defining s d).setAside _ d d).grows
    exact (predeclareAll_announces ds hz₁ (Nat.lt_of_lt_of_le hs grows.scopes_le) clean').mono later

theorem predeclareMembers_announces (xs : List MemberDecl) {defining : List TypeId} {s : ScopeId}
    {z z' w : Resolution} (hz : z.registry.Built) (hs : s.index < z.registry.scopes.size)
    {ms : List Member} (second : (resolveMembers defining s xs).run z' = (.ok ms, w))
    (clean : errorsOf (visitsInMembers defining s z' xs) = []) :
    Announces z'.registry (predeclareMembers s xs) z fun _ => True := by
  cases xs with
  | nil => exact .pure trivial
  | cons x xs =>
    obtain ⟨name, type, width⟩ := x
    obtain ⟨t, w₁, _, typed, accepted, second, -⟩ := resolveMembers_cons_ok second
    rw [visitsInMembers_of_run typed accepted, errorsOf_append] at clean
    obtain ⟨clean, clean'⟩ := List.append_eq_nil_iff.mp clean
    refine (predeclareDeclarator_announces type hz hs typed clean).bind
      (fun _ r => predeclareMembers_lockstep r s xs) fun _ z₁ first _ => ?_
    have hz₁ := (predeclareDeclarator_ensures type built_durable hz hs).kept_of_run first
    have grows := (predeclareDeclarator_lockstep z.registry s type).grows_of_run first
    have later := (resolveDeclarator_lockstep z'.registry defining s type).grows_of_run typed
    exact (predeclareMembers_announces xs hz₁ (Nat.lt_of_lt_of_le hs grows.scopes_le) second
      clean').mono later

end

end TypeLayout
