import TypeLayout.Proofs.Source.Habits
/-! Resolutions in lockstep. What a step answers and what it makes of the registry is settled by the
registry it starts from; what was set aside before and what was logged has no part in it. -/

namespace TypeLayout

open Registry

variable {α β : Type} {r : Registry}

/-- From the same registry, grown from `r`, the steps give the same answer and leave the same
registry, grown from `r` again. -/
def Lockstep (r : Registry) (x y : ResolveM α) (Q : α → Prop) : Prop :=
  ∀ z z' : Resolution, z'.registry = z.registry → r.GrowsTo z.registry →
    ∃ a w w', x.run z = (a, w) ∧ y.run z' = (a, w') ∧ w'.registry = w.registry ∧
      r.GrowsTo w.registry ∧ ∀ v, a = .ok v → Q v

namespace Lockstep

variable {x y : ResolveM α} {Q : α → Prop} {S : β → Prop}

theorem pure {a : α} (h : Q a) : Lockstep r (pure a : ResolveM α) (pure a) Q :=
  fun z z' same grows => ⟨_, z, z', rfl, rfl, same, grows, fun _ eq => Except.ok.inj eq ▸ h⟩

theorem throw (e : LayoutError) : Lockstep r (throw e : ResolveM α) (throw e) Q :=
  fun z z' same grows => ⟨_, z, z', rfl, rfl, same, grows, fun _ eq => by cases eq⟩

theorem ofExcept {a : Except LayoutError α} (h : ∀ v, a = .ok v → Q v) :
    Lockstep r (ofExcept a : ResolveM α) (ofExcept a) Q :=
  fun z z' same grows => ⟨a, z, z', run_ofExcept a z, run_ofExcept a z', same, grows, h⟩

theorem registry : Lockstep r ResolveM.registry ResolveM.registry (r.GrowsTo ·) :=
  fun z z' same grows => ⟨.ok z.registry, z, z', rfl, by rw [← same]; rfl, same, grows,
    fun _ eq => Except.ok.inj eq ▸ grows⟩

theorem update {f g : Resolution → Resolution}
    (h : ∀ z z', z'.registry = z.registry → r.GrowsTo z.registry →
      (g z').registry = (f z).registry ∧ r.GrowsTo (f z).registry) :
    Lockstep r (modify f : ResolveM Unit) (modify g) fun _ => True :=
  fun z z' same grows => ⟨.ok (), f z, g z', rfl, rfl, (h z z' same grows).1, (h z z' same grows).2,
    fun _ _ => trivial⟩

theorem note {level level' : Log.Level} {origin origin' message message' : String} :
    Lockstep r (ResolveM.note level origin message) (ResolveM.note level' origin' message')
      fun _ => True :=
  update fun _ _ same grows => ⟨same, grows⟩

theorem install {r' : Registry} (h : r.GrowsTo r') :
    Lockstep r (modify fun z => { z with registry := r' } : ResolveM Unit)
      (modify fun z => { z with registry := r' }) fun _ => True :=
  update fun _ _ _ _ => ⟨rfl, h⟩

theorem consequence {Q' : α → Prop} (h : Lockstep r x y Q) (hq : ∀ a, Q a → Q' a) :
    Lockstep r x y Q' := by
  intro z z' same grows
  obtain ⟨a, w, w', run, run', same, grows, answer⟩ := h z z' same grows
  exact ⟨a, w, w', run, run', same, grows, fun v eq => hq v (answer v eq)⟩

theorem bind (h : Lockstep r x y Q) {f g : α → ResolveM β}
    (hf : ∀ a, Q a → Lockstep r (f a) (g a) S) : Lockstep r (x >>= f) (y >>= g) S := by
  intro z z' same grows
  obtain ⟨a, w, w', run, run', same, grows, answer⟩ := h z z' same grows
  cases a with
  | error e =>
    exact ⟨.error e, w, w', run_bind_error run, run_bind_error run', same, grows, nofun⟩
  | ok a =>
    rw [run_bind_ok run, run_bind_ok run']
    exact hf a (answer a rfl) w w' same grows

theorem grows {z : Resolution} (h : Lockstep z.registry x y Q) :
    z.registry.GrowsTo (x.run z).2.registry := by
  obtain ⟨a, w, w', run, -, -, grows, -⟩ := h z z rfl (.refl _)
  rw [run]
  exact grows

theorem grows_of_run {z w : Resolution} {a : Except LayoutError α} (h : Lockstep z.registry x y Q)
    (run : x.run z = (a, w)) : z.registry.GrowsTo w.registry := by
  have grows := h.grows
  rw [run] at grows
  exact grows

theorem grows_bind {z z₁ : Resolution} {a : Except LayoutError α} (run : x.run z = (a, z₁))
    {f g : α → ResolveM β} (hf : ∀ b, Lockstep z₁.registry (f b) (g b) S) :
    z₁.registry.GrowsTo ((x >>= f).run z).2.registry := by
  cases a with
  | error e =>
    rw [run_bind_error run]
    exact .refl _
  | ok b =>
    rw [run_bind_ok run]
    exact (hf b).grows

theorem tryCatch (h : Lockstep r x y Q) {f g : LayoutError → ResolveM α}
    (hf : ∀ e, Lockstep r (f e) (g e) Q) :
    Lockstep r (tryCatch x f) (tryCatch y g) Q := by
  intro z z' same grows
  obtain ⟨a, w, w', run, run', same, grows, answer⟩ := h z z' same grows
  cases a with
  | error e =>
    rw [run_tryCatch_error run, run_tryCatch_error run']
    exact hf e w w' same grows
  | ok a => exact ⟨.ok a, w, w', run_tryCatch_ok run, run_tryCatch_ok run', same, grows, answer⟩

theorem discard (h : Lockstep r x y Q) :
    Lockstep r (discard x) (discard y) fun _ => True := by
  rw [discard_eq_bind, discard_eq_bind]
  exact h.bind fun _ _ => .pure trivial

variable (r) (s : ScopeId)

theorem declare (name : String) (tag : TagKind) :
    Lockstep r (ResolveM.declare s name tag) (ResolveM.declare s name tag)
      fun id => ∀ id₀, r.boundTag? s name = some id₀ → id = id₀ := by
  refine registry.bind fun r₁ grows => (ofExcept fun _ eq => eq).bind fun p declared => ?_
  obtain ⟨id, r₂⟩ := p
  have installed := install (grows.trans (growsTo_declare declared))
  refine installed.bind fun _ _ => .pure fun id₀ bound => ?_
  have bound := grows.boundTag? bound
  rcases declare_cases declared with ⟨found, -, -⟩ | ⟨free, -, -⟩
  · exact Option.some.inj (found.symm.trans bound)
  · rw [free] at bound
    cases bound

theorem define (name : String) (d : Definition) :
    Lockstep r (ResolveM.define s name d) (ResolveM.define s name d) fun _ => True := by
  refine registry.bind fun r₁ grows => (ofExcept fun _ eq => eq).bind fun p defined => ?_
  obtain ⟨id, r₂⟩ := p
  have installed := install (grows.trans (growsTo_define defined))
  dsimp only
  split
  · exact note.bind fun _ _ => installed.bind fun _ _ => .pure trivial
  · exact installed.bind fun _ _ => .pure trivial

theorem bodyScope (id : TypeId) :
    Lockstep r (ResolveM.bodyScope s id) (ResolveM.bodyScope s id)
      fun t => ∀ t₀, r.body? id = some t₀ → t = t₀ :=
  registry.bind fun r₁ grows => .pure fun t₀ body => by rw [grows.body? body]; rfl

theorem setAside {x y : ResolveM α} {Q : α → Prop} (h : Lockstep r x y Q) (d d' : Declaration) :
    Lockstep r (setAside d x) (setAside d' y) fun _ => True :=
  h.discard.tryCatch fun _ => note.bind fun _ _ => update fun _ _ same grows => ⟨same, grows⟩

end Lockstep

def Registry.inside? (r : Registry) (s : ScopeId) : Option String → Option ScopeId
  | none => some s
  | some name => (r.boundTag? s name).bind r.body?

section

variable (r) (s : ScopeId)

theorem openRecord_lockstep (tag : AggregateKind) (name : Option String) :
    Lockstep r (openRecord s tag name) (openRecord s tag name)
      fun p => ∀ t, r.inside? s name = some t → p.2 = t := by
  cases name with
  | none => exact .pure fun t inside => Option.some.inj inside
  | some name =>
    refine (Lockstep.declare r s name _).bind fun id found => Lockstep.registry.bind fun r₁ _ => ?_
    split
    · exact .throw _
    · -- a tag that was bound in `r` still is, with the same body
      refine (Lockstep.bodyScope r s id).bind fun body entered => .pure fun t inside => ?_
      obtain ⟨id₀, bound, body₀⟩ := Option.bind_eq_some_iff.mp inside
      exact entered t (found id₀ bound ▸ body₀)

end

/-! Both passes. -/

theorem lockstep_habit (r : Registry) :
    FirmHabit (fun _ => True) fun _ x => Lockstep r x x fun _ => True where
  lift _ := .ofExcept fun _ _ => trivial
  registry := Lockstep.registry.consequence fun _ _ => trivial
  note _ _ _ := .note
  bind hx hf := hx.bind fun a _ => hf a
  declare s name tag _ := (Lockstep.declare r s name tag).consequence fun _ _ => trivial
  define s name d _ := .define r s name d
  rethrow f hx := hx.tryCatch fun e => .throw (f e)
  setAside d hx := hx.setAside r d d

section

variable (r : Registry) (s : ScopeId)

theorem predeclare_lockstep (d : Declaration) :
    Lockstep r (predeclare s d) (predeclare s d) fun _ => True :=
  predeclare_habit (lockstep_habit r).toHabit d (p := []) (sitesNamed_any _) s

theorem predeclareDeclarator_lockstep (d : Declarator) :
    Lockstep r (predeclareDeclarator s d) (predeclareDeclarator s d) fun _ => True :=
  predeclareDeclarator_habit (lockstep_habit r).toHabit d (p := []) (sitesNamed_any _) s

theorem predeclareAll_lockstep (ds : List Declaration) :
    Lockstep r (predeclareAll s ds) (predeclareAll s ds) fun _ => True :=
  predeclareAll_habit (lockstep_habit r).toHabit ds (p := []) (sitesNamed_any _) s

theorem predeclareMembers_lockstep (xs : List MemberDecl) :
    Lockstep r (predeclareMembers s xs) (predeclareMembers s xs) fun _ => True :=
  predeclareMembers_habit (lockstep_habit r).toHabit xs (p := []) (sitesNamed_any _) s

theorem resolveBases_lockstep (bs : List BaseDecl) :
    Lockstep r (resolveBases s bs) (resolveBases s bs) fun _ => True :=
  (lockstep_habit r).resolveBases s bs

theorem closeRecord_lockstep (body : Aggregate) (name : Option String) :
    Lockstep r (closeRecord s body name) (closeRecord s body name) fun _ => True :=
  (lockstep_habit r).closeRecord (fun _ _ => trivial) s body

end

section

variable (r : Registry) (defining : List TypeId) (s : ScopeId)

theorem resolveDeclaration_lockstep (d : Declaration) :
    Lockstep r (resolveDeclaration defining s d) (resolveDeclaration defining s d)
      fun _ => True :=
  resolveDeclaration_habit (lockstep_habit r) d (p := []) (sitesNamed_any _) defining s

theorem resolveDeclarator_lockstep (d : Declarator) :
    Lockstep r (resolveDeclarator defining s d) (resolveDeclarator defining s d)
      fun _ => True :=
  resolveDeclarator_habit (lockstep_habit r) d (p := []) (sitesNamed_any _) defining s

theorem resolveNested_lockstep (ds : List Declaration) :
    Lockstep r (resolveNested defining s ds) (resolveNested defining s ds) fun _ => True :=
  resolveNested_habit (lockstep_habit r) ds (p := []) (sitesNamed_any _) defining s

end

end TypeLayout
