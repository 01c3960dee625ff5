import TypeLayout.Proofs.Source.Habits
/-! What a step of a resolution sets aside. Most steps set nothing aside, whether they fail or not;
a declaration inside a record that fails sets its error aside, behind what it set aside itself. -/

namespace TypeLayout

variable {α β : Type} {x : ResolveM α} {z z' : Resolution} {es fs : List LayoutError}

def Defers (x : ResolveM α) (z : Resolution) (es : List LayoutError) : Prop :=
  (x.run z).2.deferred = z.deferred ++ es

/-- The step sets nothing aside. -/
def Quiet (x : ResolveM α) : Prop := ∀ z : Resolution, (x.run z).2.deferred = z.deferred

theorem Quiet.defers (h : Quiet x) (z : Resolution) : Defers x z [] :=
  (h z).trans (List.append_nil _).symm

namespace Quiet

theorem of_run (h : Quiet x) {a : Except LayoutError α} (hrun : x.run z = (a, z')) :
    z'.deferred = z.deferred := by
  have hz := h z
  rw [hrun] at hz
  exact hz

theorem pure (a : α) : Quiet (pure a : ResolveM α) := fun _ => rfl

theorem throw (e : LayoutError) : Quiet (throw e : ResolveM α) := fun _ => rfl

theorem ofExcept (y : Except LayoutError α) : Quiet (ofExcept y : ResolveM α) := by
  intro z
  rw [run_ofExcept]

theorem registry : Quiet ResolveM.registry := fun _ => rfl

theorem note (level : Log.Level) (origin message : String) :
    Quiet (ResolveM.note level origin message) := fun _ => rfl

theorem bind (hx : Quiet x) {f : α → ResolveM β} (hf : ∀ a, Quiet (f a)) : Quiet (x >>= f) :=
  run_bind_keeps (R := fun z z' : Resolution => z'.deferred = z.deferred)
    (fun h h' => h'.trans h) hx hf

theorem install (r : Registry) {f : Unit → ResolveM α} (hf : Quiet (f ())) :
    Quiet ((modify fun z => { z with registry := r } : ResolveM Unit) >>= f) :=
  bind (x := modify fun z => { z with registry := r }) (fun _ => rfl) fun _ => hf

theorem declare (s : ScopeId) (name : String) (tag : TagKind) :
    Quiet (ResolveM.declare s name tag) := by
  refine registry.bind fun r => (ofExcept _).bind fun p => ?_
  exact install p.2 (.pure p.1)

theorem define (s : ScopeId) (name : String) (d : Definition) :
    Quiet (ResolveM.define s name d) := by
  refine registry.bind fun r => (ofExcept _).bind fun p => ?_
  obtain ⟨id, r'⟩ := p
  dsimp only
  split
  · exact (note _ _ _).bind fun _ => install r' (.pure id)
  · exact install r' (.pure id)

end Quiet

theorem quiet_habit : Habit (fun _ => True) fun _ x => Quiet x where
  lift := .ofExcept
  registry := .registry
  note := .note
  bind hx hf := hx.bind hf
  declare s _ tag _ := .declare s _ tag
  define s _ d _ := .define s _ d

theorem predeclare_quiet (d : Declaration) (s : ScopeId) : Quiet (predeclare s d) :=
  predeclare_habit quiet_habit d (p := []) (sitesNamed_any _) s

namespace Quiet

theorem resolveEnum (s : ScopeId) (e : EnumDecl) : Quiet (resolveEnum s e) :=
  quiet_habit.resolveEnum (fun _ _ => trivial) s

theorem resolveBases (s : ScopeId) (bs : List BaseDecl) : Quiet (resolveBases s bs) :=
  quiet_habit.resolveBases s bs

theorem openRecord (s : ScopeId) (tag : AggregateKind) (name : Option String) :
    Quiet (openRecord s tag name) :=
  quiet_habit.openRecord (fun _ _ => trivial) s tag

theorem closeRecord (s : ScopeId) (body : Aggregate) (name : Option String) :
    Quiet (closeRecord s body name) :=
  quiet_habit.closeRecord (fun _ _ => trivial) s body

end Quiet

namespace Defers

variable {f : α → ResolveM β}

theorem bind_ok (hx : Defers x z es) {a : α} (hrun : x.run z = (.ok a, z'))
    (hf : Defers (f a) z' fs) : Defers (x >>= f) z (es ++ fs) := by
  unfold Defers at hx hf ⊢
  rw [hrun] at hx
  rw [run_bind_ok hrun, hf, show z'.deferred = _ from hx, List.append_assoc]

theorem bind_error (hx : Defers x z es) {e : LayoutError} (hrun : x.run z = (.error e, z')) :
    Defers (x >>= f) z es := by
  unfold Defers at hx ⊢
  rw [hrun] at hx
  rw [run_bind_error hrun]
  exact hx

theorem bind_quiet (hx : Defers x z es) (hf : ∀ a, Quiet (f a)) : Defers (x >>= f) z es := by
  rcases hrun : x.run z with ⟨e | a, z'⟩
  · exact hx.bind_error hrun
  · exact (List.append_nil es) ▸ hx.bind_ok hrun ((hf a).defers z')

theorem ask {g : Registry → ResolveM β} (h : Defers (g z.registry) z es) :
    Defers (ResolveM.registry >>= g) z es :=
  (Quiet.registry.defers z).bind_ok rfl h

theorem check {y : Except LayoutError α} (herror : ∀ e, y = .error e → es = [])
    (hok : ∀ a, y = .ok a → Defers (f a) z es) :
    Defers (MonadExcept.ofExcept y >>= f) z es := by
  cases y with
  | error e =>
    rw [herror e rfl]
    exact ((Quiet.ofExcept _).defers z).bind_error (run_ofExcept _ z)
  | ok a => exact ((Quiet.ofExcept _).defers z).bind_ok (run_ofExcept _ z) (hok a rfl)

theorem rethrow (hx : Defers x z es) (f : LayoutError → LayoutError) :
    Defers (tryCatch x fun e => throw (f e)) z es := by
  unfold Defers at hx ⊢
  rw [← hx]
  rcases hrun : x.run z with ⟨e | a, z'⟩
  · rw [run_tryCatch_error hrun]
    rfl
  · rw [run_tryCatch_ok hrun]

end Defers

def failure? : Except LayoutError α → Option LayoutError
  | .error e => some e
  | .ok _ => none

theorem failure?_eq_none {a : Except LayoutError α} : failure? a = none ↔ ∃ b, a = .ok b := by
  cases a with
  | error e => exact ⟨nofun, nofun⟩
  | ok b => exact ⟨fun _ => ⟨b, rfl⟩, fun _ => rfl⟩

theorem run_setAside (d : Declaration) (x : ResolveM α) (z : Resolution) :
    ((setAside d x).run z).1 = .ok () := by
  unfold setAside
  rcases hrun : (discard x).run z with ⟨e | _, z'⟩
  · rw [run_tryCatch_error hrun]
    rfl
  · rw [run_tryCatch_ok hrun]

theorem Defers.setAside (hx : Defers x z es) (d : Declaration) :
    Defers (setAside d x) z (es ++ (failure? (x.run z).1).toList) := by
  unfold Defers at hx ⊢
  rcases hrun : x.run z with ⟨e | a, z'⟩
  · rw [hrun] at hx
    rw [TypeLayout.setAside, run_tryCatch_error (run_discard_error hrun), ← List.append_assoc,
      ← hx]
    rfl
  · rw [hrun] at hx
    have hdiscard : (discard x).run z = (.ok (), z') := run_discard_eq_ok.mpr ⟨a, hrun⟩
    rw [TypeLayout.setAside, run_tryCatch_ok hdiscard]
    simpa [failure?] using hx

end TypeLayout
