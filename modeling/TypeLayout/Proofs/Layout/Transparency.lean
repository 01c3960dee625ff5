import TypeLayout.Profile
import TypeLayout.Proofs.Layout.Coherence
import TypeLayout.Proofs.Layout.Stack
import TypeLayout.Proofs.Registry.Mutation
/-! Stored layouts are never seen in an answer. Clients declare, define, make engines and ask them for
layouts in any order; the engines share a cache and are used again after an error as after a result.
What holds between any two calls is that the cache is coherent and that no engine has an aggregate in
progress. -/

namespace TypeLayout

open Registry

/-- An engine is made for a profile and a policy. It carries its stack from one layout to the next. -/
structure Engine where
  profile : Profile
  policy : BasePolicy
  inProgress : List Frame := []

namespace Engine

variable {e : Engine} {r : Registry} {desk : Desk}

def env (e : Engine) (r : Registry) : LayoutEnv := ⟨r, e.profile.machine, e.policy⟩

def ask (e : Engine) (r : Registry) (d : Descriptor) (desk : Desk) :
    Except LayoutError Layout × Desk × Engine :=
  let (l, b) := (layout (e.env r) d).run ⟨desk, e.inProgress⟩
  (l, b.desk, { e with inProgress := b.inProgress })

def freshAnswer (e : Engine) (r : Registry) (d : Descriptor) : Except LayoutError Layout :=
  (ask ⟨e.profile, e.policy, []⟩ r d { caching := false }).1

theorem ask_of_idle (h : e.inProgress = []) (hr : r.Founded) (hdesk : desk.cache.Coherent r)
    (d : Descriptor) : ∃ desk', e.ask r d desk = ((e.env r).layoutOf d, desk', e) ∧
      desk'.cache.Coherent r := by
  obtain ⟨profile, policy, inProgress⟩ := e
  obtain rfl : inProgress = [] := h
  have hfounded : (LayoutEnv.mk r profile.machine policy).registry.Founded := hr
  obtain ⟨desk', hrun, hcoherent⟩ := LayoutEnv.layoutOf_agrees hfounded d hdesk
  refine ⟨desk', ?_, hcoherent⟩
  have hrun' := layout_run ⟨r, profile.machine, policy⟩ d desk
  rw [show ((LayoutEnv.layoutOf _ d : DeskM Layout).run desk) = _ from hrun] at hrun'
  unfold ask env
  rw [hrun']

theorem freshAnswer_eq (e : Engine) (hr : r.Founded) (d : Descriptor) :
    e.freshAnswer r d = (e.env r).layoutOf d := by
  have hempty : (Desk.cache { caching := false }).Coherent r := Cache.coherent_of_stored_nil rfl
  obtain ⟨desk', hask, -⟩ := ask_of_idle (e := ⟨e.profile, e.policy, []⟩) rfl hr hempty d
  unfold freshAnswer
  rw [hask]
  rfl

end Engine

structure Workshop where
  registry : Registry
  engines : List Engine := []

def Workshop.Idle (w : Workshop) : Prop := ∀ e ∈ w.engines, e.inProgress = []

/-- What a client may do. An engine is asked by its place among the engines. -/
inductive Call
  | change (step : Step)
  | engine (profile : Profile) (policy : BasePolicy)
  | layout (engine : Nat) (d : Descriptor)

namespace Call

/-- Scopes and mentioned ids are ones that the registry has answered. -/
def Valid (r : Registry) : Call → Prop
  | change step => step.scope.index < r.scopes.size ∧ ∀ j ∈ step.mentions, j.index < r.size
  | engine _ _ => True
  | layout _ _ => True

instance decidableValid (r : Registry) : (c : Call) → Decidable (c.Valid r)
  | change step => inferInstanceAs
      (Decidable (step.scope.index < r.scopes.size ∧ ∀ j ∈ step.mentions, j.index < r.size))
  | engine _ _ => inferInstanceAs (Decidable True)
  | layout _ _ => inferInstanceAs (Decidable True)

/-- What a call changes but for the stacks. No engine outlives a change of the registry it reads. -/
def prepare (w : Workshop) : Call → Workshop
  | change step => ⟨((RegistryM.act step).run w.registry).2, []⟩
  | engine profile policy => { w with engines := w.engines ++ [{ profile, policy }] }
  | layout _ _ => w

def shared (w : Workshop) (desk : Desk) : Call → Option (Except LayoutError Layout) × Workshop × Desk
  | layout i d => match w.engines[i]? with
    | some e =>
      let (l, desk, e) := e.ask w.registry d desk
      (some l, { w with engines := w.engines.set i e }, desk)
    | none => (none, w, desk)
  | c => (none, c.prepare w, desk)

def fresh (w : Workshop) : Call → Option (Except LayoutError Layout)
  | layout i d => w.engines[i]?.map fun e => e.freshAnswer w.registry d
  | _ => none

/-- Every call is valid when its turn comes. -/
def ValidRun : Workshop → List Call → Prop
  | _, [] => True
  | w, c :: cs => c.Valid w.registry ∧ ValidRun (c.prepare w) cs

instance decidableValidRun : (w : Workshop) → (cs : List Call) → Decidable (ValidRun w cs)
  | _, [] => inferInstanceAs (Decidable True)
  | w, c :: cs =>
    have := decidableValidRun (c.prepare w) cs
    inferInstanceAs (Decidable (c.Valid w.registry ∧ ValidRun (c.prepare w) cs))

def sharedRun : Workshop → Desk → List Call → List (Option (Except LayoutError Layout)) × Workshop
  | w, _, [] => ([], w)
  | w, desk, c :: cs =>
    let (l, w, desk) := c.shared w desk
    let (ls, w) := sharedRun w desk cs
    (l :: ls, w)

def freshRun : Workshop → List Call → List (Option (Except LayoutError Layout))
  | _, [] => []
  | w, c :: cs => c.fresh w :: freshRun (c.prepare w) cs

variable {w : Workshop} {c : Call} {cs : List Call} {desk : Desk}

theorem Valid.built (hr : w.registry.Built) (h : c.Valid w.registry) :
    (c.prepare w).registry.Built := by
  cases c with
  | change step =>
    rw [prepare, RegistryM.run_act h.1]
    exact hr.perform h.1 h.2
  | engine profile policy => exact hr
  | layout i d => exact hr

theorem Valid.growsTo (h : c.Valid w.registry) : w.registry.GrowsTo (c.prepare w).registry := by
  cases c with
  | change step =>
    rw [prepare, RegistryM.run_act h.1]
    exact w.registry.growsTo_perform step
  | engine profile policy => exact .refl _
  | layout i d => exact .refl _

theorem prepare_idle (hw : w.Idle) : (c.prepare w).Idle := by
  cases c with
  | change step => exact fun e he => nomatch he
  | engine profile policy =>
    intro e he
    rcases List.mem_append.mp he with he | he
    · exact hw e he
    · obtain rfl := List.mem_singleton.mp he
      rfl
  | layout i d => exact hw

/-- A call on idle engines and a coherent desk answers what a new engine answers without a cache. It
leaves the engines as if nothing had been laid out, and the desk coherent. -/
theorem shared_of_idle (hw : w.Idle) (hr : w.registry.Founded)
    (hdesk : desk.cache.Coherent w.registry) :
    ∃ desk', c.shared w desk = (c.fresh w, c.prepare w, desk') ∧
      desk'.cache.Coherent w.registry := by
  cases c with
  | change step => exact ⟨desk, rfl, hdesk⟩
  | engine profile policy => exact ⟨desk, rfl, hdesk⟩
  | layout i d =>
    simp only [shared, fresh, prepare]
    cases he : w.engines[i]? with
    | none => exact ⟨desk, rfl, hdesk⟩
    | some e =>
      obtain ⟨desk', hask, hdesk'⟩ :=
        e.ask_of_idle (hw e (List.mem_of_getElem? he)) hr hdesk d
      have hset : w.engines.set i e = w.engines := by
        obtain ⟨hi, rfl⟩ := List.getElem?_eq_some_iff.mp he
        exact List.set_getElem_self hi
      refine ⟨desk', ?_, hdesk'⟩
      simp only [hask, hset, Option.map_some, e.freshAnswer_eq hr]

theorem sharedRun_of_coherent (hr : w.registry.Built) (hw : w.Idle) (hv : ValidRun w cs)
    (hdesk : desk.cache.Coherent w.registry) :
    (sharedRun w desk cs).1 = freshRun w cs ∧ (sharedRun w desk cs).2.Idle := by
  induction cs generalizing w desk with
  | nil => exact ⟨rfl, hw⟩
  | cons c cs ih =>
    obtain ⟨hc, hcs⟩ := hv
    have hr' := hc.built hr
    obtain ⟨desk', hcall, hdesk'⟩ := shared_of_idle (c := c) hw hr.wellFormed.toFounded hdesk
    have hnext := hdesk'.growsTo hr.wellFormed hr'.wellFormed hc.growsTo
    obtain ⟨hrest, hidle⟩ := ih hr' (prepare_idle hw) hcs hnext
    rw [sharedRun, freshRun, hcall]
    exact ⟨congrArg _ hrest, hidle⟩

/-- Whatever is declared, defined and asked for in between, engines that share stored layouts answer,
again and again, what a new engine answers without a cache on the registry of that moment. No result
and no error leaves anything in progress. -/
theorem sharedRun_eq_freshRun (hr : w.registry.Built) (hw : w.Idle) (hv : ValidRun w cs)
    (h : desk.cache.stored = []) :
    (sharedRun w desk cs).1 = freshRun w cs ∧ (sharedRun w desk cs).2.Idle :=
  sharedRun_of_coherent hr hw hv (Cache.coherent_of_stored_nil h)

/-- A forward declaration is asked for before and after its definition. Between its two layouts the
second engine fails below `Node`, at a union that holds itself; the last engine has the same machine
under another name. -/
def forwardRun : List Call :=
  [.change (.declare .global "Node" (.aggregate .structType)),
   .engine .lp64 .itaniumBaseline,
   .layout 0 (.named ⟨0⟩),
   .layout 0 (.pointer (.named ⟨0⟩)),
   .change (.define .global "Leaf"
    (.aggregate ⟨.structType, some "Leaf", [⟨"x", .fundamental .int, none⟩], [], []⟩)),
   .change (.define .global "Node" (.aggregate ⟨.structType, some "Node",
    [⟨"leaf", .named ⟨1⟩, none⟩, ⟨"next", .pointer (.named ⟨0⟩), none⟩], [], []⟩)),
   .change (.declare .global "Knot" (.aggregate .unionType)),
   .change (.define .global "Knot" (.aggregate ⟨.unionType, some "Knot",
    [⟨"node", .named ⟨0⟩, none⟩, ⟨"knots", .array (.named ⟨2⟩) 2, none⟩], [], []⟩)),
   .engine .lp64 .itaniumBaseline,
   .engine { Profile.lp64 with name := "target" } .itaniumBaseline,
   .layout 0 (.named ⟨2⟩),
   .layout 0 (.array (.named ⟨0⟩) 3),
   .layout 0 (.named ⟨2⟩),
   .layout 1 (.named ⟨1⟩)]

theorem forwardRun_shared : Registry.empty.Built ∧ Workshop.Idle ⟨.empty, []⟩ ∧
    ValidRun ⟨.empty, []⟩ forwardRun ∧
    (sharedRun ⟨.empty, []⟩ {} forwardRun).1 = freshRun ⟨.empty, []⟩ forwardRun ∧
    (sharedRun ⟨.empty, []⟩ {} forwardRun).2.Idle := by
  have hvalid : ValidRun ⟨.empty, []⟩ forwardRun := by decide +kernel
  have hidle : Workshop.Idle ⟨.empty, []⟩ := fun e he => nomatch he
  exact ⟨.empty, hidle, hvalid, sharedRun_eq_freshRun .empty hidle hvalid rfl⟩

end Call

end TypeLayout
