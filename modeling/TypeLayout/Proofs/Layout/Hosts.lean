import TypeLayout.Layout.Engine
/-! One computation on two hosts, neither of which need give plain results. A relation between
computations that holds of results, of binds, of named members and of notes holds of everything an
aggregate does, if it holds of every layout that may be asked for below it. -/

namespace TypeLayout

open LayoutHost (note)

variable {m n : Type → Type} [Monad m] [MonadExceptOf LayoutError m] [LayoutHost m]
  [Monad n] [MonadExceptOf LayoutError n] [LayoutHost n]

/-- A relation that computations on two hosts keep step by step. -/
structure Relates (R : ∀ α, m α → n α → Prop) : Prop where
  lift : ∀ {α} (x : Except LayoutError α), R α (ofExcept x) (ofExcept x)
  bind : ∀ {α β} {x : m α} {y : n α} {f : α → m β} {g : α → n β}, R α x y →
    (∀ a, R β (f a) (g a)) → R β (x >>= f) (y >>= g)
  inMember : ∀ {α} {x : m α} {y : n α} (name : String), R α x y →
    R α (inMember name x) (inMember name y)
  note : ∀ e, R Unit (note e) (note e)

namespace Relates

variable {R : ∀ α, m α → n α → Prop} {env : LayoutEnv} {f : Descend m} {g : Descend n}
  {trail : Trail} {a : Aggregate} {owner : String}

theorem pure (hR : Relates R) {α : Type} (x : α) : R α (pure x) (pure x) := hR.lift (.ok x)

theorem throw (hR : Relates R) {α : Type} (e : LayoutError) : R α (throw e) (throw e) :=
  hR.lift (.error e)

theorem noteSlot (hR : Relates R) (owner : String) (flags : Flags) (bs : List LaidBase) :
    R Unit (LayoutEnv.noteSlot owner flags bs) (LayoutEnv.noteSlot owner flags bs) := by
  unfold LayoutEnv.noteSlot
  split
  · exact hR.note _
  · split
    · exact hR.note _
    · exact hR.pure ()

section

variable (hR : Relates R)
  (below : ∀ name d, R Layout (f (trail.enter name) d) (g (trail.enter name) d))
include hR below

theorem overlayMember (x : Member) (o : Overlay) :
    R Overlay (env.overlayMember f trail x o) (env.overlayMember g trail x o) := by
  unfold LayoutEnv.overlayMember
  split
  · refine hR.bind (hR.lift _) fun unit => ?_
    split
    · exact hR.pure o
    · exact hR.pure _
  · exact hR.bind (hR.inMember _ (below _ _)) fun l => hR.pure _

theorem overlayMembers (xs : List Member) (o : Overlay) :
    R Overlay (env.overlayMembers f trail xs o) (env.overlayMembers g trail xs o) := by
  induction xs generalizing o with
  | nil => exact hR.pure o
  | cons x xs ih => exact hR.bind (hR.overlayMember below x o) ih

theorem union (a : Aggregate) (owner : String) :
    R Layout (env.union f trail a owner) (env.union g trail a owner) := by
  have hrest : R Layout
      (if a.members.all (·.isSeparator) then Pure.pure .emptyUnion
        else do
          let o ← env.overlayMembers f trail a.members {}
          ofExcept (o.finish owner))
      (if a.members.all (·.isSeparator) then Pure.pure .emptyUnion
        else do
          let o ← env.overlayMembers g trail a.members {}
          ofExcept (o.finish owner)) := by
    split
    · exact hR.pure _
    · exact hR.bind (hR.overlayMembers below a.members {}) fun o => hR.lift _
  unfold LayoutEnv.union
  dsimp only
  split
  · exact hR.bind (hR.note _) fun _ => hrest
  · exact hrest

theorem laidBases (bs : List BaseSpec) :
    R (List LaidBase) (env.laidBases f trail bs) (env.laidBases g trail bs) := by
  induction bs with
  | nil => exact hR.pure []
  | cons b bs ih =>
    refine hR.bind (hR.lift _) fun id => ?_
    refine hR.bind (below _ _) fun l => ?_
    exact hR.bind ih fun rest => hR.pure _

theorem placeMember (x : Member) (d : Draft) :
    R Draft (env.placeMember f trail owner x d) (env.placeMember g trail owner x d) := by
  unfold LayoutEnv.placeMember
  split
  · refine hR.bind (hR.lift _) fun unit => ?_
    split
    · exact hR.lift _
    · refine hR.bind (hR.lift _) fun p => ?_
      exact hR.bind (hR.note _) fun _ => hR.pure _
  · refine hR.bind (hR.inMember _ (below _ _)) fun l => ?_
    refine hR.bind (hR.lift _) fun d => ?_
    exact hR.bind (hR.note _) fun _ => hR.pure _

theorem placeMembers (xs : List Member) (d : Draft) :
    R Draft (env.placeMembers f trail owner xs d) (env.placeMembers g trail owner xs d) := by
  induction xs generalizing d with
  | nil => exact hR.pure d
  | cons x xs ih => exact hR.bind (hR.placeMember below x d) ih

theorem placeVirtualBases (ids : List TypeId) (d : Draft) :
    R Draft (env.placeVirtualBases f trail owner ids d)
      (env.placeVirtualBases g trail owner ids d) := by
  induction ids generalizing d with
  | nil => exact hR.pure d
  | cons id ids ih =>
    refine hR.bind (below _ _) fun l => ?_
    exact hR.bind (hR.lift _) ih

theorem record (a : Aggregate) (owner : String) :
    R Layout (env.record f trail a owner) (env.record g trail a owner) := by
  unfold LayoutEnv.record
  refine hR.bind (hR.laidBases below a.bases) fun bs => ?_
  refine hR.bind (hR.noteSlot _ _ _) fun _ => ?_
  refine hR.bind (hR.lift _) fun d => ?_
  refine hR.bind (hR.placeMembers below a.members d) fun d => ?_
  refine hR.bind (hR.lift _) fun nvSize => ?_
  refine hR.bind (hR.placeVirtualBases below _ _) fun d => ?_
  exact hR.bind (hR.lift _) fun p => hR.pure _

theorem aggregate (a : Aggregate) (owner : String) :
    R Layout (env.aggregate f trail a owner) (env.aggregate g trail a owner) := by
  unfold LayoutEnv.aggregate
  split
  · exact hR.bind (hR.union below a owner) fun l => hR.bind (hR.note _) fun _ => hR.pure l
  · exact hR.bind (hR.record below a owner) fun l => hR.bind (hR.note _) fun _ => hR.pure l

theorem layoutStep (same : ∀ d, R Layout (f trail d) (g trail d)) {d : Descriptor}
    (named : ∀ id, d = .named id →
      R Layout (env.layoutStep f trail (.named id)) (env.layoutStep g trail (.named id))) :
    R Layout (env.layoutStep f trail d) (env.layoutStep g trail d) := by
  cases d with
  | fundamental kind => exact hR.lift _
  | pointer d => exact hR.pure _
  | array x count => exact hR.bind (same x) fun l => hR.lift _
  | enum e => exact hR.lift _
  | aggregate a => exact hR.aggregate below a _
  | named id => exact named id rfl

end

theorem named (hR : Relates R) (same : ∀ d, R Layout (f trail d) (g trail d)) (id : TypeId)
    (body : ∀ a, R Layout (env.namedAggregate f trail id a) (env.namedAggregate g trail id a)) :
    R Layout (env.layoutStep f trail (.named id)) (env.layoutStep g trail (.named id)) := by
  refine hR.bind (hR.lift _) fun d => ?_
  cases d with
  | typedef t => exact same t
  | enum e => exact hR.lift _
  | aggregate a => exact body a

end Relates

/-- One that fetching and storing keep as well. -/
structure Commutes (R : ∀ α, m α → n α → Prop) : Prop extends Relates R where
  fetch : ∀ key, R (Option Layout) (LayoutHost.fetch key) (LayoutHost.fetch key)
  store : ∀ key l, R Layout (LayoutHost.store key l) (LayoutHost.store key l)

namespace Commutes

variable {R : ∀ α, m α → n α → Prop} {env : LayoutEnv} {f : Descend m} {g : Descend n}
  {trail : Trail}

theorem namedAggregate (hR : Commutes R) (id : TypeId) {a : Aggregate}
    (body : R Layout (env.aggregate f (⟨id, ""⟩ :: trail) a (env.registry.qualifiedName id))
      (env.aggregate g (⟨id, ""⟩ :: trail) a (env.registry.qualifiedName id))) :
    R Layout (env.namedAggregate f trail id a) (env.namedAggregate g trail id a) := by
  unfold LayoutEnv.namedAggregate
  dsimp only
  cases trail.find? (·.id == id) with
  | some frame => exact hR.throw _
  | none =>
    refine hR.bind (hR.fetch _) fun found => ?_
    cases found with
    | some l => exact hR.pure l
    | none => exact hR.bind body fun l => hR.store _ l

theorem layoutWithin (hR : Commutes R) (env : LayoutEnv) (k : Nat) (trail : Trail)
    (d : Descriptor) : R Layout (env.layoutWithin k trail d) (env.layoutWithin k trail d) := by
  induction k generalizing trail d with
  | zero => exact hR.throw _
  | succ k ih =>
    refine hR.layoutStep (fun name d => ih _ d) (ih trail) ?_
    rintro id -
    refine hR.named (ih trail) id fun a => hR.namedAggregate id ?_
    exact hR.aggregate (fun name d => ih _ d) a _

theorem layoutOf (hR : Commutes R) (env : LayoutEnv) (d : Descriptor) :
    R Layout (env.layoutOf d) (env.layoutOf d) :=
  hR.layoutWithin env _ [] d

end Commutes

end TypeLayout
