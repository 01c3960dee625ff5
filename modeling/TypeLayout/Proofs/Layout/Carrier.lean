import TypeLayout.Layout.Engine
/-! One computation in two carriers. A relation between the computations of a carrier and plain
results that holds of results, of binds, of named members and of notes holds of everything an
aggregate does, if it holds of the layouts that the aggregate asks for. -/

namespace TypeLayout

open LayoutHost (note)

@[simp] theorem ofExcept_eq {ε α : Type} (x : Except ε α) :
    (ofExcept x : Except ε α) = x := by cases x <;> rfl

/-- The second side of a bind need only be related at the answers of the first. -/
structure Carries (m : Type → Type) [Monad m] [MonadExceptOf LayoutError m] [LayoutHost m]
    (R : ∀ α, m α → Except LayoutError α → Prop) : Prop where
  lift : ∀ {α} (x : Except LayoutError α), R α (ofExcept x) (ofExcept x)
  bind : ∀ {α β} {x : m α} {y : Except LayoutError α} {f : α → m β}
    {g : α → Except LayoutError β}, R α x y → (∀ a, y = .ok a → R β (f a) (g a)) →
    R β (x >>= f) (y >>= g)
  inMember : ∀ {α} {x : m α} {y : Except LayoutError α} (name : String), R α x y →
    R α (inMember name x) (inMember name y)
  note : ∀ e, R Unit (note e) (note e)

namespace LayoutEnv

/-- The layouts that an aggregate asks for, each under the name it enters first. -/
inductive Asks (env : LayoutEnv) (descend : Descend (Except LayoutError)) (trail : Trail)
    (a : Aggregate) : String → Descriptor → Prop
  | member {x : Member} : x ∈ a.members → x.bitWidth = none → Asks env descend trail a x.name x.type
  | base {b : BaseSpec} {id : TypeId} : a.kind.isUnion = false → b ∈ a.bases →
    env.baseId b = .ok id → Asks env descend trail a (env.registry.qualifiedName id) (.named id)
  | virtualBase {bs : List LaidBase} {id : TypeId} : a.kind.isUnion = false →
    env.laidBases descend trail a.bases = .ok bs → id ∈ LaidBase.virtualBases bs →
    Asks env descend trail a (env.registry.qualifiedName id) (.named id)

variable {m : Type → Type} [Monad m] [MonadExceptOf LayoutError m] [LayoutHost m]
  {R : ∀ α, m α → Except LayoutError α → Prop}

/-- Two environments that an aggregate cannot tell apart. -/
structure Matches (R : ∀ α, m α → Except LayoutError α → Prop) (env env' : LayoutEnv)
    (descend : Descend (Except LayoutError)) (trail : Trail) (a : Aggregate) : Prop where
  machine : env.machine = env'.machine
  policy : env.policy = env'.policy
  typeName : ∀ x ∈ a.members, env.registry.typeName x.type = env'.registry.typeName x.type
  fittingUnit : ∀ x ∈ a.members, ∀ width,
    R StorageUnit (ofExcept (env.fittingUnit x width)) (ofExcept (env'.fittingUnit x width))
  baseId : ∀ b ∈ a.bases, R TypeId (ofExcept (env.baseId b)) (ofExcept (env'.baseId b))
  name : ∀ name id, env'.Asks descend trail a name (.named id) →
    env.registry.qualifiedName id = env'.registry.qualifiedName id

theorem Matches.same (hR : Carries m R) (env : LayoutEnv) (descend : Descend (Except LayoutError))
    (trail : Trail) (a : Aggregate) : Matches R env env descend trail a where
  machine := rfl
  policy := rfl
  typeName _ _ := rfl
  fittingUnit _ _ _ := hR.lift _
  baseId _ _ := hR.lift _
  name _ _ _ := rfl

variable {env env' : LayoutEnv} {f : Descend m} {g : Descend (Except LayoutError)}
  {trail trail' : Trail} {a : Aggregate} {owner : String}

def Carried (R : ∀ α, m α → Except LayoutError α → Prop) (env' : LayoutEnv) (f : Descend m)
    (g : Descend (Except LayoutError)) (trail trail' : Trail) (a : Aggregate) : Prop :=
  ∀ name d, env'.Asks g trail' a name d →
    R Layout (f (trail.enter name) d) (g (trail'.enter name) d)

end LayoutEnv

namespace Carries

open LayoutEnv

variable {m : Type → Type} [Monad m] [MonadExceptOf LayoutError m] [LayoutHost m]
  {R : ∀ α, m α → Except LayoutError α → Prop} {env env' : LayoutEnv} {f : Descend m}
  {g : Descend (Except LayoutError)} {trail trail' : Trail} {a : Aggregate} {owner : String}

theorem pure (hR : Carries m R) {α : Type} (x : α) : R α (pure x) (pure x) := hR.lift (.ok x)

theorem throw (hR : Carries m R) {α : Type} (e : LayoutError) : R α (throw e) (throw e) :=
  hR.lift (.error e)

theorem overlayMember (hR : Carries m R) (he : Matches R env env' g trail' a)
    (hd : Carried R env' f g trail trail' a) {x : Member} (hx : x ∈ a.members) (o : Overlay) :
    R Overlay (env.overlayMember f trail x o) (env'.overlayMember g trail' x o) := by
  unfold LayoutEnv.overlayMember
  rw [he.typeName x hx]
  split
  next width hw =>
    refine hR.bind (he.fittingUnit x hx width) fun unit _ => ?_
    split
    · exact hR.pure o
    · exact hR.pure _
  next hw =>
    exact hR.bind (hR.inMember _ (hd _ _ (.member hx hw))) fun l _ => hR.pure _

theorem overlayMembers (hR : Carries m R) (he : Matches R env env' g trail' a)
    (hd : Carried R env' f g trail trail' a) {xs : List Member} (hxs : ∀ x ∈ xs, x ∈ a.members)
    (o : Overlay) :
    R Overlay (env.overlayMembers f trail xs o) (env'.overlayMembers g trail' xs o) := by
  induction xs generalizing o with
  | nil => exact hR.pure o
  | cons x xs ih =>
    refine hR.bind (hR.overlayMember he hd (hxs x List.mem_cons_self) o) fun o _ => ?_
    exact ih (fun y hy => hxs y (List.mem_cons_of_mem x hy)) o

theorem union (hR : Carries m R) (he : Matches R env env' g trail' a)
    (hd : Carried R env' f g trail trail' a) (owner : String) :
    R Layout (env.union f trail a owner) (env'.union g trail' a owner) := by
  have hrest : R Layout
      (if a.members.all (·.isSeparator) then Pure.pure .emptyUnion
        else do
          let o ← env.overlayMembers f trail a.members {}
          ofExcept (o.finish owner))
      (if a.members.all (·.isSeparator) then Pure.pure .emptyUnion
        else do
          let o ← env'.overlayMembers g trail' a.members {}
          ofExcept (o.finish owner)) := by
    split
    · exact hR.pure _
    · exact hR.bind (hR.overlayMembers he hd (fun x hx => hx) {}) fun o _ => hR.lift _
  unfold LayoutEnv.union
  dsimp only
  split
  · exact hR.bind (hR.note _) fun _ _ => hrest
  · exact hrest

theorem laidBases (hR : Carries m R) (he : Matches R env env' g trail' a)
    (hd : Carried R env' f g trail trail' a) (hu : a.kind.isUnion = false) {bs : List BaseSpec}
    (hbs : ∀ b ∈ bs, b ∈ a.bases) :
    R (List LaidBase) (env.laidBases f trail bs) (env'.laidBases g trail' bs) := by
  induction bs with
  | nil => exact hR.pure []
  | cons b bs ih =>
    have hb := hbs b List.mem_cons_self
    refine hR.bind (he.baseId b hb) fun id hid => ?_
    have hask : env'.Asks g trail' a (env'.registry.qualifiedName id) (.named id) :=
      .base hu hb (by rwa [ofExcept_eq] at hid)
    rw [he.name _ id hask]
    refine hR.bind (hd _ _ hask) fun l _ => ?_
    exact hR.bind (ih fun c hc => hbs c (List.mem_cons_of_mem b hc)) fun rest _ => hR.pure _

theorem placeBases_eq (hp : env.policy = env'.policy) (owner : String) (bs : List LaidBase)
    (d : Draft) : env.placeBases owner bs d = env'.placeBases owner bs d := by
  induction bs generalizing d with
  | nil => rfl
  | cons b bs ih =>
    simp only [LayoutEnv.placeBases, hp, ih]
    congr 2
    funext d
    exact ih d

theorem placeMember (hR : Carries m R) (he : Matches R env env' g trail' a)
    (hd : Carried R env' f g trail trail' a) {x : Member} (hx : x ∈ a.members) (d : Draft) :
    R Draft (env.placeMember f trail owner x d) (env'.placeMember g trail' owner x d) := by
  unfold LayoutEnv.placeMember
  rw [he.typeName x hx]
  split
  next width hw =>
    refine hR.bind (he.fittingUnit x hx width) fun unit _ => ?_
    split
    · exact hR.lift _
    · refine hR.bind (hR.lift _) fun p _ => ?_
      exact hR.bind (hR.note _) fun _ _ => hR.pure _
  next hw =>
    refine hR.bind (hR.inMember _ (hd _ _ (.member hx hw))) fun l _ => ?_
    refine hR.bind (hR.lift _) fun d _ => ?_
    exact hR.bind (hR.note _) fun _ _ => hR.pure _

theorem placeMembers (hR : Carries m R) (he : Matches R env env' g trail' a)
    (hd : Carried R env' f g trail trail' a) {xs : List Member} (hxs : ∀ x ∈ xs, x ∈ a.members)
    (d : Draft) :
    R Draft (env.placeMembers f trail owner xs d) (env'.placeMembers g trail' owner xs d) := by
  induction xs generalizing d with
  | nil => exact hR.pure d
  | cons x xs ih =>
    refine hR.bind (hR.placeMember he hd (hxs x List.mem_cons_self) d) fun d _ => ?_
    exact ih (fun y hy => hxs y (List.mem_cons_of_mem x hy)) d

theorem placeVirtualBases (hR : Carries m R) (he : Matches R env env' g trail' a)
    (hd : Carried R env' f g trail trail' a) {ids : List TypeId}
    (hids : ∀ id ∈ ids, env'.Asks g trail' a (env'.registry.qualifiedName id) (.named id))
    (d : Draft) :
    R Draft (env.placeVirtualBases f trail owner ids d)
      (env'.placeVirtualBases g trail' owner ids d) := by
  induction ids generalizing d with
  | nil => exact hR.pure d
  | cons id ids ih =>
    have hask := hids id List.mem_cons_self
    unfold LayoutEnv.placeVirtualBases
    rw [he.name _ id hask, he.policy]
    refine hR.bind (hd _ _ hask) fun l _ => ?_
    refine hR.bind (hR.lift _) fun d _ => ?_
    exact ih (fun i hi => hids i (List.mem_cons_of_mem id hi)) d

theorem noteSlot (hR : Carries m R) (owner : String) (flags : Flags) (bs : List LaidBase) :
    R Unit (LayoutEnv.noteSlot owner flags bs) (LayoutEnv.noteSlot owner flags bs) := by
  unfold LayoutEnv.noteSlot
  split
  · exact hR.note _
  · split
    · exact hR.note _
    · exact hR.pure ()

theorem record (hR : Carries m R) (he : Matches R env env' g trail' a)
    (hd : Carried R env' f g trail trail' a) (hu : a.kind.isUnion = false) (owner : String) :
    R Layout (env.record f trail a owner) (env'.record g trail' a owner) := by
  unfold LayoutEnv.record
  refine hR.bind (hR.laidBases he hd hu fun b hb => hb) fun bs hbs => ?_
  refine hR.bind (hR.noteSlot _ _ _) fun _ _ => ?_
  have hopen : env.openDraft owner (a.flagsOver bs) bs =
      env'.openDraft owner (a.flagsOver bs) bs := by
    simp only [LayoutEnv.openDraft, he.machine]
  rw [hopen, placeBases_eq he.policy]
  refine hR.bind (hR.lift _) fun d _ => ?_
  refine hR.bind (hR.placeMembers he hd (fun x hx => hx) d) fun d _ => ?_
  refine hR.bind (hR.lift _) fun nvSize _ => ?_
  have hids : ∀ id ∈ LaidBase.virtualBases bs,
      env'.Asks g trail' a (env'.registry.qualifiedName id) (.named id) :=
    fun id hid => .virtualBase hu hbs hid
  refine hR.bind ?_ fun d _ => hR.bind (hR.lift _) fun p _ => hR.pure _
  exact hR.placeVirtualBases he hd hids _

theorem aggregate (hR : Carries m R) (he : Matches R env env' g trail' a)
    (hd : Carried R env' f g trail trail' a) (owner : String) :
    R Layout (env.aggregate f trail a owner) (env'.aggregate g trail' a owner) := by
  unfold LayoutEnv.aggregate
  split
  next => exact hR.bind (hR.union he hd owner) fun l _ => hR.bind (hR.note _) fun _ _ => hR.pure l
  next hu =>
    refine hR.bind (hR.record he hd (by simpa using hu) owner) fun l _ => ?_
    exact hR.bind (hR.note _) fun _ _ => hR.pure l

theorem layoutStep (hR : Carries m R) (hm : env.machine = env'.machine) {d : Descriptor}
    (element : ∀ x n, d = .array x n → R Layout (f trail x) (g trail' x))
    (array : ∀ x n l, d = .array x n →
      R Layout (ofExcept (env.array x n l)) (ofExcept (env'.array x n l)))
    (inline : ∀ a, d = .aggregate a →
      R Layout (env.aggregate f trail a a.displayName) (env'.aggregate g trail' a a.displayName))
    (definition : ∀ id, d = .named id → R Definition (ofExcept (env.registry.definition id))
      (ofExcept (env'.registry.definition id)))
    (typedef : ∀ id t, d = .named id → env'.registry.definition id = .ok (.typedef t) →
      R Layout (f trail t) (g trail' t))
    (body : ∀ id a, d = .named id → env'.registry.definition id = .ok (.aggregate a) →
      R Layout (env.namedAggregate f trail id a) (env'.namedAggregate g trail' id a)) :
    R Layout (env.layoutStep f trail d) (env'.layoutStep g trail' d) := by
  have hkind : ∀ kind, env.fundamental kind = env'.fundamental kind := by
    intro kind
    simp only [LayoutEnv.fundamental, hm]
  cases d with
  | fundamental kind =>
    simp only [LayoutEnv.layoutStep, hkind]
    exact hR.lift _
  | pointer d =>
    simp only [LayoutEnv.layoutStep, LayoutEnv.pointer, hm]
    exact hR.pure _
  | array x n => exact hR.bind (element x n rfl) fun l _ => array x n l rfl
  | enum e =>
    simp only [LayoutEnv.layoutStep, hkind]
    exact hR.lift _
  | aggregate a => exact inline a rfl
  | named id =>
    refine hR.bind (definition id rfl) fun d hd => ?_
    rw [ofExcept_eq] at hd
    cases d with
    | typedef t => exact typedef id t rfl hd
    | enum e =>
      simp only [hkind]
      exact hR.lift _
    | aggregate a => exact body id a rfl hd

end Carries

end TypeLayout
