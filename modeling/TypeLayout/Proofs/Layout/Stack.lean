import TypeLayout.Layout.Cache
import TypeLayout.Layout.Engine
import TypeLayout.Proofs.Layout.Carrier
import TypeLayout.Proofs.Stateful
import Mathlib.Data.List.Nodup
import Mathlib.Data.List.ModifyLast
/-! Laying out with a stack. An engine keeps the aggregates in progress in its state: each is pushed
before its body is laid out and popped behind it, whether the body fails or not, and a member that
is entered is written into the last frame. Along a trail without repetitions the engine answers what
is answered with the trail handed down; only the member of the last frame is not put back. -/

namespace TypeLayout

open LayoutHost (note fetch store)

structure Bench where
  desk : Desk
  inProgress : List Frame := []

/-- A failed step keeps the stack as well. -/
abbrev EngineM := ExceptT LayoutError (StateM Bench)

namespace EngineM

variable {α : Type}

def lift (x : DeskM α) : EngineM α := ExceptT.mk fun b =>
  let (a, desk) := x.run b.desk
  (a, { b with desk := desk })

instance : LayoutHost EngineM where
  fetch key := lift (fetch key)
  store key l := lift (store key l)
  note e := lift (note e)

def inProgress : EngineM (List Frame) := do return (← get).inProgress

def enter (name : String) : EngineM Unit :=
  modify fun b => { b with inProgress := b.inProgress.modifyLast ({ · with member := name }) }

def push (f : Frame) : EngineM Unit :=
  modify fun b => { b with inProgress := b.inProgress ++ [f] }

def pop : EngineM Unit := modify fun b => { b with inProgress := b.inProgress.dropLast }

/-- A step with an aggregate on the stack. Its failure is not passed on before the aggregate is
popped. -/
def within (id : TypeId) (x : EngineM α) : EngineM α := do
  push ⟨id, ""⟩
  let a ← ExceptT.lift x.run
  pop
  ofExcept a

end EngineM

namespace Engine

open EngineM (enter inProgress within)

variable (env : LayoutEnv) (descend : Descriptor → EngineM Layout)

def overlayMember (x : Member) (o : Overlay) : EngineM Overlay := do
  enter x.name
  match x.bitWidth with
  | some width => do
    let unit ← ofExcept (env.fittingUnit x width)
    if width = 0 then pure o
    else
      pure (o.add ⟨x.name, env.registry.typeName x.type, 0, unit.size, unit.align,
        .bits unit.size 0 width⟩)
  | none => do
    let l ← inMember x.name (descend x.type)
    pure (o.add ⟨x.name, env.registry.typeName x.type, 0, l.size, l.align, .whole⟩)

def overlayMembers : List Member → Overlay → EngineM Overlay
  | [], o => pure o
  | x :: xs, o => do
    let o ← overlayMember env descend x o
    overlayMembers xs o

def union (a : Aggregate) (owner : String) : EngineM Layout := do
  if !a.bases.isEmpty || a.declaresVirtual then note (.unionIgnoresBases a.displayName)
  if a.members.all (·.isSeparator) then pure .emptyUnion
  else
    let o ← overlayMembers env descend a.members {}
    ofExcept (o.finish owner)

def laidBases : List BaseSpec → EngineM (List LaidBase)
  | [] => pure []
  | b :: bs => do
    let id ← ofExcept (env.baseId b)
    let name := env.registry.qualifiedName id
    enter name
    let l ← descend (.named id)
    let rest ← laidBases bs
    pure (⟨id, name, b.isVirtual, l⟩ :: rest)

def placeMember (owner : String) (x : Member) (d : Draft) : EngineM Draft := do
  enter x.name
  match x.bitWidth with
  | some width => do
    let unit ← ofExcept (env.fittingUnit x width)
    if width = 0 then ofExcept (d.separate owner x.name unit)
    else
      let (p, d) ← ofExcept (d.addBits owner x.name (env.registry.typeName x.type) unit width)
      note (.placedBits owner x.name p.offset p.bitOffset)
      pure d
  | none => do
    let l ← inMember x.name (descend x.type)
    let d ← ofExcept (d.addField owner x.name (env.registry.typeName x.type) l)
    note (.placedField owner x.name (d.offset - l.size) l.size)
    pure d

def placeMembers (owner : String) : List Member → Draft → EngineM Draft
  | [], d => pure d
  | x :: xs, d => do
    let d ← placeMember env descend owner x d
    placeMembers owner xs d

def placeVirtualBases (owner : String) : List TypeId → Draft → EngineM Draft
  | [], d => pure d
  | id :: ids, d => do
    let name := env.registry.qualifiedName id
    enter name
    let l ← descend (.named id)
    let d ← ofExcept (d.addBase env.policy owner name l true)
    placeVirtualBases owner ids d

def record (a : Aggregate) (owner : String) : EngineM Layout := do
  let bs ← laidBases env descend a.bases
  let flags := a.flagsOver bs
  let virtualBases := LaidBase.virtualBases bs
  LayoutEnv.noteSlot owner flags bs
  let d ← ofExcept (env.placeBases owner bs (env.openDraft owner flags bs))
  let d ← placeMembers env descend owner a.members d
  let nvAlign := d.align
  let nvSize ← ofExcept (d.rounded owner)
  let d ← placeVirtualBases env descend owner virtualBases
    (if virtualBases.isEmpty then d else d.padTo nvSize)
  let (size, d) ← ofExcept (d.finish owner flags)
  pure
    { size := size
      align := d.align
      nvSize := nvSize
      nvAlign := nvAlign
      fields := d.fields
      bases := d.bases
      slots := Draft.sortSlots d.slots
      padding := d.padding
      virtualBases := virtualBases
      flags := { flags with hasBitFields := d.hasBitFields } }

def aggregate (a : Aggregate) (owner : String) : EngineM Layout := do
  let l ← if a.kind.isUnion then union env descend a owner else record env descend a owner
  note (.laidOut a.kind owner l)
  pure l

def namedAggregate (id : TypeId) (a : Aggregate) : EngineM Layout := do
  let name := env.registry.qualifiedName id
  match (← inProgress).find? (·.id == id) with
  | some frame => throw (LayoutError.cyclicAggregate name frame.member)
  | none => do
    match ← fetch (env.key id) with
    | some l => pure l
    | none => do
      let l ← within id (aggregate env descend a name)
      store (env.key id) l

def layoutStep : Descriptor → EngineM Layout
  | .fundamental kind => ofExcept (env.fundamental kind)
  | .pointer _ => pure env.pointer
  | .array element count => do
    let l ← descend element
    ofExcept (env.array element count l)
  | .enum e => ofExcept (env.fundamental e.underlying)
  | .aggregate a => aggregate env descend a a.displayName
  | .named id => do
    match ← ofExcept (env.registry.definition id) with
    | .typedef target => descend target
    | .enum e => ofExcept (env.fundamental e.underlying)
    | .aggregate a => namedAggregate env descend id a

def layoutWithin : Nat → Descriptor → EngineM Layout
  | 0, d => throw (LayoutError.cyclicAggregate (env.registry.typeName d) "")
  | n + 1, d => layoutStep env (layoutWithin n) d

def layout (d : Descriptor) : EngineM Layout := layoutWithin env (env.registry.layoutFuel d) d

end Engine

namespace Trail

variable {trail trail' : Trail}

def Distinct (trail : Trail) : Prop := (trail.map Frame.id).Nodup

/-- The trails differ in the innermost member at most. -/
def Like (trail trail' : Trail) : Prop := trail.enter "" = trail'.enter ""

theorem enter_enter (name name' : String) (trail : Trail) :
    (trail.enter name).enter name' = trail.enter name' := by
  cases trail <;> rfl

theorem like_enter (name : String) (trail : Trail) : Like (trail.enter name) trail :=
  enter_enter name "" trail

theorem Like.enter (h : Like trail trail') (name : String) :
    trail.enter name = trail'.enter name := by
  rw [← enter_enter "" name trail, ← enter_enter "" name trail']
  exact congrArg (Trail.enter name) h

theorem Distinct.enter (h : trail.Distinct) (name : String) : (trail.enter name).Distinct := by
  cases trail with
  | nil => exact h
  | cons f fs => exact h

theorem Distinct.push (h : trail.Distinct) {id : TypeId}
    (hid : trail.find? (·.id == id) = none) : Distinct (⟨id, ""⟩ :: trail) := by
  refine List.nodup_cons.mpr ⟨fun hmem => ?_, h⟩
  obtain ⟨f, hf, heq⟩ := List.mem_map.mp hmem
  exact List.find?_eq_none.mp hid f hf (beq_iff_eq.mpr heq)

theorem Distinct.find?_reverse (h : trail.Distinct) (id : TypeId) :
    trail.reverse.find? (·.id == id) = trail.find? (·.id == id) := by
  cases hfound : trail.find? (·.id == id) with
  | none =>
    rw [List.find?_eq_none] at hfound ⊢
    exact fun f hf => hfound f (List.mem_reverse.mp hf)
  | some f =>
    cases hback : trail.reverse.find? (·.id == id) with
    | none =>
      have habsent := List.find?_eq_none.mp hback f
        (List.mem_reverse.mpr (List.mem_of_find?_eq_some hfound))
      exact absurd (List.find?_some hfound) habsent
    | some g =>
      have hf : f.id = id := by simpa using List.find?_some hfound
      have hg : g.id = id := by simpa using List.find?_some hback
      have hmem := List.mem_reverse.mp (List.mem_of_find?_eq_some hback)
      rw [List.inj_on_of_nodup_map h hmem (List.mem_of_find?_eq_some hfound) (hg.trans hf.symm)]

theorem reverse_enter (name : String) (trail : Trail) :
    trail.reverse.modifyLast ({ · with member := name }) = (trail.enter name).reverse := by
  cases trail with
  | nil => rfl
  | cons f fs =>
    rw [List.reverse_cons, List.modifyLast_concat, Trail.enter, List.reverse_cons]

end Trail

open Trail (Distinct Like)

/-- With this trail on the stack the engine does what is done with the trail handed down, and leaves
the trail there but for the innermost member. -/
def Follows {α : Type} (trail : Trail) (y : EngineM α) (x : DeskM α) : Prop :=
  ∀ desk, ∃ trail', Like trail' trail ∧
    y.run ⟨desk, trail.reverse⟩ = ((x.run desk).1, ⟨(x.run desk).2, trail'.reverse⟩)

/-- It does not matter which innermost member was entered last. -/
def Heeds {α : Type} (trail : Trail) (y : EngineM α) (x : DeskM α) : Prop :=
  ∀ trail', Like trail' trail → Follows trail' y x

namespace Heeds

variable {α β : Type} {trail : Trail} {y : EngineM α} {x : DeskM α}

theorem follows (h : Heeds trail y x) : Follows trail y x := h trail rfl

theorem entered (h : Heeds trail y x) (name : String) : Heeds (trail.enter name) y x :=
  fun trail' hlike => h trail' (hlike.trans (Trail.like_enter name trail))

theorem lift (x : DeskM α) : Heeds trail (EngineM.lift x) x :=
  fun trail' _ _ => ⟨trail', rfl, rfl⟩

theorem ofExcept (a : Except LayoutError α) :
    Heeds trail (MonadExcept.ofExcept a : EngineM α) (MonadExcept.ofExcept a) := by
  intro trail' _ desk
  rw [run_ofExcept, run_ofExcept]
  exact ⟨trail', rfl, rfl⟩

theorem pure (a : α) : Heeds trail (pure a : EngineM α) (pure a) := ofExcept (.ok a)

theorem throw (e : LayoutError) : Heeds trail (throw e : EngineM α) (throw e) := ofExcept (.error e)

theorem note (e : Layout.Event) : Heeds trail (note e : EngineM Unit) (note e) := lift _

theorem noteSlot (owner : String) (flags : Flags) (bs : List LaidBase) :
    Heeds trail (LayoutEnv.noteSlot owner flags bs : EngineM Unit)
      (LayoutEnv.noteSlot owner flags bs) := by
  unfold LayoutEnv.noteSlot
  split
  · exact note _
  · split
    · exact note _
    · exact pure ()

end Heeds

namespace Follows

variable {α β : Type} {trail : Trail} {y : EngineM α} {x : DeskM α}

theorem bind (h : Follows trail y x) {g : α → EngineM β} {f : α → DeskM β}
    (hf : ∀ a, Heeds trail (g a) (f a)) : Follows trail (y >>= g) (x >>= f) := by
  intro desk
  obtain ⟨trail', hlike, hy⟩ := h desk
  rcases hrun : x.run desk with ⟨e | a, desk'⟩
  · rw [hrun] at hy
    rw [run_bind_error hrun, run_bind_error hy]
    exact ⟨trail', hlike, rfl⟩
  · rw [hrun] at hy
    rw [run_bind_ok hrun, run_bind_ok hy]
    obtain ⟨trail'', hlike', hrest⟩ := hf a trail' hlike desk'
    exact ⟨trail'', hlike'.trans hlike, hrest⟩

theorem inMember (h : Follows trail y x) (name : String) :
    Follows trail (inMember name y) (inMember name x) := by
  intro desk
  obtain ⟨trail', hlike, hy⟩ := h desk
  refine ⟨trail', hlike, ?_⟩
  unfold TypeLayout.inMember
  rcases hrun : x.run desk with ⟨e | a, desk'⟩
  · rw [hrun] at hy
    rw [run_tryCatch_error hrun, run_tryCatch_error hy]
    rfl
  · rw [hrun] at hy
    rw [run_tryCatch_ok hrun, run_tryCatch_ok hy]

theorem ask {x : DeskM α} {g : α → EngineM β} {f : α → DeskM β}
    (hf : ∀ a, Follows trail (g a) (f a)) : Follows trail (EngineM.lift x >>= g) (x >>= f) := by
  intro desk
  have hlift : (EngineM.lift x).run ⟨desk, trail.reverse⟩ =
      ((x.run desk).1, ⟨(x.run desk).2, trail.reverse⟩) := rfl
  rcases hrun : x.run desk with ⟨e | a, desk'⟩
  · rw [hrun] at hlift
    rw [run_bind_error hrun, run_bind_error hlift]
    exact ⟨trail, rfl, rfl⟩
  · rw [hrun] at hlift
    rw [run_bind_ok hrun, run_bind_ok hlift]
    exact hf a desk'

theorem check {a : Except LayoutError α} {g : α → EngineM β} {f : α → DeskM β}
    (hf : ∀ a, Follows trail (g a) (f a)) :
    Follows trail (MonadExcept.ofExcept a >>= g) (MonadExcept.ofExcept a >>= f) := by
  cases a with
  | error e => exact fun desk => ⟨trail, rfl, rfl⟩
  | ok a => exact hf a

theorem within {id : TypeId} (h : Follows (⟨id, ""⟩ :: trail) y x) :
    Follows trail (EngineM.within id y) x := by
  intro desk
  obtain ⟨trail', hlike, hrun⟩ := h desk
  rw [List.reverse_cons] at hrun
  have hpush : (EngineM.push ⟨id, ""⟩).run ⟨desk, trail.reverse⟩ =
      (.ok (), ⟨desk, trail.reverse ++ [⟨id, ""⟩]⟩) := rfl
  have hbody : (ExceptT.lift y.run : EngineM _).run ⟨desk, trail.reverse ++ [⟨id, ""⟩]⟩ =
      (.ok (x.run desk).1, ⟨(x.run desk).2, trail'.reverse⟩) := by
    change (Except.ok (y.run ⟨desk, trail.reverse ++ [⟨id, ""⟩]⟩).1,
      (y.run ⟨desk, trail.reverse ++ [⟨id, ""⟩]⟩).2) = _
    rw [hrun]
  have hpop : EngineM.pop.run ⟨(x.run desk).2, trail'.reverse⟩ =
      (.ok (), ⟨(x.run desk).2, trail.reverse⟩) := by
    cases trail' with
    | nil => cases hlike
    | cons f fs =>
      obtain rfl : fs = trail := (List.cons.inj hlike).2
      have hdrop : (f :: fs).reverse.dropLast = fs.reverse := by
        rw [List.reverse_cons, List.dropLast_concat]
      change (Except.ok (), (⟨(x.run desk).2, (f :: fs).reverse.dropLast⟩ : Bench)) = _
      rw [hdrop]
  unfold EngineM.within
  rw [run_bind_ok hpush, run_bind_ok hbody, run_bind_ok hpop, run_ofExcept]
  exact ⟨trail, rfl, rfl⟩

theorem enter {name : String} (h : Follows (trail.enter name) y x) :
    Heeds trail (EngineM.enter name >>= fun _ => y) x := by
  intro trail' hlike desk
  have henter : (EngineM.enter name).run ⟨desk, trail'.reverse⟩ =
      (.ok (), ⟨desk, (trail.enter name).reverse⟩) := by
    rw [← hlike.enter name, ← Trail.reverse_enter]
    rfl
  rw [run_bind_ok henter]
  obtain ⟨trail'', hlike', hrun⟩ := h desk
  exact ⟨trail'', (hlike'.trans (Trail.like_enter name trail)).trans hlike.symm, hrun⟩

end Follows

namespace Heeds

variable {α β : Type} {trail : Trail} {y : EngineM α} {x : DeskM α}

theorem bind (h : Heeds trail y x) {g : α → EngineM β} {f : α → DeskM β}
    (hf : ∀ a, Heeds trail (g a) (f a)) : Heeds trail (y >>= g) (x >>= f) :=
  fun trail' hlike => (h trail' hlike).bind fun a trail'' hlike' =>
    hf a trail'' (hlike'.trans hlike)

theorem enter {name : String} (h : Heeds trail y x) :
    Heeds trail (EngineM.enter name >>= fun _ => y) x :=
  (h.entered name).follows.enter

end Heeds

namespace Engine

variable {env : LayoutEnv} {g : Descriptor → EngineM Layout} {f : Descend DeskM} {trail : Trail}

def Below (g : Descriptor → EngineM Layout) (f : Descend DeskM) (trail : Trail) : Prop :=
  ∀ name d, Follows (trail.enter name) (g d) (f (trail.enter name) d)

section

variable (below : Below g f trail)
include below

theorem overlayMember_heeds (x : Member) (o : Overlay) :
    Heeds trail (overlayMember env g x o) (env.overlayMember f trail x o) := by
  unfold overlayMember LayoutEnv.overlayMember
  cases x.bitWidth with
  | some width =>
    refine Heeds.enter ((Heeds.ofExcept _).bind fun unit => ?_)
    split
    · exact .pure o
    · exact .pure _
  | none =>
    exact Follows.enter (((below _ _).inMember x.name).bind fun l => .pure _)

theorem overlayMembers_heeds (xs : List Member) (o : Overlay) :
    Heeds trail (overlayMembers env g xs o) (env.overlayMembers f trail xs o) := by
  induction xs generalizing o with
  | nil => exact .pure o
  | cons x xs ih => exact (overlayMember_heeds below x o).bind ih

theorem union_heeds (a : Aggregate) (owner : String) :
    Heeds trail (union env g a owner) (env.union f trail a owner) := by
  have hrest : Heeds trail
      (if a.members.all (·.isSeparator) then Pure.pure .emptyUnion
        else do
          let o ← overlayMembers env g a.members {}
          ofExcept (o.finish owner))
      (if a.members.all (·.isSeparator) then Pure.pure .emptyUnion
        else do
          let o ← env.overlayMembers f trail a.members {}
          ofExcept (o.finish owner)) := by
    split
    · exact .pure _
    · exact (overlayMembers_heeds below a.members {}).bind fun o => .ofExcept _
  unfold union LayoutEnv.union
  dsimp only
  split
  · exact (Heeds.note _).bind fun _ => hrest
  · exact hrest

theorem laidBases_heeds (bs : List BaseSpec) :
    Heeds trail (laidBases env g bs) (env.laidBases f trail bs) := by
  induction bs with
  | nil => exact .pure []
  | cons b bs ih =>
    refine (Heeds.ofExcept _).bind fun id => Follows.enter ?_
    exact (below _ _).bind fun l => (ih.entered _).bind fun rest => .pure _

theorem placeMember_heeds (owner : String) (x : Member) (d : Draft) :
    Heeds trail (placeMember env g owner x d) (env.placeMember f trail owner x d) := by
  unfold placeMember LayoutEnv.placeMember
  cases x.bitWidth with
  | some width =>
    refine Heeds.enter ((Heeds.ofExcept _).bind fun unit => ?_)
    split
    · exact .ofExcept _
    · exact (Heeds.ofExcept _).bind fun p => (Heeds.note _).bind fun _ => .pure _
  | none =>
    refine Follows.enter (((below _ _).inMember x.name).bind fun l => ?_)
    exact (Heeds.ofExcept _).bind fun d => (Heeds.note _).bind fun _ => .pure d

theorem placeMembers_heeds (owner : String) (xs : List Member) (d : Draft) :
    Heeds trail (placeMembers env g owner xs d) (env.placeMembers f trail owner xs d) := by
  induction xs generalizing d with
  | nil => exact .pure d
  | cons x xs ih => exact (placeMember_heeds below owner x d).bind ih

theorem placeVirtualBases_heeds (owner : String) (ids : List TypeId) (d : Draft) :
    Heeds trail (placeVirtualBases env g owner ids d)
      (env.placeVirtualBases f trail owner ids d) := by
  induction ids generalizing d with
  | nil => exact .pure d
  | cons id ids ih =>
    refine Follows.enter ((below _ _).bind fun l => ?_)
    exact (Heeds.ofExcept _).bind fun d => (ih d).entered _

theorem record_heeds (a : Aggregate) (owner : String) :
    Heeds trail (record env g a owner) (env.record f trail a owner) := by
  refine (laidBases_heeds below a.bases).bind fun bs => ?_
  refine (Heeds.noteSlot owner (a.flagsOver bs) bs).bind fun _ => ?_
  refine (Heeds.ofExcept _).bind fun d => (placeMembers_heeds below owner a.members d).bind fun d => ?_
  refine (Heeds.ofExcept _).bind fun nvSize => ?_
  refine (placeVirtualBases_heeds below owner _ _).bind fun d => ?_
  exact (Heeds.ofExcept _).bind fun p => .pure _

theorem aggregate_heeds (a : Aggregate) (owner : String) :
    Heeds trail (aggregate env g a owner) (env.aggregate f trail a owner) := by
  unfold aggregate LayoutEnv.aggregate
  split
  · exact (union_heeds below a owner).bind fun l => (Heeds.note _).bind fun _ => .pure l
  · exact (record_heeds below a owner).bind fun l => (Heeds.note _).bind fun _ => .pure l

end

theorem namedAggregate_follows (htrail : trail.Distinct) (id : TypeId) (a : Aggregate)
    (below : trail.find? (·.id == id) = none → Below g f (⟨id, ""⟩ :: trail)) :
    Follows trail (namedAggregate env g id a) (env.namedAggregate f trail id a) := by
  intro desk
  unfold namedAggregate LayoutEnv.namedAggregate
  have hstack : EngineM.inProgress.run ⟨desk, trail.reverse⟩ =
      (.ok trail.reverse, ⟨desk, trail.reverse⟩) := rfl
  dsimp only
  rw [run_bind_ok hstack, htrail.find?_reverse id]
  cases hfind : trail.find? (·.id == id) with
  | some frame => exact (Heeds.throw _).follows desk
  | none =>
    refine Follows.ask (fun found => ?_) desk
    cases found with
    | some l => exact (Heeds.pure l).follows
    | none =>
      have hbody : Heeds _ (aggregate env g a (env.registry.qualifiedName id)) _ :=
        aggregate_heeds (below hfind) a (env.registry.qualifiedName id)
      exact hbody.follows.within.bind fun l => .lift _

theorem layoutWithin_follows (env : LayoutEnv) (n : Nat) (d : Descriptor) (htrail : trail.Distinct) :
    Follows trail (layoutWithin env n d) (env.layoutWithin n trail d) := by
  induction n generalizing trail d with
  | zero => exact (Heeds.throw _).follows
  | succ n ih =>
    have below : ∀ {trail : Trail}, trail.Distinct →
        Below (layoutWithin env n) (env.layoutWithin n) trail :=
      fun h name d => ih d (h.enter name)
    cases d with
    | fundamental kind => exact (Heeds.ofExcept _).follows
    | pointer d => exact (Heeds.pure _).follows
    | array x count => exact (ih x htrail).bind fun l => .ofExcept _
    | enum e => exact (Heeds.ofExcept _).follows
    | aggregate a => exact (aggregate_heeds (below htrail) a _).follows
    | named id =>
      refine Follows.check fun d => ?_
      cases d with
      | typedef t => exact ih t htrail
      | enum e => exact (Heeds.ofExcept _).follows
      | aggregate a =>
        exact namedAggregate_follows htrail id a fun hnone => below (htrail.push hnone)

/-- Between two layouts nothing is in progress, and the engine answers what is laid out from an
empty trail. -/
theorem layout_run (env : LayoutEnv) (d : Descriptor) (desk : Desk) :
    (layout env d).run ⟨desk, []⟩ =
      (((env.layoutOf d : DeskM Layout).run desk).1,
        ⟨((env.layoutOf d : DeskM Layout).run desk).2, []⟩) := by
  have hempty : Distinct [] := List.nodup_nil
  obtain ⟨trail', hlike, hrun⟩ :=
    layoutWithin_follows env (env.registry.layoutFuel d) d hempty desk
  cases trail' with
  | nil => exact hrun
  | cons f fs => cases hlike

end Engine

end TypeLayout
