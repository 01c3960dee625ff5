import TypeLayout.Profile
import TypeLayout.Proofs.Layout.Failure
/-! The verdict on cycles. What is in progress contains what is being laid out, so an aggregate met
again contains itself; a type with a cycle below it has no layout, since a success is grounded. -/

namespace TypeLayout

open Relation (TransGen)
open Registry

namespace LayoutEnv

variable {env : LayoutEnv} {r : Registry} {trail : Trail} {d x : Descriptor} {n : Nat}

def Holding (r : Registry) (trail : Trail) (d : Descriptor) : Prop :=
  ∀ f ∈ trail, r.Contains (.named f.id) d

theorem Holding.enter (h : Holding r trail d) (name : String) : Holding r (trail.enter name) d := by
  intro f hf
  obtain ⟨f', hf', he⟩ := Trail.id_of_mem_enter hf
  rw [← he]
  exact h f' hf'

theorem Holding.reached (h : Holding r trail d) (hx : r.Reaches d x) : Holding r trail x :=
  fun f hf => (h f hf).trans_left hx

theorem Holding.push {id : TypeId} {name : String} (h : Holding r trail (.named id))
    (hx : r.Contains (.named id) x) : Holding r (⟨id, name⟩ :: trail) x := by
  intro f hf
  rcases List.mem_cons.mp hf with rfl | hf
  · exact hx
  · exact (h f hf).trans hx

theorem inMember_eq_cyclicAggregate {e : LayoutError} {name aggregate member : String} :
    e.inMember name = .cyclicAggregate aggregate member ↔
      e = .cyclicAggregate aggregate member := by
  unfold LayoutError.inMember
  split
  · exact ⟨fun h => (by cases h), fun h => (by cases h)⟩
  · exact Iff.rfl

/-- An error that reports a cycle names an aggregate below `d` that contains itself. -/
def CycleBelow (r : Registry) (d : Descriptor) (e : LayoutError) : Prop :=
  ∀ name member, e = .cyclicAggregate name member →
    ∃ id a, r.definition? id = some (.aggregate a) ∧ r.Reaches d (.named id) ∧
      r.Contains (.named id) (.named id) ∧ name = r.qualifiedName id

theorem CycleBelow.above {e : LayoutError} (hx : r.Reaches d x) (h : CycleBelow r x e) :
    CycleBelow r d e := by
  intro name member he
  obtain ⟨id, a, ha, hreach, hself, hname⟩ := h name member he
  exact ⟨id, a, ha, hx.trans hreach, hself, hname⟩

theorem CycleBelow.inMember {e : LayoutError} (h : CycleBelow r d e) (name : String) :
    CycleBelow r d (e.inMember name) :=
  fun aggregate member he => h aggregate member (inMember_eq_cyclicAggregate.mp he)

def NoCycle (e : LayoutError) : Prop := ∀ name member, e ≠ .cyclicAggregate name member

theorem NoCycle.cycleBelow {e : LayoutError} (h : NoCycle e) : CycleBelow r d e :=
  fun name member he => absurd he (h name member)

theorem NoCycle.inMember {e : LayoutError} (h : NoCycle e) (name : String) :
    NoCycle (e.inMember name) :=
  fun aggregate member he => h aggregate member (inMember_eq_cyclicAggregate.mp he)

theorem fundamental_noCycle (kind : Fundamental) : FailsBy NoCycle (env.fundamental kind) := by
  unfold fundamental
  split
  · exact .ok _
  · exact .error fun _ _ h => by cases h

theorem array_noCycle {count : Nat} {l : Layout} : FailsBy NoCycle (env.array x count l) := by
  unfold array
  split
  · exact .error fun _ _ h => by cases h
  · split
    · exact .ok _
    · exact .error fun _ _ h => by cases h

theorem definition_noCycle {id : TypeId} : FailsBy NoCycle (r.definition id) := by
  unfold definition
  split
  · exact .ok _
  · exact .error fun _ _ h => by cases h

theorem bitFieldKind_noCycle {x : Member} : FailsBy NoCycle (env.bitFieldKind x) := by
  unfold bitFieldKind
  split
  · exact .ok _
  · exact .ok _
  · split
    · exact .ok _
    · exact .error fun _ _ h => by cases h
    next e he => exact .error ((definition_noCycle e he).inMember x.name)
  · exact .error fun _ _ h => by cases h

theorem fittingUnit_noCycle {x : Member} {width : Nat} :
    FailsBy NoCycle (env.fittingUnit x width) :=
  fittingUnit_failsBy bitFieldKind_noCycle (fun _ _ h => by cases h) fun _ _ _ h => by cases h

theorem baseId_noCycle {b : BaseSpec} : FailsBy NoCycle (env.baseId b) := by
  unfold baseId
  split
  · exact .ok _
  · exact .error fun _ _ h => by cases h

theorem layoutWithin_cycleBelow (hr : env.registry.Founded) (hf : env.registry.Fits n trail d)
    (ht : Holding env.registry trail d) :
    FailsBy (CycleBelow env.registry d) (env.layoutWithin n trail d) := by
  induction n generalizing trail d with
  | zero => exact absurd hf not_fits_zero
  | succ n ih =>
    have hheld := layoutWithin_listsHeld env hr n
    have hagg : ∀ {trail a owner}, env.registry.Fits (n + 1) trail (.aggregate a) →
        (∀ x, env.registry.Contains (.aggregate a) x → Holding env.registry trail x) →
        FailsBy (CycleBelow env.registry (.aggregate a))
          (env.aggregate (env.layoutWithin n) trail a owner) := by
      intro trail a owner hf ht
      refine Blames.aggregate ⟨?_, fun _ _ _ _ => fittingUnit_noCycle.mono fun _ h => h.cycleBelow,
        fun _ _ _ => baseId_noCycle.mono fun _ h => h.cycleBelow, fun _ _ _ _ h => by cases h⟩
      intro name x hx e he
      have hc := hx.contained hr hheld
      have hcyc := ih (hx.fits hr hheld hf) ((ht x hc).enter name) e he
      have habove := hcyc.above hc.to_reflTransGen
      exact ⟨habove, habove.inMember name⟩
    change FailsBy _ (env.layoutStep (env.layoutWithin n) trail d)
    cases d with
    | fundamental kind => exact .lift ((fundamental_noCycle kind).mono fun _ h => h.cycleBelow)
    | pointer d => exact .ok _
    | array x count =>
      have hw : x.weight < (Descriptor.array x count).weight := Nat.lt_succ_self _
      have hx : env.registry.Reaches (.array x count) x := .single .element
      refine .bind (fun e he => ?_) fun l _ =>
        .lift (array_noCycle.mono fun _ h => h.cycleBelow)
      exact (ih (hf.inside (x := x) (fun _ hid => hid) hw) (ht.reached hx) e he).above hx
    | enum e => exact .lift ((fundamental_noCycle e.underlying).mono fun _ h => h.cycleBelow)
    | aggregate a => exact hagg hf fun x hx => ht.reached hx.to_reflTransGen
    | named id =>
      refine .bind (.lift (definition_noCycle.mono fun _ h => h.cycleBelow)) fun d hd => ?_
      rw [ofExcept_eq, definition_eq_ok] at hd
      cases d with
      | typedef t =>
        have hx : env.registry.Reaches (.named id) t := .single (.target hd)
        exact fun e he => (ih (hf.typedef hr hd) (ht.reached hx) e he).above hx
      | enum e => exact .lift ((fundamental_noCycle e.underlying).mono fun _ h => h.cycleBelow)
      | aggregate a =>
        change FailsBy _ (env.namedAggregate (env.layoutWithin n) trail id a)
        rw [namedAggregate_plain]
        split
        next frame hframe =>
          -- the frame that is met again contains what is laid out below it
          refine .error fun name member he => ?_
          cases he
          have hid : frame.id = id := by simpa using List.find?_some hframe
          have hself := ht frame (List.mem_of_find?_eq_some hframe)
          rw [hid] at hself
          exact ⟨id, a, hd, .refl, hself, rfl⟩
        next hnone =>
          have hpush : ∀ x, env.registry.Contains (.aggregate a) x →
              Holding env.registry (⟨id, ""⟩ :: trail) x :=
            fun x hx => ht.push (TransGen.head (.body hd) hx)
          exact fun e he => (hagg (hf.body hd hnone) hpush e he).above (.single (.body hd))

/-- The descent comes to an end before its bottom, a layout has no cycle below it, and the aggregate
reported as cyclic contains itself. -/
theorem layoutOf_ends_and_finds_cycles (hr : env.registry.Built) (d : Descriptor) :
    (∀ (stop : Descend (Except LayoutError)) (n : Nat), env.registry.layoutFuel d ≤ n →
      env.layoutStep^[n] stop [] d = env.layoutOf d) ∧
    (∀ l, env.layoutOf d = (.ok l : Except LayoutError Layout) →
      ∀ x, env.registry.Reaches d x → ¬ env.registry.Contains x x) ∧
    (∀ name member,
      env.layoutOf d = (.error (.cyclicAggregate name member) : Except LayoutError Layout) →
      ∃ id a, env.registry.definition? id = some (.aggregate a) ∧
        env.registry.Reaches d (.named id) ∧ env.registry.Contains (.named id) (.named id) ∧
        name = env.registry.qualifiedName id) := by
  have hfounded := hr.wellFormed.toFounded
  have hfits := env.registry.fits_layoutFuel d
  refine ⟨fun stop n hn => ?_, fun l h x hx => ?_, fun name member h => ?_⟩
  · exact iterate_layoutStep_eq hfounded stop (hfits.mono hn) hfits
  · exact ((grounded_of_ok hfounded h).reached hx).not_contains_self
  · have hnil : Holding env.registry [] d := fun f hf => by cases hf
    exact layoutWithin_cycleBelow hfounded hfits hnil _ h name member rfl

def selfHolder : Aggregate := ⟨.structType, some "Node", [⟨"self", .named ⟨0⟩, none⟩], [], []⟩

def selfHolding : LayoutEnv where
  registry :=
    (empty.alloc .global "Node" (.forward (.aggregate .structType))).2.setState ⟨0⟩
      (.defined (.aggregate selfHolder))
  machine := Profile.lp64.machine
  policy := .itaniumBaseline

theorem selfHolding_built : selfHolding.registry.Built := by
  have hdeclare : empty.declare .global "Node" (.aggregate .structType) =
      .ok (empty.alloc .global "Node" (.forward (.aggregate .structType))) := by
    rfl
  have hdefine : define (empty.alloc .global "Node" (.forward (.aggregate .structType))).2 .global
      "Node" (.aggregate selfHolder) = .ok (⟨0⟩, selfHolding.registry) := by
    rfl
  refine .define (.declare .empty (by decide) hdeclare) (by decide) ?_ hdefine
  intro j hj
  obtain rfl := List.mem_singleton.mp hj
  decide

theorem selfHolding_cyclic :
    selfHolding.registry.Built ∧
    selfHolding.layoutOf (.named ⟨0⟩) =
      (.error (.cyclicAggregate "Node" "self") : Except LayoutError Layout) ∧
    ∃ id a, selfHolding.registry.definition? id = some (.aggregate a) ∧
      selfHolding.registry.Reaches (.named ⟨0⟩) (.named id) ∧
      selfHolding.registry.Contains (.named id) (.named id) ∧
      "Node" = selfHolding.registry.qualifiedName id := by
  have h : selfHolding.layoutOf (.named ⟨0⟩) =
      (.error (.cyclicAggregate "Node" "self") : Except LayoutError Layout) := by
    rfl
  have hverdict := layoutOf_ends_and_finds_cycles selfHolding_built (.named ⟨0⟩)
  exact ⟨selfHolding_built, h, hverdict.2.2 _ _ h⟩

end LayoutEnv

end TypeLayout
