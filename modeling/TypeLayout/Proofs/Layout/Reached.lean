import TypeLayout.Proofs.Layout.Mirror
import TypeLayout.Proofs.Layout.Unfolding
/-! What a type contains is laid out where the type is. The name an aggregate goes by does not
decide whether it is laid out, so a body may be looked at with its entry or by itself. -/

namespace TypeLayout

open Registry

theorem Layout.Mirrors.refl (l : Layout) : l.Mirrors id l :=
  ⟨rfl, rfl, rfl, rfl, rfl, rfl, rfl, rfl, (List.map_id _).symm, rfl⟩

namespace LayoutEnv

variable {env : LayoutEnv} {g : Descend (Except LayoutError)} {trail : Trail} {a : Aggregate}
  {d x : Descriptor} {owner : String} {l : Layout}

theorem aggregate_ok_of_owner (owner' : String) (h : env.aggregate g trail a owner = .ok l) :
    ∃ l', env.aggregate g trail a owner' = .ok l' := by
  have hself : ∀ x : Except LayoutError Layout, ∀ l, x = .ok l →
      ∃ l', x = .ok l' ∧ l.Mirrors id l' := fun _ l hl => ⟨l, hl, .refl l⟩
  have hbodies : (env.mirror env.registry Function.injective_id).Bodies g g trail trail a a := by
    refine ⟨rfl, rfl, ?_, fun _ => ?_, fun _ _ _ v _ => hself _⟩
    · exact List.forall₂_same.mpr fun x _ =>
        ⟨rfl, rfl, trivial, fun _ _ unit hu => ⟨unit, hu, rfl⟩, fun _ => hself _⟩
    · exact List.forall₂_same.mpr fun b _ => ⟨rfl, fun i hi => ⟨i, hi, rfl⟩, fun _ _ => hself _⟩
  obtain ⟨l', hl', -⟩ : ∃ l', env.aggregate g trail a owner' = .ok l' ∧ l.Mirrors id l' :=
    (env.mirror env.registry Function.injective_id).aggregates hbodies trivial l h
  exact ⟨l', hl'⟩

theorem aggregate_finished (hr : env.registry.Founded) {n : Nat} (trail' : Trail)
    (h : env.aggregate (env.layoutWithin n) trail a owner =
      (.ok l : Except LayoutError Layout)) :
    env.aggregate (fun _ x => env.layoutOf x) trail' a owner =
      (.ok l : Except LayoutError Layout) :=
  carriesOk.aggregate (Matches.same carriesOk env _ trail a)
    (fun _ _ _ _ hl => layoutOf_of_ok hr hl) owner l h

theorem layoutOf_inline (hr : env.registry.Founded) {n : Nat}
    (h : env.aggregate (env.layoutWithin n) trail a owner =
      (.ok l : Except LayoutError Layout)) :
    ∃ l', env.layoutOf (.aggregate a) = (.ok l' : Except LayoutError Layout) := by
  obtain ⟨l', hl'⟩ := aggregate_ok_of_owner a.displayName (aggregate_finished hr [] h)
  exact ⟨l', layoutOf_of_yields hr (.inline hl')⟩

theorem layoutOf_held (hr : env.registry.Founded)
    (h : env.layoutOf d = (.ok l : Except LayoutError Layout)) (hx : env.registry.Holds d x) :
    ∃ l', env.layoutOf x = (.ok l' : Except LayoutError Layout) := by
  obtain ⟨n, -, hstep⟩ := env.layoutOf_eq_step d
  rw [hstep] at h
  have hyields := layoutStep_ok h
  cases hx with
  | element =>
    cases hyields with
    | array hl => exact ⟨_, layoutOf_of_ok hr hl⟩
  | member hx hw =>
    cases hyields with
    | inline hl =>
      obtain ⟨l', hl'⟩ := (Asks.member hx hw : env.Asks (env.layoutWithin n) [] _ _ _).ok hl
      exact ⟨l', layoutOf_of_ok hr hl'⟩
  | base hu hb =>
    cases hyields with
    | inline hl =>
      rw [aggregate_plain, hu] at hl
      obtain ⟨run, -⟩ := record_ok hl
      obtain ⟨laid, -, hlays⟩ := mem_left_of_forall₂ (laidBases_ok run.laid) hb
      rw [← layoutOf_strip hr, baseId_eq_ok.mp hlays.id]
      exact ⟨_, layoutOf_of_ok hr hlays.layout⟩
  | target ht =>
    rw [← hstep, layoutOf_typedef hr ht] at h
    exact ⟨l, h⟩
  | body ha =>
    cases hyields with
    | typedef ht _ =>
      rw [ha] at ht
      cases ht
    | namedEnum he _ =>
      rw [ha] at he
      cases he
    | body hb _ hl =>
      rw [ha] at hb
      cases hb
      exact layoutOf_inline hr hl

theorem layoutOf_reached (hr : env.registry.Founded)
    (h : env.layoutOf d = (.ok l : Except LayoutError Layout)) (hx : env.registry.Reaches d x) :
    ∃ l', env.layoutOf x = (.ok l' : Except LayoutError Layout) := by
  induction hx with
  | refl => exact ⟨l, h⟩
  | tail _ hs ih =>
    obtain ⟨l', hl'⟩ := ih
    exact layoutOf_held hr hl' hs

end LayoutEnv

end TypeLayout
