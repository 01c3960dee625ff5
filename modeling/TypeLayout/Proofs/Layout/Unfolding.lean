import TypeLayout.Proofs.Layout.Stability
/-! A layout from the layouts of what is asked for. Where an aggregate is laid out from finished
layouts of its members and bases, the descent answers the same. -/

namespace TypeLayout

open Registry
open Relation (TransGen)

namespace LayoutEnv

variable {env : LayoutEnv} {trail : Trail} {a : Aggregate} {d : Descriptor} {owner : String}
  {l : Layout} {n : Nat}

theorem layoutWithin_of_layoutOf (hr : env.registry.Founded) (hf : env.registry.Fits n trail d)
    (hc : Clear env.registry trail d) (h : env.layoutOf d = (.ok l : Except LayoutError Layout)) :
    env.layoutWithin n trail d = (.ok l : Except LayoutError Layout) := by
  have hdeep : env.layoutWithin (max n (env.registry.layoutFuel d)) trail d =
      (.ok l : Except LayoutError Layout) :=
    layoutWithin_ok_of_clear hr (Nat.le_max_right _ _) hc h
  have hmax := hf.mono (Nat.le_max_left n (env.registry.layoutFuel d))
  rw [← iterate_layoutStep_eq hr (env.layoutWithin 0) hmax hf,
    iterate_layoutStep_eq hr (env.layoutWithin 0) hmax hmax]
  exact hdeep

theorem aggregate_of_layoutOfs (hr : env.registry.Founded)
    (hf : env.registry.Fits (n + 1) trail (.aggregate a))
    (hc : ∀ x, env.registry.Contains (.aggregate a) x → Clear env.registry trail x)
    (h : env.aggregate (fun _ x => env.layoutOf x) trail a owner =
      (.ok l : Except LayoutError Layout)) :
    env.aggregate (env.layoutWithin n) trail a owner = (.ok l : Except LayoutError Layout) := by
  have hheld : env.ListsHeld fun _ x => env.layoutOf x :=
    fun trail x => layoutWithin_listsHeld env hr _ [] x
  refine carriesOk.aggregate (Matches.same carriesOk env _ trail a) ?_ owner l h
  intro name x hx l hl
  have hclear := (hc x (hx.contained hr hheld)).enter name
  exact layoutWithin_of_layoutOf hr (hx.fits hr hheld hf) hclear hl

theorem layoutOf_eq_step (env : LayoutEnv) (d : Descriptor) : ∃ n,
    env.registry.Fits (n + 1) [] d ∧ (env.layoutOf d : Except LayoutError Layout) =
      env.layoutStep (env.layoutWithin n) [] d := by
  have hf := env.registry.fits_layoutFuel d
  unfold layoutOf
  generalize env.registry.layoutFuel d = n at hf ⊢
  cases n with
  | zero => exact absurd hf not_fits_zero
  | succ n => exact ⟨n, hf, rfl⟩

theorem layoutOf_body (hr : env.registry.Founded) {i : TypeId}
    (ha : env.registry.definition? i = some (.aggregate a))
    (h : env.aggregate (fun _ x => env.layoutOf x) [⟨i, ""⟩] a (env.registry.qualifiedName i) =
      (.ok l : Except LayoutError Layout)) :
    env.layoutOf (.named i) = (.ok l : Except LayoutError Layout) := by
  -- everything inside is laid out, so the class is not inside itself
  have hground : env.registry.Grounded (fun _ => True) (.named i) := by
    refine .intro trivial fun x hx => ?_
    obtain rfl := (holds_body ha).mp hx
    exact grounded_of_aggregate_ok (g := fun _ x => env.layoutOf x) hr
      (fun _ _ _ hl => grounded_of_ok hr hl) h
  obtain ⟨n, hf, hstep⟩ := env.layoutOf_eq_step (.named i)
  have hbody : env.aggregate (env.layoutWithin n) [⟨i, ""⟩] a (env.registry.qualifiedName i) =
      (.ok l : Except LayoutError Layout) := by
    refine aggregate_of_layoutOfs hr (hf.body ha rfl) (fun x hx => ?_) h
    exact (clear_nil _ _).push hground.not_contains_self (TransGen.head (.body ha) hx)
  have hd := (ofExcept_eq _).trans (definition_eq_ok.mpr ha)
  rw [hstep]
  exact bind_eq_ok.mpr ⟨_, hd, (namedAggregate_plain i).trans hbody⟩

theorem layoutOf_of_yields (hr : env.registry.Founded)
    (h : env.Yields (fun _ x => env.layoutOf x) [] d l) :
    env.layoutOf d = (.ok l : Except LayoutError Layout) := by
  obtain ⟨n, hf, hstep⟩ := env.layoutOf_eq_step d
  cases h with
  | fundamental he =>
    rw [hstep]
    simp only [layoutStep, ofExcept_eq, fundamental, he]
  | pointer => exact hstep
  | @array x count _ hl hz hlt =>
    have hw : x.weight < (Descriptor.array x count).weight := Nat.lt_succ_self _
    have hfits := hf.inside (x := x) (fun _ hid => hid) hw
    rw [hstep]
    refine bind_eq_ok.mpr ⟨_, layoutWithin_of_layoutOf hr hfits (clear_nil _ _) hl, ?_⟩
    simp only [ofExcept_eq, array, if_neg hz, if_pos hlt]
  | enum he =>
    rw [hstep]
    simp only [layoutStep, ofExcept_eq, fundamental, he]
  | inline hl =>
    rw [hstep]
    exact aggregate_of_layoutOfs hr hf (fun x _ => clear_nil _ x) hl
  | typedef ht hl =>
    rw [layoutOf_typedef hr ht]
    exact hl
  | namedEnum hd he =>
    have hd := (ofExcept_eq _).trans (definition_eq_ok.mpr hd)
    rw [hstep]
    refine bind_eq_ok.mpr ⟨_, hd, ?_⟩
    simp only [ofExcept_eq, fundamental, he]
  | body ha _ hl => exact layoutOf_body hr ha hl

end LayoutEnv

end TypeLayout
