import TypeLayout.Proofs.Layout.Termination
/-! A layout once answered stays. More fuel, another trail whose aggregates are not contained in the
type, and a registry that has grown answer the same layout. -/

namespace TypeLayout

open Relation (ReflTransGen TransGen)
open Registry

theorem Trail.id_of_mem_enter {trail : Trail} {name : String} {f : Frame}
    (h : f ∈ trail.enter name) : ∃ f' ∈ trail, f'.id = f.id := by
  cases trail with
  | nil => cases h
  | cons f₀ fs =>
    rcases List.mem_cons.mp h with rfl | h
    · exact ⟨f₀, List.mem_cons_self, rfl⟩
    · exact ⟨f, List.mem_cons_of_mem _ h, rfl⟩

namespace LayoutEnv

variable {env : LayoutEnv} {trail trail' : Trail} {d : Descriptor} {l : Layout} {n n' : Nat}

/-- Nothing in progress is contained in `d`. -/
def Clear (r : Registry) (trail : Trail) (d : Descriptor) : Prop :=
  ∀ f ∈ trail, ¬ r.Reaches d (.named f.id)

theorem clear_nil (r : Registry) (d : Descriptor) : Clear r [] d := by
  intro f hf
  cases hf

theorem Clear.enter {r : Registry} (h : Clear r trail d) (name : String) :
    Clear r (trail.enter name) d := by
  intro f hf
  obtain ⟨f', hf', he⟩ := Trail.id_of_mem_enter hf
  rw [← he]
  exact h f' hf'

theorem Clear.reached {r : Registry} (h : Clear r trail d) {x : Descriptor} (hx : r.Reaches d x) :
    Clear r trail x := fun f hf hc => h f hf (hx.trans hc)

theorem Clear.find? {r : Registry} {id : TypeId} (h : Clear r trail (.named id)) :
    trail.find? (·.id == id) = none := by
  refine List.find?_eq_none.mpr fun f hf hid => h f hf ?_
  rw [beq_iff_eq.mp hid]

theorem Clear.push {r : Registry} {id : TypeId} {name : String} (h : Clear r trail (.named id))
    (hid : ¬ r.Contains (.named id) (.named id)) {x : Descriptor}
    (hx : r.Contains (.named id) x) : Clear r (⟨id, name⟩ :: trail) x := by
  intro f hf hc
  rcases List.mem_cons.mp hf with rfl | hf
  · exact hid (hx.trans_left hc)
  · exact h f hf (hx.to_reflTransGen.trans hc)

/-- A success depends on the trail only through what the type contains. -/
theorem layoutWithin_ok_of_clear (hr : env.registry.Founded) (hn : n ≤ n')
    (hc : Clear env.registry trail' d)
    (h : (env.layoutWithin n trail d : Except LayoutError Layout) = .ok l) :
    (env.layoutWithin n' trail' d : Except LayoutError Layout) = .ok l := by
  induction n generalizing n' trail trail' d l with
  | zero => cases h
  | succ n ih =>
    obtain ⟨n', rfl⟩ := Nat.exists_eq_succ_of_ne_zero (Nat.ne_of_gt (Nat.zero_lt_of_lt hn))
    have hn := Nat.le_of_succ_le_succ hn
    have hheld := layoutWithin_listsHeld env hr n
    -- what an aggregate asks for is contained in it, so the other trail is clear of that too
    have hagg : ∀ {trail trail' a owner},
        (∀ x, env.registry.Contains (.aggregate a) x → Clear env.registry trail' x) →
        ∀ l, env.aggregate (env.layoutWithin n) trail a owner =
            (.ok l : Except LayoutError Layout) →
          env.aggregate (env.layoutWithin n') trail' a owner =
            (.ok l : Except LayoutError Layout) := by
      intro trail trail' a owner hc
      refine carriesOk.aggregate (Matches.same carriesOk env (env.layoutWithin n) trail a) ?_ owner
      intro name x hx l hl
      exact ih hn ((hc x (hx.contained hr hheld)).enter name) hl
    have hground := grounded_of_ok hr h
    refine carriesOk.layoutStep rfl ?_ (fun _ _ _ _ _ hl => hl) ?_ (fun _ _ _ hd => hd) ?_ ?_ l h
    · rintro x count rfl l hl
      exact ih hn (hc.reached (.single .element)) hl
    · rintro a rfl
      exact hagg fun x hx => hc.reached hx.to_reflTransGen
    · rintro id t rfl hd l hl
      rw [definition_eq_ok] at hd
      exact ih hn (hc.reached (.single (.target hd))) hl
    · rintro id a rfl hd l hl
      rw [definition_eq_ok] at hd
      rw [namedAggregate_plain] at hl ⊢
      rw [hc.find?]
      split at hl
      · cases hl
      · refine hagg (fun x hx => ?_) l hl
        exact hc.push hground.not_contains_self (TransGen.head (.body hd) hx)

theorem layoutOf_of_ok (hr : env.registry.Founded)
    (h : (env.layoutWithin n trail d : Except LayoutError Layout) = .ok l) :
    env.layoutOf d = (.ok l : Except LayoutError Layout) := by
  have hmax := Nat.le_max_right n (env.registry.layoutFuel d)
  have hfit := (env.registry.fits_layoutFuel d).mono hmax
  rw [← layoutWithin_eq_layoutOf hr hfit]
  exact layoutWithin_ok_of_clear hr (Nat.le_max_left _ _) (clear_nil _ d) h

theorem id_lt_of_layoutOf_ok {id : TypeId}
    (h : env.layoutOf (.named id) = (.ok l : Except LayoutError Layout)) :
    id.index < env.registry.size := by
  obtain ⟨n, hn⟩ : ∃ n, env.registry.layoutFuel (.named id) = n + 1 :=
    Nat.exists_eq_succ_of_ne_zero (Nat.ne_of_gt (Nat.lt_of_lt_of_le (Descriptor.weight_pos _)
      (Nat.le_add_right _ _)))
  unfold layoutOf at h
  rw [hn] at h
  cases layoutStep_ok h with
  | typedef hd _ => exact definition?_lt hd
  | namedEnum hd _ => exact definition?_lt hd
  | body hd _ _ => exact definition?_lt hd

theorem layoutOf_typedef (hr : env.registry.Founded) {id : TypeId} {t : Descriptor}
    (ht : env.registry.definition? id = some (.typedef t)) :
    (env.layoutOf (.named id) : Except LayoutError Layout) = env.layoutOf t := by
  have hfit := (env.registry.fits_layoutFuel (.named id)).mono (Nat.le_succ _)
  rw [← layoutWithin_eq_layoutOf hr hfit, ← layoutWithin_eq_layoutOf hr (hfit.typedef hr ht)]
  rw [← definition_eq_ok] at ht
  simp only [layoutWithin, layoutStep, ht]
  rfl

theorem layoutOf_strip (hr : env.registry.Founded) (d : Descriptor) :
    (env.layoutOf (env.registry.strip d) : Except LayoutError Layout) = env.layoutOf d := by
  induction d using hr.typedef_induction with
  | link id t ht ih => rw [hr.strip_typedef ht, layoutOf_typedef hr ht, ih]
  | stop d hd => rw [strip_of_not_typedef hd]

section

variable {r' : Registry} {g : Descend (Except LayoutError)} {a : Aggregate}

theorem bitFieldKind_growsTo (hr : env.registry.Founded) (hr' : r'.Founded)
    (hg : env.registry.GrowsTo r') {x : Member}
    (hx : ∀ j ∈ x.type.mentions, j.index < env.registry.size) {kind : Fundamental}
    (h : env.bitFieldKind x = .ok kind) :
    bitFieldKind { env with registry := r' } x = .ok kind := by
  unfold bitFieldKind at h ⊢
  rw [hg.strip_eq hr hr' hx]
  split at h
  · exact h
  · exact h
  · split at h
    next hd =>
      rw [definition_eq_ok] at hd
      rw [definition_eq_ok.mpr (hg.definition? hd)]
      exact h
    next => cases h
    next => cases h
  · cases h

theorem fittingUnit_growsTo (hr : env.registry.Founded) (hr' : r'.Founded)
    (hg : env.registry.GrowsTo r') {x : Member} {width : Nat}
    (hx : ∀ j ∈ x.type.mentions, j.index < env.registry.size) {unit : StorageUnit}
    (h : env.fittingUnit x width = .ok unit) :
    fittingUnit { env with registry := r' } x width = .ok unit := by
  obtain ⟨unit', hu, h⟩ := bind_eq_ok.mp h
  obtain ⟨kind, hk, hu⟩ := bind_eq_ok.mp hu
  have hkind := bitFieldKind_growsTo hr hr' hg hx hk
  refine bind_eq_ok.mpr ⟨unit', bind_eq_ok.mpr ⟨kind, hkind, ?_⟩, ?_⟩
  · split at hu
    next hint =>
      rw [if_pos hint]
      split at hu
      next c hc =>
        simp only [hc]
        exact hu
      next => cases hu
    next => cases hu
  · split at h
    · cases h
    · rw [if_neg ‹_›]
      exact h

theorem matches_growsTo (hr : env.registry.WellFormed) (hr' : r'.WellFormed)
    (hg : env.registry.GrowsTo r') (hheld : env.ListsHeld g)
    (ha : ∀ j ∈ (Descriptor.aggregate a).mentions, j.index < env.registry.size) :
    Matches (fun α (x y : Except LayoutError α) => ∀ l, y = .ok l → x = .ok l)
      { env with registry := r' } env g trail a := by
  have hmember : ∀ x ∈ a.members, ∀ j ∈ x.type.mentions, j.index < env.registry.size :=
    fun x hx j hj => ha j (mem_mentions_aggregate.mpr (Or.inl ⟨x, hx, hj⟩))
  refine ⟨rfl, rfl, ?_, ?_, ?_, ?_⟩
  · exact fun x hx => hg.typeName_eq hr.toTreelike (hmember x hx)
  · intro x hx width unit hu
    rw [ofExcept_eq] at hu ⊢
    exact fittingUnit_growsTo hr.toFounded hr'.toFounded hg (hmember x hx) hu
  · intro b hb id hid
    have hmb : ∀ j ∈ b.type.mentions, j.index < env.registry.size :=
      fun j hj => ha j (mem_mentions_aggregate.mpr (Or.inr ⟨b, hb, hj⟩))
    rw [ofExcept_eq, baseId_eq_ok] at hid ⊢
    exact (hg.strip_eq hr.toFounded hr'.toFounded hmb).trans hid
  · intro name id hx
    have hcontained := hx.contained hr.toFounded hheld
    refine hg.qualifiedName_eq hr.toTreelike ?_
    exact hr.reaches_mentions hcontained.to_reflTransGen ha id (List.mem_singleton.mpr rfl)

theorem layoutWithin_growsTo (hr : env.registry.WellFormed) (hr' : r'.WellFormed)
    (hg : env.registry.GrowsTo r') (hd : ∀ j ∈ d.mentions, j.index < env.registry.size)
    (h : (env.layoutWithin n trail d : Except LayoutError Layout) = .ok l) :
    layoutWithin { env with registry := r' } n trail d = (.ok l : Except LayoutError Layout) := by
  induction n generalizing trail d l with
  | zero => cases h
  | succ n ih =>
    have hheld := layoutWithin_listsHeld env hr.toFounded n
    have hagg : ∀ {trail a owner},
        (∀ j ∈ (Descriptor.aggregate a).mentions, j.index < env.registry.size) →
        ∀ l, env.aggregate (env.layoutWithin n) trail a owner =
            (.ok l : Except LayoutError Layout) →
          aggregate { env with registry := r' } (layoutWithin { env with registry := r' } n)
            trail a owner = (.ok l : Except LayoutError Layout) := by
      intro trail a owner ha
      refine carriesOk.aggregate (matches_growsTo hr hr' hg hheld ha) ?_ owner
      intro name x hx l hl
      have hcontained := hx.contained hr.toFounded hheld
      exact ih (hr.reaches_mentions hcontained.to_reflTransGen ha) hl
    refine carriesOk.layoutStep ?_ ?_ ?_ ?_ ?_ ?_ ?_ l h
    · rfl
    · rintro x count rfl l hl
      exact ih hd hl
    · rintro x count le rfl l hl
      rw [ofExcept_eq] at hl ⊢
      obtain ⟨hz, hlt, rfl⟩ := array_ok hl
      simp only [array, if_neg hz, if_pos hlt]
    · rintro a rfl
      exact hagg hd
    · rintro id rfl def' hdef
      rw [ofExcept_eq, definition_eq_ok] at hdef ⊢
      exact hg.definition? hdef
    · rintro id t rfl hdef l hl
      rw [definition_eq_ok] at hdef
      exact ih (fun j hj => hr.mention_lt hdef hj) hl
    · rintro id a rfl hdef l hl
      rw [definition_eq_ok] at hdef
      have hname := hg.qualifiedName_eq hr.toTreelike (hd id (List.mem_singleton.mpr rfl))
      rw [namedAggregate_plain] at hl ⊢
      split at hl
      · cases hl
      · rw [hname]
        exact hagg (fun j hj => hr.mention_lt hdef hj) l hl

theorem layoutOf_growsTo (env : LayoutEnv) (hr : env.registry.WellFormed) (hr' : r'.WellFormed)
    (hg : env.registry.GrowsTo r') (hd : ∀ j ∈ d.mentions, j.index < env.registry.size)
    (h : env.layoutOf d = (.ok l : Except LayoutError Layout)) :
    layoutOf { env with registry := r' } d = (.ok l : Except LayoutError Layout) :=
  have hfounded : ({ env with registry := r' } : LayoutEnv).registry.Founded := hr'.toFounded
  layoutOf_of_ok hfounded (layoutWithin_growsTo hr hr' hg hd h)

end

end LayoutEnv

end TypeLayout
