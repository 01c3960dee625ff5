import Mathlib.Data.Finset.Card
import TypeLayout.Proofs.Layout.Descent
/-! The depth of a descent. Between two aggregates in progress it follows typedefs to older ones and
goes into what a body holds in place; an aggregate in progress is not entered again. So a descent
of `layoutFuel` levels never reaches its bottom, whatever is there. -/

namespace TypeLayout

def Definition.aliasWeight : Definition → Nat
  | typedef t => t.weight + 1
  | _ => 0

theorem Definition.aliasWeight_le (d : Definition) : d.aliasWeight ≤ d.weight + 1 := by
  cases d with
  | typedef t => exact Nat.le_refl _
  | _ => exact Nat.zero_le _

namespace Registry

variable {r : Registry} {trail : Trail} {d : Descriptor} {n k : Nat}

def aliasWeight (r : Registry) : Nat → Nat
  | 0 => 0
  | n + 1 => r.aliasWeight n + ((r.definition? ⟨n⟩).map Definition.aliasWeight).getD 0

def span (r : Registry) : Nat := r.weight + r.size + 2

def idle (r : Registry) (trail : Trail) : Finset Nat :=
  (Finset.range r.size).filter fun i => ∀ f ∈ trail, f.id.index ≠ i

def AliasesBelow (r : Registry) (k : Nat) (d : Descriptor) : Prop :=
  ∀ id ∈ d.mentions, r.IsTypedef id → id.index < k

/-- The descent from `d` takes fewer than `n` levels. -/
def Fits (r : Registry) (n : Nat) (trail : Trail) (d : Descriptor) : Prop :=
  ∃ k, r.AliasesBelow k d ∧ d.weight + r.aliasWeight k + (r.idle trail).card * r.span < n

theorem weightBelow_succ_of_some {d : Definition} (h : r.definition? ⟨n⟩ = some d) :
    r.weightBelow (n + 1) = r.weightBelow n + d.weight := by
  simp [weightBelow, h]

theorem aliasWeight_succ_of_some {d : Definition} (h : r.definition? ⟨n⟩ = some d) :
    r.aliasWeight (n + 1) = r.aliasWeight n + d.aliasWeight := by
  simp [aliasWeight, h]

theorem aliasWeight_mono (r : Registry) (h : n ≤ k) : r.aliasWeight n ≤ r.aliasWeight k := by
  induction h with
  | refl => exact Nat.le_refl _
  | step _ ih => exact Nat.le_trans ih (Nat.le_add_right _ _)

theorem aliasWeight_succ_le {w : Nat} (h : w + r.aliasWeight n ≤ r.weightBelow n + n) :
    w + r.aliasWeight (n + 1) ≤ r.weightBelow (n + 1) + (n + 1) := by
  cases hd : r.definition? ⟨n⟩ with
  | none =>
    simp only [aliasWeight, weightBelow, hd, Option.map_none, Option.getD_none]
    omega
  | some d =>
    have hle := d.aliasWeight_le
    rw [aliasWeight_succ_of_some hd, weightBelow_succ_of_some hd]
    omega

theorem aliasWeight_le (r : Registry) (n : Nat) : r.aliasWeight n ≤ r.weightBelow n + n := by
  induction n with
  | zero => exact Nat.le_refl _
  | succ n ih =>
    have h := aliasWeight_succ_le (r := r) (n := n) (w := 0) (by omega)
    omega

theorem aliasWeight_body_le {id : TypeId} {a : Aggregate}
    (ha : r.definition? id = some (.aggregate a)) (hn : id.index < n) :
    (Descriptor.aggregate a).weight + r.aliasWeight n ≤ r.weightBelow n + n := by
  induction n with
  | zero => exact absurd hn (Nat.not_lt_zero _)
  | succ n ih =>
    rcases Nat.lt_or_eq_of_le (Nat.le_of_lt_succ hn) with hlt | rfl
    · exact aliasWeight_succ_le (ih hlt)
    · have hle := r.aliasWeight_le id.index
      rw [aliasWeight_succ_of_some ha, weightBelow_succ_of_some ha]
      simp only [Definition.aliasWeight, Definition.weight]
      omega

theorem idle_enter (r : Registry) (name : String) (trail : Trail) :
    r.idle (trail.enter name) = r.idle trail := by
  cases trail with
  | nil => rfl
  | cons f fs => simp [idle, Trail.enter]

theorem idle_cons {id : TypeId} (name : String) (hid : id.index < r.size)
    (h : trail.find? (·.id == id) = none) :
    (r.idle (⟨id, name⟩ :: trail)).card < (r.idle trail).card := by
  refine Finset.card_lt_card (Finset.ssubset_iff_subset_ne.mpr ⟨?_, fun he => ?_⟩)
  · intro i hi
    simp only [idle, Finset.mem_filter, List.forall_mem_cons] at hi ⊢
    exact ⟨hi.1, hi.2.2⟩
  · have hmem : id.index ∈ r.idle trail := by
      refine Finset.mem_filter.mpr ⟨Finset.mem_range.mpr hid, fun f hf hi => ?_⟩
      have hne := List.find?_eq_none.mp h f hf
      have heq : f.id = id := congrArg TypeId.mk hi
      exact hne (beq_iff_eq.mpr heq)
    rw [← he] at hmem
    exact (Finset.mem_filter.mp hmem).2 ⟨id, name⟩ List.mem_cons_self rfl

theorem aliasesBelow_size (r : Registry) (d : Descriptor) : r.AliasesBelow r.size d :=
  fun _ _ ⟨_, ht⟩ => definition?_lt ht

theorem fits_layoutFuel (r : Registry) (d : Descriptor) : r.Fits (r.layoutFuel d) [] d := by
  refine ⟨r.size, r.aliasesBelow_size d, ?_⟩
  have hidle : (r.idle []).card = r.size := by simp [idle]
  have hle : r.aliasWeight r.size ≤ r.weight + r.size := r.aliasWeight_le r.size
  have hmul : (r.size + 2) * r.span = r.size * r.span + 2 * r.span := Nat.add_mul ..
  have hfuel : r.layoutFuel d = d.weight + (r.size + 2) * r.span := rfl
  have hspan : r.span = r.weight + r.size + 2 := rfl
  rw [hfuel, hmul, hidle]
  omega

theorem Fits.mono (h : r.Fits n trail d) (hn : n ≤ k) : r.Fits k trail d := by
  obtain ⟨j, hj, hlt⟩ := h
  exact ⟨j, hj, Nat.lt_of_lt_of_le hlt hn⟩

theorem not_fits_zero : ¬ r.Fits 0 trail d := fun ⟨_, _, h⟩ => Nat.not_lt_zero _ h

theorem Fits.inside (h : r.Fits (n + 1) trail d) {x : Descriptor}
    (hm : ∀ id ∈ x.mentions, id ∈ d.mentions) (hw : x.weight < d.weight) : r.Fits n trail x := by
  obtain ⟨k, hk, hlt⟩ := h
  exact ⟨k, fun id hid => hk id (hm id hid), by omega⟩

theorem Fits.typedef (hr : r.Founded) {id : TypeId} {t : Descriptor}
    (ht : r.definition? id = some (.typedef t)) (h : r.Fits (n + 1) trail (.named id)) :
    r.Fits n trail t := by
  obtain ⟨k, hk, hlt⟩ := h
  have hid := hk id (List.mem_singleton.mpr rfl) ⟨t, ht⟩
  have hmono := r.aliasWeight_mono (Nat.succ_le_of_lt hid)
  rw [aliasWeight_succ_of_some ht, Definition.aliasWeight] at hmono
  exact ⟨id.index, fun j hj _ => hr.typedef_mention_lt ht hj, by omega⟩

theorem Fits.body {id : TypeId} {a : Aggregate} {name : String}
    (ha : r.definition? id = some (.aggregate a)) (hid : trail.find? (·.id == id) = none)
    (h : r.Fits (n + 1) trail (.named id)) :
    r.Fits (n + 1) (⟨id, name⟩ :: trail) (.aggregate a) := by
  -- one entry less is idle, which pays for a whole span
  obtain ⟨k, -, hlt⟩ := h
  have hlt' := definition?_lt ha
  refine ⟨r.size, r.aliasesBelow_size _, ?_⟩
  have hcard := Nat.mul_le_mul_right r.span (Nat.succ_le_of_lt (idle_cons name hlt' hid))
  have hw : (Descriptor.aggregate a).weight + r.aliasWeight r.size ≤ r.weight + r.size :=
    aliasWeight_body_le ha hlt'
  have hspan : r.span = r.weight + r.size + 2 := rfl
  rw [Nat.succ_mul] at hcard
  omega

theorem Fits.base {a : Aggregate} {b : BaseSpec} {id : TypeId} (hb : b ∈ a.bases)
    (ht : ¬ r.IsTypedef id) (h : r.Fits (n + 1) trail (.aggregate a)) :
    r.Fits n trail (.named id) := by
  obtain ⟨k, -, hlt⟩ := h
  have hw := Aggregate.weight_base_lt hb
  have hpos := b.type.weight_pos
  refine ⟨0, fun j hj htj => ?_, ?_⟩
  · obtain rfl := List.mem_singleton.mp hj
    exact absurd htj ht
  · have hone : (Descriptor.named id).weight = 1 := rfl
    have hzero : r.aliasWeight 0 = 0 := rfl
    omega

end Registry

open Registry

namespace LayoutEnv

variable {env : LayoutEnv} {g : Descend (Except LayoutError)} {trail : Trail} {a : Aggregate}
  {name : String} {d : Descriptor} {n n' : Nat}

theorem Asks.fits (hr : env.registry.Founded) (hg : env.ListsHeld g)
    (h : env.Asks g trail a name d) (hf : env.registry.Fits (n + 1) trail (.aggregate a)) :
    env.registry.Fits n (trail.enter name) d := by
  unfold Fits at hf ⊢
  rw [idle_enter]
  cases h with
  | @member x hx hw =>
    refine Fits.inside hf (fun id hid => ?_) (Aggregate.weight_member_lt hx)
    exact mem_mentions_aggregate.mpr (Or.inl ⟨x, hx, hid⟩)
  | base hu hb hid => exact Fits.base hb (hr.strip_not_typedef (baseId_eq_ok.mp hid)) hf
  | virtualBase hu h hv =>
    obtain ⟨laid, hlaid, -⟩ := LaidBase.mem_virtualBases.mp hv
    obtain ⟨b, hb, -⟩ := mem_right_of_forall₂ (laidBases_ok h) hlaid
    exact Fits.base hb (virtualBases_held hr hg hu h hv).2 hf

/-- Two descents that go deep enough agree, whatever the first finds at its bottom. -/
theorem iterate_layoutStep_eq (hr : env.registry.Founded) (stop : Descend (Except LayoutError))
    (h : env.registry.Fits n trail d) (h' : env.registry.Fits n' trail d) :
    env.layoutStep^[n] stop trail d = env.layoutWithin n' trail d := by
  induction n generalizing n' trail d with
  | zero => exact absurd h not_fits_zero
  | succ n ih =>
    cases n' with
    | zero => exact absurd h' not_fits_zero
    | succ n' =>
      -- what an aggregate asks for fits one level less, on both sides
      have hagg : ∀ {trail a owner}, env.registry.Fits (n + 1) trail (.aggregate a) →
          env.registry.Fits (n' + 1) trail (.aggregate a) →
          env.aggregate (env.layoutStep^[n] stop) trail a owner =
            env.aggregate (env.layoutWithin n') trail a owner := by
        intro trail a owner hf hf'
        have hheld := layoutWithin_listsHeld env hr n'
        have hsame := Matches.same carriesEq env (env.layoutWithin n') trail a
        refine carriesEq.aggregate hsame ?_ owner
        intro name d ha
        exact ih (ha.fits hr hheld hf) (ha.fits hr hheld hf')
      rw [Function.iterate_succ_apply']
      refine carriesEq.layoutStep rfl ?_ (fun _ _ _ _ => rfl) ?_ (fun _ _ => rfl) ?_ ?_
      · rintro x count rfl
        have hw : x.weight < (Descriptor.array x count).weight := Nat.lt_succ_self _
        have hx := h.inside (x := x) (fun _ hid => hid) hw
        exact ih hx (h'.inside (x := x) (fun _ hid => hid) hw)
      · rintro a rfl
        exact hagg h h'
      · rintro id t rfl hd
        rw [definition_eq_ok] at hd
        exact ih (h.typedef hr hd) (h'.typedef hr hd)
      · rintro id a rfl hd
        rw [definition_eq_ok] at hd
        rw [namedAggregate_plain, namedAggregate_plain]
        split
        · rfl
        · exact hagg (h.body hd ‹_›) (h'.body hd ‹_›)

theorem layoutWithin_eq_layoutOf (hr : env.registry.Founded)
    (h : env.registry.Fits n [] d) :
    (env.layoutWithin n [] d : Except LayoutError Layout) = env.layoutOf d := by
  have hfuel := env.registry.fits_layoutFuel d
  rw [← iterate_layoutStep_eq hr (env.layoutWithin 0) h h]
  exact iterate_layoutStep_eq hr _ h hfuel

end LayoutEnv

end TypeLayout
