import TypeLayout.Proofs.Layout.Seats
import TypeLayout.Proofs.Registry.Catalogue
/-! The vtable slots of a class. A dynamic class has a slot of its own unless a base lends one; the
others lie in its bases, each where the layout of the base has it. No slot is lost, doubled or
shared by two bases, however the hierarchy is woven. -/

namespace TypeLayout

open Relation (TransGen)
open Registry

def VtableSlot.Apart (m : Machine) (s t : VtableSlot) : Prop :=
  Region.Disjoint (s.region m) (t.region m)

theorem Seat.mem_slots {p : Seat} {s : VtableSlot} : s ∈ p.slots ↔
    ∃ t ∈ p.layout.slots, t.inVirtualBase = false ∧
      s = ⟨p.entry.offset + t.offset, t.owner, p.entry.isVirtual⟩ := by
  simp only [Seat.slots, Draft.movedSlots, Layout.ownSlots, List.mem_map, List.mem_filter,
    Bool.not_eq_true', and_assoc]
  apply exists_congr
  intro t
  rw [eq_comm (a := s)]

theorem getElem?_of_forall₂ {α β : Type} {P : α → β → Prop} {xs : List α} {ys : List β}
    (h : List.Forall₂ P xs ys) {i : Nat} {y : β} (hy : ys[i]? = some y) :
    ∃ x, xs[i]? = some x ∧ P x y := by
  induction h generalizing i with
  | nil => cases hy
  | @cons x y' xs ys hp _ ih =>
    cases i with
    | zero =>
      cases hy
      exact ⟨x, rfl, hp⟩
    | succ i => exact ih hy

theorem map_eq_of_forall₂ {α β γ : Type} {f : α → γ} {g : β → γ} {xs : List α} {ys : List β}
    (h : List.Forall₂ (fun x y => g y = f x) xs ys) : ys.map g = xs.map f := by
  induction h with
  | nil => rfl
  | cons hp _ ih => simp [hp, ih]

namespace Registry

theorem tagOf?_of_aggregate {r : Registry} {id : TypeId} {a : Aggregate}
    (h : r.definition? id = some (.aggregate a)) :
    r.tagOf? id = some (.aggregate a.kind) := by
  obtain ⟨e, he, hs⟩ := definition?_eq_some h
  simp [tagOf?, he, Entry.tag?, hs, EntryState.tag?, Definition.tag?]

end Registry

namespace LayoutEnv

variable {env : LayoutEnv} {a : Aggregate} {b : BaseSpec} {d : Descriptor} {owner : String}
  {l : Layout} {p : Seat} {s : VtableSlot} {n : Nat} {trail : Trail}

theorem layoutOf_regular (hl : env.layoutOf d = (.ok l : Except LayoutError Layout)) :
    l.Regular env.machine :=
  layoutWithin_regular env _ [] d l hl

theorem Takes.within (h : env.Takes b p) (hs : s ∈ p.slots) :
    (s.region env.machine).Within p.entry.region := by
  have hregular := layoutOf_regular h.layout
  obtain ⟨t, ht, hv, rfl⟩ := Seat.mem_slots.mp hs
  have hstop := (hregular.ownSlot t ht hv).stop_le
  have hsize : p.layout.nvSize ≤ p.entry.size := by
    rw [h.size]
    rcases Draft.piece_cases env.policy p.layout with ⟨hempty, -⟩ | ⟨-, hle⟩
    · rw [hregular.slots_nil (hregular.not_dynamic hempty)] at ht
      cases ht
    · exact hle
  unfold Region.stop at hstop
  unfold Region.Within Region.stop
  simp only [VtableSlot.region, BaseSubobject.region] at hstop ⊢
  omega

theorem reaches_body (hr : env.registry.Founded)
    (hd : env.registry.bodyOf? d = some (owner, a)) : env.registry.Reaches d (.aggregate a) := by
  have hstrip := hr.reaches_strip d
  rcases bodyOf?_cases hd with ⟨id, hs, hdef, -⟩ | ⟨hs, -⟩
  · rw [hs] at hstrip
    exact hstrip.tail (.body hdef)
  · rw [hs] at hstrip
    exact hstrip

theorem body_of_seated (hb : b ∈ env.seatedBases d l) :
    ∃ owner a, env.registry.bodyOf? d = some (owner, a) ∧ a.kind.isUnion = false := by
  unfold seatedBases at hb
  split at hb
  next owner a hd =>
    split at hb
    · cases hb
    next hu => exact ⟨owner, a, hd, by simpa using hu⟩
  next => cases hb

theorem mem_seatedBases (hd : env.registry.bodyOf? d = some (owner, a))
    (hu : a.kind.isUnion = false) : b ∈ env.seatedBases d l ↔
      (b ∈ a.bases ∧ b.isVirtual = false) ∨ ∃ v ∈ l.virtualBases, b = ⟨.named v, true⟩ := by
  rw [seatedBases_eq hd hu, List.mem_append, List.mem_filter, List.mem_map, Bool.not_eq_true']
  simp only [eq_comm (b := b)]

theorem contains_seated (hr : env.registry.Founded)
    (hl : env.layoutOf d = (.ok l : Except LayoutError Layout)) (hb : b ∈ env.seatedBases d l) :
    env.registry.Contains d b.type := by
  obtain ⟨owner, a, hd, hu⟩ := body_of_seated hb
  have hreaches := reaches_body hr hd
  rcases (mem_seatedBases hd hu).mp hb with ⟨hb, -⟩ | ⟨v, hv, rfl⟩
  · exact TransGen.tail' hreaches (.base hu hb)
  · obtain ⟨n, trail, run, rfl⟩ := recordRun_of_layoutOf hr hd hu hl
    have hheld := layoutWithin_listsHeld env hr n
    exact (virtualBases_held hr hheld hu run.laid hv).1.trans_right hreaches

theorem takes_of_seated (hr : env.registry.Founded)
    (hl : env.layoutOf d = (.ok l : Except LayoutError Layout)) (hb : b ∈ env.seatedBases d l) :
    ∃ p, env.Takes b p := by
  obtain ⟨owner, a, hd, hu⟩ := body_of_seated hb
  obtain ⟨seats, htakes, -⟩ := layoutOf_takes hr hd hu hl
  obtain ⟨p, -, ht⟩ := mem_left_of_forall₂ htakes hb
  exact ⟨p, ht⟩

theorem hierarchy_induction (hr : env.registry.Founded) {C : Descriptor → Layout → Prop}
    (step : ∀ d l, env.layoutOf d = (.ok l : Except LayoutError Layout) →
      (∀ b ∈ env.seatedBases d l, ∀ base,
        env.layoutOf b.type = (.ok base : Except LayoutError Layout) → C b.type base) → C d l)
    (hl : env.layoutOf d = (.ok l : Except LayoutError Layout)) : C d l := by
  have hground := grounded_of_ok hr hl
  refine hground.contains_induction
    (C := fun d => ∀ l, env.layoutOf d = (.ok l : Except LayoutError Layout) → C d l) ?_ l hl
  intro d ih l hl
  exact step d l hl fun b hb => ih b.type (contains_seated hr hl hb)

theorem record_of_dynamic (hr : env.registry.Founded)
    (hl : env.layoutOf d = (.ok l : Except LayoutError Layout)) (h : l.flags.dynamic = true) :
    ∃ owner a, env.registry.bodyOf? d = some (owner, a) ∧ a.kind.isUnion = false := by
  by_contra hnone
  have hplain : env.registry.basesOf d = [] ∧ env.registry.declaresVirtual d = false := by
    unfold basesOf Registry.declaresVirtual
    cases hd : env.registry.bodyOf? d with
    | none => exact ⟨rfl, rfl⟩
    | some body =>
      have hu : body.2.kind.isUnion = true := by
        by_contra hu
        exact hnone ⟨body.1, body.2, hd, by simpa using hu⟩
      simp [hu]
  have hinherits : env.Inherits d l := layoutWithin_inherits hr _ [] d l hl
  obtain ⟨edges, hwalk, hlist⟩ := hinherits.virtualBases
  rw [hplain.1] at hwalk
  cases hwalk
  have hpoly : l.flags.polymorphic = false := by
    rw [Bool.eq_false_iff, ne_eq, hinherits.polymorphic, inheritsVirtual_iff, hplain.1, hplain.2]
    simp
  rw [(layoutOf_regular hl).dynamic_eq, hpoly, hlist] at h
  cases h

theorem not_union_of_dynamic (hr : env.registry.Founded)
    (hd : env.registry.bodyOf? d = some (owner, a))
    (hl : env.layoutOf d = (.ok l : Except LayoutError Layout)) (h : l.flags.dynamic = true) :
    a.kind.isUnion = false := by
  obtain ⟨_, _, hd', hu⟩ := record_of_dynamic hr hl h
  rw [hd] at hd'
  cases hd'
  exact hu

theorem ownSlots_bases_disjoint (hr : env.registry.Founded)
    (hd : env.registry.bodyOf? d = some (owner, a)) (hu : a.kind.isUnion = false)
    (hl : env.layoutOf d = (.ok l : Except LayoutError Layout)) :
    ((env.ownSlots owner a l).map (VtableSlot.region env.machine) ++
      l.bases.map BaseSubobject.region).Pairwise Region.Disjoint := by
  obtain ⟨n, trail, run, rfl⟩ := recordRun_of_layoutOf hr hd hu hl
  have htiled := run.final_tiled.1
  rw [run.introduced_eq hr] at htiled
  have hall : (env.contents owner a run.layout).Pairwise Region.Disjoint := by
    apply Region.pairwise_disjoint_of_coverage
    intro x
    have hx : Region.coverage (env.contents owner a run.layout) x +
        Region.coverage run.final.padding x = _ := htiled.coverage_eq x
    split at hx <;> omega
  exact (List.pairwise_append.mp (List.pairwise_append.mp hall).1).1

theorem slots_of_not_dynamic (hl : env.layoutOf d = (.ok l : Except LayoutError Layout))
    (h : ¬ l.flags.dynamic = true) : l.slots = [] :=
  (layoutOf_regular hl).slots_nil (by simpa using h)

theorem seats_disjoint {seats : List Seat}
    (h : ((seats.map Seat.entry).map BaseSubobject.region).Pairwise Region.Disjoint) :
    seats.Pairwise fun p q => Region.Disjoint p.entry.region q.entry.region := by
  rw [List.pairwise_map, List.pairwise_map] at h
  exact h

theorem slots_apart (hr : env.registry.Founded)
    (hl : env.layoutOf d = (.ok l : Except LayoutError Layout)) :
    l.slots.Pairwise (VtableSlot.Apart env.machine) := by
  refine hierarchy_induction hr (C := fun _ l => l.slots.Pairwise (VtableSlot.Apart env.machine))
    ?_ hl
  intro d l hl ih
  by_cases hdynamic : l.flags.dynamic = true
  · obtain ⟨owner, a, hd, hu⟩ := record_of_dynamic hr hl hdynamic
    obtain ⟨seats, htakes, hbases, hslots⟩ := layoutOf_takes hr hd hu hl
    have hdisjoint := ownSlots_bases_disjoint hr hd hu hl
    rw [hbases, List.pairwise_append] at hdisjoint
    obtain ⟨hown, hseats, hcross⟩ := hdisjoint
    rw [List.pairwise_map] at hown
    have hwithin : ∀ p ∈ seats, ∀ s ∈ p.slots, (s.region env.machine).Within p.entry.region := by
      intro p hp s hs
      obtain ⟨b, -, hb⟩ := mem_right_of_forall₂ htakes hp
      exact hb.within hs
    rw [hslots.pairwise_iff fun h => h.symm, List.pairwise_append, List.pairwise_flatMap]
    refine ⟨hown, ⟨?_, ?_⟩, ?_⟩
    · intro p hp
      obtain ⟨b, hb, ht⟩ := mem_right_of_forall₂ htakes hp
      have hapart := (ih b hb p.layout ht.layout).filter (!·.inVirtualBase)
      exact List.pairwise_map.mpr (hapart.imp fun h => h.moved p.entry.offset)
    · apply (seats_disjoint hseats).imp_of_mem
      intro p q hp hq hpq s hs t ht
      exact hpq.mono (hwithin p hp s hs) (hwithin q hq t ht)
    · intro s hs t ht
      obtain ⟨p, hp, ht⟩ := List.mem_flatMap.mp ht
      have hentry : p.entry.region ∈ (seats.map Seat.entry).map BaseSubobject.region :=
        List.mem_map_of_mem (List.mem_map_of_mem hp)
      exact (hcross _ (List.mem_map_of_mem hs) _ hentry).mono (.refl _) (hwithin p hp t ht)
  · rw [slots_of_not_dynamic hl hdynamic]
    exact .nil

theorem exists_own_slot (hr : env.registry.Founded)
    (hl : env.layoutOf d = (.ok l : Except LayoutError Layout)) :
    l.flags.dynamic = true → ∃ s ∈ l.slots, s.inVirtualBase = false := by
  refine hierarchy_induction hr
    (C := fun _ l => l.flags.dynamic = true → ∃ s ∈ l.slots, s.inVirtualBase = false) ?_ hl
  intro d l hl ih hdynamic
  obtain ⟨owner, a, hd, hu⟩ := record_of_dynamic hr hl hdynamic
  obtain ⟨seats, htakes, -, hslots⟩ := layoutOf_takes hr hd hu hl
  by_cases hlends : a.bases.any env.lends = true
  · obtain ⟨b, hb, hlends⟩ := List.any_eq_true.mp hlends
    unfold LayoutEnv.lends at hlends
    rw [Bool.and_eq_true, Bool.not_eq_true'] at hlends
    have hseated := (mem_seatedBases (l := l) hd hu).mpr (Or.inl ⟨hb, hlends.1⟩)
    obtain ⟨p, hp, ht⟩ := mem_left_of_forall₂ htakes hseated
    rw [ht.layout] at hlends
    obtain ⟨t, hmem, hv⟩ := ih b hseated p.layout ht.layout hlends.2
    refine ⟨⟨p.entry.offset + t.offset, t.owner, p.entry.isVirtual⟩, ?_,
      ht.isVirtual.trans hlends.1⟩
    apply hslots.mem_iff.mpr
    exact List.mem_append_right _
      (List.mem_flatMap.mpr ⟨p, hp, Seat.mem_slots.mpr ⟨t, hmem, hv, rfl⟩⟩)
  · refine ⟨⟨0, owner, false⟩, hslots.mem_iff.mpr (List.mem_append_left _ ?_), rfl⟩
    simp [ownSlots, hdynamic, hlends]

theorem mem_ownSlots : s ∈ env.ownSlots owner a l ↔
    l.flags.dynamic = true ∧ a.bases.any env.lends = false ∧ s = ⟨0, owner, false⟩ := by
  unfold ownSlots
  split
  next h => simp_all
  next h => simp_all

def nvSlots (env : LayoutEnv) (d : Descriptor) : Nat :=
  match (env.layoutOf d : Except LayoutError Layout) with
  | .ok l => l.ownSlots.length
  | .error _ => 0

theorem nvSlots_eq (hl : env.layoutOf d = (.ok l : Except LayoutError Layout)) :
    env.nvSlots d = l.ownSlots.length := by
  rw [nvSlots, hl]

theorem Takes.length_slots (h : env.Takes b p) : p.slots.length = env.nvSlots b.type := by
  rw [nvSlots_eq h.layout, Seat.slots, Draft.movedSlots, List.length_map]

theorem Takes.length_ownSlots (h : env.Takes b p) :
    (p.slots.filter (!·.inVirtualBase)).length =
      if b.isVirtual then 0 else env.nvSlots b.type := by
  rw [← h.length_slots, ← h.isVirtual]
  cases hv : p.entry.isVirtual <;>
    simp [Seat.slots, Draft.movedSlots, List.filter_map, Function.comp_def, hv]

theorem length_slots (hr : env.registry.Founded)
    (hd : env.registry.bodyOf? d = some (owner, a)) (hu : a.kind.isUnion = false)
    (hl : env.layoutOf d = (.ok l : Except LayoutError Layout)) :
    l.slots.length = (env.ownSlots owner a l).length +
      ((a.bases.filter (!·.isVirtual)).map fun b => env.nvSlots b.type).sum +
      (l.virtualBases.map fun v => env.nvSlots (.named v)).sum := by
  obtain ⟨seats, htakes, -, hslots⟩ := layoutOf_takes hr hd hu hl
  have hlengths := map_eq_of_forall₂ (htakes.imp fun b p h => h.length_slots)
  rw [hslots.length_eq, List.length_append, List.length_flatMap, hlengths]
  simp [seatedBases_eq hd hu, Nat.add_assoc, Function.comp_def]

theorem length_ownSlots (hr : env.registry.Founded)
    (hd : env.registry.bodyOf? d = some (owner, a)) (hu : a.kind.isUnion = false)
    (hl : env.layoutOf d = (.ok l : Except LayoutError Layout)) :
    l.ownSlots.length = (env.ownSlots owner a l).length +
      ((a.bases.filter (!·.isVirtual)).map fun b => env.nvSlots b.type).sum := by
  obtain ⟨seats, htakes, -, hslots⟩ := layoutOf_takes hr hd hu hl
  have hlengths := map_eq_of_forall₂ (htakes.imp fun b p h => h.length_ownSlots)
  have hown : (env.ownSlots owner a l).filter (!·.inVirtualBase) = env.ownSlots owner a l := by
    unfold ownSlots
    split <;> rfl
  have hdirect : (a.bases.filter (!·.isVirtual)).map
        (fun b => if b.isVirtual then 0 else env.nvSlots b.type) =
      (a.bases.filter (!·.isVirtual)).map fun b => env.nvSlots b.type := by
    apply List.map_congr_left
    intro b hb
    have hv : b.isVirtual = false := by simpa using (List.mem_filter.mp hb).2
    simp [hv]
  rw [Layout.ownSlots, (hslots.filter _).length_eq, List.filter_append, List.length_append, hown,
    List.filter_flatMap, List.length_flatMap, hlengths]
  simp [seatedBases_eq hd hu, hdirect, Function.comp_def]

/-- A count of the slots outside the virtual bases, by recursion over the hierarchy. -/
structure CountsSlots (env : LayoutEnv) (nv : Descriptor → Nat) : Prop where
  plain : ∀ {d l}, env.layoutOf d = (.ok l : Except LayoutError Layout) →
    l.flags.dynamic = false → nv d = 0
  own : ∀ {d l owner a}, env.registry.bodyOf? d = some (owner, a) →
    env.layoutOf d = (.ok l : Except LayoutError Layout) → l.flags.dynamic = true →
    a.bases.any env.lends = false → nv d = 1
  inherited : ∀ {d l owner a}, env.registry.bodyOf? d = some (owner, a) →
    env.layoutOf d = (.ok l : Except LayoutError Layout) → l.flags.dynamic = true →
    a.bases.any env.lends = true →
    nv d = ((a.bases.filter (!·.isVirtual)).map fun b => nv b.type).sum

theorem nvSlots_of_not_lends (hb : b.isVirtual = false) (h : env.lends b = false) :
    env.nvSlots b.type = 0 := by
  unfold LayoutEnv.lends at h
  unfold nvSlots
  cases hl : (env.layoutOf b.type : Except LayoutError Layout) with
  | error e => rfl
  | ok l =>
    rw [hl, hb] at h
    have hslots := slots_of_not_dynamic hl (by simpa using h)
    simp [Layout.ownSlots, hslots]

theorem countsSlots_nvSlots (hr : env.registry.Founded) : env.CountsSlots env.nvSlots where
  plain hl hdynamic := by
    rw [nvSlots_eq hl, Layout.ownSlots, slots_of_not_dynamic hl (by simp [hdynamic])]
    rfl
  own {d l owner a} hd hl hdynamic hlends := by
    have hu := not_union_of_dynamic hr hd hl hdynamic
    have hzero : (a.bases.filter (!·.isVirtual)).map (fun b => env.nvSlots b.type) =
        (a.bases.filter (!·.isVirtual)).map fun _ => 0 := by
      apply List.map_congr_left
      intro b hb
      obtain ⟨hb, hv⟩ := List.mem_filter.mp hb
      exact nvSlots_of_not_lends (by simpa using hv)
        (by simpa using List.any_eq_false.mp hlends b hb)
    rw [nvSlots_eq hl, length_ownSlots hr hd hu hl, hzero]
    simp [ownSlots, hdynamic, hlends]
  inherited {d l owner a} hd hl hdynamic hlends := by
    have hu := not_union_of_dynamic hr hd hl hdynamic
    rw [nvSlots_eq hl, length_ownSlots hr hd hu hl]
    simp [ownSlots, hlends]

theorem CountsSlots.eq_nvSlots {nv : Descriptor → Nat} (h : env.CountsSlots nv)
    (hr : env.registry.Founded) (hl : env.layoutOf d = (.ok l : Except LayoutError Layout)) :
    nv d = env.nvSlots d := by
  have h' := countsSlots_nvSlots hr
  refine hierarchy_induction hr (C := fun d _ => nv d = env.nvSlots d) ?_ hl
  intro d l hl ih
  by_cases hdynamic : l.flags.dynamic = true
  · obtain ⟨owner, a, hd, hu⟩ := record_of_dynamic hr hl hdynamic
    cases hlends : a.bases.any env.lends with
    | false => rw [h.own hd hl hdynamic hlends, h'.own hd hl hdynamic hlends]
    | true =>
      rw [h.inherited hd hl hdynamic hlends, h'.inherited hd hl hdynamic hlends]
      congr 1
      apply List.map_congr_left
      intro b hb
      have hseated : b ∈ env.seatedBases d l :=
        (mem_seatedBases hd hu).mpr (Or.inl (by simpa using hb))
      obtain ⟨p, ht⟩ := takes_of_seated hr hl hseated
      exact ih b hseated p.layout ht.layout
  · rw [h.plain hl (by simpa using hdynamic), h'.plain hl (by simpa using hdynamic)]

theorem length_slots_eq {nv : Descriptor → Nat} (h : env.CountsSlots nv)
    (hr : env.registry.Founded) (hd : env.registry.bodyOf? d = some (owner, a))
    (hu : a.kind.isUnion = false) (hl : env.layoutOf d = (.ok l : Except LayoutError Layout)) :
    l.slots.length = nv d + (l.virtualBases.map fun v => nv (.named v)).sum := by
  have hvirtual : l.virtualBases.map (fun v => nv (.named v)) =
      l.virtualBases.map fun v => env.nvSlots (.named v) := by
    apply List.map_congr_left
    intro v hv
    have hseated : ⟨.named v, true⟩ ∈ env.seatedBases d l :=
      (mem_seatedBases hd hu).mpr (Or.inr ⟨v, hv, rfl⟩)
    obtain ⟨p, ht⟩ := takes_of_seated hr hl hseated
    exact h.eq_nvSlots hr ht.layout
  rw [h.eq_nvSlots hr hl, hvirtual, nvSlots_eq hl, length_ownSlots hr hd hu hl,
    length_slots hr hd hu hl]

def OwnersReached (env : LayoutEnv) (d : Descriptor) (l : Layout) : Prop :=
  ∀ id, env.registry.strip d = .named id → ∀ s ∈ l.slots, ∃ j,
    env.registry.Reaches d (.named j) ∧ (env.registry.tagOf? j).isSome = true ∧
    s.owner = env.registry.qualifiedName j

theorem ownersReached_of_ok (hr : env.registry.Founded)
    (hl : env.layoutOf d = (.ok l : Except LayoutError Layout)) : env.OwnersReached d l := by
  refine hierarchy_induction hr ?_ hl
  intro d l hl ih id hid s hs
  by_cases hdynamic : l.flags.dynamic = true
  · obtain ⟨owner, a, hd, hu⟩ := record_of_dynamic hr hl hdynamic
    obtain ⟨seats, htakes, -, hslots⟩ := layoutOf_takes hr hd hu hl
    rcases List.mem_append.mp (hslots.mem_iff.mp hs) with hs | hs
    · rcases bodyOf?_cases hd with ⟨j, hj, hdef, rfl⟩ | ⟨hinline, -⟩
      · have hreaches := hr.reaches_strip d
        rw [hj] at hreaches
        have htag := Option.isSome_of_eq_some (tagOf?_of_aggregate hdef)
        exact ⟨j, hreaches, htag, (mem_ownSlots.mp hs).2.2 ▸ rfl⟩
      · rw [hid] at hinline
        cases hinline
    · obtain ⟨p, hp, hs⟩ := List.mem_flatMap.mp hs
      obtain ⟨b, hb, ht⟩ := mem_right_of_forall₂ htakes hp
      obtain ⟨t, hmem, -, rfl⟩ := Seat.mem_slots.mp hs
      obtain ⟨k, hk⟩ := ht.named
      obtain ⟨j, hj, htag, howner⟩ := ih b hb p.layout ht.layout k hk t hmem
      exact ⟨j, (contains_seated hr hl hb).to_reflTransGen.trans hj, htag, howner⟩
  · rw [slots_of_not_dynamic hl hdynamic] at hs
    cases hs

/-- A slot that the `i`th base brings has the place it has in the layout of the base, and lies in
the entry for that base alone. -/
structure BroughtBy (env : LayoutEnv) (d : Descriptor) (l : Layout) (s : VtableSlot) (i : Nat)
    (entry : BaseSubobject) : Prop where
  getElem : l.bases[i]? = some entry
  isVirtual : s.inVirtualBase = entry.isVirtual
  moved : ∃ b base t, (env.seatedBases d l)[i]? = some b ∧
    env.layoutOf b.type = (.ok base : Except LayoutError Layout) ∧ t ∈ base.slots ∧
    t.inVirtualBase = false ∧ s.offset = entry.offset + t.offset ∧ s.owner = t.owner
  within_iff : ∀ j e, l.bases[j]? = some e →
    ((s.region env.machine).Within e.region ↔ j = i)

theorem disjoint_of_ne {seats : List Seat} {i j : Nat} {p q : Seat}
    (h : seats.Pairwise fun p q => Region.Disjoint p.entry.region q.entry.region)
    (hi : seats[i]? = some p) (hj : seats[j]? = some q) (hne : j ≠ i) :
    Region.Disjoint p.entry.region q.entry.region := by
  obtain ⟨hi', rfl⟩ := List.getElem?_eq_some_iff.mp hi
  obtain ⟨hj', rfl⟩ := List.getElem?_eq_some_iff.mp hj
  rw [List.pairwise_iff_getElem] at h
  rcases Nat.lt_or_gt_of_ne hne with hlt | hlt
  · exact (h j i hj' hi' hlt).symm
  · exact h i j hi' hj' hlt

theorem slot_cases (hr : env.registry.Founded)
    (hd : env.registry.bodyOf? d = some (owner, a)) (hu : a.kind.isUnion = false)
    (hl : env.layoutOf d = (.ok l : Except LayoutError Layout)) (hs : s ∈ l.slots) :
    s ∈ env.ownSlots owner a l ∨ ∃ i entry, env.BroughtBy d l s i entry := by
  obtain ⟨seats, htakes, hbases, hslots⟩ := layoutOf_takes hr hd hu hl
  have hdisjoint := ownSlots_bases_disjoint hr hd hu hl
  rw [hbases, List.pairwise_append] at hdisjoint
  apply (List.mem_append.mp (hslots.mem_iff.mp hs)).imp_right
  intro hs
  obtain ⟨p, hp, hs⟩ := List.mem_flatMap.mp hs
  obtain ⟨i, hi⟩ := List.mem_iff_getElem?.mp hp
  obtain ⟨b, hb, ht⟩ := getElem?_of_forall₂ htakes hi
  obtain ⟨t, hmem, hv, hs'⟩ := Seat.mem_slots.mp hs
  have hwithin := ht.within hs
  refine ⟨i, p.entry, ?_, ?_, ⟨b, p.layout, t, hb, ht.layout, hmem, hv, ?_, ?_⟩, ?_⟩
  · rw [hbases, List.getElem?_map, hi]
    rfl
  · rw [hs']
  · rw [hs']
  · rw [hs']
  · intro j e he
    rw [hbases, List.getElem?_map] at he
    obtain ⟨q, hq, rfl⟩ := Option.map_eq_some_iff.mp he
    constructor
    · intro hw
      by_contra hne
      have hpq := disjoint_of_ne (seats_disjoint hdisjoint.2.1) hi hq hne
      exact (hpq.mono hwithin (.refl _)).not_within
        env.machine.pointer.value_pos hw
    · rintro rfl
      rw [hi] at hq
      cases hq
      exact hwithin

theorem ownSlot_not_within (hr : env.registry.Founded)
    (hd : env.registry.bodyOf? d = some (owner, a)) (hu : a.kind.isUnion = false)
    (hl : env.layoutOf d = (.ok l : Except LayoutError Layout)) (hs : s ∈ env.ownSlots owner a l) :
    s ∈ l.slots ∧ ∀ e ∈ l.bases, ¬ (s.region env.machine).Within e.region := by
  obtain ⟨seats, -, -, hslots⟩ := layoutOf_takes hr hd hu hl
  refine ⟨hslots.mem_iff.mpr (List.mem_append_left _ hs), fun e he => ?_⟩
  have hcross := (List.pairwise_append.mp (ownSlots_bases_disjoint hr hd hu hl)).2.2
  exact (hcross _ (List.mem_map_of_mem hs) _ (List.mem_map_of_mem he)).not_within
    env.machine.pointer.value_pos

theorem blank_mem_displayName (a : Aggregate) : ' ' ∈ a.displayName.toList := by
  unfold Aggregate.displayName
  cases a.name <;> simp

theorem BroughtBy.owner_ne (hr : env.registry.Built) (hnames : env.registry.IdentifierNamed)
    (hd : env.registry.bodyOf? d = some (owner, a))
    (hl : env.layoutOf d = (.ok l : Except LayoutError Layout)) {i : Nat} {entry : BaseSubobject}
    (hs : env.BroughtBy d l s i entry) : s.owner ≠ owner := by
  have hfounded := hr.wellFormed.toFounded
  obtain ⟨b, base, t, hb, hbase, ht, -, -, howner⟩ := hs.moved
  have hseated := List.mem_of_getElem? hb
  obtain ⟨p, htake⟩ := takes_of_seated hfounded hl hseated
  obtain ⟨k, hk⟩ := htake.named
  obtain ⟨j, hj, htag, hname⟩ := ownersReached_of_ok hfounded hbase k hk t ht
  rw [howner, hname]
  intro heq
  rcases bodyOf?_cases hd with ⟨id, hid, hdef, rfl⟩ | ⟨-, rfl⟩
  · -- a class with the name of this one is this one, which contains itself then
    have htag' := Option.isSome_of_eq_some (tagOf?_of_aggregate hdef)
    obtain rfl := hr.linked.eq_of_qualifiedName hr.wellFormed.toTreelike hnames htag htag' heq
    have hself : env.layoutOf (.named j) = (.ok l : Except LayoutError Layout) := by
      rw [← hid, layoutOf_strip hfounded]
      exact hl
    have hsame : env.seatedBases (.named j) l = env.seatedBases d l := by
      rw [seatedBases, seatedBases, hfounded.bodyOf?_named hid]
    have hcontains := contains_seated hfounded hself (hsame ▸ hseated)
    exact (grounded_of_ok hfounded hself).not_contains_self (hcontains.trans_left hj)
  · have hblank := blank_mem_displayName a
    rw [← heq, qualifiedName_eq_join] at hblank
    have hparts : ∀ n ∈ (env.registry.route j).reverse, Text.IdentifierLike n :=
      fun n hn => hnames.route (List.mem_reverse.mp hn)
    exact absurd (Text.not_blank_join hparts hblank) (by decide)

theorem slots_sorted (hr : env.registry.Founded)
    (hd : env.registry.bodyOf? d = some (owner, a)) (hu : a.kind.isUnion = false)
    (hl : env.layoutOf d = (.ok l : Except LayoutError Layout)) :
    l.slots.Pairwise fun s t => s.offset ≤ t.offset := by
  obtain ⟨n, trail, run, rfl⟩ := recordRun_of_layoutOf hr hd hu hl
  have hsorted : (Draft.sortSlots run.final.slots).Pairwise
      fun s t => decide (s.offset ≤ t.offset) = true := by
    apply List.pairwise_mergeSort
    · intro s t u hst htu
      simp only [decide_eq_true_eq] at hst htu ⊢
      omega
    · intro s t
      simp only [Bool.or_eq_true, decide_eq_true_eq]
      omega
  exact hsorted.imp fun h => of_decide_eq_true h

/-- The slots of a struct or class: which there are, how many, where they lie, and what brings each.
A slot of its own is one that no base brings; under names that are identifiers its owner tells. -/
theorem layout_slots (hr : env.registry.Built)
    (hd : env.registry.bodyOf? d = some (owner, a)) (hu : a.kind.isUnion = false)
    (hl : env.layoutOf d = (.ok l : Except LayoutError Layout)) :
    (l.slots ≠ [] ↔ l.flags.dynamic = true) ∧
    (l.flags.dynamic = true → ∃ s ∈ l.slots, s.inVirtualBase = false) ∧
    ((∃ s ∈ l.slots, s.offset = 0 ∧ s.owner = owner ∧
        ∀ e ∈ l.bases, ¬ (s.region env.machine).Within e.region) ↔
      l.flags.dynamic = true ∧ a.bases.any env.lends = false) ∧
    (env.registry.IdentifierNamed → ((∃ s ∈ l.slots, s.offset = 0 ∧ s.owner = owner) ↔
      l.flags.dynamic = true ∧ a.bases.any env.lends = false)) ∧
    (∃ nv, env.CountsSlots nv) ∧
    (∀ nv, env.CountsSlots nv →
      l.slots.length = nv d + (l.virtualBases.map fun v => nv (.named v)).sum) ∧
    (l.slots.map (VtableSlot.region env.machine)).Pairwise Region.Disjoint ∧
    (∀ s ∈ l.slots, s.offset + env.machine.pointerSize ≤ l.size) ∧
    (l.slots.Pairwise fun s t => s.offset ≤ t.offset) ∧
    ∀ s ∈ l.slots, s ∈ env.ownSlots owner a l ∨ ∃ i entry, env.BroughtBy d l s i entry := by
  have hfounded := hr.wellFormed.toFounded
  have hown : l.flags.dynamic = true ∧ a.bases.any env.lends = false → ∃ s ∈ l.slots,
      s.offset = 0 ∧ s.owner = owner ∧
        ∀ e ∈ l.bases, ¬ (s.region env.machine).Within e.region := by
    rintro ⟨hdynamic, hlends⟩
    have hmem : ⟨0, owner, false⟩ ∈ env.ownSlots owner a l :=
      mem_ownSlots.mpr ⟨hdynamic, hlends, rfl⟩
    obtain ⟨hslot, hout⟩ := ownSlot_not_within hfounded hd hu hl hmem
    exact ⟨_, hslot, rfl, rfl, hout⟩
  have hdynamic : ∀ s ∈ env.ownSlots owner a l,
      l.flags.dynamic = true ∧ a.bases.any env.lends = false :=
    fun s hs => ⟨(mem_ownSlots.mp hs).1, (mem_ownSlots.mp hs).2.1⟩
  refine ⟨⟨?_, ?_⟩, exists_own_slot hfounded hl, ⟨?_, hown⟩, fun hnames => ⟨?_, ?_⟩,
    ⟨_, countsSlots_nvSlots hfounded⟩, fun nv h => length_slots_eq h hfounded hd hu hl,
    List.pairwise_map.mpr (slots_apart hfounded hl),
    fun s hs => ((layoutOf_regular hl).slot s hs).stop_le, slots_sorted hfounded hd hu hl,
    fun s hs => slot_cases hfounded hd hu hl hs⟩
  · intro hne
    by_contra h
    exact hne (slots_of_not_dynamic hl h)
  · intro h hnil
    obtain ⟨s, hs, -⟩ := exists_own_slot hfounded hl h
    rw [hnil] at hs
    cases hs
  · rintro ⟨s, hs, -, -, hout⟩
    rcases slot_cases hfounded hd hu hl hs with hs | ⟨i, entry, hb⟩
    · exact hdynamic s hs
    · have hin := (hb.within_iff i entry hb.getElem).mpr rfl
      exact absurd hin (hout entry (List.mem_of_getElem? hb.getElem))
  · rintro ⟨s, hs, -, howner⟩
    rcases slot_cases hfounded hd hu hl hs with hs | ⟨i, entry, hb⟩
    · exact hdynamic s hs
    · exact absurd howner (hb.owner_ne hr hnames hd hl)
  · intro h
    obtain ⟨s, hs, hzero, howner, -⟩ := hown h
    exact ⟨s, hs, hzero, howner⟩

def outputClass : Aggregate :=
  ⟨.classType, some "Output", [], [⟨.named ⟨0⟩, true⟩], ["flush"]⟩

def consoleClass : Aggregate :=
  ⟨.classType, some "Console", [], [⟨.named ⟨2⟩, false⟩, ⟨.named ⟨3⟩, true⟩], []⟩

def outputRegistry : Registry :=
  (streams.registry.alloc .global "Output" (.defined (.aggregate outputClass))).2

def consoles : LayoutEnv :=
  { streams with
    registry := (outputRegistry.alloc .global "Console" (.defined (.aggregate consoleClass))).2 }

theorem consoles_built : consoles.registry.Built := by
  have houtput : streams.registry.define .global "Output" (.aggregate outputClass) =
      .ok (⟨3⟩, outputRegistry) := by
    rfl
  have hconsole : outputRegistry.define .global "Console" (.aggregate consoleClass) =
      .ok (⟨4⟩, consoles.registry) := by
    rfl
  have hfirst : outputRegistry.Built := .define streams_built (by decide) (by decide) houtput
  exact .define hfirst (by decide) (by decide) hconsole

def consoleLayout : Layout where
  size := 32
  align := .eight
  nvSize := 16
  nvAlign := .four
  bases := [⟨"File", 0, 16, false⟩, ⟨"Stream", 16, 8, true⟩, ⟨"Output", 24, 4, true⟩]
  slots := [⟨0, "Input", false⟩, ⟨24, "Output", true⟩]
  padding := [⟨28, 4⟩]
  virtualBases := [⟨0⟩, ⟨3⟩]
  flags := { polymorphic := true, dynamic := true, hasVirtualBases := true }

theorem consoles_layoutOf :
    consoles.layoutOf (.named ⟨4⟩) = (.ok consoleLayout : Except LayoutError Layout) := by
  cbv

theorem consoleLayout_slots : consoles.registry.Built ∧
    consoles.layoutOf (.named ⟨4⟩) = (.ok consoleLayout : Except LayoutError Layout) ∧
    consoles.registry.IdentifierNamed ∧
    (¬ ∃ s ∈ consoleLayout.slots, s.offset = 0 ∧ s.owner = "Console") ∧
    consoleLayout.slots.length = consoles.nvSlots (.named ⟨4⟩) +
      (consoleLayout.virtualBases.map fun v => consoles.nvSlots (.named v)).sum ∧
    ∃ i entry, consoles.BroughtBy (.named ⟨4⟩) consoleLayout ⟨24, "Output", true⟩ i entry := by
  have hnames : consoles.registry.IdentifierNamed := identifierNamed_of_entries (by decide)
  have hlends : consoleClass.bases.any consoles.lends = true := by
    decide +kernel
  have hd : consoles.registry.bodyOf? (.named ⟨4⟩) = some ("Console", consoleClass) := by
    rfl
  obtain ⟨-, -, -, hown, -, hcount, -, -, -, hcases⟩ :=
    layout_slots consoles_built hd rfl consoles_layoutOf
  have hnone : ¬ ∃ s ∈ consoleLayout.slots, s.offset = 0 ∧ s.owner = "Console" := by
    intro h
    have hnot := ((hown hnames).mp h).2
    rw [hlends] at hnot
    cases hnot
  refine ⟨consoles_built, consoles_layoutOf, hnames, hnone,
    hcount _ (countsSlots_nvSlots consoles_built.wellFormed.toFounded), ?_⟩
  rcases hcases ⟨24, "Output", true⟩ (by decide) with h | h
  · have howner := (mem_ownSlots.mp h).2.2
    simp at howner
  · exact h

end LayoutEnv

end TypeLayout
