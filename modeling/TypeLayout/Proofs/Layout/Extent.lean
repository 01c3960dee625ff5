import TypeLayout.Proofs.Layout.BitFields
import TypeLayout.Proofs.Layout.Comparison
import TypeLayout.Proofs.Layout.Slots
/-! How far an aggregate is taken. Whatever a layout lists, inherited slots and shared units
included, takes every byte up to one point and none from there on; that is the size, unless there is
nothing that takes a byte. -/

namespace TypeLayout

namespace Region

structure Fills (rs : List Region) (n : Nat) : Prop where
  stop_le : ∀ r ∈ rs, r.stop ≤ n
  covered : ∀ x, x < n → ∃ r ∈ rs, r.Covers x

variable {rs ss : List Region} {n : Nat}

theorem Fills.perm (h : Fills rs n) (hp : rs.Perm ss) : Fills ss n where
  stop_le r hr := h.stop_le r (hp.mem_iff.mpr hr)
  covered x hx := by
    obtain ⟨r, hr, hc⟩ := h.covered x hx
    exact ⟨r, hp.mem_iff.mp hr, hc⟩

theorem lt_reach {r : Region} (hr : r ∈ rs) {x : Nat} (hx : r.Covers x) : x < reach rs :=
  Nat.lt_of_lt_of_le hx.2 (reach_le_iff.mp (Nat.le_refl _) r hr)

theorem Fills.reach_eq (h : Fills rs n) : reach rs = n := by
  apply Nat.le_antisymm (reach_le_iff.mpr h.stop_le)
  by_contra hlt
  obtain ⟨r, hr, hc⟩ := h.covered (reach rs) (by omega)
  exact absurd (lt_reach hr hc) (Nat.lt_irrefl _)

/-- Sorted regions that take every byte leave no gap: what starts the gap would be taken by a
region that comes later, yet starts earlier. -/
theorem Fills.offset_le_reach {before after : List Region} {r : Region}
    (h : Fills (before ++ r :: after) n)
    (hs : (before ++ r :: after).Pairwise fun s t => s.offset ≤ t.offset) :
    r.offset ≤ reach before := by
  by_contra hgap
  have hstop : r.stop ≤ n := h.stop_le r (by simp)
  have hoffset : r.offset ≤ r.stop := Nat.le_add_right _ _
  obtain ⟨s, hmem, hc⟩ := h.covered (reach before) (by omega)
  have hlater : ∀ t ∈ after, r.offset ≤ t.offset := fun _ ht =>
    List.rel_of_pairwise_cons (List.pairwise_append.mp hs).2.1 ht
  rcases List.mem_append.mp hmem with hmem | hmem
  · exact absurd (lt_reach hmem hc) (Nat.lt_irrefl _)
  · have hle : r.offset ≤ s.offset := by
      rcases List.mem_cons.mp hmem with rfl | hmem
      · exact Nat.le_refl _
      · exact hlater s hmem
    have hfirst := hc.1
    omega

end Region

open Region (Fills reach)

/-- The regions of everything that a layout lists beside padding. -/
def Layout.listed (m : Machine) (l : Layout) : List Region :=
  l.slots.map (VtableSlot.region m) ++ l.bases.map BaseSubobject.region ++
    l.fields.map Field.region

theorem Layout.mem_listed {m : Machine} {l : Layout} {r : Region} : r ∈ l.listed m ↔
    (∃ s ∈ l.slots, s.region m = r) ∨ (∃ b ∈ l.bases, b.region = r) ∨
      ∃ f ∈ l.fields, f.region = r := by
  simp [listed]

/-- Padding takes no byte twice, and none that anything else takes. -/
structure Layout.PaddingApart (m : Machine) (l : Layout) : Prop where
  listed : ∀ r ∈ l.listed m, ∀ p ∈ l.padding, Region.Disjoint r p
  padding : l.padding.Pairwise Region.Disjoint

theorem mem_placed {m : Machine} {own : List VtableSlot} {bases : List BaseSubobject}
    {fields : List Field} {r : Region} : r ∈ placed m own bases fields ↔
      (∃ s ∈ own, s.region m = r) ∨ (∃ b ∈ bases, b.region = r) ∨
        (∃ f ∈ fields, f.region? = some r) ∨ ∃ f ∈ fields, f.unit? = some r := by
  simp [placed]

namespace Field

variable {f : Field} {r : Region}

def UnitSized (f : Field) : Prop := ∀ r, f.unit? = some r → r = f.region

theorem eq_region (h : f.region? = some r) : r = f.region := by
  unfold region? at h
  split at h
  · exact (Option.some.inj h).symm
  · cases h

theorem UnitSized.taken (h : f.UnitSized) :
    f.region? = some f.region ∨ f.unit? = some f.region := by
  cases hs : f.storage with
  | whole => exact Or.inl (by simp [region?, hs, region])
  | bits size first width =>
    have hunit : f.unit? = some ⟨f.offset, size⟩ := by simp [unit?, hs]
    exact Or.inr (h _ hunit ▸ hunit)

end Field

namespace LayoutEnv

variable {env : LayoutEnv} {g : Descend (Except LayoutError)} {trail : Trail} {a : Aggregate}
  {owner : String} {d d' : Draft} {x : Member} {t : Descriptor} {l : Layout} {n : Nat}

theorem placeMember_unitSized (h : ∀ f ∈ d.fields, f.UnitSized)
    (hok : env.placeMember g trail owner x d = .ok d') : ∀ f ∈ d'.fields, f.UnitSized := by
  have hadd : ∀ f : Field, f.UnitSized → ∀ f' ∈ d.fields ++ [f], f'.UnitSized := by
    intro f hf f' hf'
    rcases List.mem_append.mp hf' with hf' | hf'
    · exact h f' hf'
    · rw [List.mem_singleton.mp hf']
      exact hf
  rw [placeMember_plain] at hok
  cases hx : x.bitWidth with
  | some w =>
    rw [hx] at hok
    obtain ⟨unit, -, hok⟩ := bind_eq_ok.mp hok
    split at hok
    · rw [Draft.separate_ok hok]
      simpa using h
    · obtain ⟨p, hbits, hok⟩ := bind_eq_ok.mp hok
      cases hok
      rcases Draft.addBits_cases hbits with ⟨o, -, -, hd'⟩ | ⟨-, hd'⟩
      · rw [hd']
        exact hadd _ fun r hr => (Option.some.inj hr).symm
      · rw [hd']
        exact hadd _ fun r hr => (Option.some.inj hr).symm
  | none =>
    rw [hx] at hok
    obtain ⟨l, -, hok⟩ := bind_eq_ok.mp hok
    rw [(Draft.addField_ok hok).2]
    apply hadd
    intro r hr
    cases hr

theorem placeMembers_unitSized {xs : List Member} (h : ∀ f ∈ d.fields, f.UnitSized)
    (hok : env.placeMembers g trail owner xs d = .ok d') : ∀ f ∈ d'.fields, f.UnitSized := by
  induction xs generalizing d with
  | nil =>
    cases hok
    exact h
  | cons x xs ih =>
    obtain ⟨d₁, hx, hok⟩ := bind_eq_ok.mp hok
    exact ih (placeMember_unitSized h hx) hok

theorem RecordRun.unitSized (run : RecordRun env g trail a owner) :
    ∀ f ∈ run.filled.fields, f.UnitSized := by
  apply placeMembers_unitSized _ run.members
  rw [(placeBases_based (openDraft_based _ _) run.placed).fields]
  intro f hf
  cases hf

theorem RecordRun.paddingApart (hr : env.registry.Founded)
    (run : RecordRun env (env.layoutWithin n) trail a owner)
    (hin : ∀ r ∈ run.layout.listed env.machine,
      ∃ s ∈ env.contents owner a run.layout, r.Within s) : run.layout.PaddingApart env.machine := by
  obtain ⟨htiled, -⟩ := run.final_tiled
  rw [run.introduced_eq hr] at htiled
  have hapart : (env.contents owner a run.layout ++ run.layout.padding).Pairwise
      Region.Disjoint := by
    apply Region.pairwise_disjoint_of_coverage
    intro x
    have hx : Region.coverage (env.contents owner a run.layout) x +
        Region.coverage run.layout.padding x = _ := htiled.coverage_eq x
    rw [Region.coverage_append]
    split at hx <;> omega
  obtain ⟨-, hpadding, hcross⟩ := List.pairwise_append.mp hapart
  refine ⟨fun r hr' p hp => ?_, hpadding⟩
  obtain ⟨s, hs, hw⟩ := hin r hr'
  exact (hcross s hs p hp).mono hw (.refl _)

theorem RecordRun.fills (hr : env.registry.Founded)
    (run : RecordRun env (env.layoutWithin n) trail a owner)
    (hin : ∀ r ∈ env.contents owner a run.layout, r ∈ run.layout.listed env.machine) :
    Fills (run.layout.listed env.machine ++ run.layout.padding) run.final.offset := by
  obtain ⟨htiled, -⟩ := run.final_tiled
  rw [run.introduced_eq hr] at htiled
  obtain ⟨-, -, -, -, vs, -, haligned⟩ := run.final_aligned (layoutWithin_regular env n)
  refine ⟨fun r hr' => ?_, fun x hx => ?_⟩
  · rcases List.mem_append.mp hr' with hr' | hr'
    · rcases Layout.mem_listed.mp hr' with ⟨s, hs, rfl⟩ | ⟨b, hb, rfl⟩ | ⟨f, hf, rfl⟩
      · exact (haligned.slot s ((List.mergeSort_perm _ _).mem_iff.mp hs)).stop_le
      · obtain ⟨x, -, hx⟩ := mem_left_of_forall₂ haligned.bases hb
        exact hx.sits.stop_le
      · exact (haligned.field f hf).stop_le
    · -- the last byte of a padding region is taken, so it is below the end
      obtain ⟨-, hpos⟩ := htiled.padding_pos r hr'
      have hlast : r.Covers (r.stop - 1) := by
        unfold Region.Covers Region.stop
        omega
      have htaken := htiled.coverage_eq (r.stop - 1)
      have hcovered : 0 < Region.coverage run.final.padding (r.stop - 1) :=
        Region.coverage_pos.mpr ⟨r, hr', hlast⟩
      split at htaken
      · omega
      · omega
  · have htaken : Region.coverage (env.contents owner a run.layout) x +
        Region.coverage run.layout.padding x = _ := htiled.coverage_eq x
    rw [if_pos hx, ← Region.coverage_append] at htaken
    obtain ⟨r, hr', hc⟩ := Region.coverage_pos.mp (Nat.lt_of_sub_eq_succ htaken)
    refine ⟨r, ?_, hc⟩
    exact List.mem_append.mpr ((List.mem_append.mp hr').imp_left (hin r))

theorem listed_within (hr : env.registry.Founded)
    (hd : env.registry.bodyOf? t = some (owner, a)) (hu : a.kind.isUnion = false)
    (hl : env.layoutOf t = (.ok l : Except LayoutError Layout))
    (hunits : ∀ f ∈ l.fields, f.UnitSized) :
    ∀ r ∈ l.listed env.machine, ∃ s ∈ env.contents owner a l, r.Within s := by
  intro r h
  rcases Layout.mem_listed.mp h with ⟨s, hs, rfl⟩ | ⟨b, hb, rfl⟩ | ⟨f, hf, rfl⟩
  · rcases slot_cases hr hd hu hl hs with hs | ⟨i, entry, hb⟩
    · exact ⟨_, mem_placed.mpr (Or.inl ⟨s, hs, rfl⟩), .refl _⟩
    · have hin := (hb.within_iff i entry hb.getElem).mpr rfl
      have hmem := List.mem_of_getElem? hb.getElem
      exact ⟨_, mem_placed.mpr (Or.inr (Or.inl ⟨entry, hmem, rfl⟩)), hin⟩
  · exact ⟨_, mem_placed.mpr (Or.inr (Or.inl ⟨b, hb, rfl⟩)), .refl _⟩
  · refine ⟨f.region, mem_placed.mpr (Or.inr (Or.inr ?_)), .refl _⟩
    exact (hunits f hf).taken.imp (fun h => ⟨f, hf, h⟩) fun h => ⟨f, hf, h⟩

theorem listed_of_placed (hunits : ∀ f ∈ l.fields, f.UnitSized)
    (hown : ∀ s ∈ env.ownSlots owner a l, s ∈ l.slots) :
    ∀ r ∈ env.contents owner a l, r ∈ l.listed env.machine := by
  intro r h
  apply Layout.mem_listed.mpr
  rcases mem_placed.mp h with ⟨s, hs, rfl⟩ | hb | ⟨f, hf, hr⟩ | ⟨f, hf, hr⟩
  · exact Or.inl ⟨s, hown s hs, rfl⟩
  · exact Or.inr (Or.inl hb)
  · exact Or.inr (Or.inr ⟨f, hf, (Field.eq_region hr).symm⟩)
  · exact Or.inr (Or.inr ⟨f, hf, (hunits f hf r hr).symm⟩)

theorem record_fills (hr : env.registry.Founded)
    (hd : env.registry.bodyOf? t = some (owner, a)) (hu : a.kind.isUnion = false)
    (hl : env.layoutOf t = (.ok l : Except LayoutError Layout)) :
    l.PaddingApart env.machine ∧
    ∃ n, Fills (l.listed env.machine ++ l.padding) n ∧ n ≤ l.size ∧ (n = l.size ∨ n = 0) := by
  have hwithin := listed_within hr hd hu hl
  obtain ⟨n, trail, run, rfl⟩ := recordRun_of_layoutOf hr hd hu hl
  have hfields : run.final.fields = run.filled.fields :=
    (run.final_aligned (layoutWithin_regular env n)).1.fields_eq
  have hunits : ∀ f ∈ run.layout.fields, f.UnitSized := by
    change ∀ f ∈ run.final.fields, f.UnitSized
    rw [hfields]
    exact run.unitSized
  obtain ⟨htiled, hend⟩ := run.final_tiled
  rw [run.introduced_eq hr] at htiled
  have hown : ∀ s ∈ env.ownSlots owner a run.layout, s ∈ run.layout.slots := fun s hs =>
    (List.mergeSort_perm _ _).mem_iff.mpr (htiled.slots s hs)
  refine ⟨run.paddingApart hr (hwithin hunits), run.final.offset,
    run.fills hr (listed_of_placed hunits hown), ?_⟩
  rcases hend with ⟨-, hzero, -⟩ | ⟨-, hstop⟩
  · exact ⟨hzero ▸ Nat.zero_le _, Or.inr hzero⟩
  · exact ⟨Nat.le_of_eq hstop, Or.inl hstop⟩

theorem lt_largest {fields : List Field} {x : Nat} :
    x < largest fields ↔ ∃ f ∈ fields, x < f.size := by
  induction fields using List.reverseRecOn with
  | nil => simp [largest]
  | append_singleton fields f ih =>
    rw [largest_concat, lt_max_iff, ih]
    simp [or_and_right, exists_or]

theorem union_parts (h : env.union g trail a owner = .ok l) :
    l.slots = [] ∧ (l.flags.empty = true → l.fields = []) := by
  rcases union_ok h with ⟨-, rfl⟩ | ⟨-, o, -, hf⟩
  · exact ⟨rfl, fun _ => rfl⟩
  · unfold Overlay.finish at hf
    split at hf
    · cases hf
    · cases hf
      exact ⟨rfl, fun h => by cases h⟩

theorem union_listed (h : env.union g trail a owner = .ok l) :
    l.listed env.machine = l.fields.map fun f => ⟨0, f.size⟩ := by
  have hregions : l.fields.map Field.region = l.fields.map fun f => ⟨0, f.size⟩ :=
    List.map_congr_left fun f hf => by rw [Field.region, (union_overlaid h).1 f hf]
  simp [Layout.listed, (union_parts h).1, union_bases h, hregions]

theorem union_paddingApart (h : env.union g trail a owner = .ok l) :
    l.PaddingApart env.machine := by
  obtain ⟨-, hpadding⟩ := union_overlaid h
  constructor
  · intro r hr p hp x hx
    rw [union_listed h] at hr
    obtain ⟨f, hf, rfl⟩ := List.mem_map.mp hr
    rw [hpadding] at hp
    split at hp
    · rw [List.mem_singleton.mp hp] at hx
      have hin : x < 0 + f.size := hx.1.2
      have hout : largest l.fields ≤ x := hx.2.1
      have hlt : x < largest l.fields := lt_largest.mpr ⟨f, hf, by omega⟩
      omega
    · cases hp
  · rw [hpadding]
    split
    · exact List.pairwise_singleton _ _
    · exact .nil

theorem union_fills (h : env.union g trail a owner = .ok l) (he : l.flags.empty = false) :
    Fills (l.listed env.machine ++ l.padding) l.size := by
  obtain ⟨-, hpadding⟩ := union_overlaid h
  rw [union_listed h]
  constructor
  · intro r hr
    rcases List.mem_append.mp hr with hr | hr
    · obtain ⟨f, hf, rfl⟩ := List.mem_map.mp hr
      have hregular := union_regular h
      have hstop := Nat.le_trans (hregular.field f hf).stop_le hregular.nvSize_le
      rwa [Field.region, (union_overlaid h).1 f hf] at hstop
    · rw [hpadding] at hr
      split at hr
      next hc =>
        rw [List.mem_singleton.mp hr, Region.stop]
        dsimp only
        omega
      next => cases hr
  · intro x hx
    by_cases hlt : x < largest l.fields
    · obtain ⟨f, hf, hlt⟩ := lt_largest.mp hlt
      refine ⟨⟨0, f.size⟩, List.mem_append_left _ (List.mem_map.mpr ⟨f, hf, rfl⟩), ?_⟩
      exact ⟨Nat.zero_le _, by simpa [Region.stop] using hlt⟩
    · refine ⟨⟨largest l.fields, l.size - largest l.fields⟩, ?_, ?_⟩
      · rw [hpadding, if_pos ⟨he, by omega⟩]
        exact List.mem_append_right _ List.mem_cons_self
      · unfold Region.Covers Region.stop
        dsimp only
        omega

theorem aggregate_fills (hr : env.registry.Founded)
    (hd : env.registry.bodyOf? t = some (owner, a))
    (hl : env.layoutOf t = (.ok l : Except LayoutError Layout)) :
    l.PaddingApart env.machine ∧
    ∃ n, Fills (l.listed env.machine ++ l.padding) n ∧ n ≤ l.size ∧ (n = l.size ∨ n = 0) := by
  by_cases hu : a.kind.isUnion = true
  · obtain ⟨n, trail, hagg⟩ := aggregate_of_layoutOf hr hd hl
    rw [aggregate_plain, if_pos hu] at hagg
    refine ⟨union_paddingApart hagg, ?_⟩
    by_cases he : l.flags.empty = true
    · have hlisted : l.listed env.machine = [] := by
        rw [union_listed hagg, (union_parts hagg).2 he]
        rfl
      have hpadding : l.padding = [] := by simp [(union_overlaid hagg).2, he]
      rw [hlisted, hpadding]
      refine ⟨0, ⟨fun r hr => ?_, fun x hx => ?_⟩, Nat.zero_le _, Or.inr rfl⟩
      · cases hr
      · cases hx
    · exact ⟨l.size, union_fills hagg (by simpa using he), Nat.le_refl _, Or.inl rfl⟩
  · exact record_fills hr hd (by simpa using hu) hl

end LayoutEnv

end TypeLayout
