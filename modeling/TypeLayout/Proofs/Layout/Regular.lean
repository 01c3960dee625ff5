import TypeLayout.Proofs.Layout.Aligned
/-! Every layout is regular: its sizes are multiples of its alignments, and its fields, bases and
vtable slots sit where their own alignments allow. -/

namespace TypeLayout

open Registry

namespace Draft

variable {m : Machine} {laid : List LaidBase} {d d' d'' : Draft} {owner name : String} {l : Layout}

structure Extends (d d' : Draft) : Prop where
  align_dvd : d.align.value ∣ d'.align.value
  offset_le : d.offset ≤ d'.offset
  fields_eq : d'.fields = d.fields
  slot : ∀ s ∈ d'.slots, s.inVirtualBase = false → s ∈ d.slots
  base : ∀ b ∈ d'.bases, b.isVirtual = false → b ∈ d.bases

theorem Extends.refl (d : Draft) : d.Extends d :=
  ⟨Nat.dvd_refl _, Nat.le_refl _, rfl, fun _ hs _ => hs, fun _ hb _ => hb⟩

theorem Extends.trans (h : d.Extends d') (h' : d'.Extends d'') : d.Extends d'' where
  align_dvd := Nat.dvd_trans h.align_dvd h'.align_dvd
  offset_le := Nat.le_trans h.offset_le h'.offset_le
  fields_eq := h'.fields_eq.trans h.fields_eq
  slot s hs hv := h.slot s (h'.slot s hs hv) hv
  base b hb hv := h.base b (h'.base b hb hv) hv

theorem extends_padTo (d : Draft) (t : Nat) : d.Extends (d.padTo t) where
  align_dvd := by
    simp [align_padTo]
  offset_le := by
    rw [offset_padTo]
    exact Nat.le_max_left _ _
  fields_eq := fields_padTo d t
  slot s hs _ := slots_padTo d t ▸ hs
  base b hb _ := bases_padTo d t ▸ hb

theorem extends_addBase {policy : BasePolicy}
    (hok : d.addBase policy owner name l true = .ok d') : d.Extends d' := by
  obtain ⟨-, rfl⟩ := addBase_ok hok
  refine ⟨d.align.value_dvd_max_left _, (policy.piece l).le_stop _, fields_put d _ name,
    fun s hs hv => ?_, fun b hb hv => ?_⟩
  · rcases List.mem_append.mp hs with hs | hs
    · exact hs
    · obtain ⟨s₀, -, rfl⟩ := List.mem_map.mp hs
      cases hv
  · rcases List.mem_append.mp hb with hb | hb
    · exact hb
    · rw [List.mem_singleton.mp hb] at hv
      cases hv

theorem finish_ok {flags : Flags} {size : Nat} (h : d.finish owner flags = .ok (size, d')) :
    (flags.empty = true ∧ d.offset = 0 ∧ size = 1 ∧ d' = d) ∨
    (size = d.align.roundUp d.offset ∧ d' = d.padTo size) := by
  unfold finish at h
  split at h
  next he =>
    cases h
    simp only [Bool.and_eq_true, decide_eq_true_eq] at he
    exact Or.inl ⟨he.1, he.2, rfl, rfl⟩
  next =>
    cases hr : d.rounded owner with
    | error e =>
      rw [hr] at h
      cases h
    | ok size' =>
      rw [hr] at h
      cases h
      exact Or.inr ⟨(rounded_ok hr).2, rfl⟩

theorem finish_keeps {flags : Flags} {size : Nat} (h : d.finish owner flags = .ok (size, d')) :
    d'.slots = d.slots ∧ d'.bases = d.bases := by
  rcases finish_ok h with ⟨-, -, -, rfl⟩ | ⟨-, rfl⟩
  · exact ⟨rfl, rfl⟩
  · exact ⟨slots_padTo _ _, bases_padTo _ _⟩

end Draft

namespace LayoutEnv

open Draft (Extends)

variable {env : LayoutEnv} {g : Descend (Except LayoutError)} {trail : Trail} {a : Aggregate}
  {owner : String} {d d' : Draft} {laid : List LaidBase} {l : Layout}

theorem openDraft_aligned (flags : Flags) (bs : List LaidBase) :
    (env.openDraft owner flags bs).Aligned env.machine [] := by
  have hempty : Draft.Aligned env.machine [] { last := owner } :=
    ⟨fun f hf => (by cases hf), fun s hs => (by cases hs), .nil, fun o ho => (by cases ho),
      fun o ho => (by cases ho)⟩
  unfold openDraft
  rw [env.machine.vtablePointerSize_eq]
  dsimp only
  split
  · refine ⟨fun f hf => (by cases hf), fun s hs => ?_, .nil, fun o ho => (by cases ho),
      fun o ho => (by cases ho)⟩
    rw [List.mem_singleton.mp hs]
    refine ⟨Nat.dvd_zero _, Alignment.value_dvd_max_right _ _, ?_⟩
    exact Nat.le_of_eq (Nat.zero_add _)
  · exact hempty

theorem placeBases_aligned {bs : List LaidBase} (h : d.Aligned env.machine laid)
    (hbs : ∀ b ∈ bs, b.layout.Regular env.machine)
    (hok : env.placeBases owner bs d = .ok d') :
    d'.Aligned env.machine (laid ++ bs.filter (!·.isVirtual)) := by
  induction bs generalizing d laid with
  | nil =>
    cases hok
    simpa using h
  | cons b bs ih =>
    have hrest := fun c hc => hbs c (List.mem_cons_of_mem b hc)
    unfold placeBases at hok
    split at hok
    next hv =>
      rw [List.filter_cons_of_neg (by simp [hv])]
      exact ih h hrest hok
    next hv =>
      obtain ⟨d₁, hadd, hok⟩ := bind_eq_ok.mp hok
      have hsame : (⟨b.id, b.name, false, b.layout⟩ : LaidBase) = b := by
        rw [← Bool.eq_false_iff.mpr hv]
      have hadded := h.addBase (hbs b List.mem_cons_self) hadd b.id
      rw [hsame] at hadded
      rw [List.filter_cons_of_pos (by simp [hv]), List.append_cons]
      exact ih hadded hrest hok

theorem placeMember_aligned {x : Member} (h : d.Aligned env.machine laid)
    (hok : env.placeMember g trail owner x d = .ok d') : d'.Aligned env.machine laid := by
  unfold placeMember at hok
  split at hok
  next width hw =>
    obtain ⟨unit, hu, hok⟩ := bind_eq_ok.mp hok
    rw [ofExcept_eq] at hu
    split at hok
    · rw [ofExcept_eq] at hok
      exact h.separate hok
    · obtain ⟨⟨p, d₁⟩, hadd, hok⟩ := bind_eq_ok.mp hok
      obtain ⟨-, -, hok⟩ := bind_eq_ok.mp hok
      rw [ofExcept_eq] at hadd
      obtain rfl := pure_eq_ok.mp hok
      exact h.addBits (fittingUnit_eq hu) hadd
  next hw =>
    obtain ⟨l, -, hok⟩ := bind_eq_ok.mp hok
    obtain ⟨d₁, hadd, hok⟩ := bind_eq_ok.mp hok
    obtain ⟨-, -, hok⟩ := bind_eq_ok.mp hok
    rw [ofExcept_eq] at hadd
    obtain rfl := pure_eq_ok.mp hok
    exact h.addField hadd

theorem placeMembers_aligned {xs : List Member} (h : d.Aligned env.machine laid)
    (hok : env.placeMembers g trail owner xs d = .ok d') : d'.Aligned env.machine laid := by
  induction xs generalizing d with
  | nil =>
    cases hok
    exact h
  | cons x xs ih =>
    obtain ⟨d₁, hx, hok⟩ := bind_eq_ok.mp hok
    exact ih (placeMember_aligned h hx) hok

structure LaysVirtual (env : LayoutEnv) (g : Descend (Except LayoutError)) (trail : Trail)
    (v : TypeId) (laid : LaidBase) : Prop where
  id : laid.id = v
  name : laid.name = env.registry.qualifiedName v
  isVirtual : laid.isVirtual = true
  layout : g (trail.enter laid.name) (.named v) = .ok laid.layout

theorem placeVirtualBases_aligned {ids : List TypeId} (h : d.Aligned env.machine laid)
    (hg : ∀ trail d l, g trail d = .ok l → l.Regular env.machine)
    (hok : env.placeVirtualBases g trail owner ids d = .ok d') :
    d.Extends d' ∧ ∃ vs, List.Forall₂ (env.LaysVirtual g trail) ids vs ∧
      d'.Aligned env.machine (laid ++ vs) := by
  induction ids generalizing d laid with
  | nil =>
    cases hok
    exact ⟨.refl _, [], .nil, by simpa using h⟩
  | cons id ids ih =>
    obtain ⟨l, hl, hok⟩ := bind_eq_ok.mp hok
    obtain ⟨d₁, hadd, hok⟩ := bind_eq_ok.mp hok
    rw [ofExcept_eq] at hadd
    obtain ⟨hext, vs, hvs, halign⟩ := ih (h.addBase (hg _ _ _ hl) hadd id) hok
    rw [List.append_assoc] at halign
    exact ⟨(Draft.extends_addBase hadd).trans hext, _, .cons ⟨rfl, rfl, rfl, hl⟩ hvs, halign⟩

theorem placeBases_slots {bs : List LaidBase} (hbs : ∀ b ∈ bs, b.layout.slots = [])
    (hok : env.placeBases owner bs d = .ok d') : d'.slots = d.slots := by
  induction bs generalizing d with
  | nil =>
    cases hok
    rfl
  | cons b bs ih =>
    have hrest := fun c hc => hbs c (List.mem_cons_of_mem b hc)
    unfold placeBases at hok
    split at hok
    · exact ih hrest hok
    · obtain ⟨d₁, hadd, hok⟩ := bind_eq_ok.mp hok
      obtain ⟨-, rfl⟩ := Draft.addBase_ok hadd
      rw [ih hrest hok]
      simp [Draft.movedSlots, Layout.ownSlots, hbs b List.mem_cons_self]

theorem placeMember_keeps {x : Member} (hok : env.placeMember g trail owner x d = .ok d') :
    d'.slots = d.slots ∧ d'.bases = d.bases := by
  unfold placeMember at hok
  split at hok
  next width hw =>
    obtain ⟨unit, -, hok⟩ := bind_eq_ok.mp hok
    split at hok
    · rw [ofExcept_eq] at hok
      rw [Draft.separate_ok hok]
      exact ⟨Draft.slots_padTo d _, Draft.bases_padTo d _⟩
    · obtain ⟨⟨p, d₁⟩, hadd, hok⟩ := bind_eq_ok.mp hok
      obtain ⟨-, -, hok⟩ := bind_eq_ok.mp hok
      rw [ofExcept_eq] at hadd
      obtain rfl := pure_eq_ok.mp hok
      unfold Draft.addBits at hadd
      split at hadd
      · cases hadd
      · split at hadd
        · cases hadd
        · cases hadd
          dsimp only
          split
          · exact ⟨Draft.slots_padTo d _, Draft.bases_padTo d _⟩
          · exact ⟨rfl, rfl⟩
  next hw =>
    obtain ⟨l, -, hok⟩ := bind_eq_ok.mp hok
    obtain ⟨d₁, hadd, hok⟩ := bind_eq_ok.mp hok
    obtain ⟨-, -, hok⟩ := bind_eq_ok.mp hok
    rw [ofExcept_eq] at hadd
    obtain rfl := pure_eq_ok.mp hok
    rw [(Draft.addField_ok hadd).2]
    exact ⟨Draft.slots_put d l.piece x.name, Draft.bases_put d l.piece x.name⟩

theorem placeMembers_keeps {xs : List Member}
    (hok : env.placeMembers g trail owner xs d = .ok d') :
    d'.slots = d.slots ∧ d'.bases = d.bases := by
  induction xs generalizing d with
  | nil =>
    cases hok
    exact ⟨rfl, rfl⟩
  | cons x xs ih =>
    obtain ⟨d₁, hx, hok⟩ := bind_eq_ok.mp hok
    rw [(ih hok).1, (ih hok).2]
    exact placeMember_keeps hx

theorem placeBases_align {bs : List LaidBase}
    (hbs : ∀ b ∈ bs, b.layout.Flagged ∧ b.layout.flags.empty = true) (hd : d.align = .one)
    (hok : env.placeBases owner bs d = .ok d') : d'.align = .one := by
  induction bs generalizing d with
  | nil =>
    cases hok
    exact hd
  | cons b bs ih =>
    have hrest := fun c hc => hbs c (List.mem_cons_of_mem b hc)
    obtain ⟨hflags, hempty⟩ := hbs b List.mem_cons_self
    unfold placeBases at hok
    split at hok
    · exact ih hrest hd hok
    · obtain ⟨d₁, hadd, hok⟩ := bind_eq_ok.mp hok
      obtain ⟨-, rfl⟩ := Draft.addBase_ok hadd
      refine ih hrest ?_ hok
      rw [Draft.align_put, hd, Draft.align_piece env.policy hflags, hflags.nvAlign_one hempty]
      rfl

theorem placeMembers_align {xs : List Member} (hxs : xs.all (·.isSeparator) = true)
    (hok : env.placeMembers g trail owner xs d = .ok d') : d'.align = d.align := by
  induction xs generalizing d with
  | nil =>
    cases hok
    rfl
  | cons x xs ih =>
    simp only [List.all_cons, Bool.and_eq_true] at hxs
    obtain ⟨d₁, hx, hok⟩ := bind_eq_ok.mp hok
    have hw : x.bitWidth = some 0 := by simpa [Member.isSeparator] using hxs.1
    unfold placeMember at hx
    rw [hw] at hx
    obtain ⟨unit, -, hx⟩ := bind_eq_ok.mp hx
    rw [if_pos rfl, ofExcept_eq] at hx
    rw [ih hxs.2 hok, Draft.separate_ok hx]
    exact Draft.align_padTo d _

theorem bases_of_not_dynamic {bs : List LaidBase} (hbs : ∀ b ∈ bs, b.layout.Flagged)
    (h : (a.flagsOver bs).dynamic = false) :
    LaidBase.virtualBases bs = [] ∧ ∀ b ∈ bs, b.layout.slots = [] := by
  obtain ⟨hpoly, hvirtual⟩ := Bool.or_eq_false_iff.mp h
  have hnone : LaidBase.virtualBases bs = [] := by
    simpa [Aggregate.flagsOver] using hvirtual
  refine ⟨hnone, fun b hb => (hbs b hb).slots_nil ?_⟩
  have hp : b.layout.flags.polymorphic = false := by
    have hany := (Bool.or_eq_false_iff.mp hpoly).2
    rw [List.any_eq_false] at hany
    simpa using hany b hb
  have hv : b.layout.virtualBases = [] := by
    refine List.eq_nil_iff_forall_not_mem.mpr fun v hv => ?_
    have hmem := LaidBase.mem_virtualBases.mpr ⟨b, hb, Or.inr hv⟩
    rw [hnone] at hmem
    cases hmem
  rw [(hbs b hb).dynamic_eq, hp, hv]
  rfl

namespace RecordRun

variable (run : RecordRun env g trail a owner)

theorem laid_regular (hg : ∀ trail d l, g trail d = .ok l → l.Regular env.machine) :
    ∀ b ∈ run.bases, b.layout.Regular env.machine := by
  intro b hb
  obtain ⟨_, -, hl⟩ := mem_right_of_forall₂ (laidBases_ok run.laid) hb
  exact hg _ _ _ hl.layout

theorem filled_aligned (hg : ∀ trail d l, g trail d = .ok l → l.Regular env.machine) :
    run.filled.Aligned env.machine (run.bases.filter (!·.isVirtual)) := by
  have hbased := placeBases_aligned (openDraft_aligned _ _) (run.laid_regular hg) run.placed
  exact placeMembers_aligned hbased run.members

theorem nvSize_eq : run.nvSize = run.filled.align.roundUp run.filled.offset :=
  (Draft.rounded_ok run.rounded).2

theorem filled_offset_le : run.filled.offset ≤ run.nvSize := by
  rw [run.nvSize_eq]
  exact Alignment.le_roundUp _ _

def start : Draft :=
  if (LaidBase.virtualBases run.bases).isEmpty then run.filled else run.filled.padTo run.nvSize

theorem start_keeps :
    run.start.slots = run.filled.slots ∧ run.start.bases = run.filled.bases := by
  unfold start
  split
  · exact ⟨rfl, rfl⟩
  · exact ⟨Draft.slots_padTo _ _, Draft.bases_padTo _ _⟩

theorem filled_extends_start : run.filled.Extends run.start := by
  unfold start
  split
  · exact .refl _
  · exact Draft.extends_padTo _ _

theorem whole_eq (h : LaidBase.virtualBases run.bases = []) : run.whole = run.filled := by
  have hv := run.virtuals
  rw [h] at hv
  exact (Except.ok.inj hv).symm

theorem start_aligned (hg : ∀ trail d l, g trail d = .ok l → l.Regular env.machine) :
    run.start.Aligned env.machine (run.bases.filter (!·.isVirtual)) := by
  unfold start
  split
  · exact run.filled_aligned hg
  · exact (run.filled_aligned hg).padTo _

theorem whole_aligned (hg : ∀ trail d l, g trail d = .ok l → l.Regular env.machine) :
    run.start.Extends run.whole ∧
    ∃ vs, List.Forall₂ (env.LaysVirtual g trail) (LaidBase.virtualBases run.bases) vs ∧
      run.whole.Aligned env.machine (run.bases.filter (!·.isVirtual) ++ vs) :=
  placeVirtualBases_aligned (run.start_aligned hg) hg run.virtuals

theorem filled_align_of_empty (hg : ∀ trail d l, g trail d = .ok l → l.Regular env.machine)
    (h : (a.flagsOver run.bases).empty = true) :
    (a.flagsOver run.bases).dynamic = false ∧ run.filled.align = .one := by
  simp only [Aggregate.flagsOver, Bool.and_eq_true, Bool.not_eq_true'] at h
  obtain ⟨⟨hdynamic, hmembers⟩, hbases⟩ := h
  have hbases := List.all_eq_true.mp hbases
  have hbs : ∀ b ∈ run.bases, b.layout.Flagged ∧ b.layout.flags.empty = true :=
    fun b hb => ⟨(run.laid_regular hg b hb).toFlagged, hbases b hb⟩
  have hopen : (env.openDraft owner (a.flagsOver run.bases) run.bases).align = .one := by
    have hd : (a.flagsOver run.bases).dynamic = false := hdynamic
    rw [openDraft, hd]
    rfl
  refine ⟨hdynamic, ?_⟩
  rw [placeMembers_align hmembers run.members]
  exact placeBases_align hbs hopen run.placed

theorem final_aligned (hg : ∀ trail d l, g trail d = .ok l → l.Regular env.machine) :
    run.filled.Extends run.final ∧ run.final.offset ≤ run.size ∧ run.nvSize ≤ run.size ∧
    run.final.align.value ∣ run.size ∧
    ∃ vs, List.Forall₂ (env.LaysVirtual g trail) (LaidBase.virtualBases run.bases) vs ∧
      run.final.Aligned env.machine (run.bases.filter (!·.isVirtual) ++ vs) := by
  obtain ⟨hvirtuals, vs, hvs, halign⟩ := run.whole_aligned hg
  have hext := run.filled_extends_start.trans hvirtuals
  rcases Draft.finish_ok run.finish with ⟨hempty, hzero, hsize, hfinal⟩ | ⟨hsize, hfinal⟩
  · -- nothing takes a byte, so one byte is enough for everything
    obtain ⟨hdynamic, hone⟩ := run.filled_align_of_empty hg hempty
    have hnone := (bases_of_not_dynamic
      (fun b hb => (run.laid_regular hg b hb).toFlagged) hdynamic).1
    have hwhole := run.whole_eq hnone
    have hnv : run.nvSize = 0 := by
      rw [run.nvSize_eq, ← hwhole, hzero, Alignment.roundUp_zero]
    rw [hfinal]
    refine ⟨hext, ?_, ?_, ?_, vs, hvs, halign⟩
    · rw [hzero]
      exact Nat.zero_le _
    · rw [hnv]
      exact Nat.zero_le _
    · rw [hwhole, hone]
      exact Nat.one_dvd _
  · have hle : run.whole.offset ≤ run.size := by
      rw [hsize]
      exact Alignment.le_roundUp _ _
    have hnv : run.nvSize ≤ run.size := by
      by_cases hv : LaidBase.virtualBases run.bases = []
      · rw [hsize, run.whole_eq hv, run.nvSize_eq]
      · have hstart : run.nvSize ≤ run.start.offset := by
          unfold start
          rw [if_neg (by simpa using hv), Draft.offset_padTo]
          exact Nat.le_max_right _ _
        exact Nat.le_trans hstart (Nat.le_trans hvirtuals.offset_le hle)
    rw [hfinal]
    refine ⟨hext.trans (Draft.extends_padTo _ _), ?_, hnv, ?_, vs, hvs, halign.padTo _⟩
    · rw [Draft.offset_padTo]
      omega
    · rw [Draft.align_padTo, hsize]
      exact Alignment.value_dvd_roundUp _ _

theorem regular (hg : ∀ trail d l, g trail d = .ok l → l.Regular env.machine) :
    run.layout.Regular env.machine := by
  obtain ⟨hext, hoffset, hnv, hsize, vs, -, halign⟩ := run.final_aligned hg
  have hfilled := run.filled_aligned hg
  have hbases : ∀ b ∈ run.bases, b.layout.Flagged :=
    fun b hb => (run.laid_regular hg b hb).toFlagged
  have hmem : ∀ s ∈ run.layout.slots, s ∈ run.final.slots := fun s hs =>
    (List.mergeSort_perm _ _).mem_iff.mp hs
  refine ⟨⟨hext.align_dvd, hsize, ?_, hnv, fun f hf => ?_, fun s hs => ?_, fun s hs hv => ?_,
    fun b hb hv => ?_⟩, ⟨rfl, fun h => ?_, fun h => ?_, fun h => ?_⟩⟩
  · change run.filled.align.value ∣ run.nvSize
    rw [run.nvSize_eq]
    exact Alignment.value_dvd_roundUp _ _
  · have hf' : f ∈ run.filled.fields := hext.fields_eq ▸ hf
    exact (hfilled.field f hf').mono hext.align_dvd run.filled_offset_le
  · exact (halign.slot s (hmem s hs)).mono (Nat.dvd_refl _) hoffset
  · have hs' := hext.slot s (hmem s hs) hv
    exact (hfilled.slot s hs').mono (Nat.dvd_refl _) run.filled_offset_le
  · obtain ⟨x, -, hx⟩ := mem_left_of_forall₂ hfilled.bases (hext.base b hb hv)
    exact Nat.le_trans hx.sits.stop_le run.filled_offset_le
  · -- without a slot of its own, a base's or a virtual base's there is none
    obtain ⟨hnone, hslots⟩ := bases_of_not_dynamic hbases h
    have hopen : (env.openDraft owner (a.flagsOver run.bases) run.bases).slots = [] := by
      have hd : (a.flagsOver run.bases).dynamic = false := h
      rw [openDraft, hd]
      rfl
    refine List.eq_nil_iff_forall_not_mem.mpr fun s hs => ?_
    have hs' := hmem s hs
    rw [(Draft.finish_keeps run.finish).1, run.whole_eq hnone, (placeMembers_keeps run.members).1,
      placeBases_slots hslots run.placed, hopen] at hs'
    cases hs'
  · exact (run.filled_align_of_empty hg h).1
  · exact (run.filled_align_of_empty hg h).2

end RecordRun

theorem overlayMember_sits {x : Member} {o o' : Overlay}
    (h : ∀ f ∈ o.fields, f.region.Sits f.align o.align o.size)
    (hok : env.overlayMember g trail x o = .ok o') :
    ∀ f ∈ o'.fields, f.region.Sits f.align o'.align o'.size := by
  have hadd : ∀ f : Field, f.offset = 0 →
      ∀ f' ∈ (o.add f).fields, f'.region.Sits f'.align (o.add f).align (o.add f).size := by
    intro f hf f' hf'
    rcases List.mem_append.mp hf' with hf' | hf'
    · exact (h f' hf').mono (o.align.value_dvd_max_left f.align) (Nat.le_max_left _ _)
    · rw [List.mem_singleton.mp hf']
      refine ⟨?_, o.align.value_dvd_max_right f.align, ?_⟩
      · rw [Field.region, hf]
        exact Nat.dvd_zero _
      · rw [Region.stop, Field.region, hf, Nat.zero_add]
        exact Nat.le_max_right _ _
  unfold overlayMember at hok
  split at hok
  · obtain ⟨unit, -, hok⟩ := bind_eq_ok.mp hok
    split at hok
    · obtain rfl := pure_eq_ok.mp hok
      exact h
    · obtain rfl := pure_eq_ok.mp hok
      exact hadd _ rfl
  · obtain ⟨l, -, hok⟩ := bind_eq_ok.mp hok
    obtain rfl := pure_eq_ok.mp hok
    exact hadd _ rfl

theorem overlayMembers_sit {xs : List Member} {o o' : Overlay}
    (h : ∀ f ∈ o.fields, f.region.Sits f.align o.align o.size)
    (hok : env.overlayMembers g trail xs o = .ok o') :
    ∀ f ∈ o'.fields, f.region.Sits f.align o'.align o'.size := by
  induction xs generalizing o with
  | nil =>
    cases hok
    exact h
  | cons x xs ih =>
    obtain ⟨o₁, hx, hok⟩ := bind_eq_ok.mp hok
    exact ih (overlayMember_sits h hx) hok

theorem union_regular (h : env.union g trail a owner = .ok l) : l.Regular env.machine := by
  rcases union_ok h with ⟨-, rfl⟩ | ⟨-, o, ho, hf⟩
  · exact { Layout.scalar_regular env.machine (Nat.one_dvd 1 : Alignment.one.value ∣ 1) with
      not_dynamic := fun _ => rfl, nvAlign_one := fun _ => rfl }
  · have hsits := overlayMembers_sit (fun f hf => (by cases hf)) ho
    unfold Overlay.finish at hf
    split at hf
    · cases hf
    next size hs =>
      obtain rfl := Except.ok.inj hf
      have hdvd := Alignment.value_dvd_align? hs
      exact { Layout.scalar_regular env.machine hdvd with
        field := fun f hf => (hsits f hf).mono (Nat.dvd_refl _) (Alignment.le_align? hs)
        nvAlign_one := fun h => (by cases h) }

theorem extent?_dvd (m : Machine) {kind : Fundamental} {size : Nat} {align : Alignment}
    (h : m.extent? kind = some (size, align)) : align.value ∣ size := by
  unfold Machine.extent? at h
  split at h
  next c _ =>
    cases h
    exact (m.row c).align_dvd
  next =>
    split at h
    · cases h
      exact Nat.dvd_refl _
    · cases h

theorem layoutStep_regular (hg : ∀ trail d l, g trail d = .ok l → l.Regular env.machine)
    {x : Descriptor} (h : env.layoutStep g trail x = .ok l) : l.Regular env.machine := by
  have hagg : ∀ {trail a owner l}, env.aggregate g trail a owner = .ok l →
      l.Regular env.machine := by
    intro trail a owner l h
    rw [aggregate_plain] at h
    split at h
    · exact union_regular h
    · obtain ⟨run, rfl⟩ := record_ok h
      exact run.regular hg
  cases layoutStep_ok h with
  | fundamental he => exact Layout.scalar_regular _ (extent?_dvd _ he)
  | pointer => exact Layout.scalar_regular _ (Nat.dvd_refl _)
  | array hl _ _ =>
    exact Layout.scalar_regular _ (Nat.dvd_trans (hg _ _ _ hl).size_dvd (Nat.dvd_mul_right _ _))
  | enum he => exact Layout.scalar_regular _ (extent?_dvd _ he)
  | inline hl => exact hagg hl
  | typedef _ hl => exact hg _ _ _ hl
  | namedEnum _ he => exact Layout.scalar_regular _ (extent?_dvd _ he)
  | body _ _ hl => exact hagg hl

theorem layoutWithin_regular (env : LayoutEnv) (n : Nat) (trail : Trail) (x : Descriptor)
    (l : Layout) (h : (env.layoutWithin n trail x : Except LayoutError Layout) = .ok l) :
    l.Regular env.machine := by
  induction n generalizing trail x l with
  | zero => cases h
  | succ n ih => exact layoutStep_regular ih h

end LayoutEnv

end TypeLayout
