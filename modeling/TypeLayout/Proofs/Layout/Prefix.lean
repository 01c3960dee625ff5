import TypeLayout.Proofs.Layout.Below
import TypeLayout.Proofs.Layout.BitFields
import TypeLayout.Proofs.Layout.Mirror
import TypeLayout.Proofs.Layout.Slots
/-! A class and one with more members. Up to where the shorter list ends, the two are placed alike;
from there on the shorter class is behind, so whatever still fits in the longer fits in it too. -/

namespace TypeLayout

namespace Alignment

variable {a b : Alignment} {x y : Nat}

theorem roundUp_le_roundUp (hab : a.value ∣ b.value) (hxy : x ≤ y) : a.roundUp x ≤ b.roundUp y :=
  roundUp_le (Nat.le_trans hxy (b.le_roundUp y)) (Nat.dvd_trans hab (b.value_dvd_roundUp y))

theorem max_value_dvd {c : Alignment} (ha : a.value ∣ c.value) (hb : b.value ∣ c.value) :
    (a.max b).value ∣ c.value := by
  unfold max
  split
  · exact hb
  · exact ha

end Alignment

namespace Draft

variable {d d' e e' : Draft} {owner name typeName : String} {l : Layout}

def Alike (d d' : Draft) : Prop := ∃ slots last, d' = { d with slots := slots, last := last } ∧
  slots.map VtableSlot.unowned = d.slots.map VtableSlot.unowned

theorem padTo_with (d : Draft) (slots : List VtableSlot) (last : String) (t : Nat) :
    ({ d with slots := slots, last := last } : Draft).padTo t =
      { d.padTo t with slots := slots, last := last } := by
  unfold padTo
  dsimp only
  split <;> rfl

theorem Alike.addBase (h : d.Alike d') {policy : BasePolicy} {isVirtual : Bool}
    (he : d.addBase policy owner name l isVirtual = .ok e) (owner' : String) :
    ∃ e', d'.addBase policy owner' name l isVirtual = .ok e' ∧ e.Alike e' := by
  obtain ⟨slots, last, rfl, hs⟩ := h
  obtain ⟨hlt, rfl⟩ := addBase_ok he
  rw [addBase_eq]
  refine ⟨_, if_pos hlt, slots ++ movedSlots l ((policy.piece l).start d.offset) isVirtual, name,
    ?_, ?_⟩
  · simp only [put, padTo_with]
  · simp [hs]

theorem Alike.addField (h : d.Alike d') (he : d.addField owner name typeName l = .ok e)
    (owner' : String) :
    ∃ e', d'.addField owner' name typeName l = .ok e' ∧ e.Alike e' := by
  obtain ⟨slots, last, rfl, hs⟩ := h
  obtain ⟨hlt, rfl⟩ := addField_ok he
  rw [addField_eq]
  refine ⟨_, if_pos hlt, slots, name, ?_, ?_⟩
  · simp only [put, padTo_with]
  · simpa using hs

theorem Alike.separate (h : d.Alike d') {unit : StorageUnit}
    (he : d.separate owner name unit = .ok e) (owner' : String) :
    ∃ e', d'.separate owner' name unit = .ok e' ∧ e.Alike e' := by
  obtain ⟨slots, last, rfl, hs⟩ := h
  unfold Draft.separate at he ⊢
  dsimp only
  split at he
  · cases he
  next offset _ =>
    cases he
    refine ⟨_, rfl, slots, name, ?_, ?_⟩
    · simp only [padTo_with]
    · simpa using hs

theorem Alike.addBits (h : d.Alike d') {unit : StorageUnit} {w : Nat} {p : BitPlacement}
    (he : d.addBits owner name typeName unit w = .ok (p, e)) (owner' : String) :
    ∃ e', d'.addBits owner' name typeName unit w = .ok (p, e') ∧ e.Alike e' := by
  obtain ⟨slots, last, rfl, hs⟩ := h
  unfold Draft.addBits at he ⊢
  dsimp only at he ⊢
  split at he
  · cases he
  next q packer _ =>
    split at he
    · cases he
    next stop _ =>
      cases he
      refine ⟨_, rfl, slots, name, ?_, ?_⟩
      · split <;> simp only [padTo_with]
      · dsimp only
        split <;> simpa using hs

/-- The first draft has no more bytes and no stricter alignment. -/
structure Behind (d d' : Draft) : Prop where
  offset_le : d.offset ≤ d'.offset
  align_dvd : d.align.value ∣ d'.align.value

theorem Behind.trans {d'' : Draft} (h : d.Behind d') (h' : d'.Behind d'') : d.Behind d'' :=
  ⟨Nat.le_trans h.offset_le h'.offset_le, Nat.dvd_trans h.align_dvd h'.align_dvd⟩

theorem Alike.behind (h : d.Alike d') : d'.Behind d := by
  obtain ⟨slots, last, rfl, -⟩ := h
  exact ⟨Nat.le_refl _, Nat.dvd_refl _⟩

theorem Behind.put (h : d.Behind d') (p : Piece) (name name' : String) :
    (d.put p name).Behind (d'.put p name') where
  offset_le := Piece.stop_mono rfl (Nat.le_refl _) h.offset_le
  align_dvd := by
    apply Alignment.max_value_dvd
    · exact Nat.dvd_trans h.align_dvd (Alignment.value_dvd_max_left _ _)
    · exact Alignment.value_dvd_max_right _ _

theorem Behind.addBase (h : d.Behind d') {policy : BasePolicy} {isVirtual : Bool}
    (he : d'.addBase policy owner name l isVirtual = .ok e') (owner' : String) :
    ∃ e, d.addBase policy owner' name l isVirtual = .ok e ∧ e.Behind e' := by
  obtain ⟨hlt, rfl⟩ := addBase_ok he
  have hput := h.put (policy.piece l) name name
  rw [addBase_eq]
  exact ⟨_, if_pos (Nat.lt_of_le_of_lt hput.offset_le hlt), hput.offset_le, hput.align_dvd⟩

theorem Behind.roundUp_le (h : d.Behind d') :
    d.align.roundUp d.offset ≤ d'.align.roundUp d'.offset :=
  Alignment.roundUp_le_roundUp h.align_dvd h.offset_le

theorem Behind.rounded (h : d.Behind d') {n : Nat} (hn : d'.rounded owner = .ok n)
    (owner' : String) : ∃ k, d.rounded owner' = .ok k ∧ k ≤ n := by
  obtain ⟨hlt, rfl⟩ := rounded_ok hn
  rw [rounded_eq, if_pos (Nat.lt_of_le_of_lt h.roundUp_le hlt)]
  exact ⟨_, rfl, h.roundUp_le⟩

theorem Behind.padTo (h : d.Behind d') {n n' : Nat} (hn : n ≤ n') :
    (d.padTo n).Behind (d'.padTo n') where
  offset_le := by
    have hle := h.offset_le
    rw [offset_padTo, offset_padTo]
    omega
  align_dvd := by simpa using h.align_dvd

theorem Behind.finish (h : d.Behind d') {flags : Flags} {p : Nat × Draft}
    (hp : d'.finish owner flags = .ok p) (owner' : String) (flags' : Flags) :
    ∃ p', d.finish owner' flags' = .ok p' := by
  have hlt : d.align.roundUp d.offset < addressLimit := by
    rw [finish_eq] at hp
    split at hp
    next hempty =>
      simp only [Bool.and_eq_true, decide_eq_true_eq] at hempty
      have hzero : d.offset = 0 := Nat.le_zero.mp (hempty.2 ▸ h.offset_le)
      rw [hzero, Alignment.roundUp_zero]
      decide
    next =>
      split at hp
      next hlt => exact Nat.lt_of_le_of_lt h.roundUp_le hlt
      next => cases hp
  rw [finish_eq, if_pos hlt]
  split
  · exact ⟨_, rfl⟩
  · exact ⟨_, rfl⟩

end Draft

namespace LayoutEnv

open Draft (Alike Behind)

variable {env : LayoutEnv} {g : Descend (Except LayoutError)} {trail : Trail}
  {a b : Aggregate} {owner : String} {d d' e e' : Draft} {x : Member} {xs : List Member}

theorem openDraft_alike {flags flags' : Flags} (h : flags'.dynamic = flags.dynamic)
    (bs : List LaidBase) (owner owner' : String) :
    (env.openDraft owner flags bs).Alike (env.openDraft owner' flags' bs) := by
  unfold openDraft
  dsimp only
  rw [h]
  split
  · exact ⟨[⟨0, owner', false⟩], owner', rfl, rfl⟩
  · exact ⟨[], owner', rfl, rfl⟩

theorem placeBases_alike {bs : List LaidBase} (h : d.Alike d')
    (he : env.placeBases owner bs d = .ok e) (owner' : String) :
    ∃ e', env.placeBases owner' bs d' = .ok e' ∧ e.Alike e' := by
  induction bs generalizing d d' with
  | nil =>
    cases he
    exact ⟨d', rfl, h⟩
  | cons b bs ih =>
    unfold placeBases at he ⊢
    split at he
    next hv =>
      rw [if_pos hv]
      exact ih h he
    next hv =>
      obtain ⟨d₁, hadd, he⟩ := bind_eq_ok.mp he
      obtain ⟨d₁', hadd', h₁⟩ := h.addBase hadd owner'
      obtain ⟨e', he', h₂⟩ := ih h₁ he
      rw [if_neg hv]
      exact ⟨e', bind_eq_ok.mpr ⟨d₁', hadd', he'⟩, h₂⟩

theorem placeMember_alike (h : d.Alike d') (he : env.placeMember g trail owner x d = .ok e)
    (owner' : String) :
    ∃ e', env.placeMember g trail owner' x d' = .ok e' ∧ e.Alike e' := by
  rw [placeMember_plain] at he ⊢
  cases hw : x.bitWidth with
  | some w =>
    rw [hw] at he
    obtain ⟨unit, hu, he⟩ := bind_eq_ok.mp he
    dsimp only
    rw [hu]
    change ∃ e', (if w = 0 then _ else _) = _ ∧ _
    split at he
    next hz =>
      rw [if_pos hz]
      exact h.separate he owner'
    next hz =>
      obtain ⟨⟨p, e₁⟩, hadd, he⟩ := bind_eq_ok.mp he
      cases he
      obtain ⟨e', hadd', h'⟩ := h.addBits hadd owner'
      rw [if_neg hz, hadd']
      exact ⟨e', rfl, h'⟩
  | none =>
    rw [hw] at he
    obtain ⟨l, hl, he⟩ := bind_eq_ok.mp he
    obtain ⟨e', hadd', h'⟩ := h.addField he owner'
    exact ⟨e', bind_eq_ok.mpr ⟨l, hl, hadd'⟩, h'⟩

theorem placeMembers_alike (h : d.Alike d') (he : env.placeMembers g trail owner xs d = .ok e)
    (owner' : String) :
    ∃ e', env.placeMembers g trail owner' xs d' = .ok e' ∧ e.Alike e' := by
  induction xs generalizing d d' with
  | nil =>
    cases he
    exact ⟨d', rfl, h⟩
  | cons x xs ih =>
    obtain ⟨d₁, hx, he⟩ := bind_eq_ok.mp he
    obtain ⟨d₁', hx', h₁⟩ := placeMember_alike h hx owner'
    obtain ⟨e', he', h₂⟩ := ih h₁ he
    exact ⟨e', bind_eq_ok.mpr ⟨d₁', hx', he'⟩, h₂⟩

theorem placeMember_ahead (he : env.placeMember g trail owner x d = .ok e) :
    d.Behind e ∧ d.fields <+: e.fields := by
  rw [placeMember_plain] at he
  cases hw : x.bitWidth with
  | some w =>
    rw [hw] at he
    obtain ⟨unit, -, he⟩ := bind_eq_ok.mp he
    split at he
    · rw [Draft.separate_ok he]
      refine ⟨⟨?_, ?_⟩, ?_⟩ <;> simp
    · obtain ⟨p, hadd, he⟩ := bind_eq_ok.mp he
      cases he
      rcases Draft.addBits_cases hadd with ⟨o, -, -, he⟩ | ⟨-, he⟩
      · rw [he]
        exact ⟨⟨Nat.le_max_left _ _, Alignment.value_dvd_max_left _ _⟩, List.prefix_append _ _⟩
      · have hle := unit.align.le_roundUp d.offset
        rw [he]
        exact ⟨⟨Nat.le_trans hle (Nat.le_add_right _ _), Alignment.value_dvd_max_left _ _⟩,
          List.prefix_append _ _⟩
  | none =>
    rw [hw] at he
    obtain ⟨l, -, he⟩ := bind_eq_ok.mp he
    rw [(Draft.addField_ok he).2]
    exact ⟨⟨l.piece.le_stop d.offset, Alignment.value_dvd_max_left _ _⟩, List.prefix_append _ _⟩

theorem placeMembers_ahead (he : env.placeMembers g trail owner xs d = .ok e) :
    d.Behind e ∧ d.fields <+: e.fields := by
  induction xs generalizing d with
  | nil =>
    cases he
    exact ⟨⟨Nat.le_refl _, Nat.dvd_refl _⟩, List.prefix_refl _⟩
  | cons x xs ih =>
    obtain ⟨d₁, hx, he⟩ := bind_eq_ok.mp he
    obtain ⟨hbehind, hfields⟩ := placeMember_ahead hx
    obtain ⟨hbehind', hfields'⟩ := ih he
    exact ⟨hbehind.trans hbehind', hfields.trans hfields'⟩

theorem placeVirtualBases_behind {ids : List TypeId} (h : d.Behind d')
    (he : env.placeVirtualBases g trail owner ids d' = .ok e') (owner' : String) :
    ∃ e, env.placeVirtualBases g trail owner' ids d = .ok e ∧ e.Behind e' := by
  induction ids generalizing d d' with
  | nil =>
    cases he
    exact ⟨d, rfl, h⟩
  | cons id ids ih =>
    obtain ⟨l, hl, he⟩ := bind_eq_ok.mp he
    obtain ⟨d₁', hadd', he⟩ := bind_eq_ok.mp he
    rw [ofExcept_eq] at hadd'
    obtain ⟨d₁, hadd, h₁⟩ := h.addBase hadd' owner'
    obtain ⟨e, he, h₂⟩ := ih h₁ he
    refine ⟨e, bind_eq_ok.mpr ⟨l, hl, bind_eq_ok.mpr ⟨d₁, ?_, he⟩⟩, h₂⟩
    rw [ofExcept_eq]
    exact hadd

theorem flagsOver_dynamic (h : a.virtualFunctions = b.virtualFunctions) (bs : List LaidBase) :
    (b.flagsOver bs).dynamic = (a.flagsOver bs).dynamic := by
  unfold Aggregate.flagsOver Aggregate.declaresVirtual
  rw [h]

/-- From a run over more members, one over fewer: alike up to the end of the fewer, then behind. -/
theorem RecordRun.shorten (run : RecordRun env g trail b owner) (hbases : a.bases = b.bases)
    (hvirtual : a.virtualFunctions = b.virtualFunctions) (hmembers : a.members <+: b.members)
    (owner' : String) : ∃ run' : RecordRun env g trail a owner',
      run'.based.bases = run.based.bases ∧
      run'.filled.slots.map VtableSlot.unowned = run.filled.slots.map VtableSlot.unowned ∧
      run'.filled.fields <+: run.filled.fields ∧ run'.filled.Behind run.filled := by
  obtain ⟨rest, hrest⟩ := hmembers
  have hmembers := run.members
  rw [← hrest, placeMembers_append] at hmembers
  obtain ⟨cut, hcut, hafter⟩ := bind_eq_ok.mp hmembers
  obtain ⟨hahead, hfields⟩ := placeMembers_ahead hafter
  -- up to the cut only owners differ
  have hopen : (env.openDraft owner (b.flagsOver run.bases) run.bases).Alike
      (env.openDraft owner' (a.flagsOver run.bases) run.bases) :=
    openDraft_alike (flagsOver_dynamic hvirtual run.bases).symm run.bases owner owner'
  obtain ⟨based, hplaced, hbased⟩ := placeBases_alike hopen run.placed owner'
  obtain ⟨filled, hfilled, hsame⟩ := placeMembers_alike hbased hcut owner'
  have hbehind : filled.Behind run.filled := hsame.behind.trans hahead
  -- from there on the offset and the alignment are no larger
  obtain ⟨nvSize, hrounded, hle⟩ := hbehind.rounded run.rounded owner'
  have hstart : (if (LaidBase.virtualBases run.bases).isEmpty then filled
      else filled.padTo nvSize).Behind run.start := by
    unfold RecordRun.start
    split
    · exact hbehind
    · exact hbehind.padTo hle
  obtain ⟨whole, hvirtuals, hwhole⟩ := placeVirtualBases_behind hstart run.virtuals owner'
  obtain ⟨⟨size, final⟩, hfinish⟩ := hwhole.finish run.finish owner' (a.flagsOver run.bases)
  refine ⟨⟨run.bases, based, filled, nvSize, whole, size, final, hbases ▸ run.laid, hplaced,
    hfilled, hrounded, hvirtuals, hfinish⟩, ?_, ?_, ?_, hbehind⟩
  · obtain ⟨slots, last, rfl, -⟩ := hbased
    rfl
  · obtain ⟨slots, last, rfl, hslots⟩ := hsame
    rw [(placeMembers_keeps hafter).1]
    exact hslots
  · obtain ⟨slots, last, rfl, -⟩ := hsame
    exact hfields

theorem placeVirtualBases_slots {ids : List TypeId}
    (hok : env.placeVirtualBases g trail owner ids d = .ok d') :
    ∃ more, d'.slots = d.slots ++ more ∧ ∀ s ∈ more, s.inVirtualBase = true := by
  induction ids generalizing d with
  | nil =>
    cases hok
    exact ⟨[], (List.append_nil _).symm, fun s hs => by cases hs⟩
  | cons id ids ih =>
    obtain ⟨l, -, hok⟩ := bind_eq_ok.mp hok
    obtain ⟨d₁, hadd, hok⟩ := bind_eq_ok.mp hok
    rw [ofExcept_eq] at hadd
    obtain ⟨more, hslots, hvirtual⟩ := ih hok
    rw [(Draft.addBase_ok hadd).2] at hslots
    dsimp only at hslots
    rw [List.append_assoc] at hslots
    refine ⟨_, hslots, fun s hs => ?_⟩
    rcases List.mem_append.mp hs with hs | hs
    · obtain ⟨t, -, rfl⟩ := List.mem_map.mp hs
      rfl
    · exact hvirtual s hs

theorem placeBases_own {bs : List LaidBase} (h : ∀ s ∈ d.slots, s.inVirtualBase = false)
    (hok : env.placeBases owner bs d = .ok d') : ∀ s ∈ d'.slots, s.inVirtualBase = false := by
  induction bs generalizing d with
  | nil =>
    cases hok
    exact h
  | cons b bs ih =>
    unfold placeBases at hok
    split at hok
    · exact ih h hok
    · obtain ⟨d₁, hadd, hok⟩ := bind_eq_ok.mp hok
      refine ih (fun s hs => ?_) hok
      rw [(Draft.addBase_ok hadd).2] at hs
      rcases List.mem_append.mp hs with hs | hs
      · exact h s hs
      · obtain ⟨t, -, rfl⟩ := List.mem_map.mp hs
        rfl

theorem RecordRun.ownSlots_perm (run : RecordRun env g trail a owner) :
    run.layout.ownSlots.Perm run.filled.slots := by
  have hopen : ∀ s ∈ (env.openDraft owner (a.flagsOver run.bases) run.bases).slots,
      s.inVirtualBase = false := by
    rw [(openDraft_seated (a.flagsOver run.bases) run.bases).slots]
    unfold introduced
    split <;> simp
  have hown : ∀ s ∈ run.filled.slots, s.inVirtualBase = false := by
    rw [(placeMembers_keeps run.members).1]
    exact placeBases_own hopen run.placed
  obtain ⟨more, hslots, hvirtual⟩ := placeVirtualBases_slots run.virtuals
  have hstart := run.start_keeps.1
  have hsorted : run.layout.ownSlots.Perm (run.final.slots.filter (!·.inVirtualBase)) :=
    (List.mergeSort_perm _ _).filter _
  rw [(Draft.finish_keeps run.finish).1, hslots, List.filter_append, List.filter_eq_self.mpr, List.filter_eq_nil_iff.mpr,
    List.append_nil] at hsorted
  · exact hstart ▸ hsorted
  · intro s hs
    simp [hvirtual s hs]
  · intro s hs
    change s ∈ run.start.slots at hs
    rw [hstart] at hs
    simp [hown s hs]

end LayoutEnv

end TypeLayout
