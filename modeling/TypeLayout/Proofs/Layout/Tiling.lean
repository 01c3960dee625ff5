import TypeLayout.Proofs.Layout.Region
import TypeLayout.Proofs.Layout.Stability
/-! Every byte of a struct or class is taken once. The draft's invariant counts what covers a byte:
one thing below the first free offset, nothing from there on. -/

namespace TypeLayout

open Region (coverage Tiles)

namespace Field

def region? (f : Field) : Option Region :=
  match f.storage with
  | .whole => some ⟨f.offset, f.size⟩
  | .bits _ _ _ => none

def unit? (f : Field) : Option Region :=
  match f.storage with
  | .whole => none
  | .bits unitSize _ _ => some ⟨f.offset, unitSize⟩

end Field

def BaseSubobject.region (b : BaseSubobject) : Region := ⟨b.offset, b.size⟩

def VtableSlot.region (m : Machine) (s : VtableSlot) : Region := ⟨s.offset, m.pointerSize⟩

def Machine.unit (m : Machine) (c : SizeClass) : StorageUnit := ⟨c, (m.row c).size, (m.row c).align⟩

/-- What takes bytes beside padding: slots of its own, bases, plain fields, and storage units, which
bit-fields share. -/
def placed (m : Machine) (own : List VtableSlot) (bases : List BaseSubobject)
    (fields : List Field) : List Region :=
  own.map (VtableSlot.region m) ++ bases.map BaseSubobject.region ++
    fields.filterMap Field.region? ++ (fields.filterMap Field.unit?).dedup

namespace Draft

variable {own : List VtableSlot} {m : Machine} {d d' : Draft} {owner name typeName : String}

@[simp] theorem offset_padTo (d : Draft) (t : Nat) : (d.padTo t).offset = max d.offset t := by
  unfold padTo
  split
  · dsimp only
    omega
  · omega

@[simp] theorem bases_padTo (d : Draft) (t : Nat) : (d.padTo t).bases = d.bases := by
  unfold padTo
  split <;> rfl

@[simp] theorem fields_padTo (d : Draft) (t : Nat) : (d.padTo t).fields = d.fields := by
  unfold padTo
  split <;> rfl

@[simp] theorem slots_padTo (d : Draft) (t : Nat) : (d.padTo t).slots = d.slots := by
  unfold padTo
  split <;> rfl

@[simp] theorem packer_padTo (d : Draft) (t : Nat) : (d.padTo t).packer = d.packer := by
  unfold padTo
  split <;> rfl

theorem coverage_padding_padTo (d : Draft) (t x : Nat) : coverage (d.padTo t).padding x =
    coverage d.padding x + if d.offset ≤ x ∧ x < t then 1 else 0 := by
  unfold padTo
  split
  next h =>
    have hstop : d.offset + (t - d.offset) = t := by omega
    rw [Region.coverage_append, Region.coverage_singleton, hstop]
  next h => rw [if_neg (by omega), Nat.add_zero]

theorem mem_padding_padTo {t : Nat} {r : Region} (h : r ∈ (d.padTo t).padding) :
    r ∈ d.padding ∨ (d.offset < t ∧ r = ⟨d.offset, t - d.offset⟩) := by
  unfold padTo at h
  split at h
  next hlt =>
    rcases List.mem_append.mp h with h | h
    · exact Or.inl h
    · exact Or.inr ⟨hlt, List.mem_singleton.mp h⟩
  next => exact Or.inl h

/-- A unit that still takes bit-fields lies below the first free offset. -/
structure OpenAt (m : Machine) (fields : List Field) (offset : Nat) (o : OpenUnit) : Prop where
  placed : ⟨o.offset, o.unit.size⟩ ∈ fields.filterMap Field.unit?
  stop_le : o.offset + o.unit.size ≤ offset
  size_eq : o.unit.size = (m.row o.unit.sizeClass).size

/-- Below the first free offset every byte is taken once; padding never starts an object. -/
structure Tiled (m : Machine) (own : List VtableSlot) (d : Draft) : Prop where
  coverage_eq : ∀ x, coverage (placed m own d.bases d.fields) x + coverage d.padding x =
    if x < d.offset then 1 else 0
  padding_pos : ∀ r ∈ d.padding, 0 < r.offset ∧ 0 < r.size
  openAt : ∀ o, d.packer = some o → OpenAt m d.fields d.offset o
  slots : ∀ s ∈ own, s ∈ d.slots

theorem OpenAt.mono {fields : List Field} {n k : Nat} {o : OpenUnit} (h : OpenAt m fields n o)
    (hk : n ≤ k) : OpenAt m fields k o :=
  ⟨h.placed, Nat.le_trans h.stop_le hk, h.size_eq⟩

theorem Tiled.padTo (h : d.Tiled m own) {t : Nat} (ht : d.offset = 0 → t = 0) :
    (d.padTo t).Tiled m own where
  coverage_eq x := by
    have hx := h.coverage_eq x
    rw [bases_padTo, fields_padTo, offset_padTo, coverage_padding_padTo]
    split_ifs at hx ⊢ <;> omega
  padding_pos r hr := by
    rcases mem_padding_padTo hr with hr | ⟨hlt, rfl⟩
    · exact h.padding_pos r hr
    · dsimp only
      omega
  openAt o ho := by
    rw [packer_padTo] at ho
    rw [fields_padTo, offset_padTo]
    exact (h.openAt o ho).mono (Nat.le_max_left _ _)
  slots := by
    rw [slots_padTo]
    exact h.slots

theorem coverage_placed_base (bases : List BaseSubobject) (fields : List Field) (b : BaseSubobject)
    (x : Nat) : coverage (placed m own (bases ++ [b]) fields) x =
      coverage (placed m own bases fields) x + coverage [b.region] x := by
  simp only [placed, List.map_append, List.map_cons, List.map_nil, Region.coverage_append]
  omega

theorem coverage_placed_field (bases : List BaseSubobject) (fields : List Field) {f : Field}
    (hf : f.storage = .whole) (x : Nat) : coverage (placed m own bases (fields ++ [f])) x =
      coverage (placed m own bases fields) x + coverage [⟨f.offset, f.size⟩] x := by
  have hregion : f.region? = some ⟨f.offset, f.size⟩ := by simp [Field.region?, hf]
  have hunit : f.unit? = none := by simp [Field.unit?, hf]
  simp only [placed, List.filterMap_append, List.filterMap_cons, List.filterMap_nil, hregion, hunit,
    List.append_nil, Region.coverage_append]
  omega

theorem placed_bits (bases : List BaseSubobject) (fields : List Field) {f : Field} {s b w : Nat}
    (hf : f.storage = .bits s b w) : placed m own bases (fields ++ [f]) =
      own.map (VtableSlot.region m) ++ bases.map BaseSubobject.region ++
        fields.filterMap Field.region? ++
          (fields.filterMap Field.unit? ++ [(⟨f.offset, s⟩ : Region)]).dedup := by
  have hregion : f.region? = none := by simp [Field.region?, hf]
  have hunit : f.unit? = some ⟨f.offset, s⟩ := by simp [Field.unit?, hf]
  simp only [placed, List.filterMap_append, List.filterMap_cons, List.filterMap_nil, hregion, hunit,
    List.append_nil]

theorem coverage_placed_shared (bases : List BaseSubobject) (fields : List Field) {f : Field}
    {s b w : Nat} (hf : f.storage = .bits s b w)
    (hs : ⟨f.offset, s⟩ ∈ fields.filterMap Field.unit?) (x : Nat) :
    coverage (placed m own bases (fields ++ [f])) x = coverage (placed m own bases fields) x := by
  rw [placed_bits bases fields hf]
  simp only [placed, Region.coverage_append, Region.coverage_dedup_concat_of_mem hs]

theorem coverage_placed_unit (bases : List BaseSubobject) (fields : List Field) {f : Field}
    {s b w : Nat} (hf : f.storage = .bits s b w)
    (hs : ⟨f.offset, s⟩ ∉ fields.filterMap Field.unit?) (x : Nat) :
    coverage (placed m own bases (fields ++ [f])) x =
      coverage (placed m own bases fields) x + coverage [⟨f.offset, s⟩] x := by
  rw [placed_bits bases fields hf]
  simp only [placed, Region.coverage_append, Region.coverage_dedup_concat_of_not_mem hs]
  omega

theorem align?_zero {a : Alignment} {y : Nat} (h : a.align? 0 = some y) : y = 0 := by
  have hpos := a.value_pos
  have hmod : (a.value - 1) % a.value = a.value - 1 := Nat.mod_eq_of_lt (by omega)
  simp only [Alignment.align?, Nat.zero_add, hmod] at h
  split at h
  · rw [← Option.some.inj h]
    omega
  · cases h

theorem place?_cases {policy : BasePolicy} {cursor : Nat} {l : Layout} {p : BasePlacement}
    (h : policy.place? cursor l = some p) : cursor ≤ p.offset ∧ (cursor = 0 → p.offset = 0) := by
  have haligned : ∀ {size : Nat} {align : Alignment},
      BasePolicy.placeAligned cursor size align = some p →
      cursor ≤ p.offset ∧ (cursor = 0 → p.offset = 0) := by
    intro size align h
    obtain ⟨offset, ho, rfl⟩ := Option.map_eq_some_iff.mp h
    refine ⟨Alignment.le_align? ho, fun hz => ?_⟩
    rw [hz] at ho
    exact align?_zero ho
  cases policy with
  | itaniumBaseline =>
    simp only [BasePolicy.place?] at h
    split at h
    · obtain rfl := Option.some.inj h
      exact ⟨Nat.le_refl _, id⟩
    · exact haligned h
  | strictSequential => exact haligned h

theorem Tiled.addBase (h : d.Tiled m own) {policy : BasePolicy} {l : Layout} {isVirtual : Bool}
    (hok : d.addBase policy owner name l isVirtual = .ok d') : d'.Tiled m own := by
  unfold Draft.addBase at hok
  split at hok
  · cases hok
  next p hp =>
    unfold BasePlacement.stop? at hok
    obtain ⟨hle, hzero⟩ := place?_cases hp
    split at hok
    · cases hok
    next stop hstop =>
      split at hstop
      · obtain rfl := Option.some.inj hstop
        obtain rfl := Except.ok.inj hok
        have hpad := h.padTo hzero
        refine ⟨fun x => ?_, hpad.padding_pos, fun o ho => ?_,
          fun s hs => List.mem_append_left _ (hpad.slots s hs)⟩
        · have hx := hpad.coverage_eq x
          rw [offset_padTo] at hx
          rw [coverage_placed_base, BaseSubobject.region, Region.coverage_singleton, offset_padTo]
          dsimp only
          split_ifs at hx ⊢ <;> omega
        · exact (hpad.openAt o ho).mono (Nat.le_max_left _ _)
      · cases hstop

theorem Tiled.addField (h : d.Tiled m own) {l : Layout}
    (hok : d.addField owner name typeName l = .ok d') : d'.Tiled m own := by
  unfold Draft.addField at hok
  split at hok
  · cases hok
  next offset ho =>
    split at hok
    · obtain rfl := Except.ok.inj hok
      have hle := Alignment.le_align? ho
      have hpad := h.padTo fun hz => align?_zero (hz ▸ ho)
      refine ⟨fun x => ?_, hpad.padding_pos, fun o ho => (by cases ho), hpad.slots⟩
      have hx := hpad.coverage_eq x
      rw [offset_padTo] at hx
      rw [coverage_placed_field _ _ rfl, Region.coverage_singleton]
      dsimp only
      split_ifs at hx ⊢ <;> omega
    · cases hok

theorem Tiled.separate (h : d.Tiled m own) {unit : StorageUnit}
    (hok : d.separate owner name unit = .ok d') : d'.Tiled m own := by
  unfold Draft.separate at hok
  split at hok
  · cases hok
  next offset ho =>
    obtain rfl := Except.ok.inj hok
    have hpad := h.padTo fun hz => align?_zero (hz ▸ ho)
    exact ⟨hpad.coverage_eq, hpad.padding_pos, fun o ho => (by cases ho), hpad.slots⟩

theorem Tiled.not_covers (h : d.Tiled m own) {x : Nat} (hx : d.offset ≤ x) {r : Region}
    (hr : r ∈ placed m own d.bases d.fields) : ¬ r.Covers x := by
  intro hc
  have hpos := Region.coverage_pos.mpr ⟨r, hr, hc⟩
  have heq := h.coverage_eq x
  rw [if_neg (by omega)] at heq
  omega

theorem packer_place?_cases {packer packer' : Packer} {cursor width : Nat} {unit : StorageUnit}
    {p : BitPlacement} (h : packer.place? cursor unit width = some (p, packer')) :
    (∃ o used, packer = some o ∧ o.unit.sizeClass = unit.sizeClass ∧
      p = ⟨o.offset, o.unit.size, o.used, false⟩ ∧ packer' = some { o with used := used }) ∨
    (∃ offset, unit.align.align? cursor = some offset ∧ p = ⟨offset, unit.size, 0, true⟩ ∧
      packer' = some ⟨unit, offset, width⟩) := by
  have hopen : Packer.openAt cursor unit width = some (p, packer') →
      ∃ offset, unit.align.align? cursor = some offset ∧ p = ⟨offset, unit.size, 0, true⟩ ∧
        packer' = some ⟨unit, offset, width⟩ := by
    intro h
    obtain ⟨offset, ho, he⟩ := Option.map_eq_some_iff.mp h
    cases he
    exact ⟨offset, ho, rfl, rfl⟩
  unfold Packer.place? at h
  split at h
  next o =>
    split at h
    next ht =>
      cases h
      have hclass : o.unit.sizeClass = unit.sizeClass := by
        simp only [OpenUnit.takes, Bool.and_eq_true, beq_iff_eq] at ht
        exact ht.1
      exact Or.inl ⟨o, _, rfl, hclass, rfl, rfl⟩
    next => exact Or.inr (hopen h)
  next => exact Or.inr (hopen h)

theorem mem_units_concat {fields : List Field} {f : Field} {r : Region}
    (h : r ∈ fields.filterMap Field.unit?) : r ∈ (fields ++ [f]).filterMap Field.unit? := by
  rw [List.filterMap_append]
  exact List.mem_append_left _ h

theorem Tiled.shareUnit (h : d.Tiled m own) {o : OpenUnit} (ho : d.packer = some o) {f : Field}
    {bit width used : Nat} (hf : f.storage = .bits o.unit.size bit width)
    (hoffset : f.offset = o.offset) (align : Alignment) (last : String) :
    Tiled m own { d with
      fields := d.fields ++ [f]
      align := align
      packer := some { o with used := used }
      hasBitFields := true
      last := last } := by
  have hopen := h.openAt o ho
  have hmem : ⟨f.offset, o.unit.size⟩ ∈ d.fields.filterMap Field.unit? := hoffset ▸ hopen.placed
  refine ⟨fun x => ?_, h.padding_pos, fun o' ho' => ?_, h.slots⟩
  · rw [coverage_placed_shared _ _ hf hmem]
    exact h.coverage_eq x
  · obtain rfl := Option.some.inj ho'
    exact ⟨mem_units_concat hopen.placed, hopen.stop_le, hopen.size_eq⟩

theorem Tiled.openUnit (h : d.Tiled m own) {unit : StorageUnit} {offset : Nat}
    (hu : unit.size = (m.row unit.sizeClass).size) (ho : unit.align.align? d.offset = some offset)
    {f : Field} {bit width used : Nat} (hf : f.storage = .bits unit.size bit width)
    (hoffset : f.offset = offset) (align : Alignment) (last : String) :
    Tiled m own { d.padTo offset with
      fields := d.fields ++ [f]
      align := align
      offset := offset + unit.size
      packer := some ⟨unit, offset, used⟩
      hasBitFields := true
      last := last } := by
  subst hoffset
  have hle := Alignment.le_align? ho
  have hpad := h.padTo fun hz => align?_zero (hz ▸ ho)
  have hpos : 0 < unit.size := by
    rw [hu]
    exact (m.row unit.sizeClass).size_pos
  have hnew : ⟨f.offset, unit.size⟩ ∉ d.fields.filterMap Field.unit? := by
    intro hmem
    refine h.not_covers hle (List.mem_append_right _ (List.mem_dedup.mpr hmem)) ?_
    exact ⟨Nat.le_refl _, Nat.lt_add_of_pos_right hpos⟩
  refine ⟨fun x => ?_, hpad.padding_pos, fun o ho => ?_, hpad.slots⟩
  · have hx := hpad.coverage_eq x
    rw [offset_padTo, fields_padTo, bases_padTo] at hx
    dsimp only
    rw [bases_padTo, coverage_placed_unit _ _ hf hnew, Region.coverage_singleton]
    split_ifs at hx ⊢ <;> omega
  · obtain rfl := Option.some.inj ho
    refine ⟨?_, Nat.le_refl _, hu⟩
    have hunit : f.unit? = some ⟨f.offset, unit.size⟩ := by simp [Field.unit?, hf]
    rw [List.filterMap_append, List.filterMap_cons, hunit]
    exact List.mem_append_right _ (List.mem_singleton.mpr rfl)

theorem Tiled.addBits (h : d.Tiled m own) {unit : StorageUnit} {width : Nat} {p : BitPlacement}
    (hu : unit.size = (m.row unit.sizeClass).size)
    (hok : d.addBits owner name typeName unit width = .ok (p, d')) : d'.Tiled m own := by
  unfold Draft.addBits at hok
  split at hok
  · cases hok
  next p packer hp =>
    split at hok
    · cases hok
    next stop hstop =>
      have hend : stop = p.offset + p.unitSize := by
        unfold BitPlacement.stop? at hstop
        split at hstop
        · exact (Option.some.inj hstop).symm
        · cases hstop
      cases hok
      rcases packer_place?_cases hp with ⟨o, used, ho, hclass, rfl, rfl⟩ | ⟨offset, ho, rfl, rfl⟩
      · have hopen := h.openAt o ho
        have hsize : unit.size = o.unit.size := by rw [hu, hopen.size_eq, hclass]
        have hmax : max d.offset stop = d.offset := by
          have hle := hopen.stop_le
          dsimp only at hend
          omega
        simp only [Bool.false_eq_true, if_false, hmax, hsize]
        exact h.shareUnit ho rfl rfl _ _
      · have hmax : max (max d.offset offset) stop = offset + unit.size := by
          have hle := Alignment.le_align? ho
          dsimp only at hend
          omega
        simp only [if_true, offset_padTo, fields_padTo, hmax]
        exact h.openUnit hu ho rfl rfl _ _

theorem rounded_cases {size : Nat} (h : d.rounded owner = .ok size) :
    d.offset ≤ size ∧ (d.offset = 0 → size = 0) := by
  unfold rounded at h
  split at h
  · cases h
  next size' hs =>
    cases h
    refine ⟨Alignment.le_align? hs, fun hz => ?_⟩
    rw [hz] at hs
    exact align?_zero hs

theorem Tiled.finish (h : d.Tiled m own) {flags : Flags} {size : Nat}
    (hok : d.finish owner flags = .ok (size, d')) : d'.Tiled m own ∧
      ((flags.empty = true ∧ d'.offset = 0 ∧ size = 1) ∨
        (¬ (flags.empty = true ∧ d'.offset = 0) ∧ d'.offset = size)) := by
  unfold Draft.finish at hok
  split at hok
  next he =>
    cases hok
    simp only [Bool.and_eq_true, decide_eq_true_eq] at he
    exact ⟨h, Or.inl ⟨he.1, he.2, rfl⟩⟩
  next he =>
    cases hs : d.rounded owner with
    | error e =>
      rw [hs] at hok
      cases hok
    | ok size' =>
      rw [hs] at hok
      cases hok
      obtain ⟨hle, hzero⟩ := rounded_cases hs
      simp only [Bool.and_eq_true, decide_eq_true_eq] at he
      refine ⟨h.padTo hzero, Or.inr ⟨fun hd => he ⟨hd.1, ?_⟩, ?_⟩⟩
      · have hd := hd.2
        rw [offset_padTo] at hd
        omega
      · rw [offset_padTo]
        omega

end Draft

namespace LayoutEnv

open Draft (Tiled)

variable {env : LayoutEnv} {g : Descend (Except LayoutError)} {trail : Trail} {a : Aggregate}
  {owner : String} {own : List VtableSlot} {d d' : Draft}

theorem fittingUnit_eq {x : Member} {width : Nat} {unit : StorageUnit}
    (h : env.fittingUnit x width = .ok unit) : unit = env.machine.unit unit.sizeClass := by
  obtain ⟨unit', hu, h⟩ := bind_eq_ok.mp h
  obtain ⟨kind, -, hu⟩ := bind_eq_ok.mp hu
  split at h
  · cases h
  · obtain rfl := pure_eq_ok.mp h
    split at hu
    · split at hu
      · obtain rfl := pure_eq_ok.mp hu
        rfl
      · cases hu
    · cases hu

theorem fittingUnit_size {x : Member} {width : Nat} {unit : StorageUnit}
    (h : env.fittingUnit x width = .ok unit) :
    unit.size = (env.machine.row unit.sizeClass).size :=
  congrArg StorageUnit.size (fittingUnit_eq h)

theorem placeBases_tiled {bs : List LaidBase} (h : d.Tiled env.machine own)
    (hok : env.placeBases owner bs d = .ok d') : d'.Tiled env.machine own := by
  induction bs generalizing d with
  | nil =>
    cases hok
    exact h
  | cons b bs ih =>
    unfold placeBases at hok
    split at hok
    · exact ih h hok
    · obtain ⟨d₁, hadd, hok⟩ := bind_eq_ok.mp hok
      exact ih (h.addBase hadd) hok

theorem placeMember_tiled {x : Member} (h : d.Tiled env.machine own)
    (hok : env.placeMember g trail owner x d = .ok d') : d'.Tiled env.machine own := by
  unfold placeMember at hok
  split at hok
  next width hw =>
    obtain ⟨unit, hu, hok⟩ := bind_eq_ok.mp hok
    rw [ofExcept_eq] at hu
    split at hok
    · rw [ofExcept_eq] at hok
      exact h.separate hok
    · obtain ⟨⟨p, d₁⟩, hadd, hok⟩ := bind_eq_ok.mp hok
      obtain ⟨-, -, hok⟩ := bind_eq_ok.mp hok
      rw [ofExcept_eq] at hadd
      obtain rfl := pure_eq_ok.mp hok
      exact h.addBits (fittingUnit_size hu) hadd
  next hw =>
    obtain ⟨l, -, hok⟩ := bind_eq_ok.mp hok
    obtain ⟨d₁, hadd, hok⟩ := bind_eq_ok.mp hok
    obtain ⟨-, -, hok⟩ := bind_eq_ok.mp hok
    rw [ofExcept_eq] at hadd
    obtain rfl := pure_eq_ok.mp hok
    exact h.addField hadd

theorem placeMembers_tiled {xs : List Member} (h : d.Tiled env.machine own)
    (hok : env.placeMembers g trail owner xs d = .ok d') : d'.Tiled env.machine own := by
  induction xs generalizing d with
  | nil =>
    cases hok
    exact h
  | cons x xs ih =>
    obtain ⟨d₁, hx, hok⟩ := bind_eq_ok.mp hok
    exact ih (placeMember_tiled h hx) hok

theorem placeVirtualBases_tiled {ids : List TypeId} (h : d.Tiled env.machine own)
    (hok : env.placeVirtualBases g trail owner ids d = .ok d') : d'.Tiled env.machine own := by
  induction ids generalizing d with
  | nil =>
    cases hok
    exact h
  | cons id ids ih =>
    obtain ⟨l, -, hok⟩ := bind_eq_ok.mp hok
    obtain ⟨d₁, hadd, hok⟩ := bind_eq_ok.mp hok
    rw [ofExcept_eq] at hadd
    exact ih (h.addBase hadd) hok

/-- The slot that a dynamic class without a dynamic base brings. -/
def introduced (owner : String) (flags : Flags) (bs : List LaidBase) : List VtableSlot :=
  if flags.dynamic && (LaidBase.primary? bs).isNone then [⟨0, owner, false⟩] else []

theorem openDraft_tiled (flags : Flags) (bs : List LaidBase) :
    (env.openDraft owner flags bs).Tiled env.machine (introduced owner flags bs) := by
  unfold openDraft introduced
  rw [env.machine.vtablePointerSize_eq]
  dsimp only
  split
  · refine ⟨fun x => ?_, fun r hr => (by cases hr), fun o ho => (by cases ho), fun s hs => hs⟩
    have hsize : env.machine.pointerSize = env.machine.pointer.value := rfl
    change coverage [⟨0, env.machine.pointerSize⟩] x + coverage [] x =
      if x < env.machine.pointer.value then 1 else 0
    rw [Region.coverage_singleton, Region.coverage_nil]
    by_cases hx : x < env.machine.pointer.value
    · rw [if_pos ⟨Nat.zero_le x, by omega⟩, if_pos hx]
    · rw [if_neg (by omega), if_neg hx]
  · exact ⟨fun x => rfl, fun r hr => (by cases hr), fun o ho => (by cases ho),
      fun s hs => (by cases hs)⟩

theorem RecordRun.final_tiled (run : RecordRun env g trail a owner) :
    run.final.Tiled env.machine (introduced owner (a.flagsOver run.bases) run.bases) ∧
      (((a.flagsOver run.bases).empty = true ∧ run.final.offset = 0 ∧ run.size = 1) ∨
        (¬ ((a.flagsOver run.bases).empty = true ∧ run.final.offset = 0) ∧
          run.final.offset = run.size)) := by
  have hbased := placeBases_tiled (openDraft_tiled _ _) run.placed
  have hfilled := placeMembers_tiled hbased run.members
  have hpadded : (if (LaidBase.virtualBases run.bases).isEmpty then run.filled
      else run.filled.padTo run.nvSize).Tiled env.machine
        (introduced owner (a.flagsOver run.bases) run.bases) := by
    split
    · exact hfilled
    · exact hfilled.padTo (Draft.rounded_cases run.rounded).2
  exact (placeVirtualBases_tiled hpadded run.virtuals).finish run.finish

end LayoutEnv

end TypeLayout
