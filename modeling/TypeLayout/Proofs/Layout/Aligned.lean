import TypeLayout.Proofs.Layout.ByteMap
import TypeLayout.Proofs.Layout.Placement
/-! Everything sits where its alignment allows, and what holds it is at least as strictly aligned.
The invariant is that of a draft, and of the layouts of the bases that the draft takes in: a base
is moved to a multiple of its non-virtual alignment, so what is in it stays aligned. -/

namespace TypeLayout

/-- A region starts at a multiple of `own`, ends by `stop`, and lies in something aligned to
`align`. -/
structure Region.Sits (r : Region) (own align : Alignment) (stop : Nat) : Prop where
  offset_dvd : own.value ∣ r.offset
  align_dvd : own.value ∣ align.value
  stop_le : r.stop ≤ stop

def Field.region (f : Field) : Region := ⟨f.offset, f.size⟩

namespace Region.Sits

variable {r : Region} {own align align' : Alignment} {stop stop' : Nat}

theorem mono (h : r.Sits own align stop) (ha : align.value ∣ align'.value) (hs : stop ≤ stop') :
    r.Sits own align' stop' :=
  ⟨h.offset_dvd, Nat.dvd_trans h.align_dvd ha, Nat.le_trans h.stop_le hs⟩

theorem moved (h : r.Sits own align stop) {offset : Nat} (ho : align.value ∣ offset)
    (ha : align.value ∣ align'.value) (hs : offset + stop ≤ stop') :
    (Region.mk (offset + r.offset) r.size).Sits own align' stop' := by
  refine ⟨Nat.dvd_add (Nat.dvd_trans h.align_dvd ho) h.offset_dvd, Nat.dvd_trans h.align_dvd ha, ?_⟩
  have hle := h.stop_le
  unfold Region.stop at hle ⊢
  dsimp only
  omega

end Region.Sits

theorem Piece.sits (p : Piece) (cursor : Nat) (align : Alignment) :
    (Region.mk (p.start cursor) p.size).Sits p.align (align.max p.align) (p.stop cursor) :=
  ⟨p.align.value_dvd_roundUp cursor, align.value_dvd_max_right p.align, Nat.le_refl _⟩

structure Layout.Flagged (l : Layout) : Prop where
  dynamic_eq : l.flags.dynamic = (l.flags.polymorphic || !l.virtualBases.isEmpty)
  slots_nil : l.flags.dynamic = false → l.slots = []
  not_dynamic : l.flags.empty = true → l.flags.dynamic = false
  nvAlign_one : l.flags.empty = true → l.nvAlign = .one

/-- Sizes are multiples of alignments, and everything in the layout is aligned. -/
structure Layout.Aligned (m : Machine) (l : Layout) : Prop where
  nvAlign_dvd : l.nvAlign.value ∣ l.align.value
  size_dvd : l.align.value ∣ l.size
  nvSize_dvd : l.nvAlign.value ∣ l.nvSize
  nvSize_le : l.nvSize ≤ l.size
  field : ∀ f ∈ l.fields, f.region.Sits f.align l.align l.nvSize
  slot : ∀ s ∈ l.slots, (s.region m).Sits m.pointer l.align l.size
  ownSlot : ∀ s ∈ l.slots, s.inVirtualBase = false → (s.region m).Sits m.pointer l.nvAlign l.nvSize
  base : ∀ b ∈ l.bases, b.isVirtual = false → b.stop ≤ l.nvSize

structure Layout.Regular (m : Machine) (l : Layout) : Prop extends Aligned m l, Flagged l

theorem Layout.scalar_regular (m : Machine) {size : Nat} {align : Alignment}
    (h : align.value ∣ size) : (Layout.scalar size align).Regular m where
  nvAlign_dvd := Nat.dvd_refl _
  size_dvd := h
  nvSize_dvd := h
  nvSize_le := Nat.le_refl _
  field f hf := by cases hf
  slot s hs := by cases hs
  ownSlot s hs := by cases hs
  base b hb := by cases hb
  dynamic_eq := rfl
  slots_nil _ := rfl
  not_dynamic h := by cases h
  nvAlign_one h := by cases h

structure LaidBase.Bears (align : Alignment) (stop : Nat) (b : BaseSubobject) (x : LaidBase) :
    Prop where
  name : b.name = x.name
  isVirtual : b.isVirtual = x.isVirtual
  sits : b.region.Sits x.layout.nvAlign align stop

namespace Draft

variable {m : Machine} {laid : List LaidBase} {d d' : Draft} {owner name typeName : String}
  {l : Layout}

/-- Everything in the draft is aligned and lies below the first free offset; its base entries are
the bases `laid`. -/
structure Aligned (m : Machine) (laid : List LaidBase) (d : Draft) : Prop where
  field : ∀ f ∈ d.fields, f.region.Sits f.align d.align d.offset
  slot : ∀ s ∈ d.slots, (s.region m).Sits m.pointer d.align d.offset
  bases : List.Forall₂ (LaidBase.Bears d.align d.offset) d.bases laid
  unit : ∀ o, d.packer = some o →
    (Region.mk o.offset o.unit.size).Sits o.unit.align d.align d.offset
  row : ∀ o, d.packer = some o → o.unit = m.unit o.unit.sizeClass

theorem Aligned.mono (h : d.Aligned m laid) {d' : Draft} (ha : d.align.value ∣ d'.align.value)
    (ho : d.offset ≤ d'.offset) (hf : d'.fields = d.fields) (hs : d'.slots = d.slots)
    (hb : d'.bases = d.bases) (hp : d'.packer = d.packer ∨ d'.packer = none) :
    d'.Aligned m laid where
  field f hmem := (h.field f (hf ▸ hmem)).mono ha ho
  slot s hmem := (h.slot s (hs ▸ hmem)).mono ha ho
  bases := by
    rw [hb]
    exact h.bases.imp fun _ _ hx => ⟨hx.name, hx.isVirtual, hx.sits.mono ha ho⟩
  unit o hmem := by
    rcases hp with hp | hp
    · exact (h.unit o (hp ▸ hmem)).mono ha ho
    · rw [hp] at hmem
      cases hmem
  row o hmem := by
    rcases hp with hp | hp
    · exact h.row o (hp ▸ hmem)
    · rw [hp] at hmem
      cases hmem

theorem Aligned.padTo (h : d.Aligned m laid) (t : Nat) : (d.padTo t).Aligned m laid := by
  refine h.mono ?_ ?_ (fields_padTo d t) (slots_padTo d t) (bases_padTo d t)
    (Or.inl (packer_padTo d t))
  · simp [align_padTo]
  · rw [offset_padTo]
    exact Nat.le_max_left _ _

theorem Aligned.put (h : d.Aligned m laid) (p : Piece) (name : String) :
    (d.put p name).Aligned m laid :=
  h.mono (d.align.value_dvd_max_left p.align) (p.le_stop d.offset) (fields_put d p name)
    (slots_put d p name) (bases_put d p name) (Or.inl (packer_put d p name))

theorem piece_cases (policy : BasePolicy) (l : Layout) :
    (l.flags.empty = true ∧ policy = .itaniumBaseline ∧ policy.piece l = ⟨0, .one⟩) ∨
    ((policy.piece l).align = l.nvAlign ∧ l.nvSize ≤ (policy.piece l).size) := by
  cases policy with
  | itaniumBaseline =>
    unfold BasePolicy.piece
    dsimp only
    split
    · exact Or.inl ⟨‹_›, rfl, rfl⟩
    · exact Or.inr ⟨rfl, Nat.le_refl _⟩
  | strictSequential => exact Or.inr ⟨rfl, Nat.le_max_left _ _⟩

theorem align_piece (policy : BasePolicy) (hl : l.Flagged) :
    (policy.piece l).align = l.nvAlign := by
  rcases piece_cases policy l with ⟨hempty, -, hp⟩ | ⟨ha, -⟩
  · rw [hp, hl.nvAlign_one hempty]
  · exact ha

theorem movedSlots_sit (policy : BasePolicy) (hl : l.Regular m) (cursor : Nat)
    (align : Alignment) (isVirtual : Bool) {s : VtableSlot}
    (hs : s ∈ movedSlots l ((policy.piece l).start cursor) isVirtual) :
    (s.region m).Sits m.pointer (align.max (policy.piece l).align)
      ((policy.piece l).stop cursor) := by
  obtain ⟨s₀, hs₀, rfl⟩ := List.mem_map.mp hs
  obtain ⟨hmem, hv⟩ := List.mem_filter.mp hs₀
  rcases piece_cases policy l with ⟨hempty, -⟩ | ⟨ha, hsize⟩
  · rw [hl.slots_nil (hl.not_dynamic hempty)] at hmem
    cases hmem
  · have hown := hl.ownSlot s₀ hmem (by simpa using hv)
    have hsits := (policy.piece l).sits cursor align
    rw [ha] at hsits ⊢
    refine hown.moved hsits.offset_dvd hsits.align_dvd ?_
    exact Nat.add_le_add_left hsize _

theorem Aligned.addBase (h : d.Aligned m laid) {policy : BasePolicy} {isVirtual : Bool}
    (hl : l.Regular m) (hok : d.addBase policy owner name l isVirtual = .ok d') (id : TypeId) :
    d'.Aligned m (laid ++ [⟨id, name, isVirtual, l⟩]) := by
  obtain ⟨-, rfl⟩ := addBase_ok hok
  have hput := h.put (policy.piece l) name
  refine ⟨hput.field, fun s hs => ?_, ?_, hput.unit, hput.row⟩
  · rcases List.mem_append.mp hs with hs | hs
    · exact hput.slot s ((slots_put d _ name).symm ▸ hs)
    · exact movedSlots_sit policy hl d.offset d.align isVirtual hs
  · rw [← bases_put d (policy.piece l) name]
    refine List.rel_append hput.bases (.cons ⟨rfl, rfl, ?_⟩ .nil)
    have hsits := (policy.piece l).sits d.offset d.align
    rw [← align_piece policy hl.toFlagged]
    exact hsits

theorem Aligned.addField (h : d.Aligned m laid)
    (hok : d.addField owner name typeName l = .ok d') : d'.Aligned m laid := by
  obtain ⟨-, rfl⟩ := addField_ok hok
  have hput := h.put l.piece name
  refine ⟨fun f hf => ?_, hput.slot, hput.bases, fun o ho => (by cases ho),
    fun o ho => (by cases ho)⟩
  rcases List.mem_append.mp hf with hf | hf
  · exact hput.field f ((fields_put d _ name).symm ▸ hf)
  · rw [List.mem_singleton.mp hf]
    exact l.piece.sits d.offset d.align

theorem Aligned.separate (h : d.Aligned m laid) {unit : StorageUnit}
    (hok : d.separate owner name unit = .ok d') : d'.Aligned m laid := by
  rw [separate_ok hok]
  exact (h.padTo _).mono (Nat.dvd_refl _) (Nat.le_refl _) rfl rfl rfl (Or.inr rfl)

theorem Aligned.addUnit (h : d.Aligned m laid) {unit : StorageUnit} {offset used : Nat} {f : Field}
    (hu : unit = m.unit unit.sizeClass)
    (hsits : (Region.mk offset unit.size).Sits unit.align d.align d.offset)
    (hf : f.region = ⟨offset, unit.size⟩) (hfa : f.align = unit.align) (last : String) :
    Aligned m laid { d with
      fields := d.fields ++ [f]
      packer := some ⟨unit, offset, used⟩
      hasBitFields := true
      last := last } := by
  refine ⟨fun f' hf' => ?_, h.slot, h.bases, fun o ho => ?_, fun o ho => ?_⟩
  · rcases List.mem_append.mp hf' with hf' | hf'
    · exact h.field f' hf'
    · rw [List.mem_singleton.mp hf', hf, hfa]
      exact hsits
  · cases ho
    exact hsits
  · cases ho
    exact hu

theorem Aligned.addBits (h : d.Aligned m laid) {unit : StorageUnit} {width : Nat}
    {p : BitPlacement} (hu : unit = m.unit unit.sizeClass)
    (hok : d.addBits owner name typeName unit width = .ok (p, d')) : d'.Aligned m laid := by
  unfold Draft.addBits at hok
  split at hok
  · cases hok
  next p packer hp =>
    split at hok
    · cases hok
    next stop hstop =>
      have hend : stop = p.offset + p.unitSize := by
        unfold BitPlacement.stop? at hstop
        split at hstop
        · exact (Option.some.inj hstop).symm
        · cases hstop
      cases hok
      -- the draft before the field: no lower and no less aligned than it was, with the unit in it
      have hgrown : ∀ d₁ : Draft, d₁.Aligned m laid →
          Aligned m laid { d₁ with
            align := d₁.align.max unit.align
            offset := max d₁.offset stop } := fun d₁ h₁ =>
        h₁.mono (d₁.align.value_dvd_max_left unit.align) (Nat.le_max_left _ _) rfl rfl rfl
          (Or.inl rfl)
      rcases packer_place?_cases hp with ⟨o, used, ho, hclass, rfl, rfl⟩ | ⟨offset, ho, rfl, rfl⟩
      · have hsame : o.unit = unit := by rw [h.row o ho, hclass, ← hu]
        obtain ⟨unit', offset, used'⟩ := o
        obtain rfl : unit' = unit := hsame
        refine (hgrown d h).addUnit hu ?_ rfl rfl name
        exact (h.unit _ ho).mono (d.align.value_dvd_max_left _) (Nat.le_max_left _ _)
      · refine (hgrown (d.padTo offset) (h.padTo offset)).addUnit hu ⟨?_, ?_, ?_⟩ rfl rfl name
        · exact Alignment.value_dvd_align? ho
        · exact Alignment.value_dvd_max_right _ _
        · rw [hend]
          exact Nat.le_max_right _ _

end Draft

end TypeLayout
