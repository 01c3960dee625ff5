import TypeLayout.Proofs.Layout.Comparison
import TypeLayout.Proofs.Layout.Packing
/-! What is placed no later than something else. Drafts and overlays of one aggregate under the two
base policies keep their fields and bases in step, and the first is never ahead of the second. -/

namespace TypeLayout

structure Field.Below (f f' : Field) : Prop where
  name : f'.name = f.name
  typeName : f'.typeName = f.typeName
  align : f'.align = f.align
  storage : f'.storage = f.storage
  offset_le : f.offset ≤ f'.offset
  size_le : f.size ≤ f'.size

structure BaseSubobject.Below (b b' : BaseSubobject) : Prop where
  name : b'.name = b.name
  isVirtual : b'.isVirtual = b.isVirtual
  offset_le : b.offset ≤ b'.offset
  size_le : b.size ≤ b'.size

/-- One layout is as strictly aligned as another, has the same fields and bases, and has them no
later. -/
structure Layout.Below (l l' : Layout) : Prop where
  align : l'.align = l.align
  nvAlign : l'.nvAlign = l.nvAlign
  flags : l'.flags = l.flags
  virtualBases : l'.virtualBases = l.virtualBases
  size_le : l.size ≤ l'.size
  nvSize_le : l.nvSize ≤ l'.nvSize
  fields : List.Forall₂ Field.Below l.fields l'.fields
  bases : List.Forall₂ BaseSubobject.Below l.bases l'.bases

theorem Layout.scalar_below {size size' : Nat} (align : Alignment) (h : size ≤ size') :
    (Layout.scalar size align).Below (Layout.scalar size' align) :=
  ⟨rfl, rfl, rfl, rfl, h, h, .nil, .nil⟩

structure OpenUnit.Below (o o' : OpenUnit) : Prop where
  unit : o'.unit = o.unit
  used : o'.used = o.used
  offset_le : o.offset ≤ o'.offset

structure Draft.Below (d d' : Draft) : Prop where
  offset_le : d.offset ≤ d'.offset
  align : d'.align = d.align
  fields : List.Forall₂ Field.Below d.fields d'.fields
  bases : List.Forall₂ BaseSubobject.Below d.bases d'.bases
  packer : Option.Rel OpenUnit.Below d.packer d'.packer
  hasBitFields : d'.hasBitFields = d.hasBitFields

structure Overlay.Below (o o' : Overlay) : Prop where
  fields : List.Forall₂ Field.Below o.fields o'.fields
  size_le : o.size ≤ o'.size
  align : o'.align = o.align
  hasBitFields : o'.hasBitFields = o.hasBitFields

theorem forall₂_concat {α β : Type} {P : α → β → Prop} {xs : List α} {ys : List β}
    (h : List.Forall₂ P xs ys) {x : α} {y : β} (hp : P x y) :
    List.Forall₂ P (xs ++ [x]) (ys ++ [y]) :=
  List.rel_append h (.cons hp .nil)

theorem BasePolicy.piece_le {l l' : Layout} (h : l.Below l') (hl : l.Flagged) :
    (strictSequential.piece l').align = (itaniumBaseline.piece l).align ∧
      (itaniumBaseline.piece l).size ≤ (strictSequential.piece l').size := by
  have hle := h.nvSize_le
  refine ⟨?_, ?_⟩
  · rw [Draft.align_piece _ hl]
    exact h.nvAlign
  · unfold piece
    dsimp only
    split
    · exact Nat.zero_le _
    · dsimp only
      omega

theorem Piece.start_mono {p p' : Piece} {x x' : Nat} (ha : p'.align = p.align) (hx : x ≤ x') :
    p.start x ≤ p'.start x' := by
  unfold start
  rw [ha]
  exact p.align.roundUp_mono hx

theorem Piece.stop_mono {p p' : Piece} {x x' : Nat} (ha : p'.align = p.align)
    (hs : p.size ≤ p'.size) (hx : x ≤ x') : p.stop x ≤ p'.stop x' :=
  Nat.add_le_add (start_mono ha hx) hs

namespace Draft

variable {d d' e e' : Draft} {owner owner' name typeName : String} {l l' : Layout}

theorem Below.start (owner owner' : String) : Draft.Below { last := owner } { last := owner' } :=
  ⟨Nat.le_refl _, rfl, .nil, .nil, .none, rfl⟩

theorem Below.addSlot (h : d.Below d') (size : Nat) (pointer : Alignment) :
    (d.addSlot owner size pointer).Below (d'.addSlot owner' size pointer) where
  offset_le := Nat.le_refl _
  align := by
    unfold Draft.addSlot
    dsimp only
    rw [h.align]
  fields := h.fields
  bases := h.bases
  packer := h.packer
  hasBitFields := h.hasBitFields

theorem Below.padTo (h : d.Below d') {t t' : Nat} (ht : t ≤ t') :
    (d.padTo t).Below (d'.padTo t') where
  offset_le := by
    have hle := h.offset_le
    rw [offset_padTo, offset_padTo]
    omega
  align := by
    rw [align_padTo, align_padTo]
    exact h.align
  fields := by
    rw [fields_padTo, fields_padTo]
    exact h.fields
  bases := by
    rw [bases_padTo, bases_padTo]
    exact h.bases
  packer := by
    rw [packer_padTo, packer_padTo]
    exact h.packer
  hasBitFields := by
    rw [hasBitFields_padTo, hasBitFields_padTo]
    exact h.hasBitFields

theorem Below.put (h : d.Below d') (name : String) {p p' : Piece} (ha : p'.align = p.align)
    (hs : p.size ≤ p'.size) : (d.put p name).Below (d'.put p' name) := by
  have hpad := h.padTo (Piece.start_mono ha h.offset_le)
  refine ⟨Piece.stop_mono ha hs h.offset_le, ?_, hpad.fields, hpad.bases, hpad.packer,
    hpad.hasBitFields⟩
  rw [align_put, align_put, h.align, ha]

theorem Below.addBase (h : d.Below d') (hl : l.Below l') (hflags : l.Flagged) {isVirtual : Bool}
    (he : d.addBase .itaniumBaseline owner name l isVirtual = .ok e)
    (he' : d'.addBase .strictSequential owner name l' isVirtual = .ok e') : e.Below e' := by
  obtain ⟨-, rfl⟩ := addBase_ok he
  obtain ⟨-, rfl⟩ := addBase_ok he'
  obtain ⟨ha, hs⟩ := BasePolicy.piece_le hl hflags
  have hput := h.put name ha hs
  refine ⟨hput.offset_le, hput.align, hput.fields, ?_, hput.packer, hput.hasBitFields⟩
  exact forall₂_concat h.bases ⟨rfl, rfl, Piece.start_mono ha h.offset_le, hs⟩

theorem Below.addField (h : d.Below d') (hl : l.Below l')
    (he : d.addField owner name typeName l = .ok e)
    (he' : d'.addField owner name typeName l' = .ok e') : e.Below e' := by
  obtain ⟨-, rfl⟩ := addField_ok he
  obtain ⟨-, rfl⟩ := addField_ok he'
  have ha : l'.piece.align = l.piece.align := hl.align
  have hs : l.piece.size ≤ l'.piece.size := hl.size_le
  have hput := h.put name ha hs
  refine ⟨hput.offset_le, hput.align, ?_, hput.bases, .none, hput.hasBitFields⟩
  exact forall₂_concat h.fields ⟨rfl, rfl, ha, rfl, Piece.start_mono ha h.offset_le, hs⟩

theorem Below.separate (h : d.Below d') {unit : StorageUnit}
    (he : d.separate owner name unit = .ok e) (he' : d'.separate owner name unit = .ok e') :
    e.Below e' := by
  rw [separate_ok he, separate_ok he']
  have hpad := h.padTo (unit.align.roundUp_mono h.offset_le)
  exact ⟨hpad.offset_le, hpad.align, hpad.fields, hpad.bases, .none, hpad.hasBitFields⟩

theorem Below.joinUnit (h : d.Below d') {o o' : OpenUnit} (ho : o.Below o') (unit : StorageUnit)
    (w : Nat) :
    (d.joinUnit o unit name typeName w).Below (d'.joinUnit o' unit name typeName w) where
  offset_le := by
    have hle := h.offset_le
    have hunit := ho.offset_le
    unfold Draft.joinUnit
    rw [ho.unit]
    dsimp only
    omega
  align := by
    unfold Draft.joinUnit
    dsimp only
    rw [h.align]
  fields := by
    refine forall₂_concat h.fields ⟨rfl, rfl, rfl, ?_, ho.offset_le, Nat.le_refl _⟩
    rw [ho.used]
    rfl
  bases := h.bases
  packer := by
    refine .some ⟨ho.unit, ?_, ho.offset_le⟩
    rw [ho.used]
  hasBitFields := rfl

theorem Below.openUnit (h : d.Below d') (unit : StorageUnit) (w : Nat) :
    (d.openUnit unit name typeName w).Below (d'.openUnit unit name typeName w) := by
  have hround := unit.align.roundUp_mono h.offset_le
  have hpad := h.padTo hround
  refine ⟨Nat.add_le_add_right hround _, ?_, ?_, hpad.bases, .some ⟨rfl, rfl, hround⟩, rfl⟩
  · unfold Draft.openUnit
    dsimp only
    rw [h.align]
  · exact forall₂_concat h.fields ⟨rfl, rfl, rfl, rfl, hround, Nat.le_refl _⟩

theorem Below.addBits (h : d.Below d') {unit : StorageUnit} {w : Nat} {p p' : BitPlacement}
    (he : d.addBits owner name typeName unit w = .ok (p, e))
    (he' : d'.addBits owner name typeName unit w = .ok (p', e')) : e.Below e' := by
  have htakes : ∀ {o o' : OpenUnit}, o.Below o' → o'.takes unit w = o.takes unit w := by
    intro o o' ho
    unfold OpenUnit.takes
    rw [ho.unit, ho.used]
  have hpacker := h.packer
  rcases addBits_cases he with ⟨o, hp, ht, rfl⟩ | ⟨hnone, rfl⟩
  · rw [hp] at hpacker
    rcases addBits_cases he' with ⟨o', hp', -, rfl⟩ | ⟨hnone, rfl⟩
    · rw [hp'] at hpacker
      cases hpacker with
      | some ho => exact h.joinUnit ho unit w
    · cases hp' : d'.packer with
      | none =>
        rw [hp'] at hpacker
        cases hpacker
      | some o' =>
        rw [hp'] at hpacker
        cases hpacker with
        | some ho =>
          have hno := hnone o' hp'
          rw [htakes ho, ht] at hno
          cases hno
  · rcases addBits_cases he' with ⟨o', hp', ht, rfl⟩ | ⟨-, rfl⟩
    · rw [hp'] at hpacker
      cases hp : d.packer with
      | none =>
        rw [hp] at hpacker
        cases hpacker
      | some o =>
        rw [hp] at hpacker
        cases hpacker with
        | some ho =>
          have hno := hnone o hp
          rw [← htakes ho, ht] at hno
          cases hno
    · exact h.openUnit unit w

theorem Below.rounded (h : d.Below d') {n n' : Nat} (hn : d.rounded owner = .ok n)
    (hn' : d'.rounded owner = .ok n') : n ≤ n' := by
  rw [(rounded_ok hn).2, (rounded_ok hn').2, h.align]
  exact d.align.roundUp_mono h.offset_le

theorem Below.finish (h : d.Below d') {flags : Flags} {n n' : Nat}
    (he : d.finish owner flags = .ok (n, e)) (he' : d'.finish owner flags = .ok (n', e')) :
    n ≤ n' ∧ e.Below e' := by
  have hle := h.offset_le
  have hround : d.align.roundUp d.offset ≤ d'.align.roundUp d'.offset := by
    rw [h.align]
    exact d.align.roundUp_mono hle
  have hself := d'.align.le_roundUp d'.offset
  rw [finish_eq] at he he'
  split at he
  next hempty =>
    cases he
    simp only [Bool.and_eq_true, decide_eq_true_eq] at hempty
    split at he'
    · cases he'
      exact ⟨Nat.le_refl _, h⟩
    next hsome =>
      split at he'
      · cases he'
        simp only [hempty.1, Bool.true_and, decide_eq_true_eq] at hsome
        refine ⟨by omega, ?_⟩
        have hpad := h.padTo (Nat.zero_le (d'.align.roundUp d'.offset))
        have hzero : d.padTo 0 = d := if_neg (Nat.not_lt_zero _)
        rwa [hzero] at hpad
      · cases he'
  next hsome =>
    split at he
    · cases he
      split at he'
      next hempty =>
        simp only [Bool.and_eq_true, decide_eq_true_eq] at hempty
        simp only [hempty.1, Bool.true_and, decide_eq_true_eq] at hsome
        omega
      next =>
        split at he'
        · cases he'
          exact ⟨hround, h.padTo hround⟩
        · cases he'
    · cases he

theorem Below.layout {filled filled' : Draft} (hfilled : filled.Below filled') (h : d.Below d')
    {nv nv' size size' : Nat} (hnv : nv ≤ nv') (hs : size ≤ size') (ids : List TypeId)
    (flags : Flags) :
    (d.layout filled nv size ids flags).Below (d'.layout filled' nv' size' ids flags) where
  align := h.align
  nvAlign := hfilled.align
  flags := by
    unfold Draft.layout
    rw [h.hasBitFields]
  virtualBases := rfl
  size_le := hs
  nvSize_le := hnv
  fields := h.fields
  bases := h.bases

end Draft

theorem Overlay.Below.add {o o' : Overlay} (h : o.Below o') {f f' : Field} (hf : f.Below f') :
    (o.add f).Below (o'.add f') where
  fields := forall₂_concat h.fields hf
  size_le := by
    have hle := h.size_le
    have hsize := hf.size_le
    unfold Overlay.add
    dsimp only
    omega
  align := by
    unfold Overlay.add
    rw [h.align, hf.align]
  hasBitFields := by
    unfold Overlay.add
    rw [h.hasBitFields, hf.storage]

theorem Overlay.Below.finish {o o' : Overlay} (h : o.Below o') {owner owner' : String}
    {l l' : Layout} (hl : o.finish owner = .ok l) (hl' : o'.finish owner' = .ok l') :
    l.Below l' := by
  unfold Overlay.finish at hl hl'
  split at hl
  · cases hl
  next size hs =>
    split at hl'
    · cases hl'
    next size' hs' =>
      cases hl
      cases hl'
      rw [(Alignment.align?_eq_some.mp hs).2, (Alignment.align?_eq_some.mp hs').2, h.align]
      have hround := o.align.roundUp_mono h.size_le
      refine ⟨rfl, rfl, ?_, rfl, hround, hround, h.fields, .nil⟩
      rw [h.hasBitFields]

end TypeLayout
