import TypeLayout.Proofs.Layout.Rounding
import TypeLayout.Proofs.Layout.Tiling
/-! Placing one piece after another. Bases and fields are pieces of a size and an alignment; each
step of a draft puts one at the least multiple of its alignment that is free, unless it would end
beyond 64 bits. -/

namespace TypeLayout

structure Piece where
  size : Nat
  align : Alignment

namespace Piece

def start (p : Piece) (cursor : Nat) : Nat := p.align.roundUp cursor

def stop (p : Piece) (cursor : Nat) : Nat := p.start cursor + p.size

theorem le_start (p : Piece) (cursor : Nat) : cursor ≤ p.start cursor := p.align.le_roundUp cursor

theorem start_le_stop (p : Piece) (cursor : Nat) : p.start cursor ≤ p.stop cursor :=
  Nat.le_add_right _ _

theorem le_stop (p : Piece) (cursor : Nat) : cursor ≤ p.stop cursor :=
  Nat.le_trans (p.le_start cursor) (p.start_le_stop cursor)

end Piece

def Layout.piece (l : Layout) : Piece := ⟨l.size, l.align⟩

def BasePolicy.piece (policy : BasePolicy) (l : Layout) : Piece :=
  match policy with
  | itaniumBaseline => if l.flags.empty then ⟨0, .one⟩ else ⟨l.nvSize, l.nvAlign⟩
  | strictSequential => ⟨max l.nvSize 1, l.nvAlign⟩

namespace Draft

variable {d d' : Draft} {owner name typeName : String} {l : Layout}

@[simp] theorem align_padTo (d : Draft) (t : Nat) : (d.padTo t).align = d.align := by
  unfold padTo
  split <;> rfl

@[simp] theorem last_padTo (d : Draft) (t : Nat) : (d.padTo t).last = d.last := by
  unfold padTo
  split <;> rfl

def put (d : Draft) (p : Piece) (name : String) : Draft :=
  { d.padTo (p.start d.offset) with
    align := d.align.max p.align
    offset := p.stop d.offset
    last := name }

@[simp] theorem align_put (d : Draft) (p : Piece) (name : String) :
    (d.put p name).align = d.align.max p.align := rfl

@[simp] theorem offset_put (d : Draft) (p : Piece) (name : String) :
    (d.put p name).offset = p.stop d.offset := rfl

@[simp] theorem last_put (d : Draft) (p : Piece) (name : String) :
    (d.put p name).last = name := rfl

@[simp] theorem padding_put (d : Draft) (p : Piece) (name : String) :
    (d.put p name).padding = (d.padTo (p.start d.offset)).padding := rfl

@[simp] theorem fields_put (d : Draft) (p : Piece) (name : String) :
    (d.put p name).fields = d.fields := fields_padTo d _

@[simp] theorem bases_put (d : Draft) (p : Piece) (name : String) :
    (d.put p name).bases = d.bases := bases_padTo d _

@[simp] theorem slots_put (d : Draft) (p : Piece) (name : String) :
    (d.put p name).slots = d.slots := slots_padTo d _

@[simp] theorem packer_put (d : Draft) (p : Piece) (name : String) :
    (d.put p name).packer = d.packer := packer_padTo d _

theorem addField_eq : d.addField owner name typeName l =
    if l.piece.stop d.offset < addressLimit then
      .ok { d.put l.piece name with
        fields := d.fields ++ [⟨name, typeName, l.piece.start d.offset, l.size, l.align, .whole⟩]
        packer := none }
    else .error (.sizeOverflow owner name) := by
  have hle : l.piece.start d.offset ≤ l.piece.stop d.offset := l.piece.start_le_stop _
  unfold addField
  rw [Alignment.align?_eq]
  by_cases h : l.piece.stop d.offset < addressLimit
  · have hstart : l.align.roundUp d.offset < addressLimit := Nat.lt_of_le_of_lt hle h
    have hstop : l.align.roundUp d.offset + l.size < addressLimit := h
    simp only [if_pos h, if_pos hstart, if_pos hstop, fields_padTo, align_padTo]
    rfl
  · have hstop : ¬ l.align.roundUp d.offset + l.size < addressLimit := h
    rw [if_neg h]
    split
    next => rfl
    next offset ho =>
      split at ho
      · cases ho
        rw [if_neg hstop]
      · cases ho

theorem place?_stop? (policy : BasePolicy) (cursor : Nat) (l : Layout) :
    (policy.place? cursor l).bind (fun p => p.stop?.map fun stop => (p, stop)) =
      let p := policy.piece l
      if p.stop cursor < addressLimit then
        some (⟨p.start cursor, p.size, p.align⟩, p.stop cursor) else none := by
  have haligned : ∀ (size : Nat) (align : Alignment),
      (BasePolicy.placeAligned cursor size align).bind
          (fun p => p.stop?.map fun stop => (p, stop)) =
        if (Piece.mk size align).stop cursor < addressLimit then
          some (⟨(Piece.mk size align).start cursor, size, align⟩,
            (Piece.mk size align).stop cursor) else none := by
    intro size align
    have hle := (Piece.mk size align).start_le_stop cursor
    unfold BasePolicy.placeAligned
    rw [Alignment.align?_eq]
    by_cases h : (Piece.mk size align).stop cursor < addressLimit
    · have hstart : align.roundUp cursor < addressLimit := Nat.lt_of_le_of_lt hle h
      have hstop : align.roundUp cursor + size < addressLimit := h
      rw [if_pos hstart, if_pos h]
      simp only [Option.map_some, Option.bind_some, BasePlacement.stop?, if_pos hstop]
      rfl
    · have hstop : ¬ align.roundUp cursor + size < addressLimit := h
      rw [if_neg h]
      split
      · simp only [Option.map_some, Option.bind_some, BasePlacement.stop?, if_neg hstop,
          Option.map_none]
      · rfl
  cases policy with
  | itaniumBaseline =>
    unfold BasePolicy.place? BasePolicy.piece
    dsimp only
    split
    · have hstart : (Piece.mk 0 .one).start cursor = cursor :=
        Alignment.roundUp_of_dvd (Nat.one_dvd _)
      have hstop : (Piece.mk 0 .one).stop cursor = cursor := hstart
      rw [hstart, hstop]
      unfold BasePlacement.stop?
      dsimp only [Option.bind_some, Nat.add_zero]
      split <;> rfl
    · exact haligned l.nvSize l.nvAlign
  | strictSequential => exact haligned (max l.nvSize 1) l.nvAlign

theorem addBase_eq {policy : BasePolicy} {isVirtual : Bool} :
    d.addBase policy owner name l isVirtual =
      let p := policy.piece l
      if p.stop d.offset < addressLimit then
        .ok { d.put p name with
          slots := d.slots ++ movedSlots l (p.start d.offset) isVirtual
          bases := d.bases ++ [⟨name, p.start d.offset, p.size, isVirtual⟩] }
      else .error (.sizeOverflow owner name) := by
  have hplace := place?_stop? policy d.offset l
  have hle := (policy.piece l).le_start d.offset
  have hmax : max (max d.offset ((policy.piece l).start d.offset))
      ((policy.piece l).stop d.offset) = (policy.piece l).stop d.offset := by
    have := (policy.piece l).start_le_stop d.offset
    omega
  unfold addBase
  dsimp only at hplace ⊢
  by_cases h : (policy.piece l).stop d.offset < addressLimit
  · rw [if_pos h] at hplace ⊢
    obtain ⟨p, hp, hstop⟩ := Option.bind_eq_some_iff.mp hplace
    obtain ⟨stop, hstop, he⟩ := Option.map_eq_some_iff.mp hstop
    cases he
    simp only [hp, hstop, slots_padTo, bases_padTo, align_padTo, offset_padTo, hmax]
    rfl
  · rw [if_neg h] at hplace ⊢
    split
    next => rfl
    next p hp =>
      rw [hp, Option.bind_some, Option.map_eq_none_iff] at hplace
      rw [hplace]

theorem rounded_eq : d.rounded owner =
    if d.align.roundUp d.offset < addressLimit then .ok (d.align.roundUp d.offset)
    else .error (.sizeOverflow owner d.last) := by
  unfold rounded
  rw [Alignment.align?_eq]
  split
  next h =>
    split at h
    · cases h
    · rw [if_neg ‹_›]
  next size h =>
    split at h
    · cases h
      rw [if_pos ‹_›]
    · cases h

theorem finish_eq {flags : Flags} : d.finish owner flags =
    if flags.empty && d.offset = 0 then .ok (1, d)
    else if d.align.roundUp d.offset < addressLimit then
      .ok (d.align.roundUp d.offset, d.padTo (d.align.roundUp d.offset))
    else .error (.sizeOverflow owner d.last) := by
  unfold finish
  rw [rounded_eq]
  split
  · rfl
  · split <;> rfl

theorem addField_ok (h : d.addField owner name typeName l = .ok d') :
    l.piece.stop d.offset < addressLimit ∧
    d' = { d.put l.piece name with
      fields := d.fields ++ [⟨name, typeName, l.piece.start d.offset, l.size, l.align, .whole⟩]
      packer := none } := by
  rw [addField_eq] at h
  split at h
  · exact ⟨‹_›, (Except.ok.inj h).symm⟩
  · cases h

theorem addBase_ok {policy : BasePolicy} {isVirtual : Bool}
    (h : d.addBase policy owner name l isVirtual = .ok d') :
    (policy.piece l).stop d.offset < addressLimit ∧
    d' = { d.put (policy.piece l) name with
      slots := d.slots ++ movedSlots l ((policy.piece l).start d.offset) isVirtual
      bases := d.bases ++
        [⟨name, (policy.piece l).start d.offset, (policy.piece l).size, isVirtual⟩] } := by
  rw [addBase_eq] at h
  dsimp only at h
  split at h
  · exact ⟨‹_›, (Except.ok.inj h).symm⟩
  · cases h

theorem rounded_ok {size : Nat} (h : d.rounded owner = .ok size) :
    d.align.roundUp d.offset < addressLimit ∧ size = d.align.roundUp d.offset := by
  rw [rounded_eq] at h
  split at h
  · exact ⟨‹_›, (Except.ok.inj h).symm⟩
  · cases h

theorem separate_ok {unit : StorageUnit} (h : d.separate owner name unit = .ok d') :
    d' = { d.padTo (unit.align.roundUp d.offset) with packer := none, last := name } := by
  unfold separate at h
  split at h
  · cases h
  next offset ho =>
    rw [(Alignment.align?_eq_some.mp ho).2] at h
    exact (Except.ok.inj h).symm

end Draft

end TypeLayout
