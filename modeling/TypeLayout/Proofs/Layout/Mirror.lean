import TypeLayout.Proofs.Layout.Comparison
import TypeLayout.Proofs.Layout.Placement
/-! Layouts that differ in names alone. What a layout is computed from may be spelled in other ways,
and classes may have other ids; the places, sizes and alignments are the same. -/

namespace TypeLayout

def Field.untyped (f : Field) : Field := { f with typeName := "" }

def BaseSubobject.unnamed (b : BaseSubobject) : BaseSubobject := { b with name := "" }

def VtableSlot.unowned (s : VtableSlot) : VtableSlot := { s with owner := "" }

/-- The second layout is the first, but for the names of types, bases and slot owners, and with the
counterparts of its virtual bases. -/
structure Layout.Mirrors (ρ : TypeId → TypeId) (l l' : Layout) : Prop where
  size : l'.size = l.size
  align : l'.align = l.align
  nvSize : l'.nvSize = l.nvSize
  nvAlign : l'.nvAlign = l.nvAlign
  fields : l'.fields.map Field.untyped = l.fields.map Field.untyped
  bases : l'.bases.map BaseSubobject.unnamed = l.bases.map BaseSubobject.unnamed
  slots : l'.slots.map VtableSlot.unowned = l.slots.map VtableSlot.unowned
  padding : l'.padding = l.padding
  virtualBases : l'.virtualBases = l.virtualBases.map ρ
  flags : l'.flags = l.flags

variable {ρ : TypeId → TypeId}

theorem Layout.scalar_mirrors (size : Nat) (align : Alignment) :
    (Layout.scalar size align).Mirrors ρ (Layout.scalar size align) :=
  ⟨rfl, rfl, rfl, rfl, rfl, rfl, rfl, rfl, rfl, rfl⟩

theorem Layout.Mirrors.piece {l l' : Layout} (h : l.Mirrors ρ l') : l'.piece = l.piece := by
  unfold Layout.piece
  rw [h.size, h.align]

theorem Layout.Mirrors.basePiece {l l' : Layout} (h : l.Mirrors ρ l') (policy : BasePolicy) :
    policy.piece l' = policy.piece l := by
  unfold BasePolicy.piece
  rw [h.flags, h.nvSize, h.nvAlign]

theorem Draft.sortSlots_unowned (slots : List VtableSlot) :
    (sortSlots slots).map VtableSlot.unowned = sortSlots (slots.map VtableSlot.unowned) :=
  List.map_mergeSort fun _ _ _ _ => rfl

theorem Draft.movedSlots_unowned (l : Layout) (offset : Nat) (isVirtual : Bool) :
    (movedSlots l offset isVirtual).map VtableSlot.unowned =
      ((l.slots.map VtableSlot.unowned).filter (!·.inVirtualBase)).map fun s =>
        ⟨offset + s.offset, s.owner, isVirtual⟩ := by
  unfold movedSlots Layout.ownSlots
  rw [List.filter_map, List.map_map, List.map_map]
  rfl

structure Draft.Mirrors (d d' : Draft) : Prop where
  offset : d'.offset = d.offset
  align : d'.align = d.align
  padding : d'.padding = d.padding
  slots : d'.slots.map VtableSlot.unowned = d.slots.map VtableSlot.unowned
  bases : d'.bases.map BaseSubobject.unnamed = d.bases.map BaseSubobject.unnamed
  fields : d'.fields.map Field.untyped = d.fields.map Field.untyped
  packer : d'.packer = d.packer
  hasBitFields : d'.hasBitFields = d.hasBitFields

structure Overlay.Mirrors (o o' : Overlay) : Prop where
  fields : o'.fields.map Field.untyped = o.fields.map Field.untyped
  size : o'.size = o.size
  align : o'.align = o.align
  hasBitFields : o'.hasBitFields = o.hasBitFields

namespace Draft

variable {d d' e : Draft} {owner owner' name name' typeName typeName' : String} {l l' : Layout}

theorem Mirrors.start (owner owner' : String) :
    Draft.Mirrors { last := owner } { last := owner' } :=
  ⟨rfl, rfl, rfl, rfl, rfl, rfl, rfl, rfl⟩

theorem Mirrors.addSlot (h : d.Mirrors d') (size : Nat) (pointer : Alignment) :
    (d.addSlot owner size pointer).Mirrors (d'.addSlot owner' size pointer) where
  offset := rfl
  align := by simp [Draft.addSlot, h.align]
  padding := h.padding
  slots := by simp [Draft.addSlot, h.slots, VtableSlot.unowned]
  bases := h.bases
  fields := h.fields
  packer := h.packer
  hasBitFields := h.hasBitFields

theorem Mirrors.padTo (h : d.Mirrors d') (t : Nat) : (d.padTo t).Mirrors (d'.padTo t) := by
  unfold Draft.padTo
  rw [h.offset, h.padding]
  split
  · exact ⟨rfl, h.align, rfl, h.slots, h.bases, h.fields, h.packer, h.hasBitFields⟩
  · exact h

theorem Mirrors.put (h : d.Mirrors d') (p : Piece) (name name' : String) :
    (d.put p name).Mirrors (d'.put p name') := by
  have hpad := h.padTo (p.start d.offset)
  unfold Draft.put
  rw [h.offset, h.align]
  exact ⟨rfl, rfl, hpad.padding, hpad.slots, hpad.bases, hpad.fields, hpad.packer,
    hpad.hasBitFields⟩

theorem Mirrors.addBase (h : d.Mirrors d') (hl : l.Mirrors ρ l') {policy : BasePolicy}
    {isVirtual : Bool} (he : d.addBase policy owner name l isVirtual = .ok e) :
    ∃ e', d'.addBase policy owner' name' l' isVirtual = .ok e' ∧ e.Mirrors e' := by
  obtain ⟨hlt, rfl⟩ := addBase_ok he
  rw [addBase_eq, hl.basePiece, h.offset]
  refine ⟨_, if_pos hlt, ?_⟩
  have hput := h.put (policy.piece l) name name'
  refine ⟨hput.offset, hput.align, hput.padding, ?_, ?_, hput.fields, hput.packer,
    hput.hasBitFields⟩
  · dsimp only
    rw [List.map_append, List.map_append, movedSlots_unowned, movedSlots_unowned, hl.slots,
      h.slots]
  · dsimp only
    rw [List.map_append, List.map_append, h.bases]
    rfl

theorem Mirrors.addField (h : d.Mirrors d') (hl : l.Mirrors ρ l')
    (he : d.addField owner name typeName l = .ok e) :
    ∃ e', d'.addField owner' name typeName' l' = .ok e' ∧ e.Mirrors e' := by
  obtain ⟨hlt, rfl⟩ := addField_ok he
  rw [addField_eq, hl.piece, h.offset, hl.size, hl.align]
  refine ⟨_, if_pos hlt, ?_⟩
  have hput := h.put l.piece name name
  refine ⟨hput.offset, hput.align, hput.padding, hput.slots, hput.bases, ?_, rfl,
    hput.hasBitFields⟩
  dsimp only
  rw [List.map_append, List.map_append, h.fields]
  rfl

theorem Mirrors.separate (h : d.Mirrors d') {unit : StorageUnit}
    (he : d.separate owner name unit = .ok e) :
    ∃ e', d'.separate owner' name unit = .ok e' ∧ e.Mirrors e' := by
  unfold Draft.separate at he ⊢
  rw [h.offset]
  split at he
  · cases he
  next offset _ =>
    cases he
    have hpad := h.padTo offset
    exact ⟨_, rfl, hpad.offset, hpad.align, hpad.padding, hpad.slots, hpad.bases, hpad.fields, rfl,
      hpad.hasBitFields⟩

theorem Mirrors.addBits (h : d.Mirrors d') {unit : StorageUnit} {w : Nat} {p : BitPlacement}
    (he : d.addBits owner name typeName unit w = .ok (p, e)) :
    ∃ e', d'.addBits owner' name typeName' unit w = .ok (p, e') ∧ e.Mirrors e' := by
  unfold Draft.addBits at he ⊢
  rw [h.packer, h.offset]
  split at he
  · cases he
  next q packer _ =>
    dsimp only
    split at he
    · cases he
    next stop _ =>
      cases he
      have hstart : (if p.opened then d.padTo p.offset else d).Mirrors
          (if p.opened then d'.padTo p.offset else d') := by
        split
        · exact h.padTo p.offset
        · exact h
      refine ⟨_, rfl, ?_, ?_, hstart.padding, hstart.slots, hstart.bases, ?_, rfl, rfl⟩
      · dsimp only
        rw [hstart.offset]
      · dsimp only
        rw [hstart.align]
      · dsimp only
        rw [List.map_append, List.map_append, hstart.fields]
        rfl

theorem Mirrors.rounded (h : d.Mirrors d') {n : Nat} (hn : d.rounded owner = .ok n) :
    d'.rounded owner' = .ok n := by
  unfold Draft.rounded at hn ⊢
  rw [h.align, h.offset]
  split at hn
  · cases hn
  · exact hn

theorem Mirrors.finish (h : d.Mirrors d') {flags : Flags} {n : Nat}
    (he : d.finish owner flags = .ok (n, e)) :
    ∃ e', d'.finish owner' flags = .ok (n, e') ∧ e.Mirrors e' := by
  rw [finish_eq] at he ⊢
  rw [h.align, h.offset]
  split at he
  next hempty =>
    cases he
    exact ⟨d', if_pos hempty, h⟩
  next hsome =>
    split at he
    next hlt =>
      cases he
      exact ⟨_, (if_neg hsome).trans (if_pos hlt), h.padTo _⟩
    next => cases he

theorem Mirrors.layout {filled filled' : Draft} (hfilled : filled.Mirrors filled')
    (h : d.Mirrors d') (nvSize size : Nat) (ids : List TypeId) (flags : Flags) :
    (d.layout filled nvSize size ids flags).Mirrors ρ
      (d'.layout filled' nvSize size (ids.map ρ) flags) where
  size := rfl
  align := h.align
  nvSize := rfl
  nvAlign := hfilled.align
  fields := h.fields
  bases := h.bases
  slots := by
    unfold Draft.layout
    dsimp only
    rw [sortSlots_unowned, sortSlots_unowned, h.slots]
  padding := h.padding
  virtualBases := rfl
  flags := by
    unfold Draft.layout
    dsimp only
    rw [h.hasBitFields]

end Draft

theorem Overlay.Mirrors.add {o o' : Overlay} (h : o.Mirrors o') {f f' : Field}
    (hf : f'.untyped = f.untyped) : (o.add f).Mirrors (o'.add f') := by
  obtain ⟨-, -, -, hsize, halign, hstorage⟩ := Field.mk.inj hf
  refine ⟨?_, ?_, ?_, ?_⟩
  · change (o'.fields ++ [f']).map Field.untyped = (o.fields ++ [f]).map Field.untyped
    rw [List.map_append, List.map_append, h.fields, List.map_singleton, List.map_singleton, hf]
  · change max o'.size f'.size = max o.size f.size
    rw [h.size, hsize]
  · change o'.align.max f'.align = o.align.max f.align
    rw [h.align, halign]
  · change (o'.hasBitFields || f'.storage.isBits) = (o.hasBitFields || f.storage.isBits)
    rw [h.hasBitFields, hstorage]

theorem Overlay.Mirrors.finish {o o' : Overlay} (h : o.Mirrors o') {owner owner' : String}
    {l : Layout} (hl : o.finish owner = .ok l) :
    ∃ l', o'.finish owner' = .ok l' ∧ l.Mirrors ρ l' := by
  unfold Overlay.finish at hl ⊢
  rw [h.align, h.size]
  split at hl
  · cases hl
  · cases hl
    refine ⟨_, rfl, rfl, rfl, rfl, rfl, h.fields, rfl, rfl, rfl, rfl, ?_⟩
    dsimp only
    rw [h.hasBitFields]

def Links.onward : Links where
  Answers P x y := ∀ a, x = .ok a → ∃ b, y = .ok b ∧ P a b
  ok hp a ha := by
    cases ha
    exact ⟨_, rfl, hp⟩
  bind hx hf c hc := by
    obtain ⟨a, ha, hc⟩ := bind_eq_ok.mp hc
    obtain ⟨b, hb, hp⟩ := hx a ha
    obtain ⟨d, hd, hp'⟩ := hf a b ha hb hp c hc
    exact ⟨d, bind_eq_ok.mpr ⟨b, hb, hd⟩, hp'⟩
  inMember _ hx a ha := by
    obtain ⟨b, hb, hp⟩ := hx a (inMember_eq_ok.mp ha)
    exact ⟨b, inMember_eq_ok.mpr hb, hp⟩

namespace LayoutEnv

def mirror (env : LayoutEnv) (r' : Registry) (hρ : Function.Injective ρ) :
    Comparison env (env.onto r') where
  toLinks := Links.onward
  id := ρ
  names _ _ := True
  drafts := Draft.Mirrors
  overlays := Overlay.Mirrors
  sizes := Eq
  bases := Layout.Mirrors ρ
  layouts := Layout.Mirrors ρ
  injective := hρ
  machine := rfl
  qualifiedName _ := trivial
  flags h := ⟨h.flags, h.virtualBases⟩
  start _ := Draft.Mirrors.start _ _
  addSlot size pointer _ h := h.addSlot size pointer
  addBase _ _ _ hl h _ he := h.addBase hl he
  addField _ _ _ hl h _ he := h.addField hl he
  separate _ _ _ h _ he := h.separate he
  addBits _ _ _ _ _ h p he := by
    obtain ⟨e', he', hm⟩ := h.addBits he
    exact ⟨(p.1, e'), he', hm⟩
  padTo h hn := by
    rw [← hn]
    exact h.padTo _
  rounded _ h n hn := ⟨n, h.rounded hn, rfl⟩
  finish _ _ h p he := by
    obtain ⟨e', he', hm⟩ := h.finish he
    exact ⟨(p.1, e'), he', rfl, hm⟩
  record flags ids hfilled h hnv hs := by
    rw [← hnv, ← hs]
    exact hfilled.layout h _ _ ids flags
  noFields := ⟨rfl, rfl, rfl, rfl⟩
  addWhole _ _ ho hl := ho.add (by rw [hl.size, hl.align]; rfl)
  overlayBits _ _ _ _ ho := ho.add rfl
  union _ h _ hl := h.finish hl
  emptyUnion := ⟨rfl, rfl, rfl, rfl, rfl, rfl, rfl, rfl, rfl, rfl⟩

end LayoutEnv

end TypeLayout
