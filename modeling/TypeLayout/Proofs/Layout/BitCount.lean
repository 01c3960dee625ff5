import TypeLayout.Profile.Builder
import TypeLayout.Proofs.Layout.BitFields
import TypeLayout.Proofs.Layout.Comparison
import TypeLayout.Proofs.Layout.Unfolding
/-! Counting bits in 32 bits. What a unit holds and what is taken of it are counted modulo 2^32,
which is their number only on rows that are small enough; on the others, bit-fields whose widths add
up to 2^32 leave a unit that counts as empty. -/

namespace TypeLayout

open Registry

def countedBits (size : Nat) : Nat := size * 8 % bitLimit

/-- Two widths that a unit of `size` bytes takes never add up to 2^32. -/
def CountsUp (size : Nat) : Prop := 2 * countedBits size < bitLimit

instance (size : Nat) : Decidable (CountsUp size) :=
  inferInstanceAs (Decidable (2 * countedBits size < bitLimit))

theorem countedBits_le (size : Nat) : countedBits size ≤ 8 * size := by
  have hmod := Nat.mod_le (size * 8) bitLimit
  unfold countedBits
  omega

theorem countedBits_lt (size : Nat) : countedBits size < bitLimit := Nat.mod_lt _ (by decide)

theorem countedBits_eq_iff {size : Nat} :
    (∀ w, 0 < w → w < bitLimit → (w ≤ countedBits size ↔ w ≤ 8 * size)) ↔
      8 * size < bitLimit := by
  unfold countedBits bitLimit
  constructor
  · intro h
    have hlast := h (2 ^ 32 - 1) (by omega) (by omega)
    omega
  · intro h w _ _
    omega

theorem Storage.width_eq_zero {s : Storage} (h : s.isBits = false) : s.width = 0 := by
  cases s with
  | whole => rfl
  | bits => cases h

namespace Draft

variable {m : Machine} {d d' : Draft} {owner name typeName : String} {unit : StorageUnit} {w : Nat}

structure CountedUnit (m : Machine) (d : Draft) (o : OpenUnit) : Prop where
  unit : o.unit = m.unit o.unit.sizeClass
  stop_le : o.offset + o.unit.size ≤ d.offset
  sizes : ∀ f ∈ d.fields, f.storage.isBits = true → f.offset = o.offset → f.size = o.unit.size
  used : CountsUp o.unit.size →
    o.used = bitsIn d.fields o.offset ∧ o.used ≤ countedBits o.unit.size

/-- On a row that counts up, the bits taken of a unit are no more than the unit has. -/
structure Counted (m : Machine) (d : Draft) : Prop where
  opened : ∀ o, d.packer = some o → CountedUnit m d o
  below : ∀ f ∈ d.fields, f.storage.isBits = true → f.offset < d.offset
  bits : ∀ f ∈ d.fields, f.storage.isBits = true → CountsUp f.size →
    bitsIn d.fields f.offset ≤ countedBits f.size

theorem Counted.addField {l : Layout} (h : d.Counted m)
    (hok : d.addField owner name typeName l = .ok d') : d'.Counted m := by
  have hd' := (addField_ok hok).2
  have hle := l.piece.le_stop d.offset
  have hmem : ∀ f ∈ d'.fields, f.storage.isBits = true → f ∈ d.fields := by
    intro f hf hbits
    rw [hd'] at hf
    rcases List.mem_append.mp hf with hf | hf
    · exact hf
    · obtain rfl := List.mem_singleton.mp hf
      cases hbits
  refine ⟨fun o ho => ?_, fun f hf hbits => ?_, fun f hf hbits hup => ?_⟩
  · rw [hd'] at ho
    cases ho
  · have hbelow := h.below f (hmem f hf hbits) hbits
    rw [hd']
    exact Nat.lt_of_lt_of_le hbelow hle
  · rw [hd']
    dsimp only
    rw [bitsIn_concat]
    simpa [Storage.width] using h.bits f (hmem f hf hbits) hbits hup

theorem Counted.separate (h : d.Counted m) (hok : d.separate owner name unit = .ok d') :
    d'.Counted m := by
  have hd' := separate_ok hok
  have hfields : d'.fields = d.fields := by
    rw [hd']
    exact fields_padTo d _
  refine ⟨fun o ho => ?_, fun f hf hbits => ?_, ?_⟩
  · rw [hd'] at ho
    cases ho
  · rw [hfields] at hf
    have hbelow := h.below f hf hbits
    rw [hd']
    change f.offset < (d.padTo _).offset
    rw [offset_padTo]
    omega
  · rw [hfields]
    exact h.bits

theorem Counted.concat (h : d.Counted m) {o : OpenUnit} {first : Nat}
    (hf : d'.fields = d.fields ++ [unit.field name typeName o.offset first w])
    (hle : d.offset ≤ d'.offset) (hp : d'.packer = some o) (hunit : o.unit = unit)
    (hrow : unit = m.unit unit.sizeClass) (hstop : o.offset + unit.size ≤ d'.offset)
    (hsizes : ∀ f ∈ d.fields, f.storage.isBits = true → f.offset = o.offset → f.size = unit.size)
    (hused : CountsUp unit.size →
      o.used = bitsIn d.fields o.offset + w ∧ o.used ≤ countedBits unit.size) :
    d'.Counted m := by
  have hpos : 0 < unit.size := by
    rw [hrow]
    exact (m.row unit.sizeClass).size_pos
  have hsize : (unit.field name typeName o.offset first w).size = unit.size := rfl
  have hoffset : (unit.field name typeName o.offset first w).offset = o.offset := rfl
  have hwidth : (unit.field name typeName o.offset first w).storage.width = w := rfl
  have hall : ∀ f ∈ d'.fields, f.storage.isBits = true → f.offset = o.offset →
      f.size = unit.size := by
    intro f hmem hbits hat
    rw [hf] at hmem
    rcases List.mem_append.mp hmem with hmem | hmem
    · exact hsizes f hmem hbits hat
    · rw [List.mem_singleton.mp hmem, hsize]
  have htaken : bitsIn d'.fields o.offset = bitsIn d.fields o.offset + w := by
    rw [hf, bitsIn_concat, if_pos hoffset, hwidth]
  refine ⟨fun o' ho' => ?_, fun f hmem hbits => ?_, fun f hmem hbits hup => ?_⟩
  · obtain rfl : o = o' := Option.some.inj (hp.symm.trans ho')
    rw [← hunit] at hrow hstop hall hused
    exact ⟨hrow, hstop, hall, fun hup => by rw [htaken]; exact hused hup⟩
  · rw [hf] at hmem
    rcases List.mem_append.mp hmem with hmem | hmem
    · exact Nat.lt_of_lt_of_le (h.below f hmem hbits) hle
    · rw [List.mem_singleton.mp hmem, hoffset]
      omega
  · by_cases hat : f.offset = o.offset
    · -- in the unit that is open now
      have hsame := hall f hmem hbits hat
      rw [hsame] at hup ⊢
      obtain ⟨hcount, hroom⟩ := hused hup
      rw [hat, htaken, ← hcount]
      exact hroom
    · rw [hf] at hmem ⊢
      rw [bitsIn_concat, hoffset, if_neg (Ne.symm hat)]
      rcases List.mem_append.mp hmem with hmem | hmem
      · exact h.bits f hmem hbits hup
      · rw [List.mem_singleton.mp hmem] at hat
        exact absurd hoffset hat

theorem Counted.addBits {p : BitPlacement} (h : d.Counted m)
    (hrow : unit = m.unit unit.sizeClass) (hw : w ≤ countedBits unit.size)
    (hok : d.addBits owner name typeName unit w = .ok (p, d')) : d'.Counted m := by
  rcases addBits_cases hok with ⟨o, hp, ht, rfl⟩ | ⟨-, rfl⟩
  · have ho := h.opened o hp
    simp only [OpenUnit.takes, Bool.and_eq_true, beq_iff_eq, decide_eq_true_eq] at ht
    obtain ⟨hclass, hroom⟩ := ht
    have hsame : o.unit = unit := by rw [ho.unit, hclass, ← hrow]
    obtain ⟨ounit, offset, used⟩ := o
    obtain rfl : ounit = unit := hsame
    refine h.concat (o := ⟨ounit, offset, (used + w) % bitLimit⟩) rfl (Nat.le_max_left _ _) rfl rfl
      hrow (Nat.le_max_right _ _) ho.sizes fun hup => ?_
    obtain ⟨hcount, hle⟩ := ho.used hup
    dsimp only at hcount hle
    have hmod : (used + w) % bitLimit = used + w := by
      apply Nat.mod_eq_of_lt
      unfold CountsUp at hup
      omega
    dsimp only at hroom ⊢
    rw [hmod] at hroom ⊢
    exact ⟨by rw [hcount], hroom⟩
  · have hlow := unit.align.le_roundUp d.offset
    have hfree : ∀ f ∈ d.fields, f.storage.isBits = true →
        f.offset ≠ unit.align.roundUp d.offset := by
      intro f hf hbits
      have hbelow := h.below f hf hbits
      omega
    refine h.concat (o := ⟨unit, unit.align.roundUp d.offset, w⟩) rfl ?_ rfl rfl hrow
      (Nat.le_refl _) (fun f hf hbits hat => absurd hat (hfree f hf hbits)) fun _ => ⟨?_, hw⟩
    · exact Nat.le_trans hlow (Nat.le_add_right _ _)
    · have hnone : bitsIn d.fields (unit.align.roundUp d.offset) = 0 := by
        refine bitsIn_eq_zero fun f hf hat => Storage.width_eq_zero ?_
        exact Bool.eq_false_iff.mpr fun hbits => hfree f hf hbits hat
      rw [hnone, Nat.zero_add]

theorem addBits_joins {o : OpenUnit} (hp : d.packer = some o) (ht : o.takes unit w = true)
    (hlt : o.offset + o.unit.size < addressLimit) :
    ∃ p, d.addBits owner name typeName unit w = .ok (p, d.joinUnit o unit name typeName w) := by
  refine ⟨⟨o.offset, o.unit.size, o.used, false⟩, ?_⟩
  unfold addBits Packer.place?
  rw [hp]
  simp only [if_pos ht, BitPlacement.stop?, if_pos hlt]
  rfl

theorem addBits_opens (hp : d.packer = none) (hzero : d.offset = 0)
    (hlt : unit.size < addressLimit) :
    ∃ p, d.addBits owner name typeName unit w = .ok (p, d.openUnit unit name typeName w) := by
  have halign : unit.align.align? 0 = some 0 := by
    rw [Alignment.align?_eq, Alignment.roundUp_zero]
    rfl
  refine ⟨⟨0, unit.size, 0, true⟩, ?_⟩
  unfold addBits Packer.place? Packer.openAt openUnit
  rw [hp, hzero, Alignment.roundUp_zero, halign]
  simp only [Option.map_some, BitPlacement.stop?, if_pos hlt, if_true, fields_padTo, align_padTo,
    offset_padTo, hzero, Nat.zero_add, Nat.zero_max, Nat.max_self]
  rfl

structure Brims (unit : StorageUnit) (d : Draft) (bits : Nat) : Prop where
  packer : d.packer = some ⟨unit, 0, bits % bitLimit⟩
  offset : d.offset = unit.size
  align : d.align = unit.align
  taken : bitsIn d.fields 0 = bits
  field : ∃ f ∈ d.fields, f.storage.isBits = true ∧ f.offset = 0 ∧ f.size = unit.size

theorem Brims.addBits (owner name typeName : String) {bits : Nat} (h : Brims unit d bits)
    (hlt : unit.size < addressLimit)
    (hroom : (bits + w) % bitLimit ≤ countedBits unit.size) : ∃ p d',
    d.addBits owner name typeName unit w = .ok (p, d') ∧ Brims unit d' (bits + w) := by
  have ht : (OpenUnit.mk unit 0 (bits % bitLimit)).takes unit w = true := by
    unfold OpenUnit.takes
    rw [Nat.mod_add_mod]
    simp only [BEq.rfl, Bool.true_and, decide_eq_true_eq]
    exact hroom
  obtain ⟨p, hadd⟩ : ∃ p, d.addBits owner name typeName unit w =
      .ok (p, d.joinUnit ⟨unit, 0, bits % bitLimit⟩ unit name typeName w) :=
    addBits_joins h.packer ht (by simpa using hlt)
  refine ⟨p, _, hadd, ?_, ?_, ?_, ?_, ?_⟩
  · unfold Draft.joinUnit
    rw [Nat.mod_add_mod]
  · have hoffset := h.offset
    unfold Draft.joinUnit
    dsimp only
    omega
  · unfold Draft.joinUnit
    dsimp only
    rw [h.align]
    exact ite_self _
  · unfold Draft.joinUnit
    dsimp only
    rw [bitsIn_concat, h.taken]
    rfl
  · obtain ⟨f, hf, hfield⟩ := h.field
    exact ⟨f, List.mem_append_left _ hf, hfield⟩

theorem addBits_brims (unit : StorageUnit) (owner name typeName : String) (hw : w < bitLimit)
    (hlt : unit.size < addressLimit) : ∃ p d',
    Draft.addBits { last := owner } owner name typeName unit w = .ok (p, d') ∧
      Brims unit d' w := by
  obtain ⟨p, hadd⟩ : ∃ p, Draft.addBits { last := owner } owner name typeName unit w =
      .ok (p, openUnit { last := owner } unit name typeName w) := addBits_opens rfl rfl hlt
  have hstart : unit.align.roundUp 0 = 0 := Alignment.roundUp_zero _
  refine ⟨p, _, hadd, ?_, ?_, ?_, ?_, ?_⟩
  · unfold openUnit
    dsimp only
    rw [hstart, Nat.mod_eq_of_lt hw]
  · unfold openUnit
    dsimp only
    rw [hstart, Nat.zero_add]
  · unfold openUnit
    dsimp only
    exact if_pos (Nat.zero_le _)
  · unfold openUnit
    dsimp only
    rw [hstart]
    exact (bitsIn_concat [] _ 0).trans (Nat.zero_add _)
  · exact ⟨_, List.mem_append_right _ (List.mem_singleton.mpr rfl), rfl, hstart, rfl⟩

end Draft

def unnamedBits (kind : Fundamental) (w : Nat) : Member := ⟨"", .fundamental kind, some w⟩

/-- Bit-fields of one type, two by two, whose widths add up to 2^32. -/
def wraps (kind : Fundamental) (most : Nat) : Nat → List Member
  | 0 => []
  | n + 1 => unnamedBits kind most :: unnamedBits kind (bitLimit - most) :: wraps kind most n

def wrapping (kind : Fundamental) (most n : Nat) : Aggregate :=
  ⟨.structType, none, wraps kind most n, [], []⟩

namespace LayoutEnv

variable {env : LayoutEnv} {g : Descend (Except LayoutError)} {trail : Trail} {a : Aggregate}
  {d d' : Draft} {owner : String} {l : Layout} {x : Member} {kind : Fundamental} {c : SizeClass}
  {w : Nat}

theorem fittingUnit_of_kind (hx : env.bitFieldKind x = .ok kind) (hi : kind.isIntegral = true)
    (hc : env.machine.class? kind = some c) (w : Nat) :
    env.fittingUnit x w = if w ≤ countedBits (env.machine.row c).size then .ok (env.machine.unit c)
      else .error (.invalidBitFieldWidth x.name w (countedBits (env.machine.row c).size)) := by
  have hunit : env.storageUnit x = .ok (env.machine.unit c) := by
    unfold storageUnit
    rw [hx]
    change (if kind.isIntegral = true then _ else _) = _
    rw [if_pos hi, hc]
    rfl
  unfold fittingUnit
  rw [hunit]
  change (if countedBits (env.machine.row c).size < w then _ else _) = _
  by_cases hw : w ≤ countedBits (env.machine.row c).size
  · rw [if_pos hw, if_neg (Nat.not_lt.mpr hw)]
    rfl
  · rw [if_neg hw, if_pos (Nat.lt_of_not_le hw)]
    rfl

theorem placeMember_counted (h : d.Counted env.machine)
    (hok : env.placeMember g trail owner x d = .ok d') : d'.Counted env.machine := by
  rw [placeMember_plain] at hok
  split at hok
  next width hw =>
    obtain ⟨unit, hu, hok⟩ := bind_eq_ok.mp hok
    obtain ⟨hunit, hwidth⟩ := fittingUnit_ok hu
    split at hok
    · exact h.separate hok
    · obtain ⟨⟨p, d₁⟩, hadd, hok⟩ := bind_eq_ok.mp hok
      cases hok
      exact h.addBits (storageUnit_ok hunit).1 hwidth hadd
  next =>
    obtain ⟨l, -, hok⟩ := bind_eq_ok.mp hok
    exact h.addField hok

theorem placeMembers_counted {xs : List Member} (h : d.Counted env.machine)
    (hok : env.placeMembers g trail owner xs d = .ok d') : d'.Counted env.machine := by
  induction xs generalizing d with
  | nil =>
    cases hok
    exact h
  | cons x xs ih =>
    obtain ⟨d₁, hx, hok⟩ := bind_eq_ok.mp hok
    exact ih (placeMember_counted h hx) hok

theorem bitsIn_le (hr : env.registry.Founded) {t : Descriptor}
    (ht : env.registry.bodyOf? t = some (owner, a)) (hu : a.kind.isUnion = false)
    (hl : env.layoutOf t = (.ok l : Except LayoutError Layout)) {f : Field} (hf : f ∈ l.fields)
    (hbits : f.storage.isBits = true) (hup : CountsUp f.size) :
    bitsIn l.fields f.offset ≤ 8 * f.size := by
  obtain ⟨n, trail, run, rfl⟩ := recordRun_of_layoutOf hr ht hu hl
  have hbased := placeBases_based (openDraft_based _ _) run.placed
  have hnew : run.based.Counted env.machine := by
    refine ⟨fun o ho => ?_, fun f hf => ?_, fun f hf => ?_⟩
    · rw [hbased.packer] at ho
      cases ho
    · rw [hbased.fields] at hf
      cases hf
    · rw [hbased.fields] at hf
      cases hf
  have hfields : run.final.fields = run.filled.fields :=
    (run.final_aligned (layoutWithin_regular env n)).1.fields_eq
  change f ∈ run.final.fields at hf
  change bitsIn run.final.fields f.offset ≤ _
  rw [hfields] at hf ⊢
  have hle := (placeMembers_counted hnew run.members).bits f hf hbits hup
  exact Nat.le_trans hle (countedBits_le f.size)

theorem bitFieldKind_unnamedBits (kind : Fundamental) (w : Nat) :
    env.bitFieldKind (unnamedBits kind w) = .ok kind := by
  unfold bitFieldKind unnamedBits
  rw [strip_of_ne_named fun _ h => by cases h]

theorem record_of_members (hbases : a.bases = []) (hvirtual : a.declaresVirtual = false)
    (hok : env.placeMembers g trail owner a.members { last := owner } = .ok d)
    (hsome : d.offset ≠ 0) (hlt : d.align.roundUp d.offset < addressLimit) :
    ∃ l, env.record g trail a owner = .ok l ∧ l.fields = d.fields := by
  have hdynamic : (a.flagsOver []).dynamic = false := by
    simp [Aggregate.flagsOver, hvirtual, LaidBase.virtualBases]
  have hopen : env.openDraft owner (a.flagsOver []) [] = { last := owner } := by
    unfold openDraft
    rw [hdynamic]
    rfl
  have hrounded : d.rounded owner = .ok (d.align.roundUp d.offset) := by
    rw [Draft.rounded_eq, if_pos hlt]
  have hfinish : d.finish owner (a.flagsOver []) =
      .ok (d.align.roundUp d.offset, d.padTo (d.align.roundUp d.offset)) := by
    rw [Draft.finish_eq, if_neg (by simp [hsome]), if_pos hlt]
  refine ⟨(d.padTo (d.align.roundUp d.offset)).layout d (d.align.roundUp d.offset)
    (d.align.roundUp d.offset) [] (a.flagsOver []), ?_, Draft.fields_padTo _ _⟩
  rw [record_plain, hbases]
  change env.placeMembers g trail owner a.members (env.openDraft owner (a.flagsOver []) []) >>=
    _ = _
  rw [hopen]
  refine bind_eq_ok.mpr ⟨d, hok, bind_eq_ok.mpr ⟨_, hrounded, ?_⟩⟩
  exact bind_eq_ok.mpr ⟨d, rfl, bind_eq_ok.mpr ⟨_, hfinish, rfl⟩⟩

section

variable {most : Nat} (g trail owner) (hi : kind.isIntegral = true)
  (hc : env.machine.class? kind = some c) (hmost : countedBits (env.machine.row c).size = most)
include hi hc hmost

theorem placeMember_unnamedBits {p : BitPlacement} (hpos : 0 < w) (hw : w ≤ most)
    (hadd : d.addBits owner "" (env.registry.typeName (.fundamental kind)) (env.machine.unit c) w =
      .ok (p, d')) :
    env.placeMember g trail owner (unnamedBits kind w) d = .ok d' := by
  rw [← hmost] at hw
  have hu := fittingUnit_of_kind (bitFieldKind_unnamedBits kind w) hi hc w
  rw [if_pos hw] at hu
  rw [placeMember_plain]
  change env.fittingUnit (unnamedBits kind w) w >>= _ = _
  rw [hu]
  change (if w = 0 then _ else _) = _
  rw [if_neg (Nat.ne_of_gt hpos)]
  exact bind_eq_ok.mpr ⟨_, hadd, rfl⟩

theorem placeMember_brims {bits : Nat} (h : d.Brims (env.machine.unit c) bits) (hpos : 0 < w)
    (hw : w ≤ most) (hroom : (bits + w) % bitLimit ≤ most) :
    ∃ d', env.placeMember g trail owner (unnamedBits kind w) d = .ok d' ∧
      d'.Brims (env.machine.unit c) (bits + w) := by
  have hlt := (env.machine.row c).size_lt
  obtain ⟨p, d', hadd, hd'⟩ := h.addBits owner "" (env.registry.typeName (.fundamental kind)) hlt
    (hroom.trans_eq hmost.symm)
  exact ⟨d', placeMember_unnamedBits g trail owner hi hc hmost hpos hw hadd, hd'⟩

variable (hwide : bitLimit ≤ 2 * most)
include hwide

theorem placeMember_wraps {k : Nat} (h : d.Brims (env.machine.unit c) (k * bitLimit + most)) :
    ∃ d', env.placeMember g trail owner (unnamedBits kind (bitLimit - most)) d = .ok d' ∧
      d'.Brims (env.machine.unit c) ((k + 1) * bitLimit) := by
  have hlt : most < bitLimit := hmost ▸ countedBits_lt _
  have hsum : k * bitLimit + most + (bitLimit - most) = (k + 1) * bitLimit := by
    rw [Nat.succ_mul]
    omega
  have hroom : (k * bitLimit + most + (bitLimit - most)) % bitLimit ≤ most := by
    rw [hsum, Nat.mul_mod_left]
    exact Nat.zero_le _
  rw [← hsum]
  exact placeMember_brims g trail owner hi hc hmost h (by omega) (by omega) hroom

theorem placeMembers_wraps {k : Nat} (h : d.Brims (env.machine.unit c) (k * bitLimit)) (n : Nat) :
    ∃ d', env.placeMembers g trail owner (wraps kind most n) d = .ok d' ∧
      d'.Brims (env.machine.unit c) ((k + n) * bitLimit) := by
  have hlt : most < bitLimit := hmost ▸ countedBits_lt _
  have hpos : 0 < most := by omega
  induction n generalizing d k with
  | zero => exact ⟨d, rfl, h⟩
  | succ n ih =>
    have hroom : (k * bitLimit + most) % bitLimit ≤ most := by
      rw [Nat.mul_add_mod_self_right]
      exact Nat.mod_le _ _
    obtain ⟨d₁, h₁, hd₁⟩ := placeMember_brims g trail owner hi hc hmost h hpos
      (Nat.le_refl _) hroom
    obtain ⟨d₂, h₂, hd₂⟩ := placeMember_wraps g trail owner hi hc hmost hwide hd₁
    obtain ⟨d', h', hd'⟩ := ih hd₂
    refine ⟨d', bind_eq_ok.mpr ⟨d₁, h₁, bind_eq_ok.mpr ⟨d₂, h₂, h'⟩⟩, ?_⟩
    rwa [Nat.add_right_comm, Nat.add_assoc] at hd'

theorem placeMembers_wrapping (n : Nat) :
    ∃ d', env.placeMembers g trail owner (wraps kind most (n + 1)) { last := owner } = .ok d' ∧
      d'.Brims (env.machine.unit c) ((n + 1) * bitLimit) := by
  have hlt : most < bitLimit := hmost ▸ countedBits_lt _
  obtain ⟨p, d₁, hadd, hd₁⟩ := Draft.addBits_brims (env.machine.unit c) owner ""
    (env.registry.typeName (.fundamental kind)) hlt (env.machine.row c).size_lt
  have hpos : 0 < most := by omega
  have h₁ := placeMember_unnamedBits g trail owner hi hc hmost hpos (Nat.le_refl _) hadd
  rw [← Nat.zero_add most, ← Nat.zero_mul bitLimit] at hd₁
  obtain ⟨d₂, h₂, hd₂⟩ := placeMember_wraps g trail owner hi hc hmost hwide hd₁
  obtain ⟨d', h', hd'⟩ := placeMembers_wraps g trail owner hi hc hmost hwide hd₂ n
  refine ⟨d', bind_eq_ok.mpr ⟨d₁, h₁, bind_eq_ok.mpr ⟨d₂, h₂, h'⟩⟩, ?_⟩
  rwa [Nat.zero_add, Nat.add_comm 1 n] at hd'

theorem record_wrapping (n : Nat) :
    ∃ l, env.record g trail (wrapping kind most (n + 1)) owner = .ok l ∧
      bitsIn l.fields 0 = (n + 1) * bitLimit ∧ ∃ f ∈ l.fields, f.storage.isBits = true ∧
        f.offset = 0 ∧ f.size = (env.machine.row c).size := by
  obtain ⟨d, hok, hd⟩ := placeMembers_wrapping g trail owner hi hc hmost hwide n
  have hend : d.align.roundUp d.offset = (env.machine.row c).size := by
    rw [hd.align, hd.offset]
    exact Alignment.roundUp_of_dvd (env.machine.row c).align_dvd
  have hlt := (env.machine.row c).size_lt
  have hpos := (env.machine.row c).size_pos
  have hsome : d.offset ≠ 0 := by
    rw [hd.offset]
    exact Nat.ne_of_gt hpos
  rw [← hend] at hlt
  obtain ⟨l, hl, hfields⟩ := record_of_members (a := wrapping kind most (n + 1)) rfl rfl hok hsome
    hlt
  refine ⟨l, hl, ?_⟩
  rw [hfields]
  exact ⟨hd.taken, hd.field⟩

theorem layoutOf_wrapping (hr : env.registry.Founded) (n : Nat) :
    ∃ l, env.layoutOf (.aggregate (wrapping kind most (n + 1))) =
        (.ok l : Except LayoutError Layout) ∧
      bitsIn l.fields 0 = (n + 1) * bitLimit ∧ ∃ f ∈ l.fields, f.storage.isBits = true ∧
        f.offset = 0 ∧ f.size = (env.machine.row c).size := by
  obtain ⟨l, hl, hfields⟩ :=
    record_wrapping (fun _ x => env.layoutOf x) [] _ hi hc hmost hwide n
  refine ⟨l, layoutOf_of_yields hr (.inline ?_), hfields⟩
  rw [aggregate_plain]
  exact hl

end

/-- A width is accepted if it is no more than the counted bits of the row, which are all its bits if
and only if these are less than 2^32. In structs and classes no unit of the row's size is given more
bits than it has if and only if the row counts up. -/
theorem bits_counted (hb : env.registry.Built) (hi : kind.isIntegral = true)
    (hc : env.machine.class? kind = some c) :
    (∀ x w, env.bitFieldKind x = .ok kind → env.fittingUnit x w =
      if w ≤ countedBits (env.machine.row c).size then .ok (env.machine.unit c)
      else .error (.invalidBitFieldWidth x.name w (countedBits (env.machine.row c).size))) ∧
    ((∀ x w, env.bitFieldKind x = .ok kind → 0 < w → w < bitLimit →
        ((∃ unit, env.fittingUnit x w = .ok unit) ↔ w ≤ 8 * (env.machine.row c).size)) ↔
      8 * (env.machine.row c).size < bitLimit) ∧
    ((∀ t owner a l, env.registry.bodyOf? t = some (owner, a) → a.kind.isUnion = false →
        env.layoutOf t = (.ok l : Except LayoutError Layout) → ∀ f ∈ l.fields,
        f.storage.isBits = true → f.size = (env.machine.row c).size →
        bitsIn l.fields f.offset ≤ 8 * (env.machine.row c).size) ↔
      CountsUp (env.machine.row c).size) := by
  have hr := hb.wellFormed.toFounded
  have haccepts : ∀ {x} w, env.bitFieldKind x = .ok kind →
      ((∃ unit, env.fittingUnit x w = .ok unit) ↔ w ≤ countedBits (env.machine.row c).size) := by
    intro x w hx
    rw [fittingUnit_of_kind hx hi hc w]
    split
    next hw => exact ⟨fun _ => hw, fun _ => ⟨_, rfl⟩⟩
    next hw => exact ⟨fun ⟨unit, hu⟩ => (by cases hu), fun h => absurd h hw⟩
  refine ⟨fun x w hx => fittingUnit_of_kind hx hi hc w, ?_, ?_, ?_⟩
  · rw [← countedBits_eq_iff]
    constructor
    · intro h w hpos hlt
      have hkind : env.bitFieldKind (unnamedBits kind w) = .ok kind :=
        bitFieldKind_unnamedBits kind w
      exact (haccepts w hkind).symm.trans (h _ w hkind hpos hlt)
    · intro h x w hx hpos hlt
      exact (haccepts w hx).trans (h w hpos hlt)
  · intro h
    by_contra hup
    -- as many pairs as the unit has bytes bring in more bits than it has
    have hpos := (env.machine.row c).size_pos
    obtain ⟨l, hl, htaken, f, hf, hbits, hoffset, hsize⟩ :=
      layoutOf_wrapping hi hc rfl (Nat.le_of_not_lt hup) hr ((env.machine.row c).size - 1)
    have hle := h _ _ _ l (bodyOf?_inline _ _) rfl hl f hf hbits hsize
    rw [hoffset, htaken, Nat.sub_add_cancel hpos] at hle
    unfold bitLimit at hle
    omega
  · intro hup t owner a l ht hu hl f hf hbits hsize
    rw [← hsize] at hup ⊢
    exact bitsIn_le hr ht hu hl hf hbits hup

theorem longLong_bits_counted : bare.registry.Built ∧ Fundamental.longLong.isIntegral = true ∧
    bare.machine.class? .longLong = some .longLong ∧
    (∀ x w, bare.bitFieldKind x = .ok .longLong → 0 < w → w < bitLimit →
      ((∃ unit, bare.fittingUnit x w = .ok unit) ↔ w ≤ 64)) ∧
    ∀ t owner a l, bare.registry.bodyOf? t = some (owner, a) → a.kind.isUnion = false →
      bare.layoutOf t = (.ok l : Except LayoutError Layout) → ∀ f ∈ l.fields,
      f.storage.isBits = true → f.size = 8 → bitsIn l.fields f.offset ≤ 64 := by
  have hi : Fundamental.longLong.isIntegral = true := by rfl
  have hc : bare.machine.class? .longLong = some .longLong := by rfl
  have hb : bare.registry.Built := .empty
  have hcounted := bits_counted hb hi hc
  exact ⟨hb, hi, hc, hcounted.2.1.mpr (by decide), hcounted.2.2.mpr (by decide)⟩

def vast (k : Fin 2) : Profile where
  name := "lp64*"
  machine := { Profile.lp64.machine with
    longLong :=
      { size := 0x10000000 * (k.val + 1)
        align := .eight
        size_pos := by omega
        size_lt := by
          change 0x10000000 * (k.val + 1) < 0x10000000000000000
          omega
        align_dvd := ⟨0x2000000 * (k.val + 1), by
          change 0x10000000 * (k.val + 1) = 8 * (0x2000000 * (k.val + 1))
          omega⟩ } }

def vastEnv (k : Fin 2) : LayoutEnv := ⟨empty, (vast k).machine, .itaniumBaseline⟩

/-- With 2^29 bytes no width fits, and with 2^28 bytes a unit takes 2^32 bits. -/
theorem vast_bits_not_counted :
    (({ base := .lp64 } : Profile.Builder).withRow .longLong 0x20000000 8).build =
      .ok (vast 1) ∧
    (vastEnv 1).layoutOf (.aggregate
        ⟨.structType, some "Flag", [⟨"on", .fundamental .longLong, some 1⟩], [], []⟩) =
      (.error (.invalidBitFieldWidth "on" 1 0) : Except LayoutError Layout) ∧
    (({ base := .lp64 } : Profile.Builder).withRow .longLong 0x10000000 8).build =
      .ok (vast 0) ∧
    ∃ l, (vastEnv 0).layoutOf
        (.aggregate (wrapping .longLong 0x80000000 1)) = (.ok l : Except LayoutError Layout) ∧
      l.size = 0x10000000 ∧ bitsIn l.fields 0 = 0x100000000 ∧ 8 * l.size < bitsIn l.fields 0 := by
  refine ⟨by rfl, by decide +kernel, by rfl, { Layout.scalar 0x10000000 .eight with
    fields :=
      [⟨"", "long long", 0, 0x10000000, .eight, .bits 0x10000000 0 0x80000000⟩,
       ⟨"", "long long", 0, 0x10000000, .eight, .bits 0x10000000 0x80000000 0x80000000⟩]
    flags := { hasBitFields := true } }, by decide +kernel, by rfl, by decide +kernel,
    by decide +kernel⟩

end LayoutEnv

end TypeLayout
