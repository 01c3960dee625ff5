import TypeLayout.Proofs.Layout.Assembly
import TypeLayout.Proofs.Layout.Seats
/-! Bit-fields in their units, while a draft grows. A stage is what is visible of a draft: its
fields, its padding and its alignment. The first free offset and the open unit, which a draft also
keeps, are read off the stage and the members placed so far. -/

namespace TypeLayout

namespace Region

def reach : List Region → Nat
  | [] => 0
  | r :: rs => max r.stop (reach rs)

theorem reach_append (rs ss : List Region) : reach (rs ++ ss) = max (reach rs) (reach ss) := by
  induction rs with
  | nil => simp [reach]
  | cons r rs ih => simp [reach, ih, Nat.max_assoc]

theorem reach_le_iff {rs : List Region} {n : Nat} : reach rs ≤ n ↔ ∀ r ∈ rs, r.stop ≤ n := by
  induction rs with
  | nil => simp [reach]
  | cons r rs ih => simp [reach, ih]

theorem reach_between (start stop : Nat) : reach (between start stop) ≤ max start stop ∧
    (start ≤ stop → max start (reach (between start stop)) = stop) := by
  unfold between
  split
  · simp only [reach, Region.stop]
    omega
  · simp only [reach]
    omega

end Region

open Region (reach between)

def Storage.width : Storage → Nat
  | .whole => 0
  | .bits _ _ width => width

def StorageUnit.field (unit : StorageUnit) (name typeName : String) (offset first width : Nat) :
    Field :=
  ⟨name, typeName, offset, unit.size, unit.align, .bits unit.size first width⟩

def bitsIn (fields : List Field) (offset : Nat) : Nat :=
  ((fields.filter (·.offset == offset)).map (·.storage.width)).sum

theorem bitsIn_concat (fields : List Field) (f : Field) (offset : Nat) :
    bitsIn (fields ++ [f]) offset =
      bitsIn fields offset + if f.offset = offset then f.storage.width else 0 := by
  unfold bitsIn
  by_cases h : f.offset = offset
  · simp [h]
  · simp [h]

theorem bitsIn_eq_zero {fields : List Field} {offset : Nat}
    (h : ∀ f ∈ fields, f.offset = offset → f.storage.width = 0) : bitsIn fields offset = 0 := by
  apply List.sum_eq_zero
  intro n hn
  obtain ⟨f, hf, rfl⟩ := List.mem_map.mp hn
  obtain ⟨hmem, hoffset⟩ := List.mem_filter.mp hf
  exact h f hmem (by simpa using hoffset)

/-- Two bit-fields of one unit share no bit: the first ends before the second starts. -/
def Field.Apart (f g : Field) : Prop :=
  ∀ r, f.unit? = some r → g.unit? = some r → ∀ s b w s' b' w',
    f.storage = .bits s b w → g.storage = .bits s' b' w' → b + w ≤ b'

/-- The members placed so far. -/
structure Stage where
  fields : List Field
  padding : List Region
  align : Alignment

namespace Stage

def stop (fixed : List Region) (s : Stage) : Nat :=
  reach (fixed ++ s.fields.map Field.region ++ s.padding)

def used (s : Stage) : Nat :=
  match s.fields.getLast? with
  | some g => bitsIn s.fields g.offset
  | none => 0

def add (fixed : List Region) (s : Stage) (f : Field) : Stage where
  fields := s.fields ++ [f]
  padding := s.padding ++ between (s.stop fixed) f.offset
  align := s.align.max f.align

def skip (fixed : List Region) (s : Stage) (a : Alignment) : Stage :=
  { s with padding := s.padding ++ between (s.stop fixed) (a.roundUp (s.stop fixed)) }

variable {fixed : List Region} {s : Stage}

theorem stop_eq (s : Stage) : s.stop fixed =
    max (max (reach fixed) (reach (s.fields.map Field.region))) (reach s.padding) := by
  unfold stop
  rw [Region.reach_append, Region.reach_append]

theorem stop_skip (s : Stage) (a : Alignment) :
    (s.skip fixed a).stop fixed = a.roundUp (s.stop fixed) := by
  have hgap := (Region.reach_between (s.stop fixed) _).2 (a.le_roundUp (s.stop fixed))
  have hstop : s.stop fixed = _ := s.stop_eq
  rw [stop_eq]
  unfold skip
  dsimp only
  rw [Region.reach_append]
  omega

theorem stop_add (s : Stage) (f : Field) :
    (s.add fixed f).stop fixed = max (s.stop fixed) f.stop := by
  have hgap := (Region.reach_between (s.stop fixed) f.offset).1
  have hstop : s.stop fixed = _ := s.stop_eq
  have hf : reach [f.region] = f.stop := by
    simp [reach, Region.stop, Field.region, Field.stop]
  have hle : f.offset ≤ f.stop := Nat.le_add_right _ _
  rw [stop_eq]
  unfold add
  dsimp only
  rw [List.map_append, List.map_cons, List.map_nil, Region.reach_append, Region.reach_append, hf]
  omega

end Stage

def Draft.stage (d : Draft) : Stage := ⟨d.fields, d.padding, d.align⟩

/-- Rows of integral types are small enough for their bits to be counted in 32 bits. -/
def Machine.Narrow (m : Machine) : Prop :=
  ∀ kind c, kind.isIntegral = true → m.class? kind = some c → (m.row c).size < 2 ^ 28

namespace LayoutEnv

structure PacksInto (env : LayoutEnv) (y : Member) (c : SizeClass) : Prop where
  width : ∃ w, y.bitWidth = some w ∧ 0 < w
  row : ∃ unit, env.storageUnit y = .ok unit ∧ unit.sizeClass = c

/-- The member before, the latest of `seen`, is a bit-field of the same row whose unit still has
room for `w` bits. -/
def Room (env : LayoutEnv) (seen : List Member) (s : Stage) (unit : StorageUnit) (w : Nat) : Prop :=
  (∃ y ∈ seen.head?, env.PacksInto y unit.sizeClass) ∧ s.used + w ≤ 8 * unit.size

/-- How a bit-field of `w` bits is placed after the members `seen`: its unit starts at `offset`, and
the field at the bit `first` of the unit. -/
structure Packs (env : LayoutEnv) (fixed : List Region) (seen : List Member) (x : Member) (w : Nat)
    (s : Stage) (unit : StorageUnit) (offset first : Nat) : Prop where
  stored : env.storageUnit x = .ok unit
  inside : first + w ≤ 8 * unit.size
  shares : (∃ g ∈ s.fields.getLast?, g.unit? = some ⟨offset, unit.size⟩) ↔ env.Room seen s unit w
  joined : env.Room seen s unit w → first = s.used
  opened : ¬ env.Room seen s unit w →
    first = 0 ∧ IsLeast {y | unit.align.value ∣ y ∧ s.stop fixed ≤ y} offset

variable {env : LayoutEnv} {x : Member} {unit : StorageUnit} {w : Nat}

theorem PacksInto.unique {c c' : SizeClass} (h : env.PacksInto x c) (h' : env.PacksInto x c') :
    c = c' := by
  obtain ⟨unit, hu, rfl⟩ := h.row
  obtain ⟨unit', hu', rfl⟩ := h'.row
  rw [hu] at hu'
  rw [Except.ok.inj hu']

theorem fittingUnit_ok (h : env.fittingUnit x w = .ok unit) :
    env.storageUnit x = .ok unit ∧ w ≤ unit.bits := by
  obtain ⟨unit', hu, h⟩ := bind_eq_ok.mp h
  split at h
  · cases h
  next hw =>
    obtain rfl := pure_eq_ok.mp h
    exact ⟨hu, Nat.le_of_not_lt hw⟩

theorem storageUnit_ok (h : env.storageUnit x = .ok unit) :
    unit = env.machine.unit unit.sizeClass ∧
      ∃ kind : Fundamental, kind.isIntegral = true ∧
        env.machine.class? kind = some unit.sizeClass := by
  obtain ⟨kind, -, h⟩ := bind_eq_ok.mp h
  split at h
  next hi =>
    split at h
    next c hc =>
      obtain rfl := pure_eq_ok.mp h
      exact ⟨rfl, kind, hi, hc⟩
    next => cases h
  next => cases h

theorem bits_of_narrow (hm : env.machine.Narrow) (h : env.storageUnit x = .ok unit) :
    unit.bits = 8 * unit.size ∧ 8 * unit.size < 2 ^ 31 := by
  obtain ⟨hu, kind, hi, hc⟩ := storageUnit_ok h
  have hlt := hm kind _ hi hc
  have hsize : unit.size = (env.machine.row unit.sizeClass).size := congrArg StorageUnit.size hu
  rw [← hsize] at hlt
  unfold StorageUnit.bits bitLimit
  omega

end LayoutEnv

namespace Draft

variable {env : LayoutEnv} {fixed : List Region} {seen : List Member} {d d' : Draft}
  {owner name typeName : String} {x : Member} {unit : StorageUnit} {w : Nat}

structure Opened (env : LayoutEnv) (seen : List Member) (d : Draft) (o : OpenUnit) : Prop where
  unit : o.unit = env.machine.unit o.unit.sizeClass
  member : ∃ y ∈ seen.head?, env.PacksInto y o.unit.sizeClass
  field : ∃ g ∈ d.fields.getLast?, g.unit? = some ⟨o.offset, o.unit.size⟩
  used : o.used = bitsIn d.fields o.offset
  used_le : o.used ≤ 8 * o.unit.size
  stop_le : o.offset + o.unit.size ≤ d.offset

/-- The draft's own first free offset and open unit are what the stage and the members say. -/
structure Packed (env : LayoutEnv) (fixed : List Region) (seen : List Member) (d : Draft) :
    Prop where
  offset : d.offset = d.stage.stop fixed
  opened : ∀ o, d.packer = some o → Opened env seen d o
  closed : d.packer = none → ¬ ∃ y ∈ seen.head?, ∃ c, env.PacksInto y c
  below : ∀ f ∈ d.fields, ∀ s b w, f.storage = .bits s b w →
    f.offset < d.offset ∧ b + w ≤ bitsIn d.fields f.offset
  apart : d.fields.Pairwise Field.Apart
  skipped : ∀ y ∈ seen.takeWhile (·.isSeparator), ∀ u, env.storageUnit y = .ok u →
    u.align.value ∣ d.offset

theorem not_packsInto_of_whole (hx : x.bitWidth = none) (c : SizeClass) : ¬ env.PacksInto x c := by
  rintro ⟨⟨w, hw, -⟩, -⟩
  rw [hx] at hw
  cases hw

theorem stage_eq_add (h : d.offset = d.stage.stop fixed) {f : Field}
    (hf : d'.fields = d.fields ++ [f])
    (hp : d'.padding = d.padding ++ between d.offset f.offset)
    (ha : d'.align = d.align.max f.align) : d'.stage = d.stage.add fixed f := by
  unfold stage at h ⊢
  unfold Stage.add
  rw [hf, hp, ha, h]

theorem stage_eq_skip (h : d.offset = d.stage.stop fixed) {a : Alignment}
    (hf : d'.fields = d.fields)
    (hp : d'.padding = d.padding ++ between d.offset (a.roundUp d.offset))
    (ha : d'.align = d.align) : d'.stage = d.stage.skip fixed a := by
  unfold stage at h ⊢
  unfold Stage.skip
  rw [hf, hp, ha, h]

theorem Packed.concat (h : d.Packed env fixed seen) {f : Field} (hx : x.isSeparator = false)
    (hf : d'.fields = d.fields ++ [f]) (ho : d'.offset = max d.offset f.stop)
    (hs : d'.stage = d.stage.add fixed f)
    (hbits : ∀ s b w, f.storage = .bits s b w → 0 < f.size ∧ b = bitsIn d.fields f.offset)
    (hopened : ∀ o, d'.packer = some o → Opened env (x :: seen) d' o)
    (hclosed : d'.packer = none → ∀ c, ¬ env.PacksInto x c) :
    d'.Packed env fixed (x :: seen) where
  offset := by
    rw [hs, Stage.stop_add, ← h.offset]
    exact ho
  opened := hopened
  closed hp := by
    rintro ⟨y, hy, c, hc⟩
    cases hy
    exact hclosed hp c hc
  below g hg s b w hgs := by
    rw [hf] at hg ⊢
    rw [bitsIn_concat, ho]
    rcases List.mem_append.mp hg with hg | hg
    · obtain ⟨hlt, hle⟩ := h.below g hg s b w hgs
      omega
    · obtain rfl := List.mem_singleton.mp hg
      obtain ⟨hpos, hb⟩ := hbits s b w hgs
      have hwidth : g.storage.width = w := by rw [hgs]; rfl
      rw [if_pos rfl, hwidth]
      unfold Field.stop
      omega
  apart := by
    rw [hf]
    refine List.pairwise_append.mpr ⟨h.apart, List.pairwise_singleton _ _, fun g hg f' hf' => ?_⟩
    obtain rfl := List.mem_singleton.mp hf'
    intro r hgr hfr s b w s' b' w' hgs hfs
    have hoffset : g.offset = f'.offset := by
      simp only [Field.unit?, hgs, hfs] at hgr hfr
      rw [← Option.some.inj hfr] at hgr
      exact (Region.mk.inj (Option.some.inj hgr)).1
    rw [(hbits s' b' w' hfs).2, ← hoffset]
    exact (h.below g hg s b w hgs).2
  skipped y hy := by
    rw [List.takeWhile_cons_of_neg (by simp [hx])] at hy
    cases hy

theorem Packed.addField {l : Layout} (h : d.Packed env fixed seen) (hx : x.bitWidth = none)
    (hok : d.addField owner x.name typeName l = .ok d') :
    d'.Packed env fixed (x :: seen) ∧ d'.stage = d.stage.add fixed
      ⟨x.name, typeName, l.align.roundUp (d.stage.stop fixed), l.size, l.align, .whole⟩ := by
  have hd' := (addField_ok hok).2
  have hsep : x.isSeparator = false := by simp [Member.isSeparator, hx]
  have hle := l.piece.le_stop d.offset
  have hf : d'.fields = d.fields ++
      [⟨x.name, typeName, l.align.roundUp d.offset, l.size, l.align, .whole⟩] := by
    rw [hd']
    rfl
  have hpadding : d'.padding = d.padding ++ between d.offset (l.align.roundUp d.offset) := by
    rw [hd']
    exact padding_padTo d _
  have halign : d'.align = d.align.max l.align := by
    rw [hd']
    rfl
  have hstage := stage_eq_add h.offset hf hpadding halign
  rw [← h.offset]
  refine ⟨h.concat hsep hf ?_ hstage (fun s b w hs => (by cases hs)) (fun o ho => ?_)
    fun _ => not_packsInto_of_whole hx, hstage⟩
  · rw [hd']
    change l.piece.stop d.offset = max d.offset (l.piece.stop d.offset)
    omega
  · rw [hd'] at ho
    cases ho

theorem Packed.separate (h : d.Packed env fixed seen) (hx : x.bitWidth = some 0)
    (hu : env.storageUnit x = .ok unit) (hok : d.separate owner x.name unit = .ok d') :
    d'.Packed env fixed (x :: seen) ∧ d'.stage = d.stage.skip fixed unit.align := by
  have hle := unit.align.le_roundUp d.offset
  have hoffset : d'.offset = unit.align.roundUp d.offset := by
    rw [separate_ok hok]
    change (d.padTo _).offset = _
    rw [offset_padTo]
    omega
  have hfields : d'.fields = d.fields := by
    rw [separate_ok hok]
    exact fields_padTo d _
  have hpacker : d'.packer = none := by
    rw [separate_ok hok]
  have hstage : d'.stage = d.stage.skip fixed unit.align := by
    rw [separate_ok hok]
    exact stage_eq_skip h.offset (fields_padTo d _) (padding_padTo d _) (align_padTo d _)
  refine ⟨⟨?_, fun o ho => ?_, fun _ => ?_, fun f hf s b w hs => ?_, ?_, ?_⟩, hstage⟩
  · rw [hstage, Stage.stop_skip, ← h.offset, hoffset]
  · rw [hpacker] at ho
    cases ho
  · rintro ⟨y, hy, c, ⟨w, hw, hpos⟩, -⟩
    cases hy
    rw [hx] at hw
    cases hw
    exact absurd hpos (Nat.lt_irrefl 0)
  · rw [hfields] at hf ⊢
    obtain ⟨hlt, hbits⟩ := h.below f hf s b w hs
    rw [hoffset]
    exact ⟨Nat.lt_of_lt_of_le hlt hle, hbits⟩
  · rw [hfields]
    exact h.apart
  · have hsep : x.isSeparator = true := by simp [Member.isSeparator, hx]
    intro y hy u hyu
    rw [List.takeWhile_cons_of_pos hsep] at hy
    rw [hoffset]
    rcases List.mem_cons.mp hy with rfl | hy
    · rw [hu] at hyu
      cases hyu
      exact unit.align.value_dvd_roundUp d.offset
    · exact Alignment.dvd_roundUp _ (h.skipped y hy u hyu)

def joinUnit (d : Draft) (o : OpenUnit) (unit : StorageUnit) (name typeName : String) (w : Nat) :
    Draft :=
  { d with
    fields := d.fields ++ [unit.field name typeName o.offset o.used w]
    align := d.align.max unit.align
    offset := max d.offset (o.offset + o.unit.size)
    packer := some { o with used := (o.used + w) % bitLimit }
    hasBitFields := true
    last := name }

def openUnit (d : Draft) (unit : StorageUnit) (name typeName : String) (w : Nat) : Draft :=
  { d.padTo (unit.align.roundUp d.offset) with
    fields := d.fields ++ [unit.field name typeName (unit.align.roundUp d.offset) 0 w]
    align := d.align.max unit.align
    offset := unit.align.roundUp d.offset + unit.size
    packer := some ⟨unit, unit.align.roundUp d.offset, w⟩
    hasBitFields := true
    last := name }

theorem addBits_cases {p : BitPlacement}
    (hok : d.addBits owner name typeName unit w = .ok (p, d')) :
    (∃ o, d.packer = some o ∧ o.takes unit w = true ∧ d' = d.joinUnit o unit name typeName w) ∨
    ((∀ o, d.packer = some o → o.takes unit w = false) ∧
      d' = d.openUnit unit name typeName w) := by
  unfold addBits at hok
  split at hok
  · cases hok
  next q packer hq =>
    split at hok
    · cases hok
    next stop hstop =>
      have hend : stop = q.offset + q.unitSize := by
        unfold BitPlacement.stop? at hstop
        split at hstop
        · exact (Option.some.inj hstop).symm
        · cases hstop
      cases hok
      have hopen : Packer.openAt d.offset unit w = some (p, packer) →
          p = ⟨unit.align.roundUp d.offset, unit.size, 0, true⟩ ∧
            packer = some ⟨unit, unit.align.roundUp d.offset, w⟩ := by
        intro h
        obtain ⟨offset, ho, he⟩ := Option.map_eq_some_iff.mp h
        obtain ⟨-, rfl⟩ := Alignment.align?_eq_some.mp ho
        cases he
        exact ⟨rfl, rfl⟩
      have hlow := unit.align.le_roundUp d.offset
      have hmax : max (max d.offset (unit.align.roundUp d.offset))
          (unit.align.roundUp d.offset + unit.size) =
            unit.align.roundUp d.offset + unit.size := by
        omega
      cases hpacker : d.packer with
      | none =>
        rw [hpacker] at hq
        obtain ⟨rfl, rfl⟩ := hopen hq
        subst hend
        refine Or.inr ⟨fun o ho => (by cases ho), ?_⟩
        simp only [if_true, offset_padTo, fields_padTo, align_padTo, hmax]
        rfl
      | some o =>
        rw [hpacker] at hq
        unfold Packer.place? at hq
        dsimp only at hq
        split at hq
        next ht =>
          cases hq
          subst hend
          refine Or.inl ⟨o, rfl, ht, ?_⟩
          simp only [Bool.false_eq_true, if_false]
          rfl
        next ht =>
          obtain ⟨rfl, rfl⟩ := hopen hq
          subst hend
          refine Or.inr ⟨fun o' ho' => ?_, ?_⟩
          · rw [← Option.some.inj ho']
            exact Bool.eq_false_iff.mpr ht
          · simp only [if_true, offset_padTo, fields_padTo, align_padTo, hmax]
            rfl

theorem Opened.used_stage {o : OpenUnit} (h : Opened env seen d o) : d.stage.used = o.used := by
  obtain ⟨g, hg, hunit⟩ := h.field
  have hoffset : g.offset = o.offset := by
    unfold Field.unit? at hunit
    split at hunit
    · cases hunit
    · exact (Region.mk.inj (Option.some.inj hunit)).1
  have hlast : d.stage.fields.getLast? = some g := hg
  unfold Stage.used
  rw [hlast, h.used, ← hoffset]
  rfl

theorem Packed.room_iff (h : d.Packed env fixed seen) (hm : env.machine.Narrow)
    (hu : env.fittingUnit x w = .ok unit) :
    env.Room seen d.stage unit w ↔
      ∃ o, d.packer = some o ∧ o.unit = unit ∧ o.takes unit w = true := by
  obtain ⟨hunit, hw⟩ := LayoutEnv.fittingUnit_ok hu
  obtain ⟨hbits, hlt⟩ := LayoutEnv.bits_of_narrow hm hunit
  have hrow := (LayoutEnv.storageUnit_ok hunit).1
  have hlimit : bitLimit = 2 ^ 32 := rfl
  constructor
  · rintro ⟨⟨y, hy, hyc⟩, hle⟩
    cases hp : d.packer with
    | none => exact absurd ⟨y, hy, _, hyc⟩ (h.closed hp)
    | some o =>
      have ho := h.opened o hp
      obtain ⟨y', hy', hyo⟩ := ho.member
      obtain rfl : y = y' := Option.some.inj (hy.symm.trans hy')
      have hclass := hyo.unique hyc
      have hsame : o.unit = unit := by rw [ho.unit, hclass, ← hrow]
      refine ⟨o, rfl, hsame, ?_⟩
      rw [ho.used_stage] at hle
      have hmod : (o.used + w) % bitLimit = o.used + w := Nat.mod_eq_of_lt (by omega)
      simp only [OpenUnit.takes, hsame, hmod, hbits, BEq.rfl, Bool.true_and,
        decide_eq_true_eq]
      exact hle
  · rintro ⟨o, hp, hsame, ht⟩
    have ho := h.opened o hp
    obtain ⟨y, hy, hyo⟩ := ho.member
    have hused := ho.used_le
    rw [hsame] at hyo hused
    refine ⟨⟨y, hy, hyo⟩, ?_⟩
    have hmod : (o.used + w) % bitLimit = o.used + w := by
      apply Nat.mod_eq_of_lt
      omega
    simp only [OpenUnit.takes, hsame, hmod, hbits, Bool.and_eq_true, decide_eq_true_eq] at ht
    rw [ho.used_stage]
    exact ht.2

theorem Packed.addUnit (h : d.Packed env fixed seen) (hu : env.storageUnit x = .ok unit)
    (hx : x.bitWidth = some w) (hpos : 0 < w) {offset first : Nat}
    (hfirst : first = bitsIn d.fields offset) (hle : first + w ≤ 8 * unit.size)
    (hf : d'.fields = d.fields ++ [unit.field x.name typeName offset first w])
    (ho : d'.offset = max d.offset (offset + unit.size))
    (hp : d'.packer = some ⟨unit, offset, first + w⟩)
    (hs : d'.stage = d.stage.add fixed (unit.field x.name typeName offset first w)) :
    d'.Packed env fixed (x :: seen) := by
  have hsep : x.isSeparator = false := by
    simp [Member.isSeparator, hx, Nat.ne_of_gt hpos]
  have hsize : 0 < unit.size := by omega
  refine h.concat hsep hf ho hs (fun s b v hsv => ?_) (fun o hpo => ?_) fun hpo => ?_
  · cases hsv
    exact ⟨hsize, hfirst⟩
  · rw [hp] at hpo
    cases hpo
    refine ⟨(LayoutEnv.storageUnit_ok hu).1, ⟨x, rfl, ⟨w, hx, hpos⟩, unit, hu, rfl⟩, ?_, ?_, hle,
      ?_⟩
    · refine ⟨unit.field x.name typeName offset first w, ?_, rfl⟩
      rw [hf]
      simp
    · rw [hf, bitsIn_concat, hfirst]
      simp [StorageUnit.field, Storage.width]
    · rw [ho]
      exact Nat.le_max_right _ _
  · rw [hp] at hpo
    cases hpo

theorem Packed.joinUnit (h : d.Packed env fixed seen) (hm : env.machine.Narrow)
    (hx : x.bitWidth = some w) (hpos : 0 < w) (hu : env.fittingUnit x w = .ok unit) {o : OpenUnit}
    (hp : d.packer = some o) (ht : o.takes unit w = true)
    (hd' : d' = d.joinUnit o unit x.name typeName w) :
    d'.Packed env fixed (x :: seen) ∧
      env.Packs fixed seen x w d.stage unit o.offset o.used ∧
      d'.stage = d.stage.add fixed (unit.field x.name typeName o.offset o.used w) := by
  obtain ⟨hunit, hw⟩ := LayoutEnv.fittingUnit_ok hu
  obtain ⟨hbits, hlt⟩ := LayoutEnv.bits_of_narrow hm hunit
  have ho := h.opened o hp
  have hclass : o.unit.sizeClass = unit.sizeClass := by
    simp only [OpenUnit.takes, Bool.and_eq_true, beq_iff_eq] at ht
    exact ht.1
  have hsame : o.unit = unit := by
    rw [ho.unit, hclass, ← (LayoutEnv.storageUnit_ok hunit).1]
  have hroom : env.Room seen d.stage unit w := (h.room_iff hm hu).mpr ⟨o, hp, hsame, ht⟩
  have hle : o.used + w ≤ 8 * unit.size := by
    rw [← ho.used_stage]
    exact hroom.2
  have hlimit : bitLimit = 2 ^ 32 := rfl
  have hmod : (o.used + w) % bitLimit = o.used + w := Nat.mod_eq_of_lt (by omega)
  have hbelow := ho.stop_le
  have hfield := ho.field
  rw [hsame] at hbelow hfield
  have hf : d'.fields = d.fields ++ [unit.field x.name typeName o.offset o.used w] := by
    rw [hd']
    rfl
  -- the unit lies below the first free offset, so nothing is skipped
  have hgap : between d.offset o.offset = [] := if_neg (by omega)
  have hpadding : d'.padding = d.padding ++ between d.offset o.offset := by
    rw [hgap, List.append_nil, hd']
    rfl
  have halign : d'.align = d.align.max unit.align := by
    rw [hd']
    rfl
  have hstage := stage_eq_add h.offset hf hpadding halign
  refine ⟨h.addUnit hunit hx hpos ho.used hle hf ?_ ?_ hstage, ⟨hunit, hle, ?_, ?_, ?_⟩, hstage⟩
  · rw [hd', ← hsame]
    rfl
  · rw [hd', ← hsame, ← hmod]
    rfl
  · exact ⟨fun _ => hroom, fun _ => hfield⟩
  · intro _
    exact ho.used_stage.symm
  · intro hno
    exact absurd hroom hno

theorem Packed.openUnit (h : d.Packed env fixed seen) (hm : env.machine.Narrow)
    (hx : x.bitWidth = some w) (hpos : 0 < w) (hu : env.fittingUnit x w = .ok unit)
    (hnone : ∀ o, d.packer = some o → o.takes unit w = false)
    (hd' : d' = d.openUnit unit x.name typeName w) :
    d'.Packed env fixed (x :: seen) ∧
      env.Packs fixed seen x w d.stage unit (unit.align.roundUp d.offset) 0 ∧
      d'.stage = d.stage.add fixed
        (unit.field x.name typeName (unit.align.roundUp d.offset) 0 w) := by
  obtain ⟨hunit, hw⟩ := LayoutEnv.fittingUnit_ok hu
  obtain ⟨hbits, hlt⟩ := LayoutEnv.bits_of_narrow hm hunit
  have hle : 0 + w ≤ 8 * unit.size := by omega
  have hroom : ¬ env.Room seen d.stage unit w := by
    rw [h.room_iff hm hu]
    rintro ⟨o, hp, -, ht⟩
    rw [hnone o hp] at ht
    cases ht
  -- every bit-field placed so far lies in a unit that starts below
  have hfree : ∀ f ∈ d.fields, ∀ s b v, f.storage = .bits s b v →
      f.offset ≠ unit.align.roundUp d.offset := by
    intro f hf s b v hs
    have hbelow := (h.below f hf s b v hs).1
    have hlow := unit.align.le_roundUp d.offset
    omega
  have hempty : 0 = bitsIn d.fields (unit.align.roundUp d.offset) := by
    symm
    apply bitsIn_eq_zero
    intro f hf hoffset
    cases hs : f.storage with
    | whole => rfl
    | bits s b v => exact absurd hoffset (hfree f hf s b v hs)
  have hf : d'.fields = d.fields ++
      [unit.field x.name typeName (unit.align.roundUp d.offset) 0 w] := by
    rw [hd']
    rfl
  have hpadding : d'.padding = d.padding ++ between d.offset (unit.align.roundUp d.offset) := by
    rw [hd']
    exact padding_padTo d _
  have halign : d'.align = d.align.max unit.align := by
    rw [hd']
    rfl
  have hstage := stage_eq_add h.offset hf hpadding halign
  refine ⟨h.addUnit hunit hx hpos hempty hle hf ?_ ?_ hstage, ⟨hunit, hle, ?_, ?_, ?_⟩, hstage⟩
  · have hlow := unit.align.le_roundUp d.offset
    rw [hd']
    change unit.align.roundUp d.offset + unit.size = max d.offset _
    omega
  · rw [hd', Nat.zero_add]
    rfl
  · refine ⟨fun ⟨g, hg, hunit⟩ => ?_, fun hyes => absurd hyes hroom⟩
    unfold Field.unit? at hunit
    split at hunit
    · cases hunit
    next hs =>
      have hoffset := (Region.mk.inj (Option.some.inj hunit)).1
      exact absurd hoffset (hfree g (List.mem_of_getLast? hg) _ _ _ hs)
  · intro hyes
    exact absurd hyes hroom
  · intro _
    rw [← h.offset]
    exact ⟨rfl, unit.align.isLeast_roundUp d.offset⟩

theorem Packed.addBits {p : BitPlacement} (h : d.Packed env fixed seen) (hm : env.machine.Narrow)
    (hx : x.bitWidth = some w) (hpos : 0 < w) (hu : env.fittingUnit x w = .ok unit)
    (hok : d.addBits owner x.name typeName unit w = .ok (p, d')) :
    d'.Packed env fixed (x :: seen) ∧ ∃ offset first,
      env.Packs fixed seen x w d.stage unit offset first ∧
      d'.stage = d.stage.add fixed (unit.field x.name typeName offset first w) := by
  rcases addBits_cases hok with ⟨o, hp, ht, hd'⟩ | ⟨hnone, hd'⟩
  · obtain ⟨hpacked, hpacks, hstage⟩ := h.joinUnit hm hx hpos hu hp ht hd'
    exact ⟨hpacked, _, _, hpacks, hstage⟩
  · obtain ⟨hpacked, hpacks, hstage⟩ := h.openUnit hm hx hpos hu hnone hd'
    exact ⟨hpacked, _, _, hpacks, hstage⟩

end Draft

end TypeLayout
