import TypeLayout.Proofs.Layout.Packing
/-! The members of a struct or class one after another: plain members, bit-fields that join the unit
of the member before or open one, and zero-width bit-fields, which only move on. -/

namespace TypeLayout

open Registry
open Region (reach)

namespace LayoutEnv

/-- The offset is a multiple of the alignments of all zero-width bit-fields directly before. -/
def Resumes (env : LayoutEnv) (seen : List Member) (offset : Nat) : Prop :=
  ∀ y ∈ seen.takeWhile (·.isSeparator), ∀ unit, env.storageUnit y = .ok unit →
    unit.align.value ∣ offset

/-- What placing the member `x` after the members `seen`, the latest first, makes of a stage. -/
inductive Places (env : LayoutEnv) (fixed : List Region) (seen : List Member) (x : Member)
    (s : Stage) : Stage → Prop
  | whole {l : Layout} : x.bitWidth = none →
    env.layoutOf x.type = (.ok l : Except LayoutError Layout) →
    env.Resumes seen (l.align.roundUp (s.stop fixed)) →
    Places env fixed seen x s (s.add fixed ⟨x.name, env.registry.typeName x.type,
      l.align.roundUp (s.stop fixed), l.size, l.align, .whole⟩)
  | packs {w offset first : Nat} {unit : StorageUnit} : x.bitWidth = some w → 0 < w →
    env.Packs fixed seen x w s unit offset first → env.Resumes seen offset →
    Places env fixed seen x s
      (s.add fixed (unit.field x.name (env.registry.typeName x.type) offset first w))
  | separates {unit : StorageUnit} : x.bitWidth = some 0 → env.storageUnit x = .ok unit →
    Places env fixed seen x s (s.skip fixed unit.align)

inductive Packing (env : LayoutEnv) (fixed : List Region) :
    List Member → List Member → Stage → Stage → Prop
  | nil {seen : List Member} {s : Stage} : Packing env fixed seen [] s s
  | cons {seen xs : List Member} {x : Member} {s s₁ s' : Stage} :
    env.Places fixed seen x s s₁ → Packing env fixed (x :: seen) xs s₁ s' →
    Packing env fixed seen (x :: xs) s s'

variable {env : LayoutEnv} {g : Descend (Except LayoutError)} {trail : Trail} {a : Aggregate}
  {d d' : Draft} {owner : String} {l : Layout} {n : Nat} {fixed : List Region}
  {seen : List Member} {own : List VtableSlot} {x : Member}

theorem Resumes.roundUp {offset : Nat} (h : env.Resumes seen offset) (align : Alignment) :
    env.Resumes seen (align.roundUp offset) :=
  fun y hy unit hu => Alignment.dvd_roundUp align (h y hy unit hu)

theorem Packs.resumes {w offset first : Nat} {s : Stage} {unit : StorageUnit}
    (h : env.Packs fixed seen x w s unit offset first) (hs : env.Resumes seen (s.stop fixed)) :
    env.Resumes seen offset := by
  by_cases hroom : env.Room seen s unit w
  · -- the member before is no separator
    obtain ⟨⟨z, hz, ⟨v, hv, hpos⟩, -⟩, -⟩ := hroom
    obtain ⟨rest, rfl⟩ := List.head?_eq_some_iff.mp hz
    have hsep : z.isSeparator = false := by
      simp [Member.isSeparator, hv, Nat.ne_of_gt hpos]
    intro y hy
    rw [List.takeWhile_cons_of_neg (by simp [hsep])] at hy
    cases hy
  · have hleast := (h.opened hroom).2
    rw [hleast.unique (unit.align.isLeast_roundUp _)]
    exact hs.roundUp unit.align

theorem placeMember_packs (hm : env.machine.Narrow)
    (hg : ∀ trail x l, g trail x = .ok l → env.layoutOf x = (.ok l : Except LayoutError Layout))
    (h : d.Packed env fixed seen) (hok : env.placeMember g trail owner x d = .ok d') :
    d'.Packed env fixed (x :: seen) ∧ env.Places fixed seen x d.stage d'.stage := by
  have hskipped : env.Resumes seen (d.stage.stop fixed) := by
    rw [← h.offset]
    exact h.skipped
  unfold placeMember at hok
  split at hok
  next width hw =>
    obtain ⟨unit, hu, hok⟩ := bind_eq_ok.mp hok
    rw [ofExcept_eq] at hu
    split at hok
    next hz =>
      rw [hz] at hw
      rw [ofExcept_eq] at hok
      have hunit := (fittingUnit_ok hu).1
      obtain ⟨hpacked, hstage⟩ := h.separate hw hunit hok
      rw [hstage]
      exact ⟨hpacked, .separates hw hunit⟩
    next hz =>
      obtain ⟨⟨p, d₁⟩, hadd, hok⟩ := bind_eq_ok.mp hok
      obtain ⟨-, -, hok⟩ := bind_eq_ok.mp hok
      rw [ofExcept_eq] at hadd
      obtain rfl := pure_eq_ok.mp hok
      have hpos := Nat.pos_of_ne_zero hz
      obtain ⟨hpacked, offset, first, hpacks, hstage⟩ := h.addBits hm hw hpos hu hadd
      rw [hstage]
      exact ⟨hpacked, .packs hw hpos hpacks (hpacks.resumes hskipped)⟩
  next hw =>
    obtain ⟨l, hl, hok⟩ := bind_eq_ok.mp hok
    obtain ⟨d₁, hadd, hok⟩ := bind_eq_ok.mp hok
    obtain ⟨-, -, hok⟩ := bind_eq_ok.mp hok
    rw [ofExcept_eq] at hadd
    obtain rfl := pure_eq_ok.mp hok
    have hlaid := hg _ _ _ (inMember_eq_ok.mp hl)
    obtain ⟨hpacked, hstage⟩ := h.addField hw hadd
    rw [hstage]
    exact ⟨hpacked, .whole hw hlaid (hskipped.roundUp l.align)⟩

theorem placeMembers_packs {xs : List Member} (hm : env.machine.Narrow)
    (hg : ∀ trail x l, g trail x = .ok l → env.layoutOf x = (.ok l : Except LayoutError Layout))
    (h : d.Packed env fixed seen) (hok : env.placeMembers g trail owner xs d = .ok d') :
    d'.fields.Pairwise Field.Apart ∧ env.Packing fixed seen xs d.stage d'.stage := by
  induction xs generalizing d seen with
  | nil =>
    cases hok
    exact ⟨h.apart, .nil⟩
  | cons x xs ih =>
    obtain ⟨d₁, hx, hok⟩ := bind_eq_ok.mp hok
    obtain ⟨h₁, hplaces⟩ := placeMember_packs hm hg h hx
    obtain ⟨hapart, hpacking⟩ := ih h₁ hok
    exact ⟨hapart, .cons hplaces hpacking⟩

structure Based (m : Machine) (own : List VtableSlot) (d : Draft) : Prop where
  offset : d.offset = reach (own.map (VtableSlot.region m) ++ d.bases.map BaseSubobject.region)
  padding : reach d.padding ≤ d.offset
  fields : d.fields = []
  packer : d.packer = none

theorem openDraft_based (flags : Flags) (bs : List LaidBase) :
    Based env.machine (introduced owner flags bs) (env.openDraft owner flags bs) := by
  unfold openDraft introduced
  dsimp only
  split
  · refine ⟨?_, Nat.zero_le _, rfl, rfl⟩
    simp [reach, Draft.addSlot, VtableSlot.region, Region.stop, Machine.pointerSize]
  · exact ⟨rfl, Nat.zero_le _, rfl, rfl⟩

theorem Based.addBase {policy : BasePolicy} {name : String} {isVirtual : Bool}
    (h : Based env.machine own d) (hok : d.addBase policy owner name l isVirtual = .ok d') :
    Based env.machine own d' := by
  have hd' := (Draft.addBase_ok hok).2
  have hle := (policy.piece l).le_start d.offset
  have hstop := (policy.piece l).start_le_stop d.offset
  refine ⟨?_, ?_, ?_, ?_⟩
  · have hbase : reach [BaseSubobject.region
        ⟨name, (policy.piece l).start d.offset, (policy.piece l).size, isVirtual⟩] =
          (policy.piece l).stop d.offset := Nat.max_zero _
    have hbefore := h.offset
    rw [Region.reach_append] at hbefore
    rw [hd']
    dsimp only
    rw [List.map_append, List.map_cons, List.map_nil, Region.reach_append, Region.reach_append,
      hbase]
    dsimp only [Draft.offset_put]
    omega
  · have hgap := (Region.reach_between d.offset ((policy.piece l).start d.offset)).1
    have hpadding := h.padding
    rw [hd']
    dsimp only [Draft.padding_put, Draft.offset_put]
    rw [Draft.padding_padTo, Region.reach_append]
    omega
  · rw [hd']
    exact (Draft.fields_put d _ name).trans h.fields
  · rw [hd']
    exact (Draft.packer_put d _ name).trans h.packer

theorem placeBases_based {bs : List LaidBase} (h : Based env.machine own d)
    (hok : env.placeBases owner bs d = .ok d') : Based env.machine own d' := by
  induction bs generalizing d with
  | nil =>
    cases hok
    exact h
  | cons b bs ih =>
    unfold placeBases at hok
    split at hok
    · exact ih h hok
    · obtain ⟨d₁, hadd, hok⟩ := bind_eq_ok.mp hok
      exact ih (h.addBase hadd) hok

theorem Based.packed (h : Based env.machine own d) :
    d.Packed env (own.map (VtableSlot.region env.machine) ++ d.bases.map BaseSubobject.region)
      [] where
  offset := by
    have hoffset := h.offset
    have hpadding := h.padding
    rw [Stage.stop_eq]
    unfold Draft.stage
    dsimp only
    rw [h.fields, List.map_nil]
    change _ = max (max _ 0) _
    omega
  opened o ho := by
    rw [h.packer] at ho
    cases ho
  closed _ := by
    rintro ⟨y, hy, -⟩
    cases hy
  below f hf := by
    rw [h.fields] at hf
    cases hf
  apart := by
    rw [h.fields]
    exact .nil
  skipped y hy := by cases hy

theorem placeVirtualBases_appends {ids : List TypeId}
    (hok : env.placeVirtualBases g trail owner ids d = .ok d') :
    d.padding <+: d'.padding ∧
      ∃ more, d'.bases = d.bases ++ more ∧ ∀ b ∈ more, b.isVirtual = true := by
  induction ids generalizing d with
  | nil =>
    cases hok
    exact ⟨List.prefix_refl _, [], (List.append_nil _).symm, fun b hb => (by cases hb)⟩
  | cons id ids ih =>
    obtain ⟨l, -, hok⟩ := bind_eq_ok.mp hok
    obtain ⟨d₁, hadd, hok⟩ := bind_eq_ok.mp hok
    rw [ofExcept_eq] at hadd
    obtain ⟨hpadding, more, hbases, hvirtual⟩ := ih hok
    rw [(Draft.addBase_ok hadd).2] at hpadding hbases
    dsimp only [Draft.padding_put] at hpadding hbases
    rw [Draft.padding_padTo] at hpadding
    rw [List.append_assoc] at hbases
    refine ⟨(List.prefix_append _ _).trans hpadding, _, hbases, fun b hb => ?_⟩
    rcases List.mem_append.mp hb with hb | hb
    · rw [List.mem_singleton.mp hb]
    · exact hvirtual b hb

theorem placeBases_direct {bs : List LaidBase} (h : ∀ b ∈ d.bases, b.isVirtual = false)
    (hok : env.placeBases owner bs d = .ok d') : ∀ b ∈ d'.bases, b.isVirtual = false := by
  induction bs generalizing d with
  | nil =>
    cases hok
    exact h
  | cons b bs ih =>
    unfold placeBases at hok
    split at hok
    · exact ih h hok
    · obtain ⟨d₁, hadd, hok⟩ := bind_eq_ok.mp hok
      refine ih (fun c hc => ?_) hok
      rw [(Draft.addBase_ok hadd).2] at hc
      rcases List.mem_append.mp hc with hc | hc
      · exact h c hc
      · rw [List.mem_singleton.mp hc]

/-- What the members of a struct or class are placed after: its own vtable slot and its direct
bases. -/
def foundation (env : LayoutEnv) (owner : String) (a : Aggregate) (l : Layout) : List Region :=
  (env.ownSlots owner a l).map (VtableSlot.region env.machine) ++
    (l.bases.filter (!·.isVirtual)).map BaseSubobject.region

namespace RecordRun

theorem padding_prefix (run : RecordRun env g trail a owner) :
    run.filled.padding <+: run.final.padding := by
  have hpadTo : ∀ (d : Draft) t, d.padding <+: (d.padTo t).padding := by
    intro d t
    rw [Draft.padding_padTo]
    exact List.prefix_append _ _
  have hstart : run.filled.padding <+: run.start.padding := by
    unfold start
    split
    · exact List.prefix_refl _
    · exact hpadTo _ _
  have hwhole := hstart.trans (placeVirtualBases_appends run.virtuals).1
  rcases Draft.finish_ok run.finish with ⟨-, -, -, hfinal⟩ | ⟨-, hfinal⟩
  · rw [hfinal]
    exact hwhole
  · rw [hfinal]
    exact hwhole.trans (hpadTo _ _)

theorem direct_bases (run : RecordRun env g trail a owner) :
    run.layout.bases.filter (!·.isVirtual) = run.based.bases := by
  obtain ⟨-, more, hmore, hvirtual⟩ := placeVirtualBases_appends run.virtuals
  have hdirect : ∀ b ∈ run.based.bases, b.isVirtual = false := by
    refine placeBases_direct (fun b hb => ?_) run.placed
    rw [(openDraft_seated (a.flagsOver run.bases) run.bases).bases] at hb
    cases hb
  have hstart : run.start.bases = run.based.bases :=
    run.start_keeps.2.trans (placeMembers_keeps run.members).2
  change run.final.bases.filter (!·.isVirtual) = _
  rw [(Draft.finish_keeps run.finish).2, hmore, List.filter_append, List.filter_eq_self.mpr,
    List.filter_eq_nil_iff.mpr]
  · rw [List.append_nil]
    exact hstart
  · intro b hb
    simp [hvirtual b hb]
  · intro b hb
    change b ∈ run.start.bases at hb
    rw [hstart] at hb
    simp [hdirect b hb]

theorem foundation_eq (hr : env.registry.Founded)
    (run : RecordRun env (env.layoutWithin n) trail a owner) :
    env.foundation owner a run.layout =
      (introduced owner (a.flagsOver run.bases) run.bases).map (VtableSlot.region env.machine) ++
        run.based.bases.map BaseSubobject.region := by
  unfold foundation
  rw [run.direct_bases, run.introduced_eq hr]

end RecordRun

theorem presets_narrow : ∀ p ∈ Profile.presets, p.machine.Narrow := by
  have hrows : ∀ p ∈ Profile.presets, ∀ c ∈ SizeClass.all, (p.machine.row c).size < 2 ^ 28 := by
    decide
  intro p hp kind c _ _
  exact hrows p hp c (SizeClass.mem_all c)

/-- The members of a struct or class are placed one after another behind its vtable slot and its
bases. A bit-field lies in its unit; it joins the unit of the member before it exactly if that is a
bit-field of the same row and the unit has room, and then takes the bits after those taken; else it
opens a unit at the first aligned offset. No bit is taken twice, and zero-width bit-fields only move
on. The rows of all presets are narrow enough. -/
theorem members_packed : (∀ p ∈ Profile.presets, p.machine.Narrow) ∧
    ∀ (env : LayoutEnv) (x : Descriptor) (owner : String) (a : Aggregate) (l : Layout),
      env.registry.Built → env.machine.Narrow → env.registry.bodyOf? x = some (owner, a) →
      a.kind.isUnion = false → env.layoutOf x = (.ok l : Except LayoutError Layout) →
      l.fields.Pairwise Field.Apart ∧ ∃ s₀ s : Stage, s₀.fields = [] ∧
        s₀.stop (env.foundation owner a l) = reach (env.foundation owner a l) ∧
        env.Packing (env.foundation owner a l) [] a.members s₀ s ∧
        s.fields = l.fields ∧ s.align = l.nvAlign ∧ s.padding <+: l.padding := by
  refine ⟨presets_narrow, fun env x owner a l hb hm hx hu hl => ?_⟩
  have hr := hb.wellFormed.toFounded
  obtain ⟨n, trail, run, rfl⟩ := recordRun_of_layoutOf hr hx hu hl
  have hbased := placeBases_based (openDraft_based _ _) run.placed
  have hpacked := hbased.packed
  obtain ⟨hapart, hpacking⟩ := placeMembers_packs hm
    (fun _ _ _ h => layoutOf_of_ok hr h) hpacked run.members
  have hfields : run.final.fields = run.filled.fields :=
    (run.final_aligned (layoutWithin_regular env n)).1.fields_eq
  rw [run.foundation_eq hr]
  refine ⟨?_, run.based.stage, run.filled.stage, hbased.fields, ?_, hpacking, hfields.symm, rfl,
    run.padding_prefix⟩
  · change run.final.fields.Pairwise Field.Apart
    rw [hfields]
    exact hapart
  · rw [← hpacked.offset]
    exact hbased.offset

def flagWord : Aggregate :=
  ⟨.structType, some "FlagWord",
    [⟨"tag", .fundamental .char, none⟩, ⟨"low", .fundamental .int, some 3⟩,
     ⟨"mid", .fundamental .unsignedInt, some 5⟩, ⟨"", .fundamental .int, some 0⟩,
     ⟨"high", .fundamental .int, some 30⟩, ⟨"over", .fundamental .int, some 3⟩], [], []⟩

def bare : LayoutEnv where
  registry := empty
  machine := Profile.lp64.machine
  policy := .itaniumBaseline

def flagWordLayout : Layout where
  size := 16
  align := .four
  nvSize := 16
  nvAlign := .four
  fields :=
    [⟨"tag", "char", 0, 1, .one, .whole⟩, ⟨"low", "int", 4, 4, .four, .bits 4 0 3⟩,
     ⟨"mid", "unsigned int", 4, 4, .four, .bits 4 3 5⟩,
     ⟨"high", "int", 8, 4, .four, .bits 4 0 30⟩, ⟨"over", "int", 12, 4, .four, .bits 4 0 3⟩]
  padding := [⟨1, 3⟩]
  flags := { hasBitFields := true }

theorem flagWord_packed : bare.registry.Built ∧ bare.machine.Narrow ∧
    bare.registry.bodyOf? (.aggregate flagWord) = some ("struct FlagWord", flagWord) ∧
    bare.layoutOf (.aggregate flagWord) = (.ok flagWordLayout : Except LayoutError Layout) ∧
    flagWordLayout.fields.Pairwise Field.Apart ∧
    ∃ s₀ s : Stage, s₀.fields = [] ∧ bare.Packing [] [] flagWord.members s₀ s ∧
      s.fields = flagWordLayout.fields := by
  have hm : bare.machine.Narrow := members_packed.1 _ (by decide)
  have hx : bare.registry.bodyOf? (.aggregate flagWord) = some ("struct FlagWord", flagWord) := by
    rfl
  have hl : bare.layoutOf (.aggregate flagWord) =
      (.ok flagWordLayout : Except LayoutError Layout) := by
    decide +kernel
  have hnone : bare.foundation "struct FlagWord" flagWord flagWordLayout = [] := by
    decide +kernel
  obtain ⟨hapart, s₀, s, hs₀, -, hpacking, hs, -, -⟩ :=
    members_packed.2 bare _ _ _ _ .empty hm hx rfl hl
  rw [hnone] at hpacking
  exact ⟨.empty, hm, hx, hl, hapart, s₀, s, hs₀, hpacking, hs⟩

end LayoutEnv

end TypeLayout
