import TypeLayout.Proofs.Layout.Prefix
import TypeLayout.Proofs.Layout.Reached
/-! The common initial sequence of two classes. If one has the bases and the virtual functions of
the other and the first of its members, then it is laid out where the other is, with its fields,
bases and vtable slots at the same places. -/

namespace TypeLayout

open Registry

namespace LayoutEnv

variable {env : LayoutEnv} {g : Descend (Except LayoutError)} {trail : Trail}
  {a b : Aggregate} {owner owner' : String} {x y : Descriptor} {l l' : Layout}

theorem RecordRun.record_eq (run : RecordRun env g trail a owner) :
    env.record g trail a owner = .ok run.layout := by
  rw [record_plain]
  apply bind_eq_ok.mpr ⟨_, run.laid, _⟩
  apply bind_eq_ok.mpr ⟨_, run.placed, _⟩
  apply bind_eq_ok.mpr ⟨_, run.members, _⟩
  apply bind_eq_ok.mpr ⟨_, run.rounded, _⟩
  apply bind_eq_ok.mpr ⟨_, run.virtuals, _⟩
  exact bind_eq_ok.mpr ⟨_, run.finish, rfl⟩

theorem recordRun_finished (hr : env.registry.Founded)
    (hy : env.registry.bodyOf? y = some (owner, b)) (hu : b.kind.isUnion = false)
    (hl : env.layoutOf y = (.ok l : Except LayoutError Layout)) (trail : Trail) :
    ∃ run : RecordRun env (fun _ x => env.layoutOf x) trail b owner, l = run.layout := by
  obtain ⟨n, trail', hagg⟩ := aggregate_of_layoutOf hr hy hl
  have hfinished := aggregate_finished hr trail hagg
  rw [aggregate_plain, hu] at hfinished
  exact record_ok hfinished

theorem layoutOf_of_finished (hr : env.registry.Founded)
    (hx : env.registry.bodyOf? x = some (owner, a)) : ∃ trail, ∀ l,
      env.aggregate (fun _ x => env.layoutOf x) trail a owner =
        (.ok l : Except LayoutError Layout) →
      env.layoutOf x = (.ok l : Except LayoutError Layout) := by
  rw [← layoutOf_strip hr x]
  rcases bodyOf?_cases hx with ⟨id, hs, hdef, rfl⟩ | ⟨hs, rfl⟩
  · rw [hs]
    exact ⟨[⟨id, ""⟩], fun l hl => layoutOf_body hr hdef hl⟩
  · rw [hs]
    exact ⟨[], fun l hl => layoutOf_of_yields hr (.inline hl)⟩

/-- Of two classes with equal bases and virtual functions, one with the first members of the other:
if the longer is laid out then so is the shorter. Its fields are the first fields of the longer, the
bases and vtable slots outside virtual bases have the same places in both, and the shorter is no
larger and no more strictly aligned before its virtual bases. -/
theorem common_initial_sequence (hr : env.registry.Built)
    (hx : env.registry.bodyOf? x = some (owner, a))
    (hy : env.registry.bodyOf? y = some (owner', b))
    (ha : a.kind.isUnion = false) (hb : b.kind.isUnion = false)
    (hbases : a.bases = b.bases) (hvirtual : a.virtualFunctions = b.virtualFunctions)
    (hmembers : a.members <+: b.members)
    (hl' : env.layoutOf y = (.ok l' : Except LayoutError Layout)) :
    ∃ l, env.layoutOf x = (.ok l : Except LayoutError Layout) ∧
      l.fields <+: l'.fields ∧
      l.bases.filter (!·.isVirtual) = l'.bases.filter (!·.isVirtual) ∧
      l.ownSlots.map (·.offset) = l'.ownSlots.map (·.offset) ∧
      l.nvSize ≤ l'.nvSize ∧ l.nvAlign.value ≤ l'.nvAlign.value := by
  have hfounded := hr.wellFormed.toFounded
  have hregular : ∀ (trail : Trail) d l, env.layoutOf d = (.ok l : Except LayoutError Layout) →
      l.Regular env.machine := fun _ _ _ hl => layoutOf_regular hl
  obtain ⟨trail, hfinish⟩ := layoutOf_of_finished hfounded hx
  obtain ⟨run, hrun⟩ := recordRun_finished hfounded hy hb hl' trail
  obtain ⟨run', hdirect, hslots, hfields, hbehind⟩ :=
    run.shorten hbases hvirtual hmembers owner
  have hl : env.layoutOf x = (.ok run'.layout : Except LayoutError Layout) := by
    apply hfinish
    rw [aggregate_plain, ha]
    exact run'.record_eq
  refine ⟨run'.layout, hl, ?_, ?_, ?_, ?_, ?_⟩
  · rw [hrun]
    change run'.final.fields <+: run.final.fields
    rw [(run'.final_aligned hregular).1.fields_eq, (run.final_aligned hregular).1.fields_eq]
    exact hfields
  · rw [hrun, run'.direct_bases, run.direct_bases]
    exact hdirect
  · -- both are sorted, so it is enough that they have the same offsets
    have hoffsets : ∀ slots : List VtableSlot,
        slots.map (·.offset) = (slots.map VtableSlot.unowned).map (·.offset) := by
      intro slots
      rw [List.map_map]
      rfl
    have hperm : (run'.layout.ownSlots.map (·.offset)).Perm (l'.ownSlots.map (·.offset)) := by
      rw [hrun]
      apply (run'.ownSlots_perm.map _).trans
      rw [hoffsets, hslots, ← hoffsets]
      exact (run.ownSlots_perm.map _).symm
    have hsorted := ((slots_sorted hfounded hx ha hl).filter (!·.inVirtualBase))
    have hsorted' := ((slots_sorted hfounded hy hb hl').filter (!·.inVirtualBase))
    exact hperm.eq_of_pairwise' (List.pairwise_map.mpr hsorted) (List.pairwise_map.mpr hsorted')
  · rw [hrun]
    change run'.nvSize ≤ run.nvSize
    rw [run'.nvSize_eq, run.nvSize_eq]
    exact hbehind.roundUp_le
  · rw [hrun]
    exact Nat.le_of_dvd (Alignment.value_pos _) hbehind.align_dvd

def frameClass : Aggregate :=
  ⟨.classType, some "Frame", [⟨"kind", .fundamental .char, none⟩], [], ["decode"]⟩

def clockClass : Aggregate :=
  ⟨.structType, some "Clock", [⟨"ticks", .fundamental .longLong, none⟩], [], []⟩

def headerClass : Aggregate :=
  ⟨.classType, some "Header",
    [⟨"length", .fundamental .short, none⟩, ⟨"version", .fundamental .int, some 4⟩],
    [⟨.named ⟨0⟩, false⟩, ⟨.named ⟨1⟩, true⟩], []⟩

def packetClass : Aggregate :=
  ⟨.classType, some "Packet",
    [⟨"length", .fundamental .short, none⟩, ⟨"version", .fundamental .int, some 4⟩,
      ⟨"flags", .fundamental .int, some 20⟩, ⟨"", .fundamental .char, some 0⟩,
      ⟨"sum", .fundamental .double, none⟩],
    [⟨.named ⟨0⟩, false⟩, ⟨.named ⟨1⟩, true⟩], []⟩

def frameRegistry : Registry := (empty.alloc .global "Frame" (.defined (.aggregate frameClass))).2

def clockRegistry : Registry :=
  (frameRegistry.alloc .global "Clock" (.defined (.aggregate clockClass))).2

def headerRegistry : Registry :=
  (clockRegistry.alloc .global "Header" (.defined (.aggregate headerClass))).2

def packets : LayoutEnv where
  registry := (headerRegistry.alloc .global "Packet" (.defined (.aggregate packetClass))).2
  machine := Profile.ilp32.machine
  policy := .itaniumBaseline

theorem packets_built : packets.registry.Built := by
  have hframe : empty.define .global "Frame" (.aggregate frameClass) =
      .ok (⟨0⟩, frameRegistry) := by
    rfl
  have hclock : frameRegistry.define .global "Clock" (.aggregate clockClass) =
      .ok (⟨1⟩, clockRegistry) := by
    rfl
  have hheader : clockRegistry.define .global "Header" (.aggregate headerClass) =
      .ok (⟨2⟩, headerRegistry) := by
    rfl
  have hpacket : headerRegistry.define .global "Packet" (.aggregate packetClass) =
      .ok (⟨3⟩, packets.registry) := by
    rfl
  have hfirst : frameRegistry.Built := .define .empty (by decide) (by decide) hframe
  have hsecond : clockRegistry.Built := .define hfirst (by decide) (by decide) hclock
  have hthird : headerRegistry.Built := .define hsecond (by decide) (by decide) hheader
  exact .define hthird (by decide) (by decide) hpacket

def packetLayout : Layout where
  size := 32
  align := .eight
  nvSize := 24
  nvAlign := .eight
  fields :=
    [⟨"length", "short", 8, 2, .two, .whole⟩, ⟨"version", "int", 12, 4, .four, .bits 4 0 4⟩,
     ⟨"flags", "int", 12, 4, .four, .bits 4 4 20⟩, ⟨"sum", "double", 16, 8, .eight, .whole⟩]
  bases := [⟨"Frame", 0, 8, false⟩, ⟨"Clock", 24, 8, true⟩]
  slots := [⟨0, "Frame", false⟩]
  padding := [⟨10, 2⟩]
  virtualBases := [⟨1⟩]
  flags :=
    { polymorphic := true, dynamic := true, hasBitFields := true, hasVirtualBases := true }

theorem packetLayout_begins : packets.registry.Built ∧
    packets.layoutOf (.named ⟨3⟩) = (.ok packetLayout : Except LayoutError Layout) ∧
    ∃ l, packets.layoutOf (.named ⟨2⟩) = (.ok l : Except LayoutError Layout) ∧
      l.fields <+: packetLayout.fields ∧ l.bases.filter (!·.isVirtual) = [⟨"Frame", 0, 8, false⟩] ∧
      l.ownSlots.map (·.offset) = [0] ∧ l.nvSize ≤ 24 ∧ l.nvAlign.value ≤ 8 := by
  have hl : packets.layoutOf (.named ⟨3⟩) = (.ok packetLayout : Except LayoutError Layout) := by
    decide +kernel
  have hheader : packets.registry.bodyOf? (.named ⟨2⟩) = some ("Header", headerClass) := by
    rfl
  have hpacket : packets.registry.bodyOf? (.named ⟨3⟩) = some ("Packet", packetClass) := by
    rfl
  have hmembers : headerClass.members <+: packetClass.members := ⟨packetClass.members.drop 2, rfl⟩
  obtain ⟨l, hlaid, hfields, hbases, hslots, hsize, halign⟩ :=
    common_initial_sequence packets_built hheader hpacket rfl rfl rfl rfl hmembers hl
  exact ⟨packets_built, hl, l, hlaid, hfields, hbases, hslots, hsize, halign⟩

end LayoutEnv

end TypeLayout
