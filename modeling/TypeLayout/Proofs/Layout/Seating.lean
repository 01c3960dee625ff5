import Mathlib
import TypeLayout.Proofs.Layout.Regular
/-! Where the parts of a type sit. The entries for bases follow the declaration and then the list of
virtual bases; each lies at a multiple of the alignment that its own layout has as a base. -/

namespace TypeLayout

open Registry

theorem forall₂_comp {α β γ : Type} {R : α → β → Prop} {S : γ → β → Prop} {T : α → γ → Prop}
    (hT : ∀ a b c, R a b → S c b → T a c) {as : List α} {bs : List β} {cs : List γ}
    (h : List.Forall₂ R as bs) (h' : List.Forall₂ S cs bs) : List.Forall₂ T as cs := by
  induction h generalizing cs with
  | nil =>
    cases h'
    exact .nil
  | cons hab _ ih =>
    cases h' with
    | cons hcb h' => exact .cons (hT _ _ _ hab hcb) (ih h')

namespace LayoutEnv

variable {env : LayoutEnv} {trail : Trail} {a : Aggregate} {x : Descriptor} {owner : String}
  {l : Layout} {n : Nat}

/-- The bases of a type in the order of their entries in its layout: those that are not virtual,
then all the virtual ones of the hierarchy. -/
def seatedBases (env : LayoutEnv) (x : Descriptor) (l : Layout) : List BaseSpec :=
  match env.registry.bodyOf? x with
  | some (_, a) =>
    if a.kind.isUnion then []
    else a.bases.filter (!·.isVirtual) ++ l.virtualBases.map fun v => ⟨.named v, true⟩
  | none => []

theorem seatedBases_eq (hx : env.registry.bodyOf? x = some (owner, a))
    (hu : a.kind.isUnion = false) : env.seatedBases x l =
      a.bases.filter (!·.isVirtual) ++ l.virtualBases.map fun v => ⟨.named v, true⟩ := by
  simp [seatedBases, hx, hu]

/-- An entry for a base, at a multiple of the alignment that the base has as a base. -/
structure Seats (env : LayoutEnv) (l : Layout) (entry : BaseSubobject) (b : BaseSpec) : Prop where
  name : ∃ id, env.registry.strip b.type = .named id ∧ entry.name = env.registry.qualifiedName id
  isVirtual : entry.isVirtual = b.isVirtual
  aligned : ∃ base, env.layoutOf b.type = (.ok base : Except LayoutError Layout) ∧
    base.nvAlign.value ∣ entry.offset ∧ base.nvAlign.value ∣ l.align.value

theorem Lays.seats (hr : env.registry.Founded) {b : BaseSpec} {laid : LaidBase}
    {entry : BaseSubobject} {stop : Nat} (h : env.Lays (env.layoutWithin n) trail b laid)
    (hb : LaidBase.Bears l.align stop entry laid) : env.Seats l entry b where
  name := ⟨laid.id, baseId_eq_ok.mp h.id, hb.name.trans h.name⟩
  isVirtual := hb.isVirtual.trans h.isVirtual
  aligned := ⟨laid.layout, h.layoutOf_eq hr, hb.sits.offset_dvd, hb.sits.align_dvd⟩

theorem LaysVirtual.seats (hr : env.registry.Founded) {v : TypeId} {laid : LaidBase}
    {entry : BaseSubobject} {stop : Nat} (h : env.LaysVirtual (env.layoutWithin n) trail v laid)
    (ht : ¬ env.registry.IsTypedef v) (hb : LaidBase.Bears l.align stop entry laid) :
    env.Seats l entry ⟨.named v, true⟩ where
  name := ⟨v, strip_of_not_typedef (fun id hid => by cases hid; exact ht), hb.name.trans h.name⟩
  isVirtual := hb.isVirtual.trans h.isVirtual
  aligned := ⟨laid.layout, layoutOf_of_ok hr h.layout, hb.sits.offset_dvd, hb.sits.align_dvd⟩

theorem filter_lays {g : Descend (Except LayoutError)} {bs : List BaseSpec} {laid : List LaidBase}
    (h : List.Forall₂ (env.Lays g trail) bs laid) :
    List.Forall₂ (env.Lays g trail) (bs.filter (!·.isVirtual)) (laid.filter (!·.isVirtual)) := by
  refine List.rel_filter (fun b x hb => ?_) h
  change (!b.isVirtual) = true ↔ (!x.isVirtual) = true
  rw [hb.isVirtual]

theorem RecordRun.seats (hr : env.registry.Founded) (hu : a.kind.isUnion = false)
    (run : RecordRun env (env.layoutWithin n) trail a owner) :
    List.Forall₂ (env.Seats run.layout) run.layout.bases
      (a.bases.filter (!·.isVirtual) ++
        run.layout.virtualBases.map fun v => ⟨.named v, true⟩) := by
  obtain ⟨-, -, -, -, vs, hvs, halign⟩ := run.final_aligned (env.layoutWithin_regular n)
  have hfilter := filter_lays (laidBases_ok run.laid)
  have hheld := layoutWithin_listsHeld env hr n
  have hvirtual : ∀ v ∈ LaidBase.virtualBases run.bases, ¬ env.registry.IsTypedef v :=
    fun v hv => (virtualBases_held hr hheld hu run.laid hv).2
  have hlisted := (List.forall₂_and_left _ _).mpr ⟨hvirtual, hvs⟩
  have hseats : List.Forall₂ (fun b laid => ∀ entry,
      LaidBase.Bears run.layout.align run.final.offset entry laid → env.Seats run.layout entry b)
      (a.bases.filter (!·.isVirtual) ++ run.layout.virtualBases.map fun v => ⟨.named v, true⟩)
      (run.bases.filter (!·.isVirtual) ++ vs) := by
    refine List.rel_append (hfilter.imp ?_) (List.forall₂_map_left_iff.mpr (hlisted.imp ?_))
    · exact fun b laid hl entry hb => hl.seats hr hb
    · exact fun v laid hl entry hb => hl.2.seats hr hl.1 hb
  exact forall₂_comp (fun entry _ _ hb hs => hs entry hb) halign.bases hseats

theorem union_bases {g : Descend (Except LayoutError)} (h : env.union g trail a owner = .ok l) :
    l.bases = [] := by
  rcases union_ok h with ⟨-, rfl⟩ | ⟨-, o, -, hf⟩
  · rfl
  · unfold Overlay.finish at hf
    split at hf
    · cases hf
    · cases hf
      rfl

theorem layoutOf_bases (hr : env.registry.Founded) (hd : env.registry.bodyOf? x = none)
    (hl : env.layoutOf x = (.ok l : Except LayoutError Layout)) : l.bases = [] := by
  rw [← layoutOf_strip hr] at hl
  unfold layoutOf at hl
  generalize env.registry.layoutFuel (env.registry.strip x) = n at hl
  unfold bodyOf? at hd
  generalize hs : env.registry.strip x = y at hl hd
  cases n with
  | zero => cases hl
  | succ n =>
    cases layoutStep_ok hl with
    | inline _ => cases hd
    | typedef ht _ => exact absurd ⟨_, ht⟩ (hr.strip_not_typedef hs)
    | body hb _ _ =>
      dsimp only at hd
      rw [hb] at hd
      cases hd
    | _ => rfl

theorem layoutOf_seats (hr : env.registry.Founded)
    (hl : env.layoutOf x = (.ok l : Except LayoutError Layout)) :
    List.Forall₂ (env.Seats l) l.bases (env.seatedBases x l) := by
  unfold seatedBases
  split
  next owner a hd =>
    obtain ⟨n, trail, hagg⟩ := aggregate_of_layoutOf hr hd hl
    rw [aggregate_plain] at hagg
    split at hagg
    next hu =>
      rw [if_pos hu, union_bases hagg]
      exact .nil
    next hu =>
      rw [if_neg hu]
      obtain ⟨run, rfl⟩ := record_ok hagg
      exact run.seats hr (by simpa using hu)
  next hd =>
    rw [layoutOf_bases hr hd hl]
    exact .nil

/-- Alignments are powers of two that the sizes are multiples of, and everything in a layout sits at
a multiple of its own alignment, which divides that of the layout. What is not in a virtual base
ends within the non-virtual part. -/
theorem layout_aligned (hr : env.registry.Built)
    (hl : env.layoutOf x = (.ok l : Except LayoutError Layout)) :
    ((∃ k, l.align.value = 2 ^ k) ∧ (∃ k, l.nvAlign.value = 2 ^ k) ∧
      l.nvAlign.value ∣ l.align.value) ∧
    (l.align.value ∣ l.size ∧ l.nvAlign.value ∣ l.nvSize ∧ l.nvSize ≤ l.size) ∧
    (∀ f ∈ l.fields,
      f.align.value ∣ f.offset ∧ f.align.value ∣ l.align.value ∧ f.stop ≤ l.nvSize) ∧
    (List.Forall₂ (env.Seats l) l.bases (env.seatedBases x l) ∧
      ∀ b ∈ l.bases, b.isVirtual = false → b.stop ≤ l.nvSize) ∧
    (∀ s ∈ l.slots,
      env.machine.pointer.value ∣ s.offset ∧ env.machine.pointer.value ∣ l.align.value ∧
      (s.inVirtualBase = false → s.offset + env.machine.pointerSize ≤ l.nvSize)) := by
  have hregular : l.Regular env.machine := layoutWithin_regular env _ [] x l hl
  refine ⟨⟨⟨_, rfl⟩, ⟨_, rfl⟩, hregular.nvAlign_dvd⟩,
    ⟨hregular.size_dvd, hregular.nvSize_dvd, hregular.nvSize_le⟩, fun f hf => ?_,
    ⟨layoutOf_seats hr.wellFormed.toFounded hl, hregular.base⟩, fun s hs => ?_⟩
  · have hsits := hregular.field f hf
    exact ⟨hsits.offset_dvd, hsits.align_dvd, hsits.stop_le⟩
  · have hsits := hregular.slot s hs
    exact ⟨hsits.offset_dvd, hsits.align_dvd, fun hv => (hregular.ownSlot s hs hv).stop_le⟩

def streamClass : Aggregate :=
  ⟨.classType, some "Stream", [⟨"state", .fundamental .double, none⟩], [], []⟩

def inputClass : Aggregate :=
  ⟨.classType, some "Input", [⟨"mode", .fundamental .char, none⟩], [⟨.named ⟨0⟩, true⟩], []⟩

def fileClass : Aggregate :=
  ⟨.classType, some "File",
    [⟨"id", .fundamental .int, none⟩, ⟨"open", .fundamental .int, some 1⟩],
    [⟨.named ⟨1⟩, false⟩], []⟩

def streamRegistry : Registry :=
  (empty.alloc .global "Stream" (.defined (.aggregate streamClass))).2

def inputRegistry : Registry :=
  (streamRegistry.alloc .global "Input" (.defined (.aggregate inputClass))).2

def streams : LayoutEnv where
  registry := (inputRegistry.alloc .global "File" (.defined (.aggregate fileClass))).2
  machine := Profile.ilp32.machine
  policy := .itaniumBaseline

theorem streams_built : streams.registry.Built := by
  have hstream : empty.define .global "Stream" (.aggregate streamClass) =
      .ok (⟨0⟩, streamRegistry) := by
    rfl
  have hinput : streamRegistry.define .global "Input" (.aggregate inputClass) =
      .ok (⟨1⟩, inputRegistry) := by
    rfl
  have hfile : inputRegistry.define .global "File" (.aggregate fileClass) =
      .ok (⟨2⟩, streams.registry) := by
    rfl
  have hfirst : streamRegistry.Built := .define .empty (by decide) (by decide) hstream
  have hsecond : inputRegistry.Built := .define hfirst (by decide) (by decide) hinput
  exact .define hsecond (by decide) (by decide) hfile

def fileLayout : Layout where
  size := 24
  align := .eight
  nvSize := 16
  nvAlign := .four
  fields := [⟨"id", "int", 8, 4, .four, .whole⟩, ⟨"open", "int", 12, 4, .four, .bits 4 0 1⟩]
  bases := [⟨"Input", 0, 8, false⟩, ⟨"Stream", 16, 8, true⟩]
  slots := [⟨0, "Input", false⟩]
  virtualBases := [⟨0⟩]
  flags := { dynamic := true, hasBitFields := true, hasVirtualBases := true }

theorem fileLayout_aligned : streams.registry.Built ∧
    streams.layoutOf (.named ⟨2⟩) = (.ok fileLayout : Except LayoutError Layout) ∧
    fileLayout.nvAlign.value ∣ fileLayout.align.value ∧ fileLayout.align.value ∣ fileLayout.size ∧
    List.Forall₂ (streams.Seats fileLayout) [⟨"Input", 0, 8, false⟩, ⟨"Stream", 16, 8, true⟩]
      [⟨.named ⟨1⟩, false⟩, ⟨.named ⟨0⟩, true⟩] := by
  have hl : streams.layoutOf (.named ⟨2⟩) = (.ok fileLayout : Except LayoutError Layout) := by
    decide +kernel
  have haligned := layout_aligned streams_built hl
  have hseated : streams.seatedBases (.named ⟨2⟩) fileLayout =
      [⟨.named ⟨1⟩, false⟩, ⟨.named ⟨0⟩, true⟩] := by
    rfl
  rw [← hseated]
  exact ⟨streams_built, hl, haligned.1.2.2, haligned.2.1.1, haligned.2.2.2.1.1⟩

end LayoutEnv

end TypeLayout
