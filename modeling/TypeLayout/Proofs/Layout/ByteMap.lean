import TypeLayout.Profile
import TypeLayout.Proofs.Layout.Tiling
import TypeLayout.Proofs.Layout.Unfolding
/-! What the bytes of an aggregate hold. A struct or class is tiled by its own vtable slot, its
bases, its fields and its padding; a union holds everything at its start. -/

namespace TypeLayout

open Region (coverage Tiles)
open Registry

def Registry.bodyOf? (r : Registry) (d : Descriptor) : Option (String × Aggregate) :=
  match r.strip d with
  | .aggregate a => some (a.displayName, a)
  | .named id => match r.definition? id with
    | some (.aggregate a) => some (r.qualifiedName id, a)
    | _ => none
  | _ => none

theorem Registry.bodyOf?_cases {r : Registry} {d : Descriptor} {owner : String} {a : Aggregate}
    (hd : r.bodyOf? d = some (owner, a)) :
    (∃ id, r.strip d = .named id ∧ r.definition? id = some (.aggregate a) ∧
      owner = r.qualifiedName id) ∨ (r.strip d = .aggregate a ∧ owner = a.displayName) := by
  unfold bodyOf? at hd
  split at hd
  next a' hs =>
    cases hd
    exact Or.inr ⟨hs, rfl⟩
  next id hs =>
    split at hd
    next a' ha =>
      cases hd
      exact Or.inl ⟨id, hs, ha, rfl⟩
    next => cases hd
  next => cases hd

namespace LayoutEnv

variable {env : LayoutEnv} {g : Descend (Except LayoutError)} {trail : Trail} {a : Aggregate}
  {d : Descriptor} {owner : String} {l : Layout} {n : Nat}

theorem layoutOf_eq_aggregate (hr : env.registry.Founded)
    (hd : env.registry.bodyOf? d = some (owner, a)) : ∃ n trail,
    env.registry.Fits (n + 1) trail (.aggregate a) ∧
      (env.layoutOf d : Except LayoutError Layout) =
        env.aggregate (env.layoutWithin n) trail a owner ∧
      ∀ f ∈ trail, (env.layoutOf (.named f.id) : Except LayoutError Layout) = env.layoutOf d := by
  rw [← layoutOf_strip hr d]
  obtain ⟨n, hf, hstep⟩ := env.layoutOf_eq_step (env.registry.strip d)
  rcases bodyOf?_cases hd with ⟨id, hs, ha, rfl⟩ | ⟨hs, rfl⟩
  · rw [hs] at hf hstep ⊢
    refine ⟨n, [⟨id, ""⟩], hf.body ha rfl, ?_, ?_⟩
    · rw [hstep]
      have hdef := definition_eq_ok.mpr ha
      simp only [layoutStep, ofExcept_eq, hdef]
      change (env.namedAggregate (env.layoutWithin n) [] id a : Except LayoutError Layout) = _
      rw [namedAggregate_plain]
      rfl
    · intro f hmem
      obtain rfl := List.mem_singleton.mp hmem
      rfl
  · rw [hs] at hf hstep ⊢
    exact ⟨n, [], hf, hstep, fun f hmem => by cases hmem⟩

theorem aggregate_of_layoutOf (hr : env.registry.Founded)
    (hd : env.registry.bodyOf? d = some (owner, a))
    (h : env.layoutOf d = (.ok l : Except LayoutError Layout)) :
    ∃ n trail, env.aggregate (env.layoutWithin n) trail a owner =
      (.ok l : Except LayoutError Layout) := by
  obtain ⟨n, trail, -, haggregate, -⟩ := layoutOf_eq_aggregate hr hd
  exact ⟨n, trail, haggregate.symm.trans h⟩

theorem recordRun_of_layoutOf (hr : env.registry.Founded)
    (hd : env.registry.bodyOf? d = some (owner, a)) (hu : a.kind.isUnion = false)
    (h : env.layoutOf d = (.ok l : Except LayoutError Layout)) :
    ∃ n trail, ∃ run : RecordRun env (env.layoutWithin n) trail a owner, l = run.layout := by
  obtain ⟨n, trail, hagg⟩ := aggregate_of_layoutOf hr hd h
  rw [aggregate_plain, hu] at hagg
  exact ⟨n, trail, record_ok hagg⟩

def lends (env : LayoutEnv) (b : BaseSpec) : Bool :=
  !b.isVirtual && match (env.layoutOf b.type : Except LayoutError Layout) with
    | .ok l => l.flags.dynamic
    | .error _ => false

def ownSlots (env : LayoutEnv) (owner : String) (a : Aggregate) (l : Layout) : List VtableSlot :=
  if l.flags.dynamic && !a.bases.any env.lends then [⟨0, owner, false⟩] else []

def contents (env : LayoutEnv) (owner : String) (a : Aggregate) (l : Layout) : List Region :=
  placed env.machine (env.ownSlots owner a l) l.bases l.fields

theorem Lays.layoutOf_eq (hr : env.registry.Founded) {b : BaseSpec} {laid : LaidBase}
    (h : env.Lays (env.layoutWithin n) trail b laid) :
    env.layoutOf b.type = (.ok laid.layout : Except LayoutError Layout) := by
  rw [← layoutOf_strip hr, baseId_eq_ok.mp h.id]
  exact layoutOf_of_ok hr h.layout

theorem Lays.lends (hr : env.registry.Founded) {b : BaseSpec} {laid : LaidBase}
    (h : env.Lays (env.layoutWithin n) trail b laid) :
    env.lends b = (!laid.isVirtual && laid.layout.flags.dynamic) := by
  rw [LayoutEnv.lends, h.layoutOf_eq hr, h.isVirtual]

theorem primary?_isNone (hr : env.registry.Founded) {bs : List BaseSpec} {laid : List LaidBase}
    (h : List.Forall₂ (env.Lays (env.layoutWithin n) trail) bs laid) :
    (LaidBase.primary? laid).isNone = !bs.any env.lends := by
  induction h with
  | nil => rfl
  | cons hb _ ih =>
    rw [LaidBase.primary?, List.find?_cons, List.any_cons, hb.lends hr]
    split
    next hp => rw [hp]; rfl
    next hp => rw [hp]; exact ih

theorem RecordRun.introduced_eq (hr : env.registry.Founded)
    (run : RecordRun env (env.layoutWithin n) trail a owner) :
    introduced owner (a.flagsOver run.bases) run.bases = env.ownSlots owner a run.layout := by
  unfold introduced ownSlots
  rw [primary?_isNone hr (laidBases_ok run.laid)]
  rfl

theorem RecordRun.tiles (hr : env.registry.Founded)
    (run : RecordRun env (env.layoutWithin n) trail a owner) :
    (run.layout.flags.empty = true ∧ (∀ r ∈ env.contents owner a run.layout, r.size = 0) →
      run.layout.size = 1 ∧ run.layout.padding = []) ∧
    (¬ (run.layout.flags.empty = true ∧ ∀ r ∈ env.contents owner a run.layout, r.size = 0) →
      Tiles (env.contents owner a run.layout ++ run.layout.padding) run.layout.size) := by
  obtain ⟨htiled, hend⟩ := run.final_tiled
  rw [run.introduced_eq hr] at htiled
  have hcov : ∀ x, coverage (env.contents owner a run.layout) x +
      coverage run.layout.padding x = if x < run.final.offset then 1 else 0 := htiled.coverage_eq
  rcases hend with ⟨hempty, hzero, hsize⟩ | ⟨hsome, hstop⟩
  · have hnone : ∀ x, coverage (env.contents owner a run.layout) x +
        coverage run.layout.padding x = 0 := by
      intro x
      rw [hcov, hzero, if_neg (Nat.not_lt_zero x)]
    have hcontents : ∀ r ∈ env.contents owner a run.layout, r.size = 0 := fun r hr' =>
      Region.size_eq_zero_of_coverage (fun x => (Nat.add_eq_zero_iff.mp (hnone x)).1) hr'
    have hpadding : run.layout.padding = [] := by
      refine List.eq_nil_iff_forall_not_mem.mpr fun r hr' => ?_
      have hpos := (htiled.padding_pos r hr').2
      have hz := Region.size_eq_zero_of_coverage
        (fun x => (Nat.add_eq_zero_iff.mp (hnone x)).2) hr'
      omega
    exact ⟨fun _ => ⟨hsize, hpadding⟩, fun h => absurd ⟨hempty, hcontents⟩ h⟩
  · refine ⟨fun ⟨hempty, hcontents⟩ => ?_, fun _ => Region.tiles_of_coverage fun x => ?_⟩
    · -- an offset that is not zero has a first byte, which padding never takes
      have hpos : 0 < run.final.offset := Nat.pos_of_ne_zero fun hz => hsome ⟨hempty, hz⟩
      have hfirst := hcov 0
      rw [if_pos hpos] at hfirst
      rcases Nat.eq_zero_or_pos (coverage (env.contents owner a run.layout) 0) with hz | hc
      · have hp : 0 < coverage run.layout.padding 0 := by omega
        obtain ⟨r, hr', hcov⟩ := Region.coverage_pos.mp hp
        have hoff := (htiled.padding_pos r hr').1
        exact absurd hcov.1 (by omega)
      · obtain ⟨r, hr', hcov⟩ := Region.coverage_pos.mp hc
        have hz := hcontents r hr'
        have hlt := hcov.2
        rw [Region.stop, hz] at hlt
        have hge := hcov.1
        omega
    · rw [Region.coverage_append, hcov, hstop]
      rfl

def largest (fields : List Field) : Nat := fields.foldl (fun n f => max n f.size) 0

theorem largest_concat (fields : List Field) (f : Field) :
    largest (fields ++ [f]) = max (largest fields) f.size := by
  simp [largest]

structure Overlaid (o : Overlay) : Prop where
  offset_eq : ∀ f ∈ o.fields, f.offset = 0
  size_eq : o.size = largest o.fields

theorem Overlaid.add {o : Overlay} (h : Overlaid o) {f : Field} (hf : f.offset = 0) :
    Overlaid (o.add f) where
  offset_eq f' hf' := by
    rcases List.mem_append.mp hf' with hf' | hf'
    · exact h.offset_eq f' hf'
    · rw [List.mem_singleton.mp hf']
      exact hf
  size_eq := by
    change max o.size f.size = largest (o.fields ++ [f])
    rw [largest_concat, h.size_eq]

theorem overlayMembers_overlaid {xs : List Member} {o o' : Overlay} (h : Overlaid o)
    (hok : env.overlayMembers g trail xs o = .ok o') : Overlaid o' := by
  induction xs generalizing o with
  | nil =>
    cases hok
    exact h
  | cons x xs ih =>
    obtain ⟨o₁, hx, hok⟩ := bind_eq_ok.mp hok
    refine ih ?_ hok
    unfold overlayMember at hx
    split at hx
    · obtain ⟨unit, -, hx⟩ := bind_eq_ok.mp hx
      split at hx
      · obtain rfl := pure_eq_ok.mp hx
        exact h
      · obtain rfl := pure_eq_ok.mp hx
        exact h.add rfl
    · obtain ⟨le, -, hx⟩ := bind_eq_ok.mp hx
      obtain rfl := pure_eq_ok.mp hx
      exact h.add rfl

theorem union_overlaid (h : env.union g trail a owner = .ok l) :
    (∀ f ∈ l.fields, f.offset = 0) ∧
    l.padding = if l.flags.empty = false ∧ largest l.fields < l.size then
      [⟨largest l.fields, l.size - largest l.fields⟩] else [] := by
  rcases union_ok h with ⟨-, rfl⟩ | ⟨-, o, ho, hf⟩
  · exact ⟨fun f hf => (by cases hf), rfl⟩
  · have hstart : Overlaid {} := ⟨fun f hf => (by cases hf), rfl⟩
    have hover := overlayMembers_overlaid hstart ho
    unfold Overlay.finish at hf
    split at hf
    · cases hf
    next size hs =>
      obtain rfl := Except.ok.inj hf
      refine ⟨hover.offset_eq, ?_⟩
      dsimp only
      rw [← hover.size_eq]
      simp [Layout.scalar]

/-- The bytes of a struct or class are its vtable slot, its bases, its plain fields, its distinct
storage units and its padding, each taken once; only a class in which nothing takes a byte is given
one without holding it. The fields of a union overlap at its start, and what its largest field does
not reach is padding. -/
theorem layout_tiled (hr : env.registry.Built) (hd : env.registry.bodyOf? d = some (owner, a))
    (hl : env.layoutOf d = (.ok l : Except LayoutError Layout)) :
    (a.kind.isUnion = false →
      (∀ s ∈ env.ownSlots owner a l, s ∈ l.slots) ∧
      (l.flags.empty = true ∧ (∀ r ∈ env.contents owner a l, r.size = 0) →
        l.size = 1 ∧ l.padding = []) ∧
      (¬ (l.flags.empty = true ∧ ∀ r ∈ env.contents owner a l, r.size = 0) →
        Tiles (env.contents owner a l ++ l.padding) l.size)) ∧
    (a.kind.isUnion = true →
      (∀ f ∈ l.fields, f.offset = 0) ∧
      l.padding = if l.flags.empty = false ∧ largest l.fields < l.size then
        [⟨largest l.fields, l.size - largest l.fields⟩] else []) := by
  have hfounded := hr.wellFormed.toFounded
  obtain ⟨n, trail, hagg⟩ := aggregate_of_layoutOf hfounded hd hl
  rw [aggregate_plain] at hagg
  refine ⟨fun hu => ?_, fun hu => ?_⟩
  · rw [if_neg (by simp [hu])] at hagg
    obtain ⟨run, rfl⟩ := record_ok hagg
    refine ⟨fun s hs => ?_, run.tiles hfounded⟩
    rw [← run.introduced_eq hfounded] at hs
    exact (List.mergeSort_perm _ _).mem_iff.mpr (run.final_tiled.1.slots s hs)
  · rw [if_pos hu] at hagg
    exact union_overlaid hagg

def polymorphicBase : Aggregate :=
  ⟨.classType, some "Base", [⟨"tag", .fundamental .char, none⟩], [], ["draw"]⟩

def packedDerived : Aggregate :=
  ⟨.classType, some "Derived",
    [⟨"lo", .fundamental .int, some 3⟩, ⟨"mid", .fundamental .int, some 5⟩,
     ⟨"hi", .fundamental .int, some 30⟩, ⟨"last", .fundamental .short, none⟩],
    [⟨.named ⟨0⟩, false⟩], []⟩

def derived : LayoutEnv where
  registry :=
    (alloc (empty.alloc .global "Base" (.defined (.aggregate polymorphicBase))).2 .global "Derived"
      (.defined (.aggregate packedDerived))).2
  machine := Profile.lp64.machine
  policy := .itaniumBaseline

theorem derived_built : derived.registry.Built := by
  have hbase : empty.define .global "Base" (.aggregate polymorphicBase) =
      .ok (empty.alloc .global "Base" (.defined (.aggregate polymorphicBase))) := by
    rfl
  have hderived : define (empty.alloc .global "Base" (.defined (.aggregate polymorphicBase))).2
      .global "Derived" (.aggregate packedDerived) = .ok (⟨1⟩, derived.registry) := by
    rfl
  refine .define (.define .empty (by decide) ?_ hbase) (by decide) ?_ hderived
  · intro j hj
    cases hj
  · intro j hj
    obtain rfl := List.mem_singleton.mp hj
    decide

def derivedLayout : Layout where
  size := 32
  align := .eight
  nvSize := 32
  nvAlign := .eight
  fields :=
    [⟨"lo", "int", 16, 4, .four, .bits 4 0 3⟩, ⟨"mid", "int", 16, 4, .four, .bits 4 3 5⟩,
     ⟨"hi", "int", 20, 4, .four, .bits 4 0 30⟩, ⟨"last", "short", 24, 2, .two, .whole⟩]
  bases := [⟨"Base", 0, 16, false⟩]
  slots := [⟨0, "Base", false⟩]
  padding := [⟨26, 6⟩]
  flags := { polymorphic := true, dynamic := true, hasBitFields := true }

theorem derivedLayout_tiled : derived.registry.Built ∧
    derived.registry.bodyOf? (.named ⟨1⟩) = some ("Derived", packedDerived) ∧
    derived.layoutOf (.named ⟨1⟩) = (.ok derivedLayout : Except LayoutError Layout) ∧
    Tiles [⟨0, 16⟩, ⟨24, 2⟩, ⟨16, 4⟩, ⟨20, 4⟩, ⟨26, 6⟩] 32 := by
  have hd : derived.registry.bodyOf? (.named ⟨1⟩) = some ("Derived", packedDerived) := by
    rfl
  have hl : derived.layoutOf (.named ⟨1⟩) = (.ok derivedLayout : Except LayoutError Layout) := by
    decide +kernel
  have hsome : ¬ (derivedLayout.flags.empty = true ∧
      ∀ r ∈ derived.contents "Derived" packedDerived derivedLayout, r.size = 0) :=
    fun h => by cases h.1
  have hcontents : derived.contents "Derived" packedDerived derivedLayout ++ derivedLayout.padding =
      [⟨0, 16⟩, ⟨24, 2⟩, ⟨16, 4⟩, ⟨20, 4⟩, ⟨26, 6⟩] := by
    decide +kernel
  refine ⟨derived_built, hd, hl, ?_⟩
  rw [← hcontents]
  exact ((layout_tiled derived_built hd hl).1 rfl).2.2 hsome

end LayoutEnv

end TypeLayout
