import TypeLayout.Proofs.Layout.Seating
/-! The hierarchy of a class. What a layout says about it was put together from the layouts of the
direct bases, whose lists of virtual bases name every class once already; it is what a walk over all
base edges meets. -/

namespace TypeLayout

open Relation (ReflTransGen)

namespace LaidBase

variable {ids acc : List TypeId}

theorem insertNew_of_mem {id : TypeId} (h : id ∈ ids) : insertNew ids id = ids := by
  simp [insertNew, h]

theorem insertNew_of_not_mem {id : TypeId} (h : id ∉ ids) : insertNew ids id = ids ++ [id] := by
  simp [insertNew, h]

theorem foldl_insertNew_insertNew (acc ids : List TypeId) (id : TypeId) :
    (insertNew ids id).foldl insertNew acc = insertNew (ids.foldl insertNew acc) id := by
  by_cases h : id ∈ ids
  · rw [insertNew_of_mem h, insertNew_of_mem (mem_foldl_insertNew.mpr (Or.inr h))]
  · rw [insertNew_of_not_mem h, List.foldl_append]
    rfl

theorem foldl_insertNew_foldl (acc ids js : List TypeId) :
    (js.foldl insertNew ids).foldl insertNew acc =
      js.foldl insertNew (ids.foldl insertNew acc) := by
  induction js generalizing ids with
  | nil => rfl
  | cons j js ih => rw [List.foldl_cons, ih, foldl_insertNew_insertNew, List.foldl_cons]

theorem foldl_insertNew_eq (ids acc : List TypeId) :
    ids.foldl insertNew acc = acc ++ (ids.filter fun id => !acc.contains id).eraseDups := by
  induction ids generalizing acc with
  | nil => simp
  | cons id ids ih =>
    rw [List.foldl_cons, ih]
    by_cases h : id ∈ acc
    · simp [insertNew_of_mem h, h]
    · have hrest : ids.filter (fun j => !(acc ++ [id]).contains j) =
          (ids.filter fun j => !acc.contains j).filter fun j => !j == id := by
        rw [List.filter_filter]
        congr 1
        funext j
        by_cases hj : j = id <;> simp [hj]
      rw [insertNew_of_not_mem h, hrest, List.filter_cons_of_pos (by simpa using h),
        List.eraseDups_cons]
      simp

theorem foldl_insertNew_nil (ids : List TypeId) : ids.foldl insertNew [] = ids.eraseDups := by
  simp [foldl_insertNew_eq]

end LaidBase

structure BaseEdge where
  target : TypeId
  isVirtual : Bool

def virtualTargets (edges : List BaseEdge) : List TypeId :=
  (edges.filter (·.isVirtual)).map (·.target)

namespace Registry

def basesOf (r : Registry) (d : Descriptor) : List BaseSpec :=
  match r.bodyOf? d with
  | some (_, a) => if a.kind.isUnion then [] else a.bases
  | none => []

def declaresVirtual (r : Registry) (d : Descriptor) : Bool :=
  match r.bodyOf? d with
  | some (_, a) => !a.kind.isUnion && a.declaresVirtual
  | none => false

def Derives (r : Registry) (d x : Descriptor) : Prop := ∃ b ∈ r.basesOf d, x = b.type

/-- The base edges met from a list of bases, in the order of declaration and depth first: those
below a base come between its own edge and that of the next base. -/
inductive Walk (r : Registry) : List BaseSpec → List BaseEdge → Prop
  | nil : Walk r [] []
  | cons {b : BaseSpec} {bs : List BaseSpec} {id : TypeId} {below rest : List BaseEdge} :
    r.strip b.type = .named id → Walk r (r.basesOf (.named id)) below → Walk r bs rest →
    Walk r (b :: bs) (⟨id, b.isVirtual⟩ :: (below ++ rest))

variable {r : Registry} {d d' : Descriptor} {id : TypeId} {bs : List BaseSpec}
  {edges edges' : List BaseEdge}

theorem Walk.unique (h : r.Walk bs edges) (h' : r.Walk bs edges') : edges' = edges := by
  induction h generalizing edges' with
  | nil =>
    cases h'
    rfl
  | cons hid _ _ ihbelow ihrest =>
    cases h' with
    | cons hid' hbelow hrest =>
      obtain rfl := Descriptor.named.inj (hid.symm.trans hid')
      rw [ihbelow hbelow, ihrest hrest]

theorem bodyOf?_of_strip (h : r.strip d = r.strip d') : r.bodyOf? d = r.bodyOf? d' := by
  simp only [bodyOf?, h]

theorem strip_of_ne_named (h : ∀ id, d ≠ .named id) : r.strip d = d :=
  strip_of_not_typedef fun id hid => absurd hid (h id)

theorem strip_of_definition? {x : Definition} (h : r.definition? id = some x)
    (hx : ∀ t, x ≠ .typedef t) : r.strip (.named id) = .named id := by
  apply strip_of_not_typedef
  rintro j hj ⟨t, ht⟩
  cases hj
  rw [h] at ht
  exact hx t (Option.some.inj ht)

theorem bodyOf?_inline (r : Registry) (a : Aggregate) :
    r.bodyOf? (.aggregate a) = some (a.displayName, a) := by
  have hstrip : r.strip (.aggregate a) = .aggregate a := strip_of_ne_named (by simp)
  simp [bodyOf?, hstrip]

theorem bodyOf?_body {a : Aggregate} (h : r.definition? id = some (.aggregate a)) :
    r.bodyOf? (.named id) = some (r.qualifiedName id, a) := by
  simp [bodyOf?, strip_of_definition? h (by simp), h]

theorem bodyOf?_enum {e : EnumType} (h : r.definition? id = some (.enum e)) :
    r.bodyOf? (.named id) = none := by
  simp [bodyOf?, strip_of_definition? h (by simp), h]

theorem bodyOf?_plain (h : ∀ id, d ≠ .named id) (h' : ∀ a, d ≠ .aggregate a) :
    r.bodyOf? d = none := by
  rw [bodyOf?, strip_of_ne_named h]
  cases d with
  | named id => exact absurd rfl (h id)
  | aggregate a => exact absurd rfl (h' a)
  | _ => rfl

theorem Founded.bodyOf?_named (hr : r.Founded) (h : r.strip d = .named id) :
    r.bodyOf? (.named id) = r.bodyOf? d := by
  apply bodyOf?_of_strip
  rw [h]
  apply strip_of_not_typedef
  rintro j hj ht
  cases hj
  exact hr.strip_not_typedef h ht

def InheritsVirtual (r : Registry) (d : Descriptor) : Prop :=
  ∃ x, ReflTransGen r.Derives d x ∧ r.declaresVirtual x = true

theorem inheritsVirtual_iff : r.InheritsVirtual d ↔
    r.declaresVirtual d = true ∨ ∃ b ∈ r.basesOf d, r.InheritsVirtual b.type := by
  constructor
  · rintro ⟨x, hx, hv⟩
    rcases hx.cases_head with rfl | ⟨y, ⟨b, hb, rfl⟩, hy⟩
    · exact Or.inl hv
    · exact Or.inr ⟨b, hb, x, hy, hv⟩
  · rintro (hv | ⟨b, hb, x, hx, hv⟩)
    · exact ⟨d, .refl, hv⟩
    · exact ⟨x, .head ⟨b, hb, rfl⟩ hx, hv⟩

theorem inheritsVirtual_congr (h : r.bodyOf? d = r.bodyOf? d') :
    r.InheritsVirtual d ↔ r.InheritsVirtual d' := by
  rw [inheritsVirtual_iff, inheritsVirtual_iff, declaresVirtual, declaresVirtual, basesOf, basesOf,
    h]

end Registry

namespace LayoutEnv

open Registry

variable {env : LayoutEnv} {g : Descend (Except LayoutError)} {trail : Trail} {a : Aggregate}
  {d d' : Descriptor} {owner name : String} {l : Layout} {n : Nat} {bs : List BaseSpec}
  {laid : List LaidBase}

structure Inherits (env : LayoutEnv) (d : Descriptor) (l : Layout) : Prop where
  virtualBases : ∃ edges, env.registry.Walk (env.registry.basesOf d) edges ∧
    l.virtualBases = (virtualTargets edges).eraseDups
  polymorphic : l.flags.polymorphic = true ↔ env.registry.InheritsVirtual d

theorem Inherits.congr (h : env.Inherits d l)
    (hd : env.registry.bodyOf? d' = env.registry.bodyOf? d) : env.Inherits d' l where
  virtualBases := by
    rw [basesOf, hd]
    exact h.virtualBases
  polymorphic := h.polymorphic.trans (inheritsVirtual_congr hd.symm)

theorem inherits_of_no_bases (hb : env.registry.basesOf d = [])
    (hd : env.registry.declaresVirtual d = false) (hv : l.virtualBases = [])
    (hp : l.flags.polymorphic = false) : env.Inherits d l where
  virtualBases := by
    rw [hb, hv]
    exact ⟨[], .nil, rfl⟩
  polymorphic := by
    rw [inheritsVirtual_iff, hp, hd, hb]
    simp

theorem laidBases_walk (h : List.Forall₂ (env.Lays g trail) bs laid)
    (hg : ∀ x ∈ laid, env.Inherits (.named x.id) x.layout) :
    ∃ edges, env.registry.Walk bs edges ∧ ∀ acc,
      (laid.flatMap LaidBase.brings).foldl LaidBase.insertNew acc =
        (virtualTargets edges).foldl LaidBase.insertNew acc := by
  induction h with
  | nil => exact ⟨[], .nil, fun _ => rfl⟩
  | @cons b x bs laid hb _ ih =>
    obtain ⟨below, hbelow, hlist⟩ := (hg x List.mem_cons_self).virtualBases
    obtain ⟨rest, hrest, hacc⟩ := ih fun y hy => hg y (List.mem_cons_of_mem x hy)
    refine ⟨_, .cons (baseId_eq_ok.mp hb.id) hbelow hrest, fun acc => ?_⟩
    have htargets : virtualTargets (⟨x.id, b.isVirtual⟩ :: (below ++ rest)) =
        (if b.isVirtual then [x.id] else []) ++ virtualTargets below ++ virtualTargets rest := by
      cases b.isVirtual <;> simp [virtualTargets]
    rw [htargets, List.flatMap_cons, LaidBase.brings, hlist, ← LaidBase.foldl_insertNew_nil,
      hb.isVirtual]
    simp only [List.foldl_append, LaidBase.foldl_insertNew_foldl, List.foldl_nil, hacc]

theorem RecordRun.inherits (run : RecordRun env g trail a owner) (hu : a.kind.isUnion = false)
    (hd : env.registry.bodyOf? d = some (name, a))
    (hr : env.registry.Founded) (hg : ∀ trail d l, g trail d = .ok l → env.Inherits d l) :
    env.Inherits d run.layout := by
  have hlaid := laidBases_ok run.laid
  have hbases : ∀ x ∈ run.bases, env.Inherits (.named x.id) x.layout := by
    intro x hx
    obtain ⟨b, -, hb⟩ := mem_right_of_forall₂ hlaid hx
    exact hg _ _ _ hb.layout
  have hbasesOf : env.registry.basesOf d = a.bases := by simp [basesOf, hd, hu]
  have hdeclares : env.registry.declaresVirtual d = a.declaresVirtual := by
    simp [Registry.declaresVirtual, hd, hu]
  constructor
  · obtain ⟨edges, hwalk, hacc⟩ := laidBases_walk hlaid hbases
    rw [hbasesOf]
    exact ⟨edges, hwalk, (hacc []).trans (LaidBase.foldl_insertNew_nil _)⟩
  · change (a.declaresVirtual || run.bases.any (·.layout.flags.polymorphic)) = true ↔ _
    rw [inheritsVirtual_iff, hbasesOf, hdeclares, Bool.or_eq_true, List.any_eq_true]
    apply or_congr Iff.rfl
    constructor
    · rintro ⟨x, hx, hp⟩
      obtain ⟨b, hb, hl⟩ := mem_right_of_forall₂ hlaid hx
      have hbody := hr.bodyOf?_named (baseId_eq_ok.mp hl.id)
      exact ⟨b, hb, (inheritsVirtual_congr hbody).mp ((hbases x hx).polymorphic.mp hp)⟩
    · rintro ⟨b, hb, hp⟩
      obtain ⟨x, hx, hl⟩ := mem_left_of_forall₂ hlaid hb
      have hbody := hr.bodyOf?_named (baseId_eq_ok.mp hl.id)
      exact ⟨x, hx, (hbases x hx).polymorphic.mpr ((inheritsVirtual_congr hbody).mpr hp)⟩

theorem union_inherits (hu : a.kind.isUnion = true)
    (hd : env.registry.bodyOf? d = some (name, a)) (h : env.union g trail a owner = .ok l) :
    env.Inherits d l := by
  have hplain : l.virtualBases = [] ∧ l.flags.polymorphic = false := by
    rcases union_ok h with ⟨-, rfl⟩ | ⟨-, o, -, hf⟩
    · exact ⟨rfl, rfl⟩
    · unfold Overlay.finish at hf
      split at hf
      · cases hf
      · cases hf
        exact ⟨rfl, rfl⟩
  apply inherits_of_no_bases _ _ hplain.1 hplain.2
  · simp [basesOf, hd, hu]
  · simp [Registry.declaresVirtual, hd, hu]

theorem layoutStep_inherits (hr : env.registry.Founded)
    (hg : ∀ trail d l, g trail d = .ok l → env.Inherits d l)
    (h : env.layoutStep g trail d = .ok l) : env.Inherits d l := by
  have hagg : ∀ {trail d a owner name l}, env.registry.bodyOf? d = some (name, a) →
      env.aggregate g trail a owner = .ok l → env.Inherits d l := by
    intro trail d a owner name l hd h
    rw [aggregate_plain] at h
    split at h
    next hu => exact union_inherits hu hd h
    next hu =>
      obtain ⟨run, rfl⟩ := record_ok h
      exact run.inherits (by simpa using hu) hd hr hg
  have hplain : ∀ {d l}, env.registry.bodyOf? d = none → l.virtualBases = [] →
      l.flags.polymorphic = false → env.Inherits d l := by
    intro d l hd
    exact inherits_of_no_bases (by simp [basesOf, hd]) (by simp [Registry.declaresVirtual, hd])
  cases layoutStep_ok h with
  | inline hl => exact hagg (bodyOf?_inline _ _) hl
  | typedef ht hl => exact (hg _ _ _ hl).congr (bodyOf?_of_strip (hr.strip_typedef ht))
  | body hb _ hl => exact hagg (bodyOf?_body hb) hl
  | namedEnum he _ => exact hplain (bodyOf?_enum he) rfl rfl
  | _ => exact hplain (bodyOf?_plain (by simp) (by simp)) rfl rfl

theorem layoutWithin_inherits (hr : env.registry.Founded) (n : Nat) (trail : Trail) (d : Descriptor)
    (l : Layout) (h : (env.layoutWithin n trail d : Except LayoutError Layout) = .ok l) :
    env.Inherits d l := by
  induction n generalizing trail d l with
  | zero => cases h
  | succ n ih => exact layoutStep_inherits hr ih h

structure Lists (env : LayoutEnv) (entry : BaseSubobject) (b : BaseSpec) : Prop where
  name : ∃ id, env.registry.strip b.type = .named id ∧ entry.name = env.registry.qualifiedName id
  isVirtual : entry.isVirtual = b.isVirtual

theorem RecordRun.empty_iff (hr : env.registry.Founded)
    (run : RecordRun env (env.layoutWithin n) trail a owner) :
    run.layout.flags.empty = true ↔ run.layout.flags.dynamic = false ∧
      (∀ x ∈ a.members, x.bitWidth = some 0) ∧
      ∀ b ∈ a.bases, ∃ base, env.layoutOf b.type = (.ok base : Except LayoutError Layout) ∧
        base.flags.empty = true := by
  have hlaid := laidBases_ok run.laid
  have hbases : run.bases.all (·.layout.flags.empty) = true ↔ ∀ b ∈ a.bases,
      ∃ base, env.layoutOf b.type = (.ok base : Except LayoutError Layout) ∧
        base.flags.empty = true := by
    rw [List.all_eq_true]
    constructor
    · intro h b hb
      obtain ⟨x, hx, hl⟩ := mem_left_of_forall₂ hlaid hb
      exact ⟨x.layout, hl.layoutOf_eq hr, h x hx⟩
    · intro h x hx
      obtain ⟨b, hb, hl⟩ := mem_right_of_forall₂ hlaid hx
      obtain ⟨base, hok, hempty⟩ := h b hb
      rw [hl.layoutOf_eq hr] at hok
      cases hok
      exact hempty
  change (!(a.flagsOver run.bases).dynamic && a.members.all (·.isSeparator) &&
    run.bases.all (·.layout.flags.empty)) = true ↔ (a.flagsOver run.bases).dynamic = false ∧ _
  rw [Bool.and_eq_true, Bool.and_eq_true, hbases, Bool.not_eq_true', and_assoc]
  simp [Member.isSeparator]

/-- The flags, the virtual bases and the base entries of a struct or class, told from its hierarchy
alone. -/
theorem layout_hierarchy (hr : env.registry.Built)
    (hd : env.registry.bodyOf? d = some (owner, a)) (hu : a.kind.isUnion = false)
    (hl : env.layoutOf d = (.ok l : Except LayoutError Layout)) :
    (l.flags.polymorphic = true ↔
      ∃ x, ReflTransGen env.registry.Derives d x ∧ env.registry.declaresVirtual x = true) ∧
    (∃ edges, env.registry.Walk a.bases edges) ∧
    (∀ edges, env.registry.Walk a.bases edges →
      l.virtualBases = (virtualTargets edges).eraseDups) ∧
    (l.flags.hasVirtualBases = true ↔ l.virtualBases ≠ []) ∧
    (l.flags.dynamic = true ↔ l.flags.polymorphic = true ∨ l.flags.hasVirtualBases = true) ∧
    (l.flags.empty = true ↔ l.flags.dynamic = false ∧ (∀ x ∈ a.members, x.bitWidth = some 0) ∧
      ∀ b ∈ a.bases, ∃ base, env.layoutOf b.type = (.ok base : Except LayoutError Layout) ∧
        base.flags.empty = true) ∧
    List.Forall₂ env.Lists l.bases
      (a.bases.filter (!·.isVirtual) ++ l.virtualBases.map fun v => ⟨.named v, true⟩) := by
  have hfounded := hr.wellFormed.toFounded
  have hinherits : env.Inherits d l := layoutWithin_inherits hfounded _ [] d l hl
  obtain ⟨edges, hwalk, hlist⟩ := hinherits.virtualBases
  rw [basesOf, hd] at hwalk
  have hwalk : env.registry.Walk a.bases edges := by simpa [hu] using hwalk
  have hseats := layoutOf_seats hfounded hl
  rw [seatedBases_eq hd hu] at hseats
  have hlists := hseats.imp fun entry b hs => (⟨hs.name, hs.isVirtual⟩ : env.Lists entry b)
  obtain ⟨n, trail, run, rfl⟩ := recordRun_of_layoutOf hfounded hd hu hl
  refine ⟨hinherits.polymorphic, ⟨edges, hwalk⟩, fun edges' h => ?_, ?_, ?_,
    run.empty_iff hfounded, hlists⟩
  · rw [hwalk.unique h]
    exact hlist
  · change (!(LaidBase.virtualBases run.bases).isEmpty) = true ↔
      LaidBase.virtualBases run.bases ≠ []
    simp
  · exact Bool.or_eq_true_iff

def deviceClass : Aggregate :=
  ⟨.classType, some "Device", [⟨"handle", .fundamental .int, none⟩],
    [⟨.named ⟨2⟩, false⟩, ⟨.named ⟨3⟩, true⟩], []⟩

def sourceRegistry : Registry :=
  (streams.registry.alloc .global "Source" (.defined (.typedef (.named ⟨0⟩)))).2

def devices : LayoutEnv :=
  { streams with
    registry := (sourceRegistry.alloc .global "Device" (.defined (.aggregate deviceClass))).2 }

theorem devices_built : devices.registry.Built := by
  have hsource : streams.registry.define .global "Source" (.typedef (.named ⟨0⟩)) =
      .ok (⟨3⟩, sourceRegistry) := by
    rfl
  have hdevice : sourceRegistry.define .global "Device" (.aggregate deviceClass) =
      .ok (⟨4⟩, devices.registry) := by
    rfl
  have hfirst : sourceRegistry.Built := .define streams_built (by decide) (by decide) hsource
  exact .define hfirst (by decide) (by decide) hdevice

def deviceLayout : Layout where
  size := 32
  align := .eight
  nvSize := 20
  nvAlign := .four
  fields := [⟨"handle", "int", 16, 4, .four, .whole⟩]
  bases := [⟨"File", 0, 16, false⟩, ⟨"Stream", 24, 8, true⟩]
  slots := [⟨0, "Input", false⟩]
  padding := [⟨20, 4⟩]
  virtualBases := [⟨0⟩]
  flags := { dynamic := true, hasVirtualBases := true }

def deviceEdges : List BaseEdge := [⟨⟨2⟩, false⟩, ⟨⟨1⟩, false⟩, ⟨⟨0⟩, true⟩, ⟨⟨0⟩, true⟩]

theorem devices_walk : devices.registry.Walk deviceClass.bases deviceEdges := by
  have hinput : devices.registry.Walk inputClass.bases [⟨⟨0⟩, true⟩] :=
    @Walk.cons _ ⟨.named ⟨0⟩, true⟩ [] ⟨0⟩ [] [] rfl .nil .nil
  have hfile : devices.registry.Walk fileClass.bases [⟨⟨1⟩, false⟩, ⟨⟨0⟩, true⟩] :=
    @Walk.cons _ ⟨.named ⟨1⟩, false⟩ [] ⟨1⟩ _ [] rfl hinput .nil
  have hsource : devices.registry.Walk [⟨.named ⟨3⟩, true⟩] [⟨⟨0⟩, true⟩] :=
    @Walk.cons _ ⟨.named ⟨3⟩, true⟩ [] ⟨0⟩ [] [] rfl .nil .nil
  exact @Walk.cons _ ⟨.named ⟨2⟩, false⟩ _ ⟨2⟩ _ _ rfl hfile hsource

theorem deviceLayout_hierarchy : devices.registry.Built ∧
    devices.layoutOf (.named ⟨4⟩) = (.ok deviceLayout : Except LayoutError Layout) ∧
    deviceLayout.virtualBases = (virtualTargets deviceEdges).eraseDups ∧
    List.Forall₂ devices.Lists deviceLayout.bases
      [⟨.named ⟨2⟩, false⟩, ⟨.named ⟨0⟩, true⟩] := by
  have hd : devices.registry.bodyOf? (.named ⟨4⟩) = some ("Device", deviceClass) := by
    rfl
  have hl : devices.layoutOf (.named ⟨4⟩) = (.ok deviceLayout : Except LayoutError Layout) := by
    decide +kernel
  obtain ⟨-, -, hlist, -, -, -, hbases⟩ := layout_hierarchy devices_built hd rfl hl
  exact ⟨devices_built, hl, hlist _ devices_walk, hbases⟩

end LayoutEnv

end TypeLayout
