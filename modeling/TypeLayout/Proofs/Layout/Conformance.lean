import TypeLayout.Proofs.Layout.Assembly
/-! One level of a descent against the rule. If what an aggregate asks for answers as the rule says,
so does the aggregate, and it fails only where something it asks for does or it is too large. -/

namespace TypeLayout

namespace Draft

variable {d : Draft} {owner : String}

theorem rounded_answers :
    Answers (d.rounded owner) (d.align.roundUp d.offset < addressLimit)
      (d.align.roundUp d.offset) := by
  rw [rounded_eq]
  exact .guarded _ _

def finished (flags : Flags) (d : Draft) : Nat × Draft :=
  if flags.empty && d.offset = 0 then (1, d)
  else (d.align.roundUp d.offset, d.padTo (d.align.roundUp d.offset))

theorem finish_answers (flags : Flags) :
    Answers (d.finish owner flags) ((d.finished flags).1 < addressLimit) (d.finished flags) := by
  rw [finish_eq]
  unfold finished
  split
  · have hone : 1 < addressLimit := by decide
    exact (Answers.ok (1, d)).congr ⟨fun _ => hone, fun _ => trivial⟩
  · exact .guarded _ _

theorem finished_eq (flags : Flags) (d : Draft) :
    d.finished flags =
      (if flags.empty && d.offset = 0 then 1 else d.align.roundUp d.offset,
        { d with
          offset := if flags.empty && d.offset = 0 then 0 else d.align.roundUp d.offset
          padding := d.padding ++
            if flags.empty && d.offset = 0 then []
            else Region.between d.offset (d.align.roundUp d.offset) }) := by
  unfold finished
  split
  next hz =>
    simp only [Bool.and_eq_true, decide_eq_true_eq] at hz
    rw [List.append_nil, ← hz.2]
  next => rw [padTo_eq (Alignment.le_roundUp _ _)]

end Draft

namespace LayoutEnv

variable {env : LayoutEnv} {g : Descend (Except LayoutError)} {trail : Trail} {a : Aggregate}
  {owner : String} {Q : Descriptor → Prop} {y : Descriptor → Layout}

theorem noteSlot_answers (owner : String) (flags : Flags) (bs : List LaidBase) :
    Answers (noteSlot owner flags bs : Except LayoutError Unit) True () := by
  unfold noteSlot
  split
  · exact .noted _
  · split
    · exact .noted _
    · exact .ok ()

/-- The rule's offsets grow up to the size, so an object whose size fits has fitted all along. -/
theorem fit_of_size_lt {own shared : List Part} {start : Nat} {empty : Bool}
    (hstart : (shared = [] ∧ start = env.stopOf own 0) ∨
      start = (env.strictest own .one).roundUp (env.stopOf own 0))
    (h : (if empty && env.stopOf shared start = 0 then 1
      else (env.strictest shared (env.strictest own .one)).roundUp (env.stopOf shared start)) <
        addressLimit) :
    env.Fit own 0 ∧ (env.strictest own .one).roundUp (env.stopOf own 0) < addressLimit ∧
      env.Fit shared start := by
  have hround := Alignment.le_roundUp (env.strictest own .one) (env.stopOf own 0)
  have hstop : env.stopOf shared start < addressLimit := by
    split at h
    next hz =>
      simp only [Bool.and_eq_true, decide_eq_true_eq] at hz
      rw [hz.2]
      decide
    next => exact Nat.lt_of_le_of_lt (Alignment.le_roundUp _ _) h
  have hle := env.le_stopOf shared start
  have hnv : (env.strictest own .one).roundUp (env.stopOf own 0) < addressLimit := by
    rcases hstart with ⟨rfl, rfl⟩ | rfl
    · -- without virtual bases the object ends with its non-virtual part
      split at h
      next hz =>
        simp only [Bool.and_eq_true, decide_eq_true_eq] at hz
        have hzero : env.stopOf own 0 = 0 := hz.2
        rw [hzero, Alignment.roundUp_zero]
        decide
      next => exact h
    · exact Nat.lt_of_le_of_lt hle hstop
  exact ⟨fit_of_stopOf_lt (Nat.lt_of_le_of_lt hround hnv), hnv, fit_of_stopOf_lt hstop⟩

def ownDraft (env : LayoutEnv) (y : Descriptor → Layout) (owner : String) (a : Aggregate) : Draft :=
  env.extendAll { last := owner } (env.ownParts y owner a)

def wholeDraft (env : LayoutEnv) (y : Descriptor → Layout) (owner : String) (a : Aggregate) :
    Draft :=
  env.extendAll
    (if (LaidBase.virtualBases (env.basesBy y a.bases)).isEmpty then env.ownDraft y owner a
      else (env.ownDraft y owner a).padTo
        ((env.ownDraft y owner a).align.roundUp (env.ownDraft y owner a).offset))
    (env.sharedParts y a)

theorem offset_ownDraft :
    (env.ownDraft y owner a).offset = env.stopOf (env.ownParts y owner a) 0 :=
  offset_extendAll

theorem align_ownDraft :
    (env.ownDraft y owner a).align = env.strictest (env.ownParts y owner a) .one :=
  align_extendAll

theorem start_wholeDraft (env : LayoutEnv) (y : Descriptor → Layout) (owner : String)
    (a : Aggregate) :
    (if (LaidBase.virtualBases (env.basesBy y a.bases)).isEmpty then env.ownDraft y owner a
      else (env.ownDraft y owner a).padTo
        ((env.ownDraft y owner a).align.roundUp (env.ownDraft y owner a).offset)) =
    { env.ownDraft y owner a with
      offset := env.sharedStart y owner a
      padding := (env.ownDraft y owner a).padding ++
        Region.between (env.stopOf (env.ownParts y owner a) 0) (env.sharedStart y owner a) } := by
  have hoffset : (env.ownDraft y owner a).offset = _ := offset_ownDraft
  have halign : (env.ownDraft y owner a).align = _ := align_ownDraft
  unfold sharedStart
  rw [← hoffset, ← halign]
  split
  · unfold Region.between
    rw [if_neg (Nat.lt_irrefl _), List.append_nil]
  · exact Draft.padTo_eq (Alignment.le_roundUp _ _)

theorem recordBy_eq (env : LayoutEnv) (y : Descriptor → Layout) (owner : String) (a : Aggregate) :
    env.recordBy y owner a =
      let flags := a.flagsOver (env.basesBy y a.bases)
      let own := env.ownDraft y owner a
      let whole := (env.wholeDraft y owner a).finished flags
      { size := whole.1
        align := whole.2.align
        nvSize := own.align.roundUp own.offset
        nvAlign := own.align
        fields := whole.2.fields
        bases := whole.2.bases
        slots := Draft.sortSlots whole.2.slots
        padding := whole.2.padding
        virtualBases := LaidBase.virtualBases (env.basesBy y a.bases)
        flags := { flags with hasBitFields := whole.2.hasBitFields } } := by
  dsimp only
  rw [Draft.finished_eq]
  unfold wholeDraft recordBy
  rw [start_wholeDraft]
  simp only [offset_extendAll, align_extendAll, fields_extendAll, bases_extendAll, slots_extendAll,
    padding_extendAll, hasBitFields_extendAll, ownDraft, List.flatMap_append, List.nil_append,
    List.append_assoc]
  congr 1
  split <;> rfl

theorem ownDraft_eq :
    env.extendAll (env.extendAll
      (env.openDraft owner (a.flagsOver (env.basesBy y a.bases)) (env.basesBy y a.bases))
      (((env.basesBy y a.bases).filter (!·.isVirtual)).map .base))
      (a.members.map fun x => .member x (y x.type)) = env.ownDraft y owner a := by
  rw [openDraft_eq, ← extendAll_append, ← extendAll_append, ← List.append_assoc]
  rfl

theorem fit_ownParts :
    env.Fit (env.ownParts y owner a) 0 ↔
      env.Fit (((env.basesBy y a.bases).filter (!·.isVirtual)).map .base)
        (env.openDraft owner (a.flagsOver (env.basesBy y a.bases))
          (env.basesBy y a.bases)).offset ∧
      env.Fit (a.members.map fun x => .member x (y x.type))
        (env.extendAll
          (env.openDraft owner (a.flagsOver (env.basesBy y a.bases)) (env.basesBy y a.bases))
          (((env.basesBy y a.bases).filter (!·.isVirtual)).map .base)).offset := by
  have hslot : ∀ c : Bool, env.Fit (if c then [Part.slot owner] else []) 0 := by
    intro c
    split
    · refine ⟨?_, trivial⟩
      have hlt := env.machine.pointer.value_lt
      have hzero : env.machine.pointer.roundUp 0 = 0 := Alignment.roundUp_zero _
      simpa [piece, Piece.stop, Piece.start, hzero, Machine.pointerSize] using hlt
    · trivial
  unfold ownParts
  rw [fit_append, fit_append, offset_extendAll, openDraft_eq, offset_extendAll, stopOf_append,
    and_iff_right (hslot _)]

theorem sharedStart_cases (env : LayoutEnv) (y : Descriptor → Layout) (owner : String)
    (a : Aggregate) :
    (env.sharedParts y a = [] ∧
        env.sharedStart y owner a = env.stopOf (env.ownParts y owner a) 0) ∨
      env.sharedStart y owner a = (env.strictest (env.ownParts y owner a) .one).roundUp
        (env.stopOf (env.ownParts y owner a) 0) := by
  unfold sharedStart sharedParts
  split
  next he => exact Or.inl ⟨by rw [List.isEmpty_iff.mp he]; rfl, rfl⟩
  next => exact Or.inr rfl

theorem forall_asks_record (hu : a.kind.isUnion = false) (hw : ∀ x ∈ a.members, x.bitWidth = none)
    (hb : ∀ b ∈ a.bases, ∃ id, env.registry.strip b.type = .named id)
    (hbases : Answers (env.laidBases g trail a.bases)
      (∀ b ∈ a.bases, Q (env.registry.strip b.type)) (env.basesBy y a.bases)) :
    (∀ name z, env.Asks g trail a name z → Q z) ↔
      (∀ b ∈ a.bases, Q (env.registry.strip b.type)) ∧ (∀ x ∈ a.members, Q x.type) ∧
        ∀ v ∈ LaidBase.virtualBases (env.basesBy y a.bases), Q (.named v) := by
  constructor
  · intro h
    have hQ : ∀ b ∈ a.bases, Q (env.registry.strip b.type) := by
      intro b hmem
      obtain ⟨id, hid⟩ := hb b hmem
      rw [hid]
      exact h _ _ (.base hu hmem (baseId_eq_ok.mpr hid))
    exact ⟨hQ, fun x hx => h _ _ (.member hx (hw x hx)),
      fun v hv => h _ _ (.virtualBase hu (hbases.eq_ok hQ) hv)⟩
  · rintro ⟨hQ, hQm, hQv⟩ name z hz
    cases hz with
    | member hx _ => exact hQm _ hx
    | base _ hmem hid => exact baseId_eq_ok.mp hid ▸ hQ _ hmem
    | virtualBase _ hbs hv =>
      obtain ⟨-, rfl⟩ := (hbases _).mp hbs
      exact hQv _ hv

theorem record_answers (hu : a.kind.isUnion = false) (hw : ∀ x ∈ a.members, x.bitWidth = none)
    (hb : ∀ b ∈ a.bases, ∃ id, env.registry.strip b.type = .named id)
    (hg : ∀ name z, env.Asks g trail a name z → Answers (g (trail.enter name) z) (Q z) (y z)) :
    Answers (env.record g trail a owner)
      ((∀ name z, env.Asks g trail a name z → Q z) ∧
        (env.recordBy y owner a).size < addressLimit) (env.recordBy y owner a) := by
  have hbases : Answers (env.laidBases g trail a.bases) _ (env.basesBy y a.bases) :=
    laidBases_answers hb fun b hb id hid => hg _ _ (.base hu hb (baseId_eq_ok.mpr hid))
  have hmembers : Answers (env.placeMembers g trail owner a.members _) _ (env.ownDraft y owner a) :=
    ownDraft_eq ▸ placeMembers_answers hw fun x hx => hg _ _ (.member hx (hw x hx))
  have hfit : (env.recordBy y owner a).size < addressLimit → _ :=
    fit_of_size_lt (env.sharedStart_cases y owner a)
  rw [forall_asks_record hu hw hb hbases]
  rw [recordBy_eq] at hfit ⊢
  refine (hbases.bind fun hQ => (noteSlot_answers _ _ _).bind fun _ =>
    (placeBases_answers _).lift.bind fun _ => hmembers.bind fun _ =>
    Draft.rounded_answers.lift.bind fun _ => (placeVirtualBases_answers fun v hv =>
      hg _ _ (.virtualBase hu (hbases.eq_ok hQ) hv)).bind fun _ =>
    (Draft.finish_answers _).lift.bind fun _ => by exact .pure _).congr ?_
  constructor
  · rintro ⟨hQ, -, -, ⟨hQm, -⟩, -, ⟨hQv, -⟩, hsize, -⟩
    exact ⟨⟨hQ, hQm, hQv⟩, hsize⟩
  · rintro ⟨⟨hQ, hQm, hQv⟩, hsize⟩
    -- the size bounds every offset on the way
    obtain ⟨hown, hnv, hshared⟩ := hfit hsize
    obtain ⟨hbased, hfilled⟩ := fit_ownParts.mp hown
    rw [← align_ownDraft, ← offset_ownDraft] at hnv
    refine ⟨hQ, trivial, hbased, ⟨hQm, hfilled⟩, hnv, ⟨hQv, ?_⟩, hsize, trivial⟩
    rw [start_wholeDraft]
    exact hshared

def overlayAll (env : LayoutEnv) (y : Descriptor → Layout) (xs : List Member) (o : Overlay) :
    Overlay :=
  xs.foldl (fun o x => o.add
    ⟨x.name, env.registry.typeName x.type, 0, (y x.type).size, (y x.type).align, .whole⟩) o

theorem overlayMembers_answers {xs : List Member} {o : Overlay}
    (hw : ∀ x ∈ xs, x.bitWidth = none)
    (hg : ∀ x ∈ xs, Answers (g (trail.enter x.name) x.type) (Q x.type) (y x.type)) :
    Answers (env.overlayMembers g trail xs o) (∀ x ∈ xs, Q x.type) (env.overlayAll y xs o) := by
  induction xs generalizing o with
  | nil => exact (Answers.ok o).congr ⟨fun _ x hx => (by cases hx), fun _ => trivial⟩
  | cons x xs ih =>
    have hfirst : Answers (env.overlayMember g trail x o) (Q x.type ∧ True)
        (o.add ⟨x.name, env.registry.typeName x.type, 0, (y x.type).size, (y x.type).align,
          .whole⟩) := by
      unfold overlayMember
      rw [hw x List.mem_cons_self]
      exact ((hg x List.mem_cons_self).inMember x.name).bind fun _ => .pure _
    rw [List.forall_mem_cons]
    refine (hfirst.bind fun _ => ih (fun z hz => hw z (List.mem_cons_of_mem x hz))
      fun z hz => hg z (List.mem_cons_of_mem x hz)).congr ?_
    rw [and_true]

theorem overlayAll_eq {xs : List Member} {o : Overlay} (hbits : o.hasBitFields = false) :
    (env.overlayAll y xs o).fields = o.fields ++ xs.map (fun x =>
      ⟨x.name, env.registry.typeName x.type, 0, (y x.type).size, (y x.type).align, .whole⟩) ∧
    (env.overlayAll y xs o).size = (xs.map fun x => (y x.type).size).foldl max o.size ∧
    (env.overlayAll y xs o).align = (xs.map fun x => (y x.type).align).foldl Alignment.max o.align ∧
    (env.overlayAll y xs o).hasBitFields = false := by
  induction xs generalizing o with
  | nil => exact ⟨(List.append_nil _).symm, rfl, rfl, hbits⟩
  | cons x xs ih =>
    obtain ⟨hfields, hsize, halign, hbits'⟩ := @ih (o.add
      ⟨x.name, env.registry.typeName x.type, 0, (y x.type).size, (y x.type).align, .whole⟩)
      (by rw [Overlay.add, hbits]; rfl)
    exact ⟨hfields.trans (List.append_assoc _ _ _), hsize, halign, hbits'⟩

theorem finish_overlay (o : Overlay) (owner : String) :
    Answers (o.finish owner) (o.align.roundUp o.size < addressLimit)
      { Layout.scalar (o.align.roundUp o.size) o.align with
        fields := o.fields
        padding := Region.between o.size (o.align.roundUp o.size)
        flags := { hasBitFields := o.hasBitFields, isUnion := true } } := by
  intro l
  unfold Overlay.finish
  rw [Alignment.align?_eq]
  split
  next h =>
    split at h
    · cases h
    next hlt => exact ⟨fun he => (by cases he), fun he => absurd he.1 hlt⟩
  next size h =>
    split at h
    next hlt =>
      cases h
      rw [Except.ok.injEq, and_iff_right hlt, eq_comm]
      rfl
    · cases h

theorem unionBy_eq (hm : a.members ≠ []) :
    env.unionBy y a =
      let o := env.overlayAll y a.members {}
      { Layout.scalar (o.align.roundUp o.size) o.align with
        fields := o.fields
        padding := Region.between o.size (o.align.roundUp o.size)
        flags := { hasBitFields := o.hasBitFields, isUnion := true } } := by
  obtain ⟨hfields, hsize, halign, hbits⟩ :=
    (overlayAll_eq rfl : (env.overlayAll y a.members {}).fields = _ ∧ _)
  dsimp only
  rw [hfields, hsize, halign, hbits]
  unfold unionBy
  rw [if_neg (by rwa [List.isEmpty_iff])]
  rfl

theorem forall_asks_union (hu : a.kind.isUnion = true) (hw : ∀ x ∈ a.members, x.bitWidth = none) :
    (∀ name z, env.Asks g trail a name z → Q z) ↔ ∀ x ∈ a.members, Q x.type := by
  refine ⟨fun h x hx => h _ _ (.member hx (hw x hx)), fun h name z hz => ?_⟩
  cases hz with
  | member hx _ => exact h _ hx
  | base hu' _ _ => rw [hu] at hu'; cases hu'
  | virtualBase hu' _ _ => rw [hu] at hu'; cases hu'

theorem union_answers (hu : a.kind.isUnion = true) (hw : ∀ x ∈ a.members, x.bitWidth = none)
    (hg : ∀ name z, env.Asks g trail a name z → Answers (g (trail.enter name) z) (Q z) (y z)) :
    Answers (env.union g trail a owner)
      ((∀ name z, env.Asks g trail a name z → Q z) ∧ (env.unionBy y a).size < addressLimit)
      (env.unionBy y a) := by
  have hoverlay : Answers (env.overlayMembers g trail a.members {}) _ _ :=
    overlayMembers_answers hw fun x hx => hg _ _ (.member hx (hw x hx))
  rw [forall_asks_union hu hw, union_plain]
  split
  next hall =>
    -- without bit-fields only the empty union consists of separators
    have hm : a.members = [] := by
      refine List.eq_nil_iff_forall_not_mem.mpr fun x hx => ?_
      have hsep := List.all_eq_true.mp hall x hx
      rw [Member.isSeparator, hw x hx] at hsep
      cases hsep
    have hrule : env.unionBy y a = .emptyUnion := by
      unfold unionBy
      rw [hm]
      rfl
    have hone : Layout.emptyUnion.size < addressLimit := by decide
    rw [hrule, hm]
    exact (Answers.ok _).congr ⟨fun _ => ⟨fun x hx => (by cases hx), hone⟩, fun _ => trivial⟩
  next hall =>
    have hm : a.members ≠ [] := fun hm => hall (by rw [hm]; rfl)
    rw [unionBy_eq hm]
    exact hoverlay.bind fun _ => finish_overlay _ owner

theorem aggregate_answers (hw : ∀ x ∈ a.members, x.bitWidth = none)
    (hb : a.kind.isUnion = false → ∀ b ∈ a.bases, ∃ id, env.registry.strip b.type = .named id)
    (hg : ∀ name z, env.Asks g trail a name z → Answers (g (trail.enter name) z) (Q z) (y z)) :
    Answers (env.aggregate g trail a owner)
      ((∀ name z, env.Asks g trail a name z → Q z) ∧
        (env.aggregateBy y owner a).size < addressLimit) (env.aggregateBy y owner a) := by
  rw [aggregate_plain]
  unfold aggregateBy
  split
  next hu => exact union_answers hu hw hg
  next hu =>
    have hu : a.kind.isUnion = false := by simpa using hu
    exact record_answers hu hw (hb hu) hg

end LayoutEnv

end TypeLayout
