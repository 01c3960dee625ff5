import TypeLayout.Proofs.Layout.Equivariance
/-! Two layouts side by side. A comparison relates what two environments have placed so far; if each
step of placing keeps it, and what two aggregates ask for is related, then so are their layouts. -/

namespace TypeLayout

/-- When two computations are related, given when two answers are. -/
structure Links where
  Answers : {α β : Type} → (α → β → Prop) → Except LayoutError α → Except LayoutError β → Prop
  ok : ∀ {α β : Type} {P : α → β → Prop} {a : α} {b : β}, P a b → Answers P (.ok a) (.ok b)
  bind : ∀ {α β γ δ : Type} {P : α → β → Prop} {P' : γ → δ → Prop} {x : Except LayoutError α}
    {y : Except LayoutError β} {f : α → Except LayoutError γ} {g : β → Except LayoutError δ},
    Answers P x y → (∀ a b, x = .ok a → y = .ok b → P a b → Answers P' (f a) (g b)) →
    Answers P' (x >>= f) (y >>= g)
  inMember : ∀ {α β : Type} {P : α → β → Prop} {x : Except LayoutError α} {y : Except LayoutError β}
    (name : String), Answers P x y →
    Answers P (TypeLayout.inMember name x) (TypeLayout.inMember name y)

def Draft.layout (d filled : Draft) (nvSize size : Nat) (virtualBases : List TypeId)
    (flags : Flags) : Layout where
  size := size
  align := d.align
  nvSize := nvSize
  nvAlign := filled.align
  fields := d.fields
  bases := d.bases
  slots := sortSlots d.slots
  padding := d.padding
  virtualBases := virtualBases
  flags := { flags with hasBitFields := d.hasBitFields }

/-- How placing in two environments compares: what relates drafts, overlays, sizes, and layouts of
bases and of members, and that every step keeps it. The ids of the first environment have
counterparts in the second. -/
structure Comparison (env env' : LayoutEnv) extends Links where
  id : TypeId → TypeId
  names : String → String → Prop
  drafts : Draft → Draft → Prop
  overlays : Overlay → Overlay → Prop
  sizes : Nat → Nat → Prop
  bases : Layout → Layout → Prop
  layouts : Layout → Layout → Prop
  injective : Function.Injective id
  machine : env'.machine = env.machine
  qualifiedName : ∀ i, names (env.registry.qualifiedName i) (env'.registry.qualifiedName (id i))
  flags : ∀ {l l'}, bases l l' → l'.flags = l.flags ∧ l'.virtualBases = l.virtualBases.map id
  start : ∀ {o o'}, names o o' → drafts { last := o } { last := o' }
  addSlot : ∀ {o o' d d'} (size : Nat) (pointer : Alignment), names o o' → drafts d d' →
    drafts (d.addSlot o size pointer) (d'.addSlot o' size pointer)
  addBase : ∀ {o o' name name' d d' l l'} (isVirtual : Bool), names o o' → names name name' →
    bases l l' → drafts d d' → Answers drafts (d.addBase env.policy o name l isVirtual)
      (d'.addBase env'.policy o' name' l' isVirtual)
  addField : ∀ {o o' type type' d d' l l'} (name : String), names o o' → names type type' →
    layouts l l' → drafts d d' →
    Answers drafts (d.addField o name type l) (d'.addField o' name type' l')
  separate : ∀ {o o' d d'} (name : String) (unit : StorageUnit), names o o' → drafts d d' →
    Answers drafts (d.separate o name unit) (d'.separate o' name unit)
  addBits : ∀ {o o' type type' d d'} (name : String) (unit : StorageUnit) (width : Nat),
    names o o' → names type type' → drafts d d' → Answers (fun p p' => drafts p.2 p'.2)
      (d.addBits o name type unit width) (d'.addBits o' name type' unit width)
  padTo : ∀ {d d' n n'}, drafts d d' → sizes n n' → drafts (d.padTo n) (d'.padTo n')
  rounded : ∀ {o o' d d'}, names o o' → drafts d d' →
    Answers sizes (d.rounded o) (d'.rounded o')
  finish : ∀ {o o' d d'} (flags : Flags), names o o' → drafts d d' →
    Answers (fun p p' => sizes p.1 p'.1 ∧ drafts p.2 p'.2) (d.finish o flags) (d'.finish o' flags)
  record : ∀ {filled filled' d d' nv nv' size size'} (flags : Flags) (ids : List TypeId),
    drafts filled filled' → drafts d d' → sizes nv nv' → sizes size size' →
    layouts (d.layout filled nv size ids flags) (d'.layout filled' nv' size' (ids.map id) flags)
  noFields : overlays {} {}
  addWhole : ∀ {type type' o o' l l'} (name : String), names type type' → overlays o o' →
    layouts l l' → overlays (o.add ⟨name, type, 0, l.size, l.align, .whole⟩)
      (o'.add ⟨name, type', 0, l'.size, l'.align, .whole⟩)
  overlayBits : ∀ {type type' o o'} (name : String) (unit : StorageUnit) (width : Nat),
    names type type' → overlays o o' →
    overlays (o.add ⟨name, type, 0, unit.size, unit.align, .bits unit.size 0 width⟩)
      (o'.add ⟨name, type', 0, unit.size, unit.align, .bits unit.size 0 width⟩)
  union : ∀ {owner owner' o o'}, names owner owner' → overlays o o' →
    Answers layouts (o.finish owner) (o'.finish owner')
  emptyUnion : layouts .emptyUnion .emptyUnion

namespace LayoutEnv

variable {env : LayoutEnv} {g : Descend (Except LayoutError)} {trail : Trail} {owner : String}

theorem placeMember_plain (x : Member) (d : Draft) : env.placeMember g trail owner x d =
    match x.bitWidth with
    | some width => env.fittingUnit x width >>= fun unit =>
        if width = 0 then d.separate owner x.name unit
        else d.addBits owner x.name (env.registry.typeName x.type) unit width >>= fun p => .ok p.2
    | none => inMember x.name (g (trail.enter x.name) x.type) >>= fun l =>
        d.addField owner x.name (env.registry.typeName x.type) l := by
  unfold placeMember
  simp only [ofExcept_eq]
  cases x.bitWidth with
  | some width => rfl
  | none =>
    dsimp only
    congr 1
    funext l
    cases d.addField owner x.name (env.registry.typeName x.type) l <;> rfl

theorem record_plain (a : Aggregate) : env.record g trail a owner =
    env.laidBases g trail a.bases >>= fun bs =>
    env.placeBases owner bs (env.openDraft owner (a.flagsOver bs) bs) >>= fun based =>
    env.placeMembers g trail owner a.members based >>= fun filled =>
    filled.rounded owner >>= fun nvSize =>
    env.placeVirtualBases g trail owner (LaidBase.virtualBases bs)
      (if (LaidBase.virtualBases bs).isEmpty then filled else filled.padTo nvSize) >>= fun d =>
    d.finish owner (a.flagsOver bs) >>= fun p =>
    .ok (p.2.layout filled nvSize p.1 (LaidBase.virtualBases bs) (a.flagsOver bs)) := by
  unfold record
  simp only [noteSlot_plain, ofExcept_eq]
  rfl

end LayoutEnv

namespace Comparison

variable {env env' : LayoutEnv} (c : Comparison env env') {g g' : Descend (Except LayoutError)}
  {trail trail' : Trail} {owner owner' : String}

structure Members (g g' : Descend (Except LayoutError)) (trail trail' : Trail) (x x' : Member) :
    Prop where
  name : x'.name = x.name
  bitWidth : x'.bitWidth = x.bitWidth
  typeName : c.names (env.registry.typeName x.type) (env'.registry.typeName x'.type)
  unit : ∀ width, x.bitWidth = some width →
    c.Answers Eq (env.fittingUnit x width) (env'.fittingUnit x' width)
  layout : x.bitWidth = none →
    c.Answers c.layouts (g (trail.enter x.name) x.type) (g' (trail'.enter x.name) x'.type)

def Asked (g g' : Descend (Except LayoutError)) (trail trail' : Trail) (i : TypeId) : Prop :=
  c.Answers c.bases (g (trail.enter (env.registry.qualifiedName i)) (.named i))
    (g' (trail'.enter (env'.registry.qualifiedName (c.id i))) (.named (c.id i)))

structure Bases (g g' : Descend (Except LayoutError)) (trail trail' : Trail) (b b' : BaseSpec) :
    Prop where
  isVirtual : b'.isVirtual = b.isVirtual
  baseId : c.Answers (fun i i' => i' = c.id i) (env.baseId b) (env'.baseId b')
  layout : ∀ i, env.baseId b = .ok i → c.Asked g g' trail trail' i

structure Bodies (g g' : Descend (Except LayoutError)) (trail trail' : Trail) (a a' : Aggregate) :
    Prop where
  kind : a'.kind = a.kind
  declaresVirtual : a'.declaresVirtual = a.declaresVirtual
  members : List.Forall₂ (c.Members g g' trail trail') a.members a'.members
  bases : a.kind.isUnion = false → List.Forall₂ (c.Bases g g' trail trail') a.bases a'.bases
  virtualBases : a.kind.isUnion = false → ∀ bs, env.laidBases g trail a.bases = .ok bs →
    ∀ v ∈ LaidBase.virtualBases bs, c.Asked g g' trail trail' v

structure Laid (b b' : LaidBase) : Prop where
  id : b'.id = c.id b.id
  name : c.names b.name b'.name
  isVirtual : b'.isVirtual = b.isVirtual
  layout : c.bases b.layout b'.layout

theorem all_isSeparator {xs xs' : List Member}
    (h : List.Forall₂ (c.Members g g' trail trail') xs xs') :
    xs'.all (·.isSeparator) = xs.all (·.isSeparator) := by
  induction h with
  | nil => rfl
  | cons hx _ ih =>
    rw [List.all_cons, List.all_cons, ih, Member.isSeparator, hx.bitWidth]
    rfl

theorem Laid.brings {b b' : LaidBase} (h : c.Laid b b') : b'.brings = b.brings.map c.id := by
  unfold LaidBase.brings
  rw [(c.flags h.layout).2, h.isVirtual, h.id, List.map_append]
  congr 1
  split <;> rfl

section

variable {bs bs' : List LaidBase} (h : List.Forall₂ c.Laid bs bs')
include h

theorem virtualBases_eq :
    LaidBase.virtualBases bs' = (LaidBase.virtualBases bs).map c.id := by
  have hbrings : bs'.flatMap LaidBase.brings = (bs.flatMap LaidBase.brings).map c.id := by
    induction h with
    | nil => rfl
    | cons hb _ ih => rw [List.flatMap_cons, List.flatMap_cons, List.map_append, ih, hb.brings]
  unfold LaidBase.virtualBases
  rw [hbrings]
  exact LaidBase.foldl_insertNew_map c.injective _ []

theorem primary?_isNone :
    (LaidBase.primary? bs').isNone = (LaidBase.primary? bs).isNone := by
  induction h with
  | nil => rfl
  | cons hb _ ih =>
    unfold LaidBase.primary? at ih ⊢
    rw [List.find?_cons, List.find?_cons, (c.flags hb.layout).1, hb.isVirtual]
    split
    · rfl
    · exact ih

theorem flagsOver_eq {a a' : Aggregate} (ha : c.Bodies g g' trail trail' a a') :
    a'.flagsOver bs' = a.flagsOver bs := by
  have hany : ∀ p : Flags → Bool, bs'.any (fun b => p b.layout.flags) =
      bs.any fun b => p b.layout.flags := by
    intro p
    induction h with
    | nil => rfl
    | cons hb _ ih => rw [List.any_cons, List.any_cons, (c.flags hb.layout).1, ih]
  have hall : bs'.all (fun b => b.layout.flags.empty) = bs.all fun b => b.layout.flags.empty := by
    rw [List.all_eq_not_any_not, List.all_eq_not_any_not, hany fun f => !f.empty]
  unfold Aggregate.flagsOver
  rw [c.virtualBases_eq h, List.isEmpty_map, ha.declaresVirtual, hany (·.polymorphic), hall,
    c.all_isSeparator ha.members]

theorem openDraft (ho : c.names owner owner') (flags : Flags) :
    c.drafts (env.openDraft owner flags bs) (env'.openDraft owner' flags bs') := by
  unfold LayoutEnv.openDraft
  dsimp only
  rw [c.primary?_isNone h, c.machine]
  split
  · exact c.addSlot _ _ ho (c.start ho)
  · exact c.start ho

theorem placeBases (ho : c.names owner owner') {d d' : Draft} (hd : c.drafts d d') :
    c.Answers c.drafts (env.placeBases owner bs d) (env'.placeBases owner' bs' d') := by
  induction h generalizing d d' with
  | nil => exact c.ok hd
  | cons hb _ ih =>
    unfold LayoutEnv.placeBases
    rw [hb.isVirtual]
    split
    · exact ih hd
    · exact c.bind (c.addBase false ho hb.name hb.layout hd) fun _ _ _ _ hd => ih hd

end

theorem laidBases {bs bs' : List BaseSpec}
    (h : List.Forall₂ (c.Bases g g' trail trail') bs bs') :
    c.Answers (List.Forall₂ c.Laid) (env.laidBases g trail bs) (env'.laidBases g' trail' bs') := by
  induction h with
  | nil => exact c.ok .nil
  | cons hb _ ih =>
    unfold LayoutEnv.laidBases
    simp only [ofExcept_eq]
    refine c.bind hb.baseId fun i i' hi _ he => ?_
    subst he
    refine c.bind (hb.layout i hi) fun l l' _ _ hl => ?_
    refine c.bind ih fun rest rest' _ _ hrest => ?_
    exact c.ok (.cons ⟨rfl, c.qualifiedName i, hb.isVirtual, hl⟩ hrest)

theorem placeMember (ho : c.names owner owner') {x x' : Member}
    (hx : c.Members g g' trail trail' x x') {d d' : Draft} (hd : c.drafts d d') :
    c.Answers c.drafts (env.placeMember g trail owner x d)
      (env'.placeMember g' trail' owner' x' d') := by
  rw [LayoutEnv.placeMember_plain, LayoutEnv.placeMember_plain, hx.bitWidth, hx.name]
  split
  next width hw =>
    refine c.bind (hx.unit width hw) fun unit unit' _ _ hu => ?_
    subst hu
    split
    · exact c.separate _ _ ho hd
    · exact c.bind (c.addBits _ _ _ ho hx.typeName hd) fun p p' _ _ hp => c.ok hp
  next hw =>
    refine c.bind (c.inMember _ (hx.layout hw)) fun l l' _ _ hl => ?_
    exact c.addField _ ho hx.typeName hl hd

theorem placeMembers (ho : c.names owner owner') {xs xs' : List Member}
    (h : List.Forall₂ (c.Members g g' trail trail') xs xs') {d d' : Draft} (hd : c.drafts d d') :
    c.Answers c.drafts (env.placeMembers g trail owner xs d)
      (env'.placeMembers g' trail' owner' xs' d') := by
  induction h generalizing d d' with
  | nil => exact c.ok hd
  | cons hx _ ih => exact c.bind (c.placeMember ho hx hd) fun _ _ _ _ hd => ih hd

theorem placeVirtualBases (ho : c.names owner owner') {ids : List TypeId}
    (h : ∀ v ∈ ids, c.Asked g g' trail trail' v) {d d' : Draft} (hd : c.drafts d d') :
    c.Answers c.drafts (env.placeVirtualBases g trail owner ids d)
      (env'.placeVirtualBases g' trail' owner' (ids.map c.id) d') := by
  induction ids generalizing d d' with
  | nil => exact c.ok hd
  | cons v ids ih =>
    have hrest := fun i hi => h i (List.mem_cons_of_mem v hi)
    unfold LayoutEnv.placeVirtualBases
    simp only [List.map_cons, ofExcept_eq]
    refine c.bind (h v List.mem_cons_self) fun l l' _ _ hl => ?_
    exact c.bind (c.addBase true ho (c.qualifiedName v) hl hd) fun _ _ _ _ hd => ih hrest hd

theorem overlayMembers {xs xs' : List Member}
    (h : List.Forall₂ (c.Members g g' trail trail') xs xs') {o o' : Overlay}
    (ho : c.overlays o o') :
    c.Answers c.overlays (env.overlayMembers g trail xs o)
      (env'.overlayMembers g' trail' xs' o') := by
  induction h generalizing o o' with
  | nil => exact c.ok ho
  | cons hx _ ih =>
    refine c.bind ?_ fun _ _ _ _ ho => ih ho
    unfold LayoutEnv.overlayMember
    simp only [ofExcept_eq, hx.bitWidth, hx.name]
    split
    next width hw =>
      refine c.bind (hx.unit width hw) fun unit unit' _ _ hu => ?_
      subst hu
      split
      · exact c.ok ho
      · exact c.ok (c.overlayBits _ _ _ hx.typeName ho)
    next hw =>
      refine c.bind (c.inMember _ (hx.layout hw)) fun l l' _ _ hl => ?_
      exact c.ok (c.addWhole _ hx.typeName ho hl)

variable {a a' : Aggregate} (h : c.Bodies g g' trail trail' a a')
include h

theorem unions (ho : c.names owner owner') : c.Answers c.layouts (env.union g trail a owner)
    (env'.union g' trail' a' owner') := by
  rw [LayoutEnv.union_plain, LayoutEnv.union_plain, c.all_isSeparator h.members]
  split
  · exact c.ok c.emptyUnion
  · exact c.bind (c.overlayMembers h.members c.noFields) fun _ _ _ _ hover => c.union ho hover

theorem records (hu : a.kind.isUnion = false) (ho : c.names owner owner') :
    c.Answers c.layouts (env.record g trail a owner) (env'.record g' trail' a' owner') := by
  rw [LayoutEnv.record_plain, LayoutEnv.record_plain]
  refine c.bind (c.laidBases (h.bases hu)) fun bs bs' hbs _ hlaid => ?_
  rw [c.flagsOver_eq hlaid h, c.virtualBases_eq hlaid]
  refine c.bind (c.placeBases hlaid ho (c.openDraft hlaid ho _)) fun _ _ _ _ hbased => ?_
  refine c.bind (c.placeMembers ho h.members hbased) fun filled filled' _ _ hfilled => ?_
  refine c.bind (c.rounded ho hfilled) fun nvSize nvSize' _ _ hnv => ?_
  have hstart : c.drafts
      (if (LaidBase.virtualBases bs).isEmpty then filled else filled.padTo nvSize)
      (if ((LaidBase.virtualBases bs).map c.id).isEmpty then filled'
        else filled'.padTo nvSize') := by
    rw [List.isEmpty_map]
    split
    · exact hfilled
    · exact c.padTo hfilled hnv
  refine c.bind (c.placeVirtualBases ho (h.virtualBases hu bs hbs) hstart) fun _ _ _ _ hd => ?_
  refine c.bind (c.finish _ ho hd) fun p p' _ _ hp => ?_
  exact c.ok (c.record _ _ hfilled hp.2 hnv hp.1)

theorem aggregates (ho : c.names owner owner') :
    c.Answers c.layouts (env.aggregate g trail a owner) (env'.aggregate g' trail' a' owner') := by
  rw [LayoutEnv.aggregate_plain, LayoutEnv.aggregate_plain, h.kind]
  split
  next => exact c.unions h ho
  next hu => exact c.records h (by simpa using hu) ho

end Comparison

end TypeLayout
