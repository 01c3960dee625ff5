import TypeLayout.Proofs.Layout.Stability
/-! Where errors come from. The error of an aggregate is that of a bit-field's storage unit, of a
base that names no entry, of a layout it asked for, or that it does not fit. -/

namespace TypeLayout

def FailsBy {α : Type} (P : LayoutError → Prop) (x : Except LayoutError α) : Prop :=
  ∀ e, x = .error e → P e

namespace FailsBy

variable {α β : Type} {P Q : LayoutError → Prop} {x : Except LayoutError α}
  {f : α → Except LayoutError β}

theorem ok (a : α) : FailsBy P (.ok a : Except LayoutError α) := fun _ h => by cases h

theorem error {e : LayoutError} (h : P e) : FailsBy P (.error e : Except LayoutError α) := by
  intro e' he
  cases he
  exact h

theorem mono (h : FailsBy P x) (hPQ : ∀ e, P e → Q e) : FailsBy Q x :=
  fun e he => hPQ e (h e he)

theorem bind (hx : FailsBy P x) (hf : ∀ a, x = .ok a → FailsBy P (f a)) : FailsBy P (x >>= f) := by
  intro e he
  rcases bind_eq_error.mp he with he | ⟨a, ha, he⟩
  · exact hx e he
  · exact hf a ha e he

theorem lift (h : FailsBy P x) : FailsBy P (ofExcept x : Except LayoutError α) := by
  rwa [ofExcept_eq]

theorem inMember {name : String} (h : FailsBy (fun e => P (e.inMember name)) x) :
    FailsBy P (inMember name x) := by
  intro e he
  obtain ⟨e', he', rfl⟩ := inMember_eq_error.mp he
  exact h e' he'

end FailsBy

namespace Draft

variable {P : LayoutError → Prop} {owner name typeName : String} {d : Draft}

theorem addBase_failsBy (h : ∀ o m, P (.sizeOverflow o m)) {policy : BasePolicy} {l : Layout}
    {isVirtual : Bool} : FailsBy P (d.addBase policy owner name l isVirtual) := by
  unfold addBase
  split
  · exact .error (h _ _)
  · split
    · exact .error (h _ _)
    · exact .ok _

theorem addField_failsBy (h : ∀ o m, P (.sizeOverflow o m)) {l : Layout} :
    FailsBy P (d.addField owner name typeName l) := by
  unfold addField
  split
  · exact .error (h _ _)
  · split
    · exact .ok _
    · exact .error (h _ _)

theorem separate_failsBy (h : ∀ o m, P (.sizeOverflow o m)) {unit : StorageUnit} :
    FailsBy P (d.separate owner name unit) := by
  unfold separate
  split
  · exact .error (h _ _)
  · exact .ok _

theorem addBits_failsBy (h : ∀ o m, P (.sizeOverflow o m)) {unit : StorageUnit} {width : Nat} :
    FailsBy P (d.addBits owner name typeName unit width) := by
  unfold addBits
  split
  · exact .error (h _ _)
  · split
    · exact .error (h _ _)
    · exact .ok _

theorem rounded_failsBy (h : ∀ o m, P (.sizeOverflow o m)) : FailsBy P (d.rounded owner) := by
  unfold rounded
  split
  · exact .error (h _ _)
  · exact .ok _

theorem finish_failsBy (h : ∀ o m, P (.sizeOverflow o m)) {flags : Flags} :
    FailsBy P (d.finish owner flags) := by
  unfold finish
  split
  · exact .ok _
  · intro e he
    cases hr : d.rounded owner with
    | error e' =>
      rw [hr] at he
      cases he
      exact rounded_failsBy h _ hr
    | ok size =>
      rw [hr] at he
      cases he

end Draft

theorem Overlay.finish_failsBy {P : LayoutError → Prop} (h : ∀ o m, P (.sizeOverflow o m))
    {o : Overlay} {owner : String} : FailsBy P (o.finish owner) := by
  unfold Overlay.finish
  split
  · exact .error (h _ _)
  · exact .ok _

namespace LayoutEnv

theorem fittingUnit_failsBy {env : LayoutEnv} {P : LayoutError → Prop} {x : Member} {width : Nat}
    (hkind : FailsBy P (env.bitFieldKind x)) (hunsupported : P (env.unsupported x))
    (hwidth : ∀ bits, P (.invalidBitFieldWidth x.name width bits)) :
    FailsBy P (env.fittingUnit x width) := by
  refine .bind (.bind hkind fun kind _ => ?_) fun unit _ => ?_
  · split
    · split
      · exact .ok _
      · exact .error hunsupported
    · exact .error hunsupported
  · split
    · exact .error (hwidth _)
    · exact .ok _

/-- `P` holds of everything that can go wrong while an aggregate is laid out. -/
structure Blames (env : LayoutEnv) (g : Descend (Except LayoutError)) (trail : Trail)
    (a : Aggregate) (P : LayoutError → Prop) : Prop where
  asked : ∀ name d, env.Asks g trail a name d →
    FailsBy (fun e => P e ∧ P (e.inMember name)) (g (trail.enter name) d)
  unit : ∀ x ∈ a.members, ∀ width, x.bitWidth = some width → FailsBy P (env.fittingUnit x width)
  base : a.kind.isUnion = false → ∀ b ∈ a.bases, FailsBy P (env.baseId b)
  overflow : ∀ o m, P (.sizeOverflow o m)

namespace Blames

variable {env : LayoutEnv} {g : Descend (Except LayoutError)} {trail : Trail} {a : Aggregate}
  {owner : String} {P : LayoutError → Prop}

theorem member (h : env.Blames g trail a P) {x : Member} (hx : x ∈ a.members)
    (hw : x.bitWidth = none) : FailsBy P (inMember x.name (g (trail.enter x.name) x.type)) :=
  ((h.asked _ _ (.member hx hw)).mono fun _ he => he.2).inMember

theorem overlayMember (h : env.Blames g trail a P) {x : Member} (hx : x ∈ a.members) (o : Overlay) :
    FailsBy P (env.overlayMember g trail x o) := by
  unfold LayoutEnv.overlayMember
  split
  next width hw =>
    refine .bind (.lift (h.unit x hx width hw)) fun unit _ => ?_
    split
    · exact .ok _
    · exact .ok _
  next hw => exact .bind (h.member hx hw) fun l _ => .ok _

theorem overlayMembers (h : env.Blames g trail a P) {xs : List Member}
    (hxs : ∀ x ∈ xs, x ∈ a.members) (o : Overlay) :
    FailsBy P (env.overlayMembers g trail xs o) := by
  induction xs generalizing o with
  | nil => exact .ok o
  | cons x xs ih =>
    refine .bind (h.overlayMember (hxs x List.mem_cons_self) o) fun o _ => ?_
    exact ih (fun y hy => hxs y (List.mem_cons_of_mem x hy)) o

theorem union (h : env.Blames g trail a P) : FailsBy P (env.union g trail a owner) := by
  have hrest : FailsBy P
      (if a.members.all (·.isSeparator) then pure .emptyUnion
        else env.overlayMembers g trail a.members {} >>= fun o => ofExcept (o.finish owner)) := by
    split
    · exact .ok _
    · exact .bind (h.overlayMembers (fun x hx => hx) {}) fun o _ =>
        .lift (Overlay.finish_failsBy h.overflow)
  unfold LayoutEnv.union
  dsimp only
  split
  · exact .bind (.ok ()) fun _ _ => hrest
  · exact hrest

theorem laidBases (h : env.Blames g trail a P) (hu : a.kind.isUnion = false) {bs : List BaseSpec}
    (hbs : ∀ b ∈ bs, b ∈ a.bases) : FailsBy P (env.laidBases g trail bs) := by
  induction bs with
  | nil => exact .ok []
  | cons b bs ih =>
    have hb := hbs b List.mem_cons_self
    refine .bind (.lift (h.base hu b hb)) fun id hid => ?_
    rw [ofExcept_eq] at hid
    refine .bind ((h.asked _ _ (.base hu hb hid)).mono fun _ he => he.1) fun l _ => ?_
    exact .bind (ih fun c hc => hbs c (List.mem_cons_of_mem b hc)) fun rest _ => .ok _

theorem placeBases (h : env.Blames g trail a P) (bs : List LaidBase) (d : Draft) :
    FailsBy P (env.placeBases owner bs d) := by
  induction bs generalizing d with
  | nil => exact .ok d
  | cons b bs ih =>
    unfold LayoutEnv.placeBases
    split
    · exact ih d
    · exact .bind (Draft.addBase_failsBy h.overflow) fun d _ => ih d

theorem placeMember (h : env.Blames g trail a P) {x : Member} (hx : x ∈ a.members) (d : Draft) :
    FailsBy P (env.placeMember g trail owner x d) := by
  unfold LayoutEnv.placeMember
  split
  next width hw =>
    refine .bind (.lift (h.unit x hx width hw)) fun unit _ => ?_
    split
    · exact .lift (Draft.separate_failsBy h.overflow)
    · refine .bind (.lift (Draft.addBits_failsBy h.overflow)) fun p _ => ?_
      exact .bind (.ok ()) fun _ _ => .ok _
  next hw =>
    refine .bind (h.member hx hw) fun l _ => ?_
    refine .bind (.lift (Draft.addField_failsBy h.overflow)) fun d _ => ?_
    exact .bind (.ok ()) fun _ _ => .ok _

theorem placeMembers (h : env.Blames g trail a P) {xs : List Member}
    (hxs : ∀ x ∈ xs, x ∈ a.members) (d : Draft) :
    FailsBy P (env.placeMembers g trail owner xs d) := by
  induction xs generalizing d with
  | nil => exact .ok d
  | cons x xs ih =>
    refine .bind (h.placeMember (hxs x List.mem_cons_self) d) fun d _ => ?_
    exact ih (fun y hy => hxs y (List.mem_cons_of_mem x hy)) d

theorem placeVirtualBases (h : env.Blames g trail a P) {ids : List TypeId}
    (hids : ∀ id ∈ ids, env.Asks g trail a (env.registry.qualifiedName id) (.named id))
    (d : Draft) : FailsBy P (env.placeVirtualBases g trail owner ids d) := by
  induction ids generalizing d with
  | nil => exact .ok d
  | cons id ids ih =>
    refine .bind ((h.asked _ _ (hids id List.mem_cons_self)).mono fun _ he => he.1) fun l _ => ?_
    refine .bind (.lift (Draft.addBase_failsBy h.overflow)) fun d _ => ?_
    exact ih (fun i hi => hids i (List.mem_cons_of_mem id hi)) d

theorem noteSlot (flags : Flags) (bs : List LaidBase) :
    FailsBy P (LayoutEnv.noteSlot owner flags bs) := by
  unfold LayoutEnv.noteSlot
  split
  · exact .ok ()
  · split
    · exact .ok ()
    · exact .ok ()

theorem record (h : env.Blames g trail a P) (hu : a.kind.isUnion = false) :
    FailsBy P (env.record g trail a owner) := by
  unfold LayoutEnv.record
  refine .bind (h.laidBases hu fun b hb => hb) fun bs hbs => ?_
  refine .bind (noteSlot _ _) fun _ _ => ?_
  refine .bind (.lift (h.placeBases _ _)) fun d _ => ?_
  refine .bind (h.placeMembers (fun x hx => hx) d) fun d _ => ?_
  refine .bind (.lift (Draft.rounded_failsBy h.overflow)) fun nvSize _ => ?_
  refine .bind (h.placeVirtualBases (fun id hid => .virtualBase hu hbs hid) _) fun d _ => ?_
  exact .bind (.lift (Draft.finish_failsBy h.overflow)) fun p _ => .ok _

theorem aggregate (h : env.Blames g trail a P) : FailsBy P (env.aggregate g trail a owner) := by
  rw [aggregate_plain]
  split
  · exact h.union
  next hu => exact h.record (by simpa using hu)

end Blames

end LayoutEnv

end TypeLayout
