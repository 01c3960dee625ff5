import TypeLayout.Proofs.Layout.Termination
import TypeLayout.Proofs.Registry.Renaming
/-! Layouts of renamed types. In a registry that differs in its ids a type has the layout it had,
with the ids of its virtual bases renamed, and fails where it failed. -/

namespace TypeLayout

open Registry

variable {E : LayoutError → LayoutError → Prop} {ρ : TypeId → TypeId}

/-- Two results that differ by `f`, and in their errors as `E` allows. -/
inductive Alike (E : LayoutError → LayoutError → Prop) {α β : Type} (f : α → β) :
    Except LayoutError α → Except LayoutError β → Prop
  | ok (a : α) : Alike E f (.ok a) (.ok (f a))
  | error {e e' : LayoutError} : E e e' → Alike E f (.error e) (.error e')

namespace Alike

variable {α β γ δ : Type} {f : α → β} {g : γ → δ} {x : Except LayoutError α}
  {y : Except LayoutError β}

theorem bind (hx : Alike E f x y) {k : α → Except LayoutError γ} {k' : β → Except LayoutError δ}
    (hk : ∀ a, Alike E g (k a) (k' (f a))) : Alike E g (x >>= k) (y >>= k') := by
  cases hx with
  | ok a => exact hk a
  | error he => exact .error he

theorem self (hE : ∀ e, E e e) (x : Except LayoutError α) : Alike E id x x := by
  cases x with
  | ok a => exact .ok a
  | error e => exact .error (hE e)

theorem inMember (hE : ∀ {e e'} name, E e e' → E (e.inMember name) (e'.inMember name))
    (hx : Alike E f x y) (name : String) :
    Alike E f (inMember name x) (TypeLayout.inMember name y) := by
  cases hx with
  | ok a => exact .ok a
  | error he => exact .error (hE name he)

end Alike

def Layout.rename (ρ : TypeId → TypeId) (l : Layout) : Layout :=
  { l with virtualBases := l.virtualBases.map ρ }

def LaidBase.rename (ρ : TypeId → TypeId) (b : LaidBase) : LaidBase :=
  { b with id := ρ b.id, layout := b.layout.rename ρ }

def Frame.rename (ρ : TypeId → TypeId) (f : Frame) : Frame := { f with id := ρ f.id }

def Trail.rename (ρ : TypeId → TypeId) (trail : Trail) : Trail := trail.map (·.rename ρ)

theorem Trail.enter_rename (trail : Trail) (name : String) :
    (trail.rename ρ).enter name = (trail.enter name).rename ρ := by
  cases trail <;> rfl

theorem Trail.find?_rename (hρ : Function.Injective ρ) (trail : Trail) (id : TypeId) :
    (trail.rename ρ).find? (·.id == ρ id) = (trail.find? (·.id == id)).map (·.rename ρ) := by
  have hsame : (fun f : Frame => (f.rename ρ).id == ρ id) = fun f => f.id == id := by
    funext f
    simp only [Frame.rename, Bool.beq_eq_decide_eq, hρ.eq_iff]
  rw [Trail.rename, List.find?_map]
  exact congrArg (fun p => (trail.find? p).map (·.rename ρ)) hsame

namespace LaidBase

variable (hρ : Function.Injective ρ)
include hρ

theorem foldl_insertNew_map (ids acc : List TypeId) :
    (ids.map ρ).foldl insertNew (acc.map ρ) = (ids.foldl insertNew acc).map ρ := by
  induction ids generalizing acc with
  | nil => rfl
  | cons id ids ih =>
    have hinsert : insertNew (acc.map ρ) (ρ id) = (insertNew acc id).map ρ := by
      unfold insertNew
      simp only [List.contains_iff_mem, List.mem_map_of_injective hρ]
      split
      · rfl
      · simp
    rw [List.map_cons, List.foldl_cons, List.foldl_cons, hinsert, ih]

theorem virtualBases_rename (bs : List LaidBase) :
    virtualBases (bs.map (·.rename ρ)) = (virtualBases bs).map ρ := by
  have hbrings : ∀ b : LaidBase, (b.rename ρ).brings = b.brings.map ρ := by
    intro b
    unfold brings rename Layout.rename
    rw [List.map_append]
    congr 1
    split <;> rfl
  unfold virtualBases
  rw [← foldl_insertNew_map hρ, List.flatMap_map, List.map_flatMap]
  simp only [hbrings, List.map_nil]

theorem flagsOver_rename (a : Aggregate) (bs : List LaidBase) :
    (a.rename ρ).flagsOver (bs.map (·.rename ρ)) = a.flagsOver bs := by
  unfold Aggregate.flagsOver
  rw [virtualBases_rename hρ]
  simp only [Aggregate.declaresVirtual_rename, Aggregate.members_rename, all_isSeparator_rename,
    List.any_map, List.all_map, List.isEmpty_map]
  rfl

end LaidBase

theorem LaidBase.primary?_rename (bs : List LaidBase) :
    primary? (bs.map (·.rename ρ)) = (primary? bs).map (·.rename ρ) := by
  unfold primary?
  rw [List.find?_map]
  rfl

namespace LayoutEnv

variable {env : LayoutEnv} {r' : Registry} {g g' : Descend (Except LayoutError)} {trail : Trail}
  {owner : String} (h : Twins E ρ env.registry r')

def Equivariant (E : LayoutError → LayoutError → Prop) (ρ : TypeId → TypeId)
    (g g' : Descend (Except LayoutError)) : Prop :=
  ∀ trail d, Alike E (·.rename ρ) (g trail d) (g' (trail.rename ρ) (d.rename ρ))

def onto (env : LayoutEnv) (r : Registry) : LayoutEnv := { env with registry := r }

include h

theorem definition_rename (id : TypeId) : Alike E (Definition.rename ρ)
    (env.registry.definition id) (r'.definition (ρ id)) := by
  unfold Registry.definition
  rw [h.definition?_eq]
  cases hd : env.registry.definition? id with
  | none => exact .error (h.incomplete hd)
  | some d => exact .ok d

theorem unsupported_rename (x : Member) :
    (env.onto r').unsupported (x.rename ρ) = env.unsupported x := by
  simp only [unsupported, onto, Member.name_rename, Member.type_rename, h.typeName_rename]

theorem bitFieldKind_rename (x : Member) :
    Alike E id (env.bitFieldKind x) ((env.onto r').bitFieldKind (x.rename ρ)) := by
  have hunsupported : Alike E id (.error (env.unsupported x) : Except LayoutError Fundamental)
      (.error ((env.onto r').unsupported (x.rename ρ))) := by
    rw [unsupported_rename h]
    exact .error (h.reflexive _)
  unfold bitFieldKind
  simp only [onto, Member.type_rename, h.strip_rename, Member.name_rename] at hunsupported ⊢
  cases env.registry.strip x.type with
  | fundamental kind => exact .ok kind
  | enum e => exact .ok e.underlying
  | named id =>
    have hd := definition_rename h id
    dsimp only [Descriptor.rename]
    generalize env.registry.definition id = x, r'.definition (ρ id) = y at hd ⊢
    cases hd with
    | ok d =>
      cases d with
      | enum e => exact .ok e.underlying
      | _ => exact hunsupported
    | error he => exact .error (h.inMember x.name he)
  | _ => exact hunsupported

theorem fittingUnit_rename (x : Member) (width : Nat) :
    Alike E id (env.fittingUnit x width) ((env.onto r').fittingUnit (x.rename ρ) width) := by
  have hunit : Alike E id (env.storageUnit x) ((env.onto r').storageUnit (x.rename ρ)) := by
    refine (bitFieldKind_rename h x).bind fun kind => ?_
    rw [unsupported_rename h]
    exact .self h.reflexive _
  refine hunit.bind fun unit => ?_
  rw [Member.name_rename]
  exact .self h.reflexive _

theorem baseId_rename (b : BaseSpec) :
    Alike E ρ (env.baseId b) ((env.onto r').baseId (b.rename ρ)) := by
  unfold baseId
  simp only [onto, BaseSpec.type_rename, h.strip_rename]
  cases hs : env.registry.strip b.type with
  | named id => exact .ok id
  | _ =>
    simp only [← h.typeName_rename]
    exact .error (h.reflexive _)

theorem array_rename (d : Descriptor) (count : Nat) (l : Layout) :
    Alike E (·.rename ρ) (env.array d count l)
      ((env.onto r').array (d.rename ρ) count (l.rename ρ)) := by
  have hsame : (env.onto r').array (d.rename ρ) count (l.rename ρ) = env.array d count l := by
    unfold array
    rw [← h.typeName_rename d, ← h.typeName_rename (.array d count)]
    rfl
  rw [hsame]
  cases he : env.array d count l with
  | ok l' =>
    obtain ⟨-, -, rfl⟩ := array_ok he
    exact .ok _
  | error e => exact .error (h.reflexive e)

theorem overlayMember_rename (hg : Equivariant E ρ g g') (x : Member) (o : Overlay) :
    Alike E id (env.overlayMember g trail x o)
      ((env.onto r').overlayMember g' (trail.rename ρ) (x.rename ρ) o) := by
  have hname : (env.onto r').registry.typeName (x.rename ρ).type = env.registry.typeName x.type :=
    x.type_rename ▸ h.typeName_rename x.type
  unfold overlayMember
  simp only [Member.bitWidth_rename, Member.name_rename, hname, ofExcept_eq]
  split
  next width _ =>
    refine (fittingUnit_rename h x width).bind fun unit => ?_
    exact .self h.reflexive _
  next =>
    have hl := hg (trail.enter x.name) x.type
    rw [← Trail.enter_rename, ← x.type_rename] at hl
    exact (hl.inMember h.inMember x.name).bind fun l => .ok _

theorem overlayMembers_rename (hg : Equivariant E ρ g g') (xs : List Member) (o : Overlay) :
    Alike E id (env.overlayMembers g trail xs o)
      ((env.onto r').overlayMembers g' (trail.rename ρ) (renameMembers ρ xs) o) := by
  induction xs generalizing o with
  | nil => exact .ok o
  | cons x xs ih => exact (overlayMember_rename h hg x o).bind fun o => ih o

theorem union_rename (hg : Equivariant E ρ g g') (a : Aggregate) :
    Alike E (·.rename ρ) (env.union g trail a owner)
      ((env.onto r').union g' (trail.rename ρ) (a.rename ρ) owner) := by
  rw [union_plain, union_plain, Aggregate.members_rename, all_isSeparator_rename]
  split
  · exact .ok _
  · refine (overlayMembers_rename h hg a.members {}).bind fun o => ?_
    unfold Overlay.finish id
    split
    · exact .error (h.reflexive _)
    · exact .ok _

theorem laidBases_rename (hg : Equivariant E ρ g g') (bs : List BaseSpec) :
    Alike E (List.map (·.rename ρ)) (env.laidBases g trail bs)
      ((env.onto r').laidBases g' (trail.rename ρ) (renameBases ρ bs)) := by
  induction bs with
  | nil => exact .ok []
  | cons b bs ih =>
    simp only [laidBases, renameBases, ofExcept_eq]
    refine (baseId_rename h b).bind fun id => ?_
    -- a base is entered under its qualified name, which both registries agree on
    have hl := hg (trail.enter (env.registry.qualifiedName id)) (.named id)
    rw [← Trail.enter_rename, ← h.qualifiedName_eq] at hl
    rw [BaseSpec.isVirtual_rename, ← h.qualifiedName_eq]
    exact hl.bind fun l => ih.bind fun rest => .ok _

omit h in
theorem placeBases_rename (bs : List LaidBase) (d : Draft) :
    (env.onto r').placeBases owner (bs.map (·.rename ρ)) d = env.placeBases owner bs d := by
  induction bs generalizing d with
  | nil => rfl
  | cons b bs ih =>
    have hrest : (env.onto r').placeBases owner (bs.map (·.rename ρ)) = env.placeBases owner bs :=
      funext ih
    simp only [List.map_cons, placeBases, hrest]
    rfl

theorem placeMember_rename (hg : Equivariant E ρ g g') (x : Member) (d : Draft) :
    Alike E id (env.placeMember g trail owner x d)
      ((env.onto r').placeMember g' (trail.rename ρ) owner (x.rename ρ) d) := by
  have hname : (env.onto r').registry.typeName (x.rename ρ).type = env.registry.typeName x.type :=
    x.type_rename ▸ h.typeName_rename x.type
  unfold placeMember
  simp only [Member.bitWidth_rename, Member.name_rename, hname, ofExcept_eq]
  split
  next width _ =>
    refine (fittingUnit_rename h x width).bind fun unit => ?_
    exact .self h.reflexive _
  next =>
    have hl := hg (trail.enter x.name) x.type
    rw [← Trail.enter_rename, ← x.type_rename] at hl
    exact (hl.inMember h.inMember x.name).bind fun l => .self h.reflexive _

theorem placeMembers_rename (hg : Equivariant E ρ g g') (xs : List Member) (d : Draft) :
    Alike E id (env.placeMembers g trail owner xs d)
      ((env.onto r').placeMembers g' (trail.rename ρ) owner (renameMembers ρ xs) d) := by
  induction xs generalizing d with
  | nil => exact .ok d
  | cons x xs ih => exact (placeMember_rename h hg x d).bind fun d => ih d

theorem placeVirtualBases_rename (hg : Equivariant E ρ g g') (ids : List TypeId) (d : Draft) :
    Alike E id (env.placeVirtualBases g trail owner ids d)
      ((env.onto r').placeVirtualBases g' (trail.rename ρ) owner (ids.map ρ) d) := by
  induction ids generalizing d with
  | nil => exact .ok d
  | cons id ids ih =>
    simp only [placeVirtualBases, List.map_cons, ofExcept_eq]
    have hl := hg (trail.enter (env.registry.qualifiedName id)) (.named id)
    rw [← Trail.enter_rename, ← h.qualifiedName_eq] at hl
    rw [← h.qualifiedName_eq]
    refine hl.bind fun l => ?_
    exact (Alike.self h.reflexive (d.addBase env.policy owner _ l true)).bind fun d => ih d

omit h in
theorem noteSlot_plain (flags : Flags) (bs : List LaidBase) :
    (noteSlot owner flags bs : Except LayoutError Unit) = .ok () := by
  unfold noteSlot
  split
  · rfl
  · split <;> rfl

theorem record_rename (hg : Equivariant E ρ g g') (a : Aggregate) :
    Alike E (·.rename ρ) (env.record g trail a owner)
      ((env.onto r').record g' (trail.rename ρ) (a.rename ρ) owner) := by
  unfold record
  rw [Aggregate.bases_rename, Aggregate.members_rename]
  refine (laidBases_rename h hg a.bases).bind fun bs => ?_
  simp only [LaidBase.flagsOver_rename h.injective, LaidBase.virtualBases_rename h.injective,
    placeBases_rename, List.isEmpty_map, ofExcept_eq]
  rw [noteSlot_plain, noteSlot_plain]
  refine (Alike.self h.reflexive (.ok ())).bind fun _ => ?_
  have hopen : (env.onto r').openDraft owner (a.flagsOver bs) (bs.map (·.rename ρ)) =
      env.openDraft owner (a.flagsOver bs) bs := by
    simp only [openDraft, LaidBase.primary?_rename, Option.isNone_map, onto]
  rw [hopen]
  refine (Alike.self h.reflexive (env.placeBases owner bs _)).bind fun d => ?_
  refine (placeMembers_rename h hg a.members d).bind fun d => ?_
  refine (Alike.self h.reflexive (d.rounded owner)).bind fun nvSize => ?_
  refine (placeVirtualBases_rename h hg (LaidBase.virtualBases bs) _).bind fun d => ?_
  refine (Alike.self h.reflexive (d.finish owner _)).bind fun p => ?_
  exact .ok _

theorem aggregate_rename (hg : Equivariant E ρ g g') (trail : Trail) (a : Aggregate)
    (owner : String) :
    Alike E (·.rename ρ) (env.aggregate g trail a owner)
      ((env.onto r').aggregate g' (trail.rename ρ) (a.rename ρ) owner) := by
  rw [aggregate_plain, aggregate_plain, Aggregate.kind_rename]
  split
  · exact union_rename h hg a
  · exact record_rename h hg a

theorem namedAggregate_rename (hg : Equivariant E ρ g g') (id : TypeId) (a : Aggregate) :
    Alike E (·.rename ρ) (env.namedAggregate g trail id a)
      ((env.onto r').namedAggregate g' (trail.rename ρ) (ρ id) (a.rename ρ)) := by
  have hname : (env.onto r').registry.qualifiedName (ρ id) = env.registry.qualifiedName id :=
    h.qualifiedName_eq id
  rw [namedAggregate_plain, namedAggregate_plain, Trail.find?_rename h.injective, hname]
  cases trail.find? (·.id == id) with
  | some frame => exact .error (h.reflexive _)
  | none => exact aggregate_rename h hg (⟨id, ""⟩ :: trail) a _

theorem layoutStep_rename (hg : Equivariant E ρ g g') :
    Equivariant E ρ (env.layoutStep g) ((env.onto r').layoutStep g') := by
  intro trail d
  have hkind : ∀ kind, Alike E (·.rename ρ) (env.fundamental kind)
      ((env.onto r').fundamental kind) := by
    intro kind
    change Alike E _ (env.fundamental kind) (env.fundamental kind)
    cases hk : env.fundamental kind with
    | ok l =>
      obtain ⟨_, _, -, rfl⟩ := fundamental_ok hk
      exact .ok _
    | error e => exact .error (h.reflexive e)
  cases d with
  | fundamental kind =>
    simp only [layoutStep, Descriptor.rename, ofExcept_eq]
    exact hkind kind
  | pointer pointee => exact .ok env.pointer
  | array element count =>
    simp only [layoutStep, Descriptor.rename, ofExcept_eq]
    exact (hg trail element).bind fun l => array_rename h element count l
  | enum e =>
    simp only [layoutStep, Descriptor.rename, ofExcept_eq]
    exact hkind e.underlying
  | aggregate a =>
    change Alike E _ (env.aggregate g trail a a.displayName) ((env.onto r').aggregate g'
      (trail.rename ρ) (a.rename ρ) (a.rename ρ).displayName)
    rw [a.displayName_rename]
    exact aggregate_rename h hg trail a _
  | named id =>
    simp only [layoutStep, Descriptor.rename, ofExcept_eq]
    refine (definition_rename h id).bind fun d => ?_
    cases d with
    | typedef target => exact hg trail target
    | enum e => exact hkind e.underlying
    | aggregate a => exact namedAggregate_rename h hg id a

theorem layoutWithin_rename (n : Nat) :
    Equivariant E ρ (env.layoutWithin n) ((env.onto r').layoutWithin n) := by
  induction n with
  | zero =>
    intro trail d
    change Alike E _ (.error (.cyclicAggregate (env.registry.typeName d) ""))
      (.error (.cyclicAggregate (r'.typeName (d.rename ρ)) ""))
    rw [h.typeName_rename]
    exact .error (h.reflexive _)
  | succ n ih => exact layoutStep_rename h ih

variable (env) in
theorem layoutOf_rename (hr : env.registry.Founded) (hr' : r'.Founded) (d : Descriptor) :
    Alike E (·.rename ρ) (env.layoutOf d) ((env.onto r').layoutOf (d.rename ρ)) := by
  -- the registries supply different fuel, so both descents are taken with the larger one
  have hfits := (env.registry.fits_layoutFuel d).mono
    (Nat.le_max_left _ (r'.layoutFuel (d.rename ρ)))
  have hfits' := (r'.fits_layoutFuel (d.rename ρ)).mono
    (Nat.le_max_right (env.registry.layoutFuel d) _)
  have hdeep : (env.onto r').layoutWithin _ [] (d.rename ρ) = (env.onto r').layoutOf (d.rename ρ) :=
    layoutWithin_eq_layoutOf hr' hfits'
  rw [← layoutWithin_eq_layoutOf hr hfits, ← hdeep]
  exact layoutWithin_rename h _ [] d

end LayoutEnv

end TypeLayout
