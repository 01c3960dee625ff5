import Mathlib.Data.List.Forall2
import TypeLayout.Proofs.Layout.Carrier
import TypeLayout.Proofs.Stateful
/-! Plain results: what a successful layout says about each of its parts, and where the error of a
failed one comes from. -/

namespace TypeLayout

section

variable {ε α β : Type}

theorem inMember_eq_ok {x : Except LayoutError α} {name : String} {a : α} :
    inMember name x = .ok a ↔ x = .ok a := by
  cases x with
  | ok b => rfl
  | error e => exact ⟨fun h => (by cases h), fun h => (by cases h)⟩

theorem inMember_eq_error {x : Except LayoutError α} {name : String} {e : LayoutError} :
    inMember name x = .error e ↔ ∃ e', x = .error e' ∧ e = e'.inMember name := by
  cases x with
  | ok b => exact ⟨fun h => (by cases h), fun ⟨_, h, _⟩ => (by cases h)⟩
  | error e' =>
    constructor
    · intro h
      exact ⟨e', rfl, (Except.error.inj h).symm⟩
    · rintro ⟨_, h, rfl⟩
      cases h
      rfl

end

theorem carriesEq : Carries (Except LayoutError) fun _ x y => x = y where
  lift _ := rfl
  bind := by
    intro α β x y f g hx hf
    subst hx
    cases x with
    | ok a => exact hf a rfl
    | error e => rfl
  inMember name h := congrArg (inMember name) h
  note _ := rfl

theorem carriesOk : Carries (Except LayoutError) fun _ x y => ∀ a, y = .ok a → x = .ok a where
  lift _ _ h := h
  bind := by
    intro α β x y f g hx hf b hb
    obtain ⟨a, ha, hg⟩ := bind_eq_ok.mp hb
    exact bind_eq_ok.mpr ⟨a, hx a ha, hf a ha b hg⟩
  inMember name h a ha := inMember_eq_ok.mpr (h a (inMember_eq_ok.mp ha))
  note _ _ h := h

theorem Registry.definition_eq_ok {r : Registry} {id : TypeId} {d : Definition} :
    r.definition id = .ok d ↔ r.definition? id = some d := by
  unfold definition
  split
  next d' h => rw [h, Except.ok.injEq, Option.some.injEq]
  next h => rw [h]; simp

namespace LayoutEnv

variable {env : LayoutEnv} {g : Descend (Except LayoutError)} {trail : Trail} {a : Aggregate}
  {owner : String} {l : Layout}

theorem fundamental_ok {kind : Fundamental} (h : env.fundamental kind = .ok l) :
    ∃ size align, env.machine.extent? kind = some (size, align) ∧ l = .scalar size align := by
  unfold fundamental at h
  split at h
  next size align he => exact ⟨size, align, he, (Except.ok.inj h).symm⟩
  next => cases h

theorem array_ok {element : Descriptor} {count : Nat} {le : Layout}
    (h : env.array element count le = .ok l) :
    le.size ≠ 0 ∧ le.size * count < addressLimit ∧ l = .scalar (le.size * count) le.align := by
  unfold array at h
  split at h
  next => cases h
  next hz =>
    split at h
    next hlt => exact ⟨hz, hlt, (Except.ok.inj h).symm⟩
    next => cases h

theorem namedAggregate_plain (id : TypeId) :
    env.namedAggregate g trail id a =
      match trail.find? (·.id == id) with
      | some frame => .error (.cyclicAggregate (env.registry.qualifiedName id) frame.member)
      | none => env.aggregate g (⟨id, ""⟩ :: trail) a (env.registry.qualifiedName id) := by
  unfold namedAggregate
  dsimp only
  cases trail.find? (·.id == id) with
  | some frame => rfl
  | none =>
    change (env.aggregate g (⟨id, ""⟩ :: trail) a (env.registry.qualifiedName id) >>=
      fun l => .ok l) = _
    cases env.aggregate g (⟨id, ""⟩ :: trail) a (env.registry.qualifiedName id) <;> rfl

theorem aggregate_plain : env.aggregate g trail a owner =
    if a.kind.isUnion then env.union g trail a owner else env.record g trail a owner := by
  unfold aggregate
  dsimp only
  split
  · cases env.union g trail a owner <;> rfl
  · cases env.record g trail a owner <;> rfl

theorem overlayMembers_append (xs ys : List Member) (o : Overlay) :
    env.overlayMembers g trail (xs ++ ys) o =
      env.overlayMembers g trail xs o >>= env.overlayMembers g trail ys := by
  induction xs generalizing o with
  | nil => rfl
  | cons x xs ih => simp only [List.cons_append, overlayMembers, bind_assoc, ih]

theorem placeMembers_append (xs ys : List Member) (d : Draft) :
    env.placeMembers g trail owner (xs ++ ys) d =
      env.placeMembers g trail owner xs d >>= env.placeMembers g trail owner ys := by
  induction xs generalizing d with
  | nil => rfl
  | cons x xs ih => simp only [List.cons_append, placeMembers, bind_assoc, ih]

/-- The ways in which a layout succeeds. -/
inductive Yields (env : LayoutEnv) (g : Descend (Except LayoutError)) (trail : Trail) :
    Descriptor → Layout → Prop
  | fundamental {kind : Fundamental} {size : Nat} {align : Alignment} :
    env.machine.extent? kind = some (size, align) →
    Yields env g trail (.fundamental kind) (.scalar size align)
  | pointer {d : Descriptor} : Yields env g trail (.pointer d) env.pointer
  | array {element : Descriptor} {count : Nat} {l : Layout} : g trail element = .ok l →
    l.size ≠ 0 → l.size * count < addressLimit →
    Yields env g trail (.array element count) (.scalar (l.size * count) l.align)
  | enum {e : EnumType} {size : Nat} {align : Alignment} :
    env.machine.extent? e.underlying = some (size, align) →
    Yields env g trail (.enum e) (.scalar size align)
  | inline {a : Aggregate} {l : Layout} : env.aggregate g trail a a.displayName = .ok l →
    Yields env g trail (.aggregate a) l
  | typedef {id : TypeId} {target : Descriptor} {l : Layout} :
    env.registry.definition? id = some (.typedef target) → g trail target = .ok l →
    Yields env g trail (.named id) l
  | namedEnum {id : TypeId} {e : EnumType} {size : Nat} {align : Alignment} :
    env.registry.definition? id = some (.enum e) →
    env.machine.extent? e.underlying = some (size, align) →
    Yields env g trail (.named id) (.scalar size align)
  | body {id : TypeId} {a : Aggregate} {l : Layout} :
    env.registry.definition? id = some (.aggregate a) → trail.find? (·.id == id) = none →
    env.aggregate g (⟨id, ""⟩ :: trail) a (env.registry.qualifiedName id) = .ok l →
    Yields env g trail (.named id) l

theorem layoutStep_ok {d : Descriptor} (h : env.layoutStep g trail d = .ok l) :
    env.Yields g trail d l := by
  cases d with
  | fundamental kind =>
    obtain ⟨_, _, he, rfl⟩ := fundamental_ok ((ofExcept_eq _).symm.trans h)
    exact .fundamental he
  | pointer d =>
    cases h
    exact .pointer
  | array element count =>
    obtain ⟨le, hle, h⟩ := bind_eq_ok.mp h
    obtain ⟨hz, hlt, rfl⟩ := array_ok ((ofExcept_eq _).symm.trans h)
    exact .array hle hz hlt
  | enum e =>
    obtain ⟨_, _, he, rfl⟩ := fundamental_ok ((ofExcept_eq _).symm.trans h)
    exact .enum he
  | aggregate a => exact .inline h
  | named id =>
    obtain ⟨d, hd, h⟩ := bind_eq_ok.mp h
    rw [ofExcept_eq, Registry.definition_eq_ok] at hd
    cases d with
    | typedef target => exact .typedef hd h
    | enum e =>
      obtain ⟨_, _, he, rfl⟩ := fundamental_ok ((ofExcept_eq _).symm.trans h)
      exact .namedEnum hd he
    | aggregate a =>
      replace h := (namedAggregate_plain id).symm.trans h
      split at h
      · cases h
      · exact .body hd ‹_› h

structure Lays (env : LayoutEnv) (g : Descend (Except LayoutError)) (trail : Trail)
    (b : BaseSpec) (laid : LaidBase) : Prop where
  id : env.baseId b = .ok laid.id
  name : laid.name = env.registry.qualifiedName laid.id
  isVirtual : laid.isVirtual = b.isVirtual
  layout : g (trail.enter laid.name) (.named laid.id) = .ok laid.layout

theorem mem_right_of_forall₂ {α β : Type} {P : α → β → Prop} {xs : List α} {ys : List β}
    (h : List.Forall₂ P xs ys) {y : β} (hy : y ∈ ys) : ∃ x ∈ xs, P x y := by
  induction h with
  | nil => cases hy
  | cons hp _ ih =>
    rcases List.mem_cons.mp hy with rfl | hy
    · exact ⟨_, List.mem_cons_self, hp⟩
    · obtain ⟨x, hx, hp⟩ := ih hy
      exact ⟨x, List.mem_cons_of_mem _ hx, hp⟩

theorem mem_left_of_forall₂ {α β : Type} {P : α → β → Prop} {xs : List α} {ys : List β}
    (h : List.Forall₂ P xs ys) {x : α} (hx : x ∈ xs) : ∃ y ∈ ys, P x y := by
  obtain ⟨y, hy, hp⟩ := mem_right_of_forall₂ h.flip hx
  exact ⟨y, hy, hp⟩

theorem laidBases_ok {bs : List BaseSpec} {laid : List LaidBase}
    (h : env.laidBases g trail bs = .ok laid) : List.Forall₂ (env.Lays g trail) bs laid := by
  induction bs generalizing laid with
  | nil =>
    cases h
    exact .nil
  | cons b bs ih =>
    obtain ⟨id, hid, h⟩ := bind_eq_ok.mp h
    obtain ⟨l, hl, h⟩ := bind_eq_ok.mp h
    obtain ⟨rest, hrest, h⟩ := bind_eq_ok.mp h
    obtain rfl := pure_eq_ok.mp h
    rw [ofExcept_eq] at hid
    exact .cons ⟨hid, rfl, rfl, hl⟩ (ih hrest)

theorem union_plain : env.union g trail a owner =
    if a.members.all (·.isSeparator) then .ok .emptyUnion
    else env.overlayMembers g trail a.members {} >>= fun o => o.finish owner := by
  unfold union
  dsimp only
  simp only [ofExcept_eq]
  split <;> rfl

theorem union_ok (h : env.union g trail a owner = .ok l) :
    (a.members.all (·.isSeparator) = true ∧ l = .emptyUnion) ∨
    (a.members.all (·.isSeparator) = false ∧
      ∃ o, env.overlayMembers g trail a.members {} = .ok o ∧ o.finish owner = .ok l) := by
  rw [union_plain] at h
  split at h
  next hs => exact Or.inl ⟨hs, (Except.ok.inj h).symm⟩
  next hs => exact Or.inr ⟨by simpa using hs, bind_eq_ok.mp h⟩

/-- How a struct or class that succeeds is laid out: the drafts after its non-virtual bases, after
its members, after its virtual bases, and padded to its size. -/
structure RecordRun (env : LayoutEnv) (g : Descend (Except LayoutError)) (trail : Trail)
    (a : Aggregate) (owner : String) where
  bases : List LaidBase
  based : Draft
  filled : Draft
  nvSize : Nat
  whole : Draft
  size : Nat
  final : Draft
  laid : env.laidBases g trail a.bases = .ok bases
  placed : env.placeBases owner bases (env.openDraft owner (a.flagsOver bases) bases) = .ok based
  members : env.placeMembers g trail owner a.members based = .ok filled
  rounded : filled.rounded owner = .ok nvSize
  virtuals : env.placeVirtualBases g trail owner (LaidBase.virtualBases bases)
    (if (LaidBase.virtualBases bases).isEmpty then filled else filled.padTo nvSize) = .ok whole
  finish : whole.finish owner (a.flagsOver bases) = .ok (size, final)

def RecordRun.layout (run : RecordRun env g trail a owner) : Layout where
  size := run.size
  align := run.final.align
  nvSize := run.nvSize
  nvAlign := run.filled.align
  fields := run.final.fields
  bases := run.final.bases
  slots := Draft.sortSlots run.final.slots
  padding := run.final.padding
  virtualBases := LaidBase.virtualBases run.bases
  flags := { a.flagsOver run.bases with hasBitFields := run.final.hasBitFields }

theorem record_ok (h : env.record g trail a owner = .ok l) :
    ∃ run : RecordRun env g trail a owner, l = run.layout := by
  unfold record at h
  obtain ⟨bases, laid, h⟩ := bind_eq_ok.mp h
  obtain ⟨-, -, h⟩ := bind_eq_ok.mp h
  obtain ⟨based, placed, h⟩ := bind_eq_ok.mp h
  obtain ⟨filled, members, h⟩ := bind_eq_ok.mp h
  obtain ⟨nvSize, rounded, h⟩ := bind_eq_ok.mp h
  obtain ⟨whole, virtuals, h⟩ := bind_eq_ok.mp h
  obtain ⟨⟨size, final⟩, finish, h⟩ := bind_eq_ok.mp h
  rw [ofExcept_eq] at placed rounded finish
  obtain rfl := pure_eq_ok.mp h
  exact ⟨⟨bases, based, filled, nvSize, whole, size, final, laid, placed, members, rounded,
    virtuals, finish⟩, rfl⟩

end LayoutEnv

end TypeLayout
