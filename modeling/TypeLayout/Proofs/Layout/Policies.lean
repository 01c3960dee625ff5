import TypeLayout.Proofs.Layout.Below
/-! The two base policies compared. Where both lay a type out, nothing lies further on under
`itaniumBaseline` than under `strictSequential`; and they agree wherever no base is empty. -/

namespace TypeLayout

open Registry

namespace Links

def both : Links where
  Answers P x y := ∀ a b, x = .ok a → y = .ok b → P a b
  ok hp a b ha hb := by
    cases ha
    cases hb
    exact hp
  bind hx hf c d hc hd := by
    obtain ⟨a, ha, hc⟩ := bind_eq_ok.mp hc
    obtain ⟨b, hb, hd⟩ := bind_eq_ok.mp hd
    exact hf a b ha hb (hx a b ha hb) c d hc hd
  inMember _ hx a b ha hb := hx a b (inMember_eq_ok.mp ha) (inMember_eq_ok.mp hb)

def same : Links where
  Answers P x y :=
    (∃ a b, x = .ok a ∧ y = .ok b ∧ P a b) ∨ ∃ e, x = .error e ∧ y = .error e
  ok hp := Or.inl ⟨_, _, rfl, rfl, hp⟩
  bind hx hf := by
    rcases hx with ⟨a, b, rfl, rfl, hp⟩ | ⟨e, rfl, rfl⟩
    · exact hf a b rfl rfl hp
    · exact Or.inr ⟨e, rfl, rfl⟩
  inMember name hx := by
    rcases hx with ⟨a, b, rfl, rfl, hp⟩ | ⟨e, rfl, rfl⟩
    · exact Or.inl ⟨a, b, rfl, rfl, hp⟩
    · exact Or.inr ⟨e.inMember name, rfl, rfl⟩

theorem same_self {α : Type} {P : α → α → Prop} {x y : Except LayoutError α} (hxy : y = x)
    (h : ∀ a, x = .ok a → P a a) : same.Answers P x y := by
  rw [hxy]
  cases x with
  | ok a => exact Or.inl ⟨a, a, rfl, rfl, h a rfl⟩
  | error e => exact Or.inr ⟨e, rfl, rfl⟩

end Links

namespace LayoutEnv

def under (env : LayoutEnv) (policy : BasePolicy) : LayoutEnv := { env with policy := policy }

structure Policies (env : LayoutEnv) (p p' : BasePolicy) extends
    Comparison (env.under p) (env.under p') where
  id_eq : ∀ i, id i = i
  reflexive : ∀ name, names name name
  scalar : ∀ size align, layouts (.scalar size align) (.scalar size align)
  array : ∀ {l l'} (d : Descriptor) (n : Nat), layouts l l' →
    Answers layouts ((env.under p).array d n l) ((env.under p').array d n l')
  error : ∀ {α β : Type} {P : α → β → Prop} (e : LayoutError), Answers P (.error e) (.error e)

/-- Where both policies lay out, the one does so below the other. -/
def belowPolicies (env : LayoutEnv) : Policies env .itaniumBaseline .strictSequential where
  toLinks := Links.both
  id := id
  names := Eq
  drafts := Draft.Below
  overlays := Overlay.Below
  sizes := (· ≤ ·)
  bases l l' := l.Below l' ∧ l.Flagged
  layouts := Layout.Below
  injective := Function.injective_id
  machine := rfl
  qualifiedName _ := rfl
  flags h := ⟨h.1.flags, by rw [List.map_id]; exact h.1.virtualBases⟩
  start _ := Draft.Below.start _ _
  addSlot size pointer _ h := h.addSlot size pointer
  addBase _ ho hname hl h e e' he he' := by
    subst ho hname
    exact h.addBase hl.1 hl.2 he he'
  addField _ ho htype hl h e e' he he' := by
    subst ho htype
    exact h.addField hl he he'
  separate _ _ ho h e e' he he' := by
    subst ho
    exact h.separate he he'
  addBits _ _ _ ho htype h p p' he he' := by
    subst ho htype
    exact h.addBits he he'
  padTo h hn := h.padTo hn
  rounded ho h n n' hn hn' := by
    subst ho
    exact h.rounded hn hn'
  finish _ ho h p p' he he' := by
    subst ho
    exact h.finish he he'
  record flags ids hfilled h hnv hs := by
    rw [List.map_id]
    exact hfilled.layout h hnv hs ids flags
  noFields := ⟨.nil, Nat.le_refl _, rfl, rfl⟩
  addWhole _ htype ho hl := ho.add ⟨rfl, htype.symm, hl.align, rfl, Nat.le_refl _, hl.size_le⟩
  overlayBits _ _ _ htype ho := ho.add ⟨rfl, htype.symm, rfl, rfl, Nat.le_refl _, Nat.le_refl _⟩
  union _ h l l' hl hl' := h.finish hl hl'
  emptyUnion := ⟨rfl, rfl, rfl, rfl, Nat.le_refl _, Nat.le_refl _, .nil, .nil⟩
  id_eq _ := rfl
  reflexive _ := rfl
  scalar _ align := Layout.scalar_below align (Nat.le_refl _)
  array d n h l l' hl hl' := by
    obtain ⟨-, -, rfl⟩ := array_ok hl
    obtain ⟨-, -, rfl⟩ := array_ok hl'
    rw [h.align]
    exact Layout.scalar_below _ (Nat.mul_le_mul_right n h.size_le)
  error e a b ha := by cases ha

theorem place?_eq {l : Layout} (he : l.flags.empty = false) (hn : l.nvSize ≠ 0) (cursor : Nat) :
    BasePolicy.strictSequential.place? cursor l = BasePolicy.itaniumBaseline.place? cursor l := by
  have hmax : max l.nvSize 1 = l.nvSize := by omega
  simp [BasePolicy.place?, he, hmax]

def samePolicies (env : LayoutEnv) : Policies env .itaniumBaseline .strictSequential where
  toLinks := Links.same
  id := id
  names := Eq
  drafts := Eq
  overlays := Eq
  sizes := Eq
  bases l l' := l = l' ∧ l.flags.empty = false ∧ l.nvSize ≠ 0
  layouts := Eq
  injective := Function.injective_id
  machine := rfl
  qualifiedName _ := rfl
  flags h := by
    rw [List.map_id, h.1]
    exact ⟨rfl, rfl⟩
  start ho := by rw [ho]
  addSlot _ _ ho h := by rw [ho, h]
  addBase _ ho hname hl h := by
    obtain ⟨rfl, he, hn⟩ := hl
    subst ho hname h
    refine Links.same_self ?_ fun _ _ => rfl
    unfold Draft.addBase under
    dsimp only
    rw [place?_eq he hn]
  addField _ ho htype hl h := by
    subst ho htype hl h
    exact Links.same_self rfl fun _ _ => rfl
  separate _ _ ho h := by
    subst ho h
    exact Links.same_self rfl fun _ _ => rfl
  addBits _ _ _ ho htype h := by
    subst ho htype h
    exact Links.same_self rfl fun _ _ => rfl
  padTo h hn := by rw [h, hn]
  rounded ho h := by
    subst ho h
    exact Links.same_self rfl fun _ _ => rfl
  finish _ ho h := by
    subst ho h
    exact Links.same_self rfl fun _ _ => ⟨rfl, rfl⟩
  record _ ids hfilled h hnv hs := by rw [hfilled, h, hnv, hs, List.map_id]
  noFields := rfl
  addWhole _ htype ho hl := by rw [htype, ho, hl]
  overlayBits _ _ _ htype ho := by rw [htype, ho]
  union ho h := by
    subst ho h
    exact Links.same_self rfl fun _ _ => rfl
  emptyUnion := rfl
  id_eq _ := rfl
  reflexive _ := rfl
  scalar _ _ := rfl
  array d n h := by
    subst h
    exact Links.same_self rfl fun _ _ => rfl
  error e := Or.inr ⟨e, rfl, rfl⟩

section

variable {env : LayoutEnv} {p p' : BasePolicy} (c : Policies env p p')
  {g g' : Descend (Except LayoutError)} {trail : Trail} {a : Aggregate}

theorem Policies.self {α : Type} {P : α → α → Prop} (hP : ∀ a, P a a) (x : Except LayoutError α) :
    c.Answers P x x := by
  cases x with
  | ok a => exact c.ok (hP a)
  | error e => exact c.error e

theorem Policies.bodies
    (hmember : ∀ x ∈ a.members, x.bitWidth = none →
      c.Answers c.layouts (g (trail.enter x.name) x.type) (g' (trail.enter x.name) x.type))
    (hbase : a.kind.isUnion = false → ∀ b ∈ a.bases, ∀ i, env.registry.strip b.type = .named i →
      ∀ trail, c.Answers c.bases (g trail (.named i)) (g' trail (.named i)))
    (hvirtual : a.kind.isUnion = false → ∀ bs, (env.under p).laidBases g trail a.bases = .ok bs →
      ∀ v ∈ LaidBase.virtualBases bs, ∀ trail,
        c.Answers c.bases (g trail (.named v)) (g' trail (.named v))) :
    c.Bodies g g' trail trail a a where
  kind := rfl
  declaresVirtual := rfl
  members := List.forall₂_same.mpr fun x hx =>
    ⟨rfl, rfl, c.reflexive _, fun width _ => c.self (fun _ => rfl) _, hmember x hx⟩
  bases hu := List.forall₂_same.mpr fun b hb => by
    refine ⟨rfl, c.self (fun i => (c.id_eq i).symm) _, fun i hi => ?_⟩
    have hasked := hbase hu b hb i (baseId_eq_ok.mp hi)
    unfold Comparison.Asked
    rw [c.id_eq]
    exact hasked _
  virtualBases hu bs hbs v hv := by
    have hasked := hvirtual hu bs hbs v hv
    unfold Comparison.Asked
    rw [c.id_eq]
    exact hasked _

theorem Policies.layoutStep {d : Descriptor}
    (element : ∀ x n, d = .array x n → c.Answers c.layouts (g trail x) (g' trail x))
    (typedef : ∀ i t, d = .named i → env.registry.definition? i = some (.typedef t) →
      c.Answers c.layouts (g trail t) (g' trail t))
    (body : ∀ a trail, env.registry.Reaches d (.aggregate a) → c.Bodies g g' trail trail a a) :
    c.Answers c.layouts ((env.under p).layoutStep g trail d)
      ((env.under p').layoutStep g' trail d) := by
  have hkind : ∀ kind, c.Answers c.layouts ((env.under p).fundamental kind)
      ((env.under p').fundamental kind) := by
    intro kind
    change c.Answers c.layouts (env.fundamental kind) (env.fundamental kind)
    cases hk : env.fundamental kind with
    | ok l =>
      obtain ⟨size, align, -, rfl⟩ := fundamental_ok hk
      exact c.ok (c.scalar size align)
    | error e => exact c.error e
  cases d with
  | fundamental kind =>
    simp only [LayoutEnv.layoutStep, ofExcept_eq]
    exact hkind kind
  | pointer d => exact c.ok (c.scalar _ _)
  | array x n =>
    refine c.bind (element x n rfl) fun l l' _ _ hl => ?_
    simp only [ofExcept_eq]
    exact c.array x n hl
  | enum e =>
    simp only [LayoutEnv.layoutStep, ofExcept_eq]
    exact hkind e.underlying
  | aggregate a => exact c.aggregates (body a trail .refl) (c.reflexive _)
  | named i =>
    unfold LayoutEnv.layoutStep
    simp only [ofExcept_eq]
    refine c.bind (c.self (fun _ => rfl) (env.registry.definition i)) fun d d' hd _ he => ?_
    subst he
    rw [definition_eq_ok] at hd
    cases d with
    | typedef t => exact typedef i t rfl hd
    | enum e => exact hkind e.underlying
    | aggregate a =>
      dsimp only
      rw [namedAggregate_plain, namedAggregate_plain]
      split
      · exact c.error _
      · exact c.aggregates (body a _ (.single (.body hd))) (c.reflexive _)

end

section

variable {env : LayoutEnv} {g : Descend (Except LayoutError)} {trail : Trail} {a : Aggregate}
  {d x : Descriptor} {l : Layout} {n : Nat} {v : TypeId}

def Declares (r : Registry) (d : Descriptor) (v : TypeId) : Prop :=
  ∃ a b, r.Reaches d (.aggregate a) ∧ a.kind.isUnion = false ∧ b ∈ a.bases ∧
    r.strip b.type = .named v

theorem Declares.reached {r : Registry} (h : Declares r x v) (hx : r.Reaches d x) :
    Declares r d v := by
  obtain ⟨a, b, ha, hb⟩ := h
  exact ⟨a, b, hx.trans ha, hb⟩

theorem Declares.reaches {r : Registry} (hr : r.Founded) (h : Declares r d v) :
    r.Reaches d (.named v) := by
  obtain ⟨a, b, ha, hu, hb, hs⟩ := h
  rw [← hs]
  exact (ha.tail (.base hu hb)).trans (hr.reaches_strip b.type)

def ListsDeclared (env : LayoutEnv) (g : Descend (Except LayoutError)) : Prop :=
  ∀ trail d l, g trail d = .ok l → ∀ v ∈ l.virtualBases, Declares env.registry d v

theorem virtualBases_declared (hr : env.registry.Founded) (hg : env.ListsDeclared g)
    (hu : a.kind.isUnion = false) {bs : List LaidBase}
    (h : env.laidBases g trail a.bases = .ok bs) (hv : v ∈ LaidBase.virtualBases bs) :
    Declares env.registry (.aggregate a) v := by
  obtain ⟨laid, hlaid, hv⟩ := LaidBase.mem_virtualBases.mp hv
  obtain ⟨b, hb, hl⟩ := mem_right_of_forall₂ (laidBases_ok h) hlaid
  rcases hv with ⟨-, rfl⟩ | hv
  · exact ⟨a, b, .refl, hu, hb, baseId_eq_ok.mp hl.id⟩
  · exact (hg _ _ _ hl.layout v hv).reached (hl.contained hr hu hb).to_reflTransGen

theorem layoutStep_listsDeclared (hr : env.registry.Founded) (hg : env.ListsDeclared g) :
    env.ListsDeclared (env.layoutStep g) := by
  have hagg : ∀ trail a owner l, env.aggregate g trail a owner = .ok l → ∀ v ∈ l.virtualBases,
      Declares env.registry (.aggregate a) v := by
    intro trail a owner l h v hv
    rw [aggregate_plain] at h
    split at h
    next hu =>
      rcases union_ok h with ⟨-, rfl⟩ | ⟨-, o, -, hf⟩
      · cases hv
      · unfold Overlay.finish at hf
        split at hf
        · cases hf
        · cases hf
          cases hv
    next hu =>
      obtain ⟨run, rfl⟩ := record_ok h
      exact virtualBases_declared hr hg (by simpa using hu) run.laid hv
  intro trail d l h v hv
  cases layoutStep_ok h with
  | inline h => exact hagg _ _ _ _ h v hv
  | typedef hd h => exact (hg _ _ _ h v hv).reached (.single (.target hd))
  | body hd _ h => exact (hagg _ _ _ _ h v hv).reached (.single (.body hd))
  | _ => cases hv

theorem layoutWithin_listsDeclared (env : LayoutEnv) (hr : env.registry.Founded) (n : Nat) :
    env.ListsDeclared (env.layoutWithin n) := by
  induction n with
  | zero => exact fun trail d l h => by cases h
  | succ n ih => exact layoutStep_listsDeclared hr ih

theorem layoutWithin_below (env : LayoutEnv) (n : Nat) (trail : Trail) (d : Descriptor) :
    (belowPolicies env).Answers Layout.Below
      ((env.under .itaniumBaseline).layoutWithin n trail d)
      ((env.under .strictSequential).layoutWithin n trail d) := by
  induction n generalizing trail d with
  | zero => exact (belowPolicies env).error _
  | succ n ih =>
    have hbase : ∀ v trail, (belowPolicies env).Answers (belowPolicies env).bases
        ((env.under .itaniumBaseline).layoutWithin n trail (.named v))
        ((env.under .strictSequential).layoutWithin n trail (.named v)) := by
      intro v trail l l' hl hl'
      exact ⟨ih trail _ l l' hl hl', (layoutWithin_regular _ n trail _ l hl).toFlagged⟩
    refine (belowPolicies env).layoutStep (fun x _ _ => ih trail x) (fun _ t _ _ => ih trail t) ?_
    intro a trail _
    apply (belowPolicies env).bodies
    · intro x _ _
      exact ih _ x.type
    · intro _ b _ i _
      exact hbase i
    · intro _ bs _ v _
      exact hbase v

/-- No base of what a type contains is empty or has a non-virtual part of no bytes. -/
def Solid (env : LayoutEnv) (d : Descriptor) : Prop :=
  ∀ a b l, env.registry.Reaches d (.aggregate a) → a.kind.isUnion = false → b ∈ a.bases →
    env.layoutOf b.type = (.ok l : Except LayoutError Layout) →
    l.flags.empty = false ∧ l.nvSize ≠ 0

theorem Solid.reached (h : env.Solid d) (hx : env.registry.Reaches d x) : env.Solid x :=
  fun a b l ha => h a b l (hx.trans ha)

theorem Solid.declared (hr : env.registry.Founded) (h : env.Solid d)
    (hv : Declares env.registry d v)
    (hl : env.layoutWithin n trail (.named v) = (.ok l : Except LayoutError Layout)) :
    l.flags.empty = false ∧ l.nvSize ≠ 0 := by
  obtain ⟨a, b, ha, hu, hb, hs⟩ := hv
  apply h a b l ha hu hb
  rw [← layoutOf_strip hr, hs]
  exact layoutOf_of_ok hr hl

theorem layoutWithin_same (hr : env.registry.Founded) (n : Nat) (trail : Trail) (d : Descriptor)
    (hd : (env.under .itaniumBaseline).Solid d) :
    (samePolicies env).Answers Eq
      ((env.under .itaniumBaseline).layoutWithin n trail d)
      ((env.under .strictSequential).layoutWithin n trail d) := by
  induction n generalizing trail d with
  | zero => exact (samePolicies env).error _
  | succ n ih =>
    have hfounded : (env.under .itaniumBaseline).registry.Founded := hr
    have hbase : ∀ v, Declares env.registry d v → ∀ trail,
        (samePolicies env).Answers (samePolicies env).bases
          ((env.under .itaniumBaseline).layoutWithin n trail (.named v))
          ((env.under .strictSequential).layoutWithin n trail (.named v)) := by
      intro v hv trail
      rcases ih trail (.named v) (hd.reached (hv.reaches hr)) with ⟨l, l', hl, hl', rfl⟩ | herror
      · exact Or.inl ⟨l, l, hl, hl', rfl, hd.declared hfounded hv hl⟩
      · exact Or.inr herror
    refine (samePolicies env).layoutStep ?_ ?_ ?_
    · rintro x count rfl
      exact ih trail x (hd.reached (.single .element))
    · rintro i t rfl ht
      exact ih trail t (hd.reached (.single (.target ht)))
    · intro a trail ha
      apply (samePolicies env).bodies
      · intro x hx hw
        exact ih _ x.type (hd.reached (ha.tail (.member hx hw)))
      · intro hu b hb i hi
        exact hbase i ⟨a, b, ha, hu, hb, hi⟩
      · intro hu bs hbs v hv
        have hlists := layoutWithin_listsDeclared (env.under .itaniumBaseline) hfounded n
        exact hbase v ((virtualBases_declared hfounded hlists hu hbs hv).reached ha)

/-- What both policies lay out has the same alignments, fields and bases under both, and nothing in
it is placed later by `itaniumBaseline`. Where no base of what is laid out is empty, the policies
answer the same. -/
theorem policies_compared (hr : env.registry.Built) (d : Descriptor) :
    (∀ l l', (env.under .itaniumBaseline).layoutOf d = (.ok l : Except LayoutError Layout) →
      (env.under .strictSequential).layoutOf d = (.ok l' : Except LayoutError Layout) →
      l.Below l') ∧
    ((env.under .itaniumBaseline).Solid d →
      ((env.under .itaniumBaseline).layoutOf d : Except LayoutError Layout) =
        (env.under .strictSequential).layoutOf d) := by
  refine ⟨fun l l' hl hl' => layoutWithin_below env _ [] d l l' hl hl', fun hd => ?_⟩
  rcases layoutWithin_same hr.wellFormed.toFounded (env.registry.layoutFuel d) [] d hd with
    ⟨l, l', hl, hl', rfl⟩ | ⟨e, he, he'⟩
  · exact hl.trans hl'.symm
  · exact he.trans he'.symm

end

def emptyTag : Aggregate := ⟨.structType, some "Tag", [], [], []⟩

def wordHolder : Aggregate :=
  ⟨.structType, some "Word", [⟨"w", .fundamental .int, none⟩], [], []⟩

def taggedWord : Aggregate :=
  ⟨.structType, some "Tagged", [⟨"c", .fundamental .char, none⟩],
    [⟨.named ⟨0⟩, false⟩, ⟨.named ⟨1⟩, false⟩], []⟩

def plainWord : Aggregate :=
  ⟨.structType, some "Plain", [⟨"c", .fundamental .char, none⟩], [⟨.named ⟨1⟩, false⟩], []⟩

def tagRegistry : Registry := (empty.alloc .global "Tag" (.defined (.aggregate emptyTag))).2

def wordRegistry : Registry :=
  (tagRegistry.alloc .global "Word" (.defined (.aggregate wordHolder))).2

def tags : LayoutEnv where
  registry := (wordRegistry.alloc .global "Tagged" (.defined (.aggregate taggedWord))).2
  machine := Profile.lp64.machine
  policy := .itaniumBaseline

theorem tags_built : tags.registry.Built := by
  have htag : empty.define .global "Tag" (.aggregate emptyTag) = .ok (⟨0⟩, tagRegistry) := by
    rfl
  have hword : tagRegistry.define .global "Word" (.aggregate wordHolder) =
      .ok (⟨1⟩, wordRegistry) := by
    rfl
  have htagged : wordRegistry.define .global "Tagged" (.aggregate taggedWord) =
      .ok (⟨2⟩, tags.registry) := by
    rfl
  have hfirst : tagRegistry.Built := .define .empty (by decide) (by decide) htag
  have hsecond : wordRegistry.Built := .define hfirst (by decide) (by decide) hword
  exact .define hsecond (by decide) (by decide) htagged

def taggedLayout : Layout where
  size := 8
  align := .four
  nvSize := 8
  nvAlign := .four
  fields := [⟨"c", "char", 4, 1, .one, .whole⟩]
  bases := [⟨"Tag", 0, 0, false⟩, ⟨"Word", 0, 4, false⟩]
  padding := [⟨5, 3⟩]

def taggedStrictly : Layout where
  size := 12
  align := .four
  nvSize := 12
  nvAlign := .four
  fields := [⟨"c", "char", 8, 1, .one, .whole⟩]
  bases := [⟨"Tag", 0, 1, false⟩, ⟨"Word", 4, 4, false⟩]
  padding := [⟨1, 3⟩, ⟨9, 3⟩]

theorem plainWord_solid : (tags.under .itaniumBaseline).Solid (.aggregate plainWord) := by
  have hword : (tags.under .itaniumBaseline).layoutOf (.named ⟨1⟩) =
      (.ok ⟨4, .four, 4, .four, [⟨"w", "int", 0, 4, .four, .whole⟩], [], [], [], [], {}⟩ :
        Except LayoutError Layout) := by
    decide +kernel
  have hreach : ∀ x, tags.registry.Reaches (.aggregate plainWord) x → x = .aggregate plainWord ∨
      x = .named ⟨1⟩ ∨ x = .aggregate wordHolder ∨ ∃ kind, x = .fundamental kind := by
    intro x hx
    induction hx with
    | refl => exact Or.inl rfl
    | tail _ hs ih =>
      rcases ih with rfl | rfl | rfl | ⟨kind, rfl⟩
      · cases hs with
        | member hx _ =>
          obtain rfl := List.mem_singleton.mp hx
          exact Or.inr (Or.inr (Or.inr ⟨_, rfl⟩))
        | base _ hb =>
          obtain rfl := List.mem_singleton.mp hb
          exact Or.inr (Or.inl rfl)
      · obtain rfl := (holds_body (a := wordHolder) (by rfl)).mp hs
        exact Or.inr (Or.inr (Or.inl rfl))
      · cases hs with
        | member hx _ =>
          obtain rfl := List.mem_singleton.mp hx
          exact Or.inr (Or.inr (Or.inr ⟨_, rfl⟩))
        | base _ hb => cases hb
      · cases hs
  intro a b l ha _ hb hl
  rcases hreach _ ha with h | h | h | ⟨_, h⟩
  · cases h
    obtain rfl := List.mem_singleton.mp hb
    cases hword.symm.trans hl
    exact ⟨rfl, by decide⟩
  · cases h
  · cases h
    cases hb
  · cases h

theorem tags_compared : tags.registry.Built ∧
    (tags.under .itaniumBaseline).layoutOf (.named ⟨2⟩) =
      (.ok taggedLayout : Except LayoutError Layout) ∧
    (tags.under .strictSequential).layoutOf (.named ⟨2⟩) =
      (.ok taggedStrictly : Except LayoutError Layout) ∧
    taggedLayout.Below taggedStrictly ∧
    (tags.under .itaniumBaseline).Solid (.aggregate plainWord) ∧
    ((tags.under .itaniumBaseline).layoutOf (.aggregate plainWord) : Except LayoutError Layout) =
      (tags.under .strictSequential).layoutOf (.aggregate plainWord) := by
  have hl : (tags.under .itaniumBaseline).layoutOf (.named ⟨2⟩) =
      (.ok taggedLayout : Except LayoutError Layout) := by
    decide +kernel
  have hl' : (tags.under .strictSequential).layoutOf (.named ⟨2⟩) =
      (.ok taggedStrictly : Except LayoutError Layout) := by
    decide +kernel
  exact ⟨tags_built, hl, hl', (policies_compared tags_built _).1 _ _ hl hl', plainWord_solid,
    (policies_compared tags_built _).2 plainWord_solid⟩

end LayoutEnv

end TypeLayout
