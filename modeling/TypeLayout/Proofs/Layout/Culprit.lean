import TypeLayout.Proofs.Layout.Cycle
import TypeLayout.Proofs.Layout.Unveiling
/-! Which member a cycle is blamed on. Each aggregate in progress is on the trail with the member or
base last entered, which leads to what is being laid out. An unnamed body has no frame of its own:
its members are entered in the frame of the named aggregate around it. -/

namespace TypeLayout

open Relation (ReflTransGen TransGen)

namespace Registry

variable {r : Registry} {a b : Aggregate} {d x : Descriptor} {name : String}

/-- What a type holds in place: array elements, plain members and what typedefs stand for. -/
inductive HoldsInPlace (r : Registry) : Descriptor → Descriptor → Prop
  | element {d : Descriptor} {n : Nat} : HoldsInPlace r (.array d n) d
  | member {a : Aggregate} {x : Member} : x ∈ a.members → x.bitWidth = none →
    HoldsInPlace r (.aggregate a) x.type
  | target {id : TypeId} {t : Descriptor} : r.definition? id = some (.typedef t) →
    HoldsInPlace r (.named id) t

abbrev Encloses (r : Registry) (d : Descriptor) (b : Aggregate) : Prop :=
  ReflTransGen r.HoldsInPlace d (.aggregate b)

inductive Part (r : Registry) (a : Aggregate) : String → Descriptor → Prop
  | member {x : Member} : x ∈ a.members → x.bitWidth = none → Part r a x.name x.type
  | base {b : BaseSpec} {id : TypeId} : a.kind.isUnion = false → b ∈ a.bases →
    r.strip b.type = .named id → Part r a (r.qualifiedName id) b.type

theorem HoldsInPlace.holds (h : r.HoldsInPlace d x) : r.Holds d x := by
  cases h with
  | element => exact .element
  | member hx hw => exact .member hx hw
  | target ht => exact .target ht

theorem Encloses.reaches (h : r.Encloses d b) : r.Reaches d (.aggregate b) :=
  ReflTransGen.mono (fun _ _ => HoldsInPlace.holds) _ _ h

theorem Part.holds (h : r.Part a name x) : r.Holds (.aggregate a) x := by
  cases h with
  | member hx hw => exact .member hx hw
  | base hu hb _ => exact .base hu hb

theorem not_encloses_named {id : TypeId} (hid : ¬ r.IsTypedef id) : ¬ r.Encloses (.named id) b := by
  intro h
  rcases ReflTransGen.cases_head h with he | ⟨x, hx, -⟩
  · cases he
  · cases hx with
    | target ht => exact hid ⟨_, ht⟩

end Registry

open Registry

variable {env : LayoutEnv} {r : Registry} {trail : Trail} {f : Frame} {a b : Aggregate}
  {d x : Descriptor} {name : String} {n : Nat}

def Frame.Leads (r : Registry) (f : Frame) (d : Descriptor) : Prop :=
  ∃ a b x, r.definition? f.id = some (.aggregate a) ∧ r.Encloses (.aggregate a) b ∧
    r.Part b f.member x ∧ r.Reaches x d

theorem Frame.Leads.reached (h : f.Leads r d) (hx : r.Reaches d x) : f.Leads r x := by
  obtain ⟨a, b, y, ha, hb, hy, hyd⟩ := h
  exact ⟨a, b, y, ha, hb, hy, hyd.trans hx⟩

theorem Frame.Leads.contains (h : f.Leads r d) : r.Contains (.named f.id) d := by
  obtain ⟨a, b, y, ha, hb, hy, hyd⟩ := h
  exact TransGen.head' (.body ha) (hb.reaches.trans (.head hy.holds hyd))

theorem Frame.Leads.part (h : f.Leads r d) : ∃ a own y,
    r.definition? f.id = some (.aggregate a) ∧ r.Part a own y ∧ r.Reaches y d ∧
      (f.member = own ∨ ∃ b z, r.Encloses y b ∧ r.Part b f.member z ∧ r.Reaches z d) := by
  obtain ⟨a, b, z, ha, hb, hz, hzd⟩ := h
  rcases ReflTransGen.cases_head hb with he | ⟨y, hy, hyb⟩
  · cases he
    exact ⟨a, f.member, z, ha, hz, hzd, Or.inl rfl⟩
  · cases hy with
    | member hx hw =>
      have hreach := (Encloses.reaches hyb).trans (.head hz.holds hzd)
      exact ⟨a, _, _, ha, .member hx hw, hreach, Or.inr ⟨b, z, hyb, hz, hzd⟩⟩

namespace Trail

/-- Every member on the trail leads to the type, and the unnamed bodies in the type lie in the
innermost aggregate in progress. -/
structure Tracks (r : Registry) (trail : Trail) (d : Descriptor) : Prop where
  leads : ∀ f ∈ trail, f.Leads r d
  inside : ∀ f ∈ trail.head?, ∀ b, r.Encloses d b →
    ∃ a, r.definition? f.id = some (.aggregate a) ∧ r.Encloses (.aggregate a) b

/-- The body is that of the innermost aggregate in progress or lies in it. What that frame has as
its member says nothing yet. -/
structure Hosts (r : Registry) (trail : Trail) (b : Aggregate) : Prop where
  leads : ∀ f ∈ trail.tail, f.Leads r (.aggregate b)
  inside : ∀ f ∈ trail.head?,
    ∃ a, r.definition? f.id = some (.aggregate a) ∧ r.Encloses (.aggregate a) b

theorem tracks_nil (r : Registry) (d : Descriptor) : Tracks r [] d :=
  ⟨fun f hf => (by cases hf), fun f hf => (by cases hf)⟩

theorem Tracks.inPlace (h : Tracks r trail d) (hx : r.HoldsInPlace d x) : Tracks r trail x where
  leads f hf := (h.leads f hf).reached (.single hx.holds)
  inside f hf b hb := h.inside f hf b (.head hx hb)

theorem Tracks.hosts (h : Tracks r trail (.aggregate b)) : Hosts r trail b where
  leads f hf := h.leads f (List.mem_of_mem_tail hf)
  inside f hf := h.inside f hf b .refl

theorem Tracks.push {id : TypeId} (h : Tracks r trail (.named id))
    (ha : r.definition? id = some (.aggregate a)) : Hosts r (⟨id, ""⟩ :: trail) a where
  leads f hf := (h.leads f hf).reached (.single (.body ha))
  inside f hf := by
    cases hf
    exact ⟨a, ha, .refl⟩

theorem Hosts.leads_enter (h : Hosts r trail b) (hx : r.Part b name x) (hd : r.Reaches x d) :
    ∀ f ∈ trail.enter name, f.Leads r d := by
  cases trail with
  | nil =>
    intro f hf
    cases hf
  | cons f₀ fs =>
    intro f hf
    rcases List.mem_cons.mp hf with rfl | hf
    · obtain ⟨a, ha, hb⟩ := h.inside f₀ rfl
      exact ⟨a, b, x, ha, hb, hx, hd⟩
    · exact (h.leads f hf).reached (.head hx.holds hd)

theorem id_of_head?_enter (hf : f ∈ (trail.enter name).head?) :
    ∃ f' ∈ trail.head?, f'.id = f.id := by
  cases trail with
  | nil => cases hf
  | cons f₀ fs =>
    cases hf
    exact ⟨f₀, rfl, rfl⟩

theorem Hosts.member (h : Hosts r trail b) {x : Member} (hx : x ∈ b.members)
    (hw : x.bitWidth = none) : Tracks r (trail.enter x.name) x.type where
  leads := h.leads_enter (.member hx hw) .refl
  inside f hf c hc := by
    obtain ⟨f', hf', hid⟩ := id_of_head?_enter hf
    obtain ⟨a, ha, hb⟩ := h.inside f' hf'
    rw [hid] at ha
    exact ⟨a, ha, hb.trans (.head (.member hx hw) hc)⟩

theorem Hosts.base (h : Hosts r trail b) (hr : r.Founded) {s : BaseSpec} {id : TypeId}
    (hu : b.kind.isUnion = false) (hs : s ∈ b.bases) (hid : r.strip s.type = .named id) :
    Tracks r (trail.enter (r.qualifiedName id)) (.named id) where
  leads := by
    have hreach := hr.reaches_strip s.type
    rw [hid] at hreach
    exact h.leads_enter (.base hu hs hid) hreach
  inside f _ c hc := absurd hc (not_encloses_named (hr.strip_not_typedef hid))

theorem Hosts.holding (h : Hosts r trail b) : LayoutEnv.Holding r trail (.aggregate b) := by
  cases trail with
  | nil =>
    intro f hf
    cases hf
  | cons f₀ fs =>
    intro f hf
    rcases List.mem_cons.mp hf with rfl | hf
    · obtain ⟨a, ha, hb⟩ := h.inside f rfl
      exact TransGen.head' (.body ha) hb.reaches
    · exact (h.leads f hf).contains

end Trail

namespace LayoutEnv

open Trail

/-- An error that reports a cycle names an aggregate below `d` and what leads back to it. -/
def CulpritBelow (r : Registry) (d : Descriptor) (e : LayoutError) : Prop :=
  ∀ aggregate member, e = .cyclicAggregate aggregate member → ∃ id,
    aggregate = r.qualifiedName id ∧ r.Reaches d (.named id) ∧
      Frame.Leads r ⟨id, member⟩ (.named id)

theorem CulpritBelow.above {e : LayoutError} (hx : r.Reaches d x) (h : CulpritBelow r x e) :
    CulpritBelow r d e := by
  intro aggregate member he
  obtain ⟨id, hname, hreach, hleads⟩ := h aggregate member he
  exact ⟨id, hname, hx.trans hreach, hleads⟩

theorem CulpritBelow.inMember {e : LayoutError} (h : CulpritBelow r d e) (name : String) :
    CulpritBelow r d (e.inMember name) :=
  fun aggregate member he => h aggregate member (inMember_eq_cyclicAggregate.mp he)

theorem NoCycle.culpritBelow {e : LayoutError} (h : NoCycle e) : CulpritBelow r d e :=
  fun aggregate member he => absurd he (h aggregate member)

/-- A virtual base was laid out with the direct base that brought it, so it has no cycle below. -/
theorem virtualBase_noCycle (hr : env.registry.Founded)
    (hu : a.kind.isUnion = false) (hf : env.registry.Fits (n + 1) trail (.aggregate a))
    (ht : Hosts env.registry trail a) {bs : List LaidBase}
    (hbs : env.laidBases (env.layoutWithin n) trail a.bases =
      (.ok bs : Except LayoutError (List LaidBase))) {v : TypeId}
    (hv : v ∈ LaidBase.virtualBases bs) :
    FailsBy NoCycle
      (env.layoutWithin n (trail.enter (env.registry.qualifiedName v)) (.named v)) := by
  intro e he aggregate member hcyclic
  have hheld := layoutWithin_listsHeld env hr n
  have hask : env.Asks (env.layoutWithin n) trail a _ _ := .virtualBase hu hbs hv
  have hin := hask.contained hr hheld
  have hholding := (ht.holding.reached hin.to_reflTransGen).enter (env.registry.qualifiedName v)
  obtain ⟨id, -, -, hreach, hself, -⟩ :=
    layoutWithin_cycleBelow hr (hask.fits hr hheld hf) hholding e he aggregate member hcyclic
  obtain ⟨laid, hlaid, hv⟩ := LaidBase.mem_virtualBases.mp hv
  obtain ⟨s, -, hl⟩ := mem_right_of_forall₂ (laidBases_ok hbs) hlaid
  have hbase : env.registry.Reaches (.named laid.id) (.named v) := by
    rcases hv with ⟨-, rfl⟩ | hv
    · exact .refl
    · exact (hheld _ _ _ hl.layout v hv).1
  exact ((grounded_of_ok hr hl.layout).reached (hbase.trans hreach)).not_contains_self hself

theorem layoutWithin_culpritBelow (hr : env.registry.Founded) (hf : env.registry.Fits n trail d)
    (ht : Tracks env.registry trail d) :
    FailsBy (CulpritBelow env.registry d) (env.layoutWithin n trail d) := by
  induction n generalizing trail d with
  | zero => exact absurd hf not_fits_zero
  | succ n ih =>
    have hheld := layoutWithin_listsHeld env hr n
    have hagg : ∀ {trail a owner}, env.registry.Fits (n + 1) trail (.aggregate a) →
        Hosts env.registry trail a →
        FailsBy (CulpritBelow env.registry (.aggregate a))
          (env.aggregate (env.layoutWithin n) trail a owner) := by
      intro trail a owner hf ht
      refine Blames.aggregate ⟨?_,
        fun _ _ _ _ => fittingUnit_noCycle.mono fun _ h => h.culpritBelow,
        fun _ _ _ => baseId_noCycle.mono fun _ h => h.culpritBelow, fun _ _ _ _ h => by cases h⟩
      intro name x hx e he
      suffices h : CulpritBelow env.registry x e by
        have habove := h.above (hx.contained hr hheld).to_reflTransGen
        exact ⟨habove, habove.inMember name⟩
      have hfits := hx.fits hr hheld hf
      cases hx with
      | member hx hw => exact ih hfits (ht.member hx hw) e he
      | base hu hb hid => exact ih hfits (ht.base hr hu hb (baseId_eq_ok.mp hid)) e he
      | virtualBase hu hbs hv => exact (virtualBase_noCycle hr hu hf ht hbs hv e he).culpritBelow
    change FailsBy _ (env.layoutStep (env.layoutWithin n) trail d)
    cases d with
    | fundamental kind => exact .lift ((fundamental_noCycle kind).mono fun _ h => h.culpritBelow)
    | pointer d => exact .ok _
    | array x count =>
      have hw : x.weight < (Descriptor.array x count).weight := Nat.lt_succ_self _
      refine .bind (fun e he => ?_) fun l _ =>
        .lift (array_noCycle.mono fun _ h => h.culpritBelow)
      exact (ih (hf.inside (x := x) (fun _ hid => hid) hw) (ht.inPlace .element) e he).above
        (.single .element)
    | enum e => exact .lift ((fundamental_noCycle e.underlying).mono fun _ h => h.culpritBelow)
    | aggregate a => exact hagg hf ht.hosts
    | named id =>
      refine .bind (.lift (definition_noCycle.mono fun _ h => h.culpritBelow)) fun d hd => ?_
      rw [ofExcept_eq, definition_eq_ok] at hd
      cases d with
      | typedef t =>
        exact fun e he =>
          (ih (hf.typedef hr hd) (ht.inPlace (.target hd)) e he).above (.single (.target hd))
      | enum e => exact .lift ((fundamental_noCycle e.underlying).mono fun _ h => h.culpritBelow)
      | aggregate a =>
        change FailsBy _ (env.namedAggregate (env.layoutWithin n) trail id a)
        rw [namedAggregate_plain]
        split
        next frame hframe =>
          -- the frame that is met again has the member that leads here
          refine .error fun aggregate member he => ?_
          cases he
          have hid : frame.id = id := by simpa using List.find?_some hframe
          have hleads := ht.leads frame (List.mem_of_find?_eq_some hframe)
          rw [← hid] at hleads ⊢
          exact ⟨frame.id, rfl, .refl, hleads⟩
        next hnone =>
          exact fun e he => (hagg (hf.body hd hnone) (ht.push hd) e he).above (.single (.body hd))

/-- A cycle is reported of an aggregate with a part that leads back to it. The member reported is
that part; but where the part holds unnamed bodies, it may be a part of one of these, which leads
back too. -/
theorem layoutOf_cyclic_blames (hb : env.registry.Built) {i : TypeId} {aggregate member : String}
    (h : env.layoutOf (.named i) =
      (.error (.cyclicAggregate aggregate member) : Except LayoutError Layout)) :
    ∃ id a own x, env.registry.definition? id = some (.aggregate a) ∧
      aggregate = env.registry.qualifiedName id ∧
      env.registry.Reaches (.named i) (.named id) ∧
      env.registry.Part a own x ∧ env.registry.Reaches x (.named id) ∧
      (member = own ∨ ∃ b y, env.registry.Encloses x b ∧ env.registry.Part b member y ∧
        env.registry.Reaches y (.named id)) := by
  have hfits := env.registry.fits_layoutFuel (.named i)
  obtain ⟨id, hname, hreach, hleads⟩ := layoutWithin_culpritBelow hb.wellFormed.toFounded hfits
    (tracks_nil _ _) _ h aggregate member rfl
  obtain ⟨a, own, x, ha, hpart, hx, hmember⟩ := hleads.part
  exact ⟨id, a, own, x, ha, hname, hreach, hpart, hx, hmember⟩

def chainLink : Aggregate :=
  ⟨.structType, some "Link", [⟨"weight", .fundamental .int, none⟩], [⟨.named ⟨0⟩, false⟩], []⟩

def chainNode : Aggregate :=
  ⟨.structType, some "Node", [⟨"content", .aggregate
    ⟨.unionType, none, [⟨"count", .fundamental .int, none⟩,
      ⟨"links", .array (.named ⟨1⟩) 2, none⟩], [], []⟩, none⟩], [], []⟩

def chained : LayoutEnv where
  registry :=
    ((empty.alloc .global "Node" (.forward (.aggregate .structType))).2.adding
      [("Link", .aggregate chainLink)]).setState ⟨0⟩ (.defined (.aggregate chainNode))
  machine := Profile.lp64.machine
  policy := .itaniumBaseline

theorem chained_built : chained.registry.Built := by
  have hdeclare : empty.declare .global "Node" (.aggregate .structType) =
      .ok (empty.alloc .global "Node" (.forward (.aggregate .structType))) := by
    rfl
  have hdefine : define ((empty.alloc .global "Node" (.forward (.aggregate .structType))).2.adding
      [("Link", .aggregate chainLink)]) .global "Node" (.aggregate chainNode) =
        .ok (⟨0⟩, chained.registry) := by
    rfl
  refine .define ((Built.declare .empty (by decide) hdeclare).adding (by decide)) (by decide) ?_
    hdefine
  intro j hj
  obtain rfl := List.mem_singleton.mp hj
  decide

theorem chained_blames_base : chained.registry.Built ∧
    chained.layoutOf (.named ⟨1⟩) =
      (.error (.cyclicAggregate "Link" "Node") : Except LayoutError Layout) ∧
    ∃ id a own x, chained.registry.definition? id = some (.aggregate a) ∧
      "Link" = chained.registry.qualifiedName id ∧
      chained.registry.Reaches (.named ⟨1⟩) (.named id) ∧
      chained.registry.Part a own x ∧ chained.registry.Reaches x (.named id) ∧
      ("Node" = own ∨ ∃ b y, chained.registry.Encloses x b ∧ chained.registry.Part b "Node" y ∧
        chained.registry.Reaches y (.named id)) := by
  have h : chained.layoutOf (.named ⟨1⟩) =
      (.error (.cyclicAggregate "Link" "Node") : Except LayoutError Layout) := by
    rfl
  exact ⟨chained_built, h, layoutOf_cyclic_blames chained_built h⟩

/-- The cycle from `Node` on is blamed on a member of the unnamed union, which no part of the only
aggregate of that name is called. -/
theorem chained_blames_unnamed_part : chained.registry.Built ∧
    chained.layoutOf (.named ⟨0⟩) =
      (.error (.cyclicAggregate "Node" "links") : Except LayoutError Layout) ∧
    ∀ id a x, chained.registry.definition? id = some (.aggregate a) →
      chained.registry.qualifiedName id = "Node" → ¬ chained.registry.Part a "links" x := by
  refine ⟨chained_built, by rfl, fun ⟨i⟩ a x ha hname hpart => ?_⟩
  have hlt : i < 2 := definition?_lt ha
  match i, hlt with
  | 0, _ =>
    cases ha
    generalize hlinks : "links" = name at hpart
    cases hpart with
    | member hx _ =>
      obtain rfl := List.mem_singleton.mp hx
      exact absurd hlinks (by decide)
    | base _ hb _ => cases hb
  | 1, _ => exact absurd hname (by decide)

end LayoutEnv

end TypeLayout
