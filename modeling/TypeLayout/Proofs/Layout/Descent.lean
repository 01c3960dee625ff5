import TypeLayout.Proofs.Layout.Containment
import TypeLayout.Proofs.Layout.Plain
/-! Where a descent goes. Everything a layout asks for is contained by value in what is laid out; if
the layout succeeds, so does all it asked for, and containment below it comes to an end. -/

namespace TypeLayout

open Relation (TransGen)

namespace LaidBase

theorem mem_insertNew {ids : List TypeId} {id v : TypeId} :
    v ∈ insertNew ids id ↔ v ∈ ids ∨ v = id := by
  unfold insertNew
  split
  next h =>
    have hid : id ∈ ids := by simpa using h
    constructor
    · exact Or.inl
    · rintro (h | rfl)
      · exact h
      · exact hid
  next => simp

theorem mem_foldl_insertNew {ids acc : List TypeId} {v : TypeId} :
    v ∈ ids.foldl insertNew acc ↔ v ∈ acc ∨ v ∈ ids := by
  induction ids generalizing acc with
  | nil => simp
  | cons id ids ih =>
    rw [List.foldl_cons, ih, mem_insertNew, List.mem_cons, or_assoc]

theorem mem_virtualBases {bs : List LaidBase} {v : TypeId} :
    v ∈ virtualBases bs ↔
      ∃ b ∈ bs, (b.isVirtual = true ∧ v = b.id) ∨ v ∈ b.layout.virtualBases := by
  unfold virtualBases
  rw [mem_foldl_insertNew]
  simp only [List.not_mem_nil, false_or, List.mem_flatMap]
  refine exists_congr fun b => and_congr_right fun _ => ?_
  unfold brings
  rw [List.mem_append]
  refine or_congr ?_ Iff.rfl
  split
  · simp [*]
  · simp [*]

end LaidBase

namespace LayoutEnv

variable {env : LayoutEnv} {g : Descend (Except LayoutError)} {trail : Trail} {a : Aggregate}
  {name owner : String} {d : Descriptor} {l : Layout} {n : Nat}

theorem baseId_eq_ok {b : BaseSpec} {id : TypeId} :
    env.baseId b = .ok id ↔ env.registry.strip b.type = .named id := by
  unfold baseId
  split
  next j h => rw [h, Except.ok.injEq, Descriptor.named.injEq]
  next other h =>
    constructor
    · intro h'
      cases h'
    · exact fun h' => absurd h' (h id)

def ListsHeld (env : LayoutEnv) (g : Descend (Except LayoutError)) : Prop :=
  ∀ trail d l, g trail d = .ok l → ∀ v ∈ l.virtualBases,
    env.registry.Reaches d (.named v) ∧ ¬ env.registry.IsTypedef v

theorem Lays.contained (hr : env.registry.Founded) (hu : a.kind.isUnion = false) {b : BaseSpec}
    (hb : b ∈ a.bases) {laid : LaidBase} (h : env.Lays g trail b laid) :
    env.registry.Contains (.aggregate a) (.named laid.id) := by
  have hs := hr.reaches_strip b.type
  rw [baseId_eq_ok.mp h.id] at hs
  exact TransGen.head' (.base hu hb) hs

theorem virtualBases_held (hr : env.registry.Founded) (hg : env.ListsHeld g)
    (hu : a.kind.isUnion = false) {bs : List LaidBase}
    (h : env.laidBases g trail a.bases = .ok bs) {v : TypeId} (hv : v ∈ LaidBase.virtualBases bs) :
    env.registry.Contains (.aggregate a) (.named v) ∧ ¬ env.registry.IsTypedef v := by
  obtain ⟨laid, hlaid, hv⟩ := LaidBase.mem_virtualBases.mp hv
  obtain ⟨b, hb, hl⟩ := mem_right_of_forall₂ (laidBases_ok h) hlaid
  have hc := hl.contained hr hu hb
  rcases hv with ⟨-, rfl⟩ | hv
  · exact ⟨hc, hr.strip_not_typedef (baseId_eq_ok.mp hl.id)⟩
  · obtain ⟨hreach, ht⟩ := hg _ _ _ hl.layout v hv
    exact ⟨hc.trans_left hreach, ht⟩

theorem Asks.contained (hr : env.registry.Founded) (hg : env.ListsHeld g)
    (h : env.Asks g trail a name d) : env.registry.Contains (.aggregate a) d := by
  cases h with
  | member hx hw => exact .single (.member hx hw)
  | @base b id hu hb hid =>
    have hs := hr.reaches_strip b.type
    rw [baseId_eq_ok.mp hid] at hs
    exact TransGen.head' (.base hu hb) hs
  | virtualBase hu h hv => exact (virtualBases_held hr hg hu h hv).1

theorem layoutStep_listsHeld (hr : env.registry.Founded) (hg : env.ListsHeld g) :
    env.ListsHeld (env.layoutStep g) := by
  have hagg : ∀ trail a owner l, env.aggregate g trail a owner = .ok l → ∀ v ∈ l.virtualBases,
      env.registry.Reaches (.aggregate a) (.named v) ∧ ¬ env.registry.IsTypedef v := by
    intro trail a owner l h v hv
    rw [aggregate_plain] at h
    split at h
    next hu =>
      rcases union_ok h with ⟨-, rfl⟩ | ⟨-, o, -, hf⟩
      · cases hv
      · unfold Overlay.finish at hf
        split at hf
        · cases hf
        · cases hf
          cases hv
    next hu =>
      obtain ⟨run, rfl⟩ := record_ok h
      obtain ⟨hc, ht⟩ := virtualBases_held hr hg (by simpa using hu) run.laid hv
      exact ⟨hc.to_reflTransGen, ht⟩
  intro trail d l h v hv
  cases layoutStep_ok h with
  | inline h => exact hagg _ _ _ _ h v hv
  | typedef hd h =>
    obtain ⟨hreach, ht⟩ := hg _ _ _ h v hv
    exact ⟨.head (.target hd) hreach, ht⟩
  | body hd _ h =>
    obtain ⟨hreach, ht⟩ := hagg _ _ _ _ h v hv
    exact ⟨.head (.body hd) hreach, ht⟩
  | _ => cases hv

theorem layoutWithin_listsHeld (env : LayoutEnv) (hr : env.registry.Founded) (n : Nat) :
    env.ListsHeld (env.layoutWithin n) := by
  induction n with
  | zero => exact fun trail d l h => by cases h
  | succ n ih => exact layoutStep_listsHeld hr ih

theorem overlayMembers_ok {xs : List Member} {o o' : Overlay}
    (h : env.overlayMembers g trail xs o = .ok o') {x : Member} (hx : x ∈ xs)
    (hw : x.bitWidth = none) : ∃ l, g (trail.enter x.name) x.type = .ok l := by
  induction xs generalizing o with
  | nil => cases hx
  | cons y ys ih =>
    obtain ⟨o₁, ho, h⟩ := bind_eq_ok.mp h
    rcases List.mem_cons.mp hx with rfl | hx
    · unfold overlayMember at ho
      rw [hw] at ho
      obtain ⟨l, hl, -⟩ := bind_eq_ok.mp ho
      exact ⟨l, inMember_eq_ok.mp hl⟩
    · exact ih h hx

theorem placeMembers_ok {xs : List Member} {d d' : Draft}
    (h : env.placeMembers g trail owner xs d = .ok d') {x : Member} (hx : x ∈ xs)
    (hw : x.bitWidth = none) : ∃ l, g (trail.enter x.name) x.type = .ok l := by
  induction xs generalizing d with
  | nil => cases hx
  | cons y ys ih =>
    obtain ⟨d₁, hd, h⟩ := bind_eq_ok.mp h
    rcases List.mem_cons.mp hx with rfl | hx
    · unfold placeMember at hd
      rw [hw] at hd
      obtain ⟨l, hl, -⟩ := bind_eq_ok.mp hd
      exact ⟨l, inMember_eq_ok.mp hl⟩
    · exact ih h hx

theorem placeVirtualBases_ok {ids : List TypeId} {d d' : Draft}
    (h : env.placeVirtualBases g trail owner ids d = .ok d') {id : TypeId} (hid : id ∈ ids) :
    ∃ l, g (trail.enter (env.registry.qualifiedName id)) (.named id) = .ok l := by
  induction ids generalizing d with
  | nil => cases hid
  | cons i is ih =>
    obtain ⟨l, hl, h⟩ := bind_eq_ok.mp h
    obtain ⟨d₁, -, h⟩ := bind_eq_ok.mp h
    rcases List.mem_cons.mp hid with rfl | hid
    · exact ⟨l, hl⟩
    · exact ih h hid

theorem Asks.ok (ha : env.Asks g trail a name d) (h : env.aggregate g trail a owner = .ok l) :
    ∃ l', g (trail.enter name) d = .ok l' := by
  rw [aggregate_plain] at h
  split at h
  next hu =>
    cases ha with
    | @member x hx hw =>
      rcases union_ok h with ⟨hs, -⟩ | ⟨-, o, ho, -⟩
      · have hsep := List.all_eq_true.mp hs x hx
        simp [Member.isSeparator, hw] at hsep
      · exact overlayMembers_ok ho hx hw
    | base hu' => rw [hu] at hu'; cases hu'
    | virtualBase hu' => rw [hu] at hu'; cases hu'
  next hu =>
    obtain ⟨run, rfl⟩ := record_ok h
    cases ha with
    | member hx hw => exact placeMembers_ok run.members hx hw
    | @base b id _ hb hid =>
      obtain ⟨laid, -, hl⟩ := mem_left_of_forall₂ (laidBases_ok run.laid) hb
      have he := hl.id
      rw [hid] at he
      cases he
      rw [← hl.name]
      exact ⟨_, hl.layout⟩
    | virtualBase _ hbs hv =>
      rw [run.laid] at hbs
      cases hbs
      exact placeVirtualBases_ok run.virtuals hv

theorem grounded_of_aggregate_ok (hr : env.registry.Founded)
    (hg : ∀ trail d l, g trail d = .ok l → env.registry.Grounded (fun _ => True) d)
    (h : env.aggregate g trail a owner = .ok l) :
    env.registry.Grounded (fun _ => True) (.aggregate a) := by
  refine .intro trivial fun x hx => ?_
  cases hx with
  | member hx hw =>
    obtain ⟨l', hl⟩ := (Asks.member hx hw : env.Asks g trail a _ _).ok h
    exact hg _ _ _ hl
  | @base _ b hu hb =>
    rw [aggregate_plain, hu] at h
    obtain ⟨run, rfl⟩ := record_ok h
    obtain ⟨laid, -, hl⟩ := mem_left_of_forall₂ (laidBases_ok run.laid) hb
    refine hr.grounded_of_strip (fun _ _ => trivial) ?_
    rw [baseId_eq_ok.mp hl.id]
    exact hg _ _ _ hl.layout

theorem grounded_of_ok (hr : env.registry.Founded)
    (h : (env.layoutWithin n trail d : Except LayoutError Layout) = .ok l) :
    env.registry.Grounded (fun _ => True) d := by
  induction n generalizing trail d l with
  | zero => cases h
  | succ n ih =>
    have hagg : ∀ {trail a owner l},
        env.aggregate (env.layoutWithin n) trail a owner = Except.ok l →
        env.registry.Grounded (fun _ => True) (.aggregate a) :=
      grounded_of_aggregate_ok (g := env.layoutWithin n) hr fun _ _ _ => ih
    cases layoutStep_ok h with
    | array hl =>
      refine .intro trivial fun x hx => ?_
      cases hx
      exact ih hl
    | inline hl => exact hagg hl
    | typedef hd hl =>
      refine .intro trivial fun x hx => ?_
      obtain rfl := (Registry.holds_typedef hd).mp hx
      exact ih hl
    | namedEnum hd => exact .intro trivial fun x hx => absurd hx (Registry.not_holds_enum hd)
    | body hd _ hl =>
      refine .intro trivial fun x hx => ?_
      obtain rfl := (Registry.holds_body hd).mp hx
      exact hagg hl
    | _ => exact .intro trivial fun x hx => by cases hx

end LayoutEnv

end TypeLayout
