import TypeLayout.Proofs.Layout.Conformance
import TypeLayout.Proofs.Layout.Regular
/-! The rule has one solution below a type that is complete and does not contain itself, whatever
depth it is unfolded to. -/

namespace TypeLayout

open Relation (ReflTransGen TransGen)
open Registry

namespace Registry

variable {r : Registry} {d : Descriptor} {P : Descriptor → Prop}

theorem forall_reaches_iff : (∀ z, r.Reaches d z → P z) ↔
    P d ∧ ∀ x, r.Holds d x → ∀ z, r.Reaches x z → P z := by
  refine ⟨fun h => ⟨h d .refl, fun x hx z hz => h z (.head hx hz)⟩, fun h z hz => ?_⟩
  rcases ReflTransGen.cases_head hz with rfl | ⟨x, hx, hz⟩
  · exact h.1
  · exact h.2 x hx z hz

theorem forall_reaches_of_leaf (hd : ∀ x, ¬ r.Holds d x) :
    (∀ z, r.Reaches d z → P z) ↔ P d :=
  forall_reaches_iff.trans (and_iff_left fun x hx => absurd hx (hd x))

theorem weight_le_weightBelow {n : Nat} {id : TypeId} {def' : Definition}
    (h : r.definition? id = some def') (hn : id.index < n) : def'.weight ≤ r.weightBelow n := by
  induction n with
  | zero => exact absurd hn (Nat.not_lt_zero _)
  | succ n ih =>
    rcases Nat.lt_or_eq_of_le (Nat.le_of_lt_succ hn) with hlt | rfl
    · exact Nat.le_trans (ih hlt) (Nat.le_add_right _ _)
    · rw [weightBelow_succ_of_some h]
      exact Nat.le_add_left _ _

theorem weight_le {id : TypeId} {def' : Definition} (h : r.definition? id = some def') :
    def'.weight ≤ r.weight := weight_le_weightBelow h (definition?_lt h)

end Registry

namespace LayoutEnv

variable {env : LayoutEnv} {trail : Trail} {a : Aggregate} {owner : String} {d z : Descriptor}
  {n n' : Nat} {x x' : Descriptor → Layout}

/-- What the rule speaks of, beside that nothing contains itself: complete types without bit-fields,
bases that are reached by a name, and array elements that take space. -/
def Simple (env : LayoutEnv) : Descriptor → Prop
  | .fundamental kind => kind ≠ .void
  | .pointer _ => True
  | .array element _ => (env.exact element).size ≠ 0
  | .enum e => e.underlying ≠ .void
  | .aggregate a =>
    (∀ x ∈ a.members, x.bitWidth = none) ∧
    (a.kind.isUnion = false → ∀ b ∈ a.bases, ∃ id, env.registry.strip b.type = .named id)
  | .named id => ∃ def', env.registry.definition? id = some def' ∧
    ∀ e, def' = .enum e → e.underlying ≠ .void

/-- Everything a type contains by value is simple, and nothing contains itself. -/
structure Tractable (env : LayoutEnv) (d : Descriptor) : Prop where
  simple : ∀ z, env.registry.Reaches d z → env.Simple z
  acyclic : ∀ z, env.registry.Reaches d z → ¬ env.registry.Contains z z

theorem Tractable.held (h : env.Tractable d) (hz : env.registry.Holds d z) : env.Tractable z :=
  ⟨fun w hw => h.simple w (.head hz hw), fun w hw => h.acyclic w (.head hz hw)⟩

theorem Tractable.grounded_of_fits (hr : env.registry.Founded) (hf : env.registry.Fits n trail d)
    (hc : Clear env.registry trail d) (h : env.Tractable d) :
    env.registry.Grounded env.Simple d := by
  induction n generalizing trail d with
  | zero => exact absurd hf not_fits_zero
  | succ n ih =>
    have hagg : ∀ {trail a}, env.registry.Fits (n + 1) trail (.aggregate a) →
        (∀ z, env.registry.Contains (.aggregate a) z → Clear env.registry trail z) →
        env.Tractable (.aggregate a) → env.registry.Grounded env.Simple (.aggregate a) := by
      intro trail a hf hc h
      refine .intro (h.simple _ .refl) fun z hz => ?_
      refine ih ?_ (hc z (.single hz)) (h.held hz)
      cases hz with
      | @member _ x hx _ =>
        exact hf.inside (fun id hid => mem_mentions_aggregate.mpr (Or.inl ⟨x, hx, hid⟩))
          (Aggregate.weight_member_lt hx)
      | @base _ b _ hb =>
        exact hf.inside (fun id hid => mem_mentions_aggregate.mpr (Or.inr ⟨b, hb, hid⟩))
          (Aggregate.weight_base_lt hb)
    cases d with
    | array element count =>
      refine .intro (h.simple _ .refl) fun z hz => ?_
      have hheld := h.held hz
      cases hz
      have hw : element.weight < (Descriptor.array element count).weight := Nat.lt_succ_self _
      exact ih (hf.inside (fun _ hid => hid) hw) (hc.reached (.single .element)) hheld
    | aggregate a => exact hagg hf (fun z hz => hc.reached hz.to_reflTransGen) h
    | named id =>
      refine .intro (h.simple _ .refl) fun z hz => ?_
      have hheld := h.held hz
      cases hz with
      | target ht => exact ih (hf.typedef hr ht) (hc.reached (.single (.target ht))) hheld
      | body ha =>
        have hf : env.registry.Fits (n + 1) (⟨id, ""⟩ :: trail) _ := hf.body ha hc.find?
        refine hagg hf (fun z hz => ?_) hheld
        exact hc.push (h.acyclic _ .refl) (TransGen.head (.body ha) hz)
    | _ => exact .intro (h.simple _ .refl) fun z hz => by cases hz

theorem Tractable.grounded (hr : env.registry.Founded) (h : env.Tractable d) :
    env.registry.Grounded env.Simple d :=
  h.grounded_of_fits hr (env.registry.fits_layoutFuel d) (clear_nil _ d)

def answering (x : Descriptor → Layout) : Descend (Except LayoutError) := fun _ d => .ok (x d)

theorem basesBy_mem {bs : List BaseSpec} {laid : LaidBase} (h : laid ∈ env.basesBy x bs) :
    ∃ b ∈ bs, env.registry.strip b.type = .named laid.id ∧ laid.layout = x (.named laid.id) := by
  obtain ⟨b, hb, he⟩ := List.mem_filterMap.mp h
  split at he
  next id hid =>
    cases he
    exact ⟨b, hb, hid, rfl⟩
  next => cases he

theorem virtualBases_fundamentalBy (kind : Fundamental) :
    (env.fundamentalBy kind).virtualBases = [] := by
  unfold fundamentalBy
  split
  · rfl
  · rfl

theorem aggregateBy_listsHeld (hr : env.registry.Founded) (hx : env.ListsHeld (answering x))
    {v : TypeId} (hv : v ∈ (env.aggregateBy x owner a).virtualBases) :
    env.registry.Reaches (.aggregate a) (.named v) ∧ ¬ env.registry.IsTypedef v := by
  unfold aggregateBy at hv
  split at hv
  · unfold unionBy at hv
    split at hv
    · cases hv
    · cases hv
  next hu =>
    obtain ⟨laid, hlaid, hv⟩ := LaidBase.mem_virtualBases.mp hv
    obtain ⟨b, hb, hid, hl⟩ := basesBy_mem hlaid
    have hreach : env.registry.Reaches (.aggregate a) (.named laid.id) :=
      .head (.base (by simpa using hu) hb) (hid ▸ hr.reaches_strip b.type)
    rcases hv with ⟨-, rfl⟩ | hv
    · exact ⟨hreach, hr.strip_not_typedef hid⟩
    · rw [hl] at hv
      obtain ⟨hbelow, ht⟩ := hx [] _ _ rfl v hv
      exact ⟨hreach.trans hbelow, ht⟩

theorem exactWithin_listsHeld (env : LayoutEnv) (hr : env.registry.Founded) (n : Nat) :
    env.ListsHeld (answering (env.exactWithin n)) := by
  induction n with
  | zero =>
    intro _ d l h v hv
    cases h
    cases hv
  | succ n ih =>
    intro _ d l h v hv
    cases h
    change v ∈ (env.rule (env.exactWithin n) d).virtualBases at hv
    cases d with
    | fundamental kind =>
      rw [rule, virtualBases_fundamentalBy] at hv
      cases hv
    | enum e =>
      rw [rule, virtualBases_fundamentalBy] at hv
      cases hv
    | pointer d => cases hv
    | array element count => cases hv
    | aggregate a => exact aggregateBy_listsHeld hr ih hv
    | named id =>
      cases hdef : env.registry.definition? id with
      | none =>
        rw [rule_undefined hdef] at hv
        cases hv
      | some def' =>
        cases def' with
        | typedef t =>
          rw [rule_typedef hdef] at hv
          obtain ⟨hx, ht⟩ := ih [] _ _ rfl v hv
          exact ⟨.head (.target hdef) hx, ht⟩
        | enum e =>
          rw [rule_enum hdef, virtualBases_fundamentalBy] at hv
          cases hv
        | aggregate a =>
          rw [rule_body hdef] at hv
          obtain ⟨hx, ht⟩ := aggregateBy_listsHeld hr ih hv
          exact ⟨.head (.body hdef) hx, ht⟩

theorem laidBases_ok_basesBy {bs : List BaseSpec}
    (hb : ∀ b ∈ bs, ∃ id, env.registry.strip b.type = .named id) :
    env.laidBases (answering x) trail bs = .ok (env.basesBy x bs) := by
  have hlaid : Answers (env.laidBases (answering x) trail bs) _ (env.basesBy x bs) :=
    laidBases_answers (Q := fun _ => True) hb fun _ _ id _ => Answers.ok (x (.named id))
  exact hlaid.eq_ok fun _ _ => trivial

theorem unionBy_congr (h : ∀ m ∈ a.members, x m.type = x' m.type) :
    env.unionBy x a = env.unionBy x' a := by
  have hmap : ∀ {α : Type} (f : Member → Layout → α),
      a.members.map (fun m => f m (x m.type)) = a.members.map fun m => f m (x' m.type) :=
    fun f => List.map_congr_left fun m hm => by rw [h m hm]
  unfold unionBy
  rw [hmap fun _ l => l.size, hmap fun _ l => l.align, hmap fun m l =>
    (⟨m.name, env.registry.typeName m.type, 0, l.size, l.align, .whole⟩ : Field)]

theorem aggregateBy_congr (trail : Trail) (hw : ∀ m ∈ a.members, m.bitWidth = none)
    (hb : a.kind.isUnion = false → ∀ b ∈ a.bases, ∃ id, env.registry.strip b.type = .named id)
    (h : ∀ name z, env.Asks (answering x) trail a name z → x z = x' z) :
    env.aggregateBy x owner a = env.aggregateBy x' owner a := by
  have hmember : ∀ m ∈ a.members, x m.type = x' m.type := fun m hm => h _ _ (.member hm (hw m hm))
  unfold aggregateBy
  split
  next => exact unionBy_congr hmember
  next hu =>
    have hu : a.kind.isUnion = false := by simpa using hu
    have hbases : env.basesBy x a.bases = env.basesBy x' a.bases := by
      refine List.filterMap_congr fun b hb' => ?_
      split
      next id hid => rw [h _ _ (.base hu hb' (baseId_eq_ok.mpr hid))]
      next => rfl
    have hmembers : a.members.map (fun m => Part.member m (x m.type)) =
        a.members.map fun m => Part.member m (x' m.type) :=
      List.map_congr_left fun m hm => by rw [hmember m hm]
    have hvirtual : env.virtualBasesBy x (LaidBase.virtualBases (env.basesBy x a.bases)) =
        env.virtualBasesBy x' (LaidBase.virtualBases (env.basesBy x a.bases)) := by
      refine List.map_congr_left fun v hv => ?_
      rw [h _ _ (.virtualBase hu (laidBases_ok_basesBy (hb hu)) hv)]
    unfold recordBy sharedStart sharedParts ownParts
    rw [hvirtual, hbases, hmembers]

theorem exactWithin_eq (hr : env.registry.Founded) (hf : env.registry.Fits n trail d)
    (hf' : env.registry.Fits n' trail d) (hc : Clear env.registry trail d)
    (hd : env.registry.Grounded env.Simple d) : env.exactWithin n d = env.exactWithin n' d := by
  induction n generalizing n' trail d with
  | zero => exact absurd hf not_fits_zero
  | succ n ih =>
    cases n' with
    | zero => exact absurd hf' not_fits_zero
    | succ n' =>
      have hheld := env.exactWithin_listsHeld hr n
      have hagg : ∀ {trail a owner}, env.registry.Fits (n + 1) trail (.aggregate a) →
          env.registry.Fits (n' + 1) trail (.aggregate a) →
          (∀ z, env.registry.Contains (.aggregate a) z → Clear env.registry trail z) →
          env.registry.Grounded env.Simple (.aggregate a) →
          env.aggregateBy (env.exactWithin n) owner a =
            env.aggregateBy (env.exactWithin n') owner a := by
        intro trail a owner hf hf' hc hd
        refine aggregateBy_congr trail hd.here.1 hd.here.2 fun name z hz => ?_
        have hin := hz.contained hr hheld
        exact ih (hz.fits hr hheld hf) (hz.fits hr hheld hf') ((hc z hin).enter name)
          (hd.reached hin.to_reflTransGen)
      change env.rule (env.exactWithin n) d = env.rule (env.exactWithin n') d
      cases d with
      | array element count =>
        have hw : element.weight < (Descriptor.array element count).weight := Nat.lt_succ_self _
        have he : env.exactWithin n element = env.exactWithin n' element :=
          ih (hf.inside (fun _ hid => hid) hw) (hf'.inside (fun _ hid => hid) hw)
            (hc.reached (.single .element)) (hd.held .element)
        simp only [rule, he]
      | aggregate a => exact hagg hf hf' (fun z hz => hc.reached hz.to_reflTransGen) hd
      | named id =>
        obtain ⟨def', hdef, -⟩ := hd.here
        cases def' with
        | typedef t =>
          rw [rule_typedef hdef, rule_typedef hdef]
          exact ih (hf.typedef hr hdef) (hf'.typedef hr hdef) (hc.reached (.single (.target hdef)))
            (hd.held (.target hdef))
        | enum e => rw [rule_enum hdef, rule_enum hdef]
        | aggregate a =>
          rw [rule_body hdef, rule_body hdef]
          have hb : env.registry.Fits (n + 1) (⟨id, ""⟩ :: trail) _ := hf.body hdef hc.find?
          refine hagg hb (hf'.body hdef hc.find?) (fun z hz => ?_) (hd.held (.body hdef))
          exact hc.push hd.not_contains_self (TransGen.head (.body hdef) hz)
      | _ => rfl

theorem exactWithin_eq_exact (hr : env.registry.Founded)
    (hd : env.registry.Grounded env.Simple d) (hn : env.registry.layoutFuel d ≤ n) :
    env.exactWithin n d = env.exact d := by
  have hf := env.registry.fits_layoutFuel d
  exact exactWithin_eq hr (hf.mono hn) hf (clear_nil _ d) hd

theorem layoutFuel_le_add {w : Nat} (h : z.weight ≤ d.weight + w) :
    env.registry.layoutFuel z ≤ env.registry.layoutFuel d + w := by
  unfold layoutFuel
  omega

theorem aggregateBy_exactWithin (hr : env.registry.Founded)
    (hn : env.registry.layoutFuel (.aggregate a) ≤ n)
    (hd : env.registry.Grounded env.Simple (.aggregate a)) :
    env.aggregateBy (env.exactWithin n) owner a = env.aggregateBy env.exact owner a := by
  refine aggregateBy_congr [] hd.here.1 hd.here.2 fun name z hz => ?_
  have hin := hz.contained hr (env.exactWithin_listsHeld hr n)
  have hw : z.weight ≤ (Descriptor.aggregate a).weight + 0 := by
    cases hz with
    | member hx _ => exact Nat.le_of_lt (Aggregate.weight_member_lt hx)
    | base => exact Descriptor.weight_pos _
    | virtualBase => exact Descriptor.weight_pos _
  exact exactWithin_eq_exact hr (hd.reached hin.to_reflTransGen)
    (Nat.le_trans (layoutFuel_le_add hw) hn)

theorem exact_eq_rule (hr : env.registry.Founded) (hd : env.registry.Grounded env.Simple d) :
    env.exact d = env.rule env.exact d := by
  rw [← exactWithin_eq_exact hr hd (Nat.le_succ_of_le (Nat.le_add_right _ env.registry.weight))]
  change env.rule (env.exactWithin _) d = _
  cases d with
  | array element count =>
    have hw : element.weight ≤ (Descriptor.array element count).weight + env.registry.weight :=
      Nat.le_trans (Nat.le_succ _) (Nat.le_add_right _ _)
    simp only [rule, exactWithin_eq_exact hr (hd.held .element) (layoutFuel_le_add hw)]
  | aggregate a => exact aggregateBy_exactWithin hr (Nat.le_add_right _ _) hd
  | named id =>
    obtain ⟨def', hdef, -⟩ := hd.here
    have hw := Nat.le_trans (weight_le hdef) (Nat.le_add_left _ (Descriptor.named id).weight)
    cases def' with
    | typedef t =>
      rw [rule_typedef hdef, rule_typedef hdef]
      exact exactWithin_eq_exact hr (hd.held (.target hdef)) (layoutFuel_le_add hw)
    | enum e => rw [rule_enum hdef, rule_enum hdef]
    | aggregate a =>
      rw [rule_body hdef, rule_body hdef]
      exact aggregateBy_exactWithin hr (layoutFuel_le_add (d := .named id) hw) (hd.held (.body hdef))
  | _ => rfl

end LayoutEnv

end TypeLayout
