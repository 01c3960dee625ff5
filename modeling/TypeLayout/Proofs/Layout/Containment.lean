import Mathlib.Logic.Relation
import TypeLayout.Proofs.Registry.Growth
/-! Containment by value. A type holds its array element, its plain members, its bases unless it is
a union, and what its name stands for; bit-fields and pointees are not held. -/

namespace TypeLayout

open Relation (ReflTransGen TransGen)

namespace Registry

inductive Holds (r : Registry) : Descriptor → Descriptor → Prop
  | element {d : Descriptor} {n : Nat} : Holds r (.array d n) d
  | member {a : Aggregate} {x : Member} : x ∈ a.members → x.bitWidth = none →
    Holds r (.aggregate a) x.type
  | base {a : Aggregate} {b : BaseSpec} : a.kind.isUnion = false → b ∈ a.bases →
    Holds r (.aggregate a) b.type
  | target {id : TypeId} {t : Descriptor} : r.definition? id = some (.typedef t) →
    Holds r (.named id) t
  | body {id : TypeId} {a : Aggregate} : r.definition? id = some (.aggregate a) →
    Holds r (.named id) (.aggregate a)

/-- What a type is or contains by value at any depth. -/
abbrev Reaches (r : Registry) : Descriptor → Descriptor → Prop := ReflTransGen r.Holds

abbrev Contains (r : Registry) : Descriptor → Descriptor → Prop := TransGen r.Holds

/-- Containment below a type comes to an end, and `P` holds of everything met on the way. -/
inductive Grounded (r : Registry) (P : Descriptor → Prop) : Descriptor → Prop
  | intro {d : Descriptor} : P d → (∀ x, r.Holds d x → Grounded r P x) → Grounded r P d

variable {r r' : Registry} {P Q : Descriptor → Prop} {d x : Descriptor}

theorem holds_typedef {id : TypeId} {t : Descriptor} (hd : r.definition? id = some (.typedef t)) :
    r.Holds (.named id) x ↔ x = t := by
  constructor
  · intro h
    cases h with
    | target ht =>
      rw [hd] at ht
      cases ht
      rfl
    | body ha =>
      rw [hd] at ha
      cases ha
  · rintro rfl
    exact .target hd

theorem holds_body {id : TypeId} {a : Aggregate} (hd : r.definition? id = some (.aggregate a)) :
    r.Holds (.named id) x ↔ x = .aggregate a := by
  constructor
  · intro h
    cases h with
    | target ht =>
      rw [hd] at ht
      cases ht
    | body ha =>
      rw [hd] at ha
      cases ha
      rfl
  · rintro rfl
    exact .body hd

theorem not_holds_enum {id : TypeId} {e : EnumType} (hd : r.definition? id = some (.enum e)) :
    ¬ r.Holds (.named id) x := by
  intro h
  cases h with
  | target ht =>
    rw [hd] at ht
    cases ht
  | body ha =>
    rw [hd] at ha
    cases ha

theorem Grounded.here (h : r.Grounded P d) : P d := by
  cases h with
  | intro hd _ => exact hd

theorem Grounded.held (h : r.Grounded P d) (hx : r.Holds d x) : r.Grounded P x := by
  cases h with
  | intro _ hs => exact hs x hx

theorem Grounded.reached (h : r.Grounded P d) (hx : r.Reaches d x) : r.Grounded P x := by
  induction hx with
  | refl => exact h
  | tail _ hs ih => exact ih.held hs

theorem Grounded.not_contains_self (h : r.Grounded P d) : ¬ r.Contains d d := by
  induction h with
  | intro _ _ ih =>
    intro hc
    obtain ⟨x, hx, hxd⟩ := TransGen.head'_iff.mp hc
    exact ih x hx (TransGen.tail' hxd hx)

/-- Where containment comes to an end, what holds of a type if it holds of all that the type
contains holds of every type. -/
theorem Grounded.contains_induction {C : Descriptor → Prop}
    (step : ∀ d, (∀ x, r.Contains d x → C x) → C d) (h : r.Grounded P d) : C d := by
  suffices hall : ∀ x, r.Reaches d x → C x from hall d .refl
  induction h with
  | intro _ _ ih =>
    have hbelow : ∀ {d x}, (∀ y, r.Holds d y → ∀ z, r.Reaches y z → C z) → r.Contains d x → C x := by
      intro d x h hx
      obtain ⟨y, hy, hyx⟩ := TransGen.head'_iff.mp hx
      exact h y hy x hyx
    intro x hx
    rcases Relation.reflTransGen_iff_eq_or_transGen.mp hx with rfl | hx
    · exact step _ fun y => hbelow ih
    · exact hbelow ih hx

theorem Founded.reaches_strip (hr : r.Founded) (d : Descriptor) : r.Reaches d (r.strip d) := by
  induction d using hr.typedef_induction with
  | link id t ht ih =>
    rw [hr.strip_typedef ht]
    exact .head (.target ht) ih
  | stop d hd => rw [strip_of_not_typedef hd]

theorem Founded.reaches_mentions (hr : r.Founded) (h : r.Reaches d x)
    (hd : ∀ j ∈ d.mentions, j.index < r.size) : ∀ j ∈ x.mentions, j.index < r.size := by
  induction h with
  | refl => exact hd
  | tail _ hs ih =>
    intro j hj
    cases hs with
    | element => exact ih j hj
    | @member a y hy _ => exact ih j (mem_mentions_aggregate.mpr (Or.inl ⟨y, hy, hj⟩))
    | @base a b _ hb => exact ih j (mem_mentions_aggregate.mpr (Or.inr ⟨b, hb, hj⟩))
    | target ht => exact hr.mention_lt ht hj
    | body ha => exact hr.mention_lt ha hj

theorem Founded.grounded_of_strip (hr : r.Founded)
    (hP : ∀ id, r.IsTypedef id → P (.named id)) (h : r.Grounded P (r.strip d)) :
    r.Grounded P d := by
  induction d using hr.typedef_induction with
  | link id t ht ih =>
    rw [hr.strip_typedef ht] at h
    refine .intro (hP id ⟨t, ht⟩) fun x hx => ?_
    obtain rfl := (holds_typedef ht).mp hx
    exact ih h
  | stop d hd => rwa [strip_of_not_typedef hd] at h

end Registry

end TypeLayout
