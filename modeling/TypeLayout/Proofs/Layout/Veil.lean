import TypeLayout.Proofs.Layout.Mirror
import TypeLayout.Proofs.Layout.Unfolding
/-! Typedefs and names do not show in layouts. A type is veiled by typedefs put before it or before
anything it contains, and by entries that give names to its inline aggregates and enumerations. -/

namespace TypeLayout

open Registry

mutual

/-- The second type, read in `r'`, is the first, read in `r`, behind typedefs and names. The entry
`i` of `r` has become the entry `ρ i` of `r'`; pointees do not matter. -/
inductive Veiled (r r' : Registry) (ρ : TypeId → TypeId) : Descriptor → Descriptor → Prop
  | fundamental (kind : Fundamental) : Veiled r r' ρ (.fundamental kind) (.fundamental kind)
  | pointer (d d' : Descriptor) : Veiled r r' ρ (.pointer d) (.pointer d')
  | array {d d' : Descriptor} (count : Nat) : Veiled r r' ρ d d' →
    Veiled r r' ρ (.array d count) (.array d' count)
  | enum {e e' : EnumType} : e'.underlying = e.underlying → Veiled r r' ρ (.enum e) (.enum e')
  | aggregate {a a' : Aggregate} : a'.kind = a.kind → a'.declaresVirtual = a.declaresVirtual →
    VeiledMembers r r' ρ a.members a'.members → VeiledBases r r' ρ a.bases a'.bases →
    Veiled r r' ρ (.aggregate a) (.aggregate a')
  | named {i : TypeId} : i.index < r.size → Veiled r r' ρ (.named i) (.named (ρ i))
  /-- An inline enumeration gets a name. -/
  | namedEnum {e e' : EnumType} {j : TypeId} : r'.definition? j = some (.enum e') →
    Veiled r r' ρ (.enum e) (.enum e') → Veiled r r' ρ (.enum e) (.named j)
  /-- An inline aggregate gets a name. -/
  | namedBody {a a' : Aggregate} {j : TypeId} : r'.definition? j = some (.aggregate a') →
    Veiled r r' ρ (.aggregate a) (.aggregate a') → Veiled r r' ρ (.aggregate a) (.named j)
  /-- A typedef comes in between. -/
  | typedef {d t : Descriptor} {j : TypeId} : r'.definition? j = some (.typedef t) →
    Veiled r r' ρ d t → Veiled r r' ρ d (.named j)

inductive VeiledMembers (r r' : Registry) (ρ : TypeId → TypeId) : List Member → List Member → Prop
  | nil : VeiledMembers r r' ρ [] []
  | cons {x x' : Member} {xs xs' : List Member} : x'.name = x.name → x'.bitWidth = x.bitWidth →
    Veiled r r' ρ x.type x'.type → VeiledMembers r r' ρ xs xs' →
    VeiledMembers r r' ρ (x :: xs) (x' :: xs')

inductive VeiledBases (r r' : Registry) (ρ : TypeId → TypeId) :
    List BaseSpec → List BaseSpec → Prop
  | nil : VeiledBases r r' ρ [] []
  | cons {b b' : BaseSpec} {bs bs' : List BaseSpec} : b'.isVirtual = b.isVirtual →
    Veiled r r' ρ b.type b'.type → VeiledBases r r' ρ bs bs' →
    VeiledBases r r' ρ (b :: bs) (b' :: bs')

end

inductive VeiledDefinition (r r' : Registry) (ρ : TypeId → TypeId) :
    Definition → Definition → Prop
  | typedef {t t' : Descriptor} : Veiled r r' ρ t t' →
    VeiledDefinition r r' ρ (.typedef t) (.typedef t')
  | enum {e e' : EnumType} : Veiled r r' ρ (.enum e) (.enum e') →
    VeiledDefinition r r' ρ (.enum e) (.enum e')
  | aggregate {a a' : Aggregate} : Veiled r r' ρ (.aggregate a) (.aggregate a') →
    VeiledDefinition r r' ρ (.aggregate a) (.aggregate a')

/-- The second registry is the first with more typedefs and names. Its new entries may lie anywhere
among the old ones. -/
structure Veils (r r' : Registry) (ρ : TypeId → TypeId) : Prop where
  injective : Function.Injective ρ
  defined : ∀ i x, r.definition? i = some x →
    ∃ x', r'.definition? (ρ i) = some x' ∧ VeiledDefinition r r' ρ x x'
  incomplete : ∀ i, i.index < r.size → r.definition? i = none → ¬ r'.IsTypedef (ρ i)

variable {r r' : Registry} {ρ : TypeId → TypeId} {d d' : Descriptor}

theorem VeiledMembers.forall₂ {xs xs' : List Member} (h : VeiledMembers r r' ρ xs xs') :
    List.Forall₂ (fun x x' => x'.name = x.name ∧ x'.bitWidth = x.bitWidth ∧
      Veiled r r' ρ x.type x'.type) xs xs' := by
  induction xs generalizing xs' with
  | nil =>
    cases h
    exact .nil
  | cons x xs ih =>
    cases h with
    | cons hname hwidth htype hrest => exact .cons ⟨hname, hwidth, htype⟩ (ih hrest)

theorem VeiledBases.forall₂ {bs bs' : List BaseSpec} (h : VeiledBases r r' ρ bs bs') :
    List.Forall₂ (fun b b' => b'.isVirtual = b.isVirtual ∧ Veiled r r' ρ b.type b'.type)
      bs bs' := by
  induction bs generalizing bs' with
  | nil =>
    cases h
    exact .nil
  | cons b bs ih =>
    cases h with
    | cons hvirtual htype hrest => exact .cons ⟨hvirtual, htype⟩ (ih hrest)

namespace Veils

variable (h : Veils r r' ρ)
include h

theorem typedef {i : TypeId} {t : Descriptor} (ht : r.definition? i = some (.typedef t)) :
    ∃ t', r'.definition? (ρ i) = some (.typedef t') ∧ Veiled r r' ρ t t' := by
  obtain ⟨x', hx', hv⟩ := h.defined i _ ht
  cases hv with
  | typedef hv => exact ⟨_, hx', hv⟩

theorem not_typedef {i : TypeId} (hi : i.index < r.size) (ht : ¬ r.IsTypedef i) :
    ¬ r'.IsTypedef (ρ i) := by
  cases hd : r.definition? i with
  | none => exact h.incomplete i hi hd
  | some x =>
    rintro ⟨t', ht'⟩
    obtain ⟨x', hx', hv⟩ := h.defined i x hd
    rw [ht'] at hx'
    cases hx'
    cases hv with
    | typedef _ => exact ht ⟨_, hd⟩

theorem target (hr' : r'.Founded) {i : TypeId} {t : Descriptor}
    (ht : r.definition? i = some (.typedef t)) (hd : Veiled r r' ρ (.named i) d') :
    Veiled r r' ρ t d' := by
  obtain ⟨t', ht', hv⟩ := h.typedef ht
  induction d' using hr'.typedef_induction with
  | link j t'' hj ih =>
    cases hd with
    | named _ => exact .typedef ht' hv
    | typedef hj' hd =>
      rw [hj] at hj'
      cases hj'
      exact .typedef hj (ih hd)
  | stop d' hd' =>
    cases hd with
    | named _ => exact .typedef ht' hv
    | typedef hj _ => exact absurd ⟨_, hj⟩ (hd' _ rfl)

theorem strip (hr : r.Founded) (hr' : r'.Founded) (hd : Veiled r r' ρ d d') :
    Veiled r r' ρ (r.strip d) (r'.strip d') := by
  induction d using hr.typedef_induction with
  | link i t ht ih =>
    rw [hr.strip_typedef ht]
    exact ih (h.target hr' ht hd)
  | stop d hstop =>
    rw [strip_of_not_typedef hstop]
    induction d' using hr'.typedef_induction with
    | link j t hj ih =>
      rw [hr'.strip_typedef hj]
      cases hd with
      | named hi => exact absurd ⟨t, hj⟩ (h.not_typedef hi (hstop _ rfl))
      | namedEnum hj' _ =>
        rw [hj] at hj'
        cases hj'
      | namedBody hj' _ =>
        rw [hj] at hj'
        cases hj'
      | typedef hj' hd =>
        rw [hj] at hj'
        cases hj'
        exact ih hd
    | stop d' hstop' =>
      rw [strip_of_not_typedef hstop']
      exact hd

end Veils

namespace LayoutEnv

variable {env : LayoutEnv} {x x' : Member} {kind : Fundamental} {b b' : BaseSpec}

theorem bitFieldKind_eq_ok : env.bitFieldKind x = .ok kind ↔
    env.registry.strip x.type = .fundamental kind ∨
    (∃ e, env.registry.strip x.type = .enum e ∧ e.underlying = kind) ∨
    ∃ i e, env.registry.strip x.type = .named i ∧
      env.registry.definition? i = some (.enum e) ∧ e.underlying = kind := by
  unfold bitFieldKind
  cases hs : env.registry.strip x.type with
  | fundamental k => simp
  | enum e => simp
  | named i =>
    dsimp only
    cases hd : env.registry.definition? i with
    | none =>
      cases hd' : env.registry.definition i with
      | ok d =>
        rw [definition_eq_ok.mp hd'] at hd
        cases hd
      | error e => simp [hd]
    | some d =>
      rw [definition_eq_ok.mpr hd]
      cases d with
      | enum e => simp [hd]
      | _ => simp [hd]
  | _ => simp

theorem bitFieldKind_veiled (h : Veils env.registry r' ρ) (hr : env.registry.Founded)
    (hr' : r'.Founded) (hx : Veiled env.registry r' ρ x.type x'.type)
    (hk : env.bitFieldKind x = .ok kind) : (env.onto r').bitFieldKind x' = .ok kind := by
  have hs := h.strip hr hr' hx
  rw [bitFieldKind_eq_ok] at hk ⊢
  change r'.strip x'.type = _ ∨ (∃ e, r'.strip x'.type = _ ∧ _) ∨
    ∃ i e, r'.strip x'.type = _ ∧ r'.definition? i = _ ∧ _
  generalize hd' : r'.strip x'.type = d' at hs ⊢
  rcases hk with hk | ⟨e, hk, rfl⟩ | ⟨i, e, hk, he, rfl⟩
  · rw [hk] at hs
    cases hs with
    | fundamental => exact Or.inl rfl
    | typedef hj _ => exact absurd ⟨_, hj⟩ (hr'.strip_not_typedef hd')
  · rw [hk] at hs
    cases hs with
    | enum he => exact Or.inr (Or.inl ⟨_, rfl, he⟩)
    | namedEnum hj hv =>
      cases hv with
      | enum he => exact Or.inr (Or.inr ⟨_, _, rfl, hj, he⟩)
    | typedef hj _ => exact absurd ⟨_, hj⟩ (hr'.strip_not_typedef hd')
  · rw [hk] at hs
    cases hs with
    | named _ =>
      obtain ⟨y, hy, hv⟩ := h.defined i _ he
      cases hv with
      | enum hv =>
        cases hv with
        | enum he => exact Or.inr (Or.inr ⟨_, _, rfl, hy, he⟩)
    | typedef hj _ => exact absurd ⟨_, hj⟩ (hr'.strip_not_typedef hd')

theorem fittingUnit_veiled (h : Veils env.registry r' ρ) (hr : env.registry.Founded)
    (hr' : r'.Founded) (hx : Veiled env.registry r' ρ x.type x'.type) {width : Nat}
    {unit : StorageUnit} (hu : env.fittingUnit x width = .ok unit) :
    (env.onto r').fittingUnit x' width = .ok unit := by
  obtain ⟨unit', hu', hu⟩ := bind_eq_ok.mp hu
  obtain ⟨kind, hk, hu'⟩ := bind_eq_ok.mp hu'
  have hkind := bitFieldKind_veiled h hr hr' hx hk
  refine bind_eq_ok.mpr ⟨unit', bind_eq_ok.mpr ⟨kind, hkind, ?_⟩, ?_⟩
  · split at hu'
    next hint =>
      rw [if_pos hint]
      split at hu'
      next c hc =>
        have hc' : (env.onto r').machine.class? kind = some c := hc
        simp only [hc']
        exact hu'
      next => cases hu'
    next => cases hu'
  · split at hu
    · cases hu
    · rw [if_neg ‹_›]
      exact hu

theorem baseId_veiled (h : Veils env.registry r' ρ) (hr : env.registry.Founded)
    (hr' : r'.Founded) (hb : Veiled env.registry r' ρ b.type b'.type) {i : TypeId}
    (hi : env.baseId b = .ok i) : (env.onto r').baseId b' = .ok (ρ i) := by
  have hs := h.strip hr hr' hb
  rw [baseId_eq_ok] at hi ⊢
  change r'.strip b'.type = _
  generalize hd' : r'.strip b'.type = d' at hs ⊢
  rw [hi] at hs
  cases hs with
  | named _ => rfl
  | typedef hj _ => exact absurd ⟨_, hj⟩ (hr'.strip_not_typedef hd')

end LayoutEnv

end TypeLayout
