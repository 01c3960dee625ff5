import Mathlib.Data.List.Forall2
import TypeLayout.Proofs.Registry.Linked
import TypeLayout.Proofs.Stateful
import TypeLayout.Source.Resolution
/-! Steps that answered, and what they have done. -/

namespace TypeLayout

open Registry

namespace ResolveM

variable {z z' : Resolution} {s : ScopeId} {name : String} {id : TypeId}

theorem run_declare_ok {tag : TagKind} (h : (declare s name tag).run z = (.ok id, z')) :
    ∃ r', z.registry.declare s name tag = .ok (id, r') ∧ z' = { z with registry := r' } := by
  obtain ⟨r, z₁, h₁, h⟩ := run_bind_eq_ok.mp h
  cases h₁
  obtain ⟨⟨i, r'⟩, z₂, h₂, h⟩ := run_bind_eq_ok.mp h
  rw [run_ofExcept] at h₂
  obtain ⟨hd, rfl⟩ := Prod.mk.inj h₂
  cases h
  exact ⟨r', hd, rfl⟩

theorem run_declare_of_ok {tag : TagKind} {r : Registry}
    (h : z.registry.declare s name tag = .ok (id, r)) :
    (declare s name tag).run z = (.ok id, { z with registry := r }) := by
  have hanswer : (ofExcept (z.registry.declare s name tag) : ResolveM _).run z =
      (.ok (id, r), z) := by rw [run_ofExcept, h]
  unfold declare
  rw [run_bind_ok (x := registry) rfl, run_bind_ok hanswer]
  rfl

theorem run_declare_of_error {tag : TagKind} {e : LayoutError}
    (h : z.registry.declare s name tag = .error e) :
    (declare s name tag).run z = (.error e, z) := by
  have hanswer : (ofExcept (z.registry.declare s name tag) : ResolveM (TypeId × Registry)).run z =
      (.error e, z) := by rw [run_ofExcept, h]
  unfold declare
  rw [run_bind_ok (x := registry) rfl]
  exact run_bind_error hanswer

theorem run_define_of_ok {d : Definition} {r : Registry}
    (h : z.registry.define s name d = .ok (id, r)) :
    ∃ z', (define s name d).run z = (.ok id, z') ∧ z'.registry = r := by
  have hanswer : (ofExcept (z.registry.define s name d) : ResolveM _).run z = (.ok (id, r), z) := by
    rw [run_ofExcept, h]
  unfold define
  rw [run_bind_ok (x := registry) rfl, run_bind_ok hanswer]
  dsimp only
  split
  · exact ⟨_, rfl, rfl⟩
  · exact ⟨_, rfl, rfl⟩

theorem run_define_ok {d : Definition} (h : (define s name d).run z = (.ok id, z')) :
    z.registry.define s name d = .ok (id, z'.registry) ∧ z'.deferred = z.deferred := by
  obtain ⟨r, z₁, h₁, h⟩ := run_bind_eq_ok.mp h
  cases h₁
  obtain ⟨⟨i, r'⟩, z₂, h₂, h⟩ := run_bind_eq_ok.mp h
  rw [run_ofExcept] at h₂
  obtain ⟨hd, rfl⟩ := Prod.mk.inj h₂
  dsimp only at h
  split at h
  · obtain ⟨_, z₃, h₃, h⟩ := run_bind_eq_ok.mp h
    cases h₃
    cases h
    exact ⟨hd, rfl⟩
  · cases h
    exact ⟨hd, rfl⟩

end ResolveM

section

variable {z z' : Resolution} {s : ScopeId} {name : String}

theorem openRecord_named_ok {tag : AggregateKind} {p : Option TypeId × ScopeId}
    (h : (openRecord s tag (some name)).run z = (.ok p, z')) :
    ∃ id r, z.registry.declare s name (.aggregate tag) = .ok (id, r) ∧
      z' = { z with registry := r } ∧ r.definition? id = none ∧
      p = (some id, (r.body? id).getD s) := by
  obtain ⟨id, z₁, hfirst, h⟩ := run_bind_eq_ok.mp h
  obtain ⟨r, hdeclare, rfl⟩ := ResolveM.run_declare_ok hfirst
  obtain ⟨_, z₂, hr, h⟩ := run_bind_eq_ok.mp h
  cases hr
  split at h
  next => cases h
  next hnone =>
    cases h
    exact ⟨id, r, hdeclare, rfl, Option.not_isSome_iff_eq_none.mp hnone, rfl⟩

theorem closeRecord_named_ok {body : Aggregate} {d : Descriptor}
    (h : (closeRecord s body (some name)).run z = (.ok d, z')) :
    ∃ id, z.registry.define s name (.aggregate body) = .ok (id, z'.registry) ∧ d = .named id := by
  obtain ⟨id, z₁, hfirst, h⟩ := run_bind_eq_ok.mp h
  obtain ⟨hdefine, -⟩ := ResolveM.run_define_ok hfirst
  obtain ⟨_, z₂, hr, h⟩ := run_bind_eq_ok.mp h
  cases hr
  cases h
  exact ⟨id, hdefine, rfl⟩

theorem closeRecord_of_define {body : Aggregate} {id : TypeId} {r : Registry}
    (h : z.registry.define s name (.aggregate body) = .ok (id, r)) :
    ∃ z', (closeRecord s body (some name)).run z = (.ok (.named id), z') ∧ z'.registry = r := by
  obtain ⟨z₁, hdefine, rfl⟩ := ResolveM.run_define_of_ok h
  exact ⟨_, run_bind_ok hdefine, rfl⟩

theorem resolveBases_ok {bs : List BaseDecl} {specs : List BaseSpec}
    (h : (resolveBases s bs).run z = (.ok specs, z')) :
    z' = z ∧ List.Forall₂ (fun b spec => z.registry.resolveBase s b = .ok spec) bs specs := by
  induction bs generalizing z specs with
  | nil =>
    cases h
    exact ⟨rfl, .nil⟩
  | cons b bs ih =>
    obtain ⟨_, z₁, h₁, h⟩ := run_bind_eq_ok.mp h
    cases h₁
    obtain ⟨spec, z₂, h₂, h⟩ := run_bind_eq_ok.mp h
    rw [run_ofExcept] at h₂
    obtain ⟨hspec, rfl⟩ := Prod.mk.inj h₂
    obtain ⟨rest, z₃, h₃, h⟩ := run_bind_eq_ok.mp h
    cases h
    obtain ⟨rfl, hrest⟩ := ih h₃
    exact ⟨rfl, .cons hspec hrest⟩

end

def resolveBody (defining : List TypeId) (s body : ScopeId) : RecordDecl → ResolveM Aggregate
  | ⟨tag, name, bases, members, functions, nested⟩ => do
    resolveNested defining body nested
    let specs ← resolveBases s bases
    let resolved ← resolveMembers defining body members
    return ⟨tag, name, resolved, specs, functions⟩

theorem resolveRecord_eq (defining : List TypeId) (s : ScopeId) (r : RecordDecl) :
    resolveRecord defining s r = (do
      let (id, body) ← openRecord s r.tag r.name
      let aggregate ← resolveBody (id.toList ++ defining) s body r
      closeRecord s aggregate r.name) := by
  obtain ⟨tag, name, bases, members, functions, nested⟩ := r
  simp only [resolveRecord, resolveBody, bind_assoc, pure_bind]

theorem resolveMembers_cons_ok {defining : List TypeId} {s : ScopeId} {z z' : Resolution}
    {name : String} {type : Declarator} {width : Option Nat} {xs : List MemberDecl}
    {ms : List Member}
    (h : (resolveMembers defining s (⟨name, type, width⟩ :: xs)).run z = (.ok ms, z')) :
    ∃ d z₁ rest, (resolveDeclarator defining s type).run z = (.ok d, z₁) ∧
      z₁.registry.checkMember defining d name = .ok () ∧
      (resolveMembers defining s xs).run z₁ = (.ok rest, z') ∧ ms = ⟨name, d, width⟩ :: rest := by
  obtain ⟨d, z₁, htype, h⟩ := run_bind_eq_ok.mp h
  obtain ⟨r, z₂, hr, h⟩ := run_bind_eq_ok.mp h
  cases hr
  obtain ⟨_, z₃, hthird, h⟩ := run_bind_eq_ok.mp h
  rw [run_ofExcept] at hthird
  obtain ⟨hcheck, rfl⟩ := Prod.mk.inj hthird
  obtain ⟨rest, z₄, hrest, h⟩ := run_bind_eq_ok.mp h
  cases h
  exact ⟨d, z₁, rest, run_of_tryCatch_throw htype, hcheck, hrest, rfl⟩

end TypeLayout
