import TypeLayout.Proofs.Source.Steps
import TypeLayout.Proofs.Source.Visits
/-! An error that was set aside is never forgotten, so a resolution that ends without errors never
set one aside. -/

namespace TypeLayout

def Remembers {α : Type} (x : ResolveM α) : Prop :=
  ∀ z : Resolution, z.deferred <+: (x.run z).2.deferred

namespace Remembers

variable {α : Type} {x : ResolveM α}

theorem of_run (h : Remembers x) {z z' : Resolution} {a : Except LayoutError α}
    (hrun : x.run z = (a, z')) : z.deferred <+: z'.deferred := by
  have hz := h z
  rw [hrun] at hz
  exact hz

theorem eq_of_between {a b : List LayoutError} (h : a <+: b) (h' : b <+: a) : b = a :=
  h'.eq_of_length (Nat.le_antisymm h'.length_le h.length_le)

theorem of_defers {es : Resolution → List LayoutError} (h : ∀ z, Defers x z (es z)) :
    Remembers x :=
  fun z => ⟨es z, (h z).symm⟩

theorem setAside (hx : Remembers x) (d : Declaration) : Remembers (setAside d x) := by
  intro z
  obtain ⟨es, hes⟩ := hx z
  exact ⟨_, (Defers.setAside hes.symm d).symm⟩

end Remembers

theorem resolveDeclaration_remembers (d : Declaration) (defining : List TypeId) (s : ScopeId) :
    Remembers (resolveDeclaration defining s d) :=
  .of_defers (resolveDeclaration_defers d defining s)

theorem resolveDeclarator_remembers (d : Declarator) (defining : List TypeId) (s : ScopeId) :
    Remembers (resolveDeclarator defining s d) :=
  .of_defers (resolveDeclarator_defers d defining s)

theorem resolveNested_remembers (ds : List Declaration) (defining : List TypeId) (s : ScopeId) :
    Remembers (resolveNested defining s ds) :=
  .of_defers (resolveNested_defers ds defining s)

theorem resolveMembers_remembers (xs : List MemberDecl) (defining : List TypeId) (s : ScopeId) :
    Remembers (resolveMembers defining s xs) :=
  .of_defers (resolveMembers_defers xs defining s)

/-! Where no error was set aside in the end, each step on the way was answered, and set none aside
either. -/

section

variable {z z' : Resolution} {defining : List TypeId} {s : ScopeId}

/-- Without a new error, what may be set aside was answered. -/
theorem setAside_ok {α : Type} {x : ResolveM α} {d : Declaration} {u : Unit}
    (hx : Remembers x) (h : (setAside d x).run z = (.ok u, z')) (hc : z'.deferred = z.deferred) :
    ∃ b, x.run z = (.ok b, z') := by
  rcases hrun : x.run z with ⟨e | b, z₁⟩
  · have hafter := run_tryCatch_error (run_discard_error hrun) ▸ h
    obtain ⟨_, z₂, h₂, h₃⟩ := run_bind_eq_ok.mp hafter
    cases h₂
    cases h₃
    have hlen := (hx.of_run hrun).length_le
    have hlen' := congrArg List.length hc
    simp at hlen'
    omega
  · have hok : (discard x).run z = (.ok (), z₁) := run_discard_eq_ok.mpr ⟨b, hrun⟩
    rw [setAside, run_tryCatch_ok hok] at h
    cases h
    exact ⟨b, rfl⟩

theorem resolveNested_cons_clean {d : Declaration} {ds : List Declaration} {u : Unit}
    (h : (resolveNested defining s (d :: ds)).run z = (.ok u, z'))
    (hc : z'.deferred = z.deferred) :
    ∃ id z₁, (resolveDeclaration defining s d).run z = (.ok id, z₁) ∧
      z₁.deferred = z.deferred ∧
      (resolveNested defining s ds).run z₁ = (.ok u, z') ∧ z'.deferred = z₁.deferred := by
  obtain ⟨_, z₁, h₁, h₂⟩ := run_bind_eq_ok.mp h
  have hd := resolveDeclaration_remembers d defining s
  have hd₁ := (hd.setAside d).of_run h₁
  have hd₂ := (resolveNested_remembers ds defining s).of_run h₂
  have hc₁ : z₁.deferred = z.deferred := Remembers.eq_of_between hd₁ (hc ▸ hd₂)
  obtain ⟨id, h₁⟩ := setAside_ok hd h₁ hc₁
  exact ⟨id, z₁, h₁, hc₁, h₂, hc.trans hc₁.symm⟩

theorem resolveMembers_cons_clean {name : String} {type : Declarator} {width : Option Nat}
    {xs : List MemberDecl} {ms : List Member}
    (h : (resolveMembers defining s (⟨name, type, width⟩ :: xs)).run z = (.ok ms, z'))
    (hc : z'.deferred = z.deferred) :
    ∃ d z₁ rest, (resolveDeclarator defining s type).run z = (.ok d, z₁) ∧
      z₁.deferred = z.deferred ∧
      (resolveMembers defining s xs).run z₁ = (.ok rest, z') ∧ z'.deferred = z₁.deferred ∧
      ms = ⟨name, d, width⟩ :: rest := by
  obtain ⟨d, z₁, rest, h₁, -, h₂, rfl⟩ := resolveMembers_cons_ok h
  have hd₁ := (resolveDeclarator_remembers type defining s).of_run h₁
  have hd₂ := (resolveMembers_remembers xs defining s).of_run h₂
  have hc₁ : z₁.deferred = z.deferred := Remembers.eq_of_between hd₁ (hc ▸ hd₂)
  exact ⟨d, z₁, rest, h₁, hc₁, h₂, hc.trans hc₁.symm, rfl⟩

theorem resolveRecord_clean {tag : AggregateKind} {name : Option String} {bases : List BaseDecl}
    {members : List MemberDecl} {functions : List String} {nested : List Declaration}
    {a : Descriptor}
    (h : (resolveRecord defining s ⟨tag, name, bases, members, functions, nested⟩).run z =
      (.ok a, z')) (hc : z'.deferred = z.deferred) :
    ∃ id t z₁ z₂ specs xs z₃, (openRecord s tag name).run z = (.ok (id, t), z₁) ∧
      (resolveNested (id.toList ++ defining) t nested).run z₁ = (.ok (), z₂) ∧
      z₂.deferred = z₁.deferred ∧
      List.Forall₂ (fun b spec => z₂.registry.resolveBase s b = .ok spec) bases specs ∧
      (resolveMembers (id.toList ++ defining) t members).run z₂ = (.ok xs, z₃) ∧
      z₃.deferred = z₂.deferred ∧
      (closeRecord s ⟨tag, name, xs, specs, functions⟩ name).run z₃ = (.ok a, z') := by
  obtain ⟨⟨id, t⟩, z₁, h₁, h⟩ := run_bind_eq_ok.mp h
  obtain ⟨_, z₂, h₂, h⟩ := run_bind_eq_ok.mp h
  obtain ⟨specs, z₃, h₃, h⟩ := run_bind_eq_ok.mp h
  obtain ⟨xs, z₄, h₄, h₅⟩ := run_bind_eq_ok.mp h
  obtain ⟨rfl, hspecs⟩ := resolveBases_ok h₃
  have hc₁ : z₁.deferred = z.deferred := (Quiet.openRecord s tag name).of_run h₁
  have hd₂ := (resolveNested_remembers nested _ t).of_run h₂
  have hd₄ := (resolveMembers_remembers members _ t).of_run h₄
  have hc₅ : z'.deferred = z₄.deferred := (Quiet.closeRecord s _ name).of_run h₅
  have hc₄ : z₄.deferred = z₁.deferred := (hc₅.symm.trans hc).trans hc₁.symm
  rw [hc₄] at hd₄
  have hc₂ := Remembers.eq_of_between hd₂ hd₄
  exact ⟨id, t, z₁, z₃, specs, xs, z₄, h₁, h₂, hc₂, hspecs, h₄, hc₄.trans hc₂.symm, h₅⟩

end

end TypeLayout
