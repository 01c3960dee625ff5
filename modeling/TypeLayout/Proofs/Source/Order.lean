import TypeLayout.Profile
import TypeLayout.Proofs.Layout.Equivariance
import TypeLayout.Proofs.Source.Twins
/-! The order of declarations does not matter. Units without typedefs that resolve cleanly and
declare the same at top level, in whatever order and with whatever forward declarations of their own
types, define the same names and lay every type out alike. -/

namespace TypeLayout

open Registry

theorem mem_typedefFreeAll {ds : List Declaration} :
    typedefFreeAll ds = true ↔ ∀ d ∈ ds, d.typedefFree = true := by
  induction ds with
  | nil => simp [typedefFreeAll]
  | cons d ds ih => simp [typedefFreeAll, ih]

theorem mem_sitesAll {p : List String} {ds : List Declaration} {x : Site} :
    x ∈ sitesAll p ds ↔ ∃ d ∈ ds, x ∈ d.sites p := by
  induction ds with
  | nil => simp [sitesAll]
  | cons d ds ih => simp [sitesAll, ih]

theorem Declaration.mem_sites {d : Declaration} {name : String} (hd : d.hasBody = true)
    (hname : d.name? = some name) (p : List String) : (name :: p, d) ∈ d.sites p := by
  cases d with
  | record r =>
    obtain ⟨tag, _, bases, members, functions, nested⟩ := r
    obtain rfl : _ = some name := hname
    exact List.mem_append_left _ List.mem_cons_self
  | enum e =>
    obtain ⟨_, underlying⟩ := e
    obtain rfl : _ = some name := hname
    exact List.mem_cons_self
  | _ => cases hd

theorem Registry.Census.of_added {xs ys : List Site} {r : Registry} (h : Census ys r)
    (hsub : ∀ x ∈ xs, x ∈ ys) (hadded : ∀ y ∈ ys, y ∈ xs ∨
      y.2.hasBody = false ∧ ∃ x ∈ xs, x.1 = y.1 ∧ x.2.hasBody = true) : Census xs r where
  built := h.built
  prelude := h.prelude
  boundTypedef?_eq := h.boundTypedef?_eq
  tag_isSome := h.tag_isSome
  accepts x hx := h.accepts x (hsub x hx)
  site {q id} hq := by
    obtain ⟨y, hy, rfl, htag⟩ := h.site hq
    rcases hadded y hy with hx | ⟨-, x, hx, hxy, hb⟩
    · exact ⟨y, hx, rfl, htag⟩
    · refine ⟨x, hx, hxy, fun hnone => ?_⟩
      obtain ⟨j, w, hj, -, hw⟩ := h.defined x (hsub x hx) hb
      rw [hxy, hq] at hj
      cases hj
      rw [hnone] at hw
      cases hw
  defined x hx := h.defined x (hsub x hx)
  origin hd := by
    refine (h.origin hd).imp_right fun ⟨y, hy, hb, hat⟩ => ?_
    rcases hadded y hy with hx | ⟨hnone, -⟩
    · exact ⟨y, hx, hb, hat⟩
    · rw [hb] at hnone
      cases hnone

def Registry.Defines (r : Registry) (name : String) : Prop :=
  ∃ id d, r.definition? id = some d ∧ r.qualifiedName id = name

theorem Registry.Twins.defines {E : LayoutError → LayoutError → Prop} {ρ : TypeId → TypeId}
    {r r' : Registry} (h : Twins E ρ r r') {name : String} (hname : r.Defines name) :
    r'.Defines name := by
  obtain ⟨id, d, hd, hn⟩ := hname
  refine ⟨ρ id, d.rename ρ, ?_, (h.qualifiedName_eq id).trans hn⟩
  rw [h.definition?_eq, hd]
  rfl

/-- Two registries that differ in their ids: the same names are defined and found, and every type is
laid out alike. Errors blame the same types, but one that the sites only forward declare may stand
after the keyword of another of its declarations. -/
structure Registry.Renumbers (xs : List Site) (ρ : TypeId → TypeId) (r r' : Registry) : Prop where
  bijective : Function.Bijective ρ
  defines_iff : ∀ name, r'.Defines name ↔ r.Defines name
  qualifiedName_eq : ∀ id, r'.qualifiedName (ρ id) = r.qualifiedName id
  find_eq : ∀ name, r'.find .global name = (r.find .global name).map ρ
  layoutOf_alike : ∀ (id : TypeId) (p : Profile) (policy : BasePolicy),
    Alike (Reworded xs) (·.rename ρ) (LayoutEnv.layoutOf ⟨r, p.machine, policy⟩ (.named id))
      (LayoutEnv.layoutOf ⟨r', p.machine, policy⟩ (.named (ρ id)))

theorem Registry.Census.renumbers {xs : List Site} {r r' : Registry} (h : Census xs r)
    (h' : Census xs r') : Renumbers xs (twin r r') r r' where
  bijective := ⟨h.twin_injective h', fun id => ⟨_, h'.twin_twin h id⟩⟩
  defines_iff _ := ⟨(h'.twins h).defines, (h.twins h').defines⟩
  qualifiedName_eq := h.qualifiedName_twin h'
  find_eq := h.find_twin h' ⟨[], rfl, rfl⟩
  layoutOf_alike id p policy :=
    LayoutEnv.layoutOf_rename ⟨r, p.machine, policy⟩ (h.twins h') h.wellFormed.toFounded
      h'.wellFormed.toFounded (.named id)

namespace SourceUnit

variable {u u' : SourceUnit}

/-- The declarations of `u` in some order, and forward declarations of records and enumerations that
`u` has a body of at top level. -/
def Rearranges (u u' : SourceUnit) : Prop :=
  ∃ added : List Declaration, u'.declarations.Perm (u.declarations ++ added) ∧
    ∀ d ∈ added, ∃ tag name, d = .forward tag name ∧
      ∃ e ∈ u.declarations, e.hasBody = true ∧ e.name? = some name

theorem Rearranges.typedefFree (h : u.Rearranges u')
    (hfree : typedefFreeAll u.declarations = true) : typedefFreeAll u'.declarations = true := by
  obtain ⟨added, hperm, hadded⟩ := h
  refine mem_typedefFreeAll.mpr fun d hd => ?_
  rcases List.mem_append.mp (hperm.mem_iff.mp hd) with hd | hd
  · exact mem_typedefFreeAll.mp hfree d hd
  · obtain ⟨tag, name, rfl, -⟩ := hadded d hd
    rfl

theorem Rearranges.census (h : u.Rearranges u') {r : Registry}
    (hr : Census (sitesAll [] u'.declarations) r) : Census (sitesAll [] u.declarations) r := by
  obtain ⟨added, hperm, hadded⟩ := h
  refine hr.of_added (fun x hx => ?_) fun x hx => ?_
  · obtain ⟨d, hd, hx⟩ := mem_sitesAll.mp hx
    exact mem_sitesAll.mpr ⟨d, hperm.mem_iff.mpr (List.mem_append_left _ hd), hx⟩
  · obtain ⟨d, hd, hx⟩ := mem_sitesAll.mp hx
    rcases List.mem_append.mp (hperm.mem_iff.mp hd) with hd | hd
    · exact Or.inl (mem_sitesAll.mpr ⟨d, hd, hx⟩)
    · obtain ⟨tag, name, rfl, e, he, hbody, hname⟩ := hadded d hd
      rw [List.mem_singleton.mp hx]
      exact Or.inr ⟨rfl, _, mem_sitesAll.mpr ⟨e, he, e.mem_sites hbody hname []⟩, rfl, hbody⟩

/-- Rearranging a unit without typedefs renumbers what it declares and changes nothing else, except
that a type which is nowhere defined may be blamed with the keyword of another of its
declarations. -/
theorem resolve_rearranged (h : u.Rearranges u') (hfree : typedefFreeAll u.declarations = true)
    (hc : u.resolve.1.isClean = true) (hc' : u'.resolve.1.isClean = true) :
    ∃ ρ, Renumbers (sitesAll [] u.declarations) ρ u.resolve.2.registry u'.resolve.2.registry := by
  have hr := census hfree hc
  have hr' := h.census (census (h.typedefFree hfree) hc')
  exact ⟨_, hr.renumbers hr'⟩

def nodeUnit : SourceUnit where
  declarations :=
    [.record ⟨.structType, some "Node", [], [⟨"next", .pointer (.named "Node"), none⟩,
        ⟨"shape", .pointer (.named "Square"), none⟩, ⟨"load", .named "Load", none⟩], [],
        [.record ⟨.structType, some "Load", [], [⟨"x", .fundamental "int", none⟩], [], []⟩]⟩,
     .record ⟨.classType, some "Shape", [], [], ["draw"], []⟩,
     .record ⟨.classType, some "Square", [⟨"Shape", true⟩], [⟨"side", .fundamental "double", none⟩],
        [], []⟩]

def lateNodeUnit : SourceUnit where
  declarations := .forward .structTag "Square" ::
    (nodeUnit.declarations.drop 1 ++ nodeUnit.declarations.take 1)

theorem nodeUnit_rearranges : nodeUnit.Rearranges lateNodeUnit := by
  refine ⟨[.forward .structTag "Square"], ?_, fun d hd => ?_⟩
  · refine (List.perm_append_comm.cons _).trans ?_
    rw [List.take_append_drop]
    exact (List.perm_append_singleton _ _).symm
  · rw [List.mem_singleton.mp hd]
    exact ⟨_, _, rfl, _, .tail _ (.tail _ (.head _)), rfl, rfl⟩

theorem nodeUnit_renumbered : nodeUnit.Rearranges lateNodeUnit ∧
    typedefFreeAll nodeUnit.declarations = true ∧ nodeUnit.resolve.1.isClean = true ∧
    lateNodeUnit.resolve.1.isClean = true ∧
    ∃ ρ, Renumbers (sitesAll [] nodeUnit.declarations) ρ nodeUnit.resolve.2.registry
      lateNodeUnit.resolve.2.registry := by
  have hc : nodeUnit.resolve.1.isClean = true := by decide +kernel
  have hc' : lateNodeUnit.resolve.1.isClean = true := by decide +kernel
  exact ⟨nodeUnit_rearranges, rfl, hc, hc', resolve_rearranged nodeUnit_rearranges rfl hc hc'⟩

def opaqueUnit (first second : ForwardTag) : SourceUnit where
  declarations := [.forward first "Opaque", .forward second "Opaque",
    .record ⟨.structType, some "S", [], [⟨"data", .array (.named "Opaque") 3, none⟩], [], []⟩]

/-- The error of `S` names `Opaque` after the keyword that comes first, so the order of the
declarations is seen in an answer. -/
theorem opaqueUnit_reworded :
    (opaqueUnit .structTag .classTag).declarations.Perm
      (opaqueUnit .classTag .structTag).declarations ∧
    typedefFreeAll (opaqueUnit .structTag .classTag).declarations = true ∧
    (opaqueUnit .structTag .classTag).resolve.1.isClean = true ∧
    (opaqueUnit .classTag .structTag).resolve.1.isClean = true ∧
    (opaqueUnit .structTag .classTag).resolve.2.registry.qualifiedName ⟨34⟩ = "S" ∧
    (opaqueUnit .classTag .structTag).resolve.2.registry.qualifiedName ⟨34⟩ = "S" ∧
    ∀ ρ, ¬ Alike Eq (·.rename ρ)
      (LayoutEnv.layoutOf ⟨(opaqueUnit .structTag .classTag).resolve.2.registry,
        Profile.lp64.machine, .itaniumBaseline⟩ (.named ⟨34⟩))
      (LayoutEnv.layoutOf ⟨(opaqueUnit .classTag .structTag).resolve.2.registry,
        Profile.lp64.machine, .itaniumBaseline⟩ (.named ⟨34⟩)) := by
  have herror : LayoutEnv.layoutOf ⟨(opaqueUnit .structTag .classTag).resolve.2.registry,
      Profile.lp64.machine, .itaniumBaseline⟩ (.named ⟨34⟩) =
      (.error (.incompleteType "struct Opaque" (some "data")) : Except LayoutError Layout) := by
    decide +kernel
  have herror' : LayoutEnv.layoutOf ⟨(opaqueUnit .classTag .structTag).resolve.2.registry,
      Profile.lp64.machine, .itaniumBaseline⟩ (.named ⟨34⟩) =
      (.error (.incompleteType "class Opaque" (some "data")) : Except LayoutError Layout) := by
    decide +kernel
  refine ⟨List.Perm.swap _ _ _, rfl, by decide +kernel, by decide +kernel, by decide +kernel,
    by decide +kernel, fun ρ halike => ?_⟩
  rw [herror, herror'] at halike
  cases halike with
  | error he => exact absurd he (by decide)

end SourceUnit

end TypeLayout
