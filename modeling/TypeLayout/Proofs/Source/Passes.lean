import TypeLayout.Proofs.Source.Ensures
/-! The steps that both passes share. Declaring tags, opening bodies and setting failures aside keep
every invariant that declarations keep, and so does the first pass as a whole. -/

namespace TypeLayout

open Registry

variable {I : Registry → Prop}

section

variable {z : Resolution} {s : ScopeId}

theorem predeclareEnum_ensures (hI : Durable I) (hz : I z.registry)
    (hs : s.index < z.registry.scopes.size) (e : EnumDecl) :
    Ensures I z (predeclareEnum s e) fun _ _ => True := by
  unfold predeclareEnum
  split
  · exact (Ensures.declare hI hz hs _).discard
  · exact .pure hz trivial

theorem predeclareTag_ensures (hI : Durable I) (hz : I z.registry)
    (hs : s.index < z.registry.scopes.size) (tag : AggregateKind) (name : Option String) :
    Ensures I z (predeclareTag s tag name) fun t r => t.index < r.scopes.size := by
  cases name with
  | none => exact .pure hz hs
  | some name =>
    refine (Ensures.declare hI hz hs _).bind fun id z₁ hz₁ hg₁ _ => ?_
    exact .bodyScope hI hz₁ (Nat.lt_of_lt_of_le hs hg₁.scopes_le) id

mutual

theorem predeclare_ensures (d : Declaration) {z : Resolution} {s : ScopeId}
    (hI : Durable I) (hz : I z.registry) (hs : s.index < z.registry.scopes.size) :
    Ensures I z (predeclare s d) fun _ _ => True := by
  cases d with
  | record r => exact predeclareRecord_ensures r hI hz hs
  | forward tag name => exact (Ensures.declare hI hz hs _).discard
  | enum e => exact predeclareEnum_ensures hI hz hs e
  | typedef name target => exact predeclareDeclarator_ensures target hI hz hs

theorem predeclareRecord_ensures (r : RecordDecl) {z : Resolution} {s : ScopeId}
    (hI : Durable I) (hz : I z.registry) (hs : s.index < z.registry.scopes.size) :
    Ensures I z (predeclareRecord s r) fun _ _ => True := by
  obtain ⟨tag, name, bases, members, functions, nested⟩ := r
  refine (predeclareTag_ensures hI hz hs tag name).bind fun body z₁ hz₁ hg₁ hbody => ?_
  refine (predeclareAll_ensures nested hI hz₁ hbody).bind fun _ z₂ hz₂ hg₂ _ => ?_
  exact predeclareMembers_ensures members hI hz₂ (Nat.lt_of_lt_of_le hbody hg₂.scopes_le)

theorem predeclareDeclarator_ensures (d : Declarator) {z : Resolution} {s : ScopeId}
    (hI : Durable I) (hz : I z.registry) (hs : s.index < z.registry.scopes.size) :
    Ensures I z (predeclareDeclarator s d) fun _ _ => True := by
  cases d with
  | fundamental spelling => exact .pure hz trivial
  | named name => exact .pure hz trivial
  | pointer pointee => exact predeclareDeclarator_ensures pointee hI hz hs
  | array element count => exact predeclareDeclarator_ensures element hI hz hs
  | record r => exact predeclareRecord_ensures r hI hz hs
  | enum e => exact predeclareEnum_ensures hI hz hs e

theorem predeclareAll_ensures (ds : List Declaration) {z : Resolution} {s : ScopeId}
    (hI : Durable I) (hz : I z.registry) (hs : s.index < z.registry.scopes.size) :
    Ensures I z (predeclareAll s ds) fun _ _ => True := by
  cases ds with
  | nil => exact .pure hz trivial
  | cons d ds =>
    refine (predeclare_ensures d hI hz hs).bind fun _ z₁ hz₁ hg₁ _ => ?_
    exact predeclareAll_ensures ds hI hz₁ (Nat.lt_of_lt_of_le hs hg₁.scopes_le)

theorem predeclareMembers_ensures (xs : List MemberDecl) {z : Resolution} {s : ScopeId}
    (hI : Durable I) (hz : I z.registry) (hs : s.index < z.registry.scopes.size) :
    Ensures I z (predeclareMembers s xs) fun _ _ => True := by
  cases xs with
  | nil => exact .pure hz trivial
  | cons x xs =>
    obtain ⟨name, type, width⟩ := x
    refine (predeclareDeclarator_ensures type hI hz hs).bind fun _ z₁ hz₁ hg₁ _ => ?_
    exact predeclareMembers_ensures xs hI hz₁ (Nat.lt_of_lt_of_le hs hg₁.scopes_le)

end

theorem setAside_ensures {α : Type} {x : ResolveM α} {Q : α → Registry → Prop}
    (d : Declaration) (h : Ensures I z x Q) : Ensures I z (setAside d x) fun _ _ => True := by
  refine h.discard.tryCatch fun e z₁ hz₁ => ?_
  refine (Ensures.note hz₁ _ _ _).bind fun _ z₂ hz₂ _ _ => ?_
  exact (Ensures.update hz₂ rfl).consequence fun _ _ _ => trivial

end

namespace Resolution

variable {z : Resolution}

theorem predeclareStep_kept (hI : Durable I) (hz : I z.registry) (d : Declaration) (o : Outcome) :
    I (predeclareStep d o z).2.registry := by
  have h := (predeclare_ensures d hI hz (hI.global_lt hz)).kept
  unfold predeclareStep
  split
  next hrun =>
    rw [hrun] at h
    exact h
  next hrun =>
    rw [hrun] at h
    exact h

theorem predeclarePass_kept (hI : Durable I) (hz : I z.registry) (ds : List Declaration)
    (o : Outcome) : I (predeclarePass ds o z).2.registry := by
  induction ds generalizing o z with
  | nil => exact hz
  | cons d ds ih => exact ih (predeclareStep_kept hI hz d o) _

theorem resolveStep_kept {d : Declaration} {Q : Option TypeId → Registry → Prop}
    (h : Ensures I z (resolveDeclaration [] .global d) Q) (o : Outcome) :
    I (resolveStep d o z).2.registry := by
  have h := h.kept
  unfold resolveStep
  split
  next hrun =>
    rw [hrun] at h
    exact h
  next hrun =>
    rw [hrun] at h
    exact h

end Resolution

end TypeLayout
