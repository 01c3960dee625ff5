import TypeLayout.Proofs.Source.Sites
/-! Habits of the resolution. A property that single steps have, and that steps put together from
such steps have as well, is one of both passes over whatever is declared. It may depend on the names
by which tags are called. -/

namespace TypeLayout

def SitesNamed (P : String → Prop) (xs : List Site) : Prop := ∀ x ∈ xs, ∀ n ∈ x.2.name?, P n

theorem sitesNamed_append {P : String → Prop} {xs ys : List Site} :
    SitesNamed P (xs ++ ys) ↔ SitesNamed P xs ∧ SitesNamed P ys := List.forall_mem_append

theorem SitesNamed.own {P : String → Prop} {p : List String} {name : Option String}
    {d : Declaration} (h : SitesNamed P (ownSites p name d)) (hd : d.name? = name) :
    ∀ n ∈ name, P n := by
  rintro n rfl
  exact h _ List.mem_cons_self n hd

theorem sitesNamed_any (xs : List Site) : SitesNamed (fun _ => True) xs :=
  fun _ _ _ _ => trivial

structure Habit (P : String → Prop) (K : ∀ α : Type, ResolveM α → Prop) : Prop where
  lift : ∀ {α : Type} (y : Except LayoutError α), K α (ofExcept y)
  registry : K Registry ResolveM.registry
  note : ∀ level origin message, K Unit (ResolveM.note level origin message)
  bind : ∀ {α β : Type} {x : ResolveM α} {f : α → ResolveM β}, K α x → (∀ a, K β (f a)) →
    K β (x >>= f)
  declare : ∀ (s : ScopeId) {name : String} (tag : TagKind), P name →
    K TypeId (ResolveM.declare s name tag)
  define : ∀ (s : ScopeId) {name : String} {d : Definition}, (d.tag?.isSome = true → P name) →
    K TypeId (ResolveM.define s name d)

structure FirmHabit (P : String → Prop) (K : ∀ α : Type, ResolveM α → Prop) : Prop
    extends Habit P K where
  rethrow : ∀ {α : Type} {x : ResolveM α} (f : LayoutError → LayoutError), K α x →
    K α (tryCatch x fun e => throw (f e))
  setAside : ∀ {α : Type} {x : ResolveM α} (d : Declaration), K α x → K Unit (setAside d x)

variable {P : String → Prop} {K : ∀ α : Type, ResolveM α → Prop}

namespace Habit

variable (hK : Habit P K)
include hK

theorem pure {α : Type} (a : α) : K α (pure a) := hK.lift (.ok a)

theorem throw {α : Type} (e : LayoutError) : K α (throw e) := hK.lift (.error e)

theorem discard {α : Type} {x : ResolveM α} (hx : K α x) : K Unit (discard x) := by
  rw [discard_eq_bind]
  exact hK.bind hx fun _ => hK.pure ()

theorem bodyScope (s : ScopeId) (id : TypeId) : K ScopeId (ResolveM.bodyScope s id) :=
  hK.bind hK.registry fun _ => hK.pure _

theorem resolveBases (s : ScopeId) (bs : List BaseDecl) :
    K (List BaseSpec) (resolveBases s bs) := by
  induction bs with
  | nil => exact hK.pure []
  | cons b bs ih =>
    refine hK.bind hK.registry fun _ => hK.bind (hK.lift _) fun _ => ?_
    exact hK.bind ih fun _ => hK.pure _

section

variable {name : Option String} (hname : ∀ n ∈ name, P n)
include hname

theorem predeclareTag (s : ScopeId) (tag : AggregateKind) :
    K ScopeId (predeclareTag s tag name) := by
  cases name with
  | none => exact hK.pure s
  | some n => exact hK.bind (hK.declare s _ (hname n rfl)) fun _ => hK.bodyScope s _

theorem openRecord (s : ScopeId) (tag : AggregateKind) :
    K (Option TypeId × ScopeId) (openRecord s tag name) := by
  cases name with
  | none => exact hK.pure _
  | some n =>
    refine hK.bind (hK.declare s _ (hname n rfl)) fun id => hK.bind hK.registry fun r => ?_
    split
    · exact hK.throw _
    · exact hK.bind (hK.bodyScope s id) fun _ => hK.pure _

theorem closeRecord (s : ScopeId) (body : Aggregate) :
    K Descriptor (closeRecord s body name) := by
  cases name with
  | none => exact hK.pure _
  | some n =>
    refine hK.bind (hK.define s fun _ => hname n rfl) fun id => hK.bind hK.registry fun r => ?_
    exact hK.bind (hK.note _ _ _) fun _ => hK.pure _

end

variable {e : EnumDecl} (hname : ∀ n ∈ e.name, P n)
include hname

theorem predeclareEnum (s : ScopeId) : K Unit (predeclareEnum s e) := by
  unfold TypeLayout.predeclareEnum
  split
  next n hn => exact hK.discard (hK.declare s _ (hname n hn))
  next => exact hK.pure ()

theorem resolveEnum (s : ScopeId) : K Descriptor (resolveEnum s e) := by
  refine hK.bind (hK.lift _) fun t => ?_
  split
  next n hn => exact hK.bind (hK.define s fun _ => hname n hn) fun _ => hK.pure _
  next => exact hK.pure _

end Habit

mutual

theorem predeclare_habit (hK : Habit P K) (d : Declaration) {p : List String}
    (h : SitesNamed P (d.sites p)) (s : ScopeId) : K Unit (predeclare s d) := by
  cases d with
  | record r => exact predeclareRecord_habit hK r h s
  | forward tag name =>
    have hname : ∀ n ∈ some name, P n := h.own rfl
    exact hK.discard (hK.declare s _ (hname name rfl))
  | enum e => exact hK.predeclareEnum (h.own rfl) s
  | typedef name target => exact predeclareDeclarator_habit hK target h s

theorem predeclareRecord_habit (hK : Habit P K) (r : RecordDecl) {p : List String}
    (h : SitesNamed P (r.sites p)) (s : ScopeId) : K Unit (predeclareRecord s r) := by
  obtain ⟨tag, name, bases, members, functions, nested⟩ := r
  obtain ⟨hown, hinside⟩ := sitesNamed_append.mp h
  obtain ⟨hnested, hmembers⟩ := sitesNamed_append.mp hinside
  refine hK.bind (hK.predeclareTag (hown.own rfl) s tag) fun body => ?_
  refine hK.bind (predeclareAll_habit hK nested hnested body) fun _ => ?_
  exact predeclareMembers_habit hK members hmembers body

theorem predeclareDeclarator_habit (hK : Habit P K) (d : Declarator) {p : List String}
    (h : SitesNamed P (d.sites p)) (s : ScopeId) : K Unit (predeclareDeclarator s d) := by
  cases d with
  | fundamental spelling => exact hK.pure ()
  | named name => exact hK.pure ()
  | pointer pointee => exact predeclareDeclarator_habit hK pointee h s
  | array element count => exact predeclareDeclarator_habit hK element h s
  | record r => exact predeclareRecord_habit hK r h s
  | enum e => exact hK.predeclareEnum (h.own rfl) s

theorem predeclareAll_habit (hK : Habit P K) (ds : List Declaration) {p : List String}
    (h : SitesNamed P (sitesAll p ds)) (s : ScopeId) : K Unit (predeclareAll s ds) := by
  cases ds with
  | nil => exact hK.pure ()
  | cons d ds =>
    obtain ⟨hd, hds⟩ := sitesNamed_append.mp h
    exact hK.bind (predeclare_habit hK d hd s) fun _ => predeclareAll_habit hK ds hds s

theorem predeclareMembers_habit (hK : Habit P K) (xs : List MemberDecl) {p : List String}
    (h : SitesNamed P (sitesOfMembers p xs)) (s : ScopeId) : K Unit (predeclareMembers s xs) := by
  cases xs with
  | nil => exact hK.pure ()
  | cons x xs =>
    obtain ⟨name, type, width⟩ := x
    obtain ⟨hx, hxs⟩ := sitesNamed_append.mp h
    refine hK.bind (predeclareDeclarator_habit hK type hx s) fun _ => ?_
    exact predeclareMembers_habit hK xs hxs s

end

mutual

theorem resolveDeclaration_habit (hK : FirmHabit P K) (d : Declaration) {p : List String}
    (h : SitesNamed P (d.sites p)) (defining : List TypeId) (s : ScopeId) :
    K (Option TypeId) (resolveDeclaration defining s d) := by
  cases d with
  | record r => exact hK.bind (resolveRecord_habit hK r h defining s) fun _ => hK.pure _
  | forward tag name =>
    have hname : ∀ n ∈ some name, P n := h.own rfl
    exact hK.bind (hK.declare s _ (hname name rfl)) fun _ => hK.pure _
  | enum e => exact hK.bind (hK.resolveEnum (h.own rfl) s) fun _ => hK.pure _
  | typedef name target =>
    refine hK.bind (resolveDeclarator_habit hK target h defining s) fun t => ?_
    refine hK.bind hK.registry fun _ => hK.bind (hK.note _ _ _) fun _ => ?_
    exact hK.bind (hK.define s nofun) fun _ => hK.pure _

theorem resolveRecord_habit (hK : FirmHabit P K) (r : RecordDecl) {p : List String}
    (h : SitesNamed P (r.sites p)) (defining : List TypeId) (s : ScopeId) :
    K Descriptor (resolveRecord defining s r) := by
  obtain ⟨tag, name, bases, members, functions, nested⟩ := r
  obtain ⟨hown, hinside⟩ := sitesNamed_append.mp h
  obtain ⟨hnested, hmembers⟩ := sitesNamed_append.mp hinside
  refine hK.bind (hK.openRecord (hown.own rfl) s tag) fun p => ?_
  refine hK.bind (resolveNested_habit hK nested hnested _ _) fun _ => ?_
  refine hK.bind (hK.resolveBases s bases) fun _ => ?_
  refine hK.bind (resolveMembers_habit hK members hmembers _ _) fun _ => ?_
  exact hK.closeRecord (hown.own rfl) s _

theorem resolveDeclarator_habit (hK : FirmHabit P K) (d : Declarator) {p : List String}
    (h : SitesNamed P (d.sites p)) (defining : List TypeId) (s : ScopeId) :
    K Descriptor (resolveDeclarator defining s d) := by
  cases d with
  | fundamental spelling =>
    unfold resolveDeclarator
    split
    · exact hK.pure _
    · exact hK.throw _
  | named name => exact hK.bind hK.registry fun _ => hK.lift _
  | pointer pointee =>
    exact hK.bind (resolveDeclarator_habit hK pointee h defining s) fun _ => hK.pure _
  | array element count =>
    exact hK.bind (resolveDeclarator_habit hK element h defining s) fun _ => hK.pure _
  | record r => exact resolveRecord_habit hK r h defining s
  | enum e => exact hK.resolveEnum (h.own rfl) s

theorem resolveNested_habit (hK : FirmHabit P K) (ds : List Declaration) {p : List String}
    (h : SitesNamed P (sitesAll p ds)) (defining : List TypeId) (s : ScopeId) :
    K Unit (resolveNested defining s ds) := by
  cases ds with
  | nil => exact hK.pure ()
  | cons d ds =>
    obtain ⟨hd, hds⟩ := sitesNamed_append.mp h
    refine hK.bind (hK.setAside d (resolveDeclaration_habit hK d hd defining s)) fun _ => ?_
    exact resolveNested_habit hK ds hds defining s

theorem resolveMembers_habit (hK : FirmHabit P K) (xs : List MemberDecl) {p : List String}
    (h : SitesNamed P (sitesOfMembers p xs)) (defining : List TypeId) (s : ScopeId) :
    K (List Member) (resolveMembers defining s xs) := by
  cases xs with
  | nil => exact hK.pure []
  | cons x xs =>
    obtain ⟨name, type, width⟩ := x
    obtain ⟨hx, hxs⟩ := sitesNamed_append.mp h
    refine hK.bind (hK.rethrow _ (resolveDeclarator_habit hK type hx defining s)) fun d => ?_
    refine hK.bind hK.registry fun _ => hK.bind (hK.lift _) fun _ => ?_
    exact hK.bind (resolveMembers_habit hK xs hxs defining s) fun _ => hK.pure _

end

end TypeLayout
