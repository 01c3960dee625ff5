import TypeLayout.Proofs.Registry.Routes
import TypeLayout.Proofs.Source.Passes
import TypeLayout.Proofs.Source.Steps
/-! The upkeep of an invariant by the second pass. The recursion over declarations, records,
declarators and members is gone through once: an invariant that the single steps keep, with what it
says of types, members and bases, is kept by both passes, and holds of whatever they answer. -/

namespace TypeLayout

open Registry

mutual

def Declarator.arrayFree : Declarator → Bool
  | .array _ _ => false
  | .pointer pointee => pointee.arrayFree
  | .record r => r.arrayFree
  | _ => true

def RecordDecl.arrayFree : RecordDecl → Bool
  | ⟨_, _, _, members, _, nested⟩ => arrayFreeMembers members && arrayFreeDeclarations nested

def Declaration.arrayFree : Declaration → Bool
  | .record r => r.arrayFree
  | .typedef _ target => target.arrayFree
  | _ => true

def arrayFreeMembers : List MemberDecl → Bool
  | [] => true
  | ⟨_, type, _⟩ :: xs => type.arrayFree && arrayFreeMembers xs

def arrayFreeDeclarations : List Declaration → Bool
  | [] => true
  | d :: ds => d.arrayFree && arrayFreeDeclarations ds

end

def SourceUnit.arrayFree (u : SourceUnit) : Bool := arrayFreeDeclarations u.declarations

theorem EnumDecl.underlying_ne_void {e : EnumDecl} {type : EnumType} (h : e.type = .ok type) :
    type.underlying ≠ .void := by
  unfold EnumDecl.type at h
  split at h
  next spelling _ =>
    unfold underlyingOf at h
    split at h
    next kind _ =>
      split at h
      next hi =>
        cases h
        rintro rfl
        cases hi
      next => cases h
    next => cases h
  next =>
    cases h
    exact fun hv => by cases hv

theorem Registry.Binding.resolveName_cases {r : Registry} (hr : r.Binding) {s : ScopeId}
    {name : String} {d : Descriptor} (h : r.resolveName s name = .ok d) :
    (∃ id, d = .named id ∧ id.index < r.size) ∨ ∃ kind, d = .fundamental kind := by
  unfold resolveName at h
  split at h
  next id hid =>
    cases h
    exact Or.inl ⟨id, rfl, hr.find_lt hid⟩
  next =>
    split at h
    next kind _ =>
      cases h
      exact Or.inr ⟨kind, rfl⟩
    next => cases h

/-- An invariant of registries, and what it says of the types that are resolved under it. -/
structure Upkeep where
  Holds : Registry → Prop
  Inside : ScopeId → Prop
  Answer : Registry → Descriptor → Prop
  Member : List TypeId → Registry → Descriptor → Prop
  Base : Registry → BaseSpec → Prop
  arrays : Prop

namespace Upkeep

variable (K : Upkeep) (r : Registry)

/-- A state of the registry in which a scope may be declared in. -/
structure At (s : ScopeId) : Prop where
  holds : K.Holds r
  lt : s.index < r.scopes.size
  inside : K.Inside s

structure Body (ids : List TypeId) (a : Aggregate) : Prop where
  members : ∀ x ∈ a.members, K.Member ids r x.type
  bases : ∀ b ∈ a.bases, K.Base r b

structure Lawful : Prop extends Durable K.Holds where
  enter : ∀ {r : Registry} {s t : ScopeId} {name : String} {id : TypeId}, K.At r s →
    r.boundTag? s name = some id → r.body? id = some t → K.Inside t
  defineEnum : ∀ {r r' : Registry} {s : ScopeId} {name : String} {e : EnumType} {id : TypeId},
    K.At r s → e.underlying ≠ .void → r.define s name (.enum e) = .ok (id, r') → K.Holds r'
  defineTypedef : ∀ {r r' : Registry} {s : ScopeId} {name : String} {t : Descriptor} {id : TypeId},
    K.At r s → K.Answer r t → r.define s name (.typedef t) = .ok (id, r') → K.Holds r'
  /-- The entry that is completed is one of those being defined. -/
  defineRecord : ∀ {r r' : Registry} {s : ScopeId} {name : String} {a : Aggregate}
    {id j : TypeId} {ids : List TypeId}, K.At r s → K.Body r ids a → id ∈ ids →
    r.boundTag? s name = some id → r.define s name (.aggregate a) = .ok (j, r') → K.Holds r'
  fundamental : ∀ r kind, K.Answer r (.fundamental kind)
  resolveName : ∀ {r : Registry} {s : ScopeId} {name : String} {d : Descriptor}, K.Holds r →
    r.resolveName s name = .ok d → K.Answer r d
  named : ∀ {r : Registry} {id : TypeId}, id.index < r.size → K.Answer r (.named id)
  enum : ∀ r {e : EnumType}, e.underlying ≠ .void → K.Answer r (.enum e)
  pointer : ∀ {r d}, K.Answer r d → K.Answer r (.pointer d)
  array : ∀ {r d} count, K.arrays → K.Answer r d → K.Answer r (.array d count)
  aggregate : ∀ {r ids a}, K.Holds r → K.Body r ids a → K.Answer r (.aggregate a)
  member : ∀ {r : Registry} {ids d name}, K.Holds r → K.Answer r d →
    r.checkMember ids d name = .ok () → K.Member ids r d
  base : ∀ {r : Registry} {s b spec}, K.Holds r → r.resolveBase s b = .ok spec → K.Base r spec
  growsMember : ∀ {r r' : Registry} {ids d}, K.Holds r → K.Holds r' → r.GrowsTo r' →
    K.Member ids r d → K.Member ids r' d
  growsBase : ∀ {r r' : Registry} {spec}, K.Holds r → K.Holds r' → r.GrowsTo r' →
    K.Base r spec → K.Base r' spec

def Admits (arrayFree : Bool) : Prop := K.arrays ∨ arrayFree = true

variable {K r} {r' : Registry} {s : ScopeId}

theorem Admits.and {b c : Bool} (h : K.Admits (b && c)) : K.Admits b ∧ K.Admits c := by
  rcases h with harrays | hfree
  · exact ⟨Or.inl harrays, Or.inl harrays⟩
  · obtain ⟨hb, hc⟩ := Bool.and_eq_true_iff.mp hfree
    exact ⟨Or.inr hb, Or.inr hc⟩

theorem At.growsTo (h : K.At r s) (hr' : K.Holds r') (hg : r.GrowsTo r') : K.At r' s :=
  ⟨hr', Nat.lt_of_lt_of_le h.lt hg.scopes_le, h.inside⟩

end Upkeep

variable {K : Upkeep}

section

variable {z : Resolution} {s : ScopeId} (hK : K.Lawful) (h : K.At z.registry s)
include hK h

theorem bodyScope_upkeep {name : String} {id : TypeId}
    (hbound : z.registry.boundTag? s name = some id) :
    Ensures K.Holds z (ResolveM.bodyScope s id) fun t r => K.At r t := by
  refine .ask (.pure h.holds ?_)
  cases hbody : z.registry.body? id with
  | none => exact h
  | some t =>
    obtain ⟨e, he, ht⟩ := Option.bind_eq_some_iff.mp hbody
    exact ⟨h.holds, (hK.treelike h.holds).body_lt he ht, hK.enter h hbound hbody⟩

theorem openRecord_upkeep (tag : AggregateKind) (name : Option String) :
    Ensures K.Holds z (openRecord s tag name) fun p r =>
      K.At r p.2 ∧ ∀ n, name = some n → ∃ id ∈ p.1.toList, r.boundTag? s n = some id := by
  cases name with
  | none => exact .pure h.holds ⟨h, nofun⟩
  | some name =>
    refine (Ensures.declare hK.toDurable h.holds h.lt _).bind fun id z₁ hz₁ hg₁ hbound => .ask ?_
    split
    · exact .throw hz₁ _
    · refine (bodyScope_upkeep hK (h.growsTo hz₁ hg₁) hbound).bind fun t z₂ hz₂ hg₂ ht => ?_
      refine .pure hz₂ ⟨ht, fun n hn => ⟨id, List.mem_singleton_self id, ?_⟩⟩
      cases hn
      exact hg₂.boundTag? hbound

theorem resolveEnum_upkeep (e : EnumDecl) :
    Ensures K.Holds z (resolveEnum s e) fun d r => K.Answer r d := by
  refine .check h.holds fun t ht => ?_
  have hvoid := e.underlying_ne_void ht
  split
  · refine (Ensures.define h.holds fun _ _ => hK.defineEnum h hvoid).bind
      fun id z₁ hz₁ _ hid => ?_
    exact .pure hz₁ (hK.named hid)
  · exact .pure h.holds (hK.enum _ hvoid)

omit h in
theorem resolveBases_upkeep (hz : K.Holds z.registry) (bs : List BaseDecl) :
    Ensures K.Holds z (resolveBases s bs) fun specs r => ∀ b ∈ specs, K.Base r b := by
  induction bs generalizing z with
  | nil => exact .pure hz nofun
  | cons b bs ih =>
    refine .ask (.check hz fun spec hspec => ?_)
    refine (ih hz).bind fun specs z₁ hz₁ hg₁ hspecs => .pure hz₁ fun b' hb => ?_
    rcases List.mem_cons.mp hb with rfl | hb
    · exact hK.growsBase hz hz₁ hg₁ (hK.base hz hspec)
    · exact hspecs b' hb

theorem closeRecord_upkeep {ids : List TypeId} {body : Aggregate}
    (hbody : K.Body z.registry ids body) {name : Option String}
    (hown : ∀ n, name = some n → ∃ id ∈ ids, z.registry.boundTag? s n = some id) :
    Ensures K.Holds z (closeRecord s body name) fun d r => K.Answer r d := by
  cases name with
  | none => exact .pure h.holds (hK.aggregate h.holds hbody)
  | some name =>
    obtain ⟨id, hid, hbound⟩ := hown name rfl
    refine (Ensures.define h.holds fun _ _ => hK.defineRecord h hbody hid hbound).bind
      fun j z₁ hz₁ _ hj => .ask ?_
    refine (Ensures.note hz₁ _ _ _).bind fun _ z₂ hz₂ hg₂ _ => ?_
    exact .pure hz₂ (hK.named (Nat.lt_of_lt_of_le hj hg₂.size_le))

omit h in
theorem Upkeep.Lawful.body {ids : List TypeId} {t : ScopeId} (tag : AggregateKind)
    (name : Option String) (bases : List BaseDecl) {members : List MemberDecl}
    (functions : List String) {nested : List Declaration} (ht : K.At z.registry t)
    (hnested : ∀ {z : Resolution}, K.At z.registry t →
      Ensures K.Holds z (resolveNested ids t nested) fun _ _ => True)
    (hmembers : ∀ {z : Resolution}, K.At z.registry t →
      Ensures K.Holds z (resolveMembers ids t members) fun xs r =>
        ∀ x ∈ xs, K.Member ids r x.type) :
    Ensures K.Holds z (resolveBody ids s t ⟨tag, name, bases, members, functions, nested⟩)
      fun a r => K.Body r ids a ∧ a.kind = tag := by
  refine (hnested ht).bind fun _ z₁ hz₁ hg₁ _ => ?_
  refine (resolveBases_upkeep hK hz₁ bases).bind fun specs z₂ hz₂ hg₂ hspecs => ?_
  refine (hmembers (ht.growsTo hz₂ (hg₁.trans hg₂))).bind fun xs z₃ hz₃ hg₃ hxs => ?_
  exact .pure hz₃ ⟨⟨hxs, fun b hb => hK.growsBase hz₂ hz₃ hg₃ (hspecs b hb)⟩, rfl⟩

end

mutual

theorem resolveDeclaration_upkeep (hK : K.Lawful) (d : Declaration) (hd : K.Admits d.arrayFree)
    (defining : List TypeId) {z : Resolution} {s : ScopeId} (h : K.At z.registry s) :
    Ensures K.Holds z (resolveDeclaration defining s d) fun _ _ => True := by
  cases d with
  | record r =>
    exact (resolveRecord_upkeep hK r hd defining h).bind fun _ z₁ hz₁ _ _ => .pure hz₁ trivial
  | forward tag name =>
    exact (Ensures.declare hK.toDurable h.holds h.lt _).bind
      fun _ z₁ hz₁ _ _ => .pure hz₁ trivial
  | enum e => exact (resolveEnum_upkeep hK h e).bind fun _ z₁ hz₁ _ _ => .pure hz₁ trivial
  | typedef name target =>
    refine (resolveDeclarator_upkeep hK target hd defining h).bind
      fun t z₁ hz₁ hg₁ ht => .ask ?_
    refine (Ensures.note hz₁ _ _ _).bind fun _ z₂ hz₂ hg₂ hsame => ?_
    have h₂ := h.growsTo hz₂ (hg₁.trans hg₂)
    refine (Ensures.define hz₂ fun _ _ => hK.defineTypedef h₂ (hsame ▸ ht)).bind
      fun _ z₃ hz₃ _ _ => ?_
    exact .pure hz₃ trivial

theorem resolveRecord_upkeep (hK : K.Lawful) (r : RecordDecl) (hd : K.Admits r.arrayFree)
    (defining : List TypeId) {z : Resolution} {s : ScopeId} (h : K.At z.registry s) :
    Ensures K.Holds z (resolveRecord defining s r) fun d r => K.Answer r d := by
  rw [resolveRecord_eq]
  obtain ⟨tag, name, bases, members, functions, nested⟩ := r
  obtain ⟨hm, hn⟩ := hd.and
  refine (openRecord_upkeep hK h tag name).bind fun p z₁ hz₁ hg₁ ⟨hp, hown⟩ => ?_
  refine (hK.body tag name bases functions hp (resolveNested_upkeep hK nested hn _)
    (resolveMembers_upkeep hK members hm _)).bind fun a z₂ hz₂ hg₂ ⟨hbody, _⟩ => ?_
  -- the entry that is being defined is still bound to the name
  refine closeRecord_upkeep hK (h.growsTo hz₂ (hg₁.trans hg₂)) hbody fun n hn => ?_
  obtain ⟨id, hid, hbound⟩ := hown n hn
  exact ⟨id, List.mem_append_left _ hid, hg₂.boundTag? hbound⟩

theorem resolveDeclarator_upkeep (hK : K.Lawful) (d : Declarator) (hd : K.Admits d.arrayFree)
    (defining : List TypeId) {z : Resolution} {s : ScopeId} (h : K.At z.registry s) :
    Ensures K.Holds z (resolveDeclarator defining s d) fun d r => K.Answer r d := by
  cases d with
  | fundamental spelling =>
    unfold resolveDeclarator
    split
    · exact .pure h.holds (hK.fundamental _ _)
    · exact .throw h.holds _
  | named name => exact .ask (.ofExcept h.holds fun d hd => hK.resolveName h.holds hd)
  | pointer pointee =>
    exact (resolveDeclarator_upkeep hK pointee hd defining h).bind
      fun _ z₁ hz₁ _ ht => .pure hz₁ (hK.pointer ht)
  | array element count =>
    have harrays : K.arrays := hd.resolve_right nofun
    exact (resolveDeclarator_upkeep hK element (Or.inl harrays) defining h).bind
      fun _ z₁ hz₁ _ ht => .pure hz₁ (hK.array count harrays ht)
  | record r => exact resolveRecord_upkeep hK r hd defining h
  | enum e => exact resolveEnum_upkeep hK h e

theorem resolveNested_upkeep (hK : K.Lawful) (ds : List Declaration)
    (hd : K.Admits (arrayFreeDeclarations ds)) (defining : List TypeId) {z : Resolution}
    {s : ScopeId} (h : K.At z.registry s) :
    Ensures K.Holds z (resolveNested defining s ds) fun _ _ => True := by
  cases ds with
  | nil => exact .pure h.holds trivial
  | cons d ds =>
    obtain ⟨hd, hds⟩ := hd.and
    refine (setAside_ensures d (resolveDeclaration_upkeep hK d hd defining h)).bind
      fun _ z₁ hz₁ hg₁ _ => ?_
    exact resolveNested_upkeep hK ds hds defining (h.growsTo hz₁ hg₁)

theorem resolveMembers_upkeep (hK : K.Lawful) (xs : List MemberDecl)
    (hd : K.Admits (arrayFreeMembers xs)) (defining : List TypeId) {z : Resolution} {s : ScopeId}
    (h : K.At z.registry s) :
    Ensures K.Holds z (resolveMembers defining s xs) fun ms r =>
      ∀ x ∈ ms, K.Member defining r x.type := by
  cases xs with
  | nil => exact .pure h.holds nofun
  | cons x xs =>
    obtain ⟨name, type, width⟩ := x
    obtain ⟨ht, hxs⟩ := hd.and
    refine ((resolveDeclarator_upkeep hK type ht defining h).tryCatch
      fun _ _ hz' => .throw hz' _).bind fun d z₁ hz₁ hg₁ hd => .ask (.check hz₁ fun _ hc => ?_)
    have hmember := hK.member hz₁ hd hc
    refine (resolveMembers_upkeep hK xs hxs defining (h.growsTo hz₁ hg₁)).bind
      fun ms z₂ hz₂ hg₂ hms => .pure hz₂ fun x hx => ?_
    rcases List.mem_cons.mp hx with rfl | hx
    · exact hK.growsMember hz₁ hz₂ hg₂ hmember
    · exact hms x hx

end

theorem resolveBody_upkeep (hK : K.Lawful) (r : RecordDecl) (hd : K.Admits r.arrayFree)
    (defining : List TypeId) {z : Resolution} (s : ScopeId) {t : ScopeId}
    (h : K.At z.registry t) :
    Ensures K.Holds z (resolveBody defining s t r) fun a r' =>
      K.Body r' defining a ∧ a.kind = r.tag := by
  obtain ⟨tag, name, bases, members, functions, nested⟩ := r
  obtain ⟨hm, hn⟩ := hd.and
  exact hK.body tag name bases functions h (resolveNested_upkeep hK nested hn _)
    (resolveMembers_upkeep hK members hm _)

theorem Resolution.resolvePass_upkeep (hK : K.Lawful) (hinside : K.Inside .global)
    {ds : List Declaration} (hd : K.Admits (arrayFreeDeclarations ds)) {z : Resolution}
    (hz : K.Holds z.registry) (o : Outcome) : K.Holds (resolvePass ds o z).2.registry := by
  induction ds generalizing o z with
  | nil => exact hz
  | cons d ds ih =>
    obtain ⟨hd, hds⟩ := hd.and
    have h : K.At z.registry .global := ⟨hz, hK.global_lt hz, hinside⟩
    exact ih hds (resolveStep_kept (resolveDeclaration_upkeep hK d hd [] h) o) _

theorem SourceUnit.resolve_upkeep (hK : K.Lawful) (hinside : K.Inside .global) {u : SourceUnit}
    (hu : K.Admits u.arrayFree) (hprelude : K.Holds withPrelude) :
    K.Holds u.resolve.2.registry :=
  Resolution.resolvePass_upkeep hK hinside hu
    (Resolution.predeclarePass_kept hK.toDurable (z := { registry := .withPrelude }) hprelude
      u.declarations {}) _

end TypeLayout
