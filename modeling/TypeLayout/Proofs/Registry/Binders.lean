import TypeLayout.Proofs.Registry.Qualified
/-! Which scope a path is found from. The first part is bound in the nearest scope around that binds
it, or in global scope if the path is anchored, and each further part in the body of what precedes
it. So the qualified name of what is found is the name of that scope followed by the path. -/

namespace TypeLayout

theorem Path.ofString_text_like (anchored : Bool) {first : String} {rest : List String}
    (hpath : ∀ n ∈ first :: rest, Text.IdentifierLike n) :
    ofString (text ⟨anchored, first :: rest⟩) = ⟨anchored, first :: rest⟩ := by
  cases anchored with
  | true => exact ofString_text (List.cons_ne_nil _ _) hpath
  | false =>
    have htext : text ⟨false, first :: rest⟩ = Text.join "::" (first :: rest) := by simp [text]
    rw [htext]
    exact ofString_join (List.cons_ne_nil _ _) hpath

namespace Registry

/-- The innermost of a scope and the scopes around it that binds the name. -/
inductive NearestBinder (r : Registry) (n : String) : ScopeId → ScopeId → Prop
  | here {s : ScopeId} : (r.bound? s n).isSome = true → NearestBinder r n s s
  | around {s p t : ScopeId} : r.bound? s n = none → r.scope? s >>= Scope.parent = some p →
    NearestBinder r n p t → NearestBinder r n s t

def StartsAt (r : Registry) (s : ScopeId) (anchored : Bool) (first : String) (t : ScopeId) : Prop :=
  if anchored then t = .global ∧ (r.bound? .global first).isSome = true
  else r.NearestBinder first s t

/-- The names lead from a scope to an entry, through bodies. -/
inductive Leads (r : Registry) : ScopeId → List String → TypeId → Prop
  | last {t : ScopeId} {n : String} {id : TypeId} : r.bound? t n = some id → Leads r t [n] id
  | into {t u : ScopeId} {n : String} {ns : List String} {o id : TypeId} :
    r.bound? t n = some o → r.body? o = some u → Leads r u ns id → Leads r t (n :: ns) id

def partsOf (r : Registry) (id : TypeId) : List String := (Path.ofString (r.qualifiedName id)).parts

def scopeParts (r : Registry) (s : ScopeId) : List String :=
  match r.scope? s >>= Scope.owner with
  | some o => r.partsOf o
  | none => []

variable {r : Registry} {s t u : ScopeId} {n first : String} {ns rest : List String}
  {id o : TypeId} {anchored : Bool}

theorem nearestBinder_of_bound (h : r.bound? s n = some id) : r.NearestBinder n s t ↔ t = s := by
  constructor
  · intro hnear
    cases hnear with
    | here _ => rfl
    | around hnone _ _ =>
      rw [h] at hnone
      cases hnone
  · rintro rfl
    exact .here (Option.isSome_of_eq_some h)

theorem nearestBinder_of_not_bound (h : r.bound? s n = none) :
    r.NearestBinder n s t ↔ ∃ p, r.scope? s >>= Scope.parent = some p ∧ r.NearestBinder n p t := by
  constructor
  · intro hnear
    cases hnear with
    | here hsome =>
      rw [h] at hsome
      cases hsome
    | around _ hparent hnear => exact ⟨_, hparent, hnear⟩
  · rintro ⟨p, hparent, hnear⟩
    exact .around h hparent hnear

/-- The walk outward comes to the nearest binder, since the scope around a scope is older. -/
theorem Linked.findSome?_scopesOutward (hr : r.Linked) {k : Nat} (hk : s.index < k) :
    (r.scopesOutward k s).findSome? (r.bound? · n) = some id ↔
      ∃ t, r.NearestBinder n s t ∧ r.bound? t n = some id := by
  induction k generalizing s with
  | zero => exact absurd hk (Nat.not_lt_zero _)
  | succ k ih =>
    rw [scopesOutward, List.findSome?_cons]
    cases hb : r.bound? s n with
    | some j => simp only [nearestBinder_of_bound hb, exists_eq_left, hb]
    | none =>
      simp only [nearestBinder_of_not_bound hb]
      cases hp : r.scope? s >>= Scope.parent with
      | none => simp
      | some p =>
        -- the fuel lasts, as the number of scopes is enough for indices that only fall
        obtain ⟨sc, hsc, hparent⟩ := Option.bind_eq_some_iff.mp hp
        have hlt := hr.parent_lt hsc hparent
        simpa using ih (show p.index < k by omega)

theorem Linked.findSome?_startScopes (hr : r.Linked) (hs : s.index < r.scopes.size) :
    (r.startScopes s anchored).findSome? (r.bound? · first) = some id ↔
      ∃ t, r.StartsAt s anchored first t ∧ r.bound? t first = some id := by
  unfold startScopes StartsAt
  cases anchored with
  | false =>
    simp only [Bool.false_eq_true, if_false]
    exact hr.findSome?_scopesOutward hs
  | true =>
    cases hb : r.bound? .global first <;> simp [hb]

theorem leads_cons : r.Leads t (n :: ns) id ↔
    ∃ o, r.bound? t n = some o ∧ r.findWithin o ns = some id := by
  induction ns generalizing t n with
  | nil =>
    simp only [findWithin, Option.some.injEq, exists_eq_right]
    constructor
    · intro h
      cases h with
      | last hb => exact hb
      | into _ _ hnil => cases hnil
    · exact .last
  | cons m ns ih =>
    constructor
    · intro h
      cases h with
      | into hb hbody h =>
        obtain ⟨o, ho, hwithin⟩ := ih.mp h
        refine ⟨_, hb, ?_⟩
        simpa only [findWithin, hbody, Option.bind_eq_bind, Option.bind_some, ho] using hwithin
    · rintro ⟨o, hb, hwithin⟩
      unfold findWithin at hwithin
      split at hwithin
      next inner hinner =>
        obtain ⟨u, hbody, hm⟩ := Option.bind_eq_some_iff.mp hinner
        exact .into hb hbody (ih.mpr ⟨inner, hm, hwithin⟩)
      next => cases hwithin

theorem Linked.findPath?_eq_some (hr : r.Linked) (hs : s.index < r.scopes.size)
    (hfirst : first.isEmpty = false) : r.findPath? s ⟨anchored, first :: rest⟩ = some id ↔
      ∃ t, r.StartsAt s anchored first t ∧ r.Leads t (first :: rest) id := by
  simp only [findPath?, hfirst, Bool.false_eq_true, if_false, Option.bind_eq_bind,
    Option.bind_eq_some_iff, hr.findSome?_startScopes hs, leads_cons]
  constructor
  · rintro ⟨o, ⟨t, hstart, hb⟩, hwithin⟩
    exact ⟨t, hstart, o, hb, hwithin⟩
  · rintro ⟨t, hstart, o, hb, hwithin⟩
    exact ⟨o, ⟨t, hstart, hb⟩, hwithin⟩

theorem Arranged.entry_of_bound? (hr : r.Arranged) (h : r.bound? t n = some id) :
    ∃ e, r.entry? id = some e ∧ e.scope = t ∧ e.name = n := by
  obtain ⟨sc, hsc, hget⟩ := Option.bind_eq_some_iff.mp h
  rw [Scope.get?, Option.orElse_eq_orElse, Option.orElse_eq_or] at hget
  have hnamed : ∃ space, r.named? t space n = some id := by
    rcases Option.or_eq_some_iff.mp hget with hb | ⟨-, hb⟩
    · exact ⟨.typedefs, Option.bind_eq_some_iff.mpr ⟨sc, hsc, hb⟩⟩
    · exact ⟨.tags, Option.bind_eq_some_iff.mpr ⟨sc, hsc, hb⟩⟩
  obtain ⟨space, hnamed⟩ := hnamed
  obtain ⟨e, he, hscope, -, hname⟩ := hr.named_iff.mp hnamed
  exact ⟨e, he, hscope, hname⟩

def scopeRoute (r : Registry) (s : ScopeId) : List String :=
  match r.scope? s >>= Scope.owner with
  | some o => (r.route o).reverse
  | none => []

theorem Arranged.route_of_bound? (hr : r.Arranged) (h : r.bound? t n = some id) :
    (r.route id).reverse = r.scopeRoute t ++ [n] := by
  obtain ⟨e, he, rfl, rfl⟩ := hr.entry_of_bound? h
  rw [hr.route_eq he, scopeRoute, owner?, he]
  simp only [Option.bind_eq_bind, Option.bind_some]
  cases (r.scope? e.scope).bind Scope.owner <;> simp

theorem Arranged.entry_of_leads (hr : r.Arranged) (h : r.Leads t ns id) :
    ∃ e, r.entry? id = some e := by
  induction h with
  | last hb =>
    obtain ⟨e, he, -, -⟩ := hr.entry_of_bound? hb
    exact ⟨e, he⟩
  | into _ _ _ ih => exact ih

theorem Arranged.route_of_leads (hr : r.Arranged) (h : r.Leads t ns id) :
    (r.route id).reverse = r.scopeRoute t ++ ns := by
  induction h with
  | last hb => exact hr.route_of_bound? hb
  | @into t u n ns o id hb hbody _ ih =>
    obtain ⟨-, sc, -, hsc, -, howner⟩ := hr.toLinked.scope_of_body? hr.toTreelike hbody
    have hinside : r.scopeRoute u = (r.route o).reverse := by
      simp only [scopeRoute, hsc, Option.bind_eq_bind, Option.bind_some, howner]
    rw [ih, hinside, hr.route_of_bound? hb, List.append_assoc, List.singleton_append]

theorem Arranged.partsOf_eq (hr : r.Arranged) (hnames : r.IdentifierNamed) {e : Entry}
    (he : r.entry? id = some e) : r.partsOf id = (r.route id).reverse := by
  have hparts : ∀ n ∈ (r.route id).reverse, Text.IdentifierLike n :=
    fun n hn => hnames.route (List.mem_reverse.mp hn)
  rw [partsOf, qualifiedName_eq_join, Path.ofString_join (hr.route_ne_nil he) hparts]

theorem Arranged.scopeParts_eq (hr : r.Arranged) (hnames : r.IdentifierNamed) (t : ScopeId) :
    r.scopeParts t = r.scopeRoute t := by
  unfold scopeParts scopeRoute
  cases ho : r.scope? t >>= Scope.owner with
  | none => rfl
  | some o =>
    obtain ⟨sc, hsc, howner⟩ := Option.bind_eq_some_iff.mp ho
    obtain ⟨e, he⟩ := entry?_of_lt (hr.scopeOwner_lt hsc howner)
    exact hr.partsOf_eq hnames he

theorem Arranged.startsAt_global (hr : r.Arranged) (h : r.StartsAt .global anchored first t) :
    t = .global := by
  unfold StartsAt at h
  cases anchored with
  | true => exact h.1
  | false =>
    cases h with
    | here _ => rfl
    | around _ hparent _ =>
      obtain ⟨sc, hsc, hparent⟩ := Option.bind_eq_some_iff.mp hparent
      rw [(hr.toLinked.global_place hr.toTreelike hsc).1] at hparent
      cases hparent

theorem Arranged.scopeRoute_global (hr : r.Arranged) : r.scopeRoute .global = [] := by
  obtain ⟨sc, hsc⟩ := scope?_of_lt hr.global_lt
  simp only [scopeRoute, hsc, Option.bind_eq_bind, Option.bind_some,
    (hr.toLinked.global_place hr.toTreelike hsc).2]

theorem Arranged.find_eq_ok (hr : r.Arranged) (hs : s.index < r.scopes.size)
    (hpath : ∀ n ∈ first :: rest, Text.IdentifierLike n) :
    r.find s (Path.text ⟨anchored, first :: rest⟩) = .ok id ↔
      ∃ t, r.StartsAt s anchored first t ∧ r.Leads t (first :: rest) id := by
  have hne := (hpath first List.mem_cons_self).1
  have hfirst : first.isEmpty = false := by
    rw [Bool.eq_false_iff, ne_eq, String.isEmpty_iff]
    rintro rfl
    exact hne rfl
  rw [find, Path.ofString_text_like anchored hpath, ← hr.toLinked.findPath?_eq_some hs hfirst]
  cases r.findPath? s ⟨anchored, first :: rest⟩ <;> simp

/-- A path of identifiers is found exactly if its names lead on from the scope it starts at, which
is the global one behind an anchor and else the nearest that binds the first name. What is found is
named as that scope is, with the path behind; from global scope it is named as it was asked for. -/
theorem Reached.find_names (h : r.Reached) (hnames : r.IdentifierNamed)
    (hs : s.index < r.scopes.size) (hpath : ∀ n ∈ first :: rest, Text.IdentifierLike n) :
    (∀ id, r.find s (Path.text ⟨anchored, first :: rest⟩) = .ok id →
      (∃ t, r.StartsAt s anchored first t ∧ r.Leads t (first :: rest) id ∧
        r.partsOf id = r.scopeParts t ++ first :: rest) ∧
      (s = .global → r.qualifiedName id = Text.join "::" (first :: rest))) ∧
    ∀ t id, r.StartsAt s anchored first t → r.Leads t (first :: rest) id →
      r.find s (Path.text ⟨anchored, first :: rest⟩) = .ok id := by
  have hr := h.arranged
  refine ⟨fun id hfind => ?_, fun t id hstart hleads =>
    (hr.find_eq_ok hs hpath).mpr ⟨t, hstart, hleads⟩⟩
  obtain ⟨t, hstart, hleads⟩ := (hr.find_eq_ok hs hpath).mp hfind
  have hroute := hr.route_of_leads hleads
  constructor
  · obtain ⟨e, he⟩ := hr.entry_of_leads hleads
    refine ⟨t, hstart, hleads, ?_⟩
    rw [hr.partsOf_eq hnames he, hroute, hr.scopeParts_eq hnames]
  · rintro rfl
    rw [qualifiedName_eq_join, hroute, hr.startsAt_global hstart, hr.scopeRoute_global,
      List.nil_append]

/-- A structure in a structure, an enumeration in the inner one, and another structure with the name
of the inner one around them. -/
def shadedSteps : List Step :=
  [.define .global "Node" (.aggregate ⟨.structType, some "Node", [], [], []⟩),
    .define ⟨1⟩ "Inner" (.aggregate ⟨.structType, some "Inner", [], [], []⟩),
    .define ⟨2⟩ "Color" (.enum ⟨some "Color", .int⟩),
    .define .global "Inner" (.aggregate ⟨.structType, some "Inner", [], [], []⟩)]

def shadedRegistry : Registry := shadedSteps.foldl (fun r step => (r.perform step).2) .empty

theorem shadedRegistry_reached : shadedRegistry.Reached :=
  .step _ (.step _ (.step _ (.step _ .empty (by decide)) (by decide)) (by decide)) (by decide)

theorem shadedRegistry_identifierNamed : shadedRegistry.IdentifierNamed :=
  identifierNamed_of_entries (by decide)

/-- From inside, the inner structure is nearer than the one around. -/
theorem shadedRegistry_names : shadedRegistry.Reached ∧ shadedRegistry.IdentifierNamed ∧
    shadedRegistry.find ⟨2⟩ "Inner::Color" = .ok ⟨2⟩ ∧
    (∃ t, shadedRegistry.StartsAt ⟨2⟩ false "Inner" t ∧
      shadedRegistry.Leads t ["Inner", "Color"] ⟨2⟩ ∧
      shadedRegistry.partsOf ⟨2⟩ = shadedRegistry.scopeParts t ++ ["Inner", "Color"]) ∧
    shadedRegistry.find .global "::Node::Inner" = .ok ⟨1⟩ ∧
    shadedRegistry.qualifiedName ⟨1⟩ = "Node::Inner" := by
  have hreached := shadedRegistry_reached
  have hnames := shadedRegistry_identifierNamed
  have hcolor : shadedRegistry.find ⟨2⟩ "Inner::Color" = .ok ⟨2⟩ := rfl
  have hcolorPath : ∀ n ∈ ["Inner", "Color"], Text.IdentifierLike n := by decide
  have hinner : shadedRegistry.find .global "::Node::Inner" = .ok ⟨1⟩ := rfl
  have hinnerPath : ∀ n ∈ ["Node", "Inner"], Text.IdentifierLike n := by decide
  have hparts := (@Reached.find_names _ ⟨2⟩ "Inner" ["Color"] false hreached hnames (by decide)
    hcolorPath).1 ⟨2⟩ hcolor
  have hname := (@Reached.find_names _ .global "Node" ["Inner"] true hreached hnames (by decide)
    hinnerPath).1 ⟨1⟩ hinner
  exact ⟨hreached, hnames, hcolor, hparts.1, hinner, hname.2 rfl⟩

end Registry

end TypeLayout
