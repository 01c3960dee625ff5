import Mathlib.Data.List.Nodup
import TypeLayout.Proofs.Registry.Naming
/-! The registry as a catalogue. Whatever calls of `declare` and `define` were made, an entry is
bound in one name space of one scope and a binding leads to its entry; the scopes are the bodies of
the aggregates. A call adds to the catalogue and takes nothing away. -/

namespace TypeLayout

inductive NameSpace
  | tags
  | typedefs
deriving DecidableEq

def Scope.names (sc : Scope) : NameSpace → List (String × TypeId)
  | .tags => sc.tags
  | .typedefs => sc.typedefs

def EntryState.space (state : EntryState) : NameSpace :=
  if state.tag?.isSome then .tags else .typedefs

def Entry.space (e : Entry) : NameSpace := e.state.space

theorem Scope.names_bindAs (sc : Scope) (state : EntryState) (name : String) (id : TypeId)
    (space : NameSpace) : (sc.bindAs state name id).names space =
      sc.names space ++ if space = state.space then [(name, id)] else [] := by
  by_cases h : state.tag?.isSome = true
  · cases space <;> simp [names, EntryState.space, tags_bindAs, typedefs_bindAs, h]
  · cases space <;> simp [names, EntryState.space, tags_bindAs, typedefs_bindAs, h]

theorem Entry.Becomes.space {e e' : Entry} (h : e.Becomes e') : e'.space = e.space := by
  have htag : e'.state.tag?.isSome = e.state.tag?.isSome := h.tag_isSome
  simp only [Entry.space, EntryState.space, htag]

namespace Registry

variable {r r' : Registry} {s t : ScopeId} {name n : String} {state : EntryState} {id : TypeId}
  {space : NameSpace}

def named? (r : Registry) (s : ScopeId) (space : NameSpace) (name : String) : Option TypeId :=
  r.scope? s >>= fun sc => (sc.names space).lookup name

theorem named?_alloc (hs : s.index < r.scopes.size) (hfree : r.named? s state.space name = none) :
    (r.alloc s name state).2.named? t space n =
      if t = s ∧ space = state.space ∧ n = name then some ⟨r.size⟩ else r.named? t space n := by
  unfold named? at hfree ⊢
  rw [scope?_alloc_bind _ (by cases space <;> rfl)]
  by_cases hst : s = t
  · subst hst
    obtain ⟨sc, hsc⟩ := scope?_of_lt hs
    rw [hsc] at hfree ⊢
    simp only [if_true, Option.bind_eq_bind, Option.bind_some, true_and] at hfree ⊢
    rw [Scope.names_bindAs, List.lookup_append]
    by_cases hspace : space = state.space
    · subst hspace
      by_cases hn : n = name
      · subst hn
        simp [hfree]
      · have hne : (n == name) = false := beq_false_of_ne hn
        simp [List.lookup_cons, hne, hn]
    · simp [hspace]
  · simp only [if_neg hst, Ne.symm hst, false_and, if_false]

/-- Bindings and entries are two views of one thing. -/
structure Catalogued (r : Registry) : Prop where
  named_iff : ∀ {s space n id}, r.named? s space n = some id ↔
    ∃ e, r.entry? id = some e ∧ e.scope = s ∧ e.space = space ∧ e.name = n
  nodup : ∀ {s sc} (space : NameSpace), r.scope? s = some sc →
    ((sc.names space).map Prod.fst).Nodup

theorem not_mem_of_lookup_eq_none {xs : List (String × TypeId)} (h : xs.lookup n = none) :
    n ∉ xs.map Prod.fst := by
  intro hn
  obtain ⟨p, hp, rfl⟩ := List.mem_map.mp hn
  have hne := List.lookup_eq_none_iff.mp h p hp
  simp at hne

theorem Catalogued.alloc (hr : r.Catalogued) (hs : s.index < r.scopes.size)
    (hfree : r.named? s state.space name = none) : (r.alloc s name state).2.Catalogued where
  named_iff {t space n id} := by
    rw [named?_alloc hs hfree, entry?_alloc]
    constructor
    · intro h
      split at h
      next hnew =>
        cases h
        rw [if_pos rfl]
        exact ⟨_, rfl, hnew.1.symm, hnew.2.1.symm, hnew.2.2.symm⟩
      next =>
        obtain ⟨e, he, hrest⟩ := hr.named_iff.mp h
        rw [if_neg (Nat.ne_of_lt (entry?_lt he))]
        exact ⟨e, he, hrest⟩
    · rintro ⟨e, he, rfl, rfl, rfl⟩
      split at he
      next hid =>
        cases he
        rw [if_pos ⟨rfl, rfl, rfl⟩]
        exact congrArg (fun i => some (TypeId.mk i)) hid.symm
      next =>
        have hbound := hr.named_iff.mpr ⟨e, he, rfl, rfl, rfl⟩
        rw [if_neg ?_, hbound]
        rintro ⟨hscope, hspace, hname⟩
        rw [hscope, hspace, hname, hfree] at hbound
        cases hbound
  nodup {t sc} space hsc := by
    by_cases ht : t.index < r.scopes.size
    · rw [r.scope?_alloc_of_lt s name state ht] at hsc
      obtain ⟨sc₀, h₀, rfl⟩ := Option.map_eq_some_iff.mp hsc
      have hold := hr.nodup space h₀
      split
      next hst =>
        have hst : s = t := congrArg ScopeId.mk hst
        subst hst
        rw [Scope.names_bindAs, List.map_append]
        by_cases hspace : space = state.space
        · subst hspace
          have hnew : name ∉ (sc₀.names state.space).map Prod.fst := by
            apply not_mem_of_lookup_eq_none
            simpa [named?, h₀] using hfree
          rw [if_pos rfl, List.map_singleton, ← List.concat_eq_append]
          exact hold.concat hnew
        · simpa [hspace] using hold
      next => exact hold
    · rw [(r.scope?_alloc_of_ge s name state (Nat.le_of_not_lt ht) hsc).2.2]
      cases space <;> exact List.nodup_nil

theorem FillsTo.named?_eq (h : r.FillsTo r') : r'.named? = r.named? := by
  funext s space n
  unfold Registry.named?
  rw [h.scope?_eq]

theorem Catalogued.fillsTo (hr : r.Catalogued) (h : r.FillsTo r') : r'.Catalogued where
  named_iff {s space n id} := by
    rw [h.named?_eq, hr.named_iff]
    constructor
    · rintro ⟨e, he, rfl, rfl, rfl⟩
      obtain ⟨e', he', hb⟩ := h.entry he
      exact ⟨e', he', hb.scope, hb.space, hb.name⟩
    · rintro ⟨e', he', rfl, rfl, rfl⟩
      obtain ⟨e, he, hb⟩ := h.becomes (h.size_eq ▸ entry?_lt he') he'
      exact ⟨e, he, hb.scope.symm, hb.space.symm, hb.name.symm⟩
  nodup {s sc} space hsc := hr.nodup space (h.scope?_eq ▸ hsc)

theorem Treelike.fillsTo (hr : r.Treelike) (h : r.FillsTo r') : r'.Treelike := by
  have hold : ∀ {id e'}, r'.entry? id = some e' → ∃ e, r.entry? id = some e ∧ e.Becomes e' :=
    fun he' => h.becomes (h.size_eq ▸ entry?_lt he') he'
  constructor
  · intro id e' he'
    obtain ⟨e, he, hb⟩ := hold he'
    rw [hb.scope, h.scopes_eq]
    exact hr.scope_lt he
  · intro id e' s he' hs
    obtain ⟨e, he, hb⟩ := hold he'
    rw [h.scopes_eq]
    exact hr.body_lt he (hb.body ▸ hs)
  · intro id e' he' ha
    obtain ⟨e, he, hb⟩ := hold he'
    rw [hb.body]
    exact hr.body_isSome he (hb.isAggregate ▸ ha)
  · intro id e' sc o he' hsc ho
    obtain ⟨e, he, hb⟩ := hold he'
    rw [h.scope?_eq, hb.scope] at hsc
    exact hr.owner_lt he hsc ho
  · intro s sc o hsc ho
    rw [h.scope?_eq] at hsc
    rw [h.size_eq]
    exact hr.scopeOwner_lt hsc ho

/-- Calls that change a registry. -/
inductive Step
  | declare (scope : ScopeId) (name : String) (tag : TagKind)
  | define (scope : ScopeId) (name : String) (definition : Definition)

def Step.scope : Step → ScopeId
  | .declare s _ _ => s
  | .define s _ _ => s

def Step.mentions : Step → List TypeId
  | .declare _ _ _ => []
  | .define _ _ d => d.mentions

/-- The answer of a call and the registry it leaves, which a failure leaves as it was. -/
def settle (r : Registry) :
    Except LayoutError (TypeId × Registry) → Except LayoutError TypeId × Registry
  | .ok (id, r') => (.ok id, r')
  | .error e => (.error e, r)

def perform (r : Registry) : Step → Except LayoutError TypeId × Registry
  | .declare s name tag => r.settle (r.declare s name tag)
  | .define s name d => r.settle (r.define s name d)

theorem perform_cases (r : Registry) (step : Step) :
    r.FillsTo (r.perform step).2 ∨ ∃ name state, r.named? step.scope state.space name = none ∧
      (r.perform step).2 = (r.alloc step.scope name state).2 := by
  cases step with
  | declare s name tag =>
    cases h : r.declare s name tag with
    | error e =>
      simp only [perform, h, settle]
      exact Or.inl (.refl r)
    | ok p =>
      obtain ⟨id, r'⟩ := p
      simp only [perform, h, settle]
      rcases declare_cases h with ⟨-, -, rfl⟩ | ⟨hfree, -, rfl⟩
      · exact Or.inl (.refl _)
      · exact Or.inr ⟨name, .forward tag, hfree, rfl⟩
  | define s name d =>
    cases h : r.define s name d with
    | error e =>
      simp only [perform, h, settle]
      exact Or.inl (.refl r)
    | ok p =>
      obtain ⟨id, r'⟩ := p
      have hg := growsTo_define h
      simp only [perform, h, settle]
      rcases define_cases h with ⟨-, rfl, -⟩ | ⟨hfree, -, rfl⟩
      · exact Or.inl ⟨hg, size_setState .., rfl⟩
      · refine Or.inr ⟨name, .defined d, ?_, rfl⟩
        cases d <;> exact hfree

theorem perform_error {step : Step} {e : LayoutError} (h : (r.perform step).1 = .error e) :
    (r.perform step).2 = r := by
  have hsettle : ∀ x, (r.settle x).1 = .error e → (r.settle x).2 = r := by
    intro x hx
    cases x with
    | error e' => rfl
    | ok p => cases hx
  cases step <;> exact hsettle _ h

theorem Built.perform (hr : r.Built) {step : Step} (hs : step.scope.index < r.scopes.size)
    (hm : ∀ j ∈ step.mentions, j.index < r.size) : (r.perform step).2.Built := by
  cases step with
  | declare s name tag =>
    cases h : r.declare s name tag with
    | error e => simpa only [Registry.perform, h, settle] using hr
    | ok p => simpa only [Registry.perform, h, settle] using hr.declare hs h
  | define s name d =>
    cases h : r.define s name d with
    | error e => simpa only [Registry.perform, h, settle] using hr
    | ok p => simpa only [Registry.perform, h, settle] using hr.define hs hm h

theorem growsTo_perform (r : Registry) (step : Step) : r.GrowsTo (r.perform step).2 := by
  rcases r.perform_cases step with h | ⟨name, state, -, h⟩
  · exact h.toGrowsTo
  · rw [h]
    exact r.growsTo_alloc step.scope name state

theorem GrowsTo.named? (h : r.GrowsTo r') (hb : r.named? s space n = some id) :
    r'.named? s space n = some id := by
  obtain ⟨sc, hsc, hn⟩ := Option.bind_eq_some_iff.mp hb
  obtain ⟨sc', hsc', hw⟩ := h.scope hsc
  have hnames : sc.names space <+: sc'.names space := by
    cases space with
    | tags => exact hw.tags
    | typedefs => exact hw.typedefs
  obtain ⟨xs, hxs⟩ := hnames
  refine Option.bind_eq_some_iff.mpr ⟨sc', hsc', ?_⟩
  rw [← hxs, List.lookup_append, hn]
  rfl

theorem rival?_eq (r : Registry) (s : ScopeId) (name : String) (d : Definition) :
    r.rival? s name d = r.named? s (EntryState.space (.defined d)) name := by
  cases d <;> rfl

theorem named?_of_define {d : Definition} (hs : s.index < r.scopes.size)
    (h : r.define s name d = .ok (id, r')) :
    r'.named? s (EntryState.space (.defined d)) name = some id ∧ r'.definition? id = some d := by
  have hg := growsTo_define h
  cases hrival : r.rival? s name d with
  | some j =>
    obtain ⟨-, rfl, hdef⟩ := fillsTo_define h hrival
    exact ⟨hg.named? (rival?_eq r s name d ▸ hrival), (hdef id).trans (if_pos rfl)⟩
  | none =>
    rcases define_cases h with ⟨hbound, -⟩ | ⟨-, rfl, rfl⟩
    · rw [hrival] at hbound
      cases hbound
    · rw [rival?_eq] at hrival
      rw [named?_alloc hs hrival, definition?_alloc]
      exact ⟨if_pos ⟨rfl, rfl, rfl⟩, if_pos rfl⟩

theorem incomplete_of_define {d : Definition} {j : TypeId} (hbound : r.rival? s name d = some j)
    (h : r.define s name d = .ok (id, r')) : id = j ∧ r.definition? j = none := by
  rcases define_cases h with ⟨hrival, -, e, tag, other, he, hstate, -⟩ | ⟨hfree, -⟩
  · cases hbound.symm.trans hrival
    refine ⟨rfl, ?_⟩
    simp [definition?, he, Entry.definition?, hstate, EntryState.definition?]
  · rw [hbound] at hfree
    cases hfree

/-- The three structures of a registry agree. -/
structure Arranged (r : Registry) : Prop extends Treelike r, Linked r, Catalogued r where
  global_lt : ScopeId.global.index < r.scopes.size

theorem Arranged.fillsTo (hr : r.Arranged) (h : r.FillsTo r') : r'.Arranged where
  toTreelike := hr.toTreelike.fillsTo h
  toLinked := hr.toLinked.fillsTo h
  toCatalogued := hr.toCatalogued.fillsTo h
  global_lt := h.scopes_eq ▸ hr.global_lt

theorem Arranged.alloc (hr : r.Arranged) (hs : s.index < r.scopes.size)
    (hfree : r.named? s state.space name = none) : (r.alloc s name state).2.Arranged where
  toTreelike := hr.toTreelike.alloc hs name state
  toLinked := by
    refine hr.toLinked.alloc hr.toTreelike hs fun htag => ?_
    rw [EntryState.space, if_pos htag] at hfree
    exact hfree
  toCatalogued := hr.toCatalogued.alloc hs hfree
  global_lt := Nat.lt_of_lt_of_le hr.global_lt (r.scopes_size_le_alloc s name state)

theorem Arranged.perform (hr : r.Arranged) {step : Step} (hs : step.scope.index < r.scopes.size) :
    (r.perform step).2.Arranged := by
  rcases r.perform_cases step with h | ⟨name, state, hfree, h⟩
  · exact hr.fillsTo h
  · rw [h]
    exact hr.alloc hs hfree

theorem empty_arranged : empty.Arranged where
  toTreelike := empty_wellFormed.toTreelike
  toLinked := empty_linked
  named_iff {s space n id} := by
    constructor
    · intro h
      obtain ⟨sc, hsc, hn⟩ := Option.bind_eq_some_iff.mp h
      rw [scope?_empty hsc] at hn
      cases space <;> cases hn
    · rintro ⟨e, he, -⟩
      rw [entry?_empty] at he
      cases he
  nodup {s sc} space hsc := by
    rw [scope?_empty hsc]
    cases space <;> exact List.nodup_nil
  global_lt := by decide

theorem withPrelude_arranged : withPrelude.Arranged := by
  suffices h : ∀ (ts : List (String × Fundamental)) (r : Registry), r.Arranged →
      (ts.map Prod.fst).Nodup → (∀ t ∈ ts, r.named? .global .typedefs t.1 = none) →
      (ts.foldl (fun r t =>
        (r.alloc .global t.1 (.defined (.typedef (.fundamental t.2)))).2) r).Arranged by
    refine h builtinTypedefs .empty empty_arranged (by decide +kernel) fun t ht => ?_
    rfl
  intro ts
  induction ts with
  | nil => exact fun r hr _ _ => hr
  | cons t ts ih =>
    intro r hr hnames hfree
    let state : EntryState := .defined (.typedef (.fundamental t.2))
    have hfirst : r.named? .global state.space t.1 = none := hfree t List.mem_cons_self
    obtain ⟨hnew, hrest⟩ := List.nodup_cons.mp hnames
    apply ih _ (hr.alloc hr.global_lt hfirst) hrest
    intro u hu
    rw [named?_alloc hr.global_lt hfirst, if_neg ?_]
    · exact hfree u (List.mem_cons_of_mem t hu)
    · rintro ⟨-, -, hname⟩
      exact hnew (hname ▸ List.mem_map_of_mem hu)

/-- What any sequence of calls leaves, in scopes of the registry, whether they fail or not. -/
inductive Reached : Registry → Prop
  | empty : Reached .empty
  | prelude : Reached .withPrelude
  | step {r : Registry} (step : Step) : Reached r → step.scope.index < r.scopes.size →
    Reached (r.perform step).2

theorem Reached.arranged (h : r.Reached) : r.Arranged := by
  induction h with
  | empty => exact empty_arranged
  | prelude => exact withPrelude_arranged
  | step step _ hs ih => exact ih.perform hs

theorem Reached.declare (hr : r.Reached) (hs : s.index < r.scopes.size) {tag : TagKind}
    (h : r.declare s name tag = .ok (id, r')) : r'.Reached := by
  have hstep := Reached.step (.declare s name tag) hr hs
  simpa only [perform, h, settle] using hstep

theorem Reached.define (hr : r.Reached) (hs : s.index < r.scopes.size) {d : Definition}
    (h : r.define s name d = .ok (id, r')) : r'.Reached := by
  have hstep := Reached.step (.define s name d) hr hs
  simpa only [perform, h, settle] using hstep

theorem Built.reached (h : r.Built) : r.Reached := by
  induction h with
  | empty => exact .empty
  | prelude => exact .prelude
  | declare _ hs hd ih => exact ih.declare hs hd
  | define _ hs _ hd ih => exact ih.define hs hd

theorem mem_namesOutward {k : Nat} (h : n ∈ r.namesOutward k id) :
    ∃ j e, r.entry? j = some e ∧ e.name = n := by
  induction k generalizing id with
  | zero => cases h
  | succ k ih =>
    unfold namesOutward at h
    cases he : r.entry? id with
    | none => simp [he] at h
    | some e =>
      simp only [he, List.mem_cons] at h
      rcases h with rfl | h
      · exact ⟨id, e, he, rfl⟩
      · cases ho : r.owner? id with
        | none => simp [ho] at h
        | some o =>
          simp only [ho] at h
          exact ih h

def IdentifierNamed (r : Registry) : Prop :=
  ∀ id e, r.entry? id = some e → Text.IdentifierLike e.name

theorem identifierNamed_of_entries (h : ∀ e ∈ r.entries, Text.IdentifierLike e.name) :
    r.IdentifierNamed :=
  fun _ e he => h e (Array.mem_of_getElem? he)

theorem IdentifierNamed.route (h : r.IdentifierNamed) (hn : n ∈ r.route id) :
    Text.IdentifierLike n := by
  obtain ⟨j, e, he, rfl⟩ := mem_namesOutward hn
  exact h j e he

theorem Linked.tagAt_route_of_tag (hr : r.Linked) (ht : r.Treelike)
    (htag : (r.tagOf? id).isSome = true) : r.tagAt (r.route id) = some id := by
  obtain ⟨tag, htag⟩ := Option.isSome_iff_exists.mp htag
  obtain ⟨e, he, hte⟩ := Option.bind_eq_some_iff.mp htag
  exact hr.tagAt_route ht he (Option.isSome_of_eq_some hte)

/-- Identifiers on the way to a tag are read back from its qualified name. -/
theorem Linked.eq_of_qualifiedName (hr : r.Linked) (ht : r.Treelike) (hnames : r.IdentifierNamed)
    {id' : TypeId} (htag : (r.tagOf? id).isSome = true) (htag' : (r.tagOf? id').isSome = true)
    (h : r.qualifiedName id = r.qualifiedName id') : id = id' := by
  have hat := hr.tagAt_route_of_tag ht htag
  have hat' := hr.tagAt_route_of_tag ht htag'
  exact eq_of_join_route hat hat' (fun n => hnames.route) (fun n => hnames.route) h

theorem Arranged.isSome_body (hr : r.Arranged) {e : Entry} (he : r.entry? id = some e) :
    e.body.isSome = e.isAggregate :=
  Bool.eq_iff_iff.mpr ⟨hr.aggregate_of_body he, hr.body_isSome he⟩

theorem Arranged.body_scope (hr : r.Arranged) {e : Entry} (he : r.entry? id = some e)
    (hb : e.body = some s) :
    ∃ sc, r.scope? s = some sc ∧ sc.owner = some id ∧ sc.parent = some e.scope := by
  obtain ⟨sc, hsc⟩ := scope?_of_lt (hr.body_lt he hb)
  obtain ⟨hparent, howner⟩ := hr.scope_of_body he hb hsc
  exact ⟨sc, hsc, howner, hparent⟩

/-- What holds of the entries, the scopes and the bindings after any sequence of calls, and what
the next call does to them. -/
theorem Reached.representation (h : r.Reached) :
    (∀ s space n id, r.named? s space n = some id ↔
      ∃ e, r.entry? id = some e ∧ e.scope = s ∧ e.space = space ∧ e.name = n) ∧
    (∀ s sc space, r.scope? s = some sc → ((sc.names space).map Prod.fst).Nodup) ∧
    (∀ id e, r.entry? id = some e → e.body.isSome = e.isAggregate ∧ ∀ s, e.body = some s →
      ∃ sc, r.scope? s = some sc ∧ sc.owner = some id ∧ sc.parent = some e.scope) ∧
    (∀ s sc t, r.scope? s = some sc → sc.parent = some t → t.index < s.index) ∧
    (∀ step : Step, step.scope.index < r.scopes.size →
      (∀ id e, r.entry? id = some e → ∃ e', entry? (r.perform step).2 id = some e' ∧
        e'.name = e.name ∧ e'.scope = e.scope ∧ e'.body = e.body ∧
        ∀ d, e.state = .defined d → e'.state = .defined d) ∧
      (∀ s space n id, r.named? s space n = some id →
        (r.perform step).2.named? s space n = some id) ∧
      ∀ e, (r.perform step).1 = .error e → (r.perform step).2 = r) ∧
    (r.IdentifierNamed → ∀ id id', (r.tagOf? id).isSome = true → (r.tagOf? id').isSome = true →
      r.qualifiedName id = r.qualifiedName id' → id = id') := by
  have hr := h.arranged
  refine ⟨fun s space n id => hr.named_iff, fun s sc space => hr.nodup space, ?_,
    fun s sc t => hr.parent_lt, ?_, fun hnames id id' => ?_⟩
  · intro id e he
    exact ⟨hr.isSome_body he, fun s hb => hr.body_scope he hb⟩
  · intro step _
    have hg := r.growsTo_perform step
    refine ⟨?_, fun s space n id => hg.named?, fun e => perform_error⟩
    intro id e he
    obtain ⟨e', he', hb⟩ := hg.entry he
    exact ⟨e', he', hb.name, hb.scope, hb.body, fun d hd => (hb.eq_of_defined hd).symm ▸ hd⟩
  · exact hr.toLinked.eq_of_qualifiedName hr.toTreelike hnames

def nodeSteps : List Step :=
  [.declare .global "Node" (.aggregate .classType),
    .define ⟨1⟩ "Color" (.enum ⟨some "Color", .unsignedChar⟩),
    .define .global "Node" (.typedef (.pointer (.named ⟨0⟩))),
    .define .global "Node" (.aggregate ⟨.classType, some "Node", [], [], []⟩),
    .declare .global "Node" (.aggregate .unionType)]

def nodeRegistry : Registry := nodeSteps.foldl (fun r step => (r.perform step).2) .empty

theorem nodeRegistry_reached : nodeRegistry.Reached :=
  .step _ (.step _ (.step _ (.step _ (.step _ .empty (by decide)) (by decide)) (by decide))
    (by decide)) (by decide)

theorem nodeRegistry_identifierNamed : nodeRegistry.IdentifierNamed :=
  identifierNamed_of_entries (by decide)

theorem nodeRegistry_representation : nodeRegistry.Reached ∧ nodeRegistry.IdentifierNamed ∧
    (∃ e, nodeRegistry.entry? ⟨2⟩ = some e ∧ e.scope = .global ∧ e.space = .typedefs ∧
      e.name = "Node") ∧
    (nodeRegistry.perform (.declare .global "Node" .enum)).2 = nodeRegistry ∧
    ∀ id id', (nodeRegistry.tagOf? id).isSome = true → (nodeRegistry.tagOf? id').isSome = true →
      nodeRegistry.qualifiedName id = nodeRegistry.qualifiedName id' → id = id' := by
  obtain ⟨hnamed, -, -, -, hstep, hname⟩ := nodeRegistry_reached.representation
  refine ⟨nodeRegistry_reached, nodeRegistry_identifierNamed, (hnamed _ _ _ _).mp (by decide), ?_,
    hname nodeRegistry_identifierNamed⟩
  exact (hstep (.declare .global "Node" .enum) (by decide)).2.2 _ rfl

end Registry

end TypeLayout
