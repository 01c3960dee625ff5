import Mathlib.Data.List.Forall2
import TypeLayout.Proofs.Registry.Linked
/-! Routes. The names from a tag outward, innermost first, lead back to it from the global scope;
two tags never share a route, so a route tells entries apart without their ids. -/

namespace TypeLayout

namespace Registry

def scopeAt (r : Registry) : List String → Option ScopeId
  | [] => some .global
  | n :: p => r.scopeAt p >>= (r.boundTag? · n) >>= r.body?

def tagAt (r : Registry) : List String → Option TypeId
  | [] => none
  | n :: p => r.scopeAt p >>= (r.boundTag? · n)

def route (r : Registry) (id : TypeId) : List String := r.namesOutward r.size id

variable {r r' : Registry} {s t : ScopeId} {name n : String} {state : EntryState} {id : TypeId}
  {p q : List String}

theorem scopeAt_cons (r : Registry) (n : String) (p : List String) :
    r.scopeAt (n :: p) = r.tagAt (n :: p) >>= r.body? := rfl

theorem tagAt_cons (h : r.scopeAt p = some s) : r.tagAt (n :: p) = r.boundTag? s n := by
  rw [tagAt, h]
  rfl

theorem scopeAt_of_tagAt (h : r.tagAt p = some id) : r.scopeAt p = r.body? id := by
  cases p with
  | nil => cases h
  | cons n p =>
    rw [scopeAt_cons, h]
    rfl

theorem qualifiedName_eq_join (r : Registry) (id : TypeId) :
    r.qualifiedName id = Text.join "::" (r.route id).reverse := rfl

theorem Treelike.route_eq (hr : r.Treelike) {e : Entry} (he : r.entry? id = some e) :
    r.route id = e.name :: match r.owner? id with
      | some o => r.route o
      | none => [] := by
  have hlt := entry?_lt he
  obtain ⟨m, hm⟩ := Nat.exists_eq_succ_of_ne_zero (Nat.ne_of_gt (Nat.zero_lt_of_lt hlt))
  unfold route
  rw [hm, namesOutward, he]
  cases ho : r.owner? id with
  | none => rfl
  | some o =>
    have holt := hr.owner?_lt ho
    dsimp only
    rw [hr.namesOutward_eq (show o.index < m by omega) (show o.index < m + 1 by omega)]

theorem Linked.scope_of_body? (hr : r.Linked) (ht : r.Treelike) (h : r.body? id = some s) :
    ∃ e sc, r.entry? id = some e ∧ r.scope? s = some sc ∧ sc.parent = some e.scope ∧
      sc.owner = some id := by
  obtain ⟨e, he, hb⟩ := Option.bind_eq_some_iff.mp h
  have hlt := ht.body_lt he hb
  obtain ⟨sc, hsc⟩ := scope?_of_lt hlt
  obtain ⟨hparent, howner⟩ := hr.scope_of_body he hb hsc
  exact ⟨e, sc, he, hsc, hparent, howner⟩

theorem Linked.global_place (hr : r.Linked) (ht : r.Treelike) {sc : Scope}
    (h : r.scope? .global = some sc) : sc.parent = none ∧ sc.owner = none := by
  rcases hr.body_of_scope h with ⟨-, hplace⟩ | ⟨o, -, hbody⟩
  · exact hplace
  · obtain ⟨e, sc', -, hsc', hparent, -⟩ := hr.scope_of_body? ht hbody
    have hlt := hr.parent_lt hsc' hparent
    exact absurd hlt (Nat.not_lt_zero _)

theorem owner?_eq {e : Entry} {sc : Scope} (he : r.entry? id = some e)
    (hsc : r.scope? e.scope = some sc) : r.owner? id = sc.owner := by
  rw [owner?, he]
  simp only [Option.bind_eq_bind, Option.bind_some, hsc]

theorem Linked.route_of_tagAt (hr : r.Linked) (hwf : r.WellFormed) (h : r.tagAt p = some id) :
    r.route id = p := by
  induction p generalizing id with
  | nil => cases h
  | cons n p ih =>
    obtain ⟨s, hs, hb⟩ := Option.bind_eq_some_iff.mp h
    obtain ⟨e, he, rfl, rfl, -⟩ := hr.entry_of_bound hb
    rw [hwf.route_eq he]
    cases p with
    | nil =>
      have hglobal := Option.some.inj hs
      obtain ⟨sc, hsc⟩ := scope?_of_lt hwf.global_lt
      rw [owner?_eq he (hglobal ▸ hsc), (hr.global_place hwf.toTreelike hsc).2]
    | cons m p =>
      obtain ⟨o, ho, hbody⟩ := Option.bind_eq_some_iff.mp hs
      obtain ⟨-, sc, -, hsc, -, howner⟩ := hr.scope_of_body? hwf.toTreelike hbody
      rw [owner?_eq he hsc, howner]
      exact congrArg _ (ih ho)

theorem Linked.place_of_entry (hr : r.Linked) (ht : r.Treelike) {e : Entry}
    (he : r.entry? id = some e) : (e.scope = .global ∧ r.owner? id = none) ∨
      ∃ o eo, r.owner? id = some o ∧ o.index < id.index ∧ r.entry? o = some eo ∧
        eo.tag?.isSome = true ∧ r.body? o = some e.scope := by
  obtain ⟨sc, hsc⟩ := scope?_of_lt (ht.scope_lt he)
  rw [owner?_eq he hsc]
  apply (hr.body_of_scope hsc).imp
  · rintro ⟨hglobal, -, howner⟩
    exact ⟨hglobal, howner⟩
  · rintro ⟨o, howner, hbody⟩
    obtain ⟨eo, heo, hb⟩ := Option.bind_eq_some_iff.mp hbody
    have hagg := hr.aggregate_of_body heo (hb ▸ rfl)
    obtain ⟨tag, htag, -⟩ := (Option.any_eq_true _ _).mp hagg
    exact ⟨o, eo, howner, ht.owner_lt he hsc howner, heo, Option.isSome_of_eq_some htag, hbody⟩

theorem Linked.tagAt_route (hr : r.Linked) (ht : r.Treelike) {e : Entry}
    (he : r.entry? id = some e) (htag : e.tag?.isSome = true) : r.tagAt (r.route id) = some id := by
  suffices h : ∀ n id e, id.index < n → r.entry? id = some e → e.tag?.isSome = true →
      r.tagAt (r.route id) = some id from h _ id e (Nat.lt_succ_self _) he htag
  intro n
  induction n with
  | zero => exact fun id e hid => absurd hid (Nat.not_lt_zero _)
  | succ n ih =>
    intro id e hid he htag
    have hbound := hr.bound_of_entry he htag
    rw [ht.route_eq he]
    rcases hr.place_of_entry ht he with ⟨hglobal, ho⟩ | ⟨o, eo, ho, holt, heo, htago, hbody⟩
    · rw [ho]
      exact (tagAt_cons (hglobal ▸ rfl)).trans hbound
    · rw [ho]
      have hscope : r.scopeAt (r.route o) = some e.scope :=
        (scopeAt_of_tagAt (ih o eo (by omega) heo htago)).trans hbody
      exact (tagAt_cons hscope).trans hbound

theorem Linked.scopeAt_injective (hr : r.Linked) (hwf : r.WellFormed)
    (hp : r.scopeAt p = some s) (hq : r.scopeAt q = some s) : p = q := by
  have howner : ∀ {n p}, r.scopeAt (n :: p) = some s → ∃ id sc, r.tagAt (n :: p) = some id ∧
      r.scope? s = some sc ∧ sc.owner = some id := by
    intro n p h
    obtain ⟨id, hid, hbody⟩ := Option.bind_eq_some_iff.mp h
    obtain ⟨-, sc, -, hsc, -, ho⟩ := hr.scope_of_body? hwf.toTreelike hbody
    exact ⟨id, sc, hid, hsc, ho⟩
  have hroot : ∀ {n p}, r.scopeAt [] = some s → r.scopeAt (n :: p) ≠ some s := by
    intro n p h h'
    obtain rfl := Option.some.inj h
    obtain ⟨id, sc, -, hsc, ho⟩ := howner h'
    rw [(hr.global_place hwf.toTreelike hsc).2] at ho
    cases ho
  cases p with
  | nil =>
    cases q with
    | nil => rfl
    | cons m q => exact absurd hq (hroot hp)
  | cons n p =>
    cases q with
    | nil => exact absurd hp (hroot hq)
    | cons m q =>
      obtain ⟨id, sc, hid, hsc, ho⟩ := howner hp
      obtain ⟨id', sc', hid', hsc', ho'⟩ := howner hq
      rw [hsc] at hsc'
      cases hsc'
      rw [ho] at ho'
      cases ho'
      exact (hr.route_of_tagAt hwf hid).symm.trans (hr.route_of_tagAt hwf hid')

theorem Linked.entry_of_tagAt (hr : r.Linked) (h : r.tagAt q = some id) :
    ∃ e, r.entry? id = some e ∧ e.tag?.isSome = true := by
  cases q with
  | nil => cases h
  | cons n q =>
    obtain ⟨s, -, hb⟩ := Option.bind_eq_some_iff.mp h
    obtain ⟨e, he, -, -, htag⟩ := hr.entry_of_bound hb
    exact ⟨e, he, htag⟩

theorem Linked.parent_of_scopeAt (hr : r.Linked) (hwf : r.WellFormed)
    (h : r.scopeAt (n :: p) = some s) :
    ∃ t, r.scopeAt p = some t ∧ r.scope? s >>= Scope.parent = some t ∧ t.index < s.index := by
  obtain ⟨id, hid, hbody⟩ := Option.bind_eq_some_iff.mp h
  obtain ⟨t, ht, hbound⟩ := Option.bind_eq_some_iff.mp hid
  obtain ⟨e, he, -, rfl, -⟩ := hr.entry_of_bound hbound
  obtain ⟨e', sc, he', hsc, hparent, -⟩ := hr.scope_of_body? hwf.toTreelike hbody
  rw [he] at he'
  cases he'
  exact ⟨e.scope, ht, Option.bind_eq_some_iff.mpr ⟨sc, hsc, hparent⟩, hr.parent_lt hsc hparent⟩

theorem Linked.route_of_global (hr : r.Linked) (hwf : r.WellFormed) {e : Entry}
    (he : r.entry? id = some e) (hs : e.scope = .global) : r.route id = [e.name] := by
  obtain ⟨sc, hsc⟩ := scope?_of_lt hwf.global_lt
  rw [hwf.route_eq he, owner?_eq he (hs ▸ hsc), (hr.global_place hwf.toTreelike hsc).2]

theorem Linked.isSome_body? (hr : r.Linked) (hwf : r.WellFormed) {tag : TagKind}
    (h : r.tagOf? id = some tag) : (r.body? id).isSome = tag.isAggregate := by
  obtain ⟨e, he, htag⟩ := Option.bind_eq_some_iff.mp h
  have hbody : r.body? id = e.body := by rw [body?, he]; rfl
  have hagg : e.isAggregate = tag.isAggregate := by
    change e.tag?.any _ = _
    rw [htag]
    rfl
  rw [hbody, ← hagg, Bool.eq_iff_iff]
  exact ⟨hr.aggregate_of_body he, hwf.body_isSome he⟩

theorem Linked.parent_global (hr : r.Linked) (hwf : r.WellFormed) :
    r.scope? .global >>= Scope.parent = none :=
  Option.bind_eq_none_iff.mpr fun _ hsc => (hr.global_place hwf.toTreelike hsc).1

def SameScope (r r' : Registry) (s s' : ScopeId) : Prop :=
  ∃ p, r.scopeAt p = some s ∧ r'.scopeAt p = some s'

theorem scopesOutward_same (hr : r.Linked) (hwf : r.WellFormed) (hr' : r'.Linked)
    (hwf' : r'.WellFormed) (hp : r.scopeAt p = some s) (hp' : r'.scopeAt p = some s') {n n' : Nat}
    (hn : s.index < n) (hn' : s'.index < n') :
    List.Forall₂ (SameScope r r') (r.scopesOutward n s) (r'.scopesOutward n' s') := by
  -- along the route, since the two fuels need not agree
  induction p generalizing s s' n n' with
  | nil =>
    cases hp
    cases hp'
    obtain ⟨m, rfl⟩ := Nat.exists_eq_succ_of_ne_zero (Nat.ne_of_gt hn)
    obtain ⟨m', rfl⟩ := Nat.exists_eq_succ_of_ne_zero (Nat.ne_of_gt hn')
    simp only [scopesOutward, hr.parent_global hwf, hr'.parent_global hwf']
    exact .cons ⟨[], rfl, rfl⟩ .nil
  | cons name p ih =>
    obtain ⟨t, ht, hparent, hlt⟩ := hr.parent_of_scopeAt hwf hp
    obtain ⟨t', ht', hparent', hlt'⟩ := hr'.parent_of_scopeAt hwf' hp'
    obtain ⟨m, rfl⟩ := Nat.exists_eq_succ_of_ne_zero (Nat.ne_of_gt (Nat.zero_lt_of_lt hn))
    obtain ⟨m', rfl⟩ := Nat.exists_eq_succ_of_ne_zero (Nat.ne_of_gt (Nat.zero_lt_of_lt hn'))
    simp only [scopesOutward, hparent, hparent']
    exact .cons ⟨_, hp, hp'⟩ (ih ht ht' (by omega) (by omega))

theorem route_of_ge (hid : r.size ≤ id.index) : r.route id = [] := by
  have hnone : r.entry? id = none := entry?_of_ge hid
  unfold route
  cases r.size with
  | zero => rfl
  | succ n => rw [namesOutward, hnone]

theorem GrowsTo.boundTag? (h : r.GrowsTo r') (hb : r.boundTag? s n = some id) :
    r'.boundTag? s n = some id := by
  obtain ⟨sc, hsc, ht⟩ := Option.bind_eq_some_iff.mp hb
  obtain ⟨sc', hsc', hw⟩ := h.scope hsc
  obtain ⟨xs, hxs⟩ := hw.tags
  refine Option.bind_eq_some_iff.mpr ⟨sc', hsc', ?_⟩
  unfold Scope.tag? at ht ⊢
  rw [← hxs, List.lookup_append, ht]
  rfl

theorem GrowsTo.body? (h : r.GrowsTo r') (hb : r.body? id = some s) : r'.body? id = some s := by
  obtain ⟨e, he, hb⟩ := Option.bind_eq_some_iff.mp hb
  obtain ⟨e', he', hw⟩ := h.entry he
  exact Option.bind_eq_some_iff.mpr ⟨e', he', hw.body.trans hb⟩

theorem GrowsTo.scopeAt (h : r.GrowsTo r') (hp : r.scopeAt p = some s) :
    r'.scopeAt p = some s := by
  induction p generalizing s with
  | nil => exact hp
  | cons n p ih =>
    obtain ⟨id, hid, hb⟩ := Option.bind_eq_some_iff.mp hp
    obtain ⟨t, ht, hid⟩ := Option.bind_eq_some_iff.mp hid
    rw [scopeAt_cons, tagAt_cons (ih ht), h.boundTag? hid]
    exact h.body? hb

theorem GrowsTo.tagAt (h : r.GrowsTo r') (hp : r.tagAt p = some id) : r'.tagAt p = some id := by
  cases p with
  | nil => cases hp
  | cons n p =>
    obtain ⟨t, ht, hid⟩ := Option.bind_eq_some_iff.mp hp
    exact (tagAt_cons (h.scopeAt ht)).trans (h.boundTag? hid)

theorem FillsTo.scopeAt_eq (h : r.FillsTo r') : r'.scopeAt = r.scopeAt := by
  funext p
  induction p with
  | nil => rfl
  | cons n p ih => simp only [Registry.scopeAt, ih, h.boundTag?_eq, h.body?_eq]

theorem FillsTo.tagAt_eq (h : r.FillsTo r') : r'.tagAt = r.tagAt := by
  funext p
  cases p with
  | nil => rfl
  | cons n p => simp only [Registry.tagAt, h.scopeAt_eq, h.boundTag?_eq]

theorem WellFormed.scopeAt_lt (hr : r.WellFormed) (h : r.scopeAt p = some s) :
    s.index < r.scopes.size := by
  cases p with
  | nil =>
    rw [← Option.some.inj h]
    exact hr.global_lt
  | cons n p =>
    obtain ⟨id, -, hb⟩ := Option.bind_eq_some_iff.mp h
    obtain ⟨e, he, hb⟩ := Option.bind_eq_some_iff.mp hb
    exact hr.body_lt he hb

theorem WellFormed.tagAt_lt (hr : r.WellFormed) (h : r.tagAt p = some id) :
    id.index < r.size := by
  cases p with
  | nil => cases h
  | cons n p =>
    obtain ⟨s, -, hb⟩ := Option.bind_eq_some_iff.mp h
    exact hr.boundTag?_lt hb

theorem Linked.scopeAt_eq_iff (hr : r.Linked) (hwf : r.WellFormed) (hp : r.scopeAt p = some s)
    (hq : r.scopeAt q = some t) : t = s ↔ q = p := by
  constructor
  · rintro rfl
    exact hr.scopeAt_injective hwf hq hp
  · rintro rfl
    exact Option.some.inj (hq.symm.trans hp)

theorem boundTag?_newBody (hs : s.index < r.scopes.size)
    (hfree : state.tag?.isSome = true → r.boundTag? s name = none)
    (ht : r.newBody state = some t) : (r.alloc s name state).2.boundTag? t n = none := by
  have hidx := (newBody_eq_some.mp ht).2
  have hts : t ≠ s := fun h => by
    subst h
    omega
  have hnone : r.scope? t = none := scope?_of_ge (Nat.le_of_eq hidx.symm)
  rw [boundTag?_alloc hs hfree, if_neg fun h => hts h.2.1, boundTag?, hnone]
  rfl

theorem Linked.tagAt_alloc (hr : r.Linked) (hwf : r.WellFormed) (hp : r.scopeAt p = some s)
    (htag : state.tag?.isSome = true) (hfree : r.boundTag? s name = none) :
    (r.alloc s name state).2.tagAt q = if q = name :: p then some ⟨r.size⟩ else r.tagAt q := by
  have hs := hwf.scopeAt_lt hp
  have hnone : r.scopeAt (name :: p) = none := by
    rw [scopeAt_cons, tagAt_cons hp, hfree]
    rfl
  -- the scope at the end of a route is needed one name further
  suffices h : (r.alloc s name state).2.scopeAt q =
        (if q = name :: p then r.newBody state else r.scopeAt q) ∧
      (r.alloc s name state).2.tagAt q =
        (if q = name :: p then some ⟨r.size⟩ else r.tagAt q) from h.2
  induction q with
  | nil => exact ⟨rfl, rfl⟩
  | cons m q ih =>
    have htags : (r.alloc s name state).2.tagAt (m :: q) =
        (if m :: q = name :: p then some ⟨r.size⟩ else r.tagAt (m :: q)) := by
      rw [tagAt, ih.1]
      by_cases hq : q = name :: p
      · subst hq
        have hne : m :: name :: p ≠ name :: p := fun h => by simpa using congrArg List.length h
        rw [if_pos rfl, if_neg hne, tagAt, hnone]
        exact Option.bind_eq_none_iff.mpr fun t ht => boundTag?_newBody hs (fun _ => hfree) ht
      · rw [if_neg hq]
        cases ht : r.scopeAt q with
        | none =>
          have hne : m :: q ≠ name :: p := fun h => by
            obtain ⟨-, rfl⟩ := List.cons.inj h
            rw [hp] at ht
            cases ht
          rw [if_neg hne, tagAt, ht]
          rfl
        | some t =>
          rw [tagAt_cons ht]
          simp only [Option.bind_eq_bind, Option.bind_some, boundTag?_alloc hs fun _ => hfree, htag,
            true_and, hr.scopeAt_eq_iff hwf hp ht, List.cons.injEq, and_comm]
    refine ⟨?_, htags⟩
    rw [scopeAt_cons, htags]
    split
    · exact body?_alloc.trans (if_pos rfl)
    · rw [scopeAt_cons]
      cases hid : r.tagAt (m :: q) with
      | none => rfl
      | some id => exact body?_alloc.trans (if_neg (Nat.ne_of_lt (hwf.tagAt_lt hid)))

end Registry

end TypeLayout
