import Mathlib.Data.Fintype.Card
import TypeLayout.Proofs.Source.Census
/-! Two registries of the same sites. Each entry has a twin at its route in the other registry;
names are found alike from scopes on the same route, so every body reads alike up to twins. -/

namespace TypeLayout

open Registry

theorem ForwardTag.keyword_kind (tag : ForwardTag) : tag.kind.keyword = tag.keyword := by
  cases tag <;> rfl

/-- Two errors that are the same, or that blame a type which the sites only forward declare, each
after the keyword of one of its declarations. -/
inductive Reworded (xs : List Site) : LayoutError → LayoutError → Prop
  | same (e : LayoutError) : Reworded xs e e
  | keyword {q : List String} {n n' : String} {tag tag' : ForwardTag} {member : Option String} :
    (q, .forward tag n) ∈ xs → (q, .forward tag' n') ∈ xs → tag.kind.compatible tag'.kind = true →
    (∀ x ∈ xs, x.1 = q → x.2.hasBody = false) →
    Reworded xs (.incompleteType (tag.keyword ++ " " ++ Text.join "::" q.reverse) member)
      (.incompleteType (tag'.keyword ++ " " ++ Text.join "::" q.reverse) member)

namespace Registry

variable {r r' : Registry} {xs : List Site} {id : TypeId} {p q : List String} {s s' : ScopeId}
  {n : String}

/-- The entry at the same route in another registry; the standard typedefs have no route. -/
def twin (r r' : Registry) (id : TypeId) : TypeId :=
  if id.index < withPrelude.size then id else (r'.tagAt (r.route id)).getD id

theorem twin_of_lt (h : id.index < withPrelude.size) : twin r r' id = id := if_pos h

theorem bound?_eq_or (r : Registry) (s : ScopeId) (n : String) :
    r.bound? s n = (r.boundTypedef? s n <|> r.boundTag? s n) := by
  unfold bound? boundTypedef? boundTag?
  cases r.scope? s <;> rfl

namespace Census

section

variable (h : Census xs r) (h' : Census xs r')
include h h'

theorem twin_of_tagAt (hq : r.tagAt q = some id) : r'.tagAt q = some (twin r r' id) := by
  obtain ⟨x, hx, rfl, -⟩ := h.site hq
  obtain ⟨id', -, -, hid', -⟩ := h'.accepts x hx
  have hle := h.size_le_of_tagAt hq
  rw [twin, if_neg (Nat.not_lt_of_le hle), h.linked.route_of_tagAt h.wellFormed hq, hid']
  rfl

theorem tagAt_eq (q : List String) : r'.tagAt q = (r.tagAt q).map (twin r r') := by
  cases hq : r.tagAt q with
  | some id => exact h.twin_of_tagAt h' hq
  | none =>
    cases hq' : r'.tagAt q with
    | none => rfl
    | some id' =>
      -- the route would be bound here too
      rw [h'.twin_of_tagAt h hq'] at hq
      cases hq

theorem twin_lt (hid : id.index < r.size) : (twin r r' id).index < r'.size := by
  rcases h.cases_lt hid with hlt | ⟨q, hq⟩
  · rw [twin_of_lt hlt]
    exact Nat.lt_of_lt_of_le hlt h'.prelude.size_le
  · exact h'.wellFormed.tagAt_lt (h.twin_of_tagAt h' hq)

theorem twin_twin_of_lt (hid : id.index < r.size) : twin r' r (twin r r' id) = id := by
  rcases h.cases_lt hid with hlt | ⟨q, hq⟩
  · rw [twin_of_lt hlt, twin_of_lt hlt]
  · have hback := h'.twin_of_tagAt h (h.twin_of_tagAt h' hq)
    rw [hq] at hback
    exact (Option.some.inj hback).symm

theorem size_le : r.size ≤ r'.size := by
  have hinj : Function.Injective fun i : Fin r.size =>
      (⟨(twin r r' ⟨i⟩).index, h.twin_lt h' i.isLt⟩ : Fin r'.size) := by
    intro i j hij
    have htwin : twin r r' ⟨i⟩ = twin r r' ⟨j⟩ := congrArg TypeId.mk (Fin.val_eq_of_eq hij)
    have hi : twin r' r (twin r r' ⟨i⟩) = ⟨i⟩ := h.twin_twin_of_lt h' i.isLt
    have hj : twin r' r (twin r r' ⟨j⟩) = ⟨j⟩ := h.twin_twin_of_lt h' j.isLt
    rw [htwin] at hi
    exact Fin.ext (congrArg TypeId.index (hi.symm.trans hj))
  simpa using Fintype.card_le_of_injective _ hinj

theorem size_eq : r'.size = r.size := Nat.le_antisymm (h'.size_le h) (h.size_le h')

omit h' in
theorem twin_of_ge (hid : r.size ≤ id.index) : twin r r' id = id := by
  have hle := h.prelude.size_le
  rw [twin, if_neg (by omega), route_of_ge hid]
  rfl

theorem twin_twin (id : TypeId) : twin r' r (twin r r' id) = id := by
  by_cases hid : id.index < r.size
  · exact h.twin_twin_of_lt h' hid
  · have hge := Nat.le_of_not_lt hid
    rw [h.twin_of_ge hge, h'.twin_of_ge (h.size_eq h' ▸ hge)]

theorem twin_injective : Function.Injective (twin r r') :=
  Function.LeftInverse.injective (h.twin_twin h')

theorem route_twin (id : TypeId) : r'.route (twin r r' id) = r.route id := by
  by_cases hid : id.index < r.size
  · rcases h.cases_lt hid with hlt | ⟨q, hq⟩
    · obtain ⟨e, he, hre, hscope, -⟩ := h.prelude_entry hlt
      obtain ⟨e', he', hre', -⟩ := h'.prelude_entry hlt
      rw [he] at he'
      cases he'
      rw [twin_of_lt hlt, h.linked.route_of_global h.wellFormed hre hscope,
        h'.linked.route_of_global h'.wellFormed hre' hscope]
    · rw [h.linked.route_of_tagAt h.wellFormed hq,
        h'.linked.route_of_tagAt h'.wellFormed (h.twin_of_tagAt h' hq)]
  · have hge := Nat.le_of_not_lt hid
    rw [h.twin_of_ge hge, route_of_ge hge, route_of_ge (h.size_eq h' ▸ hge)]

theorem qualifiedName_twin (id : TypeId) :
    r'.qualifiedName (twin r r' id) = r.qualifiedName id := by
  rw [qualifiedName_eq_join, qualifiedName_eq_join, h.route_twin h']

theorem tag_twin (hq : r.tagAt q = some id) : ∃ tag tag', r.tagOf? id = some tag ∧
    r'.tagOf? (twin r r' id) = some tag' ∧ tag.compatible tag' = true := by
  obtain ⟨x, hx, rfl, -⟩ := h.site hq
  obtain ⟨j, tag, t, hj, htag, ht, hc⟩ := h.accepts x hx
  obtain ⟨j', tag', t', hj', htag', ht', hc'⟩ := h'.accepts x hx
  rw [hq] at hj
  rw [h.twin_of_tagAt h' hq] at hj'
  rw [ht] at ht'
  cases hj
  cases hj'
  cases ht'
  exact ⟨tag, tag', htag, htag', TagKind.compatible_trans hc (TagKind.compatible_comm .. ▸ hc')⟩

theorem body_twin (id : TypeId) :
    Option.Rel (SameScope r r') (r.body? id) (r'.body? (twin r r' id)) := by
  by_cases hid : id.index < r.size
  · rcases h.cases_lt hid with hlt | ⟨q, hq⟩
    · rw [twin_of_lt hlt, h.prelude_body hlt, h'.prelude_body hlt]
      exact .none
    · obtain ⟨tag, tag', htag, htag', hc⟩ := h.tag_twin h' hq
      have hsome := h.linked.isSome_body? h.wellFormed htag
      have hsome' := h'.linked.isSome_body? h'.wellFormed htag'
      rw [← TagKind.isAggregate_eq_of_compatible hc, ← hsome] at hsome'
      have hp := scopeAt_of_tagAt hq
      have hp' := scopeAt_of_tagAt (h.twin_of_tagAt h' hq)
      cases hb : r.body? id with
      | none =>
        rw [hb] at hsome'
        rw [Option.isSome_eq_false_iff.mp hsome' |> Option.isNone_iff_eq_none.mp]
        exact .none
      | some s =>
        rw [hb] at hsome'
        obtain ⟨s', hb'⟩ := Option.isSome_iff_exists.mp hsome'
        rw [hb']
        exact .some ⟨q, hp.trans hb, hp'.trans hb'⟩
  · have hge := Nat.le_of_not_lt hid
    have hnone : r.entry? id = none := entry?_of_ge hge
    have hge' : r'.size ≤ id.index := h.size_eq h' ▸ hge
    have hnone' : r'.entry? id = none := entry?_of_ge hge'
    rw [h.twin_of_ge hge, body?, body?, hnone, hnone']
    exact .none

theorem boundTag?_twin (hs : SameScope r r' s s') :
    r'.boundTag? s' n = (r.boundTag? s n).map (twin r r') := by
  obtain ⟨p, hp, hp'⟩ := hs
  rw [← tagAt_cons hp, ← tagAt_cons hp']
  exact h.tagAt_eq h' _

theorem boundTypedef?_twin (hs : SameScope r r' s s') :
    r'.boundTypedef? s' n = (r.boundTypedef? s n).map (twin r r') := by
  rw [h.boundTypedef?_eq, h'.boundTypedef?_eq]
  obtain ⟨p, hp, hp'⟩ := hs
  cases p with
  | nil =>
    cases hp
    cases hp'
    cases hb : withPrelude.boundTypedef? .global n with
    | none => rfl
    | some id => rw [Option.map_some, twin_of_lt (withPrelude_wellFormed.boundTypedef?_lt hb)]
  | cons m p =>
    -- inside a body nothing is bound by a typedef
    obtain ⟨t, -, -, hlt⟩ := h.linked.parent_of_scopeAt h.wellFormed hp
    obtain ⟨t', -, -, hlt'⟩ := h'.linked.parent_of_scopeAt h'.wellFormed hp'
    rw [withPrelude_flat.boundTypedef?_eq_none (Nat.zero_lt_of_lt hlt),
      withPrelude_flat.boundTypedef?_eq_none (Nat.zero_lt_of_lt hlt')]
    rfl

theorem bound?_twin (hs : SameScope r r' s s') :
    r'.bound? s' n = (r.bound? s n).map (twin r r') := by
  rw [bound?_eq_or, bound?_eq_or, h.boundTag?_twin h' hs, h.boundTypedef?_twin h' hs]
  cases r.boundTypedef? s n <;> rfl

theorem findWithin_twin (id : TypeId) (parts : List String) :
    r'.findWithin (twin r r' id) parts = (r.findWithin id parts).map (twin r r') := by
  induction parts generalizing id with
  | nil => rfl
  | cons part parts ih =>
    have hbody := h.body_twin h' id
    unfold findWithin
    generalize r.body? id = b, r'.body? (twin r r' id) = b' at hbody ⊢
    cases hbody with
    | none => rfl
    | some hs =>
      simp only [Option.bind_eq_bind, Option.bind_some, h.bound?_twin h' hs]
      cases r.bound? _ part with
      | none => rfl
      | some inner => exact ih inner

theorem findSome?_bound?_twin {ts ts' : List ScopeId} (hs : List.Forall₂ (SameScope r r') ts ts')
    (n : String) :
    ts'.findSome? (r'.bound? · n) = (ts.findSome? (r.bound? · n)).map (twin r r') := by
  induction hs with
  | nil => rfl
  | @cons t t' ts ts' ht _ ih =>
    rw [List.findSome?_cons, List.findSome?_cons, h.bound?_twin h' ht, ih]
    cases r.bound? t n <;> rfl

theorem startScopes_same (hs : SameScope r r' s s') (anchored : Bool) :
    List.Forall₂ (SameScope r r') (r.startScopes s anchored) (r'.startScopes s' anchored) := by
  cases anchored with
  | true => exact .cons ⟨[], rfl, rfl⟩ .nil
  | false =>
    obtain ⟨p, hp, hp'⟩ := hs
    exact scopesOutward_same h.linked h.wellFormed h'.linked h'.wellFormed hp hp'
      (h.wellFormed.scopeAt_lt hp) (h'.wellFormed.scopeAt_lt hp')

theorem findPath?_twin (hs : SameScope r r' s s') (path : Path) :
    r'.findPath? s' path = (r.findPath? s path).map (twin r r') := by
  unfold findPath?
  cases path.parts with
  | nil => rfl
  | cons first rest =>
    dsimp only
    split
    · rfl
    · rw [h.findSome?_bound?_twin h' (h.startScopes_same h' hs path.anchored)]
      cases (r.startScopes s path.anchored).findSome? (r.bound? · first) with
      | none => rfl
      | some id => exact h.findWithin_twin h' id rest

theorem find_twin (hs : SameScope r r' s s') (name : String) :
    r'.find s' name = (r.find s name).map (twin r r') := by
  unfold find
  rw [h.findPath?_twin h' hs]
  cases r.findPath? s (.ofString name) <;> rfl

theorem names_follow (hs : SameScope r r' s s') :
    Names.Follows (twin r r') r.names r'.names s s' where
  find := h.find_twin h' hs
  tag _ := h.boundTag?_twin h' hs

omit h h' in
theorem reads_twin (hnames : ∀ {s s'}, SameScope r r' s s' →
      Names.Follows (twin r r') r.names r'.names s s') {d : Declaration} {y y' : Definition}
    (hy : r.Reads q d y) (hy' : r'.Reads q d y') : y' = y.rename (twin r r') := by
  cases hy with
  | @record _ _ _ _ decl _ hs ht hbody =>
    cases hy' with
    | record hs' ht' hbody' =>
      have hread := Names.readBody_rename decl (hnames ⟨_, hs, hs'⟩) (hnames ⟨_, ht, ht'⟩)
      rw [hbody, hbody'] at hread
      cases hread
      rfl
  | enum ht =>
    cases hy' with
    | enum ht' =>
      rw [ht] at ht'
      cases ht'
      rfl

theorem definition?_twin_of_some {y : Definition} (hy : r.definition? id = some y) :
    r'.definition? (twin r r' id) = some (y.rename (twin r r')) := by
  rcases h.origin hy with hprelude | ⟨x, hx, hb, hq⟩
  · -- a standard typedef mentions no id and has kept its own
    obtain ⟨e, he, hstate⟩ := definition?_eq_some hprelude
    obtain ⟨-, kind, hkind⟩ := withPrelude_flat.entry he
    rw [hkind] at hstate
    cases hstate
    rw [twin_of_lt (definition?_lt hprelude)]
    exact h'.prelude.definition? hprelude
  · obtain ⟨j, w, hj, hreads, hw⟩ := h.defined x hx hb
    obtain ⟨j', w', hj', hreads', hw'⟩ := h'.defined x hx hb
    rw [hq] at hj
    cases hj
    rw [hy] at hw
    cases hw
    rw [h.twin_of_tagAt h' hq] at hj'
    cases hj'
    rw [hw', reads_twin (h.names_follow h') hreads hreads']

theorem definition?_twin (id : TypeId) :
    r'.definition? (twin r r' id) = (r.definition? id).map (·.rename (twin r r')) := by
  cases hy : r.definition? id with
  | some y => exact h.definition?_twin_of_some h' hy
  | none =>
    cases hy' : r'.definition? (twin r r' id) with
    | none => rfl
    | some y' =>
      -- what the twin defines would be defined here too
      have hback := h'.definition?_twin_of_some h hy'
      rw [h.twin_twin h', hy] at hback
      cases hback

theorem reworded_of_undefined (hd : r.definition? id = none) (hid : id.index < r.size) :
    Reworded xs (.incompleteType (r.displayName id) none)
      (.incompleteType (r'.displayName (twin r r' id)) none) := by
  rcases h.cases_lt hid with hlt | ⟨q, hq⟩
  · obtain ⟨e, -, he, -, kind, hstate⟩ := h.prelude_entry hlt
    rw [definition?, he] at hd
    have hsome : e.state.definition? = none := hd
    rw [hstate] at hsome
    cases hsome
  · obtain ⟨⟨tag, n, hx, htag⟩, hnone⟩ := h.forward_of_undefined hq hd
    have hq' := h.twin_of_tagAt h' hq
    have hd' : r'.definition? (twin r r' id) = none := by rw [h.definition?_twin h', hd]; rfl
    obtain ⟨⟨tag', n', hx', htag'⟩, -⟩ := h'.forward_of_undefined hq' hd'
    obtain ⟨t, t', ht, ht', hc⟩ := h.tag_twin h' hq
    rw [htag] at ht
    rw [htag'] at ht'
    cases ht
    cases ht'
    rw [displayName, displayName, htag, htag', h.qualifiedName_twin h', qualifiedName_eq_join,
      h.linked.route_of_tagAt h.wellFormed hq]
    dsimp only
    rw [ForwardTag.keyword_kind, ForwardTag.keyword_kind]
    exact .keyword hx hx' hc hnone

theorem twins : Twins (Reworded xs) (twin r r') r r' where
  injective := h.twin_injective h'
  size_eq := h.size_eq h'
  definition?_eq := h.definition?_twin h'
  qualifiedName_eq := h.qualifiedName_twin h'
  reflexive := .same
  inMember name hE := by
    cases hE with
    | same e => exact .same _
    | @keyword q n n' t t' member hx hx' hc hnone =>
      cases member with
      | none => exact .keyword hx hx' hc hnone
      | some m => exact .keyword hx hx' hc hnone
  incomplete {id} hd := by
    by_cases hid : id.index < r.size
    · exact h.reworded_of_undefined h' hd hid
    · have hge := Nat.le_of_not_lt hid
      have hge' : r'.size ≤ id.index := h.size_eq h' ▸ hge
      have hname := h.qualifiedName_twin h' id
      have hnone : r.entry? id = none := entry?_of_ge hge
      have hnone' : r'.entry? id = none := entry?_of_ge hge'
      rw [h.twin_of_ge hge] at hname ⊢
      simp only [displayName, tagOf?, hnone, hnone', hname]
      exact .same _

end

end Census

end Registry

end TypeLayout
