import TypeLayout.Proofs.Query.History
import TypeLayout.Proofs.Query.Identifiers
import TypeLayout.Proofs.Source.TagNames
/-! Dumps and queries. A dump goes through the ids of the registry, a query through the text of a
name; where no typedef takes the name of a tag, they meet at the same layout and the same report. -/

namespace TypeLayout

open Registry Query

namespace Registry

/-- No scope binds a typedef and a tag under one name. -/
def TypedefsApart (r : Registry) : Prop :=
  ∀ s n, (r.boundTag? s n).isSome = true → r.boundTypedef? s n = none

/-- At the end of the route lies an aggregate with a body. -/
def Completes (r : Registry) (q : List String) : Prop :=
  ∃ id a, r.tagAt q = some id ∧ r.definition? id = some (.aggregate a)

variable {r : Registry} {s : ScopeId} {n : String} {id : TypeId} {q : List String}
  {P : String → Prop} {a : Aggregate}

theorem typedefsApart_of_scopes
    (h : ∀ sc ∈ r.scopes, ∀ p ∈ sc.tags, sc.typedefs.lookup p.1 = none) : r.TypedefsApart := by
  intro s n htag
  obtain ⟨id, hid⟩ := Option.isSome_iff_exists.mp htag
  obtain ⟨sc, hsc, ht⟩ := Option.bind_eq_some_iff.mp hid
  rw [boundTypedef?, hsc]
  exact h sc (Array.mem_of_getElem? hsc) _ (mem_of_lookup ht)

theorem TypedefsApart.bound? (h : r.TypedefsApart) (hb : r.boundTag? s n = some id) :
    r.bound? s n = some id := by
  rw [bound?_eq, h s n (Option.isSome_of_eq_some hb), hb]
  rfl

theorem TagNames.of_tagAt (h : r.TagNames P) (hr : r.Linked) (hat : r.tagAt q = some id) :
    ∀ n ∈ q, P n := by
  induction q generalizing id with
  | nil => cases hat
  | cons m q ih =>
    obtain ⟨s, hs, hb⟩ := Option.bind_eq_some_iff.mp hat
    obtain ⟨e, he, hname, -, htag⟩ := hr.entry_of_bound hb
    rintro n (_ | ⟨_, hn⟩)
    · exact hname ▸ h id e he htag
    · cases q with
      | nil => cases hn
      | cons k q =>
        obtain ⟨o, ho, -⟩ := Option.bind_eq_some_iff.mp hs
        exact ih ho n hn

theorem findPath?_of_tagAt (hr : r.Built) (h : r.TypedefsApart)
    (hnames : ∀ n ∈ q, n.isEmpty = false) (hat : r.tagAt q = some id) :
    r.findPath? .global ⟨false, q.reverse⟩ = some id := by
  induction q generalizing id with
  | nil => cases hat
  | cons n q ih =>
    obtain ⟨s, hs, hb⟩ := Option.bind_eq_some_iff.mp hat
    have hbound := h.bound? hb
    cases q with
    | nil =>
      have hn := hnames n List.mem_cons_self
      cases hs
      simp [findPath?, findWithin, startScopes, hn, hr.reached.arranged.enclosing_global, hbound]
    | cons m q =>
      obtain ⟨o, ho, hbody⟩ := Option.bind_eq_some_iff.mp hs
      have hne : (m :: q).reverse ≠ [] := by simp
      rw [List.reverse_cons, findPath?_concat hne,
        ih (fun k hk => hnames k (List.mem_cons_of_mem n hk)) ho]
      simp [hbody, hbound]

theorem find_of_tagAt (hr : r.Built) (h : r.TypedefsApart) (hnames : r.TagNames Identifier)
    (hat : r.tagAt q = some id) : r.find .global (Text.join "::" q.reverse) = .ok id := by
  have hq := hnames.of_tagAt hr.linked hat
  have hne : q.reverse ≠ [] := by
    rintro hnil
    rw [List.reverse_eq_nil_iff.mp hnil] at hat
    cases hat
  have hlike : ∀ n ∈ q.reverse, Text.IdentifierLike n :=
    fun n hn => (hq n (List.mem_reverse.mp hn)).like
  have hempty : ∀ n ∈ q, n.isEmpty = false := by
    intro n hn
    cases he : n.isEmpty with
    | false => rfl
    | true =>
      rw [String.isEmpty_iff] at he
      exact absurd (he ▸ rfl) (hq n hn).named.ne_nil
  rw [find, Path.ofString_join hne hlike, findPath?_of_tagAt hr h hempty hat]

theorem resolveText_of_tagAt (hr : r.Built) (h : r.TypedefsApart) (hnames : r.TagNames Identifier)
    (hat : r.tagAt q = some id) : ∃ e, r.resolveText (Text.join "::" q.reverse) =
      .ok (e, .named id) := by
  have hfind := find_of_tagAt hr h hnames hat
  have hq := hnames.of_tagAt hr.linked hat
  cases hrev : q.reverse with
  | nil =>
    rw [List.reverse_eq_nil_iff.mp hrev] at hat
    cases hat
  | cons n ns =>
    have hparts : ∀ m ∈ n :: ns, Identifier m :=
      fun m hm => hq m (List.mem_reverse.mp (hrev ▸ hm))
    obtain ⟨hn, hns⟩ := List.forall_mem_cons.mp hparts
    rw [hrev] at hfind
    refine ⟨⟨none, Text.join "::" (n :: ns), 0, []⟩, ?_⟩
    unfold resolveText
    rw [TypeExpression.parse_join hn hns]
    change (do return (_, ← TypeExpression.resolve _ r)) = _
    rw [TypeExpression.resolve_of_plain rfl rfl, Fundamental.ofSpelling?_join hn hns, hfind]
    rfl

theorem Built.tagAt_route (hr : r.Built) (ha : r.definition? id = some (.aggregate a)) :
    r.tagAt (r.route id) = some id := by
  obtain ⟨e, he, hstate⟩ := definition?_eq_some ha
  refine hr.linked.tagAt_route hr.wellFormed.toTreelike he ?_
  rw [Entry.tag?, hstate]
  rfl

theorem Built.eq_of_qualifiedName (hr : r.Built) (hnames : r.TagNames Identifier) {id' : TypeId}
    (hat : r.tagAt (r.route id) = some id) (hat' : r.tagAt (r.route id') = some id')
    (h : r.qualifiedName id = r.qualifiedName id') : id = id' := by
  have hlike : ∀ {j}, r.tagAt (r.route j) = some j → ∀ n ∈ r.route j, Text.IdentifierLike n :=
    fun hj n hn => (hnames.of_tagAt hr.linked hj n hn).like
  exact eq_of_join_route hat hat' (hlike hat) (hlike hat') h

theorem Built.aggregateNames_nodup (hr : r.Built) (hnames : r.TagNames Identifier) :
    (r.definedAggregates.map r.qualifiedName).Nodup := by
  refine r.definedAggregates_nodup.map_on fun i hi j hj h => ?_
  obtain ⟨a, ha⟩ := mem_definedAggregates.mp hi
  obtain ⟨b, hb⟩ := mem_definedAggregates.mp hj
  exact hr.eq_of_qualifiedName hnames (hr.tagAt_route ha) (hr.tagAt_route hb) h

end Registry

namespace Session

variable {s : Session} {p : Profile} {q : List String} {id : TypeId} {a : Aggregate}

def entryReport (s : Session) (p : Profile) (id : TypeId) : Except LayoutError Report :=
  (s.plainLayout p (.named id)).map fun l => Report.ofLayout (s.registry.displayName id) l p none

theorem Sane.reply_tagAt (hs : s.Sane) (h : s.registry.TypedefsApart)
    (hnames : s.registry.TagNames Identifier) (hat : s.registry.tagAt q = some id)
    (ha : s.registry.definition? id = some (.aggregate a)) :
    s.reply p (Text.join "::" q.reverse) = s.entryReport p id := by
  obtain ⟨e, he⟩ := resolveText_of_tagAt hs.built h hnames hat
  have hstrip : s.registry.strip (.named id) = .named id := by
    apply strip_of_not_typedef
    rintro i hi ⟨t, ht⟩
    cases hi
    rw [ha] at ht
    cases ht
  have hdescribe : s.registry.describe? (.named id) = none := by
    unfold Registry.describe?
    rw [hstrip]
  unfold reply
  rw [(hs.report _ p).1, he]
  change ((s.plainLayout p (.named id)).map fun l =>
    Report.ofLayout (s.registry.displayName id) l p (s.registry.describe? (.named id))) = _
  rw [hdescribe]
  rfl

theorem Sane.dump_agrees (hs : s.Sane) (h : s.registry.TypedefsApart)
    (hnames : s.registry.TagNames Identifier) (p : Profile) {x : Answer} (hx : x ∈ (s.dump p).1) :
    (∃ q, s.registry.Completes q ∧ x.1 = Text.join "::" q.reverse) ∧ s.reply p x.1 = x.2 := by
  rw [(hs.dump p).1] at hx
  obtain ⟨id, hid, rfl⟩ := List.mem_map.mp hx
  obtain ⟨a, ha⟩ := mem_definedAggregates.mp hid
  have hat := hs.built.tagAt_route ha
  exact ⟨⟨s.registry.route id, ⟨id, a, hat, ha⟩, rfl⟩, hs.reply_tagAt h hnames hat ha⟩

theorem Sane.count_dump (hs : s.Sane) (hnames : s.registry.TagNames Identifier)
    (hq : s.registry.Completes q) :
    ((s.dump p).1.map Prod.fst).count (Text.join "::" q.reverse) = 1 := by
  obtain ⟨id, a, hat, ha⟩ := hq
  have hlisted : (s.dump p).1.map Prod.fst =
      s.registry.definedAggregates.map s.registry.qualifiedName := by
    rw [(hs.dump p).1, List.map_map]
    rfl
  have hname : Text.join "::" q.reverse = s.registry.qualifiedName id := by
    rw [qualifiedName_eq_join, hs.built.linked.route_of_tagAt hs.built.wellFormed hat]
  rw [hlisted, hname]
  apply List.count_eq_one_of_mem (hs.built.aggregateNames_nodup hnames)
  exact List.mem_map_of_mem (mem_definedAggregates.mpr ⟨a, ha⟩)

theorem ofUnit_sane (u : SourceUnit) : (ofUnit u).2.Sane where
  built := u.resolve_built
  coherent := Cache.coherent_of_stored_nil rfl
  numbered := List.pairwise_singleton _ _

theorem Sane.after_queries (hs : s.Sane) {qs : List Request} (hq : ∀ q ∈ qs, q.registry? = none) :
    (s.after qs).Sane ∧ (s.after qs).registry = s.registry := by
  induction qs generalizing s with
  | nil => exact ⟨hs, rfl⟩
  | cons q qs ih =>
    obtain ⟨hfirst, hrest⟩ := List.forall_mem_cons.mp hq
    obtain ⟨hsane, hreg, -⟩ := hs.serve_query hfirst
    obtain ⟨hlast, hreg'⟩ := ih hsane hrest
    exact ⟨hlast, hreg'.trans hreg⟩

/-- Whatever a session on a unit was asked before, and under whatever policy, its dump is what it
answers for the names in it, also after the dump. It lists tags with bodies, and every record of the
unit that has one is in it once. -/
theorem dump_answered {u : SourceUnit} (hnames : SitesNamed Identifier (sitesAll [] u.declarations))
    (hapart : u.resolve.2.registry.TypedefsApart) {qs : List Request}
    (hq : ∀ q ∈ qs, q.registry? = none) (p : Profile) :
    (∀ x ∈ (((ofUnit u).2.after qs).dump p).1,
      (∃ route, u.resolve.2.registry.Completes route ∧ x.1 = Text.join "::" route.reverse) ∧
      ((ofUnit u).2.after qs).reply p x.1 = x.2 ∧
      (((ofUnit u).2.after qs).dump p).2.reply p x.1 = x.2) ∧
    ∀ route decl, (route, Declaration.record decl) ∈ sitesAll [] u.declarations →
      u.resolve.2.registry.Completes route →
      ((((ofUnit u).2.after qs).dump p).1.map Prod.fst).count (Text.join "::" route.reverse) =
        1 := by
  obtain ⟨hsane, hreg⟩ := (ofUnit_sane u).after_queries hq
  have hreg : ((ofUnit u).2.after qs).registry = u.resolve.2.registry := hreg
  generalize (ofUnit u).2.after qs = s at hsane hreg
  rw [← hreg] at hapart ⊢
  have htags : s.registry.TagNames Identifier := hreg ▸ SourceUnit.tagNames hnames
  refine ⟨fun x hx => ?_, fun route decl _ hroute => hsane.count_dump htags hroute⟩
  obtain ⟨hlisted, hsame⟩ := hsane.dump_agrees hapart htags p hx
  exact ⟨hlisted, hsame, (hsane.reply_warms (hsane.dump p).2).trans hsame⟩

def innerLeaf : RecordDecl :=
  ⟨.structType, some "Leaf", [], [⟨"c", .fundamental "char", none⟩], [], []⟩

/-- A structure with another of its name inside a third one, a class with an incomplete member, and
a structure that fails to resolve. -/
def leafUnit : SourceUnit where
  declarations :=
    [.record ⟨.structType, some "Leaf", [], [⟨"id", .fundamental "int", none⟩], [], []⟩,
      .record ⟨.structType, some "Node", [], [⟨"leaf", .named "Leaf", none⟩], [],
        [.record innerLeaf]⟩,
      .forward .structTag "Opaque",
      .record ⟨.classType, some "Holder", [], [⟨"held", .array (.named "Opaque") 2, none⟩], [], []⟩,
      .record ⟨.structType, some "Broken", [], [⟨"m", .named "Nowhere", none⟩], [], []⟩]

def leafRequests : List Request :=
  [.report "Node::Leaf" .lp64, .configure .strictSequential true, .dump .ilp32]

theorem leafUnit_named : SitesNamed Identifier (sitesAll [] leafUnit.declarations) := by
  unfold SitesNamed
  decide +kernel

theorem leafUnit_apart : leafUnit.resolve.2.registry.TypedefsApart :=
  typedefsApart_of_scopes (by decide +kernel)

theorem leafUnit_completes : leafUnit.resolve.2.registry.Completes ["Leaf", "Node"] := by
  have hlisted : ⟨35⟩ ∈ leafUnit.resolve.2.registry.definedAggregates := by decide +kernel
  obtain ⟨a, ha⟩ := mem_definedAggregates.mp hlisted
  exact ⟨⟨35⟩, a, by decide +kernel, ha⟩

theorem leafUnit_answered : SitesNamed Identifier (sitesAll [] leafUnit.declarations) ∧
    leafUnit.resolve.2.registry.TypedefsApart ∧ (∀ q ∈ leafRequests, q.registry? = none) ∧
    (∀ x ∈ (((ofUnit leafUnit).2.after leafRequests).dump .lp64).1,
      ((ofUnit leafUnit).2.after leafRequests).reply .lp64 x.1 = x.2) ∧
    ((((ofUnit leafUnit).2.after leafRequests).dump .lp64).1.map Prod.fst).count "Node::Leaf" =
      1 := by
  have hq : ∀ q ∈ leafRequests, q.registry? = none := by simp [leafRequests, Request.registry?]
  obtain ⟨hanswers, honce⟩ := dump_answered leafUnit_named leafUnit_apart hq .lp64
  refine ⟨leafUnit_named, leafUnit_apart, hq, fun x hx => (hanswers x hx).2.1, ?_⟩
  refine honce ["Leaf", "Node"] innerLeaf ?_ leafUnit_completes
  exact .tail _ (.tail _ (.head _))

end Session

end TypeLayout
