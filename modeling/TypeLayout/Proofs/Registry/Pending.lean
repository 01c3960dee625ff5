import TypeLayout.Proofs.Registry.Catalogue
import TypeLayout.Proofs.Registry.Routes
/-! Entries that wait for a body. A declaration changes no entry, and a definition at most the one
that its own name is bound to in its own scope. So a forward entry waits until it is defined there,
however the registry grows meanwhile, and keeps its id. -/

namespace TypeLayout

theorem Entry.forward_of_incomplete {e : Entry} (h : e.definition? = none) :
    ∃ tag, e.state = .forward tag := by
  obtain ⟨name, scope, state, body⟩ := e
  cases state with
  | forward tag => exact ⟨tag, rfl⟩
  | defined d => cases h

namespace Registry

variable {r r' : Registry} {s t : ScopeId} {name : String} {id j : TypeId} {e : Entry}
  {kind : AggregateKind}

theorem entry?_alloc_of_some {state : EntryState} (he : r.entry? j = some e) :
    entry? (r.alloc s name state).2 j = some e := by
  rw [entry?_alloc, if_neg (Nat.ne_of_lt (entry?_lt he))]
  exact he

theorem entry?_of_declare {tag : TagKind} (h : r.declare s name tag = .ok (id, r'))
    (he : r.entry? j = some e) : r'.entry? j = some e := by
  rcases declare_cases h with ⟨-, -, rfl⟩ | ⟨-, -, rfl⟩
  · exact he
  · exact entry?_alloc_of_some he

theorem Catalogued.entry?_of_define (hr : r.Catalogued) {d : Definition}
    (h : r.define s name d = .ok (id, r')) (he : r.entry? j = some e) (hs : e.scope ≠ s) :
    r'.entry? j = some e := by
  rcases define_cases h with ⟨hrival, rfl, -⟩ | ⟨-, -, rfl⟩
  · -- what is completed lies in the scope of the definition
    rw [rival?_eq] at hrival
    obtain ⟨e', he', hscope, -⟩ := hr.named_iff.mp hrival
    have hne : id.index ≠ j.index := by
      intro hid
      obtain rfl : id = j := congrArg TypeId.mk hid
      cases he.symm.trans he'
      exact hs hscope
    rw [entry?_setState, he, Option.map_some, if_neg hne]
  · exact entry?_alloc_of_some he

theorem Arranged.body?_of_bound (hr : r.Arranged) (hbound : r.boundTag? s name = some id)
    (hbody : r.body? id = some t) : s.index < t.index ∧ t.index < r.scopes.size := by
  obtain ⟨e, he, -, rfl, -⟩ := hr.entry_of_bound hbound
  obtain ⟨e', he', hb⟩ := Option.bind_eq_some_iff.mp hbody
  cases he.symm.trans he'
  obtain ⟨sc, hsc, -, hparent⟩ := hr.body_scope he hb
  exact ⟨hr.parent_lt hsc hparent, scope?_lt hsc⟩

/-- The name is bound to a forward entry, which a record of this kind completes. -/
structure Awaits (r : Registry) (s : ScopeId) (name : String) (kind : AggregateKind)
    (id : TypeId) : Prop where
  bound : r.boundTag? s name = some id
  forward : ∃ e tag, r.entry? id = some e ∧ e.state = .forward tag ∧
    tag.compatible (.aggregate kind) = true

theorem awaits_of_declare (hs : s.index < r.scopes.size)
    (h : r.declare s name (.aggregate kind) = .ok (id, r')) (hopen : r'.definition? id = none) :
    r'.Awaits s name kind id := by
  obtain ⟨hbound, tag, htag, hc⟩ := declare_bound hs h
  refine ⟨hbound, ?_⟩
  obtain ⟨e, he, htag⟩ := Option.bind_eq_some_iff.mp htag
  have hincomplete : e.definition? = none := by simpa [definition?, he] using hopen
  obtain ⟨tag', hstate⟩ := Entry.forward_of_incomplete hincomplete
  rw [Entry.tag?, hstate] at htag
  cases htag
  exact ⟨e, tag, he, hstate, hc⟩

namespace Awaits

variable (h : r.Awaits s name kind id)
include h

theorem definition?_eq : r.definition? id = none := by
  obtain ⟨e, tag, he, hstate, -⟩ := h.forward
  simp [definition?, he, Entry.definition?, hstate, EntryState.definition?]

theorem exists_body? (hr : r.Arranged) : ∃ t, r.body? id = some t := by
  obtain ⟨e, tag, he, hstate, hc⟩ := h.forward
  have hagg : e.isAggregate = true := by
    rw [Entry.isAggregate, hstate]
    exact TagKind.isAggregate_eq_of_compatible hc
  obtain ⟨t, ht⟩ := Option.isSome_iff_exists.mp (hr.body_isSome he hagg)
  exact ⟨t, Option.bind_eq_some_iff.mpr ⟨e, he, ht⟩⟩

theorem growsTo (hg : r.GrowsTo r') (hopen : r'.definition? id = none) :
    r'.Awaits s name kind id := by
  obtain ⟨e, tag, he, hstate, hc⟩ := h.forward
  obtain ⟨e', he', hb⟩ := hg.entry he
  refine ⟨hg.boundTag? h.bound, e', tag, he', ?_, hc⟩
  rcases hb.state with hsame | ⟨_, d, _, -, hdefined, -⟩
  · exact hsame.trans hstate
  · simp [definition?, he', Entry.definition?, hdefined, EntryState.definition?] at hopen

theorem define {body : Aggregate}
    (hkind : (TagKind.aggregate kind).compatible (.aggregate body.kind) = true) :
    ∃ r', r.define s name (.aggregate body) = .ok (id, r') ∧
      r'.definition? id = some (.aggregate body) := by
  obtain ⟨e, tag, he, hstate, hc⟩ := h.forward
  have hrival : r.rival? s name (.aggregate body) = some id := h.bound
  have hcompletes : r.completes id (.aggregate body) = true := by
    simpa [completes, he, hstate, Definition.tag?] using TagKind.compatible_trans hc hkind
  have hdefine : r.define s name (.aggregate body) =
      .ok (id, r.setState id (.defined (.aggregate body))) := by
    simp [Registry.define, hrival, hcompletes]
  refine ⟨_, hdefine, ?_⟩
  simp [definition?_setState, he]

end Awaits

structure Preserves (r r' : Registry) : Prop where
  complete : ∀ {id e d}, r.entry? id = some e → e.state = .defined d → r'.entry? id = some e
  entry : ∀ {id e}, r.entry? id = some e → ∃ e', r'.entry? id = some e' ∧ e'.name = e.name ∧
    e'.scope = e.scope ∧ e'.body = e.body
  binding : ∀ {s space n id}, r.named? s space n = some id → r'.named? s space n = some id

theorem GrowsTo.preserves (h : r.GrowsTo r') : r.Preserves r' where
  complete he hd := by
    obtain ⟨e', he', hb⟩ := h.entry he
    rw [hb.eq_of_defined hd] at he'
    exact he'
  entry he := by
    obtain ⟨e', he', hb⟩ := h.entry he
    exact ⟨e', he', hb.name, hb.scope, hb.body⟩
  binding hn := h.named? hn

end Registry

end TypeLayout
