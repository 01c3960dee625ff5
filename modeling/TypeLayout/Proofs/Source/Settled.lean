import TypeLayout.Proofs.Layout.Progress
import TypeLayout.Proofs.Source.Ensures
/-! Types and definitions as a resolved unit without arrays has them. A settled type may name an
incomplete one, but whatever it holds in place is sturdy; a sound registry defines aggregates whose
bodies are sturdy, enumerations that are stored, and typedefs of settled types. In such a registry,
what the resolution checks of members and bases is enough to hold them in place. -/

namespace TypeLayout

namespace Registry

variable {r r' : Registry} {s : ScopeId} {d : Descriptor} {id : TypeId}

structure Holdable (r : Registry) (d : Descriptor) : Prop where
  mention_lt : ∀ j ∈ d.mentions, j.index < r.size
  sturdy : r.Sturdy d

structure Derivable (r : Registry) (d : Descriptor) : Prop extends Holdable r d where
  named : ∃ id, r.strip d = .named id

/-- A type as the resolution of a declarator answers it. -/
structure Settled (r : Registry) (d : Descriptor) : Prop where
  mention_lt : ∀ j ∈ d.mentions, j.index < r.size
  not_array : d.isArray = false
  body : ∀ a, d = .aggregate a → r.Sturdy d
  enum : ∀ e, d = .enum e → e.underlying ≠ .void

def Admits (r : Registry) : Definition → Prop
  | .aggregate a => r.Holdable (.aggregate a)
  | .enum e => e.underlying ≠ .void
  | .typedef t => r.Settled t

structure Sound (r : Registry) : Prop extends WellFormed r where
  admits : ∀ {id d}, r.definition? id = some d → r.Admits d

theorem settled_named (h : id.index < r.size) : r.Settled (.named id) where
  mention_lt j hj := by
    rw [List.mem_singleton.mp hj]
    exact h
  not_array := rfl
  body a ha := by cases ha
  enum e he := by cases he

theorem settled_fundamental (kind : Fundamental) : r.Settled (.fundamental kind) where
  mention_lt j hj := by cases hj
  not_array := rfl
  body a ha := by cases ha
  enum e he := by cases he

theorem settled_enum {e : EnumType} (h : e.underlying ≠ .void) : r.Settled (.enum e) where
  mention_lt j hj := by cases hj
  not_array := rfl
  body a ha := by cases ha
  enum e' he := by
    cases he
    exact h

theorem Settled.pointer (h : r.Settled d) : r.Settled (.pointer d) where
  mention_lt := h.mention_lt
  not_array := rfl
  body a ha := by cases ha
  enum e he := by cases he

theorem settled_aggregate {a : Aggregate} (h : r.Holdable (.aggregate a)) :
    r.Settled (.aggregate a) where
  mention_lt := h.mention_lt
  not_array := rfl
  body _ _ := h.sturdy
  enum e he := by cases he

theorem Admits.mention_lt {d : Definition} (h : r.Admits d) :
    ∀ j ∈ d.mentions, j.index < r.size := by
  cases d with
  | aggregate a => exact Holdable.mention_lt h
  | enum e =>
    intro j hj
    cases hj
  | typedef t => exact Settled.mention_lt h

theorem GrowsTo.holdable (h : r.GrowsTo r') (hr : r.Founded) (hr' : r'.Founded)
    (hd : r.Holdable d) : r'.Holdable d where
  mention_lt j hj := Nat.lt_of_lt_of_le (hd.mention_lt j hj) h.size_le
  sturdy := h.sturdy hr hr' hd.mention_lt hd.sturdy

theorem GrowsTo.derivable (h : r.GrowsTo r') (hr : r.Founded) (hr' : r'.Founded)
    (hd : r.Derivable d) : r'.Derivable d where
  toHoldable := h.holdable hr hr' hd.toHoldable
  named := by
    rw [h.strip_eq hr hr' hd.mention_lt]
    exact hd.named

theorem GrowsTo.settled (h : r.GrowsTo r') (hr : r.Founded) (hr' : r'.Founded)
    (hd : r.Settled d) : r'.Settled d where
  mention_lt j hj := Nat.lt_of_lt_of_le (hd.mention_lt j hj) h.size_le
  not_array := hd.not_array
  body a ha := h.sturdy hr hr' hd.mention_lt (hd.body a ha)
  enum := hd.enum

theorem GrowsTo.admits (h : r.GrowsTo r') (hr : r.Founded) (hr' : r'.Founded) {d : Definition}
    (hd : r.Admits d) : r'.Admits d := by
  cases d with
  | aggregate a => exact h.holdable hr hr' hd
  | enum e => exact hd
  | typedef t => exact h.settled hr hr' hd

theorem Sound.growsTo (hr : r.Sound) (hr' : r'.WellFormed) (h : r.GrowsTo r')
    (hnew : ∀ id d, r'.definition? id = some d → r.definition? id = some d ∨ r.Admits d) :
    r'.Sound where
  toWellFormed := hr'
  admits {id d} hd := by
    refine h.admits hr.toFounded hr'.toFounded ?_
    rcases hnew id d hd with hold | hadmits
    · exact hr.admits hold
    · exact hadmits

theorem Sound.alloc (hr : r.Sound) (hs : s.index < r.scopes.size) (name : String)
    {state : EntryState} (hnew : ∀ d, state.definition? = some d → r.Admits d) :
    (r.alloc s name state).2.Sound := by
  have hwf := hr.toWellFormed.alloc hs name fun d hd => (hnew d hd).mention_lt
  refine hr.growsTo hwf (r.growsTo_alloc s name state) fun id d hd => ?_
  rw [definition?_alloc] at hd
  split at hd
  · exact Or.inr (hnew d hd)
  · exact Or.inl hd

theorem Sound.declare (hr : r.Sound) (hs : s.index < r.scopes.size) {name : String}
    {tag : TagKind} (h : r.declare s name tag = .ok (id, r')) : r'.Sound := by
  rcases declare_cases h with ⟨-, -, rfl⟩ | ⟨-, rfl, rfl⟩
  · exact hr
  · exact hr.alloc hs name fun d hd => (by cases hd)

theorem Sound.define (hr : r.Sound) (hs : s.index < r.scopes.size) {name : String}
    {d : Definition} (hd : r.Admits d) (h : r.define s name d = .ok (id, r')) : r'.Sound := by
  have hwf := hr.toWellFormed.define hs hd.mention_lt h
  have hg := growsTo_define h
  rcases define_cases h with ⟨-, rfl, -⟩ | ⟨-, rfl, rfl⟩
  · refine hr.growsTo hwf hg fun j d' hj => ?_
    rw [definition?_setState] at hj
    split at hj
    · obtain ⟨-, -, rfl⟩ := Option.map_eq_some_iff.mp hj
      exact Or.inr hd
    · exact Or.inl hj
  · refine hr.alloc hs name fun d' hd' => ?_
    cases hd'
    exact hd

theorem sound_durable : Durable Sound where
  treelike hr := hr.toTreelike
  global_lt hr := hr.global_lt
  declare hr hs h := hr.declare hs h

theorem empty_sound : empty.Sound where
  toWellFormed := empty_wellFormed
  admits hd := by
    rw [definition?, entry?_empty] at hd
    cases hd

theorem withPrelude_sound : withPrelude.Sound := by
  refine prelude_induction empty_sound fun r name kind hr => ?_
  refine hr.alloc hr.global_lt name fun d hd => ?_
  cases hd
  exact settled_fundamental kind

theorem Sound.sturdy_named (hr : r.Sound) {d : Definition} (hd : r.definition? id = some d)
    (ht : ¬ r.IsTypedef id) : r.Sturdy (.named id) := by
  have hadmits := hr.admits hd
  cases d with
  | aggregate a =>
    refine .intro ⟨_, hd, fun e he => by cases he⟩ fun x hx => ?_
    rw [(holds_body hd).mp hx]
    exact Holdable.sturdy hadmits
  | enum e =>
    refine .intro ⟨_, hd, fun e' he => ?_⟩ fun x hx => absurd hx (not_holds_enum hd)
    cases he
    exact hadmits
  | typedef t => exact absurd ⟨t, hd⟩ ht

theorem Sound.sturdy_of_strip (hr : r.Sound) (h : r.Sturdy (r.strip d)) : r.Sturdy d :=
  hr.grounded_of_strip (fun _ ⟨_, ht⟩ => ⟨_, ht, fun e he => by cases he⟩) h

theorem Sound.settled_strip (hr : r.Sound) (h : r.Settled d) : r.Settled (r.strip d) := by
  induction d using hr.typedef_induction with
  | link id t ht ih =>
    rw [hr.strip_typedef ht]
    exact ih (hr.admits ht)
  | stop d hd =>
    rw [strip_of_not_typedef hd]
    exact h

theorem Sound.sturdy_of_requireComplete (hr : r.Sound) (h : r.Settled d) {name : String}
    (hc : r.requireComplete d name = .ok ()) : r.Sturdy d := by
  -- the end of the typedefs is settled as well, so arrays and unchecked bodies are out
  refine hr.sturdy_of_strip ?_
  have hs := hr.settled_strip h
  unfold requireComplete at hc
  cases ht : r.strip d with
  | fundamental kind =>
    rw [ht] at hc
    refine .intro (fun hv => ?_) fun x hx => by cases hx
    subst hv
    cases hc
  | pointer t => exact .intro trivial fun x hx => by cases hx
  | array t n =>
    rw [ht] at hs
    cases hs.not_array
  | enum e => exact .intro (hs.enum e ht) fun x hx => by cases hx
  | aggregate a =>
    rw [← ht]
    exact hs.body a ht
  | named id =>
    rw [ht] at hc
    dsimp only at hc
    split at hc
    next def' hdef => exact hr.sturdy_named (definition_eq_ok.mp hdef) (hr.strip_not_typedef ht)
    next => cases hc

theorem holdable_aggregate (hr : r.Founded) {a : Aggregate}
    (hmembers : ∀ x ∈ a.members, r.Holdable x.type)
    (hbases : ∀ b ∈ a.bases, r.Derivable b.type) : r.Holdable (.aggregate a) where
  mention_lt j hj := by
    rcases mem_mentions_aggregate.mp hj with ⟨x, hx, hj⟩ | ⟨b, hb, hj⟩
    · exact (hmembers x hx).mention_lt j hj
    · exact (hbases b hb).mention_lt j hj
  sturdy := by
    refine .intro ⟨fun x hx id hid => ?_, fun b hb => (hbases b hb).named⟩ fun x hx => ?_
    · have hreach := hr.reaches_strip x.type
      rw [hid] at hreach
      obtain ⟨d, hd, -⟩ := ((hmembers x hx).sturdy.reached hreach).here
      exact ⟨d, hd⟩
    · cases hx with
      | member hm _ => exact (hmembers _ hm).sturdy
      | base _ hb => exact (hbases _ hb).sturdy

theorem Sound.derivable_resolveBase (hr : r.Sound) {b : BaseDecl} {spec : BaseSpec}
    (h : r.resolveBase s b = .ok spec) : r.Derivable spec.type := by
  obtain ⟨id, hid, h⟩ := bind_eq_ok.mp h
  split at h
  next target ht =>
    obtain ⟨d, hd, h⟩ := bind_eq_ok.mp h
    have hsturdy := hr.sturdy_named (definition_eq_ok.mp hd) (hr.strip_not_typedef ht)
    rw [← ht] at hsturdy
    split at h
    · split at h
      · cases h
      · cases h
        exact ⟨⟨(settled_named (hr.find_lt hid)).mention_lt, hr.sturdy_of_strip hsturdy⟩, _, ht⟩
    · cases h
  next => cases h

theorem Sound.holdable_checkMember (hr : r.Sound) (hd : r.Settled d) {defining : List TypeId}
    {name : String} (h : r.checkMember defining d name = .ok ()) : r.Holdable d := by
  obtain ⟨-, -, h⟩ := bind_eq_ok.mp h
  rw [hd.not_array] at h
  exact ⟨hd.mention_lt, hr.sturdy_of_requireComplete hd h⟩

end Registry

end TypeLayout
