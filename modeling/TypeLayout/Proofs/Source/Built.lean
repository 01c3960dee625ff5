import TypeLayout.Proofs.Layout.Plain
import TypeLayout.Proofs.Registry.Routes
import TypeLayout.Proofs.Source.Upkeep
/-! What holds of the registry that a unit resolves into. Whatever fails, and in which pass, the
types that resolution answers mention entries it has allocated, and the members it accepts spare the
records that are being defined. So a registry is built by declarations and definitions. -/

namespace TypeLayout

open Registry

namespace Registry

variable {r r' : Registry} {s : ScopeId} {d : Descriptor}

def Covers (r : Registry) (d : Descriptor) : Prop := ∀ j ∈ d.mentions, j.index < r.size

theorem Covers.growsTo (h : r.Covers d) (hg : r.GrowsTo r') : r'.Covers d :=
  fun j hj => Nat.lt_of_lt_of_le (h j hj) hg.size_le

theorem covers_named {id : TypeId} (h : id.index < r.size) : r.Covers (.named id) := by
  intro j hj
  rw [List.mem_singleton.mp hj]
  exact h

theorem covers_aggregate {a : Aggregate} (hmembers : ∀ x ∈ a.members, r.Covers x.type)
    (hbases : ∀ b ∈ a.bases, r.Covers b.type) : r.Covers (.aggregate a) := by
  intro j hj
  rcases mem_mentions_aggregate.mp hj with ⟨x, hx, hj⟩ | ⟨b, hb, hj⟩
  · exact hmembers x hx j hj
  · exact hbases b hb j hj

theorem Covers.innermost (h : r.Covers d) : r.Covers d.innermost := by
  fun_induction Descriptor.innermost d with
  | case1 element count ih => exact ih h
  | case2 d _ => exact h

theorem Founded.covers_strip (hr : r.Founded) (h : r.Covers d) : r.Covers (r.strip d) := by
  induction d using hr.typedef_induction with
  | link id t ht ih =>
    rw [hr.strip_typedef ht]
    exact ih fun j hj => hr.mention_lt ht hj
  | stop d hd =>
    rw [strip_of_not_typedef hd]
    exact h

theorem GrowsTo.heldBy_eq (h : r.GrowsTo r') (hr : r.Founded) (hr' : r'.Founded)
    (hd : r.Covers d) : r'.heldBy d = r.heldBy d := by
  unfold heldBy
  rw [h.strip_eq hr hr' hd.innermost,
    h.strip_eq hr hr' (hr.covers_strip hd.innermost).innermost]

def Spares (r : Registry) (ids : List TypeId) (d : Descriptor) : Prop :=
  ∀ id ∈ ids, r.heldBy d ≠ .named id

theorem Spares.growsTo {ids : List TypeId} (h : r.Spares ids d) (hg : r.GrowsTo r')
    (hr : r.Founded) (hr' : r'.Founded) (hd : r.Covers d) : r'.Spares ids d := by
  intro id hid
  rw [hg.heldBy_eq hr hr' hd]
  exact h id hid

theorem spares_of_checkMember {ids : List TypeId} {name : String}
    (h : r.checkMember ids d name = .ok ()) : r.Spares ids d := by
  intro id hid hheld
  obtain ⟨_, hcycle, -⟩ := bind_eq_ok.mp h
  rw [hheld, cycleIn, if_pos (List.contains_iff_mem.mpr hid)] at hcycle
  cases hcycle

theorem resolveBase_ok {b : BaseDecl} {spec : BaseSpec} (h : r.resolveBase s b = .ok spec) :
    ∃ id, r.find s b.name = .ok id ∧ spec = ⟨.named id, b.isVirtual⟩ := by
  obtain ⟨id, hid, h⟩ := bind_eq_ok.mp h
  refine ⟨id, hid, ?_⟩
  split at h
  next target _ =>
    obtain ⟨d, -, h⟩ := bind_eq_ok.mp h
    split at h
    · split at h
      · cases h
      · exact (Except.ok.inj h).symm
    · cases h
  next => cases h

end Registry

/-- An invariant of the second pass. A record is defined where it is declared, and its members spare
it. -/
structure Lasting (I : Registry → Prop) : Prop where
  wellFormed : ∀ {r}, I r → r.WellFormed
  declare : ∀ {r r' : Registry} {s : ScopeId} {name : String} {tag : TagKind} {id : TypeId}, I r →
    s.index < r.scopes.size → r.declare s name tag = .ok (id, r') → I r'
  define : ∀ {r r' : Registry} {s : ScopeId} {name : String} {d : Definition} {id : TypeId}, I r →
    s.index < r.scopes.size → (∀ j ∈ d.mentions, j.index < r.size) → (∀ a, d ≠ .aggregate a) →
    r.define s name d = .ok (id, r') → I r'
  close : ∀ {r r' : Registry} {s : ScopeId} {name : String} {a : Aggregate} {id j : TypeId}, I r →
    s.index < r.scopes.size → r.Covers (.aggregate a) → r.boundTag? s name = some id →
    (∀ x ∈ a.members, r.Spares [id] x.type) → r.define s name (.aggregate a) = .ok (j, r') → I r'

def coverage (I : Registry → Prop) : Upkeep where
  Holds := I
  Inside _ := True
  Answer := Covers
  Member ids r d := r.Covers d ∧ r.Spares ids d
  Base r b := r.Covers b.type
  arrays := True

theorem Lasting.durable {I : Registry → Prop} (hI : Lasting I) : Durable I where
  treelike hr := (hI.wellFormed hr).toTreelike
  global_lt hr := (hI.wellFormed hr).global_lt
  declare := hI.declare

theorem Lasting.lawful {I : Registry → Prop} (hI : Lasting I) : (coverage I).Lawful where
  toDurable := hI.durable
  enter _ _ _ := trivial
  defineEnum {_ _ _ _ e _} h _ hd :=
    hI.define h.holds h.lt (d := .enum e) (fun j hj => by cases hj) (fun _ ha => by cases ha) hd
  defineTypedef {_ _ _ _ t _} h ht hd :=
    hI.define h.holds h.lt (d := .typedef t) ht (fun _ ha => by cases ha) hd
  defineRecord h hbody hid hbound hd := by
    refine hI.close h.holds h.lt (covers_aggregate (fun x hx => (hbody.members x hx).1) hbody.bases)
      hbound (fun x hx i hi => ?_) hd
    exact (hbody.members x hx).2 i (List.mem_singleton.mp hi ▸ hid)
  fundamental _ _ _ hj := by cases hj
  resolveName hr h := by
    rcases (hI.wellFormed hr).resolveName_cases h with ⟨id, rfl, hid⟩ | ⟨kind, rfl⟩
    · exact covers_named hid
    · exact fun j hj => by cases hj
  named := covers_named
  enum _ _ _ _ hj := by cases hj
  pointer h := h
  array _ _ h := h
  aggregate _ hbody := covers_aggregate (fun x hx => (hbody.members x hx).1) hbody.bases
  member _ hd hc := ⟨hd, spares_of_checkMember hc⟩
  base hr h := by
    obtain ⟨id, hid, rfl⟩ := resolveBase_ok h
    exact covers_named ((hI.wellFormed hr).find_lt hid)
  growsMember hr hr' hg hd := ⟨hd.1.growsTo hg, hd.2.growsTo hg (hI.wellFormed hr).toFounded
    (hI.wellFormed hr').toFounded hd.1⟩
  growsBase _ _ hg hb := hb.growsTo hg

theorem SourceUnit.resolve_lasts {I : Registry → Prop} (hI : Lasting I) (hprelude : I withPrelude)
    (u : SourceUnit) : I u.resolve.2.registry :=
  resolve_upkeep hI.lawful trivial (Or.inl trivial) hprelude

theorem built_lasting : Lasting Built where
  wellFormed := Built.wellFormed
  declare := Built.declare
  define hr hs hd _ h := .define hr hs hd h
  close {_ _ _ _ a _ _} hr hs ha _ _ h := .define hr hs (d := .aggregate a) ha h

theorem built_durable : Durable Built := built_lasting.durable

section

variable {z : Resolution} {s : ScopeId}

theorem openRecord_built (hz : z.registry.Built) (hs : s.index < z.registry.scopes.size)
    (tag : AggregateKind) (name : Option String) :
    Ensures Built z (openRecord s tag name) fun p r => p.2.index < r.scopes.size :=
  (openRecord_upkeep built_lasting.lawful ⟨hz, hs, trivial⟩ tag name).consequence
    fun _ _ h => h.1.lt

theorem resolveBases_built (hz : z.registry.Built) (bs : List BaseDecl) :
    Ensures Built z (resolveBases s bs) fun specs r => ∀ b ∈ specs, r.Covers b.type :=
  resolveBases_upkeep built_lasting.lawful hz bs

theorem resolveDeclaration_built (d : Declaration) (defining : List TypeId)
    (hz : z.registry.Built) (hs : s.index < z.registry.scopes.size) :
    Ensures Built z (resolveDeclaration defining s d) fun _ _ => True :=
  resolveDeclaration_upkeep built_lasting.lawful d (Or.inl trivial) defining ⟨hz, hs, trivial⟩

theorem resolveDeclarator_built (d : Declarator) (defining : List TypeId)
    (hz : z.registry.Built) (hs : s.index < z.registry.scopes.size) :
    Ensures Built z (resolveDeclarator defining s d) fun d r => r.Covers d :=
  resolveDeclarator_upkeep built_lasting.lawful d (Or.inl trivial) defining ⟨hz, hs, trivial⟩

theorem resolveNested_built (ds : List Declaration) (defining : List TypeId)
    (hz : z.registry.Built) (hs : s.index < z.registry.scopes.size) :
    Ensures Built z (resolveNested defining s ds) fun _ _ => True :=
  resolveNested_upkeep built_lasting.lawful ds (Or.inl trivial) defining ⟨hz, hs, trivial⟩

theorem resolveMembers_built (xs : List MemberDecl) (defining : List TypeId)
    (hz : z.registry.Built) (hs : s.index < z.registry.scopes.size) :
    Ensures Built z (resolveMembers defining s xs) fun ms r =>
      ∀ x ∈ ms, r.Covers x.type ∧ r.Spares defining x.type :=
  resolveMembers_upkeep built_lasting.lawful xs (Or.inl trivial) defining ⟨hz, hs, trivial⟩

end

theorem SourceUnit.resolve_built (u : SourceUnit) : u.resolve.2.registry.Built :=
  u.resolve_lasts built_lasting .prelude

end TypeLayout
