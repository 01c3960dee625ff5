import TypeLayout.Proofs.Layout.Inheritance
/-! Where the vtable slots of a class come from. A draft holds the slot the class introduces, if
any, and those of the bases, each moved to where the base was put; members bring none. -/

namespace TypeLayout

open Registry
open Relation (TransGen)

structure Seat where
  entry : BaseSubobject
  layout : Layout

def Seat.slots (p : Seat) : List VtableSlot :=
  Draft.movedSlots p.layout p.entry.offset p.entry.isVirtual

structure LaidBase.SeatedAt (policy : BasePolicy) (x : LaidBase) (p : Seat) : Prop where
  layout : p.layout = x.layout
  isVirtual : p.entry.isVirtual = x.isVirtual
  size : p.entry.size = (policy.piece x.layout).size

namespace Draft

variable {own : List VtableSlot} {seats : List Seat} {d d' : Draft} {policy : BasePolicy}
  {owner name : String} {l : Layout}

/-- The entries of the draft are those of the seats, and its slots are its own and theirs. -/
structure Seated (own : List VtableSlot) (seats : List Seat) (d : Draft) : Prop where
  bases : d.bases = seats.map Seat.entry
  slots : d.slots = own ++ seats.flatMap Seat.slots

theorem Seated.keep (h : d.Seated own seats) (hs : d'.slots = d.slots) (hb : d'.bases = d.bases) :
    d'.Seated own seats :=
  ⟨hb.trans h.bases, hs.trans h.slots⟩

theorem Seated.addBase (h : d.Seated own seats) {isVirtual : Bool} (id : TypeId)
    (hok : d.addBase policy owner name l isVirtual = .ok d') :
    ∃ p, LaidBase.SeatedAt policy ⟨id, name, isVirtual, l⟩ p ∧ d'.Seated own (seats ++ [p]) := by
  obtain ⟨-, rfl⟩ := addBase_ok hok
  refine ⟨⟨⟨name, (policy.piece l).start d.offset, (policy.piece l).size, isVirtual⟩, l⟩,
    ⟨rfl, rfl, rfl⟩, ?_, ?_⟩
  · simp [h.bases]
  · simp [h.slots, Seat.slots]

end Draft

namespace LayoutEnv

variable {env : LayoutEnv} {g : Descend (Except LayoutError)} {trail : Trail} {a : Aggregate}
  {d d' : Draft} {x : Descriptor} {owner : String} {l : Layout} {n : Nat} {own : List VtableSlot}
  {seats : List Seat}

theorem openDraft_seated (flags : Flags) (bs : List LaidBase) :
    (env.openDraft owner flags bs).Seated (introduced owner flags bs) [] := by
  unfold openDraft introduced
  dsimp only
  split
  · exact ⟨rfl, rfl⟩
  · exact ⟨rfl, rfl⟩

theorem placeBases_seated {bs : List LaidBase} (h : d.Seated own seats)
    (hok : env.placeBases owner bs d = .ok d') : ∃ more,
      List.Forall₂ (LaidBase.SeatedAt env.policy) (bs.filter (!·.isVirtual)) more ∧
      d'.Seated own (seats ++ more) := by
  induction bs generalizing d seats with
  | nil =>
    cases hok
    exact ⟨[], .nil, by simpa using h⟩
  | cons b bs ih =>
    unfold placeBases at hok
    split at hok
    next hv =>
      rw [List.filter_cons_of_neg (by simp [hv])]
      exact ih h hok
    next hv =>
      obtain ⟨d₁, hadd, hok⟩ := bind_eq_ok.mp hok
      obtain ⟨p, hp, hadded⟩ := h.addBase b.id hadd
      obtain ⟨more, hmore, hseated⟩ := ih hadded hok
      have hb : b.SeatedAt env.policy p := by
        have hfalse : b.isVirtual = false := by simpa using hv
        exact ⟨hp.layout, hp.isVirtual.trans hfalse.symm, hp.size⟩
      rw [List.filter_cons_of_pos (by simp [hv])]
      exact ⟨p :: more, .cons hb hmore, by simpa using hseated⟩

theorem placeVirtualBases_seated {ids : List TypeId} (h : d.Seated own seats)
    (hok : env.placeVirtualBases g trail owner ids d = .ok d') : ∃ more,
      List.Forall₂ (fun v p => ∃ x, env.LaysVirtual g trail v x ∧ x.SeatedAt env.policy p)
        ids more ∧ d'.Seated own (seats ++ more) := by
  induction ids generalizing d seats with
  | nil =>
    cases hok
    exact ⟨[], .nil, by simpa using h⟩
  | cons id ids ih =>
    obtain ⟨l, hl, hok⟩ := bind_eq_ok.mp hok
    obtain ⟨d₁, hadd, hok⟩ := bind_eq_ok.mp hok
    rw [ofExcept_eq] at hadd
    obtain ⟨p, hp, hadded⟩ := h.addBase id hadd
    obtain ⟨more, hmore, hseated⟩ := ih hadded hok
    exact ⟨p :: more, .cons ⟨_, ⟨rfl, rfl, rfl, hl⟩, hp⟩ hmore, by simpa using hseated⟩

theorem RecordRun.final_seated (run : RecordRun env g trail a owner) : ∃ direct shared,
    List.Forall₂ (LaidBase.SeatedAt env.policy) (run.bases.filter (!·.isVirtual)) direct ∧
    List.Forall₂ (fun v p => ∃ x, env.LaysVirtual g trail v x ∧ x.SeatedAt env.policy p)
      (LaidBase.virtualBases run.bases) shared ∧
    run.final.Seated (introduced owner (a.flagsOver run.bases) run.bases) (direct ++ shared) := by
  obtain ⟨direct, hdirect, hbased⟩ := placeBases_seated (openDraft_seated _ _) run.placed
  obtain ⟨hslots, hbases⟩ := placeMembers_keeps run.members
  have hfilled := hbased.keep hslots hbases
  have hstart := hfilled.keep run.start_keeps.1 run.start_keeps.2
  obtain ⟨shared, hshared, hwhole⟩ := placeVirtualBases_seated hstart run.virtuals
  obtain ⟨hslots, hbases⟩ := Draft.finish_keeps run.finish
  exact ⟨direct, shared, hdirect, hshared, hwhole.keep hslots hbases⟩

structure Takes (env : LayoutEnv) (b : BaseSpec) (p : Seat) : Prop where
  named : ∃ id, env.registry.strip b.type = .named id
  layout : env.layoutOf b.type = (.ok p.layout : Except LayoutError Layout)
  isVirtual : p.entry.isVirtual = b.isVirtual
  size : p.entry.size = (env.policy.piece p.layout).size

theorem RecordRun.takes (hr : env.registry.Founded) (hu : a.kind.isUnion = false)
    (run : RecordRun env (env.layoutWithin n) trail a owner) : ∃ seats,
      List.Forall₂ env.Takes (a.bases.filter (!·.isVirtual) ++
        run.layout.virtualBases.map fun v => ⟨.named v, true⟩) seats ∧
      run.final.Seated (env.ownSlots owner a run.layout) seats := by
  obtain ⟨direct, shared, hdirect, hshared, hseated⟩ := run.final_seated
  rw [run.introduced_eq hr] at hseated
  refine ⟨direct ++ shared, List.rel_append ?_ (List.forall₂_map_left_iff.mpr ?_), hseated⟩
  · refine forall₂_comp ?_ (filter_lays (laidBases_ok run.laid)) hdirect.flip
    intro b x p hb hp
    refine ⟨⟨x.id, baseId_eq_ok.mp hb.id⟩, ?_, hp.isVirtual.trans hb.isVirtual, ?_⟩
    · rw [hp.layout]
      exact hb.layoutOf_eq hr
    · rw [hp.layout]
      exact hp.size
  · have hheld := layoutWithin_listsHeld env hr n
    have htype : ∀ v ∈ LaidBase.virtualBases run.bases, ¬ env.registry.IsTypedef v :=
      fun v hv => (virtualBases_held hr hheld hu run.laid hv).2
    refine ((List.forall₂_and_left _ _).mpr ⟨htype, hshared⟩).imp ?_
    rintro v p ⟨ht, x, hx, hp⟩
    refine ⟨⟨v, strip_of_not_typedef fun id hid => ?_⟩, ?_, hp.isVirtual.trans hx.isVirtual, ?_⟩
    · cases hid
      exact ht
    · rw [hp.layout]
      exact layoutOf_of_ok hr hx.layout
    · rw [hp.layout]
      exact hp.size

theorem layoutOf_takes (hr : env.registry.Founded)
    (hd : env.registry.bodyOf? x = some (owner, a)) (hu : a.kind.isUnion = false)
    (hl : env.layoutOf x = (.ok l : Except LayoutError Layout)) : ∃ seats,
      List.Forall₂ env.Takes (env.seatedBases x l) seats ∧ l.bases = seats.map Seat.entry ∧
      l.slots.Perm (env.ownSlots owner a l ++ seats.flatMap Seat.slots) := by
  obtain ⟨n, trail, run, rfl⟩ := recordRun_of_layoutOf hr hd hu hl
  obtain ⟨seats, htakes, hseated⟩ := run.takes hr hu
  refine ⟨seats, ?_, hseated.bases, ?_⟩
  · rw [seatedBases_eq hd hu]
    exact htakes
  · rw [← hseated.slots]
    exact List.mergeSort_perm _ _

end LayoutEnv

end TypeLayout
