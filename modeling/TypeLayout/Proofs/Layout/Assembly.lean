import TypeLayout.Proofs.Layout.Rule
/-! Putting parts together with a limit on sizes. As long as nothing ends beyond 64 bits, a draft is
what the rule says; the rule's offsets only grow, so nothing before the end is refused if the end is
not. -/

namespace TypeLayout

/-- `x` succeeds if and only if `P` holds, and then with `a`. -/
def Answers {α : Type} (x : Except LayoutError α) (P : Prop) (a : α) : Prop :=
  ∀ b, x = .ok b ↔ P ∧ b = a

namespace Answers

variable {α β : Type} {P Q : Prop} {x : Except LayoutError α} {f : α → Except LayoutError β}
  {a : α} {b : β}

theorem ok (a : α) : Answers (.ok a : Except LayoutError α) True a := fun b => by
  rw [Except.ok.injEq, true_and, eq_comm]

theorem pure (a : α) : Answers (Pure.pure a : Except LayoutError α) True a := ok a

theorem noted (e : Layout.Event) : Answers (LayoutHost.note e : Except LayoutError Unit) True () :=
  ok ()

theorem guarded [Decidable P] (a : α) (e : LayoutError) :
    Answers (if P then .ok a else .error e) P a := by
  intro b
  split
  next h => rw [Except.ok.injEq, and_iff_right h, eq_comm]
  next h => exact ⟨fun he => (by cases he), fun he => absurd he.1 h⟩

theorem congr (h : Answers x P a) (hPQ : P ↔ Q) : Answers x Q a := fun b => by
  rw [h b, hPQ]

theorem bind (hx : Answers x P a) (hf : P → Answers (f a) Q b) : Answers (x >>= f) (P ∧ Q) b := by
  intro c
  rw [bind_eq_ok]
  constructor
  · rintro ⟨a', ha', hc⟩
    obtain ⟨hP, rfl⟩ := (hx a').mp ha'
    obtain ⟨hQ, rfl⟩ := (hf hP c).mp hc
    exact ⟨⟨hP, hQ⟩, rfl⟩
  · rintro ⟨⟨hP, hQ⟩, rfl⟩
    exact ⟨a, (hx a).mpr ⟨hP, rfl⟩, (hf hP c).mpr ⟨hQ, rfl⟩⟩

theorem lift (h : Answers x P a) : Answers (ofExcept x : Except LayoutError α) P a := by
  rwa [ofExcept_eq]

theorem inMember (h : Answers x P a) (name : String) : Answers (inMember name x) P a := fun b => by
  rw [inMember_eq_ok, h b]

theorem eq_ok (h : Answers x P a) (hP : P) : x = .ok a := (h a).mpr ⟨hP, rfl⟩

end Answers

namespace Draft

theorem padding_padTo (d : Draft) (t : Nat) :
    (d.padTo t).padding = d.padding ++ Region.between d.offset t := by
  unfold padTo Region.between
  split
  · rfl
  · exact (List.append_nil _).symm

theorem hasBitFields_padTo (d : Draft) (t : Nat) : (d.padTo t).hasBitFields = d.hasBitFields := by
  unfold padTo
  split <;> rfl

theorem padTo_eq {d : Draft} {t : Nat} (h : d.offset ≤ t) :
    d.padTo t = { d with offset := t, padding := d.padding ++ Region.between d.offset t } := by
  unfold padTo Region.between
  split
  · rfl
  next hlt =>
    obtain rfl := Nat.le_antisymm h (Nat.le_of_not_lt hlt)
    rw [List.append_nil]

end Draft

namespace LayoutEnv

section Parts

variable {env : LayoutEnv} {ps qs : List Part} {c : Nat} {align : Alignment}

theorem le_stopOf (env : LayoutEnv) (ps : List Part) (c : Nat) : c ≤ env.stopOf ps c := by
  induction ps generalizing c with
  | nil => exact Nat.le_refl c
  | cons p ps ih => exact Nat.le_trans ((env.piece p).le_stop c) (ih _)

theorem stopOf_append : env.stopOf (ps ++ qs) c = env.stopOf qs (env.stopOf ps c) :=
  List.foldl_append

def Fit (env : LayoutEnv) : List Part → Nat → Prop
  | [], _ => True
  | p :: ps, c => (env.piece p).stop c < addressLimit ∧ Fit env ps ((env.piece p).stop c)

theorem fit_of_stopOf_lt (h : env.stopOf ps c < addressLimit) : env.Fit ps c := by
  induction ps generalizing c with
  | nil => trivial
  | cons p ps ih => exact ⟨Nat.lt_of_le_of_lt (env.le_stopOf ps _) h, ih h⟩

theorem fit_append : env.Fit (ps ++ qs) c ↔ env.Fit ps c ∧ env.Fit qs (env.stopOf ps c) := by
  induction ps generalizing c with
  | nil => simp only [List.nil_append, Fit, stopOf, List.foldl_nil, true_and]
  | cons p ps ih => exact (and_congr_right fun _ => ih).trans and_assoc.symm

end Parts

def Part.name : Part → String
  | .slot owner => owner
  | .base b => b.name
  | .member x _ => x.name

def extend (env : LayoutEnv) (d : Draft) (p : Part) : Draft :=
  let start := (p, (env.piece p).start d.offset)
  { d.put (env.piece p) (Part.name p) with
    fields := d.fields ++ env.fieldsAt start
    bases := d.bases ++ env.entriesAt start
    slots := d.slots ++ slotsAt start
    packer := match p with
      | .member _ _ => none
      | _ => d.packer }

def extendAll (env : LayoutEnv) (d : Draft) (ps : List Part) : Draft := ps.foldl env.extend d

section Extend

variable {env : LayoutEnv} {d : Draft} {p : Part} {ps qs : List Part}

theorem extendAll_append : env.extendAll d (ps ++ qs) = env.extendAll (env.extendAll d ps) qs :=
  List.foldl_append

theorem offset_extendAll : (env.extendAll d ps).offset = env.stopOf ps d.offset := by
  induction ps generalizing d with
  | nil => rfl
  | cons p ps ih => exact ih

theorem align_extendAll : (env.extendAll d ps).align = env.strictest ps d.align := by
  induction ps generalizing d with
  | nil => rfl
  | cons p ps ih => exact ih

theorem fields_extendAll :
    (env.extendAll d ps).fields = d.fields ++ (env.starts ps d.offset).flatMap env.fieldsAt := by
  induction ps generalizing d with
  | nil => exact (List.append_nil _).symm
  | cons p ps ih => exact ih.trans (List.append_assoc _ _ _)

theorem bases_extendAll :
    (env.extendAll d ps).bases = d.bases ++ (env.starts ps d.offset).flatMap env.entriesAt := by
  induction ps generalizing d with
  | nil => exact (List.append_nil _).symm
  | cons p ps ih => exact ih.trans (List.append_assoc _ _ _)

theorem slots_extendAll :
    (env.extendAll d ps).slots = d.slots ++ (env.starts ps d.offset).flatMap slotsAt := by
  induction ps generalizing d with
  | nil => exact (List.append_nil _).symm
  | cons p ps ih => exact ih.trans (List.append_assoc _ _ _)

theorem padding_extendAll :
    (env.extendAll d ps).padding = d.padding ++ env.gaps ps d.offset := by
  induction ps generalizing d with
  | nil => exact (List.append_nil _).symm
  | cons p ps ih =>
    refine ih.trans ?_
    change (d.padTo _).padding ++ _ = _
    rw [Draft.padding_padTo]
    exact List.append_assoc _ _ _

theorem hasBitFields_extendAll : (env.extendAll d ps).hasBitFields = d.hasBitFields := by
  induction ps generalizing d with
  | nil => rfl
  | cons p ps ih => exact ih.trans (Draft.hasBitFields_padTo d _)

end Extend

section Stages

variable {env : LayoutEnv} {g : Descend (Except LayoutError)} {trail : Trail} {a : Aggregate}
  {owner : String} {d : Draft} {Q : Descriptor → Prop} {y : Descriptor → Layout}

theorem addBase_answers (b : LaidBase) :
    Answers (d.addBase env.policy owner b.name b.layout b.isVirtual)
      ((env.piece (.base b)).stop d.offset < addressLimit) (env.extend d (.base b)) := by
  rw [Draft.addBase_eq]
  have hsame : env.extend d (.base b) =
      { d.put (env.policy.piece b.layout) b.name with
        slots := d.slots ++ Draft.movedSlots b.layout ((env.policy.piece b.layout).start d.offset)
          b.isVirtual
        bases := d.bases ++ [⟨b.name, (env.policy.piece b.layout).start d.offset,
          (env.policy.piece b.layout).size, b.isVirtual⟩] } := by
    simp [extend, piece, fieldsAt, entriesAt, slotsAt, Part.name]
  rw [hsame]
  exact .guarded _ _

theorem addField_answers (x : Member) (l : Layout) :
    Answers (d.addField owner x.name (env.registry.typeName x.type) l)
      ((env.piece (.member x l)).stop d.offset < addressLimit)
      (env.extend d (.member x l)) := by
  rw [Draft.addField_eq]
  have hsame : env.extend d (.member x l) =
      { d.put l.piece x.name with
        fields := d.fields ++ [⟨x.name, env.registry.typeName x.type, l.piece.start d.offset,
          l.size, l.align, .whole⟩]
        packer := none } := by
    simp [extend, piece, fieldsAt, entriesAt, slotsAt, Part.name]
  rw [hsame]
  exact .guarded _ _

theorem placeBases_answers (bs : List LaidBase) :
    Answers (env.placeBases owner bs d)
      (env.Fit ((bs.filter (!·.isVirtual)).map .base) d.offset)
      (env.extendAll d ((bs.filter (!·.isVirtual)).map .base)) := by
  induction bs generalizing d with
  | nil => exact .ok d
  | cons b bs ih =>
    unfold placeBases
    split
    next hv =>
      rw [List.filter_cons_of_neg (by simp [hv])]
      exact ih
    next hv =>
      have hfalse : b.isVirtual = false := by simpa using hv
      have hadd : Answers (d.addBase env.policy owner b.name b.layout false) _ _ :=
        hfalse ▸ addBase_answers b
      rw [List.filter_cons_of_pos (by simp [hv])]
      exact hadd.bind fun _ => ih

theorem placeMember_answers {x : Member} (hw : x.bitWidth = none)
    (hg : Answers (g (trail.enter x.name) x.type) (Q x.type) (y x.type)) :
    Answers (env.placeMember g trail owner x d)
      (Q x.type ∧ (env.piece (.member x (y x.type))).stop d.offset < addressLimit)
      (env.extend d (.member x (y x.type))) := by
  unfold placeMember
  rw [hw]
  have hnote : ∀ d' : Draft, Answers (do
      LayoutHost.note (.placedField owner x.name (d'.offset - (y x.type).size) (y x.type).size)
      Pure.pure d') (True ∧ True) d' := fun d' => (Answers.noted _).bind fun _ => .pure d'
  refine ((hg.inMember x.name).bind fun _ => (addField_answers x (y x.type)).lift.bind fun _ =>
    hnote _).congr ?_
  rw [and_true, and_true]

theorem placeMembers_answers {xs : List Member} (hw : ∀ x ∈ xs, x.bitWidth = none)
    (hg : ∀ x ∈ xs, Answers (g (trail.enter x.name) x.type) (Q x.type) (y x.type)) :
    Answers (env.placeMembers g trail owner xs d)
      ((∀ x ∈ xs, Q x.type) ∧ env.Fit (xs.map fun x => .member x (y x.type)) d.offset)
      (env.extendAll d (xs.map fun x => .member x (y x.type))) := by
  induction xs generalizing d with
  | nil =>
    exact (Answers.ok d).congr
      ⟨fun _ => ⟨fun x hx => (by cases hx), trivial⟩, fun _ => trivial⟩
  | cons x xs ih =>
    have hfirst : Answers (env.placeMember g trail owner x d) _ _ :=
      placeMember_answers (hw x List.mem_cons_self) (hg x List.mem_cons_self)
    have hrest := @ih (env.extend d (.member x (y x.type)))
      (fun z hz => hw z (List.mem_cons_of_mem x hz)) fun z hz => hg z (List.mem_cons_of_mem x hz)
    refine (hfirst.bind fun _ => hrest).congr ?_
    rw [List.forall_mem_cons]
    exact ⟨fun ⟨⟨hq, hs⟩, hqs, hf⟩ => ⟨⟨hq, hqs⟩, hs, hf⟩,
      fun ⟨⟨hq, hqs⟩, hs, hf⟩ => ⟨⟨hq, hs⟩, hqs, hf⟩⟩

theorem placeVirtualBases_answers {ids : List TypeId}
    (hg : ∀ id ∈ ids, Answers (g (trail.enter (env.registry.qualifiedName id)) (.named id))
      (Q (.named id)) (y (.named id))) :
    Answers (env.placeVirtualBases g trail owner ids d)
      ((∀ id ∈ ids, Q (.named id)) ∧ env.Fit ((env.virtualBasesBy y ids).map .base) d.offset)
      (env.extendAll d ((env.virtualBasesBy y ids).map .base)) := by
  induction ids generalizing d with
  | nil =>
    exact (Answers.ok d).congr
      ⟨fun _ => ⟨fun x hx => (by cases hx), trivial⟩, fun _ => trivial⟩
  | cons id ids ih =>
    let b : LaidBase := ⟨id, env.registry.qualifiedName id, true, y (.named id)⟩
    have hadd : Answers (d.addBase env.policy owner b.name b.layout true) _ _ := addBase_answers b
    have hrest := @ih (env.extend d (.base b)) fun z hz => hg z (List.mem_cons_of_mem id hz)
    refine ((hg id List.mem_cons_self).bind fun _ => hadd.lift.bind fun _ => hrest).congr ?_
    rw [List.forall_mem_cons]
    exact ⟨fun ⟨hq, hs, hqs, hf⟩ => ⟨⟨hq, hqs⟩, hs, hf⟩,
      fun ⟨⟨hq, hqs⟩, hs, hf⟩ => ⟨hq, hs, hqs, hf⟩⟩

theorem laidBases_answers {bs : List BaseSpec}
    (hb : ∀ b ∈ bs, ∃ id, env.registry.strip b.type = .named id)
    (hg : ∀ b ∈ bs, ∀ id, env.registry.strip b.type = .named id →
      Answers (g (trail.enter (env.registry.qualifiedName id)) (.named id)) (Q (.named id))
        (y (.named id))) :
    Answers (env.laidBases g trail bs) (∀ b ∈ bs, Q (env.registry.strip b.type))
      (env.basesBy y bs) := by
  induction bs with
  | nil => exact (Answers.ok []).congr ⟨fun _ x hx => (by cases hx), fun _ => trivial⟩
  | cons b bs ih =>
    obtain ⟨id, hid⟩ := hb b List.mem_cons_self
    have hname : Answers (ofExcept (env.baseId b)) True id := by
      rw [baseId_eq_ok.mpr hid]
      exact .ok id
    have hrest := ih (fun z hz => hb z (List.mem_cons_of_mem b hz))
      fun z hz => hg z (List.mem_cons_of_mem b hz)
    have hcons : env.basesBy y (b :: bs) =
        ⟨id, env.registry.qualifiedName id, b.isVirtual, y (.named id)⟩ :: env.basesBy y bs := by
      simp only [basesBy, List.filterMap_cons, hid]
    rw [hcons, List.forall_mem_cons, hid]
    have hpush : ∀ first : LaidBase, Answers (do
        let rest ← env.laidBases g trail bs
        Pure.pure (first :: rest)) _ (first :: env.basesBy y bs) :=
      fun first => hrest.bind fun _ => .pure _
    refine (hname.bind fun _ => (hg b List.mem_cons_self id hid).bind fun _ => hpush _).congr ?_
    rw [true_and, and_true]

theorem openDraft_eq (flags : Flags) (bs : List LaidBase) :
    env.openDraft owner flags bs = env.extendAll { last := owner }
      (if flags.dynamic && (LaidBase.primary? bs).isNone then [.slot owner] else []) := by
  unfold openDraft
  dsimp only
  split
  · have hzero : env.machine.pointer.roundUp 0 = 0 := Alignment.roundUp_zero _
    simp [extendAll, extend, Draft.addSlot, Draft.put, Draft.padTo, piece, Piece.start, Piece.stop,
      fieldsAt, entriesAt, slotsAt, Part.name, hzero, Machine.pointerSize]
  · rfl

end Stages

end LayoutEnv

end TypeLayout
