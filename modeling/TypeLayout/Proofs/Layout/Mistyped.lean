import TypeLayout.Proofs.Layout.Inheritance
import TypeLayout.Proofs.Layout.Reached
import TypeLayout.Proofs.Layout.Unveiling
/-! Bit-fields of types that hold no bits. A struct, class or union with such a bit-field has no
layout; if everything else in it has its place, the first of them is reported. -/

namespace TypeLayout

namespace Registry

def holdsBits (r : Registry) (d : Descriptor) : Bool :=
  match r.strip d with
  | .fundamental kind => kind.isIntegral
  | .enum _ => true
  | .named id => r.tagOf? id == some .enum
  | _ => false

def isMistyped (r : Registry) (x : Member) : Bool := x.bitWidth.isSome && !r.holdsBits x.type

/-- The aggregate without its mistyped bit-fields. -/
def wellTyped (r : Registry) (a : Aggregate) : Aggregate :=
  { a with members := a.members.filter (!r.isMistyped ·) }

variable {r : Registry} {x y : Member} {a : Aggregate}

theorem isMistyped_iff :
    r.isMistyped x = true ↔ (∃ w, x.bitWidth = some w) ∧ r.holdsBits x.type = false := by
  simp [isMistyped, Option.isSome_iff_exists]

theorem wellTyped_members (h : a.members.find? r.isMistyped = some y) : ∃ before after,
    a.members = before ++ y :: after ∧ r.isMistyped y = true ∧
      (r.wellTyped a).members = before ++ after.filter (!r.isMistyped ·) := by
  obtain ⟨hy, before, after, hmembers, hbefore⟩ := List.find?_eq_some_iff_append.mp h
  refine ⟨before, after, hmembers, hy, ?_⟩
  unfold wellTyped
  dsimp only
  rw [hmembers, List.filter_append, List.filter_eq_self.mpr hbefore,
    List.filter_cons_of_neg (by simp [hy])]

theorem memberWeight_filter_le (p : Member → Bool) (xs : List Member) :
    memberWeight (xs.filter p) ≤ memberWeight xs := by
  induction xs with
  | nil => exact Nat.le_refl _
  | cons x xs ih =>
    obtain ⟨name, d, w⟩ := x
    rw [List.filter_cons]
    split
    · simp only [memberWeight]
      omega
    · simp only [memberWeight]
      omega

theorem Fits.wellTyped {trail : Trail} {n : Nat} (h : r.Fits n trail (.aggregate a)) :
    r.Fits n trail (.aggregate (r.wellTyped a)) := by
  obtain ⟨k, hk, hlt⟩ := h
  refine ⟨k, fun id hid => hk id ?_, ?_⟩
  · rw [mem_mentions_aggregate] at hid ⊢
    rcases hid with ⟨x, hx, hid⟩ | hid
    · exact Or.inl ⟨x, (List.mem_filter.mp hx).1, hid⟩
    · exact Or.inr hid
  · have hle := memberWeight_filter_le (!r.isMistyped ·) a.members
    have hbases : (r.wellTyped a).bases = a.bases := rfl
    have hmembers : (r.wellTyped a).members = a.members.filter (!r.isMistyped ·) := rfl
    rw [weight_aggregate] at hlt ⊢
    rw [hbases, hmembers]
    omega

end Registry

open Registry

namespace LayoutEnv

variable {env : LayoutEnv} {g : Descend (Except LayoutError)} {trail : Trail} {a : Aggregate}
  {x y : Member} {d : Descriptor} {owner : String} {l : Layout} {n : Nat}

def mistyped (env : LayoutEnv) (x : Member) : LayoutError :=
  match env.registry.strip x.type with
  | .named id =>
    if (env.registry.definition? id).isSome then env.unsupported x
    else .incompleteType (env.registry.displayName id) (some x.name)
  | _ => env.unsupported x

theorem mistyped_of_complete (h : ∀ id, env.registry.strip x.type = .named id →
    env.registry.definition? id ≠ none) : env.mistyped x = env.unsupported x := by
  unfold mistyped
  split
  next id hs => exact if_pos (Option.isSome_iff_ne_none.mpr (h id hs))
  next => rfl

theorem mistyped_of_incomplete {id : TypeId} (hs : env.registry.strip x.type = .named id)
    (h : env.registry.definition? id = none) :
    env.mistyped x = .incompleteType (env.registry.displayName id) (some x.name) := by
  unfold mistyped
  rw [hs]
  exact if_neg (by simp [h])

theorem storageUnit_mistyped (hx : env.registry.isMistyped x = true) :
    env.storageUnit x = .error (env.mistyped x) := by
  have hbits := (isMistyped_iff.mp hx).2
  unfold holdsBits at hbits
  unfold storageUnit bitFieldKind mistyped
  cases hs : env.registry.strip x.type with
  | fundamental kind =>
    simp only [hs] at hbits
    exact if_neg (Bool.eq_false_iff.mp hbits)
  | enum e =>
    rw [hs] at hbits
    cases hbits
  | named id =>
    simp only [hs] at hbits
    dsimp only
    cases hd : env.registry.definition? id with
    | none =>
      unfold definition
      rw [hd]
      rfl
    | some def' =>
      rw [definition_eq_ok.mpr hd]
      cases def' with
      | enum e =>
        rw [tagOf?_of_definition? hd] at hbits
        cases hbits
      | aggregate b => rfl
      | typedef t => rfl
  | pointer t => rfl
  | array t count => rfl
  | aggregate b => rfl

theorem fittingUnit_mistyped (hx : env.registry.isMistyped x = true) (w : Nat) :
    env.fittingUnit x w = .error (env.mistyped x) := by
  unfold fittingUnit
  rw [storageUnit_mistyped hx]
  rfl

theorem overlayMember_mistyped (hx : env.registry.isMistyped x = true) (o : Overlay) :
    env.overlayMember g trail x o = .error (env.mistyped x) := by
  obtain ⟨⟨w, hw⟩, -⟩ := isMistyped_iff.mp hx
  unfold overlayMember
  rw [hw]
  simp only [ofExcept_eq, fittingUnit_mistyped hx]
  rfl

theorem placeMember_mistyped (hx : env.registry.isMistyped x = true) (d : Draft) :
    env.placeMember g trail owner x d = .error (env.mistyped x) := by
  obtain ⟨⟨w, hw⟩, -⟩ := isMistyped_iff.mp hx
  rw [placeMember_plain, hw]
  simp only [fittingUnit_mistyped hx]
  rfl

theorem overlayMembers_mistyped {before after : List Member} {o o' : Overlay}
    (hx : env.registry.isMistyped x = true)
    (h : env.overlayMembers g trail before o = .ok o') :
    env.overlayMembers g trail (before ++ x :: after) o = .error (env.mistyped x) := by
  rw [overlayMembers_append, h]
  change env.overlayMember g trail x o' >>= _ = _
  rw [overlayMember_mistyped hx]
  rfl

theorem placeMembers_mistyped {before after : List Member} {d d' : Draft}
    (hx : env.registry.isMistyped x = true)
    (h : env.placeMembers g trail owner before d = .ok d') :
    env.placeMembers g trail owner (before ++ x :: after) d = .error (env.mistyped x) := by
  rw [placeMembers_append, h]
  change env.placeMember g trail owner x d' >>= _ = _
  rw [placeMember_mistyped hx]
  rfl

theorem overlayMembers_separators {xs : List Member} (o : Overlay)
    (hs : ∀ x ∈ xs, x.isSeparator = true)
    (hu : ∀ x ∈ xs, ∃ unit, env.storageUnit x = .ok unit) :
    env.overlayMembers g trail xs o = .ok o := by
  induction xs with
  | nil => rfl
  | cons x xs ih =>
    obtain ⟨hx, hxs⟩ := List.forall_mem_cons.mp hs
    obtain ⟨⟨unit, hunit⟩, hunits⟩ := List.forall_mem_cons.mp hu
    have hw : x.bitWidth = some 0 := by simpa [Member.isSeparator] using hx
    have hfits : env.fittingUnit x 0 = .ok unit := by
      unfold fittingUnit
      rw [hunit]
      rfl
    have hmember : env.overlayMember g trail x o = .ok o := by
      unfold overlayMember
      rw [hw]
      simp only [ofExcept_eq, hfits]
      rfl
    change env.overlayMember g trail x o >>= _ = _
    rw [hmember]
    exact ih hxs hunits

theorem record_refused {bases : List LaidBase} {based : Draft} {e : LayoutError}
    (hl : env.laidBases g trail a.bases = .ok bases)
    (hp : env.placeBases owner bases (env.openDraft owner (a.flagsOver bases) bases) = .ok based)
    (hm : env.placeMembers g trail owner a.members based = .error e) :
    env.record g trail a owner = .error e := by
  rw [record_plain]
  refine bind_eq_error.mpr (Or.inr ⟨_, hl, bind_eq_error.mpr (Or.inr ⟨_, hp, ?_⟩)⟩)
  exact bind_eq_error.mpr (Or.inl hm)

def Separates (env : LayoutEnv) (a : Aggregate) : Prop :=
  ∀ x ∈ a.members, x.isSeparator = true → ∃ unit, env.storageUnit x = .ok unit

theorem overlayMembers_rest {before after : List Member}
    (hsep : env.Separates { a with members := before ++ after })
    (h : env.union g trail { a with members := before ++ after } owner = .ok l) :
    ∃ o, env.overlayMembers g trail before {} = .ok o := by
  rcases union_ok h with ⟨hall, -⟩ | ⟨-, o, ho, -⟩
  · have hs : ∀ x ∈ before, x.isSeparator = true := fun x hx =>
      List.all_eq_true.mp hall x (List.mem_append_left _ hx)
    have hu : ∀ x ∈ before, ∃ unit, env.storageUnit x = .ok unit := fun x hx =>
      hsep x (List.mem_append_left _ hx) (hs x hx)
    exact ⟨_, overlayMembers_separators _ hs hu⟩
  · rw [overlayMembers_append] at ho
    obtain ⟨o', ho', -⟩ := bind_eq_ok.mp ho
    exact ⟨o', ho'⟩

theorem aggregate_mistyped (hfirst : a.members.find? env.registry.isMistyped = some y)
    (hplain : a.kind.isUnion = true → a.members.all (·.isSeparator) = false)
    (hsep : env.Separates (env.registry.wellTyped a))
    (h : env.aggregate g trail (env.registry.wellTyped a) owner = .ok l) :
    env.aggregate g trail a owner = .error (env.mistyped y) := by
  obtain ⟨before, after, hmembers, hy, hrest⟩ := wellTyped_members hfirst
  have hkind : (env.registry.wellTyped a).kind = a.kind := rfl
  rw [aggregate_plain, hkind] at h
  rw [aggregate_plain]
  split at h
  next hu =>
    rw [if_pos hu, union_plain, if_neg (Bool.eq_false_iff.mp (hplain hu)), hmembers]
    have hwhole : env.registry.wellTyped a =
        { a with members := before ++ after.filter (!env.registry.isMistyped ·) } := by
      rw [← hrest]
      rfl
    rw [hwhole] at hsep h
    obtain ⟨o, ho⟩ := overlayMembers_rest hsep h
    rw [overlayMembers_mistyped hy ho]
    rfl
  next hu =>
    rw [if_neg hu]
    obtain ⟨run, -⟩ := record_ok h
    -- whether the class is empty may differ, but not whether it is dynamic
    have hplaced := run.placed
    have hfilled := run.members
    rw [hrest, placeMembers_append] at hfilled
    obtain ⟨d, hd, -⟩ := bind_eq_ok.mp hfilled
    refine record_refused run.laid hplaced ?_
    rw [hmembers]
    exact placeMembers_mistyped hy hd

theorem not_isMistyped_of_aggregate (hx : x ∈ a.members)
    (hplain : a.kind.isUnion = true → a.members.all (·.isSeparator) = false)
    (h : env.aggregate g trail a owner = .ok l) : env.registry.isMistyped x = false := by
  obtain ⟨before, after, hmembers⟩ := List.append_of_mem hx
  by_contra hm
  have hm : env.registry.isMistyped x = true := by simpa using hm
  rw [aggregate_plain] at h
  split at h
  next hu =>
    rcases union_ok h with ⟨hall, -⟩ | ⟨-, o, ho, -⟩
    · rw [hplain hu] at hall
      cases hall
    · rw [hmembers, overlayMembers_append] at ho
      obtain ⟨o', ho', -⟩ := bind_eq_ok.mp ho
      rw [← overlayMembers_append, overlayMembers_mistyped hm ho'] at ho
      cases ho
  next =>
    obtain ⟨run, -⟩ := record_ok h
    have hfilled := run.members
    rw [hmembers, placeMembers_append] at hfilled
    obtain ⟨d, hd, -⟩ := bind_eq_ok.mp hfilled
    rw [← placeMembers_append, placeMembers_mistyped hm hd] at hfilled
    cases hfilled

structure LaidOut (env : LayoutEnv) (a : Aggregate) : Prop where
  layout : ∃ l, env.layoutOf (.aggregate a) = (.ok l : Except LayoutError Layout)
  separates : env.Separates a

theorem layoutOf_not_ok (hr : env.registry.Founded)
    (hd : env.registry.bodyOf? d = some (owner, a)) (hx : x ∈ a.members)
    (hm : env.registry.isMistyped x = true)
    (hplain : a.kind.isUnion = true → a.members.all (·.isSeparator) = false) :
    env.layoutOf d ≠ (.ok l : Except LayoutError Layout) := by
  intro h
  obtain ⟨n, trail, hagg⟩ := aggregate_of_layoutOf hr hd h
  rw [not_isMistyped_of_aggregate hx hplain hagg] at hm
  cases hm

theorem layoutOf_first_mistyped (hr : env.registry.Founded)
    (hd : env.registry.bodyOf? d = some (owner, a))
    (hfirst : a.members.find? env.registry.isMistyped = some y)
    (hplain : a.kind.isUnion = true → a.members.all (·.isSeparator) = false)
    (h : env.LaidOut (env.registry.wellTyped a)) :
    env.layoutOf d = (.error (env.mistyped y) : Except LayoutError Layout) := by
  obtain ⟨n, trail, hf, heq, htrail⟩ := layoutOf_eq_aggregate hr hd
  obtain ⟨l, hl⟩ := h.layout
  obtain ⟨m, trail', hrest⟩ := aggregate_of_layoutOf hr (bodyOf?_inline _ _) hl
  obtain ⟨l', hl'⟩ := aggregate_ok_of_owner owner (aggregate_finished hr trail hrest)
  -- the class is not inside itself, for what is inside the rest is laid out and the class is not
  have hclear : ∀ c, env.registry.Contains (.aggregate (env.registry.wellTyped a)) c →
      Clear env.registry trail c := by
    intro c hc f hmem hreach
    obtain ⟨l'', hl''⟩ := layoutOf_reached hr hl (hc.to_reflTransGen.trans hreach)
    rw [htrail f hmem] at hl''
    exact layoutOf_not_ok hr hd (List.mem_of_find?_eq_some hfirst) (List.find?_some hfirst)
      hplain hl''
  rw [heq]
  exact aggregate_mistyped hfirst hplain h.separates
    (aggregate_of_layoutOfs hr hf.wellTyped hclear hl')

/-- A class with a mistyped bit-field, a union of separators aside, is not laid out. If the rest of
it is, the first mistyped bit-field is reported: its type is unsupported, or incomplete if it is
declared only. -/
theorem layoutOf_mistyped_refused (hb : env.registry.Built)
    (hd : env.registry.bodyOf? d = some (owner, a)) (hx : x ∈ a.members)
    (hm : env.registry.isMistyped x = true)
    (hplain : a.kind.isUnion = true → a.members.all (·.isSeparator) = false) :
    (∃ e, env.layoutOf d = (.error e : Except LayoutError Layout)) ∧
    (env.LaidOut (env.registry.wellTyped a) → ∃ y,
      a.members.find? env.registry.isMistyped = some y ∧
      ((∀ id, env.registry.strip y.type = .named id → env.registry.definition? id ≠ none) →
        env.layoutOf d = (.error (.unsupportedBitField y.name (env.registry.typeName y.type)) :
          Except LayoutError Layout)) ∧
      ∀ id, env.registry.strip y.type = .named id → env.registry.definition? id = none →
        env.layoutOf d = (.error (.incompleteType (env.registry.displayName id) (some y.name)) :
          Except LayoutError Layout)) := by
  have hr := hb.wellFormed.toFounded
  constructor
  · cases h : (env.layoutOf d : Except LayoutError Layout) with
    | ok l => exact absurd h (layoutOf_not_ok hr hd hx hm hplain)
    | error e => exact ⟨e, rfl⟩
  · intro hrest
    obtain ⟨y, hfirst⟩ := Option.isSome_iff_exists.mp (List.find?_isSome.mpr ⟨x, hx, hm⟩)
    have herror := layoutOf_first_mistyped hr hd hfirst hplain hrest
    refine ⟨y, hfirst, fun hcomplete => ?_, fun id hs hdeclared => ?_⟩
    · rw [herror, mistyped_of_complete hcomplete]
      rfl
    · rw [herror, mistyped_of_incomplete hs hdeclared]

def sample : Aggregate :=
  ⟨.structType, some "Sample", [⟨"count", .fundamental .int, none⟩, ⟨"ratio", .named ⟨1⟩, some 4⟩,
    ⟨"", .fundamental .int, some 0⟩], [], []⟩

def pending : Aggregate :=
  ⟨.structType, some "Pending", [⟨"bits", .named ⟨0⟩, some 3⟩], [], []⟩

def gap : Aggregate := ⟨.unionType, some "Gap", [⟨"", .fundamental .float, some 0⟩], [], []⟩

def ratios : LayoutEnv where
  registry := (empty.alloc .global "Later" (.forward (.aggregate .structType))).2.adding
    [("Real", .typedef (.fundamental .float)), ("Sample", .aggregate sample),
      ("Pending", .aggregate pending), ("Gap", .aggregate gap)]
  machine := Profile.lp64.machine
  policy := .itaniumBaseline

theorem ratios_built : ratios.registry.Built := by
  have hdeclare : empty.declare .global "Later" (.aggregate .structType) =
      .ok (empty.alloc .global "Later" (.forward (.aggregate .structType))) := by
    rfl
  exact (Built.declare .empty (by decide) hdeclare).adding (by decide)

theorem sample_refused : ratios.registry.Built ∧
    ratios.registry.bodyOf? (.named ⟨2⟩) = some ("Sample", sample) ∧
    ratios.registry.isMistyped ⟨"ratio", .named ⟨1⟩, some 4⟩ = true ∧
    ratios.LaidOut (ratios.registry.wellTyped sample) ∧
    ratios.layoutOf (.named ⟨2⟩) =
      (.error (.unsupportedBitField "ratio" "Real") : Except LayoutError Layout) := by
  have hd : ratios.registry.bodyOf? (.named ⟨2⟩) = some ("Sample", sample) := by rfl
  have hm : ratios.registry.isMistyped ⟨"ratio", .named ⟨1⟩, some 4⟩ = true := by rfl
  have hrest : ratios.LaidOut (ratios.registry.wellTyped sample) := by
    refine ⟨⟨{ Layout.scalar 4 .four with fields := [⟨"count", "int", 0, 4, .four, .whole⟩] },
      by decide +kernel⟩, fun x hx hs => ?_⟩
    have hx : x ∈ [⟨"count", .fundamental .int, none⟩, ⟨"", .fundamental .int, some 0⟩] := hx
    rcases List.mem_pair.mp hx with rfl | rfl
    · cases hs
    · exact ⟨_, rfl⟩
  have hplain : sample.kind.isUnion = true → sample.members.all (·.isSeparator) = false := by
    decide
  obtain ⟨y, hy, herror, -⟩ := (layoutOf_mistyped_refused ratios_built hd
    (List.mem_cons_of_mem _ List.mem_cons_self) hm hplain).2 hrest
  obtain rfl : (⟨"ratio", .named ⟨1⟩, some 4⟩ : Member) = y := Option.some.inj hy
  refine ⟨ratios_built, hd, hm, hrest, herror fun id hs => ?_⟩
  cases hs

/-- A bit-field of a struct that is declared only is reported as incomplete, and the zero-width
bit-field of a union of nothing else is not reported. -/
theorem pending_incomplete_and_gap_laid_out : ratios.registry.Built ∧
    ratios.registry.isMistyped ⟨"bits", .named ⟨0⟩, some 3⟩ = true ∧
    ratios.LaidOut (ratios.registry.wellTyped pending) ∧
    ratios.layoutOf (.named ⟨3⟩) =
      (.error (.incompleteType "struct Later" (some "bits")) : Except LayoutError Layout) ∧
    ratios.registry.isMistyped ⟨"", .fundamental .float, some 0⟩ = true ∧
    ratios.layoutOf (.named ⟨4⟩) = (.ok .emptyUnion : Except LayoutError Layout) := by
  have hrest : ratios.LaidOut (ratios.registry.wellTyped pending) := by
    refine ⟨⟨{ Layout.scalar 1 .one with nvSize := 0, flags := { empty := true } },
      by decide +kernel⟩, ?_⟩
    intro x hx
    cases hx
  exact ⟨ratios_built, by rfl, hrest, by decide +kernel, by rfl, by rfl⟩

end LayoutEnv

end TypeLayout
