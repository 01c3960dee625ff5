import TypeLayout.Proofs.Layout.Cycle
/-! What a type needs to be laid out. If everything below it is complete and containment below it
comes to an end, its layout can fail only where something does not fit. -/

namespace TypeLayout

open Relation (TransGen)

/-- A bit-field of a type or width that has no storage unit, or a size beyond 64 bits. -/
inductive Misfit : LayoutError → Prop
  | unsupportedBitField (member type : String) : Misfit (.unsupportedBitField member type)
  | invalidBitFieldWidth (member : String) (width maxBits : Nat) :
    Misfit (.invalidBitFieldWidth member width maxBits)
  | sizeOverflow (aggregate member : String) : Misfit (.sizeOverflow aggregate member)

theorem Misfit.inMember {e : LayoutError} (h : Misfit e) (name : String) :
    Misfit (e.inMember name) := by
  cases h with
  | unsupportedBitField => exact .unsupportedBitField _ _
  | invalidBitFieldWidth => exact .invalidBitFieldWidth _ _ _
  | sizeOverflow => exact .sizeOverflow _ _

namespace Registry

variable {r r' : Registry} {d x : Descriptor}

/-- What a layout asks of a type beside what it holds: names that it follows lead to definitions,
and there is something to take the size of. Arrays are left out, since an element may be empty. -/
def Ready (r : Registry) : Descriptor → Prop
  | .fundamental kind => kind ≠ .void
  | .pointer _ => True
  | .array _ _ => False
  | .enum e => e.underlying ≠ .void
  | .aggregate a =>
    (∀ x ∈ a.members, ∀ id, r.strip x.type = .named id → ∃ d, r.definition? id = some d) ∧
    ∀ b ∈ a.bases, ∃ id, r.strip b.type = .named id
  | .named id => ∃ d, r.definition? id = some d ∧ ∀ e, d = .enum e → e.underlying ≠ .void

/-- Everything that a type contains is ready. -/
abbrev Sturdy (r : Registry) (d : Descriptor) : Prop := r.Grounded r.Ready d

theorem GrowsTo.holds_of_ready (h : r.GrowsTo r') (hd : r.Ready d) (hx : r'.Holds d x) :
    r.Holds d x := by
  cases hx with
  | element => exact .element
  | member hm hw => exact .member hm hw
  | base hu hb => exact .base hu hb
  | target ht =>
    obtain ⟨def', hdef, -⟩ := hd
    have he := h.definition? hdef
    rw [ht] at he
    cases he
    exact .target hdef
  | body ha =>
    obtain ⟨def', hdef, -⟩ := hd
    have he := h.definition? hdef
    rw [ha] at he
    cases he
    exact .body hdef

theorem GrowsTo.ready (h : r.GrowsTo r') (hr : r.Founded) (hr' : r'.Founded)
    (hm : ∀ j ∈ d.mentions, j.index < r.size) (hd : r.Ready d) : r'.Ready d := by
  cases d with
  | aggregate a =>
    obtain ⟨hmembers, hbases⟩ := hd
    refine ⟨fun x hx id hid => ?_, fun b hb => ?_⟩
    · have hmx : ∀ j ∈ x.type.mentions, j.index < r.size :=
        fun j hj => hm j (mem_mentions_aggregate.mpr (Or.inl ⟨x, hx, hj⟩))
      rw [h.strip_eq hr hr' hmx] at hid
      obtain ⟨def', hdef⟩ := hmembers x hx id hid
      exact ⟨def', h.definition? hdef⟩
    · have hmb : ∀ j ∈ b.type.mentions, j.index < r.size :=
        fun j hj => hm j (mem_mentions_aggregate.mpr (Or.inr ⟨b, hb, hj⟩))
      rw [h.strip_eq hr hr' hmb]
      exact hbases b hb
  | named id =>
    obtain ⟨def', hdef, he⟩ := hd
    exact ⟨def', h.definition? hdef, he⟩
  | _ => exact hd

theorem GrowsTo.sturdy (h : r.GrowsTo r') (hr : r.Founded) (hr' : r'.Founded)
    (hm : ∀ j ∈ d.mentions, j.index < r.size) (hd : r.Sturdy d) : r'.Sturdy d := by
  induction hd with
  | intro hd _ ih =>
    refine .intro (h.ready hr hr' hm hd) fun x hx => ?_
    have hx := h.holds_of_ready hd hx
    exact ih x hx (hr.reaches_mentions (.single hx) hm)

end Registry

open Registry

namespace LayoutEnv

variable {env : LayoutEnv} {trail : Trail} {d : Descriptor} {n : Nat}

theorem fundamental_misfit {kind : Fundamental} (h : kind ≠ .void) :
    FailsBy Misfit (env.fundamental kind) := by
  unfold fundamental
  split
  next => exact .ok _
  next he => exact absurd ((env.machine.extent?_eq_none_iff kind).mp he) h

theorem bitFieldKind_misfit {x : Member}
    (h : ∀ id, env.registry.strip x.type = .named id →
      ∃ d, env.registry.definition? id = some d) :
    FailsBy Misfit (env.bitFieldKind x) := by
  unfold bitFieldKind
  split
  next => exact .ok _
  next => exact .ok _
  next id hs =>
    obtain ⟨d, hd⟩ := h id hs
    rw [definition_eq_ok.mpr hd]
    split
    next => exact .ok _
    next => exact .error (.unsupportedBitField _ _)
    next he => cases he
  next => exact .error (.unsupportedBitField _ _)

theorem fittingUnit_misfit {x : Member} {width : Nat}
    (h : ∀ id, env.registry.strip x.type = .named id →
      ∃ d, env.registry.definition? id = some d) :
    FailsBy Misfit (env.fittingUnit x width) :=
  fittingUnit_failsBy (bitFieldKind_misfit h) (.unsupportedBitField _ _)
    fun _ => .invalidBitFieldWidth _ _ _

theorem baseId_misfit {b : BaseSpec} (h : ∃ id, env.registry.strip b.type = .named id) :
    FailsBy Misfit (env.baseId b) := by
  obtain ⟨id, hid⟩ := h
  rw [baseId_eq_ok.mpr hid]
  exact .ok _

/-- Below a sturdy type of which nothing is in progress, nothing is missing and nothing recurs. -/
theorem layoutWithin_misfit (hr : env.registry.Founded) (hf : env.registry.Fits n trail d)
    (hc : Clear env.registry trail d) (hd : env.registry.Sturdy d) :
    FailsBy Misfit (env.layoutWithin n trail d) := by
  induction n generalizing trail d with
  | zero => exact absurd hf not_fits_zero
  | succ n ih =>
    have hheld := layoutWithin_listsHeld env hr n
    have hagg : ∀ {trail a owner}, env.registry.Fits (n + 1) trail (.aggregate a) →
        (∀ x, env.registry.Contains (.aggregate a) x → Clear env.registry trail x) →
        env.registry.Sturdy (.aggregate a) →
        FailsBy Misfit (env.aggregate (env.layoutWithin n) trail a owner) := by
      intro trail a owner hf hc hd
      obtain ⟨hmembers, hbases⟩ := hd.here
      refine Blames.aggregate ⟨fun name x hx e he => ?_,
        fun x hx _ _ => fittingUnit_misfit (hmembers x hx),
        fun _ b hb => baseId_misfit (hbases b hb), .sizeOverflow⟩
      have hin := hx.contained hr hheld
      have hmisfit := ih (hx.fits hr hheld hf) ((hc x hin).enter name)
        (hd.reached hin.to_reflTransGen) e he
      exact ⟨hmisfit, hmisfit.inMember name⟩
    change FailsBy _ (env.layoutStep (env.layoutWithin n) trail d)
    cases d with
    | fundamental kind => exact .lift (fundamental_misfit hd.here)
    | pointer d => exact .ok _
    | array x count => exact absurd hd.here id
    | enum e => exact .lift (fundamental_misfit hd.here)
    | aggregate a => exact hagg hf (fun x hx => hc.reached hx.to_reflTransGen) hd
    | named id =>
      obtain ⟨def', hdef, he⟩ := hd.here
      refine .bind (.lift ?_) fun d' hd' => ?_
      · rw [definition_eq_ok.mpr hdef]
        exact .ok _
      · rw [ofExcept_eq, definition_eq_ok, hdef] at hd'
        cases hd'
        cases def' with
        | typedef t =>
          have ht : env.registry.Holds (.named id) t := .target hdef
          exact ih (hf.typedef hr hdef) (hc.reached (.single ht)) (hd.held ht)
        | enum e => exact .lift (fundamental_misfit (he e rfl))
        | aggregate a =>
          -- nothing in progress is met again, and below the body neither is the new frame
          have ha : env.registry.Holds (.named id) (.aggregate a) := .body hdef
          change FailsBy _ (env.namedAggregate (env.layoutWithin n) trail id a)
          rw [namedAggregate_plain, hc.find?]
          refine hagg (hf.body hdef hc.find?) (fun x hx => ?_) (hd.held ha)
          exact hc.push hd.not_contains_self (TransGen.head ha hx)

theorem layoutOf_misfit (hr : env.registry.Founded) (hd : env.registry.Sturdy d) :
    FailsBy Misfit (env.layoutOf d) :=
  layoutWithin_misfit hr (env.registry.fits_layoutFuel d) (clear_nil _ d) hd

end LayoutEnv

end TypeLayout
