import TypeLayout.Proofs.Source.Settled
import TypeLayout.Proofs.Source.Upkeep
/-! Units without arrays. Both passes keep the registry sound: a record is defined only after the
types of its members and its bases were found complete, so containment leads to definitions made
before. Whatever a unit defines is laid out unless something in it does not fit. -/

namespace TypeLayout

open Registry

def settlement : Upkeep where
  Holds := Sound
  Inside _ := True
  Answer := Settled
  Member _ := Holdable
  Base r b := r.Derivable b.type
  arrays := False

theorem settlement_lawful : settlement.Lawful where
  toDurable := sound_durable
  enter _ _ _ := trivial
  defineEnum {_ _ _ _ e _} h hvoid hd := h.holds.define h.lt (d := .enum e) hvoid hd
  defineTypedef {_ _ _ _ t _} h ht hd := h.holds.define h.lt (d := .typedef t) ht hd
  defineRecord {_ _ _ _ a _ _ _} h hbody _ _ hd := h.holds.define h.lt (d := .aggregate a)
    (holdable_aggregate h.holds.toFounded hbody.members hbody.bases) hd
  fundamental _ kind := settled_fundamental kind
  resolveName hr h := by
    rcases hr.resolveName_cases h with ⟨id, rfl, hid⟩ | ⟨kind, rfl⟩
    · exact settled_named hid
    · exact settled_fundamental kind
  named := settled_named
  enum _ _ hvoid := settled_enum hvoid
  pointer h := h.pointer
  array _ harrays := harrays.elim
  aggregate hr hbody :=
    settled_aggregate (holdable_aggregate hr.toFounded hbody.members hbody.bases)
  member hr hd hc := hr.holdable_checkMember hd hc
  base hr h := hr.derivable_resolveBase h
  -- nothing resolved so far is lost while the members declare and define types of their own
  growsMember hr hr' hg hd := hg.holdable hr.toFounded hr'.toFounded hd
  growsBase hr hr' hg hb := hg.derivable hr.toFounded hr'.toFounded hb

namespace SourceUnit

theorem resolve_sound {u : SourceUnit} (hu : u.arrayFree = true) :
    u.resolve.2.registry.Sound :=
  resolve_upkeep settlement_lawful trivial (Or.inr hu) withPrelude_sound

/-- Whatever the resolution of a unit without arrays came to, every record that it defined is laid
out, unless a bit-field in it has no storage unit or a size in it is beyond 64 bits. -/
theorem resolved_laid_out {u : SourceUnit} (hu : u.arrayFree = true) {id : TypeId}
    (hd : id ∈ u.resolve.2.registry.definedAggregates) (p : Profile) (policy : BasePolicy) :
    (∃ l, LayoutEnv.layoutOf ⟨u.resolve.2.registry, p.machine, policy⟩ (.named id) =
      (.ok l : Except LayoutError Layout)) ∨
    ∃ e, LayoutEnv.layoutOf ⟨u.resolve.2.registry, p.machine, policy⟩ (.named id) =
      (.error e : Except LayoutError Layout) ∧ Misfit e := by
  have hsound := resolve_sound hu
  obtain ⟨a, ha⟩ := mem_definedAggregates.mp hd
  have hsturdy : u.resolve.2.registry.Sturdy (.named id) := by
    refine hsound.sturdy_named ha fun ⟨t, ht⟩ => ?_
    rw [ha] at ht
    cases ht
  have hfails : FailsBy Misfit
      (LayoutEnv.layoutOf ⟨u.resolve.2.registry, p.machine, policy⟩ (.named id)) :=
    LayoutEnv.layoutOf_misfit hsound.toFounded hsturdy
  cases hl : (LayoutEnv.layoutOf ⟨u.resolve.2.registry, p.machine, policy⟩ (.named id) :
      Except LayoutError Layout) with
  | ok l => exact Or.inl ⟨l, rfl⟩
  | error e => exact Or.inr ⟨e, rfl, hfails e hl⟩

def figure : String := "Figure"

/-- A record that cannot be completed, and one derived through a typedef that holds another in
place, with a pointer back to it. -/
def figures : SourceUnit where
  declarations :=
    [.forward .structTag "Opaque",
     .record ⟨.structType, some "Broken", [], [⟨"data", .named "Opaque", none⟩], [], []⟩,
     .record ⟨.structType, some "Shape", [], [⟨"owner", .pointer (.named "Circle"), none⟩],
       ["area"], []⟩,
     .typedef figure (.named "Shape"),
     .record ⟨.classType, some "Circle", [⟨figure, false⟩],
       [⟨"center", .record ⟨.structType, none, [],
          [⟨"x", .fundamental "double", none⟩, ⟨"y", .fundamental "double", none⟩], [], []⟩, none⟩,
        ⟨"filled", .fundamental "unsigned int", some 1⟩], [], []⟩]

theorem figures_laid_out :
    figures.arrayFree = true ∧
    figures.resolve.1.errors = [.incompleteType "struct Opaque" (some "data")] ∧
    ⟨36⟩ ∈ figures.resolve.2.registry.definedAggregates ∧
    ((∃ l, LayoutEnv.layoutOf ⟨figures.resolve.2.registry, Profile.lp64.machine,
      .itaniumBaseline⟩ (.named ⟨36⟩) = (.ok l : Except LayoutError Layout)) ∨
    ∃ e, LayoutEnv.layoutOf ⟨figures.resolve.2.registry, Profile.lp64.machine,
      .itaniumBaseline⟩ (.named ⟨36⟩) = (.error e : Except LayoutError Layout) ∧ Misfit e) ∧
    (LayoutEnv.layoutOf ⟨figures.resolve.2.registry, Profile.lp64.machine, .itaniumBaseline⟩
      (.named ⟨36⟩) : Except LayoutError Layout).toOption.map (fun l =>
        (l.size, l.bases.map (·.offset), l.fields.map fun f => (f.name, f.offset))) =
      some (40, [0], [("center", 16), ("filled", 32)]) := by
  have hfree : figures.arrayFree = true := by decide
  have hmem : ⟨36⟩ ∈ figures.resolve.2.registry.definedAggregates := by decide +kernel
  exact ⟨hfree, by decide +kernel, hmem, resolved_laid_out hfree hmem .lp64 .itaniumBaseline,
    by decide +kernel⟩

end SourceUnit

end TypeLayout
