import Mathlib.Logic.Function.Iterate
import TypeLayout.Proofs.Source.Census
import TypeLayout.Proofs.Source.Enclosed
/-! Members that would hold a record that is still being defined. Arrays and typedefs around the
type of a member can alternate to any depth; the check of a member reads through them twice. What it
sees it refuses, and what it does not see it accepts. -/

namespace TypeLayout

open Descriptor Registry

theorem Descriptor.innermost_of_not_array {d : Descriptor} (h : d.isArray = false) :
    d.innermost = d := by
  cases d with
  | array element count => cases h
  | _ => rfl

theorem Descriptor.eq_named_of_id? {d : Descriptor} {id : TypeId} (h : d.id? = some id) :
    d = .named id := by
  cases d with
  | named j =>
    cases h
    rfl
  | _ => cases h

def Definition.members : Definition → List Member
  | aggregate a => a.members
  | _ => []

namespace Registry

variable {r r' : Registry} {d : Descriptor} {id : TypeId} {ids : List TypeId} {k : Nat}

def peel (r : Registry) (d : Descriptor) : Descriptor := r.strip d.innermost

theorem heldBy_eq (r : Registry) (d : Descriptor) : r.heldBy d = r.peel^[2] d := rfl

theorem peel_named (h : ¬ r.IsTypedef id) : r.peel (.named id) = .named id :=
  strip_of_not_typedef fun j hj => by
    cases hj
    exact h

theorem Founded.strip_strip (hr : r.Founded) (d : Descriptor) : r.strip (r.strip d) = r.strip d :=
  strip_of_not_typedef fun _ hj => hr.strip_not_typedef hj

theorem Founded.peel_strip (hr : r.Founded) (hs : (r.strip d).isArray = false) :
    r.peel (r.strip d) = r.strip d := by
  rw [peel, innermost_of_not_array hs, hr.strip_strip]

/-- Where no array is behind the typedefs, one reading is enough. -/
theorem Founded.peel_heldBy (hr : r.Founded) (hd : d.isArray = false)
    (hs : (r.strip d).isArray = false) : r.peel (r.heldBy d) = r.heldBy d := by
  have hheld : r.heldBy d = r.strip d := by
    rw [heldBy, innermost_of_not_array hd]
    exact hr.peel_strip hs
  rw [hheld]
  exact hr.peel_strip hs

theorem heldBy_of_peeled (hid : ¬ r.IsTypedef id) (hk : r.peel^[k] d = .named id)
    (hfixed : r.peel (r.heldBy d) = r.heldBy d) : r.heldBy d = .named id := by
  have hmore : r.peel^[k + 2] d = r.heldBy d := by
    rw [Function.iterate_add_apply, ← heldBy_eq]
    exact Function.iterate_fixed hfixed k
  rw [Nat.add_comm, Function.iterate_add_apply, hk] at hmore
  exact hmore.symm.trans (Function.iterate_fixed (peel_named hid) 2)

/-- An array behind typedefs counts as complete, whatever its elements are. -/
theorem requireComplete_of_array (hs : (r.strip d).isArray = true) (name : String) :
    r.requireComplete d name = .ok () := by
  unfold requireComplete
  cases ht : r.strip d with
  | array element count => rfl
  | _ => simp [ht, isArray] at hs

theorem checkMember_of_held (hid : id ∈ ids) (hheld : r.heldBy d = .named id) (name : String) :
    r.checkMember ids d name = .error (.cyclicAggregate (r.qualifiedName id) name) := by
  have hcycle : r.cycleIn ids (r.heldBy d) name =
      .error (.cyclicAggregate (r.qualifiedName id) name) := by
    rw [hheld]
    exact if_pos (List.contains_iff_mem.mpr hid)
  unfold checkMember
  rw [hcycle]
  rfl

/-- If it lies deeper, the member is accepted. -/
theorem checkMember_of_deeper (hr : r.Founded) (hdefining : r.Nominal ids)
    (hid : ¬ r.IsTypedef id) (hk : r.peel^[k] d = .named id) (hheld : r.heldBy d ≠ .named id)
    (name : String) : r.checkMember ids d name = .ok () := by
  have hfixed : r.peel (r.heldBy d) ≠ r.heldBy d :=
    fun hfixed => hheld (heldBy_of_peeled hid hk hfixed)
  -- no other record being defined is there either, for peeling would end with it
  have hcycle : r.cycleIn ids (r.heldBy d) name = .ok () := by
    unfold cycleIn
    split
    next j hj =>
      refine if_neg fun hin => hfixed ?_
      rw [hj]
      exact peel_named (hdefining j (List.contains_iff_mem.mp hin)).2
    next => rfl
  have hcomplete (hd : d.isArray = false) : r.requireComplete d name = .ok () := by
    by_cases hs : (r.strip d).isArray = true
    · exact requireComplete_of_array hs name
    · exact absurd (hr.peel_heldBy hd (Bool.eq_false_iff.mpr hs)) hfixed
  unfold checkMember
  rw [hcycle]
  change (if d.isArray = true then .ok () else r.requireComplete d name) = _
  split
  next => rfl
  next hd => exact hcomplete (Bool.eq_false_iff.mpr hd)

/-- No record has a member that, as far as members are checked, holds it. -/
structure SelfFree (r : Registry) : Prop where
  built : r.Built
  spares : ∀ {id a}, r.definition? id = some (.aggregate a) → ∀ x ∈ a.members,
    r.Spares [id] x.type

theorem SelfFree.growsTo (hr : r.SelfFree) (hr' : r'.Built) (hg : r.GrowsTo r')
    (hnew : ∀ id a, r'.definition? id = some (.aggregate a) →
      r.definition? id = some (.aggregate a) ∨
        r.Covers (.aggregate a) ∧ ∀ x ∈ a.members, r.Spares [id] x.type) : r'.SelfFree where
  built := hr'
  spares {id a} ha x hx := by
    have hbefore : r.Covers (.aggregate a) ∧ r.Spares [id] x.type := by
      rcases hnew id a ha with ha | ⟨hcovers, hspares⟩
      · exact ⟨fun j hj => hr.built.wellFormed.mention_lt ha hj, hr.spares ha x hx⟩
      · exact ⟨hcovers, hspares x hx⟩
    refine hbefore.2.growsTo hg hr.built.wellFormed.toFounded hr'.wellFormed.toFounded ?_
    exact fun j hj => hbefore.1 j (mem_mentions_aggregate.mpr (.inl ⟨x, hx, hj⟩))

theorem selfFree_lasting : Lasting SelfFree where
  wellFormed hr := hr.built.wellFormed
  declare hr hs h :=
    hr.growsTo (.declare hr.built hs h) (growsTo_declare h) fun _ _ ha =>
      .inl (definition?_of_declare h ha)
  define hr hs hd hother h :=
    hr.growsTo (.define hr.built hs hd h) (growsTo_define h) fun _ a ha =>
      .inl ((definition?_of_define h ha).resolve_right fun hnew => hother a hnew.symm)
  close {r r' s name a id j} hr hs hcovers hbound hspares h := by
    obtain ⟨hfill, rfl, hdefinition⟩ := fillsTo_define (d := .aggregate a) h hbound
    refine hr.growsTo (.define hr.built hs (d := .aggregate a) hcovers h) hfill.toGrowsTo
      fun k a' ha => ?_
    rw [hdefinition] at ha
    split at ha
    next hk =>
      cases ha
      exact .inr ⟨hcovers, hk ▸ hspares⟩
    next => exact .inl ha

theorem withPrelude_selfFree : withPrelude.SelfFree where
  built := .prelude
  spares {id a} ha := by
    obtain ⟨e, he, hstate⟩ := definition?_eq_some ha
    obtain ⟨-, kind, hkind⟩ := withPrelude_flat.entry he
    cases hstate.symm.trans hkind

end Registry

structure MemberCheck where
  member : String
  type : Descriptor
  defining : List TypeId
  state : Resolution

def MemberCheck.verdict (c : MemberCheck) : Except LayoutError Unit :=
  c.state.registry.checkMember c.defining c.type c.member

def checksOfMembers (defining : List TypeId) (s : ScopeId) (z : Resolution) :
    List MemberDecl → List MemberCheck
  | [] => []
  | ⟨name, type, _⟩ :: xs =>
    match (resolveDeclarator defining s type).run z with
    | (.error _, _) => []
    | (.ok d, z₁) =>
      ⟨name, d, defining, z₁⟩ ::
        match z₁.registry.checkMember defining d name with
        | .error _ => []
        | .ok _ => checksOfMembers defining s z₁ xs

namespace Visit

def checks (v : Visit) : List MemberCheck :=
  match v.item with
  | .declaration _ => []
  | .record ⟨tag, name, bases, members, _, nested⟩ =>
    match (openRecord v.scope tag name).run v.before with
    | (.error _, _) => []
    | (.ok (id, body), z₁) =>
      let inside := id.toList ++ v.defining
      match (resolveBases v.scope bases).run ((resolveNested inside body nested).run z₁).2 with
      | (.error _, _) => []
      | (.ok _, z₂) => checksOfMembers inside body z₂ members

def opened? (v : Visit) : Option TypeId :=
  match v.item with
  | .declaration _ => none
  | .record r => ((openRecord v.scope r.tag r.name).run v.before).1.toOption.bind (·.1)

def inside (v : Visit) : List Visit :=
  match v.item with
  | .declaration _ => []
  | .record r => visitsInRecord v.defining v.scope v.before r

end Visit

section

variable {defining : List TypeId} {s : ScopeId} {z : Resolution} {c : MemberCheck}

theorem checksOfMembers_within {xs : List MemberDecl} (hz : z.registry.Built)
    (hs : s.index < z.registry.scopes.size) (hc : c ∈ checksOfMembers defining s z xs) :
    c.defining = defining ∧ c.state.registry.Built ∧
      z.registry.GrowsTo c.state.registry := by
  induction xs generalizing z with
  | nil => cases hc
  | cons x xs ih =>
    obtain ⟨name, type, width⟩ := x
    unfold checksOfMembers at hc
    split at hc
    next e z₁ htype => cases hc
    next d z₁ htype =>
      have hz₁ := (resolveDeclarator_built type defining hz hs).kept_of_run htype
      have hgrows := (resolveDeclarator_lockstep z.registry defining s type).grows_of_run htype
      rcases List.mem_cons.mp hc with rfl | hc
      · exact ⟨rfl, hz₁, hgrows⟩
      · split at hc
        next e hcheck => cases hc
        next u hcheck =>
          obtain ⟨hsame, hbuilt, hgrows'⟩ :=
            ih hz₁ (Nat.lt_of_lt_of_le hs hgrows.scopes_le) hc
          exact ⟨hsame, hbuilt, hgrows.trans hgrows'⟩

theorem resolveMembers_refused {xs : List MemberDecl} (hc : c ∈ checksOfMembers defining s z xs)
    {e : LayoutError} (herror : c.verdict = .error e) :
    (resolveMembers defining s xs).run z = (.error e, c.state) := by
  induction xs generalizing z with
  | nil => cases hc
  | cons x xs ih =>
    obtain ⟨name, type, width⟩ := x
    unfold checksOfMembers at hc
    split at hc
    next e z₁ htype => cases hc
    next d z₁ htype =>
      have hfirst := run_tryCatch_ok (f := fun e => throw (e.inMember name)) htype
      unfold resolveMembers
      rw [run_bind_ok hfirst]
      rcases List.mem_cons.mp hc with rfl | hc
      · refine (run_bind_ok (x := ResolveM.registry) rfl).trans (run_bind_error ?_)
        rw [run_ofExcept]
        exact congrArg (·, z₁) herror
      · split at hc
        next e hcheck => cases hc
        next u hcheck =>
          refine (run_bind_ok (x := ResolveM.registry) rfl).trans ?_
          have hpassed : (ofExcept (z₁.registry.checkMember defining d name) : ResolveM Unit).run
              z₁ = (.ok u, z₁) := by rw [run_ofExcept, hcheck]
          rw [run_bind_ok hpassed]
          exact run_bind_error (ih hc)

end

namespace Visit

variable {v w : Visit} {c : MemberCheck} {defining : List TypeId} {id : TypeId}

theorem mem_checks (hc : c ∈ w.checks) :
    ∃ r id body z₁ specs z₂, w.item = .record r ∧
      (openRecord w.scope r.tag r.name).run w.before = (.ok (id, body), z₁) ∧
      (resolveBases w.scope r.bases).run
        ((resolveNested (id.toList ++ w.defining) body r.nested).run z₁).2 = (.ok specs, z₂) ∧
      c ∈ checksOfMembers (id.toList ++ w.defining) body z₂ r.members := by
  unfold checks at hc
  split at hc
  next => cases hc
  next tag name bases members functions nested hitem =>
    split at hc
    next => cases hc
    next id body z₁ hopen =>
      dsimp only at hc
      split at hc
      next => cases hc
      next specs z₂ hbases =>
        exact ⟨⟨tag, name, bases, members, functions, nested⟩, id, body, z₁, specs, z₂, hitem,
          hopen, hbases, hc⟩

theorem opened?_of_run {r : RecordDecl} (hr : w.item = .record r) {p : Option TypeId × ScopeId}
    {z : Resolution} (hopen : (openRecord w.scope r.tag r.name).run w.before = (.ok p, z)) :
    w.opened? = p.1 := by
  simp [opened?, hr, hopen, Except.toOption]

/-- Members are checked in a registry in which the records being defined are no typedefs. These are
the record itself and those around it. -/
theorem Within.check (hw : w.Within defining) (hc : c ∈ w.checks) :
    c.defining = w.opened?.toList ++ w.defining ∧ c.state.registry.WellFormed ∧
      c.state.registry.Nominal c.defining := by
  obtain ⟨r, id, body, z₁, specs, z₂, hr, hopen, hbases, hc⟩ := mem_checks hc
  have hopened := openRecord_built hw.built hw.scope_lt r.tag r.name
  have hz₁ := hopened.kept_of_run hopen
  have hbody := hopened.of_answer hopen
  have hnested := resolveNested_built r.nested (id.toList ++ w.defining) hz₁ hbody
  have hz₂ := (resolveBases_built hnested.kept r.bases).kept_of_run hbases
  have hgrows := (resolveNested_lockstep z₁.registry (id.toList ++ w.defining) body
    r.nested).grows.trans ((resolveBases_lockstep _ w.scope r.bases).grows_of_run hbases)
  obtain ⟨hsame, hbuilt, hgrows'⟩ :=
    checksOfMembers_within hz₂ (Nat.lt_of_lt_of_le hbody hgrows.scopes_le) hc
  refine ⟨?_, hbuilt.wellFormed, hsame ▸ ?_⟩
  · rw [opened?_of_run hr hopen]
    exact hsame
  · exact (openRecord_nominal hw.scope_lt hw.nominal hopen).growsTo (hgrows.trans hgrows')

theorem resolveRecord_refused {r : RecordDecl} (hr : w.item = .record r) (hc : c ∈ w.checks)
    {e : LayoutError} (herror : c.verdict = .error e) :
    (resolveRecord w.defining w.scope r).run w.before = (.error e, c.state) := by
  obtain ⟨r', id, body, z₁, specs, z₂, hr', hopen, hbases, hc⟩ := mem_checks hc
  obtain rfl := Item.record.inj (hr.symm.trans hr')
  obtain ⟨tag, name, bases, members, functions, nested⟩ := r
  unfold resolveRecord
  rw [run_bind_ok hopen]
  refine (run_bind_ok (Prod.ext (run_resolveNested _ _ _ _) rfl)).trans ?_
  refine (run_bind_ok hbases).trans (run_bind_error ?_)
  exact resolveMembers_refused hc herror

theorem Within.inside (hv : v.Within defining) (hw : w ∈ v.inside) :
    w.Within (v.opened?.toList ++ v.defining) := by
  unfold Visit.inside at hw
  split at hw
  next => cases hw
  next r hr =>
    obtain ⟨p, z₁, hopen, hwithin⟩ :=
      visitsInRecord_within r hv.built hv.scope_lt hv.nominal hw
    rw [opened?_of_run hr hopen]
    exact hwithin

theorem Within.check_inside (hv : v.Within defining) (hid : v.opened? = some id)
    (hw : w ∈ v :: v.inside) (hc : c ∈ w.checks) :
    id ∈ c.defining ∧ c.state.registry.WellFormed ∧ c.state.registry.Nominal c.defining := by
  rcases List.mem_cons.mp hw with rfl | hw
  · obtain ⟨hdefining, hrest⟩ := hv.check hc
    exact ⟨by simp [hdefining, hid], hrest⟩
  · have hwithin := hv.inside hw
    obtain ⟨hdefining, hrest⟩ := hwithin.check hc
    have hin : id ∈ w.defining := hwithin.encloses (by simp [hid])
    exact ⟨by simp [hdefining, hin], hrest⟩

end Visit

namespace SourceUnit

/-- A member, at any depth inside a named record, whose type comes down to the record if arrays and
typedefs around it are peeled off, however often: if peeling twice is enough, the record with this
member fails as a cycle; if not, the member passes. So what a complete record holds directly is, as
far as that, not the record itself. -/
theorem selfContainment_checked (u : SourceUnit) :
    (∀ v ∈ u.visits, ∀ id, v.opened? = some id → ∀ w ∈ v :: v.inside, ∀ q,
      w.item = .record q → ∀ c ∈ w.checks, ∀ k,
      c.state.registry.peel^[k] c.type = .named id →
        (c.state.registry.heldBy c.type = .named id →
          (resolveRecord w.defining w.scope q).run w.before =
            (.error (.cyclicAggregate (c.state.registry.qualifiedName id) c.member), c.state)) ∧
        (c.state.registry.heldBy c.type ≠ .named id → c.verdict = .ok ())) ∧
    ∀ id d, u.resolve.2.registry.definition? id = some d → ∀ x ∈ d.members,
      u.resolve.2.registry.heldBy x.type ≠ .named id := by
  constructor
  · intro v hv id hid w hw q hq c hc k hk
    obtain ⟨hdefining, hwf, hnominal⟩ := (u.visits_within hv).check_inside hid hw hc
    refine ⟨fun hheld => ?_, fun hheld => ?_⟩
    · exact Visit.resolveRecord_refused hq hc (checkMember_of_held hdefining hheld _)
    · exact checkMember_of_deeper hwf.toFounded hnominal (hnominal id hdefining).2 hk hheld _
  · intro id d hd x hx
    have hfree := u.resolve_lasts selfFree_lasting withPrelude_selfFree
    cases d with
    | aggregate a => exact hfree.spares hd x hx id List.mem_cons_self
    | _ => cases hx

def pairOf (name element : String) : Declaration := .typedef name (.array (.named element) 2)

/-- `R` under a typedef of an array, held in an array by an inline record of its own, and a record
that only points to itself. -/
def wrappedUnit : SourceUnit where
  declarations :=
    [pairOf "A" "R",
      .record ⟨.structType, some "R", [],
        [⟨"inner", .record ⟨.structType, none, [], [⟨"x", .array (.named "A") 3, none⟩], [], []⟩,
          none⟩], [], []⟩,
      .record ⟨.structType, some "P", [], [⟨"next", .pointer (.named "P"), none⟩], [], []⟩]

theorem wrappedUnit_visited : ∃ v ∈ wrappedUnit.visits, v.opened? = some ⟨33⟩ ∧
    ∃ w ∈ v :: v.inside, ∃ c ∈ w.checks, c.state.registry.peel^[2] c.type = .named ⟨33⟩ ∧
      c.state.registry.qualifiedName ⟨33⟩ = "R" ∧ c.member = "x" := by
  have hfound : (wrappedUnit.visits.any fun v => v.opened? == some ⟨33⟩ &&
      (v :: v.inside).any fun w => w.checks.any fun c =>
        (c.state.registry.peel^[2] c.type).id? == some ⟨33⟩ &&
          c.state.registry.qualifiedName ⟨33⟩ == "R" && c.member == "x") = true := by
    decide +kernel
  simp only [List.any_eq_true, Bool.and_eq_true, beq_iff_eq] at hfound
  obtain ⟨v, hv, hid, w, hw, c, hc, ⟨hk, hname⟩, hmember⟩ := hfound
  exact ⟨v, hv, hid, w, hw, c, hc, eq_named_of_id? hk, hname, hmember⟩

theorem wrappedUnit_completed : ∃ d x, x ∈ d.members ∧
    wrappedUnit.resolve.2.registry.definition? ⟨34⟩ = some d := by
  have hmembers : ((wrappedUnit.resolve.2.registry.definition? ⟨34⟩).map
      fun d => d.members.map Member.name) = some ["next"] := by decide +kernel
  obtain ⟨d, hd, hnames⟩ := Option.map_eq_some_iff.mp hmembers
  obtain ⟨x, hx, -⟩ := List.mem_map.mp (hnames ▸ List.mem_cons_self)
  exact ⟨d, x, hx, hd⟩

theorem wrappedUnit_refused :
    (∃ v ∈ wrappedUnit.visits, v.opened? = some ⟨33⟩ ∧ ∃ w ∈ v :: v.inside, ∃ q,
      w.item = .record q ∧ ∃ c ∈ w.checks, c.state.registry.peel^[2] c.type = .named ⟨33⟩ ∧
      ((resolveRecord w.defining w.scope q).run w.before).1 =
        .error (.cyclicAggregate "R" "x")) ∧
    ∃ d x, x ∈ d.members ∧ wrappedUnit.resolve.2.registry.definition? ⟨34⟩ = some d ∧
      wrappedUnit.resolve.2.registry.heldBy x.type ≠ .named ⟨34⟩ := by
  constructor
  · obtain ⟨v, hv, hid, w, hw, c, hc, hk, hname, hmember⟩ := wrappedUnit_visited
    obtain ⟨q, _, _, _, _, _, hq, -⟩ := Visit.mem_checks hc
    have hrun := ((selfContainment_checked wrappedUnit).1 v hv ⟨33⟩ hid w hw q hq c hc 2 hk).1 hk
    rw [hname, hmember] at hrun
    exact ⟨v, hv, hid, w, hw, q, hq, c, hc, hk, congrArg Prod.fst hrun⟩
  · obtain ⟨d, x, hx, hd⟩ := wrappedUnit_completed
    exact ⟨d, x, hx, hd, (selfContainment_checked wrappedUnit).2 ⟨34⟩ d hd x hx⟩

def deeperUnit : SourceUnit where
  declarations :=
    [pairOf "A" "R", pairOf "B" "A",
      .record ⟨.structType, some "R", [], [⟨"x", .array (.named "B") 2, none⟩], [], []⟩]

/-- So `R` is complete, though it holds itself, and the unit is clean. Only its layout fails. -/
theorem deeperUnit_resolves :
    (∃ v ∈ deeperUnit.visits, v.opened? = some ⟨33⟩ ∧ ∃ c ∈ v.checks,
      c.state.registry.peel^[3] c.type = .named ⟨33⟩ ∧ c.verdict = .ok ()) ∧
    deeperUnit.resolve.1 = ⟨[⟨34⟩, ⟨35⟩, ⟨33⟩], []⟩ ∧
    (LayoutEnv.layoutOf ⟨deeperUnit.resolve.2.registry, Profile.lp64.machine, .itaniumBaseline⟩
      (.named ⟨33⟩) : Except LayoutError Layout).map (·.size) =
        .error (.cyclicAggregate "R" "x") := by
  have hfound : (deeperUnit.visits.any fun v => v.opened? == some ⟨33⟩ &&
      v.checks.any fun c => (c.state.registry.peel^[3] c.type).id? == some ⟨33⟩ &&
        (failure? c.verdict).isNone) = true := by
    decide +kernel
  simp only [List.any_eq_true, Bool.and_eq_true, beq_iff_eq, Option.isNone_iff_eq_none,
    failure?_eq_none] at hfound
  obtain ⟨v, hv, hid, c, hc, hk, _, hverdict⟩ := hfound
  refine ⟨⟨v, hv, hid, c, hc, eq_named_of_id? hk, hverdict⟩, ?_⟩
  decide +kernel

end SourceUnit

end TypeLayout
