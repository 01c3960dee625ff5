import TypeLayout.Proofs.Source.Announced
/-! The errors that a unit reports: one for each declaration at the top level that the first pass
cannot declare, and behind them one for each declaration that fails in the second pass. -/

namespace TypeLayout

open Registry

namespace Visit

/-- The error of a declaration that the first pass cannot declare. -/
def refusal? (v : Visit) : Option LayoutError :=
  match v.item with
  | .declaration d => failure? ((predeclare v.scope d).run v.before).1
  | .record _ => none

def isRefused (v : Visit) : Bool := v.refusal?.isSome

def fails (v : Visit) : Bool := v.error?.isSome

end Visit

namespace Resolution

variable {z z' : Resolution} {d : Declaration} {ds : List Declaration} {o : Outcome}

def announcements (z : Resolution) : List Declaration → List Visit
  | [] => []
  | d :: ds => ⟨.declaration d, [], .global, z⟩ :: announcements (predeclareStep d {} z).2 ds

/-- What the second pass visits; a declaration at the top level comes before what is inside. -/
def visits (z : Resolution) : List Declaration → List Visit
  | [] => []
  | d :: ds =>
    ⟨.declaration d, [], .global, z⟩ :: visitsInDeclaration [] .global z d ++
      visits (resolveStep d {} z).2 ds

theorem predeclareStep_reports (d : Declaration) (o : Outcome) (z : Resolution) :
    (predeclareStep d o z).1.errors =
        o.errors ++ (Visit.refusal? ⟨.declaration d, [], .global, z⟩).toList ∧
      (predeclareStep d o z).2 = (predeclareStep d {} z).2 ∧
      (predeclareStep d o z).2.deferred = z.deferred := by
  have quiet := predeclare_quiet d .global z
  rcases run : (predeclare .global d).run z with ⟨e | _, z₁⟩
  · rw [run] at quiet
    simpa [predeclareStep, Visit.refusal?, run, failure?, log] using quiet
  · rw [run] at quiet
    simpa [predeclareStep, Visit.refusal?, run, failure?] using quiet

theorem predeclarePass_reports (ds : List Declaration) (o : Outcome) (z : Resolution) :
    (predeclarePass ds o z).1.errors =
        o.errors ++ (announcements z ds).filterMap Visit.refusal? ∧
      (predeclarePass ds o z).2.deferred = z.deferred := by
  induction ds generalizing o z with
  | nil => exact ⟨(List.append_nil _).symm, rfl⟩
  | cons d ds ih =>
    obtain ⟨errors, same, quiet⟩ := predeclareStep_reports d o z
    obtain ⟨errors', quiet'⟩ := ih (predeclareStep d o z).1 (predeclareStep d o z).2
    refine ⟨errors'.trans ?_, quiet'.trans quiet⟩
    rw [errors, same, announcements, List.filterMap_cons, List.append_assoc]
    cases Visit.refusal? ⟨.declaration d, [], .global, z⟩ <;> rfl

theorem resolveStep_reports (d : Declaration) (o : Outcome) (empty : z.deferred = []) :
    (resolveStep d o z).1.errors = o.errors ++
        errorsOf (⟨.declaration d, [], .global, z⟩ :: visitsInDeclaration [] .global z d) ∧
      (resolveStep d o z).2 = (resolveStep d {} z).2 ∧ (resolveStep d o z).2.deferred = [] := by
  have deferred := resolveDeclaration_defers d [] .global z
  unfold Defers at deferred
  rw [empty, List.nil_append] at deferred
  rw [errorsOf_cons]
  rcases run : (resolveDeclaration [] .global d).run z with ⟨e | i, z₁⟩
  · rw [run] at deferred
    simpa [resolveStep, Visit.error?, run, failure?, collectDeferred, log] using deferred
  · rw [run] at deferred
    simpa [resolveStep, Visit.error?, run, failure?, collectDeferred] using deferred

theorem resolvePass_reports (ds : List Declaration) (o : Outcome) (empty : z.deferred = []) :
    (resolvePass ds o z).1.errors = o.errors ++ errorsOf (visits z ds) := by
  induction ds generalizing o z with
  | nil => exact (List.append_nil _).symm
  | cons d ds ih =>
    obtain ⟨errors, same, empty'⟩ := resolveStep_reports d o empty
    refine (ih (resolveStep d o z).1 empty').trans ?_
    rw [errors, same, visits, errorsOf_append, List.append_assoc]

/-- What has no error in the second pass, in itself or inside, is not refused in the first. -/
theorem not_refused (hz : z.registry.Built)
    (grows : ((predeclare .global d).run z).2.registry.GrowsTo z'.registry)
    (clean : errorsOf (⟨.declaration d, [], .global, z'⟩ ::
      visitsInDeclaration [] .global z' d) = []) :
    Visit.isRefused ⟨.declaration d, [], .global, z⟩ = false := by
  rw [errorsOf_cons] at clean
  obtain ⟨answered, clean⟩ := List.append_eq_nil_iff.mp clean
  obtain ⟨i, second⟩ := failure?_eq_none.mp (Option.toList_eq_nil_iff.mp answered)
  obtain ⟨_, w, first, -⟩ := predeclare_announces d hz hz.wellFormed.global_lt
    (Prod.ext second rfl) clean grows
  simp [Visit.isRefused, Visit.refusal?, first, failure?]

theorem length_errorsOf (vs : List Visit) : (errorsOf vs).length = vs.countP Visit.fails :=
  List.length_filterMap_eq_countP ..

theorem refused_le_fails (hz : z.registry.Built)
    (grows : (predeclarePass ds o z).2.registry.GrowsTo z'.registry) :
    (announcements z ds).countP Visit.isRefused ≤ (visits z' ds).countP Visit.fails := by
  induction ds generalizing o z z' with
  | nil => exact Nat.le_refl _
  | cons d ds ih =>
    have first : (predeclareStep d o z).2.registry = ((predeclare .global d).run z).2.registry :=
      (predeclareStep_of_run o rfl).2
    have second : (resolveStep d {} z').2.registry =
        ((resolveDeclaration [] .global d).run z').2.registry := (resolveStep_of_run {} rfl).2
    have rest : (predeclareStep d o z).2.registry.GrowsTo z'.registry :=
      (predeclarePass_lockstep rfl (.refl _) ds _ {}).2.trans grows
    have later := (resolveDeclaration_lockstep z'.registry [] .global d).grows
    have tail := ih (predeclareStep_kept built_durable hz d o) (grows.trans (second ▸ later))
    rw [(predeclareStep_reports d o z).2.1] at tail
    rw [announcements, visits, List.countP_cons, List.countP_append]
    by_cases refused : Visit.isRefused ⟨.declaration d, [], .global, z⟩ = true
    · have fails : 0 < (⟨.declaration d, [], .global, z'⟩ ::
          visitsInDeclaration [] .global z' d).countP Visit.fails := by
        refine Nat.pos_of_ne_zero fun none => ?_
        rw [← length_errorsOf] at none
        have clean := List.length_eq_zero_iff.mp none
        rw [not_refused hz (first ▸ rest) clean] at refused
        cases refused
      rw [if_pos refused]
      omega
    · rw [if_neg refused]
      omega

end Resolution

namespace SourceUnit

open Resolution

def announced (u : SourceUnit) : List Visit :=
  announcements { registry := .withPrelude } u.declarations

def visits (u : SourceUnit) : List Visit :=
  Resolution.visits (predeclarePass u.declarations {} { registry := .withPrelude }).2
    u.declarations

/-- A unit reports, in this order, an error for each declaration at the top level that the first
pass refuses, and one for each declaration that fails in the second pass, inside records too. The
former cannot outnumber the latter, so a unit is clean if no declaration fails in the second. -/
theorem errors_reported (u : SourceUnit) :
    u.resolve.1.errors = u.announced.filterMap Visit.refusal? ++ errorsOf u.visits ∧
      u.resolve.1.errors.length =
        u.announced.countP Visit.isRefused + u.visits.countP Visit.fails ∧
      u.announced.countP Visit.isRefused ≤ u.visits.countP Visit.fails ∧
      (u.resolve.1.isClean = true ↔ ∀ v ∈ u.visits, v.fails = false) := by
  obtain ⟨refusals, empty⟩ :=
    predeclarePass_reports u.declarations {} { registry := .withPrelude }
  have errors : u.resolve.1.errors =
      u.announced.filterMap Visit.refusal? ++ errorsOf u.visits :=
    (resolvePass_reports u.declarations _ empty).trans (congrArg (· ++ _) refusals)
  have count : u.resolve.1.errors.length =
      u.announced.countP Visit.isRefused + u.visits.countP Visit.fails := by
    rw [errors, List.length_append, length_errorsOf, List.length_filterMap_eq_countP]
    rfl
  have bound : u.announced.countP Visit.isRefused ≤ u.visits.countP Visit.fails :=
    refused_le_fails .prelude (.refl _)
  refine ⟨errors, count, bound, ?_⟩
  rw [Outcome.isClean, List.isEmpty_iff, ← List.length_eq_zero_iff]
  have none : u.visits.countP Visit.fails = 0 ↔ ∀ v ∈ u.visits, v.fails = false := by
    simp [List.countP_eq_zero]
  rw [← none]
  omega

/-- Two records of one name and of different kinds: only the second fails, but it is reported by
both passes. -/
theorem rivalRecords_reported_twice :
    (resolve ⟨[.record ⟨.structType, some "A", [], [], [], []⟩,
      .record ⟨.unionType, some "A", [], [], [], []⟩]⟩).1.errors =
        [.duplicateDefinition "A", .duplicateDefinition "A"] ∧
    (visits ⟨[.record ⟨.structType, some "A", [], [], [], []⟩,
      .record ⟨.unionType, some "A", [], [], [], []⟩]⟩).countP Visit.fails = 1 := by
  decide +kernel

end SourceUnit

end TypeLayout
