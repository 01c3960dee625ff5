import TypeLayout.Proofs.Layout.Coherence
import TypeLayout.Proofs.Source.Built
import TypeLayout.Query.Session
/-! What a session answers does not depend on what it was asked before. Queries only warm the cache
of the current generation, a coherent cache is never seen in an answer, and an installation leaves
the generation before it as it is. -/

namespace TypeLayout

open Registry

inductive Request
  | layout (text : String) (p : Profile)
  | report (text : String) (p : Profile)
  | many (texts : List String) (p : Profile)
  | dump (p : Profile)
  | install (r : Registry)
  | reload (u : SourceUnit)
  | configure (policy : BasePolicy) (caching : Bool)

inductive Response
  | layout (l : Except LayoutError Layout)
  | report (r : Except LayoutError Report)
  | many (rs : List (Except LayoutError Report))
  | dump (rs : List Answer)
  | installed (generation : Nat)
  | reloaded (o : Outcome)
  | configured

namespace Request

def registry? : Request → Option Registry
  | install r => some r
  | reload u => some u.resolve.2.registry
  | _ => none

def installs (q : Request) : Bool := q.registry?.isSome

def latest (r : Registry) (qs : List Request) : Registry :=
  qs.foldl (fun r q => q.registry?.getD r) r

/-- A registry that is handed over is one that declarations and definitions built. -/
def Valid : Request → Prop
  | install r => r.Built
  | _ => True

theorem built_of_valid {q : Request} (h : q.Valid) {r : Registry} (hr : q.registry? = some r) :
    r.Built := by
  cases q with
  | install r' =>
    cases hr
    exact h
  | reload u =>
    cases hr
    exact u.resolve_built
  | _ => cases hr

end Request

namespace Session

def onRegistry (r : Registry) (policy : BasePolicy) (caching : Bool) : Session :=
  { ofRegistry r with policy := policy, caching := caching }

def serve (s : Session) : Request → Response × Session
  | .layout text p =>
    let (l, s) := s.layoutOf text p
    (.layout l, s)
  | .report text p =>
    let (r, s) := s.report text p
    (.report r, s)
  | .many texts p =>
    let (rs, s) := reports p texts s
    (.many rs, s)
  | .dump p =>
    let (rs, s) := s.dump p
    (.dump rs, s)
  | .install r =>
    let s := s.install r
    (.installed s.current.generation, s)
  | .reload u =>
    let (o, s) := s.reload u
    (.reloaded o, s)
  | .configure policy caching => (.configured, { s with policy := policy, caching := caching })

def after (s : Session) (qs : List Request) : Session := qs.foldl (fun s q => (s.serve q).2) s

def desk (s : Session) : Desk := ⟨s.current.cache, s.caching, s.journal⟩

def reply (s : Session) (p : Profile) (text : String) : Except LayoutError Report :=
  (s.report text p).1

def plainLayout (s : Session) (p : Profile) (d : Descriptor) : Except LayoutError Layout :=
  (s.env p).layoutOf d

/-- A later state of a session in which only layouts were stored, counted and logged. -/
def Warms (s s' : Session) : Prop :=
  ∃ cache journal, cache.Coherent s.registry ∧
    s' = { s with current := { s.current with cache := cache }, journal := journal }

/-- The state of a session between requests. -/
structure Sane (s : Session) : Prop where
  built : s.registry.Built
  coherent : s.current.cache.Coherent s.registry
  numbered : (s.current :: s.retired).Pairwise fun a b => b.generation < a.generation

variable {s s' : Session} {p : Profile} {text : String}

theorem Warms.trans {s'' : Session} (h : s.Warms s') (h' : s'.Warms s'') : s.Warms s'' := by
  obtain ⟨c, j, -, rfl⟩ := h
  obtain ⟨c', j', hc', rfl⟩ := h'
  exact ⟨c', j', hc', rfl⟩

theorem Sane.warms_refl (hs : s.Sane) : s.Warms s := ⟨_, _, hs.coherent, rfl⟩

theorem Sane.warms (hs : s.Sane) (h : s.Warms s') : s'.Sane := by
  obtain ⟨c, j, hc, rfl⟩ := h
  obtain ⟨hlt, hretired⟩ := List.pairwise_cons.mp hs.numbered
  exact ⟨hs.built, hc, List.pairwise_cons.mpr ⟨hlt, hretired⟩⟩

theorem onRegistry_sane {r : Registry} (hr : r.Built) (policy : BasePolicy) (caching : Bool) :
    (onRegistry r policy caching).Sane where
  built := hr
  coherent := Cache.coherent_of_stored_nil rfl
  numbered := List.pairwise_singleton _ _

/-- Every layout that a session computes is the one without stored layouts. -/
theorem Sane.compute_layoutOf (hs : s.Sane) (p : Profile) (d : Descriptor) :
    (s.compute ((s.env p).layoutOf d)).1 = s.plainLayout p d ∧
      s.Warms (s.compute ((s.env p).layoutOf d)).2 := by
  have hfounded : (s.env p).registry.Founded := hs.built.wellFormed.toFounded
  have hcoherent : s.desk.cache.Coherent (s.env p).registry := hs.coherent
  obtain ⟨desk', hrun, hcoherent'⟩ := LayoutEnv.layoutOf_agrees hfounded d hcoherent
  unfold desk at hrun
  unfold compute
  rw [hrun]
  exact ⟨rfl, desk'.cache, desk'.journal, hcoherent', rfl⟩

theorem Sane.layoutOf (hs : s.Sane) (text : String) (p : Profile) :
    (s.layoutOf text p).1 = (s.registry.resolveText text >>= fun e => s.plainLayout p e.2) ∧
      s.Warms (s.layoutOf text p).2 := by
  unfold Session.layoutOf
  cases s.registry.resolveText text with
  | error e => exact ⟨rfl, hs.warms_refl⟩
  | ok e => exact hs.compute_layoutOf p e.2

theorem Sane.report (hs : s.Sane) (text : String) (p : Profile) :
    (s.report text p).1 = (s.registry.resolveText text >>= fun e =>
        (s.plainLayout p e.2).map fun l =>
          Report.ofLayout (s.registry.reportName e.1 e.2) l p (s.registry.describe? e.2)) ∧
      s.Warms (s.report text p).2 := by
  unfold Session.report
  cases s.registry.resolveText text with
  | error e => exact ⟨rfl, hs.warms_refl⟩
  | ok e =>
    obtain ⟨hfst, hsnd⟩ := hs.compute_layoutOf p e.2
    refine ⟨?_, hsnd⟩
    dsimp only
    rw [hfst]
    rfl

theorem Sane.reportNamed (hs : s.Sane) (id : TypeId) (p : Profile) :
    (s.reportNamed id p).1 = ((s.plainLayout p (.named id)).map fun l =>
        Report.ofLayout (s.registry.displayName id) l p none) ∧
      s.Warms (s.reportNamed id p).2 := by
  obtain ⟨hfst, hsnd⟩ := hs.compute_layoutOf p (.named id)
  refine ⟨?_, hsnd⟩
  unfold Session.reportNamed
  dsimp only
  rw [hfst]
  rfl

theorem Sane.reply_warms (hs : s.Sane) (h : s.Warms s') : s'.reply p text = s.reply p text := by
  have hs' := hs.warms h
  unfold reply
  rw [(hs.report text p).1, (hs'.report text p).1]
  obtain ⟨c, j, -, rfl⟩ := h
  rfl

theorem reports_cons (s : Session) (p : Profile) (text : String) (texts : List String) :
    reports p (text :: texts) s = (s.reply p text :: (reports p texts (s.report text p).2).1,
      (reports p texts (s.report text p).2).2) := rfl

theorem Sane.reports (hs : s.Sane) (p : Profile) (texts : List String) :
    (reports p texts s).1 = texts.map (s.reply p) ∧ s.Warms (reports p texts s).2 := by
  induction texts generalizing s with
  | nil => exact ⟨rfl, hs.warms_refl⟩
  | cons text texts ih =>
    have hfirst := (hs.report text p).2
    have hsame : ∀ t ∈ texts, (s.report text p).2.reply p t = s.reply p t :=
      fun t _ => hs.reply_warms hfirst
    obtain ⟨hfst, hsnd⟩ := ih (hs.warms hfirst)
    rw [reports_cons, hfst, List.map_congr_left hsame]
    exact ⟨rfl, hfirst.trans hsnd⟩

theorem reportsNamed_cons (s : Session) (p : Profile) (id : TypeId) (ids : List TypeId) :
    reportsNamed p (id :: ids) s =
      ((s.registry.qualifiedName id, (s.reportNamed id p).1) ::
          (reportsNamed p ids (s.reportNamed id p).2).1,
        (reportsNamed p ids (s.reportNamed id p).2).2) := rfl

theorem Sane.reportsNamed (hs : s.Sane) (p : Profile) (ids : List TypeId) :
    (reportsNamed p ids s).1 = ids.map (fun id =>
        (s.registry.qualifiedName id, (s.plainLayout p (.named id)).map fun l =>
          Report.ofLayout (s.registry.displayName id) l p none)) ∧
      s.Warms (reportsNamed p ids s).2 := by
  induction ids generalizing s with
  | nil => exact ⟨rfl, hs.warms_refl⟩
  | cons id ids ih =>
    obtain ⟨hanswer, hfirst⟩ := hs.reportNamed id p
    obtain ⟨hfst, hsnd⟩ := ih (hs.warms hfirst)
    rw [reportsNamed_cons, hanswer, hfst]
    refine ⟨?_, hfirst.trans hsnd⟩
    obtain ⟨c, j, -, hwarm⟩ := hfirst
    rw [hwarm]
    rfl

theorem Sane.dump (hs : s.Sane) (p : Profile) :
    (s.dump p).1 = s.registry.definedAggregates.map (fun id =>
        (s.registry.qualifiedName id, (s.plainLayout p (.named id)).map fun l =>
          Report.ofLayout (s.registry.displayName id) l p none)) ∧
      s.Warms (s.dump p).2 := hs.reportsNamed p _

theorem Sane.serve_fst (hs : s.Sane) (hs' : s'.Sane) (hr : s'.registry = s.registry)
    (hp : s'.policy = s.policy) {q : Request} (hq : q.registry? = none) :
    (s'.serve q).1 = (s.serve q).1 := by
  have hplain : ∀ p d, s'.plainLayout p d = s.plainLayout p d := by
    intro p d
    unfold plainLayout env
    rw [hr, hp]
  have hreply : ∀ p text, s'.reply p text = s.reply p text := by
    intro p text
    unfold reply
    rw [(hs.report text p).1, (hs'.report text p).1]
    simp only [hr, hplain]
  cases q with
  | layout text p =>
    change Response.layout (s'.layoutOf text p).1 = Response.layout (s.layoutOf text p).1
    rw [(hs.layoutOf text p).1, (hs'.layoutOf text p).1]
    simp only [hr, hplain]
  | report text p => exact congrArg Response.report (hreply p text)
  | many texts p =>
    refine congrArg Response.many ?_
    rw [(hs.reports p texts).1, (hs'.reports p texts).1]
    exact List.map_congr_left fun t _ => hreply p t
  | dump p =>
    change Response.dump (s'.dump p).1 = Response.dump (s.dump p).1
    rw [(hs.dump p).1, (hs'.dump p).1]
    simp only [hr, hplain]
  | install r => cases hq
  | reload u => cases hq
  | configure policy caching => rfl

theorem Sane.serve_query (hs : s.Sane) {q : Request} (hq : q.registry? = none) :
    (s.serve q).2.Sane ∧ (s.serve q).2.registry = s.registry ∧
      (s.serve q).2.current.generation = s.current.generation ∧
      (s.serve q).2.retired = s.retired := by
  have hwarm : ∀ t, s.Warms t → t.Sane ∧ t.registry = s.registry ∧
      t.current.generation = s.current.generation ∧ t.retired = s.retired := by
    intro t ht
    refine ⟨hs.warms ht, ?_⟩
    obtain ⟨c, j, -, rfl⟩ := ht
    exact ⟨rfl, rfl, rfl⟩
  cases q with
  | layout text p => exact hwarm _ (hs.layoutOf text p).2
  | report text p => exact hwarm _ (hs.report text p).2
  | many texts p => exact hwarm _ (hs.reports p texts).2
  | dump p => exact hwarm _ (hs.dump p).2
  | install r => cases hq
  | reload u => cases hq
  | configure policy caching => exact ⟨⟨hs.built, hs.coherent, hs.numbered⟩, rfl, rfl, rfl⟩

theorem serve_install (s : Session) {q : Request} {r : Registry} (hq : q.registry? = some r) :
    (s.serve q).2.current = { registry := r, generation := s.current.generation + 1 } ∧
      (s.serve q).2.retired = s.current :: s.retired := by
  cases q with
  | install r' =>
    cases hq
    exact ⟨rfl, rfl⟩
  | reload u =>
    cases hq
    exact ⟨rfl, rfl⟩
  | _ => cases hq

theorem Sane.serve (hs : s.Sane) {q : Request} (hq : q.Valid) :
    (s.serve q).2.Sane ∧ (s.serve q).2.registry = q.registry?.getD s.registry ∧
      (s.serve q).2.current.generation =
        s.current.generation + (if q.installs then 1 else 0) ∧
      s.retired ⊆ (s.serve q).2.retired := by
  cases hr : q.registry? with
  | none =>
    obtain ⟨hsane, hreg, hgen, hret⟩ := hs.serve_query hr
    refine ⟨hsane, hreg, ?_, hret ▸ List.Subset.refl _⟩
    simp [hgen, Request.installs, hr]
  | some r =>
    obtain ⟨hcur, hret⟩ := serve_install s hr
    have hreg : (s.serve q).2.registry = r := by
      unfold registry
      rw [hcur]
    refine ⟨⟨?_, ?_, ?_⟩, hreg, ?_, ?_⟩
    · rw [hreg]
      exact q.built_of_valid hq hr
    · rw [hcur]
      exact Cache.coherent_of_stored_nil rfl
    · rw [hcur, hret]
      refine List.pairwise_cons.mpr ⟨fun b hb => ?_, hs.numbered⟩
      rcases List.mem_cons.mp hb with rfl | hb
      · exact Nat.lt_succ_self _
      · exact Nat.lt_succ_of_lt ((List.pairwise_cons.mp hs.numbered).1 b hb)
    · simp [hcur, Request.installs, hr]
    · rw [hret]
      exact List.subset_cons_self _ _

theorem Sane.after (hs : s.Sane) {qs : List Request} (hq : ∀ q ∈ qs, q.Valid) :
    (s.after qs).Sane ∧ (s.after qs).registry = Request.latest s.registry qs ∧
      (s.after qs).current.generation = s.current.generation + qs.countP Request.installs ∧
      s.retired ⊆ (s.after qs).retired := by
  induction qs generalizing s with
  | nil => exact ⟨hs, rfl, rfl, List.Subset.refl _⟩
  | cons q qs ih =>
    obtain ⟨hq, hqs⟩ := List.forall_mem_cons.mp hq
    obtain ⟨hsane, hreg, hgen, hret⟩ := hs.serve hq
    obtain ⟨hsane', hreg', hgen', hret'⟩ := ih hsane hqs
    refine ⟨hsane', hreg'.trans ?_, hgen'.trans ?_, List.Subset.trans hret hret'⟩
    · rw [hreg]
      rfl
    · rw [hgen, List.countP_cons]
      omega

theorem find?_generation {xs : List Snapshot}
    (h : xs.Pairwise fun a b => b.generation < a.generation) {x : Snapshot} (hx : x ∈ xs) :
    xs.find? (·.generation == x.generation) = some x := by
  induction xs with
  | nil => cases hx
  | cons y ys ih =>
    obtain ⟨hlt, hys⟩ := List.pairwise_cons.mp h
    rcases List.mem_cons.mp hx with rfl | hx
    · exact List.find?_cons_of_pos (beq_self_eq_true _)
    · have hne : y.generation ≠ x.generation := Nat.ne_of_gt (hlt x hx)
      rw [List.find?_cons_of_neg (by simpa using hne)]
      exact ih hys hx

theorem Sane.snapshot?_of_mem_retired (hs : s.Sane) {x : Snapshot} (hx : x ∈ s.retired) :
    s.snapshot? x.generation = some x :=
  find?_generation hs.numbered (List.mem_cons_of_mem _ hx)

/-- Nothing shows in a session of how it came to its registry `r` in its `n`th generation, and
nothing that happens later shows in this generation. -/
structure HistoryFree (s : Session) (r : Registry) (n : Nat) : Prop where
  registry : s.registry = r
  answers : ∀ q, q.registry? = none → (s.serve q).1 = ((onRegistry r s.policy false).serve q).1
  reordered : ∀ p {texts texts' : List String}, texts.Perm texts' →
    (texts.zip (s.reports p texts).1).Perm (texts'.zip (s.reports p texts').1)
  generation : s.current.generation = n
  restarts : ∀ q, q.installs = true → (s.serve q).2.current.cache.stats = ⟨0, 0, 0⟩
  isolated : ∀ q later, q.installs = true → q.Valid → (∀ x ∈ later, x.Valid) →
    ((s.serve q).2.after later).snapshot? n = some s.current

/-- Whatever a session was asked before, and whatever was installed, it answers as a session that
was just opened on the registry installed last. -/
theorem after_historyFree {r : Registry} (hr : r.Built) (policy : BasePolicy) (caching : Bool)
    {qs : List Request} (hq : ∀ q ∈ qs, q.Valid) :
    ((onRegistry r policy caching).after qs).HistoryFree (Request.latest r qs)
      (qs.countP Request.installs) := by
  obtain ⟨hsane, hreg, hgen, -⟩ := (onRegistry_sane hr policy caching).after hq
  have hgen : ((onRegistry r policy caching).after qs).current.generation =
      qs.countP Request.installs := hgen.trans (Nat.zero_add _)
  generalize (onRegistry r policy caching).after qs = s at hsane hreg hgen
  have hlatest : (Request.latest r qs).Built := hreg ▸ hsane.built
  refine ⟨hreg, fun q hq => ?_, fun p texts texts' ht => ?_, hgen, fun q hq => ?_, ?_⟩
  · exact (onRegistry_sane hlatest s.policy false).serve_fst hsane hreg rfl hq
  · rw [(hsane.reports p texts).1, (hsane.reports p texts').1]
    simp only [← List.map_prod_left_eq_zip]
    exact ht.map _
  · obtain ⟨r', hr'⟩ := Option.isSome_iff_exists.mp hq
    rw [(serve_install s hr').1]
    rfl
  · intro q later hq hvalid hlater
    obtain ⟨r', hr'⟩ := Option.isSome_iff_exists.mp hq
    have hmem : s.current ∈ (s.serve q).2.retired := by
      rw [(serve_install s hr').2]
      exact List.mem_cons_self
    obtain ⟨hlast, -, -, hret⟩ := (hsane.serve hvalid).1.after hlater
    rw [← hgen]
    exact hlast.snapshot?_of_mem_retired (hret hmem)

def pointUnit (coordinate : String) : SourceUnit where
  declarations :=
    [.record ⟨.structType, some "Point", [], [⟨"x", .fundamental coordinate, none⟩,
      ⟨"y", .fundamental coordinate, none⟩], [], []⟩]

/-- Warm the cache, install something else, and come back to a type of the same name and id. -/
def pointRequests : List Request :=
  [.report "Point" .lp64, .many ["Point*", "Nope", "Point[2]", "Point"] .lp64, .dump .ilp32,
   .install .withPrelude, .layout "Point" .lp64, .configure .strictSequential true,
   .reload (pointUnit "double"), .report "Point" .lp64]

theorem pointRequests_historyFree : (pointUnit "int").resolve.2.registry.Built ∧
    (∀ q ∈ pointRequests, q.Valid) ∧
    ((onRegistry (pointUnit "int").resolve.2.registry .itaniumBaseline true).after
      pointRequests).HistoryFree (pointUnit "double").resolve.2.registry 2 := by
  have hvalid : ∀ q ∈ pointRequests, q.Valid := by
    simp [pointRequests, Request.Valid, Built.prelude]
  exact ⟨(pointUnit "int").resolve_built, hvalid,
    after_historyFree (pointUnit "int").resolve_built .itaniumBaseline true hvalid⟩

end Session

end TypeLayout
