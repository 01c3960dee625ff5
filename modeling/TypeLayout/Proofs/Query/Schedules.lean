import TypeLayout.Proofs.Query.History
/-! Queries at once. The queries of one request may be run by several workers on one cache, and their
steps come in any order then. Whatever the order, the request is answered as if they were run one
after the other, and so is everything that is asked later. -/

namespace TypeLayout.Session

open TypeLayout.Task (Sound carriesSound eq_of_interleave finishAll interleave)

variable {s s' : Session} {p : Profile}

def reportTask (s : Session) (p : Profile) (text : String) : Task Report := do
  let e ← ofExcept (s.registry.resolveText text)
  let l ← (s.env p).layoutOf e.2
  pure (Report.ofLayout (s.registry.reportName e.1 e.2) l p (s.registry.describe? e.2))

def reportNamedTask (s : Session) (p : Profile) (id : TypeId) : Task Report := do
  let l ← (s.env p).layoutOf (.named id)
  pure (Report.ofLayout (s.registry.displayName id) l p none)

def onDesk (s : Session) (desk : Desk) : Session :=
  { s with current := { s.current with cache := desk.cache }, journal := desk.journal }

theorem desk_onDesk {desk : Desk} (h : desk.caching = s.caching) : (s.onDesk desk).desk = desk := by
  obtain ⟨cache, caching, journal⟩ := desk
  obtain rfl : caching = s.caching := h
  rfl

theorem compute_eq (s : Session) (p : Profile) (d : Descriptor) :
    s.compute ((s.env p).layoutOf d) =
      ((Task.finish ((s.env p).layoutOf d) s.desk).1,
        s.onDesk (Task.finish ((s.env p).layoutOf d) s.desk).2) := by
  have hcut := Task.layoutOf_cuts (s.env p) d s.desk
  unfold compute DeskM.runOn onDesk
  rw [← hcut]
  rfl

theorem report_eq (s : Session) (p : Profile) (text : String) :
    s.report text p = (((s.reportTask p text).finish s.desk).1,
      s.onDesk ((s.reportTask p text).finish s.desk).2) := by
  unfold report reportTask
  cases s.registry.resolveText text with
  | error e => rfl
  | ok e =>
    change _ = ((Task.finish ((s.env p).layoutOf e.2 >>= fun l => pure _) s.desk).1, s.onDesk
      (Task.finish ((s.env p).layoutOf e.2 >>= fun l => pure _) s.desk).2)
    rw [Task.finish_bind_pure]
    simp only [compute_eq]
    rfl

theorem reportNamed_eq (s : Session) (p : Profile) (id : TypeId) :
    s.reportNamed id p = (((s.reportNamedTask p id).finish s.desk).1,
      s.onDesk ((s.reportNamedTask p id).finish s.desk).2) := by
  unfold reportNamed reportNamedTask
  rw [Task.finish_bind_pure]
  simp only [compute_eq]
  rfl

/-- Queries in order are one schedule of their tasks. -/
theorem reports_eq (s : Session) (p : Profile) (texts : List String) :
    reports p texts s = ((finishAll (texts.map (s.reportTask p)) s.desk).1,
      s.onDesk (finishAll (texts.map (s.reportTask p)) s.desk).2) := by
  induction texts generalizing s with
  | nil => rfl
  | cons text texts ih =>
    have hdesk := s.desk_onDesk (Task.caching_finish (s.reportTask p text) s.desk)
    rw [reports, report_eq]
    dsimp only
    rw [ih, hdesk]
    rfl

theorem reportsNamed_eq (s : Session) (p : Profile) (ids : List TypeId) :
    reportsNamed p ids s = ((ids.map s.registry.qualifiedName).zip
        (finishAll (ids.map (s.reportNamedTask p)) s.desk).1,
      s.onDesk (finishAll (ids.map (s.reportNamedTask p)) s.desk).2) := by
  induction ids generalizing s with
  | nil => rfl
  | cons id ids ih =>
    have hdesk := s.desk_onDesk (Task.caching_finish (s.reportNamedTask p id) s.desk)
    rw [reportsNamed, reportNamed_eq]
    dsimp only
    rw [ih, hdesk]
    rfl

theorem Sane.layoutOf_sound (hs : s.Sane) (p : Profile) (d : Descriptor) (f : Layout → Report) :
    Sound s.registry ((s.plainLayout p d).map f)
      ((s.env p).layoutOf d >>= fun l => pure (f l)) := by
  have hfounded : (s.env p).registry.Founded := hs.built.wellFormed.toFounded
  have hsound := LayoutEnv.layoutOf_sound hfounded d
  exact (carriesSound s.registry).bind hsound fun l _ => .done

theorem Sane.reportTask_sound (hs : s.Sane) (p : Profile) (text : String) :
    Sound s.registry (s.reply p text) (s.reportTask p text) := by
  unfold reply reportTask
  rw [(hs.report text p).1]
  cases s.registry.resolveText text with
  | error e => exact .done
  | ok e => exact hs.layoutOf_sound p e.2 _

theorem Sane.reportNamedTask_sound (hs : s.Sane) (p : Profile) (id : TypeId) :
    Sound s.registry (s.reportNamed id p).1 (s.reportNamedTask p id) := by
  rw [(hs.reportNamed id p).1]
  exact hs.layoutOf_sound p (.named id) _

/-- Ways to serve a request: in order, or with all its queries at once and their steps in the order
of a schedule that ends them. -/
inductive Serves (s : Session) : Request → Response → Session → Prop
  | inOrder (q : Request) : Serves s q (s.serve q).1 (s.serve q).2
  | many {texts : List String} {p : Profile} {schedule : List Nat}
    {rs : List (Except LayoutError Report)} {desk : Desk} :
    interleave schedule (texts.map (s.reportTask p)) s.desk = (rs.map .done, desk) →
    Serves s (.many texts p) (.many rs) (s.onDesk desk)
  | dump {p : Profile} {schedule : List Nat} {rs : List (Except LayoutError Report)} {desk : Desk} :
    interleave schedule (s.registry.definedAggregates.map (s.reportNamedTask p)) s.desk =
      (rs.map .done, desk) →
    Serves s (.dump p)
      (.dump ((s.registry.definedAggregates.map s.registry.qualifiedName).zip rs)) (s.onDesk desk)

inductive ServesAll : Session → List Request → List Response → Session → Prop
  | nil (s : Session) : ServesAll s [] [] s
  | cons {s s' s'' : Session} {q : Request} {a : Response} {qs : List Request}
    {as : List Response} : Serves s q a s' → ServesAll s' qs as s'' →
    ServesAll s (q :: qs) (a :: as) s''

def answers (s : Session) : List Request → List Response
  | [] => []
  | q :: qs => (s.serve q).1 :: (s.serve q).2.answers qs

structure Alike (s s' : Session) : Prop where
  registry : s'.registry = s.registry
  generation : s'.current.generation = s.current.generation
  policy : s'.policy = s.policy

theorem Warms.alike (h : s.Warms s') : s.Alike s' := by
  obtain ⟨cache, journal, -, rfl⟩ := h
  exact ⟨rfl, rfl, rfl⟩

theorem Alike.symm (h : s.Alike s') : s'.Alike s :=
  ⟨h.registry.symm, h.generation.symm, h.policy.symm⟩

theorem Alike.trans {s'' : Session} (h : s.Alike s') (h' : s'.Alike s'') : s.Alike s'' :=
  ⟨h'.registry.trans h.registry, h'.generation.trans h.generation, h'.policy.trans h.policy⟩

theorem Sane.serve_policy (hs : s.Sane) (q : Request) : (s.serve q).2.policy =
    match q with
    | .configure policy _ => policy
    | _ => s.policy := by
  cases q with
  | layout text p => exact (hs.layoutOf text p).2.alike.policy
  | report text p => exact (hs.report text p).2.alike.policy
  | many texts p => exact (hs.reports p texts).2.alike.policy
  | dump p => exact (hs.dump p).2.alike.policy
  | install r => rfl
  | reload u => rfl
  | configure policy caching => rfl

theorem Alike.serve (h : s.Alike s') (hs : s.Sane) (hs' : s'.Sane) {q : Request} (hq : q.Valid) :
    (s'.serve q).1 = (s.serve q).1 ∧ (s.serve q).2.Alike (s'.serve q).2 := by
  constructor
  · cases hr : q.registry? with
    | none => exact hs.serve_fst hs' h.registry h.policy hr
    | some r =>
      cases q with
      | install r' =>
        exact congrArg (fun g => Response.installed (g + 1)) h.generation
      | reload u => rfl
      | _ => cases hr
  · obtain ⟨-, hreg, hgen, -⟩ := hs.serve hq
    obtain ⟨-, hreg', hgen', -⟩ := hs'.serve hq
    refine ⟨?_, ?_, ?_⟩
    · rw [hreg, hreg', h.registry]
    · rw [hgen, hgen', h.generation]
    · rw [hs.serve_policy, hs'.serve_policy, h.policy]

/-- A schedule shows in what is stored, counted and logged at most. -/
theorem Serves.inOrder_of_sane {q : Request} {a : Response} (h : s.Serves q a s') (hs : s.Sane)
    (hq : q.Valid) : a = (s.serve q).1 ∧ s'.Sane ∧ (s.serve q).2.Alike s' := by
  have hwarm : ∀ {desk : Desk}, desk.cache.Coherent s.registry → s.Warms (s.onDesk desk) :=
    fun hdesk => ⟨_, _, hdesk, rfl⟩
  cases h with
  | inOrder => exact ⟨rfl, (hs.serve hq).1, ⟨rfl, rfl, rfl⟩⟩
  | @many texts p schedule rs desk hend =>
    have htasks : List.Forall₂ (Sound s.registry) (texts.map (s.reply p))
        (texts.map (s.reportTask p)) := by
      rw [List.forall₂_map_left_iff, List.forall₂_map_right_iff, List.forall₂_same]
      exact fun text _ => hs.reportTask_sound p text
    obtain ⟨rfl, hdesk⟩ := eq_of_interleave htasks hs.coherent hend
    obtain ⟨hanswers, hserved⟩ := hs.reports p texts
    refine ⟨congrArg Response.many hanswers.symm, hs.warms (hwarm hdesk), ?_⟩
    exact hserved.alike.symm.trans (hwarm hdesk).alike
  | @dump p schedule rs desk hend =>
    have htasks : List.Forall₂ (Sound s.registry)
        (s.registry.definedAggregates.map fun id => (s.reportNamed id p).1)
        (s.registry.definedAggregates.map (s.reportNamedTask p)) := by
      rw [List.forall₂_map_left_iff, List.forall₂_map_right_iff, List.forall₂_same]
      exact fun id _ => hs.reportNamedTask_sound p id
    obtain ⟨rfl, hdesk⟩ := eq_of_interleave htasks hs.coherent hend
    obtain ⟨hanswers, hserved⟩ := hs.dump p
    refine ⟨?_, hs.warms (hwarm hdesk), hserved.alike.symm.trans (hwarm hdesk).alike⟩
    refine congrArg Response.dump (Eq.trans ?_ hanswers.symm)
    rw [List.zip_map', List.map_congr_left]
    intro id _
    rw [(hs.reportNamed id p).1]

theorem ServesAll.eq_answers_of_alike {qs : List Request} {as : List Response} {t : Session}
    (h : ServesAll s qs as s') (hs : s.Sane) (ht : t.Sane) (halike : t.Alike s)
    (hq : ∀ q ∈ qs, q.Valid) : as = t.answers qs := by
  induction h generalizing t with
  | nil s => rfl
  | @cons s s' s'' q a qs as hfirst _ ih =>
    obtain ⟨hq, hqs⟩ := List.forall_mem_cons.mp hq
    obtain ⟨ha, hs', hserved⟩ := hfirst.inOrder_of_sane hs hq
    obtain ⟨hsame, hnext⟩ := halike.serve ht hs hq
    rw [answers, ha, hsame, ih hs' (ht.serve hq).1 (hnext.trans hserved) hqs]

/-- Whatever workers do at once, requests are answered as in order. -/
theorem ServesAll.eq_answers {qs : List Request} {as : List Response} (h : ServesAll s qs as s')
    (hs : s.Sane) (hq : ∀ q ∈ qs, q.Valid) : as = s.answers qs :=
  h.eq_answers_of_alike hs hs ⟨rfl, rfl, rfl⟩ hq

theorem exists_schedule_many (s : Session) (p : Profile) (texts : List String) :
    ∃ schedule desk, interleave schedule (texts.map (s.reportTask p)) s.desk =
        ((reports p texts s).1.map .done, desk) ∧ (reports p texts s).2 = s.onDesk desk := by
  obtain ⟨schedule, hend⟩ :=
    Task.exists_interleave_finishAll (texts.map (s.reportTask p)) s.desk
  rw [reports_eq]
  exact ⟨schedule, _, hend, rfl⟩

theorem exists_schedule_dump (s : Session) (p : Profile) :
    ∃ schedule rs desk, interleave schedule
        (s.registry.definedAggregates.map (s.reportNamedTask p)) s.desk = (rs.map .done, desk) ∧
      s.dump p =
        ((s.registry.definedAggregates.map s.registry.qualifiedName).zip rs, s.onDesk desk) := by
  obtain ⟨schedule, hend⟩ :=
    Task.exists_interleave_finishAll (s.registry.definedAggregates.map (s.reportNamedTask p)) s.desk
  exact ⟨schedule, _, _, hend, reportsNamed_eq s p _⟩

end TypeLayout.Session
