import TypeLayout.Proofs.Layout.Audit
import TypeLayout.Proofs.Query.History
/-! What a cache counts over a run of queries that are served one after the other, the queries of one
request too: workers at once would miss one layout several times. Every miss is a layout that was
stored or that ended in an error, no layout is inserted twice, and a query that succeeded finds all it
needs when it is repeated. -/

namespace TypeLayout

abbrev Job := LayoutEnv × Descriptor

def Job.on (j : Job) (d : Desk) : Except LayoutError Layout × Desk :=
  (j.1.layoutOf j.2 : DeskM Layout).runOn d

def Job.auditOn (j : Job) (s : Audit) : Audit := ((j.1.auditedOf j.2).run s).2

namespace Desk

def after (d : Desk) (js : List Job) : Desk := js.foldl (fun d j => (j.on d).2) d

/-- None of the layouts fails when they are computed in order. -/
def Completes (d : Desk) : List Job → Prop
  | [] => True
  | j :: js => (∃ l, (j.on d).1 = .ok l) ∧ (j.on d).2.Completes js

variable {d e : Desk} {js js' : List Job}

theorem leads_on (d : Desk) (j : Job) : d.Leads (j.on d).2 :=
  (j.1.layoutOf_replays j.2).leads d

theorem leads_after (d : Desk) (js : List Job) : d.Leads (d.after js) := by
  induction js generalizing d with
  | nil => exact .refl d
  | cons j js ih => exact (d.leads_on j).trans (ih _)

theorem after_append (d : Desk) (js js' : List Job) :
    d.after (js ++ js') = (d.after js).after js' :=
  List.foldl_append

theorem Completes.append (h : d.Completes js) (h' : (d.after js).Completes js') :
    d.Completes (js ++ js') := by
  induction js generalizing d with
  | nil => exact h'
  | cons j js ih => exact ⟨h.1, ih h.2 h'⟩

/-- Layouts that were all computed before are found wherever what they left is still stored. -/
theorem Completes.rests (h : d.Completes js) (hd : d.caching = true) (he : e.caching = true)
    (hrecalls : (d.after js).cache.Recalls e.cache) : e.Rests (e.after js) := by
  induction js generalizing d e with
  | nil => exact .refl e
  | cons j js ih =>
    obtain ⟨⟨l, hl⟩, hrest⟩ := h
    have hlead := (leads_after (j.on d).2 js).recalls
    have hon : j.on d = (.ok l, (j.on d).2) := Prod.ext hl rfl
    obtain ⟨e', hagain, hrests⟩ :=
      (j.1.layoutOf_replays j.2).again hon hd e he (hlead.trans hrecalls)
    have hnext := ih hrest ((d.leads_on j).caching.trans hd) (hrests.caching.trans he)
      (hrecalls.trans (Cache.recalls_of_stored_eq hrests.stored))
    have hlast : (j.on e).2 = e' := congrArg Prod.snd hagain
    rw [after, List.foldl_cons, ← after, hlast]
    exact hrests.trans hnext

end Desk

namespace Audit

def after (s : Audit) (js : List Job) : Audit := js.foldl (fun s j => j.auditOn s) s

theorem desk_after (s : Audit) (js : List Job) : (s.after js).desk = s.desk.after js := by
  induction js generalizing s with
  | nil => rfl
  | cons j js ih =>
    have hfirst : (j.on s.desk).2 = (j.auditOn s).desk :=
      congrArg Prod.snd (j.1.auditedOf_erases j.2 s)
    rw [after, List.foldl_cons, ← after, ih, ← hfirst]
    rfl

theorem Balanced.after {s : Audit} (hs : s.Balanced []) (js : List Job) :
    (s.after js).Balanced [] := by
  induction js generalizing s with
  | nil => exact hs
  | cons j js ih => exact ih (j.1.auditedOf_keeps j.2 s hs)

end Audit

/-- A request that keeps to the current registry, and to storing layouts or not as before. -/
def Request.Queries (caching : Bool) : Request → Prop
  | install _ => False
  | reload _ => False
  | configure _ c => c = caching
  | _ => True

def Response.succeeded : Response → Bool
  | layout l => l.isOk
  | report r => r.isOk
  | many rs => rs.all (·.isOk)
  | dump rs => rs.all (·.2.isOk)
  | _ => true

namespace Session

def stats (s : Session) : CacheStats := s.current.cache.stats

def job? (s : Session) (p : Profile) (text : String) : Option Job :=
  (s.registry.resolveText text).toOption.map fun e => (s.env p, e.2)

def jobs (s : Session) : Request → List Job
  | .layout text p => (s.job? p text).toList
  | .report text p => (s.job? p text).toList
  | .many texts p => texts.flatMap fun text => (s.job? p text).toList
  | .dump p => s.registry.definedAggregates.map fun id => (s.env p, .named id)
  | _ => []

def agenda (s : Session) : List Request → List Job
  | [] => []
  | q :: qs => s.jobs q ++ (s.serve q).2.agenda qs

def audit (s : Session) (qs : List Request) : Audit := Audit.after { desk := s.desk } (s.agenda qs)

structure Computes (s : Session) (js : List Job) (ok : Bool) (s' : Session) : Prop where
  desk : s'.desk = s.desk.after js
  registry : s'.registry = s.registry
  policy : s'.policy = s.policy
  completes : ok = true → s.desk.Completes js

namespace Computes

variable {s s' s'' : Session} {js js' : List Job} {ok ok' : Bool}

theorem refl (s : Session) (ok : Bool) : s.Computes [] ok s := ⟨rfl, rfl, rfl, fun _ => trivial⟩

theorem trans (h : s.Computes js ok s') (h' : s'.Computes js' ok' s'') :
    s.Computes (js ++ js') (ok && ok') s'' where
  desk := by rw [h'.desk, h.desk, Desk.after_append]
  registry := h'.registry.trans h.registry
  policy := h'.policy.trans h.policy
  completes hok := by
    obtain ⟨hok, hok'⟩ := Bool.and_eq_true_iff.mp hok
    exact (h.completes hok).append (h.desk ▸ h'.completes hok')

theorem env_eq (h : s.Computes js ok s') (p : Profile) : s'.env p = s.env p := by
  unfold env
  rw [h.registry, h.policy]

theorem job?_eq (h : s.Computes js ok s') (p : Profile) : s'.job? p = s.job? p := by
  funext text
  unfold job?
  rw [h.registry, h.env_eq]

end Computes

variable {s : Session}

theorem computes_layoutOf (s : Session) (p : Profile) (d : Descriptor) :
    s.Computes [(s.env p, d)] (s.compute ((s.env p).layoutOf d)).1.isOk
      (s.compute ((s.env p).layoutOf d)).2 where
  desk := by
    have hcaching : (Job.on (s.env p, d) s.desk).2.caching = s.caching :=
      (s.desk.leads_on (s.env p, d)).caching
    have hdesk : ∀ desk : Desk, desk.caching = s.caching →
        (⟨desk.cache, s.caching, desk.journal⟩ : Desk) = desk := by
      rintro desk h
      rw [← h]
    exact hdesk _ hcaching
  registry := rfl
  policy := rfl
  completes hok := by
    refine ⟨?_, trivial⟩
    cases h : (Job.on (s.env p, d) s.desk).1 with
    | ok l => exact ⟨l, rfl⟩
    | error e =>
      have hfailed : (s.compute ((s.env p).layoutOf d)).1 = .error e := h
      rw [hfailed] at hok
      cases hok

theorem computes_layout (s : Session) (text : String) (p : Profile) :
    s.Computes (s.job? p text).toList (s.layoutOf text p).1.isOk (s.layoutOf text p).2 := by
  unfold Session.layoutOf job?
  cases s.registry.resolveText text with
  | error e => exact .refl s _
  | ok e => exact s.computes_layoutOf p e.2

theorem isOk_map {ε α β : Type} (f : α → β) (x : Except ε α) : (x.map f).isOk = x.isOk := by
  cases x <;> rfl

theorem computes_report (s : Session) (text : String) (p : Profile) :
    s.Computes (s.job? p text).toList (s.report text p).1.isOk (s.report text p).2 := by
  unfold Session.report job?
  cases s.registry.resolveText text with
  | error e => exact .refl s _
  | ok e =>
    dsimp only
    rw [isOk_map]
    exact s.computes_layoutOf p e.2

theorem computes_reportNamed (s : Session) (id : TypeId) (p : Profile) :
    s.Computes [(s.env p, .named id)] (s.reportNamed id p).1.isOk (s.reportNamed id p).2 := by
  unfold Session.reportNamed
  dsimp only
  rw [isOk_map]
  exact s.computes_layoutOf p (.named id)

theorem computes_reports (s : Session) (p : Profile) (texts : List String) :
    s.Computes (texts.flatMap fun text => (s.job? p text).toList)
      ((reports p texts s).1.all (·.isOk)) (reports p texts s).2 := by
  induction texts generalizing s with
  | nil => exact .refl s true
  | cons text texts ih =>
    have hfirst := s.computes_report text p
    have hrest := ih (s.report text p).2
    rw [hfirst.job?_eq] at hrest
    exact hfirst.trans hrest

theorem computes_reportsNamed (s : Session) (p : Profile) (ids : List TypeId) :
    s.Computes (ids.map fun id => (s.env p, .named id))
      ((reportsNamed p ids s).1.all (·.2.isOk)) (reportsNamed p ids s).2 := by
  induction ids generalizing s with
  | nil => exact .refl s true
  | cons id ids ih =>
    have hfirst := s.computes_reportNamed id p
    have hrest := ih (s.reportNamed id p).2
    rw [hfirst.env_eq] at hrest
    exact hfirst.trans hrest

theorem serve_queries {q : Request} (hq : q.Queries s.caching) :
    (s.serve q).2.desk = s.desk.after (s.jobs q) ∧ (s.serve q).2.registry = s.registry ∧
      ((s.serve q).1.succeeded = true → s.desk.Completes (s.jobs q)) := by
  have hcomputes : ∀ {js ok t}, s.Computes js ok t → t.desk = s.desk.after js ∧
      t.registry = s.registry ∧ (ok = true → s.desk.Completes js) :=
    fun h => ⟨h.desk, h.registry, h.completes⟩
  cases q with
  | layout text p => exact hcomputes (s.computes_layout text p)
  | report text p => exact hcomputes (s.computes_report text p)
  | many texts p => exact hcomputes (s.computes_reports p texts)
  | dump p => exact hcomputes (s.computes_reportsNamed p _)
  | install r => exact hq.elim
  | reload u => exact hq.elim
  | configure policy caching =>
    obtain rfl : caching = s.caching := hq
    exact ⟨rfl, rfl, fun _ => trivial⟩

theorem caching_of_desk {s' : Session} {js : List Job} (h : s'.desk = s.desk.after js) :
    s'.caching = s.caching :=
  (congrArg Desk.caching h).trans (s.desk.leads_after js).caching

theorem after_queries {qs : List Request} (hq : ∀ q ∈ qs, q.Queries s.caching) :
    (s.after qs).desk = s.desk.after (s.agenda qs) ∧ (s.after qs).registry = s.registry := by
  induction qs generalizing s with
  | nil => exact ⟨rfl, rfl⟩
  | cons q qs ih =>
    obtain ⟨hfirst, hrest⟩ := List.forall_mem_cons.mp hq
    obtain ⟨hdesk, hreg, -⟩ := serve_queries hfirst
    obtain ⟨hdesk', hreg'⟩ := ih (s := (s.serve q).2) (by rwa [caching_of_desk hdesk])
    refine ⟨hdesk'.trans ?_, hreg'.trans hreg⟩
    rw [agenda, Desk.after_append, hdesk]

/-- What the counts of a session say about the queries that it served since its cache was empty. -/
structure Accounted (s : Session) (qs : List Request) : Prop where
  recorded : (s.audit qs).desk = (s.after qs).desk
  /-- The layouts that failed, each level of nesting by itself, are all that was missed in vain. -/
  misses : (s.after qs).stats.misses =
    (s.after qs).stats.entries + (s.audit qs).failed.length
  once : (s.audit qs).inserted.Nodup
  stored : (s.audit qs).inserted = (s.after qs).current.cache.stored.map Prod.fst
  repeated : ∀ before q later, qs = before ++ q :: later →
    ((s.after before).serve q).1.succeeded = true →
    (s.after before).policy = (s.after qs).policy →
    ((s.after qs).serve q).2.stats.misses = (s.after qs).stats.misses ∧
      ((s.after qs).serve q).2.stats.entries = (s.after qs).stats.entries

theorem jobs_eq {s' : Session} (hr : s'.registry = s.registry) (hp : s'.policy = s.policy) :
    s'.jobs = s.jobs := by
  have henv : s'.env = s.env := by
    funext p
    unfold env
    rw [hr, hp]
  funext q
  cases q <;> simp only [jobs, job?, hr, henv]

theorem after_append (s : Session) (qs qs' : List Request) :
    s.after (qs ++ qs') = (s.after qs).after qs' :=
  List.foldl_append

/-- A query that succeeded once finds everything, whatever was asked in between. -/
theorem rests_of_succeeded {q : Request} {later : List Request} (hc : s.caching = true)
    (hq : q.Queries true) (hlater : ∀ x ∈ later, x.Queries true)
    (hok : (s.serve q).1.succeeded = true) (hp : (s.after (q :: later)).policy = s.policy) :
    (s.after (q :: later)).desk.Rests ((s.after (q :: later)).serve q).2.desk := by
  obtain ⟨hdesk, hreg, hcompletes⟩ := serve_queries (hc.symm ▸ hq)
  have hc₁ := (caching_of_desk hdesk).trans hc
  obtain ⟨hdesk', hreg'⟩ := after_queries (hc₁.symm ▸ hlater)
  have hc₂ : (s.after (q :: later)).caching = true := (caching_of_desk hdesk').trans hc₁
  obtain ⟨hagain, -, -⟩ := serve_queries (s := s.after (q :: later)) (hc₂.symm ▸ hq)
  have hjobs : (s.after (q :: later)).jobs = s.jobs := jobs_eq (hreg'.trans hreg) hp
  rw [hagain, hjobs]
  refine (hcompletes hok).rests hc hc₂ ?_
  have hlead := (s.serve q).2.desk.leads_after ((s.serve q).2.agenda later)
  rw [← hdesk', hdesk] at hlead
  exact hlead.recalls

/-- With stored layouts the misses are the entries and the failures; without, nothing is counted. -/
theorem after_accounted {qs : List Request} (hfresh : s.current.cache = {})
    (hq : ∀ q ∈ qs, q.Queries s.caching) :
    (s.caching = true → s.Accounted qs) ∧
      (s.caching = false → (s.after qs).stats = ⟨0, 0, 0⟩) := by
  obtain ⟨hdesk, -⟩ := after_queries hq
  constructor
  · intro hc
    have hrecorded : (s.audit qs).desk = (s.after qs).desk :=
      (Audit.desk_after _ _).trans hdesk.symm
    have hstart : Audit.Balanced [] { desk := s.desk } := by
      refine ⟨hc, ?_, List.nodup_nil, ?_⟩
      · simp [desk, hfresh]
      · simp [desk, hfresh]
    have hend : (s.audit qs).Balanced [] := hstart.after (s.agenda qs)
    have hcache : (s.audit qs).desk.cache = (s.after qs).current.cache :=
      congrArg Desk.cache hrecorded
    have hstored := hend.stored
    have hcounted := hend.counted
    rw [hcache] at hstored hcounted
    refine ⟨hrecorded, ?_, hend.once, hstored.symm, ?_⟩
    · have hsize := congrArg List.length hstored
      rw [List.length_map] at hsize
      simp only [stats, Cache.stats, Cache.size, List.length_nil] at hcounted ⊢
      omega
    · rintro before q later rfl hok hp
      rw [hc] at hq
      obtain ⟨hbefore, hrest⟩ := List.forall_mem_append.mp hq
      obtain ⟨hq, hlater⟩ := List.forall_mem_cons.mp hrest
      obtain ⟨hfirst, -⟩ := after_queries (hc.symm ▸ hbefore)
      rw [after_append] at hp ⊢
      have hrests := rests_of_succeeded ((caching_of_desk hfirst).trans hc) hq hlater hok hp.symm
      exact ⟨hrests.misses, congrArg List.length hrests.stored⟩
  · intro hc
    have hcache := (s.desk.leads_after (s.agenda qs)).idle hc
    rw [← hdesk] at hcache
    have hempty : (s.after qs).current.cache = {} := hcache.trans hfresh
    unfold stats
    rw [hempty]
    rfl

/-- A path of a line between a point and something too large to be laid out. -/
def pathUnit : SourceUnit where
  declarations :=
    [.record ⟨.structType, some "Point", [], [⟨"x", .fundamental "int", none⟩], [], []⟩,
     .record ⟨.structType, some "Vast", [],
      [⟨"x", .array (.fundamental "int") 0x8000000000000000, none⟩], [], []⟩,
     .record ⟨.structType, some "Line", [], [⟨"start", .named "Point", none⟩,
      ⟨"stop", .named "Vast", none⟩], [], []⟩,
     .record ⟨.structType, some "Path", [], [⟨"first", .named "Line", none⟩], [], []⟩]

def pathSession : Session := onRegistry pathUnit.resolve.2.registry .itaniumBaseline true

/-- The path fails in its line, the line in what is too large, and later both of them again. -/
def pathRequests : List Request :=
  [.report "Path" .lp64, .many ["Point[2]", "Nope", "Line"] .lp64,
   .configure .strictSequential true, .layout "Point" .ilp32]

theorem pathRequests_accounted : pathSession.current.cache = {} ∧
    (∀ q ∈ pathRequests, q.Queries pathSession.caching) ∧ pathSession.Accounted pathRequests ∧
    (pathSession.after pathRequests).stats = ⟨2, 2, 7⟩ ∧
    (pathSession.audit pathRequests).failed.length = 5 := by
  have hq : ∀ q ∈ pathRequests, q.Queries pathSession.caching := by
    simp [pathRequests, Request.Queries, pathSession, onRegistry]
  exact ⟨rfl, hq, (after_accounted rfl hq).1 rfl, by decide +kernel, by decide +kernel⟩

end Session

end TypeLayout
