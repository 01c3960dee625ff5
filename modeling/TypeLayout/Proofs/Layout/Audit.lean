import TypeLayout.Proofs.Layout.Replay
/-! What is computed and what is stored. An audited computation also records which layouts were
inserted and which were started and ended in an error; it answers what the computation without
records answers and leaves the same desk. Every miss is a layout that is in progress, was inserted
or has failed, and no layout is inserted twice. -/

namespace TypeLayout

open LayoutHost (note fetch store)

/-- A desk with a record of the layouts that were started at it. -/
structure Audit where
  desk : Desk
  inserted : List LayoutKey := []
  failed : List LayoutKey := []

namespace Audit

def fetch (s : Audit) (key : LayoutKey) : Option Layout × Audit :=
  ((s.desk.fetch key).1, { s with desk := (s.desk.fetch key).2 })

def store (s : Audit) (key : LayoutKey) (l : Layout) : Layout × Audit :=
  ((s.desk.store key l).1,
    { s with
      desk := (s.desk.store key l).2
      inserted := if s.desk.caching then s.inserted ++ [key] else s.inserted })

def log (s : Audit) (e : Log.Entry) : Audit := { s with desk := s.desk.log e }

def close (started : Option LayoutKey) (s : Audit) : Except LayoutError Layout → Audit
  | .ok _ => s
  | .error _ => { s with failed := s.failed ++ started.toList }

@[simp] theorem desk_close (started : Option LayoutKey) (s : Audit)
    (l : Except LayoutError Layout) : (s.close started l).desk = s.desk := by
  cases l <;> rfl

@[simp] theorem close_none (s : Audit) (l : Except LayoutError Layout) : s.close none l = s := by
  cases l with
  | ok l => rfl
  | error e => simp [close]

end Audit

abbrev AuditM := ExceptT LayoutError (StateM Audit)

instance : LayoutHost AuditM where
  fetch key := ExceptT.lift fun s => s.fetch key
  store key l := ExceptT.lift fun s => s.store key l
  note e := ExceptT.lift fun s => ((), s.log e.entry)

namespace LayoutEnv

def starts? (env : LayoutEnv) (desk : Desk) (trail : Trail) : Descriptor → Option LayoutKey
  | .named id => match env.registry.definition? id with
    | some (.aggregate _) =>
      if (trail.find? (·.id == id)).isNone && (desk.fetch (env.key id)).1.isNone then
        some (env.key id)
      else none
    | _ => none
  | _ => none

def audited (env : LayoutEnv) (f : Descend AuditM) : Descend AuditM := fun trail d =>
  ExceptT.mk fun s =>
    let (l, s') := (f trail d).run s
    (l, s'.close (env.starts? s.desk trail d) l)

def auditedWithin (env : LayoutEnv) : Nat → Descend AuditM
  | 0 => env.layoutWithin 0
  | n + 1 => env.audited (env.layoutStep (env.auditedWithin n))

def auditedOf (env : LayoutEnv) (d : Descriptor) : AuditM Layout :=
  env.auditedWithin (env.registry.layoutFuel d) [] d

theorem audited_run (env : LayoutEnv) (f : Descend AuditM) (trail : Trail) (d : Descriptor)
    (s : Audit) : (env.audited f trail d).run s = (((f trail d).run s).1,
      ((f trail d).run s).2.close (env.starts? s.desk trail d) ((f trail d).run s).1) := rfl

end LayoutEnv

namespace AuditM

variable {α : Type}

theorem run_fetch (key : LayoutKey) (f : Option Layout → AuditM α) (s : Audit) :
    (fetch key >>= f).run s = (f (s.fetch key).1).run (s.fetch key).2 := rfl

theorem run_store (key : LayoutKey) (l : Layout) (s : Audit) :
    (store key l : AuditM Layout).run s = (.ok (s.store key l).1, (s.store key l).2) := rfl

def Erases (x : AuditM α) (y : DeskM α) : Prop :=
  ∀ s, y.run s.desk = ((x.run s).1, (x.run s).2.desk)

theorem commutesErases : Commutes (m := AuditM) (n := DeskM) fun _ x y => Erases x y where
  lift x s := by
    rw [run_ofExcept, run_ofExcept]
  bind := by
    intro α β x y f g hx hf s
    have hfirst := hx s
    rcases hrun : x.run s with ⟨e | a, s₁⟩
    · rw [hrun] at hfirst
      rw [run_bind_error hrun, run_bind_error hfirst]
    · rw [hrun] at hfirst
      rw [run_bind_ok hrun, run_bind_ok hfirst]
      exact hf a s₁
  inMember := by
    intro α x y name hx s
    have hfirst := hx s
    unfold inMember
    rcases hrun : x.run s with ⟨e | a, s₁⟩
    · rw [hrun] at hfirst
      rw [run_tryCatch_error hrun, run_tryCatch_error hfirst]
      rfl
    · rw [hrun] at hfirst
      rw [run_tryCatch_ok hrun, run_tryCatch_ok hfirst]
  note e s := rfl
  fetch key s := rfl
  store key l s := rfl

end AuditM

namespace LayoutEnv

open AuditM (Erases commutesErases)

variable {env : LayoutEnv} {f : Descend AuditM} {trail : Trail}

theorem audited_erases {d : Descriptor} {y : DeskM Layout} (h : Erases (f trail d) y) :
    Erases (env.audited f trail d) y := by
  intro s
  rw [h s, audited_run, Audit.desk_close]

theorem auditedWithin_erases (env : LayoutEnv) (n : Nat) (trail : Trail) (d : Descriptor) :
    Erases (env.auditedWithin n trail d) (env.layoutWithin n trail d) := by
  induction n generalizing trail d with
  | zero => exact commutesErases.throw _
  | succ n ih =>
    refine audited_erases (commutesErases.layoutStep (fun name d => ih _ d) (ih trail) ?_)
    rintro id -
    refine commutesErases.named (ih trail) id fun a => commutesErases.namedAggregate id ?_
    exact commutesErases.aggregate (fun name d => ih _ d) a _

theorem auditedOf_erases (env : LayoutEnv) (d : Descriptor) :
    Erases (env.auditedOf d) (env.layoutOf d) :=
  auditedWithin_erases env _ [] d

end LayoutEnv

/-- Layouts of the started keys are in progress; all the others that were started are inserted or
have failed. -/
structure Audit.Balanced (started : List LayoutKey) (s : Audit) : Prop where
  caching : s.desk.caching = true
  stored : s.desk.cache.stored.map Prod.fst = s.inserted
  once : (started ++ s.inserted).Nodup
  counted : s.desk.cache.misses = started.length + s.inserted.length + s.failed.length

theorem Cache.get?_eq_none {c : Cache} {key : LayoutKey} :
    c.get? key = none ↔ key ∉ c.stored.map Prod.fst := by
  rw [get?, List.lookup_eq_none_iff]
  constructor
  · intro h hmem
    obtain ⟨p, hp, rfl⟩ := List.mem_map.mp hmem
    simpa using h p hp
  · intro h p hp
    rw [bne_iff_ne]
    rintro rfl
    exact h (List.mem_map_of_mem hp)

namespace Audit

variable {started : List LayoutKey} {key : LayoutKey} {s : Audit} {l : Layout}

theorem fetch_of_caching (h : s.desk.caching = true) (key : LayoutKey) : s.fetch key =
    ((s.desk.cache.fetch key).1,
      { s with desk := { s.desk with cache := (s.desk.cache.fetch key).2 } }) := by
  unfold fetch
  rw [Desk.fetch_of_caching h]

theorem store_of_caching (h : s.desk.caching = true) (key : LayoutKey) (l : Layout) :
    s.store key l = ((s.desk.cache.insert key l).1,
      { s with
        desk := { s.desk with cache := (s.desk.cache.insert key l).2 }
        inserted := s.inserted ++ [key] }) := by
  unfold store
  rw [Desk.store_of_caching h, if_pos h]

namespace Balanced

theorem found (hs : s.Balanced started) (h : (s.fetch key).1 = some l) :
    (s.fetch key).2.Balanced started := by
  rw [fetch_of_caching hs.caching] at h ⊢
  have hget := (s.desk.cache.fetch_fst key).symm.trans h
  rw [Cache.fetch_of_get?_eq_some hget]
  exact ⟨hs.caching, hs.stored, hs.once, hs.counted⟩

theorem start (hs : s.Balanced started) (hnew : key ∉ started) (h : (s.fetch key).1 = none) :
    (s.fetch key).2.Balanced (key :: started) := by
  rw [fetch_of_caching hs.caching] at h ⊢
  have hget := (s.desk.cache.fetch_fst key).symm.trans h
  have hfresh : key ∉ s.inserted := hs.stored ▸ Cache.get?_eq_none.mp hget
  rw [Cache.fetch_of_get?_eq_none hget]
  refine ⟨hs.caching, hs.stored, ?_, ?_⟩
  · rw [List.cons_append]
    exact List.nodup_cons.mpr ⟨by simp [hnew, hfresh], hs.once⟩
  · have hcounted := hs.counted
    dsimp only
    rw [List.length_cons]
    omega

theorem get?_eq_none (hs : s.Balanced (key :: started)) : s.desk.cache.get? key = none := by
  rw [Cache.get?_eq_none, hs.stored]
  have hnew := (List.nodup_cons.mp hs.once).1
  exact fun hmem => hnew (List.mem_append_right started hmem)

theorem finish (hs : s.Balanced (key :: started)) (l : Layout) :
    (s.store key l).2.Balanced started := by
  rw [store_of_caching hs.caching, Cache.insert_of_get?_eq_none hs.get?_eq_none]
  refine ⟨hs.caching, ?_, ?_, ?_⟩
  · simp [hs.stored]
  · have hperm : (key :: started ++ s.inserted).Perm (started ++ (s.inserted ++ [key])) := by
      rw [← List.append_assoc]
      exact (List.perm_append_singleton key _).symm
    exact hperm.nodup_iff.mp hs.once
  · have hcounted := hs.counted
    simp only [List.length_cons, List.length_append, List.length_nil] at hcounted ⊢
    omega

theorem fail (hs : s.Balanced (key :: started)) (e : LayoutError) :
    (s.close (some key) (.error e)).Balanced started := by
  refine ⟨hs.caching, hs.stored, (List.nodup_cons.mp hs.once).2, ?_⟩
  have hcounted := hs.counted
  simp only [close, Option.toList_some, List.length_cons, List.length_append, List.length_nil]
    at hcounted ⊢
  omega

end Balanced

def Stays (started : List LayoutKey) (s s' : Audit) : Prop :=
  s.Balanced started → s'.Balanced started

theorem Stays.trans {s' s'' : Audit} (h : Stays started s s') (h' : Stays started s' s'') :
    Stays started s s'' :=
  fun hs => h' (h hs)

end Audit

namespace AuditM

variable {α : Type} {started : List LayoutKey}

/-- All that is started is also ended. -/
def Keeps (started : List LayoutKey) (x : AuditM α) : Prop :=
  ∀ s, Audit.Stays started s (x.run s).2

theorem relatesKeeps (started : List LayoutKey) :
    Relates (m := AuditM) (n := AuditM) fun _ x _ => Keeps started x where
  lift x s := by
    rw [run_ofExcept]
    exact id
  bind hx hf := run_bind_keeps (R := Audit.Stays started) .trans hx hf
  inMember name hx := run_tryCatch_keeps (R := Audit.Stays started) .trans hx fun e s => id
  note e s hs := ⟨hs.caching, hs.stored, hs.once, hs.counted⟩

end AuditM

namespace LayoutEnv

open AuditM (Keeps relatesKeeps run_fetch run_store)

variable {env : LayoutEnv} {f : Descend AuditM} {trail : Trail}

def keys (env : LayoutEnv) (trail : Trail) : List LayoutKey := trail.map fun f => env.key f.id

@[simp] theorem keys_enter (env : LayoutEnv) (name : String) (trail : Trail) :
    env.keys (trail.enter name) = env.keys trail := by
  cases trail <;> rfl

theorem key_not_mem_keys {id : TypeId} (h : trail.find? (·.id == id) = none) :
    env.key id ∉ env.keys trail := by
  intro hid
  obtain ⟨frame, hframe, heq⟩ := List.mem_map.mp hid
  have hne := List.find?_eq_none.mp h frame hframe
  exact hne (beq_iff_eq.mpr (congrArg LayoutKey.id heq))

/-- A layout that is started is inserted or fails; the step alone leaves a failed one open, so the
balance is that of the step with its end. -/
theorem namedAggregate_keeps {id : TypeId} {a : Aggregate} {s : Audit}
    (ha : env.registry.definition? id = some (.aggregate a))
    (hagg : Keeps (env.keys (⟨id, ""⟩ :: trail))
      (env.aggregate f (⟨id, ""⟩ :: trail) a (env.registry.qualifiedName id)))
    (hs : s.Balanced (env.keys trail)) :
    (((env.namedAggregate f trail id a).run s).2.close (env.starts? s.desk trail (.named id))
      ((env.namedAggregate f trail id a).run s).1).Balanced (env.keys trail) := by
  unfold namedAggregate starts?
  dsimp only
  rw [ha]
  cases hfind : trail.find? (·.id == id) with
  | some frame => exact (s.close_none _).symm ▸ hs
  | none =>
    dsimp only
    rw [run_fetch]
    cases hl : (s.fetch (env.key id)).1 with
    | some l =>
      have hfound := hs.found hl
      have hdesk : (s.desk.fetch (env.key id)).1 = some l := hl
      rw [hdesk]
      exact (Audit.close_none _ _).symm ▸ hfound
    | none =>
      have hstart := hs.start (key_not_mem_keys hfind) hl
      have hdesk : (s.desk.fetch (env.key id)).1 = none := hl
      rw [hdesk]
      have hrun := hagg _ hstart
      rcases hr : (env.aggregate f (⟨id, ""⟩ :: trail) a (env.registry.qualifiedName id)).run
        (s.fetch (env.key id)).2 with ⟨e | l, s'⟩
      · rw [hr] at hrun
        rw [run_bind_error hr]
        exact hrun.fail e
      · rw [hr] at hrun
        rw [run_bind_ok hr, run_store]
        exact hrun.finish l

theorem starts?_eq_none {desk : Desk} {d : Descriptor}
    (h : ¬ ∃ id a, d = .named id ∧ env.registry.definition? id = some (.aggregate a)) :
    env.starts? desk trail d = none := by
  unfold starts?
  split
  · split
    next ha => exact absurd ⟨_, _, rfl, ha⟩ h
    next => rfl
  · rfl

theorem audited_keeps (h : ∀ trail d, Keeps (env.keys trail) (f trail d)) (trail : Trail)
    (d : Descriptor) : Keeps (env.keys trail) (env.audited (env.layoutStep f) trail d) := by
  have hbelow : ∀ trail name d, Keeps (env.keys trail) (f (trail.enter name) d) :=
    fun trail name d => env.keys_enter name trail ▸ h _ d
  intro s hs
  rw [audited_run]
  -- only the name of an aggregate may start a layout; elsewhere there is nothing to close
  by_cases hagg : ∃ id a, d = .named id ∧ env.registry.definition? id = some (.aggregate a)
  · obtain ⟨id, a, rfl, ha⟩ := hagg
    have hstep : env.layoutStep f trail (.named id) = env.namedAggregate f trail id a := by
      rw [layoutStep, Registry.definition_eq_ok.mpr ha]
      rfl
    rw [hstep]
    refine namedAggregate_keeps ha ?_ hs
    exact (relatesKeeps _).aggregate (g := f) (hbelow _) a _
  · rw [starts?_eq_none hagg, Audit.close_none]
    refine (relatesKeeps _).layoutStep (g := f) (hbelow trail) (h trail) ?_ s hs
    rintro id rfl s hs
    cases hd : env.registry.definition id with
    | error e =>
      rw [layoutStep, hd]
      exact hs
    | ok definition =>
      rw [layoutStep, hd]
      cases definition with
      | typedef t => exact h trail t s hs
      | enum e => exact (relatesKeeps _).lift (env.fundamental e.underlying) s hs
      | aggregate a => exact absurd ⟨id, a, rfl, Registry.definition_eq_ok.mp hd⟩ hagg

theorem auditedWithin_keeps (env : LayoutEnv) (n : Nat) (trail : Trail) (d : Descriptor) :
    Keeps (env.keys trail) (env.auditedWithin n trail d) := by
  induction n generalizing trail d with
  | zero => exact (relatesKeeps _).throw _
  | succ n ih => exact audited_keeps ih trail d

theorem auditedOf_keeps (env : LayoutEnv) (d : Descriptor) : Keeps [] (env.auditedOf d) :=
  auditedWithin_keeps env _ [] d

end LayoutEnv

end TypeLayout
