import TypeLayout.Proofs.Layout.Cycle
import TypeLayout.Proofs.Layout.Tasks
/-! A cache is coherent with a registry if it stores the layouts that the registry answers. A
computation that finds only such layouts, at whatever moments it looks for them, stores only such
layouts and answers what the plain one answers; so a desk stays coherent, whoever shares it, and so
does a registry that grows. -/

namespace TypeLayout

open Registry

/-- Every stored layout is the one the registry answers for its key. -/
def Cache.Coherent (r : Registry) (c : Cache) : Prop :=
  ∀ key l, c.get? key = some l →
    LayoutEnv.layoutOf ⟨r, key.machine, key.policy⟩ (.named key.id) =
      (.ok l : Except LayoutError Layout)

namespace Cache

variable {r r' : Registry} {c : Cache} {key : LayoutKey} {l : Layout}

theorem coherent_of_stored_nil (h : c.stored = []) : c.Coherent r := by
  intro key l hl
  simp [get?, h] at hl

theorem fetch_fst (c : Cache) (key : LayoutKey) : (c.fetch key).1 = c.get? key := by
  unfold fetch
  split
  next l h => exact h.symm
  next h => exact h.symm

theorem stored_fetch (c : Cache) (key : LayoutKey) : (c.fetch key).2.stored = c.stored := by
  unfold fetch
  split <;> rfl

theorem Coherent.of_stored_eq {c' : Cache} (h : c.Coherent r) (hs : c'.stored = c.stored) :
    c'.Coherent r := by
  intro key l hl
  refine h key l ?_
  rwa [get?, hs] at hl

theorem get?_insert_of_ne {key' : LayoutKey} (h : key' ≠ key) :
    (c.insert key l).2.get? key' = c.get? key' := by
  unfold insert
  split
  · rfl
  · have hne : (key' == key) = false := beq_false_of_ne h
    simp [get?, List.lookup_append, List.lookup_cons, hne]

theorem Coherent.insert (h : c.Coherent r)
    (hl : LayoutEnv.layoutOf ⟨r, key.machine, key.policy⟩ (.named key.id) =
      (.ok l : Except LayoutError Layout)) :
    (c.insert key l).1 = l ∧ (c.insert key l).2.Coherent r := by
  have hfst : (c.insert key l).1 = l := by
    unfold Cache.insert
    split
    next stored hs =>
      have hsame := (h key stored hs).symm.trans hl
      exact Except.ok.inj hsame
    next => rfl
  refine ⟨hfst, fun key' l' hl' => ?_⟩
  by_cases hk : key' = key
  · subst hk
    rw [get?_insert_self, hfst] at hl'
    rw [← Option.some.inj hl']
    exact hl
  · rw [get?_insert_of_ne hk] at hl'
    exact h key' l' hl'

theorem Coherent.growsTo (h : c.Coherent r) (hr : r.WellFormed) (hr' : r'.WellFormed)
    (hg : r.GrowsTo r') : c.Coherent r' := by
  intro key l hl
  have hok := h key l hl
  refine LayoutEnv.layoutOf_growsTo ⟨r, key.machine, key.policy⟩ hr hr' hg ?_ hok
  intro j hj
  obtain rfl := List.mem_singleton.mp hj
  exact LayoutEnv.id_lt_of_layoutOf_ok hok

end Cache

namespace Desk

variable {r : Registry} {desk : Desk} {key : LayoutKey} {l : Layout}

theorem fetch_of_caching (h : desk.caching = true) : desk.fetch key =
    ((desk.cache.fetch key).1, { desk with cache := (desk.cache.fetch key).2 }) := by
  unfold fetch
  rw [if_pos h]

theorem store_of_caching (h : desk.caching = true) : desk.store key l =
    ((desk.cache.insert key l).1, { desk with cache := (desk.cache.insert key l).2 }) := by
  unfold store
  rw [if_pos h]

theorem fetch_coherent (h : desk.cache.Coherent r) (key : LayoutKey) :
    (desk.fetch key).2.cache.Coherent r ∧ ∀ l, (desk.fetch key).1 = some l →
      LayoutEnv.layoutOf ⟨r, key.machine, key.policy⟩ (.named key.id) =
        (.ok l : Except LayoutError Layout) := by
  by_cases hc : desk.caching = true
  · rw [fetch_of_caching hc]
    refine ⟨h.of_stored_eq (desk.cache.stored_fetch key), fun l hl => ?_⟩
    exact h key l ((desk.cache.fetch_fst key).symm.trans hl)
  · unfold fetch
    rw [if_neg hc]
    exact ⟨h, fun l hl => by cases hl⟩

theorem store_coherent (h : desk.cache.Coherent r) (key : LayoutKey)
    (hl : LayoutEnv.layoutOf ⟨r, key.machine, key.policy⟩ (.named key.id) =
      (.ok l : Except LayoutError Layout)) :
    (desk.store key l).1 = l ∧ (desk.store key l).2.cache.Coherent r := by
  by_cases hc : desk.caching = true
  · rw [store_of_caching hc]
    exact h.insert hl
  · unfold store
    rw [if_neg hc]
    exact ⟨rfl, h⟩

end Desk

namespace Task

variable {α β : Type} {r : Registry} {t : Task α} {y : Except LayoutError α} {desk : Desk}

/-- Given coherent layouts, the task stores coherent layouts and ends with this answer. -/
inductive Sound (r : Registry) (y : Except LayoutError α) : Task α → Prop
  | done : Sound r y (.done y)
  | fetch {key : LayoutKey} {next : Option Layout → Task α} :
    Sound r y (next none) →
    (∀ l, LayoutEnv.layoutOf ⟨r, key.machine, key.policy⟩ (.named key.id) =
      (.ok l : Except LayoutError Layout) → Sound r y (next (some l))) →
    Sound r y (.fetch key next)
  | store {key : LayoutKey} {l : Layout} {next : Layout → Task α} :
    LayoutEnv.layoutOf ⟨r, key.machine, key.policy⟩ (.named key.id) =
      (.ok l : Except LayoutError Layout) → Sound r y (next l) → Sound r y (.store key l next)
  | note {e : Layout.Event} {next : Task α} : Sound r y next → Sound r y (.note e next)

theorem Sound.step (h : Sound r y t) (hdesk : desk.cache.Coherent r) :
    Sound r y (t.step desk).1 ∧ (t.step desk).2.cache.Coherent r := by
  cases h with
  | done => exact ⟨.done, hdesk⟩
  | @fetch key next hnone hsome =>
    obtain ⟨hcoherent, hfound⟩ := Desk.fetch_coherent hdesk key
    refine ⟨?_, hcoherent⟩
    cases hl : (desk.fetch key).1 with
    | none =>
      rw [Task.step, hl]
      exact hnone
    | some l =>
      rw [Task.step, hl]
      exact hsome l (hfound l hl)
  | @store key l next hl hnext =>
    obtain ⟨hsame, hcoherent⟩ := Desk.store_coherent hdesk key hl
    rw [Task.step, hsame]
    exact ⟨hnext, hcoherent⟩
  | note hnext => exact ⟨hnext, hdesk⟩

theorem Sound.finish (h : Sound r y t) (hdesk : desk.cache.Coherent r) :
    ∃ desk', t.finish desk = (y, desk') ∧ desk'.cache.Coherent r := by
  induction t generalizing desk with
  | done a =>
    cases h
    exact ⟨desk, rfl, hdesk⟩
  | fetch key next ih =>
    obtain ⟨hnext, hdesk'⟩ := h.step hdesk
    exact ih _ hnext hdesk'
  | store key l next ih =>
    obtain ⟨hnext, hdesk'⟩ := h.step hdesk
    exact ih _ hnext hdesk'
  | note e next ih =>
    obtain ⟨hnext, hdesk'⟩ := h.step hdesk
    exact ih hnext hdesk'

theorem turn_sound {ys : List (Except LayoutError α)} {ts : List (Task α)}
    (h : List.Forall₂ (Sound r) ys ts) (hdesk : desk.cache.Coherent r) (i : Nat) :
    List.Forall₂ (Sound r) ys (turn ts desk i).1 ∧ (turn ts desk i).2.cache.Coherent r := by
  induction h generalizing i with
  | nil => exact ⟨.nil, hdesk⟩
  | cons ht hts ih =>
    cases i with
    | zero => exact ⟨.cons (ht.step hdesk).1 hts, (ht.step hdesk).2⟩
    | succ i => exact ⟨.cons ht (ih i).1, (ih i).2⟩

theorem interleave_sound {ys : List (Except LayoutError α)} {ts : List (Task α)}
    (h : List.Forall₂ (Sound r) ys ts) (hdesk : desk.cache.Coherent r) (is : List Nat) :
    List.Forall₂ (Sound r) ys (interleave is ts desk).1 ∧
      (interleave is ts desk).2.cache.Coherent r := by
  induction is generalizing ts desk with
  | nil => exact ⟨h, hdesk⟩
  | cons i is ih =>
    obtain ⟨hts, hdesk'⟩ := turn_sound h hdesk i
    exact ih hts hdesk'

/-- Tasks that share a coherent desk end with what each ends with alone, whatever the schedule. -/
theorem eq_of_interleave {ys zs : List (Except LayoutError α)} {ts : List (Task α)} {desk' : Desk}
    {is : List Nat} (h : List.Forall₂ (Sound r) ys ts) (hdesk : desk.cache.Coherent r)
    (hend : interleave is ts desk = (zs.map done, desk')) : zs = ys ∧ desk'.cache.Coherent r := by
  obtain ⟨hts, hdesk'⟩ := interleave_sound h hdesk is
  rw [hend] at hts hdesk'
  refine ⟨?_, hdesk'⟩
  rw [List.forall₂_map_right_iff] at hts
  have heq : List.Forall₂ Eq ys zs := by
    refine hts.imp fun y z hz => ?_
    cases hz
    rfl
  rw [List.forall₂_eq_eq_eq] at heq
  exact heq.symm

theorem carriesSound (r : Registry) : Carries Task fun _ t y => Sound r y t where
  lift a := by
    rw [ofExcept_eq]
    cases a <;> exact .done
  bind := by
    intro α β t y f g ht hf
    induction ht with
    | done =>
      cases y with
      | error e => exact .done
      | ok a => exact hf a rfl
    | fetch _ _ hnone hsome => exact .fetch hnone hsome
    | store hl _ hnext => exact .store hl hnext
    | note _ hnext => exact .note hnext
  inMember := by
    intro α t y name ht
    induction ht with
    | done => cases y <;> exact .done
    | fetch _ _ hnone hsome => exact .fetch hnone hsome
    | store hl _ hnext => exact .store hl hnext
    | note _ hnext => exact .note hnext
  note e := .note .done

end Task

open TypeLayout.Task (Sound carriesSound layoutOf_cuts)

namespace LayoutEnv

variable {env : LayoutEnv} {trail : Trail} {d : Descriptor} {n : Nat}

theorem Holding.clear {r : Registry} {id : TypeId} (h : Holding r trail (.named id))
    (hid : ¬ r.Contains (.named id) (.named id)) : Clear r trail (.named id) :=
  fun f hf hc => hid (Relation.TransGen.trans_right hc (h f hf))

theorem layoutWithin_eq_of_layoutOf_ok (hr : env.registry.Founded) {id : TypeId}
    (hf : env.registry.Fits n trail (.named id)) (ht : Holding env.registry trail (.named id))
    {l : Layout} (h : env.layoutOf (.named id) = (.ok l : Except LayoutError Layout)) :
    env.layoutWithin n trail (.named id) = (.ok l : Except LayoutError Layout) := by
  have hclear := ht.clear (grounded_of_ok hr h).not_contains_self
  have hmax := hf.mono (Nat.le_max_left n (env.registry.layoutFuel (.named id)))
  rw [← iterate_layoutStep_eq hr (env.layoutWithin 0) hf hf, iterate_layoutStep_eq hr _ hf hmax]
  exact layoutWithin_ok_of_clear hr (Nat.le_max_right _ _) hclear h

theorem namedAggregate_sound (hr : env.registry.Founded) {id : TypeId} {a : Aggregate}
    (ha : env.registry.definition? id = some (.aggregate a))
    (hf : env.registry.Fits (n + 1) trail (.named id))
    (ht : Holding env.registry trail (.named id))
    (hagg : trail.find? (·.id == id) = none →
      Sound env.registry
        (env.aggregate (env.layoutWithin n) (⟨id, ""⟩ :: trail) a (env.registry.qualifiedName id))
        (env.aggregate (env.layoutWithin n) (⟨id, ""⟩ :: trail) a
          (env.registry.qualifiedName id))) :
    Sound env.registry (env.namedAggregate (env.layoutWithin n) trail id a)
      (env.namedAggregate (env.layoutWithin n) trail id a) := by
  have hplain : env.layoutWithin (n + 1) trail (.named id) =
      (env.namedAggregate (env.layoutWithin n) trail id a : Except LayoutError Layout) := by
    rw [← definition_eq_ok] at ha
    simp only [layoutWithin, layoutStep, ha]
    rfl
  have hsame : ∀ l, env.layoutOf (.named id) = (.ok l : Except LayoutError Layout) →
      env.namedAggregate (env.layoutWithin n) trail id a = (.ok l : Except LayoutError Layout) := by
    intro l hl
    rw [← hplain]
    exact layoutWithin_eq_of_layoutOf_ok hr hf ht hl
  have hanswer : ∀ l, env.namedAggregate (env.layoutWithin n) trail id a =
      (.ok l : Except LayoutError Layout) →
      env.layoutOf (.named id) = (.ok l : Except LayoutError Layout) := by
    intro l hl
    exact layoutOf_of_ok hr (hplain.trans hl)
  rw [namedAggregate_plain] at hsame hanswer ⊢
  unfold namedAggregate
  dsimp only
  cases hfind : trail.find? (·.id == id) with
  | some frame => exact (carriesSound env.registry).throw _
  | none =>
    simp only [hfind] at hsame hanswer
    refine .fetch ?_ fun l hl => ?_
    · have hend : ∀ l, env.layoutOf (.named id) = (.ok l : Except LayoutError Layout) →
          Sound env.registry (.ok l) (LayoutHost.store (env.key id) l : Task Layout) :=
        fun l hl => .store hl .done
      have hstore := (carriesSound env.registry).bind (hagg hfind) fun l hl =>
        hend l (hanswer l hl)
      have hpure : ∀ x : Except LayoutError Layout, (x >>= fun l => .ok l) = x := by
        intro x
        cases x <;> rfl
      rw [hpure] at hstore
      exact hstore
    · -- what is stored was laid out from an empty trail; here it is met below frames that hold it
      rw [hsame l hl]
      exact .done

theorem layoutWithin_sound (hr : env.registry.Founded) (hf : env.registry.Fits n trail d)
    (ht : Holding env.registry trail d) :
    Sound env.registry (env.layoutWithin n trail d) (env.layoutWithin n trail d) := by
  induction n generalizing trail d with
  | zero => exact absurd hf not_fits_zero
  | succ n ih =>
    have hR := carriesSound env.registry
    have hheld := layoutWithin_listsHeld env hr n
    have hagg : ∀ {trail a owner}, env.registry.Fits (n + 1) trail (.aggregate a) →
        (∀ x, env.registry.Contains (.aggregate a) x → Holding env.registry trail x) →
        Sound env.registry (env.aggregate (env.layoutWithin n) trail a owner)
          (env.aggregate (env.layoutWithin n) trail a owner) := by
      intro trail a owner hf ht
      refine hR.aggregate (Matches.same hR env (env.layoutWithin n) trail a) ?_ owner
      intro name x hx
      exact ih (hx.fits hr hheld hf) ((ht x (hx.contained hr hheld)).enter name)
    refine hR.layoutStep ?_ ?_ (fun _ _ _ _ => hR.lift _) ?_ (fun _ _ => hR.lift _) ?_ ?_
    · rfl
    · rintro x count rfl
      have hw : x.weight < (Descriptor.array x count).weight := Nat.lt_succ_self _
      exact ih (hf.inside (x := x) (fun _ hid => hid) hw) (ht.reached (.single .element))
    · rintro a rfl
      exact hagg hf fun x hx => ht.reached hx.to_reflTransGen
    · rintro id t rfl hd
      rw [definition_eq_ok] at hd
      exact ih (hf.typedef hr hd) (ht.reached (.single (.target hd)))
    · rintro id a rfl hd
      rw [definition_eq_ok] at hd
      refine namedAggregate_sound hr hd hf ht fun hnone => ?_
      exact hagg (hf.body hd hnone) fun x hx =>
        ht.push (Relation.TransGen.head (.body hd) hx)

theorem layoutOf_sound (hr : env.registry.Founded) (d : Descriptor) :
    Sound env.registry (env.layoutOf d) (env.layoutOf d) :=
  layoutWithin_sound hr (env.registry.fits_layoutFuel d) fun f hf => by cases hf

theorem layoutOf_agrees (hr : env.registry.Founded) (d : Descriptor) {desk : Desk}
    (h : desk.cache.Coherent env.registry) :
    ∃ desk', (env.layoutOf d : DeskM Layout).runOn desk = (env.layoutOf d, desk') ∧
      desk'.cache.Coherent env.registry := by
  obtain ⟨desk', hrun, hcoherent⟩ := (layoutOf_sound hr d).finish h
  exact ⟨desk', (layoutOf_cuts env d desk).trans hrun, hcoherent⟩

end LayoutEnv

end TypeLayout
