import TypeLayout.Proofs.Layout.Coherence
/-! Layouts that were computed before. A layout that succeeded left every named aggregate below it
stored; asked for again, wherever these layouts are still there, it stores nothing and misses
nothing. -/

namespace TypeLayout

open LayoutHost (note fetch store)

namespace Cache

variable {c c' c'' : Cache} {key : LayoutKey} {l : Layout}

/-- Whatever the first cache has, the second has too. -/
def Recalls (c c' : Cache) : Prop := ∀ key l, c.get? key = some l → c'.get? key = some l

theorem Recalls.refl (c : Cache) : c.Recalls c := fun _ _ h => h

theorem Recalls.trans (h : c.Recalls c') (h' : c'.Recalls c'') : c.Recalls c'' :=
  fun key l hl => h' key l (h key l hl)

theorem recalls_of_stored_eq (h : c'.stored = c.stored) : c.Recalls c' := by
  intro key l hl
  rwa [get?, h]

theorem recalls_insert (c : Cache) (key : LayoutKey) (l : Layout) :
    c.Recalls (c.insert key l).2 := by
  intro key' l' hl'
  unfold insert
  split
  · exact hl'
  · simp only [get?, List.lookup_append] at hl' ⊢
    rw [hl']
    rfl

theorem fetch_of_get?_eq_none (h : c.get? key = none) :
    c.fetch key = (none, { c with misses := c.misses + 1 }) := by
  unfold fetch
  rw [h]

theorem fetch_of_get?_eq_some (h : c.get? key = some l) :
    c.fetch key = (some l, { c with hits := c.hits + 1 }) := by
  unfold fetch
  rw [h]

theorem insert_of_get?_eq_none (h : c.get? key = none) :
    c.insert key l = (l, { c with stored := c.stored ++ [(key, l)] }) := by
  unfold insert
  rw [h]

end Cache

/-- A later state of a desk. -/
structure Desk.Leads (d d' : Desk) : Prop where
  caching : d'.caching = d.caching
  idle : d.caching = false → d'.cache = d.cache
  recalls : d.cache.Recalls d'.cache

namespace Desk

variable {d d' d'' : Desk} {key : LayoutKey} {l : Layout}

theorem Leads.refl (d : Desk) : d.Leads d := ⟨rfl, fun _ => rfl, .refl _⟩

theorem Leads.trans (h : d.Leads d') (h' : d'.Leads d'') : d.Leads d'' where
  caching := h'.caching.trans h.caching
  idle hoff := (h'.idle (h.caching.trans hoff)).trans (h.idle hoff)
  recalls := h.recalls.trans h'.recalls

theorem leads_fetch (d : Desk) (key : LayoutKey) : d.Leads (d.fetch key).2 := by
  cases hc : d.caching with
  | false =>
    unfold fetch
    rw [hc]
    exact .refl d
  | true =>
    rw [fetch_of_caching hc]
    exact ⟨rfl, fun hoff => absurd (hc.symm.trans hoff) nofun,
      Cache.recalls_of_stored_eq (d.cache.stored_fetch key)⟩

theorem leads_store (d : Desk) (key : LayoutKey) (l : Layout) : d.Leads (d.store key l).2 := by
  cases hc : d.caching with
  | false =>
    unfold store
    rw [hc]
    exact .refl d
  | true =>
    rw [store_of_caching hc]
    exact ⟨rfl, fun hoff => absurd (hc.symm.trans hoff) nofun, d.cache.recalls_insert key l⟩

theorem get?_store (d : Desk) (hc : d.caching = true) (key : LayoutKey) (l : Layout) :
    (d.store key l).2.cache.get? key = some (d.store key l).1 := by
  rw [store_of_caching hc]
  exact d.cache.get?_insert_self key l

structure Rests (d d' : Desk) : Prop where
  caching : d'.caching = d.caching
  stored : d'.cache.stored = d.cache.stored
  misses : d'.cache.misses = d.cache.misses

theorem Rests.refl (d : Desk) : d.Rests d := ⟨rfl, rfl, rfl⟩

theorem Rests.trans (h : d.Rests d') (h' : d'.Rests d'') : d.Rests d'' :=
  ⟨h'.caching.trans h.caching, h'.stored.trans h.stored, h'.misses.trans h.misses⟩

theorem rests_of_get? (hc : d.caching = true) (h : d.cache.get? key = some l) :
    (d.fetch key).1 = some l ∧ d.Rests (d.fetch key).2 := by
  rw [fetch_of_caching hc, Cache.fetch_of_get?_eq_some h]
  exact ⟨rfl, rfl, rfl, rfl⟩

end Desk

namespace DeskM

/-- A computation that leaves behind all it needs to run again from what is stored. -/
structure Replays {α : Type} (x : DeskM α) : Prop where
  leads : ∀ d : Desk, d.Leads (x.run d).2
  again : ∀ {d d' : Desk} {a : α}, x.run d = (.ok a, d') → d.caching = true →
    ∀ e : Desk, e.caching = true → d'.cache.Recalls e.cache →
      ∃ e', x.run e = (.ok a, e') ∧ e.Rests e'

theorem run_fetch {α : Type} (key : LayoutKey) (f : Option Layout → DeskM α) (d : Desk) :
    (fetch key >>= f).run d = (f (d.fetch key).1).run (d.fetch key).2 := rfl

theorem run_store (key : LayoutKey) (l : Layout) (d : Desk) :
    (store key l : DeskM Layout).run d = (.ok (d.store key l).1, (d.store key l).2) := rfl

theorem relatesReplays : Relates (m := DeskM) (n := DeskM) fun _ x _ => Replays x where
  lift x := by
    refine ⟨fun d => ?_, fun {d d' a} hrun _ e _ _ => ?_⟩
    · rw [run_ofExcept]
      exact .refl d
    · rw [run_ofExcept] at hrun ⊢
      cases hrun
      exact ⟨e, rfl, .refl e⟩
  bind := by
    intro α β x _ f _ hx hf
    refine ⟨run_bind_keeps (R := Desk.Leads) .trans hx.leads fun a => (hf a).leads, ?_⟩
    intro d d' b hrun hc e he hrecalls
    obtain ⟨a, d₁, hfirst, hrest⟩ := run_bind_eq_ok.mp hrun
    have hlead := hx.leads d
    rw [hfirst] at hlead
    have hlater := (hf a).leads d₁
    rw [hrest] at hlater
    -- what the first part left is still there after the second, so it is there at `e`
    obtain ⟨e₁, hagain, hrests⟩ := hx.again hfirst hc e he (hlater.recalls.trans hrecalls)
    have hkept := Cache.recalls_of_stored_eq hrests.stored
    obtain ⟨e', hagain', hrests'⟩ := (hf a).again hrest (hlead.caching.trans hc) e₁
      (hrests.caching.trans he) (hrecalls.trans hkept)
    exact ⟨e', (run_bind_ok hagain).trans hagain', hrests.trans hrests'⟩
  inMember := by
    intro α x _ name hx
    refine ⟨run_tryCatch_keeps (R := Desk.Leads) .trans hx.leads fun e d => .refl d, ?_⟩
    intro d d' a hrun hc e he hrecalls
    obtain ⟨e', hagain, hrests⟩ := hx.again (run_of_tryCatch_throw hrun) hc e he hrecalls
    exact ⟨e', run_tryCatch_ok hagain, hrests⟩
  note entry := by
    refine ⟨fun d => ⟨rfl, fun _ => rfl, .refl _⟩, ?_⟩
    intro d d' a _ _ e _ _
    exact ⟨e.log entry.entry, rfl, rfl, rfl, rfl⟩

end DeskM

namespace LayoutEnv

open DeskM (Replays relatesReplays run_fetch run_store)

variable {env : LayoutEnv} {f : Descend DeskM} {trail : Trail}

theorem namedAggregate_replays {id : TypeId} {a : Aggregate}
    (hagg : Replays (env.aggregate f (⟨id, ""⟩ :: trail) a (env.registry.qualifiedName id))) :
    Replays (env.namedAggregate f trail id a) := by
  unfold namedAggregate
  dsimp only
  cases trail.find? (·.id == id) with
  | some frame => exact relatesReplays.throw _
  | none =>
    refine ⟨fun d => ?_, fun {d d' l} hrun hc e he hrecalls => ?_⟩
    · rw [run_fetch]
      refine (d.leads_fetch (env.key id)).trans ?_
      cases (d.fetch (env.key id)).1 with
      | some l => exact .refl _
      | none =>
        refine run_bind_keeps (R := Desk.Leads) .trans hagg.leads (fun l d => ?_) _
        exact d.leads_store (env.key id) l
    · have hstored : d'.cache.get? (env.key id) = some l := by
        rw [run_fetch] at hrun
        cases hl : (d.fetch (env.key id)).1 with
        | some l' =>
          rw [hl] at hrun
          cases hrun
          rw [Desk.fetch_of_caching hc] at hl ⊢
          rw [Cache.get?, d.cache.stored_fetch, ← hl, Cache.fetch_fst]
          rfl
        | none =>
          rw [hl] at hrun
          obtain ⟨l', d₁, hfirst, hstore⟩ := run_bind_eq_ok.mp hrun
          have hlead := (d.leads_fetch (env.key id)).trans (hagg.leads _)
          rw [hfirst] at hlead
          rw [run_store] at hstore
          obtain ⟨hkept, rfl⟩ := Prod.mk.inj hstore
          rw [← Except.ok.inj hkept]
          exact d₁.get?_store (hlead.caching.trans hc) _ l'
      obtain ⟨hfound, hrests⟩ := Desk.rests_of_get? he (hrecalls _ _ hstored)
      refine ⟨(e.fetch (env.key id)).2, ?_, hrests⟩
      rw [run_fetch, hfound]
      rfl

theorem layoutWithin_replays (env : LayoutEnv) (n : Nat) (trail : Trail) (d : Descriptor) :
    Replays (env.layoutWithin n trail d) := by
  induction n generalizing trail d with
  | zero => exact relatesReplays.throw _
  | succ n ih =>
    have hsame := fun d => ih trail d
    have hbelow := fun name d => ih (trail.enter name) d
    refine relatesReplays.layoutStep (g := env.layoutWithin n) hbelow hsame ?_
    rintro id -
    refine relatesReplays.named (g := env.layoutWithin n) hsame id fun a => ?_
    refine namedAggregate_replays ?_
    exact relatesReplays.aggregate (g := env.layoutWithin n) (fun name d => ih _ d) a _

theorem layoutOf_replays (env : LayoutEnv) (d : Descriptor) : Replays (env.layoutOf d) :=
  layoutWithin_replays env _ [] d

end LayoutEnv

end TypeLayout
