import TypeLayout.Proofs.Registry.Finding
import TypeLayout.Proofs.Registry.Growth
import TypeLayout.Proofs.Registry.Linked
import TypeLayout.Proofs.Stateful
import TypeLayout.Source.Resolution
/-! What steps of a resolution ensure. Whether it fails or not, a step keeps an invariant of the
registry and lets the registry grow; if it answers, its answer is related to the registry it
leaves. -/

namespace TypeLayout

open Registry

inductive Ensures (I : Registry → Prop) {α : Type} (z : Resolution) (x : ResolveM α)
    (Q : α → Registry → Prop) : Prop
  | answer {a : α} {z' : Resolution} : x.run z = (.ok a, z') → I z'.registry →
    z.registry.GrowsTo z'.registry → Q a z'.registry → Ensures I z x Q
  | failure {e : LayoutError} {z' : Resolution} : x.run z = (.error e, z') → I z'.registry →
    z.registry.GrowsTo z'.registry → Ensures I z x Q

structure Durable (I : Registry → Prop) : Prop where
  treelike : ∀ {r}, I r → r.Treelike
  global_lt : ∀ {r}, I r → ScopeId.global.index < r.scopes.size
  declare : ∀ {r r' : Registry} {s : ScopeId} {name : String} {tag : TagKind} {id : TypeId}, I r →
    s.index < r.scopes.size → r.declare s name tag = .ok (id, r') → I r'

namespace Ensures

variable {I : Registry → Prop} {α β : Type} {z : Resolution} {x : ResolveM α}
  {Q : α → Registry → Prop} {S : β → Registry → Prop}

theorem kept (h : Ensures I z x Q) : I (x.run z).2.registry := by
  cases h with
  | answer hrun hkept _ _ =>
    rw [hrun]
    exact hkept
  | failure hrun hkept _ =>
    rw [hrun]
    exact hkept

theorem kept_of_run (h : Ensures I z x Q) {a : Except LayoutError α} {z' : Resolution}
    (hrun : x.run z = (a, z')) : I z'.registry := by
  have hkept := h.kept
  rw [hrun] at hkept
  exact hkept

theorem grows_of_run (h : Ensures I z x Q) {a : Except LayoutError α} {z' : Resolution}
    (hrun : x.run z = (a, z')) : z.registry.GrowsTo z'.registry := by
  cases h with
  | answer hrun' _ hgrows _ =>
    cases hrun.symm.trans hrun'
    exact hgrows
  | failure hrun' _ hgrows =>
    cases hrun.symm.trans hrun'
    exact hgrows

theorem of_answer (h : Ensures I z x Q) {a : α} {z' : Resolution} (hrun : x.run z = (.ok a, z')) :
    Q a z'.registry := by
  cases h with
  | answer hrun' _ _ hq =>
    cases hrun.symm.trans hrun'
    exact hq
  | failure hrun' _ _ => cases hrun.symm.trans hrun'

theorem consequence (h : Ensures I z x Q) {Q' : α → Registry → Prop}
    (hq : ∀ a r, Q a r → Q' a r) : Ensures I z x Q' := by
  cases h with
  | answer hrun hkept hgrows h => exact .answer hrun hkept hgrows (hq _ _ h)
  | failure hrun hkept hgrows => exact .failure hrun hkept hgrows

theorem after {z' : Resolution} {y : ResolveM α} (h : Ensures I z' y Q)
    (hrun : x.run z = y.run z') (hgrows : z.registry.GrowsTo z'.registry) : Ensures I z x Q := by
  cases h with
  | answer hy hkept hg hq => exact .answer (hrun.trans hy) hkept (hgrows.trans hg) hq
  | failure hy hkept hg => exact .failure (hrun.trans hy) hkept (hgrows.trans hg)

theorem pure (hz : I z.registry) {a : α} (h : Q a z.registry) :
    Ensures I z (pure a : ResolveM α) Q :=
  .answer rfl hz (.refl _) h

theorem throw (hz : I z.registry) (e : LayoutError) : Ensures I z (throw e : ResolveM α) Q :=
  .failure rfl hz (.refl _)

theorem ofExcept (hz : I z.registry) {y : Except LayoutError α}
    (h : ∀ a, y = .ok a → Q a z.registry) : Ensures I z (ofExcept y : ResolveM α) Q := by
  cases y with
  | ok a => exact .answer (run_ofExcept _ z) hz (.refl _) (h a rfl)
  | error e => exact .failure (run_ofExcept _ z) hz (.refl _)

theorem bind (hx : Ensures I z x Q) {f : α → ResolveM β}
    (hf : ∀ a z', I z'.registry → z.registry.GrowsTo z'.registry → Q a z'.registry →
      Ensures I z' (f a) S) : Ensures I z (x >>= f) S := by
  cases hx with
  | answer hrun hkept hgrows hq => exact (hf _ _ hkept hgrows hq).after (run_bind_ok hrun) hgrows
  | failure hrun hkept hgrows => exact .failure (run_bind_error hrun) hkept hgrows

theorem tryCatch (hx : Ensures I z x Q) {f : LayoutError → ResolveM α}
    (hf : ∀ e z', I z'.registry → Ensures I z' (f e) Q) :
    Ensures I z (tryCatch x f) Q := by
  cases hx with
  | answer hrun hkept hgrows hq => exact .answer (run_tryCatch_ok hrun) hkept hgrows hq
  | failure hrun hkept hgrows => exact (hf _ _ hkept).after (run_tryCatch_error hrun) hgrows

theorem discard (hx : Ensures I z x Q) : Ensures I z (discard x) fun _ _ => True := by
  rw [discard_eq_bind]
  exact hx.bind fun a z' hz' _ _ => .pure hz' trivial

theorem ask {f : Registry → ResolveM α} (h : Ensures I z (f z.registry) Q) :
    Ensures I z (ResolveM.registry >>= f) Q :=
  h.after (run_bind_ok rfl) (.refl _)

theorem check (hz : I z.registry) {y : Except LayoutError α} {f : α → ResolveM β}
    (h : ∀ a, y = .ok a → Ensures I z (f a) S) : Ensures I z (MonadExcept.ofExcept y >>= f) S := by
  cases y with
  | error e => exact .failure (run_bind_error (run_ofExcept _ z)) hz (.refl _)
  | ok a => exact (h a rfl).after (run_bind_ok (run_ofExcept _ z)) (.refl _)

theorem update (hz : I z.registry) {f : Resolution → Resolution}
    (hf : (f z).registry = z.registry) :
    Ensures I z (modify f : ResolveM Unit) fun _ r => r = z.registry := by
  refine .answer (a := ()) rfl ?_ ?_ hf
  · rw [hf]
    exact hz
  · rw [hf]
    exact .refl _

theorem note (hz : I z.registry) (level : Log.Level) (origin message : String) :
    Ensures I z (ResolveM.note level origin message) fun _ r => r = z.registry :=
  update hz rfl

theorem install {r : Registry} (hr : I r) (hg : z.registry.GrowsTo r) :
    Ensures I z (modify fun z => { z with registry := r } : ResolveM Unit) fun _ r' => r = r' :=
  .answer rfl hr hg rfl

variable {s : ScopeId} {name : String}

theorem declare (hI : Durable I) (hz : I z.registry) (hs : s.index < z.registry.scopes.size)
    (tag : TagKind) :
    Ensures I z (ResolveM.declare s name tag) fun id r => r.boundTag? s name = some id := by
  refine ask (check hz fun p hp => ?_)
  obtain ⟨id, r⟩ := p
  refine (install (hI.declare hz hs hp) (growsTo_declare hp)).bind fun _ z₁ hz₁ _ h₁ => ?_
  exact .pure hz₁ (h₁ ▸ (declare_bound hs hp).1)

theorem define (hz : I z.registry) {d : Definition}
    (hd : ∀ id r, z.registry.define s name d = .ok (id, r) → I r) :
    Ensures I z (ResolveM.define s name d) fun id r => id.index < r.size := by
  refine ask (check hz fun p hp => ?_)
  obtain ⟨id, r⟩ := p
  have hid := define_lt hp
  have hrest : ∀ z₁ : Resolution, z₁.registry = z.registry →
      Ensures I z₁ (do
        modify fun z => { z with registry := r }
        return id) fun id r => id.index < r.size := by
    intro z₁ h₁
    refine (install (hd id r hp) (h₁ ▸ growsTo_define hp)).bind fun _ z₂ hz₂ _ h₂ => ?_
    exact .pure hz₂ (h₂ ▸ hid)
  dsimp only
  split
  · exact (note hz _ _ _).bind fun _ z₁ _ _ h₁ => hrest z₁ h₁
  · exact hrest z rfl

theorem bodyScope (hI : Durable I) (hz : I z.registry) (hs : s.index < z.registry.scopes.size)
    (id : TypeId) : Ensures I z (ResolveM.bodyScope s id) fun t r => t.index < r.scopes.size := by
  refine ask (.pure hz ?_)
  cases hb : z.registry.body? id with
  | none => exact hs
  | some t =>
    obtain ⟨e, he, ht⟩ := Option.bind_eq_some_iff.mp hb
    exact (hI.treelike hz).body_lt he ht

end Ensures

end TypeLayout
