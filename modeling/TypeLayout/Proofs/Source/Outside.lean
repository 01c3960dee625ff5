import TypeLayout.Proofs.Registry.Pending
import TypeLayout.Proofs.Source.Upkeep
/-! What a declaration leaves alone. It binds and completes names in its own scope and in the bodies
inside, and a body is younger than the scope around it. So the entries of older scopes stay as they
are, whatever is resolved and wherever it fails. -/

namespace TypeLayout

open Registry

namespace Registry

/-- A registry in which the entries that `r₀` has in scopes before `k` are as they were. -/
structure SameBefore (r₀ : Registry) (k : Nat) (r : Registry) : Prop where
  reached : r.Reached
  entry : ∀ {id e}, r₀.entry? id = some e → e.scope.index < k → r.entry? id = some e

variable {r₀ r r' : Registry} {k : Nat} {s : ScopeId} {name : String} {id : TypeId}

theorem SameBefore.refl (hr : r.Reached) (k : Nat) : r.SameBefore k r := ⟨hr, fun he _ => he⟩

theorem SameBefore.declare (h : r₀.SameBefore k r) (hs : s.index < r.scopes.size) {tag : TagKind}
    (hd : r.declare s name tag = .ok (id, r')) : r₀.SameBefore k r' where
  reached := h.reached.declare hs hd
  entry he hlt := entry?_of_declare hd (h.entry he hlt)

theorem SameBefore.define (h : r₀.SameBefore k r) (hk : k ≤ s.index)
    (hs : s.index < r.scopes.size) {d : Definition} (hd : r.define s name d = .ok (id, r')) :
    r₀.SameBefore k r' where
  reached := h.reached.define hs hd
  entry he hlt := by
    refine h.reached.arranged.entry?_of_define hd (h.entry he hlt) fun hscope => ?_
    rw [hscope] at hlt
    exact Nat.not_lt_of_le hk hlt

end Registry

/-- The scopes before `k` are not declared in, and nothing is said of types. -/
def youngerThan (r₀ : Registry) (k : Nat) : Upkeep where
  Holds := r₀.SameBefore k
  Inside s := k ≤ s.index
  Answer _ _ := True
  Member _ _ _ := True
  Base _ _ := True
  arrays := True

theorem youngerThan_lawful (r₀ : Registry) (k : Nat) : (youngerThan r₀ k).Lawful where
  treelike h := h.reached.arranged.toTreelike
  global_lt h := h.reached.arranged.global_lt
  declare h hs hd := h.declare hs hd
  -- the scope inside a record is younger than the one around it
  enter h hbound hbody :=
    Nat.le_trans h.inside (Nat.le_of_lt (h.holds.reached.arranged.body?_of_bound hbound hbody).1)
  defineEnum h _ hd := h.holds.define h.inside h.lt hd
  defineTypedef h _ hd := h.holds.define h.inside h.lt hd
  defineRecord h _ _ _ hd := h.holds.define h.inside h.lt hd
  fundamental _ _ := trivial
  resolveName _ _ := trivial
  named _ := trivial
  enum _ _ _ := trivial
  pointer _ := trivial
  array _ _ _ := trivial
  aggregate _ _ := trivial
  member _ _ _ := trivial
  base _ _ := trivial
  growsMember _ _ _ _ := trivial
  growsBase _ _ _ _ := trivial

theorem resolveBody_sameBefore {r₀ : Registry} {k : Nat} (r : RecordDecl) (defining : List TypeId)
    {z : Resolution} {body : ScopeId} (s : ScopeId) (hz : r₀.SameBefore k z.registry)
    (hbody : body.index < z.registry.scopes.size) (hk : k ≤ body.index) :
    Ensures (r₀.SameBefore k) z (resolveBody defining s body r) fun a _ => a.kind = r.tag :=
  (resolveBody_upkeep (youngerThan_lawful r₀ k) r (Or.inl trivial) defining s
    ⟨hz, hbody, hk⟩).consequence fun _ _ h => h.2

end TypeLayout
