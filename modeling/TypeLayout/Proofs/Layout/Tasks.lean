import TypeLayout.Layout.Cache
import TypeLayout.Proofs.Layout.Hosts
import TypeLayout.Proofs.Stateful
/-! Layout computations cut at each use of what they share: the stored layouts and the log. Tasks
that are stepped in turn share a desk as queries in parallel do, in any order of their steps; a task
stepped to its end at once is the computation it was cut from. -/

namespace TypeLayout

open LayoutHost (note fetch store)

inductive Task (α : Type)
  | done (a : Except LayoutError α)
  | fetch (key : LayoutKey) (next : Option Layout → Task α)
  | store (key : LayoutKey) (l : Layout) (next : Layout → Task α)
  | note (e : Layout.Event) (next : Task α)

namespace Desk

theorem caching_fetch (desk : Desk) (key : LayoutKey) :
    (desk.fetch key).2.caching = desk.caching := by
  unfold fetch
  split <;> rfl

theorem caching_store (desk : Desk) (key : LayoutKey) (l : Layout) :
    (desk.store key l).2.caching = desk.caching := by
  unfold store
  split <;> rfl

end Desk

namespace Task

variable {α β : Type}

def bind : Task α → (α → Task β) → Task β
  | done (.ok a), f => f a
  | done (.error e), _ => done (.error e)
  | fetch key next, f => fetch key fun found => (next found).bind f
  | store key l next, f => store key l fun l => (next l).bind f
  | note e next, f => note e (next.bind f)

def tryCatch : Task α → (LayoutError → Task α) → Task α
  | done (.ok a), _ => done (.ok a)
  | done (.error e), f => f e
  | fetch key next, f => fetch key fun found => (next found).tryCatch f
  | store key l next, f => store key l fun l => (next l).tryCatch f
  | note e next, f => note e (next.tryCatch f)

instance : Monad Task where
  pure a := done (.ok a)
  bind := bind

instance : MonadExceptOf LayoutError Task where
  throw e := done (.error e)
  tryCatch := tryCatch

instance : LayoutHost Task where
  fetch key := fetch key fun found => done (.ok found)
  store key l := store key l fun l => done (.ok l)
  note e := note e (done (.ok ()))

/-- One use of the desk. A task that is done stays so. -/
def step : Task α → Desk → Task α × Desk
  | done a, desk => (done a, desk)
  | fetch key next, desk => (next (desk.fetch key).1, (desk.fetch key).2)
  | store key l next, desk => (next (desk.store key l).1, (desk.store key l).2)
  | note e next, desk => (next, desk.log e.entry)

def finish : Task α → Desk → Except LayoutError α × Desk
  | done a, desk => (a, desk)
  | fetch key next, desk => (next (desk.fetch key).1).finish (desk.fetch key).2
  | store key l next, desk => (next (desk.store key l).1).finish (desk.store key l).2
  | note e next, desk => next.finish (desk.log e.entry)

theorem finish_bind_ok {t : Task α} {desk desk' : Desk} {a : α}
    (h : t.finish desk = (.ok a, desk')) (f : α → Task β) :
    (t >>= f).finish desk = (f a).finish desk' := by
  induction t generalizing desk with
  | done b =>
    cases h
    rfl
  | fetch key next ih => exact ih _ h
  | store key l next ih => exact ih _ h
  | note e next ih => exact ih h

theorem finish_bind_error {t : Task α} {desk desk' : Desk} {e : LayoutError}
    (h : t.finish desk = (.error e, desk')) (f : α → Task β) :
    (t >>= f).finish desk = (.error e, desk') := by
  induction t generalizing desk with
  | done b =>
    cases h
    rfl
  | fetch key next ih => exact ih _ h
  | store key l next ih => exact ih _ h
  | note e next ih => exact ih h

theorem finish_bind_pure (t : Task α) (f : α → β) (desk : Desk) :
    (t >>= fun a => pure (f a)).finish desk = ((t.finish desk).1.map f, (t.finish desk).2) := by
  rcases hrun : t.finish desk with ⟨e | a, desk'⟩
  · rw [finish_bind_error hrun]
    rfl
  · rw [finish_bind_ok hrun]
    rfl

theorem finish_tryCatch_ok {t : Task α} {desk desk' : Desk} {a : α}
    (h : t.finish desk = (.ok a, desk')) (f : LayoutError → Task α) :
    (tryCatch t f).finish desk = (.ok a, desk') := by
  induction t generalizing desk with
  | done b =>
    cases h
    rfl
  | fetch key next ih => exact ih _ h
  | store key l next ih => exact ih _ h
  | note e next ih => exact ih h

theorem finish_tryCatch_error {t : Task α} {desk desk' : Desk} {e : LayoutError}
    (h : t.finish desk = (.error e, desk')) (f : LayoutError → Task α) :
    (tryCatch t f).finish desk = (f e).finish desk' := by
  induction t generalizing desk with
  | done b =>
    cases h
    rfl
  | fetch key next ih => exact ih _ h
  | store key l next ih => exact ih _ h
  | note e next ih => exact ih h

/-- The computation that the task was cut from. -/
def Cuts (t : Task α) (x : DeskM α) : Prop := ∀ desk, x.run desk = t.finish desk

theorem commutesCuts : Commutes (m := Task) (n := DeskM) fun _ t x => Cuts t x where
  lift a desk := by
    rw [run_ofExcept]
    cases a <;> rfl
  bind := by
    intro α β t x f g hx hf desk
    rcases hrun : t.finish desk with ⟨e | a, desk'⟩
    · rw [finish_bind_error hrun, run_bind_error ((hx desk).trans hrun)]
    · rw [finish_bind_ok hrun, run_bind_ok ((hx desk).trans hrun), hf a desk']
  inMember := by
    intro α t x name hx desk
    rcases hrun : t.finish desk with ⟨e | a, desk'⟩
    · exact (run_tryCatch_error ((hx desk).trans hrun)).trans
        (finish_tryCatch_error hrun fun e => done (.error (e.inMember name))).symm
    · exact (run_tryCatch_ok ((hx desk).trans hrun)).trans
        (finish_tryCatch_ok hrun fun e => done (.error (e.inMember name))).symm
  note e desk := rfl
  fetch key desk := rfl
  store key l desk := rfl

theorem layoutOf_cuts (env : LayoutEnv) (d : Descriptor) : Cuts (env.layoutOf d) (env.layoutOf d) :=
  commutesCuts.layoutOf env d

/-! A schedule says whose turn it is, again and again. -/

/-- One step of the task in a place among tasks at one desk. -/
def turn : List (Task α) → Desk → Nat → List (Task α) × Desk
  | [], desk, _ => ([], desk)
  | t :: ts, desk, 0 => ((t.step desk).1 :: ts, (t.step desk).2)
  | t :: ts, desk, i + 1 => (t :: (turn ts desk i).1, (turn ts desk i).2)

def interleave : List Nat → List (Task α) → Desk → List (Task α) × Desk
  | [], ts, desk => (ts, desk)
  | i :: is, ts, desk => interleave is (turn ts desk i).1 (turn ts desk i).2

def finishAll : List (Task α) → Desk → List (Except LayoutError α) × Desk
  | [], desk => ([], desk)
  | t :: ts, desk =>
    let (a, desk) := t.finish desk
    let (as, desk) := finishAll ts desk
    (a :: as, desk)

theorem interleave_append (is js : List Nat) (ts : List (Task α)) (desk : Desk) :
    interleave (is ++ js) ts desk =
      interleave js (interleave is ts desk).1 (interleave is ts desk).2 := by
  induction is generalizing ts desk with
  | nil => rfl
  | cons i is ih => exact ih _ _

theorem interleave_succ (is : List Nat) (t : Task α) (ts : List (Task α)) (desk : Desk) :
    interleave (is.map (· + 1)) (t :: ts) desk =
      (t :: (interleave is ts desk).1, (interleave is ts desk).2) := by
  induction is generalizing ts desk with
  | nil => rfl
  | cons i is ih => exact ih _ _

theorem exists_interleave_finish (t : Task α) (ts : List (Task α)) (desk : Desk) :
    ∃ is, interleave is (t :: ts) desk = (done (t.finish desk).1 :: ts, (t.finish desk).2) := by
  induction t generalizing desk with
  | done a => exact ⟨[], rfl⟩
  | fetch key next ih =>
    obtain ⟨is, his⟩ := ih _ (desk.fetch key).2
    exact ⟨0 :: is, his⟩
  | store key l next ih =>
    obtain ⟨is, his⟩ := ih _ (desk.store key l).2
    exact ⟨0 :: is, his⟩
  | note e next ih =>
    obtain ⟨is, his⟩ := ih (desk.log e.entry)
    exact ⟨0 :: is, his⟩

/-- To run the tasks in order is one of the schedules, so there is one that ends them all. -/
theorem exists_interleave_finishAll (ts : List (Task α)) (desk : Desk) :
    ∃ is, interleave is ts desk = ((finishAll ts desk).1.map done, (finishAll ts desk).2) := by
  induction ts generalizing desk with
  | nil => exact ⟨[], rfl⟩
  | cons t ts ih =>
    obtain ⟨is, his⟩ := exists_interleave_finish t ts desk
    obtain ⟨js, hjs⟩ := ih (t.finish desk).2
    refine ⟨is ++ js.map (· + 1), ?_⟩
    rw [interleave_append, his, interleave_succ, hjs]
    rfl

theorem caching_finish (t : Task α) (desk : Desk) : (t.finish desk).2.caching = desk.caching := by
  induction t generalizing desk with
  | done a => rfl
  | fetch key next ih => exact (ih _ _).trans (desk.caching_fetch key)
  | store key l next ih => exact (ih _ _).trans (desk.caching_store key l)
  | note e next ih => exact ih _

end Task

end TypeLayout
