/-! Computations that may fail, and runs of such as keep their state when they do. -/

namespace TypeLayout

section

variable {ε α β : Type}

theorem bind_eq_ok {x : Except ε α} {f : α → Except ε β} {b : β} :
    (x >>= f) = .ok b ↔ ∃ a, x = .ok a ∧ f a = .ok b := by
  cases x with
  | ok a => simp [bind, Except.bind]
  | error e => simp [bind, Except.bind]

theorem bind_eq_error {x : Except ε α} {f : α → Except ε β} {e : ε} :
    (x >>= f) = .error e ↔ x = .error e ∨ ∃ a, x = .ok a ∧ f a = .error e := by
  cases x with
  | ok a => simp [bind, Except.bind]
  | error e => simp [bind, Except.bind]

theorem pure_eq_ok {a b : α} : (pure a : Except ε α) = .ok b ↔ a = b :=
  ⟨fun h => Except.ok.inj h, fun h => congrArg _ h⟩

theorem map_eq_ok {f : α → β} {x : Except ε α} {b : β} :
    f <$> x = .ok b ↔ ∃ a, x = .ok a ∧ f a = b := by
  cases x with
  | error e => exact ⟨nofun, nofun⟩
  | ok a => exact ⟨fun h => ⟨a, rfl, Except.ok.inj h⟩, by rintro ⟨_, ⟨⟩, rfl⟩; rfl⟩

theorem toOption_bind (x : Except ε α) (f : α → Except ε β) :
    (x >>= f).toOption = x.toOption.bind fun a => (f a).toOption := by
  cases x <;> rfl

@[simp] theorem toOption_pure (a : α) : (pure a : Except ε α).toOption = some a := rfl

@[simp] theorem toOption_map (x : Except ε α) (f : α → β) :
    (f <$> x).toOption = x.toOption.map f := by
  cases x <;> rfl

theorem toOption_mapM (f : α → Except ε β) (xs : List α) :
    (xs.mapM f).toOption = xs.mapM fun x => (f x).toOption := by
  induction xs with
  | nil => rfl
  | cons x xs ih =>
    simp only [List.mapM_cons, toOption_bind, toOption_pure, ih, Option.bind_eq_bind, Option.pure_def]

@[simp] theorem toOption_eq_some {x : Except ε α} {a : α} : x.toOption = some a ↔ x = .ok a := by
  cases x <;> simp [Except.toOption]

theorem mapM_imp {f g : α → Option β} {xs : List α} {ys : List β}
    (h : ∀ x ∈ xs, ∀ y, f x = some y → g x = some y) (run : xs.mapM f = some ys) :
    xs.mapM g = some ys := by
  induction xs generalizing ys with
  | nil => exact run
  | cons x xs ih =>
    simp only [List.mapM_cons, Option.bind_eq_bind, Option.bind_eq_some_iff, Option.pure_def]
      at run ⊢
    obtain ⟨y, first, ys', rest, eq⟩ := run
    exact ⟨y, h x (by simp) y first, ys', ih (fun x' mem => h x' (by simp [mem])) rest, eq⟩

theorem mapM_cons_eq_some {f : α → Option β} {x : α} {xs : List α} {zs : List β} :
    (x :: xs).mapM f = some zs ↔ ∃ y ys, f x = some y ∧ xs.mapM f = some ys ∧ zs = y :: ys := by
  simp only [List.mapM_cons, Option.bind_eq_bind, Option.bind_eq_some_iff, Option.pure_def,
    Option.some.injEq]
  constructor
  · rintro ⟨y, first, ys, rest, rfl⟩
    exact ⟨y, ys, first, rest, rfl⟩
  · rintro ⟨y, ys, first, rest, rfl⟩
    exact ⟨y, first, ys, rest, rfl⟩

theorem mapM_append_eq_some {f : α → Option β} {xs xs' : List α} {zs : List β} :
    (xs ++ xs').mapM f = some zs ↔
      ∃ ys ys', xs.mapM f = some ys ∧ xs'.mapM f = some ys' ∧ zs = ys ++ ys' := by
  induction xs generalizing zs with
  | nil => simp [eq_comm]
  | cons x xs ih =>
    simp only [List.cons_append, mapM_cons_eq_some, ih]
    constructor
    · rintro ⟨y, _, first, ⟨ys, ys', front, back, rfl⟩, rfl⟩
      exact ⟨y :: ys, ys', ⟨y, ys, first, front, rfl⟩, back, rfl⟩
    · rintro ⟨_, ys', ⟨y, ys, first, front, rfl⟩, back, rfl⟩
      exact ⟨y, ys ++ ys', first, ⟨ys, ys', front, back, rfl⟩, rfl⟩

theorem mapM_split {f : α → Option β} {xs xs' : List α} {x : α} {zs : List β}
    (h : (xs ++ x :: xs').mapM f = some zs) :
    ∃ ys y ys', xs.mapM f = some ys ∧ f x = some y ∧ zs = ys ++ y :: ys' ∧
      ∀ x₁ y₁, f x₁ = some y₁ → (xs ++ x₁ :: xs').mapM f = some (ys ++ y₁ :: ys') := by
  obtain ⟨ys, _, front, rest, rfl⟩ := mapM_append_eq_some.mp h
  obtain ⟨y, ys', first, back, rfl⟩ := mapM_cons_eq_some.mp rest
  refine ⟨ys, y, ys', front, first, rfl, fun x₁ y₁ first₁ => ?_⟩
  have rest₁ := mapM_cons_eq_some.mpr ⟨y₁, ys', first₁, back, rfl⟩
  exact mapM_append_eq_some.mpr ⟨ys, _, front, rest₁, rfl⟩

theorem mapM_map_self {f : α → β} {g : β → Option α} {xs : List α}
    (h : ∀ x ∈ xs, g (f x) = some x) : (xs.map f).mapM g = some xs := by
  induction xs with
  | nil => rfl
  | cons x xs ih =>
    rw [List.map_cons]
    exact mapM_cons_eq_some.mpr ⟨x, xs, h x (by simp), ih fun x' mem => h x' (by simp [mem]), rfl⟩

theorem length_of_mapM {f : α → Option β} {xs : List α} {ys : List β}
    (run : xs.mapM f = some ys) : ys.length = xs.length := by
  induction xs generalizing ys with
  | nil =>
    cases run
    rfl
  | cons x xs ih =>
    obtain ⟨y, ys, -, rest, rfl⟩ := mapM_cons_eq_some.mp run
    rw [List.length_cons, List.length_cons, ih rest]

theorem mem_of_mapM {f : α → Option β} {xs : List α} {ys : List β} {y : β}
    (run : xs.mapM f = some ys) (mem : y ∈ ys) : ∃ x ∈ xs, f x = some y := by
  induction xs generalizing ys with
  | nil =>
    cases run
    cases mem
  | cons x xs ih =>
    obtain ⟨y', ys, first, rest, rfl⟩ := mapM_cons_eq_some.mp run
    cases mem with
    | head => exact ⟨x, by simp, first⟩
    | tail _ mem =>
      obtain ⟨x', inside, run⟩ := ih rest mem
      exact ⟨x', by simp [inside], run⟩

theorem mapM_perm {f : α → Option β} {xs xs' : List α} {ys : List β} (perm : xs.Perm xs')
    (run : xs.mapM f = some ys) : ∃ ys', xs'.mapM f = some ys' ∧ ys.Perm ys' := by
  induction perm generalizing ys with
  | nil => exact ⟨ys, run, .refl _⟩
  | cons x _ ih =>
    obtain ⟨y, ys, first, rest, rfl⟩ := mapM_cons_eq_some.mp run
    obtain ⟨ys', rest', perm⟩ := ih rest
    exact ⟨y :: ys', mapM_cons_eq_some.mpr ⟨y, ys', first, rest', rfl⟩, perm.cons y⟩
  | swap x x' xs =>
    obtain ⟨y, _, first, others, rfl⟩ := mapM_cons_eq_some.mp run
    obtain ⟨y', ys, second, rest, rfl⟩ := mapM_cons_eq_some.mp others
    refine ⟨y' :: y :: ys, mapM_cons_eq_some.mpr ⟨y', y :: ys, second, ?_, rfl⟩, .swap ..⟩
    exact mapM_cons_eq_some.mpr ⟨y, ys, first, rest, rfl⟩
  | trans _ _ ih ih' =>
    obtain ⟨ys', run', perm⟩ := ih run
    obtain ⟨ys'', run'', perm'⟩ := ih' run'
    exact ⟨ys'', run'', perm.trans perm'⟩

end

section

variable {ε σ α β : Type} {x : ExceptT ε (StateM σ) α} {s s' : σ} {a : α} {e : ε}

theorem run_bind_ok {f : α → ExceptT ε (StateM σ) β} (h : x.run s = (.ok a, s')) :
    (x >>= f).run s = (f a).run s' := by
  change (ExceptT.bindCont f (x.run s).1) (x.run s).2 = _
  rw [h]
  rfl

theorem run_bind_error {f : α → ExceptT ε (StateM σ) β} (h : x.run s = (.error e, s')) :
    (x >>= f).run s = (.error e, s') := by
  change (ExceptT.bindCont f (x.run s).1) (x.run s).2 = _
  rw [h]
  rfl

theorem run_bind_eq_ok {f : α → ExceptT ε (StateM σ) β} {b : β} :
    (x >>= f).run s = (.ok b, s') ↔
      ∃ a s₁, x.run s = (.ok a, s₁) ∧ (f a).run s₁ = (.ok b, s') := by
  constructor
  · intro h
    rcases hx : x.run s with ⟨e | a, s₁⟩
    · rw [run_bind_error hx] at h
      cases h
    · rw [run_bind_ok hx] at h
      exact ⟨a, s₁, rfl, h⟩
  · rintro ⟨a, s₁, hx, hf⟩
    rw [run_bind_ok hx]
    exact hf

theorem discard_eq_bind (x : ExceptT ε (StateM σ) α) :
    discard x = x >>= fun _ => pure () := by
  change (fun _ => ()) <$> x = _
  rw [map_eq_pure_bind]

theorem run_discard_error (h : x.run s = (.error e, s')) :
    (discard x).run s = (.error e, s') := by
  rw [discard_eq_bind]
  exact run_bind_error h

theorem run_discard_eq_ok {u : Unit} :
    (discard x).run s = (.ok u, s') ↔ ∃ a, x.run s = (.ok a, s') := by
  rw [discard_eq_bind, run_bind_eq_ok]
  constructor
  · rintro ⟨a, s₁, hx, h⟩
    cases h
    exact ⟨a, hx⟩
  · rintro ⟨a, hx⟩
    exact ⟨a, s', hx, rfl⟩

theorem run_ofExcept (y : Except ε α) (s : σ) :
    (ofExcept y : ExceptT ε (StateM σ) α).run s = (y, s) := by
  cases y with
  | ok a => rfl
  | error e => rfl

theorem run_tryCatch_ok {f : ε → ExceptT ε (StateM σ) α} (h : x.run s = (.ok a, s')) :
    (tryCatch x f).run s = (.ok a, s') := by
  change (match (x.run s).1 with
    | .ok a => (pure (.ok a) : StateM σ (Except ε α))
    | .error e => (f e).run) (x.run s).2 = _
  rw [h]
  rfl

theorem run_tryCatch_error {f : ε → ExceptT ε (StateM σ) α} (h : x.run s = (.error e, s')) :
    (tryCatch x f).run s = (f e).run s' := by
  change (match (x.run s).1 with
    | .ok a => (pure (.ok a) : StateM σ (Except ε α))
    | .error e => (f e).run) (x.run s).2 = _
  rw [h]

theorem run_of_tryCatch_throw {f : ε → ε}
    (h : (tryCatch x fun e => throw (f e)).run s = (.ok a, s')) : x.run s = (.ok a, s') := by
  rcases hx : x.run s with ⟨e | b, s₁⟩
  · rw [run_tryCatch_error hx] at h
    cases h
  · rw [run_tryCatch_ok hx] at h
    exact h

variable {R : σ → σ → Prop} (trans : ∀ {s₁ s₂ s₃}, R s₁ s₂ → R s₂ s₃ → R s₁ s₃)
  (hx : ∀ s, R s (x.run s).2)
include trans hx

theorem run_bind_keeps {f : α → ExceptT ε (StateM σ) β} (hf : ∀ a s, R s ((f a).run s).2) (s : σ) :
    R s ((x >>= f).run s).2 := by
  have hfirst := hx s
  rcases hrun : x.run s with ⟨e | a, s₁⟩
  · rw [hrun] at hfirst
    rw [run_bind_error hrun]
    exact hfirst
  · rw [hrun] at hfirst
    rw [run_bind_ok hrun]
    exact trans hfirst (hf a s₁)

theorem run_tryCatch_keeps {f : ε → ExceptT ε (StateM σ) α} (hf : ∀ e s, R s ((f e).run s).2)
    (s : σ) : R s ((tryCatch x f).run s).2 := by
  have hfirst := hx s
  rcases hrun : x.run s with ⟨e | a, s₁⟩
  · rw [hrun] at hfirst
    rw [run_tryCatch_error hrun]
    exact trans hfirst (hf e s₁)
  · rw [hrun] at hfirst
    rw [run_tryCatch_ok hrun]
    exact hfirst

end

end TypeLayout
