import TypeLayout.Proofs.Registry.WellFormed
/-! Reading a type through typedefs. Typedefs mention older entries only, so a statement about types
can be proved along chains of typedefs, and `strip` reaches the end of every chain. -/

namespace TypeLayout

namespace Registry

variable {r : Registry}

def IsTypedef (r : Registry) (id : TypeId) : Prop := ∃ t, r.definition? id = some (.typedef t)

theorem Founded.typedef_induction (hr : r.Founded) {P : Descriptor → Prop}
    (link : ∀ id t, r.definition? id = some (.typedef t) → P t → P (.named id))
    (stop : ∀ d, (∀ id, d = .named id → ¬ r.IsTypedef id) → P d) (d : Descriptor) : P d := by
  suffices h : ∀ n id, id.index < n → P (.named id) by
    cases d with
    | named id => exact h _ id (Nat.lt_succ_self _)
    | _ => exact stop _ fun id hd => by cases hd
  intro n
  induction n with
  | zero => exact fun id hid => absurd hid (Nat.not_lt_zero _)
  | succ n ih =>
    intro id hid
    by_cases ht : r.IsTypedef id
    · obtain ⟨t, ht⟩ := ht
      refine link id t ht ?_
      cases t with
      | named j =>
        have hj := hr.typedef_mention_lt ht (List.mem_singleton.mpr rfl)
        exact ih j (by omega)
      | _ => exact stop _ fun id hd => by cases hd
    · refine stop _ fun j hj => ?_
      cases hj
      exact ht

theorem stripFrom_of_not_typedef {n : Nat} {d : Descriptor}
    (h : ∀ id, d = .named id → ¬ r.IsTypedef id) : r.stripFrom n d = d := by
  unfold stripFrom
  split
  next n id =>
    split
    next t ht => exact absurd ⟨t, ht⟩ (h id rfl)
    next => rfl
  next => rfl

theorem Founded.stripFrom_eq (hr : r.Founded) {d : Descriptor} {n m : Nat}
    (hn : ∀ j ∈ d.mentions, j.index < n) (hm : ∀ j ∈ d.mentions, j.index < m) :
    r.stripFrom n d = r.stripFrom m d := by
  induction d using hr.typedef_induction generalizing n m with
  | link id t ht ih =>
    have hid : id ∈ (Descriptor.named id).mentions := List.mem_singleton.mpr rfl
    have hn := hn id hid
    have hm := hm id hid
    obtain ⟨n, rfl⟩ := Nat.exists_eq_succ_of_ne_zero (Nat.ne_of_gt (Nat.zero_lt_of_lt hn))
    obtain ⟨m, rfl⟩ := Nat.exists_eq_succ_of_ne_zero (Nat.ne_of_gt (Nat.zero_lt_of_lt hm))
    simp only [stripFrom, ht]
    have hlt : ∀ j ∈ t.mentions, j.index < id.index := fun j hj => hr.typedef_mention_lt ht hj
    exact ih (fun j hj => by have := hlt j hj; omega) (fun j hj => by have := hlt j hj; omega)
  | stop d hd => rw [stripFrom_of_not_typedef hd, stripFrom_of_not_typedef hd]

theorem strip_of_not_typedef {d : Descriptor} (h : ∀ id, d = .named id → ¬ r.IsTypedef id) :
    r.strip d = d :=
  stripFrom_of_not_typedef h

theorem Founded.strip_typedef (hr : r.Founded) {id : TypeId} {t : Descriptor}
    (h : r.definition? id = some (.typedef t)) : r.strip (.named id) = r.strip t := by
  have hid := definition?_lt h
  have hlt : ∀ j ∈ t.mentions, j.index < id.index := fun j hj => hr.typedef_mention_lt h hj
  unfold strip
  obtain ⟨n, hn⟩ := Nat.exists_eq_succ_of_ne_zero (Nat.ne_of_gt (Nat.zero_lt_of_lt hid))
  rw [hn]
  simp only [stripFrom, h]
  exact hr.stripFrom_eq (fun j hj => by have := hlt j hj; omega)
    (fun j hj => by have := hlt j hj; omega)

theorem Founded.strip_not_typedef (hr : r.Founded) {d : Descriptor} {id : TypeId}
    (h : r.strip d = .named id) : ¬ r.IsTypedef id := by
  induction d using hr.typedef_induction with
  | link j t ht ih =>
    rw [hr.strip_typedef ht] at h
    exact ih h
  | stop d hd =>
    rw [strip_of_not_typedef hd] at h
    exact hd id h

end Registry

end TypeLayout
