import Mathlib.Order.Bounds.Basic
import TypeLayout.Alignment
/-! Rounding up without a limit. `align?` answers the least multiple of the alignment that is not
below the offset, and fails exactly where that multiple does not fit in 64 bits. -/

namespace TypeLayout

namespace Alignment

variable {a b : Alignment} {x y : Nat}

def roundUp (a : Alignment) (x : Nat) : Nat := (x + (a.value - 1)) / a.value * a.value

theorem value_dvd_roundUp (a : Alignment) (x : Nat) : a.value ∣ a.roundUp x :=
  Nat.dvd_mul_left _ _

theorem le_roundUp (a : Alignment) (x : Nat) : x ≤ a.roundUp x := by
  have hpos := a.value_pos
  have hlt := Nat.lt_div_mul_add (a := x + (a.value - 1)) hpos
  unfold roundUp
  omega

theorem roundUp_le (hx : x ≤ y) (hy : a.value ∣ y) : a.roundUp x ≤ y := by
  obtain ⟨k, rfl⟩ := hy
  have hpos := a.value_pos
  have hdiv : (x + (a.value - 1)) / a.value < k + 1 := by
    rw [Nat.div_lt_iff_lt_mul hpos, Nat.add_mul, Nat.mul_comm k]
    omega
  unfold roundUp
  rw [Nat.mul_comm]
  exact Nat.mul_le_mul_left _ (Nat.le_of_lt_succ hdiv)

theorem isLeast_roundUp (a : Alignment) (x : Nat) :
    IsLeast {y | a.value ∣ y ∧ x ≤ y} (a.roundUp x) :=
  ⟨⟨a.value_dvd_roundUp x, a.le_roundUp x⟩, fun _ hy => roundUp_le hy.2 hy.1⟩

theorem roundUp_zero (a : Alignment) : a.roundUp 0 = 0 :=
  Nat.le_zero.mp (roundUp_le (Nat.le_refl 0) (Nat.dvd_zero _))

theorem roundUp_of_dvd (h : a.value ∣ x) : a.roundUp x = x :=
  Nat.le_antisymm (roundUp_le (Nat.le_refl x) h) (a.le_roundUp x)

theorem roundUp_mono (a : Alignment) (h : x ≤ y) : a.roundUp x ≤ a.roundUp y :=
  roundUp_le (Nat.le_trans h (a.le_roundUp y)) (a.value_dvd_roundUp y)

theorem dvd_roundUp (a : Alignment) (h : b.value ∣ x) : b.value ∣ a.roundUp x := by
  rcases Nat.le_total a.exponent b.exponent with hle | hle
  · have hdvd : a.value ∣ b.value := Nat.pow_dvd_pow 2 hle
    rw [roundUp_of_dvd (Nat.dvd_trans hdvd h)]
    exact h
  · have hdvd : b.value ∣ a.value := Nat.pow_dvd_pow 2 hle
    exact Nat.dvd_trans hdvd (a.value_dvd_roundUp x)

theorem value_dvd_addressLimit (a : Alignment) : a.value ∣ addressLimit :=
  Nat.pow_dvd_pow 2 (Nat.le_of_lt a.exponent.isLt)

theorem align?_eq (a : Alignment) (x : Nat) :
    a.align? x = if a.roundUp x < addressLimit then some (a.roundUp x) else none := by
  have hreach : x + (a.value - 1) - (x + (a.value - 1)) % a.value = a.roundUp x := by
    have hdiv := Nat.div_add_mod' (x + (a.value - 1)) a.value
    unfold roundUp
    omega
  have hle : a.roundUp x ≤ x + (a.value - 1) := by
    rw [← hreach]
    exact Nat.sub_le _ _
  unfold align?
  dsimp only
  rw [hreach]
  by_cases h : x + (a.value - 1) < addressLimit
  · rw [if_pos h, if_pos (Nat.lt_of_le_of_lt hle h)]
  · -- the limit is a multiple of the alignment, so what reaches it is not rounded below it
    obtain ⟨k, hk⟩ := a.value_dvd_addressLimit
    have hdiv : k ≤ (x + (a.value - 1)) / a.value := by
      rw [Nat.le_div_iff_mul_le a.value_pos, Nat.mul_comm, ← hk]
      exact Nat.le_of_not_lt h
    have hge : addressLimit ≤ a.roundUp x := by
      rw [hk, Nat.mul_comm]
      exact Nat.mul_le_mul_right _ hdiv
    rw [if_neg h, if_neg (Nat.not_lt_of_le hge)]

theorem align?_eq_some : a.align? x = some y ↔ a.roundUp x < addressLimit ∧ y = a.roundUp x := by
  rw [align?_eq]
  split
  next h => rw [Option.some.injEq, eq_comm, and_iff_right h]
  next h => exact ⟨fun he => (by cases he), fun he => absurd he.1 h⟩

theorem value_dvd_max_left (a b : Alignment) : a.value ∣ (a.max b).value := by
  unfold max
  split
  next h => exact Nat.pow_dvd_pow 2 h
  next => exact Nat.dvd_refl _

theorem value_dvd_max_right (a b : Alignment) : b.value ∣ (a.max b).value := by
  unfold max
  split
  next => exact Nat.dvd_refl _
  next h => exact Nat.pow_dvd_pow 2 (Nat.le_of_not_le h)

end Alignment

end TypeLayout
