import TypeLayout.Proofs.Layout.Rounding
import TypeLayout.Proofs.Profile.Building
/-! Rounding in 64-bit words. The bits below a power of two are a mask. Adding the mask, unless the
sum leaves the word, and clearing the bits of the mask in the sum is to round up to the least
multiple that a word can hold. -/

namespace TypeLayout

namespace Alignment

variable {a b : Alignment} {n x y : Nat}

theorem value_injective (h : a.value = b.value) : a = b := by
  have hexponent : a.exponent = b.exponent :=
    Fin.ext (Nat.pow_right_injective (Nat.le_refl 2) h)
  cases a
  cases b
  exact congrArg Alignment.mk hexponent

theorem ofNat_eq_ok : ofNat n = .ok a ↔ a.value = n := by
  constructor
  · intro h
    unfold ofNat at h
    split at h
    next hofNat =>
      cases h
      exact value_ofNat? hofNat
    next => cases h
  · rintro rfl
    obtain ⟨b, hb⟩ := exists_ofNat? a.isPowerOfTwo_value a.value_lt
    obtain rfl : b = a := value_injective (value_ofNat? hb)
    simp only [ofNat, hb]

theorem exists_ofNat_iff : (∃ a, ofNat n = .ok a) ↔ n.isPowerOfTwo ∧ n < addressLimit := by
  constructor
  · rintro ⟨a, h⟩
    obtain rfl := ofNat_eq_ok.mp h
    exact ⟨a.isPowerOfTwo_value, a.value_lt⟩
  · rintro ⟨htwo, hlt⟩
    obtain ⟨a, h⟩ := exists_ofNat? htwo hlt
    exact ⟨a, ofNat_eq_ok.mpr (value_ofNat? h)⟩

theorem isAligned_iff : a.isAligned x = true ↔ a.value ∣ x := by
  rw [isAligned, beq_iff_eq, Nat.dvd_iff_mod_eq_zero]

theorem align?_eq_some_iff_isLeast :
    a.align? x = some y ↔ y < addressLimit ∧ IsLeast {m | a.value ∣ m ∧ x ≤ m} y := by
  rw [align?_eq_some]
  constructor
  · rintro ⟨hfits, rfl⟩
    exact ⟨hfits, a.isLeast_roundUp x⟩
  · rintro ⟨hfits, hleast⟩
    obtain rfl := hleast.unique (a.isLeast_roundUp x)
    exact ⟨hfits, rfl⟩

theorem align?_eq_none :
    a.align? x = none ↔ ∀ m, a.value ∣ m → x ≤ m → addressLimit ≤ m := by
  rw [align?_eq]
  constructor
  · intro h m hm hx
    split at h
    next => cases h
    next hfits => exact Nat.le_trans (Nat.le_of_not_lt hfits) (roundUp_le hx hm)
  · intro h
    exact if_neg (Nat.not_lt_of_le (h _ (a.value_dvd_roundUp x) (a.le_roundUp x)))

theorem align?_eq_self_iff (hx : x < addressLimit) : a.align? x = some x ↔ a.value ∣ x := by
  rw [align?_eq_some]
  constructor
  · rintro ⟨-, hsame⟩
    rw [hsame]
    exact a.value_dvd_roundUp x
  · intro h
    rw [roundUp_of_dvd h]
    exact ⟨hx, rfl⟩

theorem align?_mono (hdvd : a.value ∣ b.value) (hxy : x ≤ y) {v : Nat}
    (h : b.align? y = some v) : ∃ u, a.align? x = some u ∧ u ≤ v := by
  obtain ⟨hfits, rfl⟩ := align?_eq_some.mp h
  have hle : a.roundUp x ≤ b.roundUp y :=
    roundUp_le (Nat.le_trans hxy (b.le_roundUp y)) (Nat.dvd_trans hdvd (b.value_dvd_roundUp y))
  exact ⟨a.roundUp x, align?_eq_some.mpr ⟨Nat.lt_of_le_of_lt hle hfits, rfl⟩, hle⟩

def mask (a : Alignment) : BitVec 64 := BitVec.ofNat 64 (a.value - 1)

/-- The addition is checked, and the bits below the alignment are cleared in the sum. -/
def alignWord? (a : Alignment) (x : BitVec 64) : Option (BitVec 64) :=
  if x.uaddOverflow a.mask then none else some ((x + a.mask) &&& ~~~a.mask)

def isAlignedWord (a : Alignment) (x : BitVec 64) : Bool := x &&& a.mask == 0

@[simp] theorem toNat_mask (a : Alignment) : a.mask.toNat = a.value - 1 := by
  have hlt := a.value_lt
  rw [mask, BitVec.toNat_ofNat, Nat.mod_eq_of_lt]
  exact Nat.lt_of_le_of_lt (Nat.sub_le _ _) hlt

theorem getLsbD_mask (a : Alignment) (i : Nat) :
    a.mask.getLsbD i = decide (i < a.exponent) := by
  rw [← BitVec.testBit_toNat, toNat_mask]
  exact Nat.testBit_two_pow_sub_one _ i

theorem toNat_and_mask (a : Alignment) (w : BitVec 64) :
    (w &&& a.mask).toNat = w.toNat % a.value := by
  rw [BitVec.toNat_and, toNat_mask]
  exact Nat.and_two_pow_sub_one_eq_mod w.toNat a.exponent

theorem toNat_and_not_mask (a : Alignment) (w : BitVec 64) :
    (w &&& ~~~a.mask).toNat = w.toNat - w.toNat % a.value := by
  have hquotient : w.toNat - w.toNat % a.value = 2 ^ a.exponent.val * (w.toNat / a.value) := by
    have hsum := Nat.mod_add_div w.toNat a.value
    change w.toNat - w.toNat % a.value = a.value * (w.toNat / a.value)
    omega
  rw [hquotient]
  apply Nat.eq_of_testBit_eq
  intro i
  rw [BitVec.testBit_toNat, BitVec.getLsbD_and, BitVec.getLsbD_not, getLsbD_mask,
    Nat.testBit_two_pow_mul]
  by_cases hi : i < a.exponent.val
  · simp [hi]
  · -- above the mask the quotient has the bits of the word
    have hge : a.exponent.val ≤ i := Nat.le_of_not_lt hi
    have hbit : (w.toNat / a.value).testBit (i - a.exponent.val) = w.getLsbD i := by
      have hdiv := Nat.testBit_div_two_pow (n := a.exponent.val) w.toNat (i - a.exponent.val)
      rw [Nat.sub_add_cancel hge, BitVec.testBit_toNat] at hdiv
      exact hdiv
    rw [hbit]
    by_cases hword : i < 64
    · simp [hi, hge, hword]
    · rw [BitVec.getLsbD_of_ge w i (Nat.le_of_not_lt hword)]
      simp

theorem map_toNat_alignWord? (a : Alignment) (w : BitVec 64) :
    (a.alignWord? w).map BitVec.toNat = a.align? w.toNat := by
  unfold alignWord? align? BitVec.uaddOverflow
  dsimp only
  rw [toNat_mask]
  by_cases hreach : w.toNat + (a.value - 1) < addressLimit
  · have hsum : (w + a.mask).toNat = w.toNat + (a.value - 1) := by
      rw [BitVec.toNat_add, toNat_mask]
      exact Nat.mod_eq_of_lt hreach
    have hover : ¬ w.toNat + (a.value - 1) ≥ 2 ^ 64 := Nat.not_le_of_lt hreach
    simp only [hover, decide_false, Bool.false_eq_true, if_false, if_pos hreach, Option.map_some,
      toNat_and_not_mask, hsum]
  · have hover : w.toNat + (a.value - 1) ≥ 2 ^ 64 := Nat.le_of_not_lt hreach
    simp only [hover, decide_true, if_true, if_neg hreach, Option.map_none]

theorem isAlignedWord_eq (a : Alignment) (w : BitVec 64) :
    a.isAlignedWord w = a.isAligned w.toNat := by
  rw [Bool.eq_iff_iff, isAlignedWord, isAligned, beq_iff_eq, beq_iff_eq, ← toNat_and_mask,
    ← BitVec.toNat_inj]
  rfl

/-- The alignments are the powers of two that fit in a word. Rounding up to one answers the least
multiple not below the offset, and fails exactly where no such multiple fits; it is monotone in the
offset and in the alignment. Checked addition and masking in words compute the same. -/
theorem align?_exact (n : Nat) :
    ((∃ a, ofNat n = .ok a) ↔ n.isPowerOfTwo ∧ n < addressLimit) ∧
    ∀ a, ofNat n = .ok a →
      (∀ x < addressLimit,
        (∀ y, a.align? x = some y ↔ y < addressLimit ∧ IsLeast {m | n ∣ m ∧ x ≤ m} y) ∧
        (a.align? x = none ↔ ∀ m, n ∣ m → x ≤ m → addressLimit ≤ m) ∧
        (a.isAligned x = true ↔ n ∣ x) ∧ (n ∣ x ↔ a.align? x = some x)) ∧
      (∀ m b, ofNat m = .ok b → n ∣ m → ∀ x y v, x ≤ y → b.align? y = some v →
        ∃ u, a.align? x = some u ∧ u ≤ v) ∧
      ∀ w : BitVec 64, (a.alignWord? w).map BitVec.toNat = a.align? w.toNat ∧
        a.isAlignedWord w = a.isAligned w.toNat := by
  refine ⟨exists_ofNat_iff, fun a ha => ?_⟩
  obtain rfl := ofNat_eq_ok.mp ha
  refine ⟨fun x hx => ⟨fun y => align?_eq_some_iff_isLeast, align?_eq_none, isAligned_iff,
    (align?_eq_self_iff hx).symm⟩, ?_, fun w => ⟨a.map_toNat_alignWord? w, a.isAlignedWord_eq w⟩⟩
  intro m b hb hdvd x y v hxy hv
  obtain rfl := ofNat_eq_ok.mp hb
  exact align?_mono hdvd hxy hv

/-- The last seven offsets have no multiple of eight above them. -/
theorem eight_align?_exact : ofNat 8 = .ok eight ∧ ofNat 16 = .ok sixteen ∧
    eight.align? (addressLimit - 1) = none ∧
    IsLeast {m | 8 ∣ m ∧ 0xfffffffffffffff1 ≤ m} 0xfffffffffffffff8 ∧
    (8 ∣ 24 ↔ eight.align? 24 = some 24) ∧
    sixteen.align? 40 = some 48 ∧ ∃ u, eight.align? 33 = some u ∧ u ≤ 48 := by
  have height : ofNat 8 = .ok eight := rfl
  have hsixteen : ofNat 16 = .ok sixteen := rfl
  obtain ⟨hround, hmono, -⟩ := (align?_exact 8).2 eight height
  refine ⟨height, hsixteen, ?_, ?_, (hround 24 (by decide)).2.2.2, rfl, ?_⟩
  · refine (hround (addressLimit - 1) (by decide)).2.1.mpr fun m hm hx => ?_
    unfold addressLimit at hx ⊢
    omega
  · exact (((hround 0xfffffffffffffff1 (by decide)).1 0xfffffffffffffff8).mp (by decide)).2
  · exact hmono 16 sixteen hsixteen (by decide) 33 40 48 (by decide) rfl

end Alignment

end TypeLayout
