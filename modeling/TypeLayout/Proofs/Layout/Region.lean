import Mathlib.Data.List.Dedup
import TypeLayout.Layout.Result
/-! Byte intervals. Intervals tile the first `n` bytes if no two of them overlap and together they
are those bytes; both are read off the number of intervals that cover a byte. -/

namespace TypeLayout

namespace Region

def Covers (r : Region) (x : Nat) : Prop := r.offset ≤ x ∧ x < r.stop

instance decidableCovers (r : Region) (x : Nat) : Decidable (r.Covers x) :=
  inferInstanceAs (Decidable (r.offset ≤ x ∧ x < r.stop))

def Disjoint (r s : Region) : Prop := ∀ x, ¬ (r.Covers x ∧ s.Covers x)

def Within (r s : Region) : Prop := s.offset ≤ r.offset ∧ r.stop ≤ s.stop

/-- The regions are pairwise disjoint, and their union is `[0, n)`. -/
structure Tiles (rs : List Region) (n : Nat) : Prop where
  disjoint : rs.Pairwise Disjoint
  covers : ∀ x, (∃ r ∈ rs, r.Covers x) ↔ x < n

/-- How many of the regions cover a byte. -/
def coverage (rs : List Region) (x : Nat) : Nat := rs.countP fun r => decide (r.Covers x)

variable {rs ss : List Region} {r r' s s' : Region} {x n : Nat}

theorem Within.refl (r : Region) : r.Within r := ⟨Nat.le_refl _, Nat.le_refl _⟩

theorem Within.covers (h : r.Within s) (hx : r.Covers x) : s.Covers x :=
  ⟨Nat.le_trans h.1 hx.1, Nat.lt_of_lt_of_le hx.2 h.2⟩

theorem Disjoint.symm (h : Disjoint r s) : Disjoint s r := fun x hx => h x hx.symm

theorem Disjoint.mono (h : Disjoint r s) (hr : r'.Within r) (hs : s'.Within s) :
    Disjoint r' s' := by
  intro x hx
  exact h x ⟨hr.covers hx.1, hs.covers hx.2⟩

theorem Disjoint.not_within (h : Disjoint r s) (hpos : 0 < r.size) : ¬ r.Within s := by
  intro hw
  have hfirst : r.Covers r.offset := ⟨Nat.le_refl _, Nat.lt_add_of_pos_right hpos⟩
  exact h r.offset ⟨hfirst, hw.covers hfirst⟩

theorem Disjoint.moved (h : Disjoint r s) (n : Nat) :
    Disjoint ⟨n + r.offset, r.size⟩ ⟨n + s.offset, s.size⟩ := by
  rintro x ⟨⟨hr, hr'⟩, ⟨hs, hs'⟩⟩
  apply h (x - n)
  unfold Covers stop
  unfold stop at hr' hs'
  dsimp only at hr hr' hs hs'
  omega

@[simp] theorem coverage_nil : coverage [] x = 0 := rfl

@[simp] theorem coverage_append : coverage (rs ++ ss) x = coverage rs x + coverage ss x :=
  List.countP_append

theorem coverage_cons : coverage (r :: rs) x = coverage rs x + if r.Covers x then 1 else 0 := by
  simp [coverage, List.countP_cons]

theorem coverage_singleton (o s x : Nat) :
    coverage [⟨o, s⟩] x = if o ≤ x ∧ x < o + s then 1 else 0 := by
  rw [coverage_cons, coverage_nil, Nat.zero_add]
  rfl

theorem coverage_perm (h : rs.Perm ss) (x : Nat) : coverage rs x = coverage ss x :=
  h.countP_eq _

theorem coverage_pos : 0 < coverage rs x ↔ ∃ r ∈ rs, r.Covers x := by
  simp [coverage, List.countP_pos_iff]

theorem pairwise_disjoint_of_coverage (h : ∀ x, coverage rs x ≤ 1) : rs.Pairwise Disjoint := by
  induction rs with
  | nil => exact .nil
  | cons r rs ih =>
    refine List.pairwise_cons.mpr ⟨fun s hs x hx => ?_, ih fun x => ?_⟩
    · have hpos : 0 < coverage rs x := coverage_pos.mpr ⟨s, hs, hx.2⟩
      have hle := h x
      rw [coverage_cons, if_pos hx.1] at hle
      omega
    · have hle := h x
      rw [coverage_cons] at hle
      omega

theorem tiles_of_coverage (h : ∀ x, coverage rs x = if x < n then 1 else 0) : Tiles rs n where
  disjoint := by
    refine pairwise_disjoint_of_coverage fun x => ?_
    rw [h]
    split <;> omega
  covers x := by
    rw [← coverage_pos, h]
    split <;> simp [*]

theorem size_eq_zero_of_coverage (h : ∀ x, coverage rs x = 0) (hr : r ∈ rs) : r.size = 0 := by
  by_contra hs
  have hfirst : r.Covers r.offset := ⟨Nat.le_refl _, by unfold stop; omega⟩
  have hpos := coverage_pos.mpr ⟨r, hr, hfirst⟩
  rw [h] at hpos
  omega

theorem coverage_dedup_concat_of_mem (h : r ∈ rs) :
    coverage (rs ++ [r]).dedup x = coverage rs.dedup x := by
  rw [coverage_perm (List.perm_append_singleton r rs).dedup, List.dedup_cons_of_mem h]

theorem coverage_dedup_concat_of_not_mem (h : r ∉ rs) :
    coverage (rs ++ [r]).dedup x = coverage rs.dedup x + coverage [r] x := by
  rw [coverage_perm (List.perm_append_singleton r rs).dedup, List.dedup_cons_of_notMem h,
    coverage_cons, coverage_cons, coverage_nil, Nat.zero_add]

end Region

end TypeLayout
