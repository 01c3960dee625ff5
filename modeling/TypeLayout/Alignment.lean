import TypeLayout.LayoutError
/-! Alignments are powers of two below 2^64. `align?` moves an offset to the least multiple not
below it, and fails where that multiple does not fit in 64 bits. -/

namespace TypeLayout

abbrev addressLimit : Nat := 0x10000000000000000

structure Alignment where
  exponent : Fin 64
deriving DecidableEq, Repr

namespace Alignment

def value (a : Alignment) : Nat := Nat.pow 2 a.exponent

def one : Alignment := ⟨⟨0, by decide⟩⟩

def two : Alignment := ⟨⟨1, by decide⟩⟩

def four : Alignment := ⟨⟨2, by decide⟩⟩

def eight : Alignment := ⟨⟨3, by decide⟩⟩

def sixteen : Alignment := ⟨⟨4, by decide⟩⟩

instance : Inhabited Alignment := ⟨one⟩

def ofNat? (n : Nat) : Option Alignment :=
  if h : n.log2 < 64 then if Nat.pow 2 n.log2 = n then some ⟨⟨n.log2, h⟩⟩ else none else none

def ofNat (n : Nat) : Except LayoutError Alignment :=
  match ofNat? n with
  | some a => .ok a
  | none => .error (.invalidProfile s!"alignment {n} is not a power of two")

def max (a b : Alignment) : Alignment := if a.exponent ≤ b.exponent then b else a

def align? (a : Alignment) (offset : Nat) : Option Nat :=
  let reach := offset + (a.value - 1)
  if reach < addressLimit then some (reach - reach % a.value) else none

def isAligned (a : Alignment) (offset : Nat) : Bool := offset % a.value == 0

instance : ToString Alignment := ⟨fun a => toString a.value⟩

theorem value_pos (a : Alignment) : 0 < a.value := Nat.two_pow_pos _

theorem value_lt (a : Alignment) : a.value < addressLimit :=
  Nat.pow_lt_pow_right (by decide) a.exponent.isLt

@[simp] theorem value_one : one.value = 1 := rfl

theorem value_ofNat? {n : Nat} {a : Alignment} (h : ofNat? n = some a) : a.value = n := by
  unfold ofNat? at h
  split at h
  · split at h
    · cases h
      assumption
    · contradiction
  · contradiction

theorem value_dvd_align? {a : Alignment} {x y : Nat} (h : a.align? x = some y) :
    a.value ∣ y := by
  simp only [align?] at h
  split at h
  · cases h
    exact Nat.dvd_sub_mod _
  · contradiction

theorem le_align? {a : Alignment} {x y : Nat} (h : a.align? x = some y) : x ≤ y := by
  simp only [align?] at h
  split at h
  · cases h
    have := Nat.mod_lt (x + (a.value - 1)) a.value_pos
    omega
  · contradiction

end Alignment

end TypeLayout
