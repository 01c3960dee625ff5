import TypeLayout.Proofs.Layout.Unveiling
/-! Which error an array has. An array is as large as its element times the count; an element of
size zero and a product beyond 64 bits go by one error, and the errors of the element pass. -/

namespace TypeLayout

open Registry

namespace LayoutEnv

variable {env : LayoutEnv} {d : Descriptor} {l : Layout} {count : Nat}

theorem layoutOf_array (hr : env.registry.Founded) (d : Descriptor) (count : Nat) :
    (env.layoutOf (.array d count) : Except LayoutError Layout) =
      env.layoutOf d >>= fun l => env.array d count l := by
  obtain ⟨n, hf, hstep⟩ := env.layoutOf_eq_step (.array d count)
  have hw : d.weight < (Descriptor.array d count).weight := Nat.lt_succ_self _
  have hd := layoutWithin_eq_layoutOf hr (hf.inside (x := d) (fun _ hid => hid) hw)
  rw [hstep, layoutStep, hd]
  simp only [ofExcept_eq]

theorem layoutOf_void (hr : env.registry.Founded) (hd : env.registry.strip d = .fundamental .void) :
    env.layoutOf d = (.error (.incompleteType "void" none) : Except LayoutError Layout) := by
  rw [← layoutOf_strip hr, hd]
  rfl

theorem array_of_zero (h : l.size = 0) :
    env.array d count l = .error (.invalidArrayElement (env.registry.typeName d)) :=
  if_pos h

theorem array_of_fits (hz : l.size ≠ 0) (h : l.size * count < addressLimit) :
    env.array d count l = .ok (.scalar (l.size * count) l.align) :=
  (if_neg hz).trans (if_pos h)

theorem array_of_exceeds (h : addressLimit ≤ l.size * count) :
    env.array d count l =
      .error (.invalidArrayElement (env.registry.typeName (.array d count))) := by
  have hz : l.size ≠ 0 := by
    intro hz
    rw [hz, Nat.zero_mul] at h
    exact absurd h (by decide)
  exact (if_neg hz).trans (if_neg (Nat.not_lt.mpr h))

theorem array_eq_error {name : String} :
    env.array d count l = .error (.invalidArrayElement name) ↔
      (l.size = 0 ∧ name = env.registry.typeName d) ∨
      (addressLimit ≤ l.size * count ∧ name = env.registry.typeName (.array d count)) := by
  constructor
  · intro h
    by_cases hz : l.size = 0
    · rw [array_of_zero hz] at h
      cases h
      exact Or.inl ⟨hz, rfl⟩
    · by_cases hlt : l.size * count < addressLimit
      · rw [array_of_fits hz hlt] at h
        cases h
      · rw [array_of_exceeds (Nat.le_of_not_lt hlt)] at h
        cases h
        exact Or.inr ⟨Nat.le_of_not_lt hlt, rfl⟩
  · rintro (⟨hz, rfl⟩ | ⟨hlt, rfl⟩)
    · exact array_of_zero hz
    · exact array_of_exceeds hlt

/-- An array is refused as one of an invalid element if the element has size zero, and then the
element is named, or if the array passes 64 bits, and then the array is. An element that has no
layout decides the error, which for `void` is that it is incomplete. -/
theorem layoutOf_array_refused (hb : env.registry.Built) (d : Descriptor) (count : Nat) :
    (∀ name, env.layoutOf (.array d count) =
        (.error (.invalidArrayElement name) : Except LayoutError Layout) ↔
      env.layoutOf d = (.error (.invalidArrayElement name) : Except LayoutError Layout) ∨
      ∃ l, env.layoutOf d = (.ok l : Except LayoutError Layout) ∧
        ((l.size = 0 ∧ name = env.registry.typeName d) ∨
          (addressLimit ≤ l.size * count ∧ name = env.registry.typeName (.array d count)))) ∧
    (∀ e, env.layoutOf d = (.error e : Except LayoutError Layout) →
      env.layoutOf (.array d count) = (.error e : Except LayoutError Layout)) ∧
    (env.registry.strip d = .fundamental .void → env.layoutOf (.array d count) =
      (.error (.incompleteType "void" none) : Except LayoutError Layout)) ∧
    (∀ l, env.layoutOf d = (.ok l : Except LayoutError Layout) → l.size ≠ 0 →
      l.size * count < addressLimit → env.layoutOf (.array d count) =
        (.ok (.scalar (l.size * count) l.align) : Except LayoutError Layout)) := by
  have hr := hb.wellFormed.toFounded
  have hpass : ∀ e, env.layoutOf d = (.error e : Except LayoutError Layout) →
      env.layoutOf (.array d count) = (.error e : Except LayoutError Layout) := by
    intro e he
    rw [layoutOf_array hr, he]
    rfl
  refine ⟨fun name => ?_, hpass, fun hv => hpass _ (layoutOf_void hr hv), fun l hl hz hlt => ?_⟩
  · rw [layoutOf_array hr, bind_eq_error]
    exact or_congr Iff.rfl (exists_congr fun l => and_congr_right fun _ => array_eq_error)
  · rw [layoutOf_array hr, hl]
    exact array_of_fits hz hlt

def hollow : Aggregate :=
  ⟨.structType, some "Hollow", [⟨"tail", .array (.fundamental .int) 0, none⟩], [], []⟩

def hollows : LayoutEnv where
  registry :=
    empty.adding [("Hollow", .aggregate hollow), ("Nothing", .typedef (.fundamental .void))]
  machine := Profile.lp64.machine
  policy := .itaniumBaseline

theorem hollows_built : hollows.registry.Built := Built.empty.adding (by decide)

theorem hollow_array_refused : hollows.registry.Built ∧
    hollows.layoutOf (.array (.named ⟨0⟩) 3) =
      (.error (.invalidArrayElement "Hollow") : Except LayoutError Layout) ∧
    hollows.registry.strip (.named ⟨1⟩) = .fundamental .void ∧
    hollows.layoutOf (.array (.named ⟨1⟩) 3) =
      (.error (.incompleteType "void" none) : Except LayoutError Layout) := by
  have hl : hollows.layoutOf (.named ⟨0⟩) = (.ok { Layout.scalar 0 .four with
      fields := [⟨"tail", "int[0]", 0, 0, .four, .whole⟩] } : Except LayoutError Layout) := by
    decide +kernel
  have hv : hollows.registry.strip (.named ⟨1⟩) = .fundamental .void := by rfl
  have hzero := (layoutOf_array_refused hollows_built (.named ⟨0⟩) 3).1 "Hollow"
  have hvoid := (layoutOf_array_refused hollows_built (.named ⟨1⟩) 3).2.2.1
  exact ⟨hollows_built, hzero.mpr (Or.inr ⟨_, hl, Or.inl ⟨rfl, by decide +kernel⟩⟩), hv, hvoid hv⟩

/-- An array of `void` is not refused for its element, and one of chars that is too long is. -/
theorem void_array_incomplete_and_long_array_refused : hollows.registry.Built ∧
    hollows.layoutOf (.array (.fundamental .void) 3) =
      (.error (.incompleteType "void" none) : Except LayoutError Layout) ∧
    hollows.layoutOf (.array (.fundamental .char) 0x8000000000000000) =
      (.ok (.scalar 0x8000000000000000 .one) : Except LayoutError Layout) ∧
    hollows.layoutOf (.array (.array (.fundamental .char) 0x8000000000000000) 2) =
      (.error (.invalidArrayElement "char[2][9223372036854775808]") :
        Except LayoutError Layout) := by
  refine ⟨hollows_built, by rfl, by rfl, by decide +kernel⟩

end LayoutEnv

end TypeLayout
