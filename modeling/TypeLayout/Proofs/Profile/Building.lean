import Mathlib.Tactic.ByContra
import TypeLayout.Layout.Engine
import TypeLayout.Profile.Builder
import TypeLayout.Proofs.Stateful
/-! What a profile builder gives. It fails exactly on an unsound row or pointer width; else every
row is that of its last override or of the base, and the name of a preset is only kept by the
machine of that preset. -/

namespace TypeLayout

namespace Alignment

variable {n : Nat} {a : Alignment}

theorem isPowerOfTwo_value (a : Alignment) : a.value.isPowerOfTwo := ⟨a.exponent, rfl⟩

theorem exists_ofNat? (h : n.isPowerOfTwo) (hlt : n < addressLimit) : ∃ a, ofNat? n = some a := by
  obtain ⟨k, rfl⟩ := h
  have hk : k < 64 := (Nat.pow_lt_pow_iff_right (by decide)).mp hlt
  unfold ofNat?
  rw [dif_pos (by rwa [Nat.log2_two_pow]), if_pos (by rw [Nat.log2_two_pow]; rfl)]
  exact ⟨_, rfl⟩

end Alignment

structure SoundRow (size align : Nat) : Prop where
  powerOfTwo : align.isPowerOfTwo
  nonzero : size ≠ 0
  multiple : align ∣ size

def Extent.Is (r : Extent) (size align : Nat) : Prop := r.size = size ∧ r.align.value = align

namespace Extent

variable {size align : Nat} {r : Extent}

theorem sound (r : Extent) : SoundRow r.size r.align.value :=
  ⟨r.align.isPowerOfTwo_value, Nat.ne_of_gt r.size_pos, r.align_dvd⟩

theorem is_of_ofSize (h : ofSize size align = .ok r) : r.Is size align := by
  obtain ⟨a, ha, h⟩ := bind_eq_ok.mp h
  split at h
  · cases h
    unfold Alignment.ofNat at ha
    split at ha
    next hofNat =>
      cases ha
      exact ⟨rfl, Alignment.value_ofNat? hofNat⟩
    next => cases ha
  · cases h

theorem exists_ofSize (h : SoundRow size align) (hs : size < addressLimit)
    (ha : align < addressLimit) : ∃ r, ofSize size align = .ok r := by
  obtain ⟨a, hofNat⟩ := Alignment.exists_ofNat? h.powerOfTwo ha
  have hrow : 0 < size ∧ size < addressLimit ∧ a.value ∣ size :=
    ⟨Nat.pos_of_ne_zero h.nonzero, hs, Alignment.value_ofNat? hofNat ▸ h.multiple⟩
  refine ⟨⟨size, a, hrow.1, hrow.2.1, hrow.2.2⟩, ?_⟩
  simp only [ofSize, Alignment.ofNat, hofNat]
  exact dif_pos hrow

end Extent

namespace Override

variable {o : Override} {os : List Override} {m m' : Machine} {e : LayoutError}

def InWords (o : Override) : Prop := o.size < addressLimit ∧ o.align < addressLimit

def Sound (o : Override) : Prop := SoundRow o.size o.align

theorem apply_error (h : o.apply m = .error e) : ∃ reason, e = .invalidProfile reason := by
  unfold apply at h
  split at h
  · cases h
  · cases h
    exact ⟨_, rfl⟩

theorem apply_ok (h : o.apply m = .ok m') :
    o.Sound ∧ ∃ r : Extent, r.Is o.size o.align ∧ m' = m.setRow r o.sizeClass := by
  unfold apply at h
  split at h
  next r hr =>
    cases h
    have his := Extent.is_of_ofSize hr
    refine ⟨?_, r, his, rfl⟩
    rw [Sound, ← his.1, ← his.2]
    exact r.sound
  next => cases h

theorem exists_apply (h : o.Sound) (hw : o.InWords) (m : Machine) : ∃ m', o.apply m = .ok m' := by
  obtain ⟨r, hr⟩ := Extent.exists_ofSize h hw.1 hw.2
  unfold apply
  rw [hr]
  exact ⟨_, rfl⟩

theorem applyAll_error (h : applyAll os m = .error e) : ∃ reason, e = .invalidProfile reason := by
  induction os generalizing m with
  | nil => cases h
  | cons o os ih =>
    rcases bind_eq_error.mp h with h | ⟨m₁, -, h⟩
    · exact apply_error h
    · exact ih h

theorem exists_applyAll (h : ∀ o ∈ os, o.Sound) (hw : ∀ o ∈ os, o.InWords) (m : Machine) :
    ∃ m', applyAll os m = .ok m' := by
  induction os generalizing m with
  | nil => exact ⟨m, rfl⟩
  | cons o os ih =>
    obtain ⟨ho, hos⟩ := List.forall_mem_cons.mp h
    obtain ⟨hwo, hwos⟩ := List.forall_mem_cons.mp hw
    obtain ⟨m₁, h₁⟩ := exists_apply ho hwo m
    obtain ⟨m', h'⟩ := ih hos hwos m₁
    exact ⟨m', bind_eq_ok.mpr ⟨m₁, h₁, h'⟩⟩

/-- The row that overrides settle for a class: that of the last one, or the one before them all. -/
def Settles (os : List Override) (m m' : Machine) (c : SizeClass) : Prop :=
  match os.findRev? (·.sizeClass == c) with
  | some o => (m'.row c).Is o.size o.align
  | none => m'.row c = m.row c

theorem Settles.of_row_eq {m'' : Machine} {c : SizeClass} (h : Settles os m m' c)
    (hc : m''.row c = m'.row c) : Settles os m m'' c := by
  unfold Settles at h ⊢
  rwa [hc]

theorem applyAll_ok (h : applyAll os m = .ok m') :
    (∀ o ∈ os, o.Sound) ∧ m'.pointer = m.pointer ∧ ∀ c, Settles os m m' c := by
  induction os generalizing m with
  | nil =>
    cases h
    exact ⟨by simp, rfl, fun c => rfl⟩
  | cons o os ih =>
    obtain ⟨m₁, ho, hos⟩ := bind_eq_ok.mp h
    obtain ⟨hsound, r, hr, rfl⟩ := apply_ok ho
    obtain ⟨hrest, hpointer, hrows⟩ := ih hos
    refine ⟨List.forall_mem_cons.mpr ⟨hsound, hrest⟩, by simpa using hpointer, fun c => ?_⟩
    have hrow := hrows c
    unfold Settles at hrow ⊢
    rw [List.findRev?]
    cases hlast : os.findRev? (·.sizeClass == c) with
    | some o' =>
      rw [hlast] at hrow
      exact hrow
    | none =>
      rw [hlast] at hrow
      dsimp only at hrow ⊢
      rw [hrow]
      by_cases hc : o.sizeClass = c
      · subst hc
        simpa using hr
      · rw [beq_false_of_ne hc]
        exact m.row_setRow_of_ne r (Ne.symm hc)

end Override

namespace Text

theorem getLast?_lowerFrom {cs : List Char} (h : cs.getLast? = some '*') (before : List Char) :
    (lowerFrom before cs).getLast? = some '*' := by
  induction cs generalizing before with
  | nil => cases h
  | cons c cs ih =>
    rw [lowerFrom, List.getLast?_append]
    cases cs with
    | nil =>
      obtain rfl : c = '*' := by simpa using h
      rfl
    | cons d ds =>
      rw [ih (by rwa [List.getLast?_cons_cons] at h)]
      rfl

end Text

namespace Profile

variable {p q : Profile} {name : String}

theorem presetNamed?_star (h : name.toList.getLast? = some '*') : presetNamed? name = none := by
  have hother : ∀ names : List String, (∀ n ∈ names, n.toList.getLast? ≠ some '*') →
      names.contains name = false := fun names hnames =>
    Bool.eq_false_iff.mpr fun hname => hnames name (List.contains_iff_mem.mp hname) h
  unfold presetNamed?
  rw [hother _ (by decide), hother _ (by decide), hother _ (by decide)]
  rfl

theorem preset_star (h : name.toList.getLast? = some '*') : preset name ≠ .ok q := by
  have hlower : (Text.lowercase name).toList.getLast? = some '*' := by
    rw [Text.lowercase, String.toList_ofList]
    exact Text.getLast?_lowerFrom h []
  unfold preset
  simp only [presetNamed?_star hlower]
  nofun

/-- A marked profile that carries the name of a preset has the machine of that preset. -/
theorem machine_of_marked (h : preset p.marked.name = .ok q) : p.marked.machine = q.machine := by
  unfold marked at h ⊢
  split at h
  next hkept =>
    rw [if_pos hkept]
    simp only [Bool.or_eq_true, decide_eq_true_eq] at hkept
    rcases hkept with hstar | hsame
    · exact absurd h (preset_star hstar)
    · have hq : p.namesake = q := by
        unfold namesake
        rw [h]
      rw [hsame, hq]
  next =>
    refine absurd h (preset_star ?_)
    simp

theorem machine_marked (p : Profile) : p.marked.machine = p.machine := by
  unfold marked
  split <;> rfl

namespace Builder

inductive Call
  | rename (name : String)
  | row (c : SizeClass) (size align : Nat)
  | pointerSize (size : Nat)

def take (b : Builder) : Call → Builder
  | .rename name => b.withName name
  | .row c size align => b.withRow c size align
  | .pointerSize size => b.withPointerSize size

def after (b : Builder) (calls : List Call) : Builder := calls.foldl take b

namespace Call

def override? : Call → Option Override
  | row c size align => some ⟨c, size, align⟩
  | _ => none

def pointer? : Call → Option Nat
  | pointerSize size => some size
  | _ => none

def InWords : Call → Prop
  | row _ size align => size < addressLimit ∧ align < addressLimit
  | pointerSize size => size < addressLimit
  | rename _ => True

end Call

variable {b : Builder} {calls : List Call} {m m' : Machine}

theorem after_machine : (b.after calls).base.machine = b.base.machine := by
  induction calls generalizing b with
  | nil => rfl
  | cons call calls ih =>
    have hfirst : (b.take call).base.machine = b.base.machine := by cases call <;> rfl
    exact ih.trans hfirst

theorem after_overrides :
    (b.after calls).overrides = b.overrides ++ calls.filterMap Call.override? := by
  induction calls generalizing b with
  | nil => simp [after]
  | cons call calls ih =>
    rw [after, List.foldl_cons, ← after, ih]
    cases call <;>
      simp [take, withName, withRow, withPointerSize, Call.override?, List.filterMap_cons]

theorem after_pointerSize :
    (b.after calls).pointerSize = (calls.filterMap Call.pointer?).getLast?.or b.pointerSize := by
  induction calls generalizing b with
  | nil => simp [after]
  | cons call calls ih =>
    rw [after, List.foldl_cons, ← after, ih]
    cases call with
    | rename name => rfl
    | row c size align => rfl
    | pointerSize size =>
      have hlist : (Call.pointerSize size :: calls).filterMap Call.pointer? =
          size :: calls.filterMap Call.pointer? := rfl
      rw [hlist, List.getLast?_cons]
      cases (calls.filterMap Call.pointer?).getLast? <;> rfl

theorem pointer_error {e : LayoutError} (h : b.pointer m = .error e) :
    ∃ reason, e = .invalidProfile reason := by
  unfold pointer at h
  split at h
  · cases h
  · split at h
    · cases h
    · cases h
      exact ⟨_, rfl⟩

theorem pointer_ok (h : b.pointer m = .ok m') :
    (∀ size ∈ b.pointerSize, size.isPowerOfTwo) ∧ (∀ c, m'.row c = m.row c) ∧
      m'.pointerSize = b.pointerSize.getD m.pointerSize := by
  unfold pointer at h
  split at h
  next hsize =>
    cases h
    simp [hsize]
  next size hsize =>
    split at h
    next a ha =>
      cases h
      have hvalue := Alignment.value_ofNat? ha
      rw [hsize]
      refine ⟨?_, fun c => by cases c <;> rfl, hvalue⟩
      rintro _ ⟨⟩
      rw [← hvalue]
      exact a.isPowerOfTwo_value
    next => cases h

theorem exists_pointer (h : ∀ size ∈ b.pointerSize, size.isPowerOfTwo ∧ size < addressLimit)
    (m : Machine) : ∃ m', b.pointer m = .ok m' := by
  unfold pointer
  cases hsize : b.pointerSize with
  | none => exact ⟨m, rfl⟩
  | some size =>
    obtain ⟨htwo, hlt⟩ := h size hsize
    obtain ⟨a, ha⟩ := Alignment.exists_ofNat? htwo hlt
    simp only [ha]
    exact ⟨_, rfl⟩

def rowsAsked (calls : List Call) : List Override := calls.filterMap Call.override?

def widthAsked? (calls : List Call) : Option Nat := (calls.filterMap Call.pointer?).getLast?

theorem inWords_of_rowsAsked (h : ∀ call ∈ calls, call.InWords) :
    ∀ o ∈ rowsAsked calls, o.InWords := by
  intro o ho
  obtain ⟨call, hcall, heq⟩ := List.mem_filterMap.mp ho
  have hw := h call hcall
  cases call with
  | row c size align =>
    cases heq
    exact hw
  | _ => cases heq

theorem lt_of_widthAsked? (h : ∀ call ∈ calls, call.InWords) :
    ∀ size ∈ widthAsked? calls, size < addressLimit := by
  intro size hsize
  obtain ⟨call, hcall, heq⟩ := List.mem_filterMap.mp (List.mem_of_getLast? hsize)
  have hw := h call hcall
  cases call with
  | pointerSize n =>
    cases heq
    exact hw
  | _ => cases heq

/-- What a profile keeps of its base and of what the builder was told. -/
structure Keeps (base : Profile) (calls : List Call) (p : Profile) : Prop where
  sound : ∀ c, SoundRow (p.machine.row c).size (p.machine.row c).align.value
  rows : ∀ c, Override.Settles (rowsAsked calls) base.machine p.machine c
  pointerSize : p.machine.pointerSize = (widthAsked? calls).getD base.machine.pointerSize
  powerOfTwo : p.machine.pointerSize.isPowerOfTwo
  /-- Data pointers have this width, and so has the vtable slot that a class opens with. -/
  shared : ∀ (r : Registry) (policy : BasePolicy) (owner : String) (flags : Flags),
    flags.dynamic = true →
    (LayoutEnv.pointer ⟨r, p.machine, policy⟩).size = p.machine.pointerSize ∧
      (LayoutEnv.openDraft ⟨r, p.machine, policy⟩ owner flags []).offset = p.machine.pointerSize
  pointerWide : ∀ k : Fundamental, k.isPointerWide = true →
    (p.machine.extent? k).map Prod.fst = some p.machine.pointerSize
  named : ∀ q, preset p.name = .ok q → p.machine = q.machine

end Builder

end Profile

theorem Machine.extent?_pointerWide (m : Machine) {k : Fundamental} (hk : k.isPointerWide = true) :
    (m.extent? k).map Prod.fst = some m.pointerSize := by
  unfold extent? class?
  rw [if_pos hk]
  cases hc : m.pointerClass? with
  | none => simp [hk]
  | some c =>
    have hsize := List.find?_some hc
    simpa using hsize

namespace Profile.Builder

variable {base p : Profile} {b : Builder} {calls : List Call} {e : LayoutError}

theorem build_error (h : b.build = .error e) : ∃ reason, e = .invalidProfile reason := by
  rcases bind_eq_error.mp h with h | ⟨m, -, h⟩
  · exact Override.applyAll_error h
  · rcases bind_eq_error.mp h with h | ⟨m', -, h⟩
    · exact pointer_error h
    · cases h

theorem build_ok (h : (after { base := base } calls).build = .ok p) :
    (∀ o ∈ rowsAsked calls, o.Sound) ∧ (∀ size ∈ widthAsked? calls, size.isPowerOfTwo) ∧
      Keeps base calls p := by
  obtain ⟨m, hrows, h⟩ := bind_eq_ok.mp h
  obtain ⟨m', hpointer, h⟩ := bind_eq_ok.mp h
  rw [after_machine, after_overrides] at hrows
  have hwidth : (after { base := base } calls).pointerSize = widthAsked? calls := by
    rw [after_pointerSize]
    exact Option.or_none
  obtain ⟨hsound, hkept, hsettles⟩ := Override.applyAll_ok hrows
  obtain ⟨htwo, hrow, hsize⟩ := pointer_ok hpointer
  rw [hwidth] at htwo hsize
  obtain rfl := pure_eq_ok.mp h
  refine ⟨hsound, htwo, ?_⟩
  exact
    { sound := fun c => Extent.sound _
      rows := fun c => by
        rw [machine_marked]
        exact (hsettles c).of_row_eq (hrow c)
      pointerSize := by
        rw [machine_marked, hsize, Machine.pointerSize, hkept]
        rfl
      powerOfTwo := Alignment.isPowerOfTwo_value _
      shared := fun r policy owner flags hdynamic => by
        refine ⟨rfl, ?_⟩
        simp [LayoutEnv.openDraft, LaidBase.primary?, hdynamic, Draft.addSlot, Machine.pointerSize]
      pointerWide := fun k hk => Machine.extent?_pointerWide _ hk
      named := fun q => machine_of_marked }

variable (base) in
theorem exists_build (hw : ∀ call ∈ calls, call.InWords) (hrows : ∀ o ∈ rowsAsked calls, o.Sound)
    (hwidth : ∀ size ∈ widthAsked? calls, size.isPowerOfTwo) :
    ∃ p, (after { base := base } calls).build = .ok p := by
  obtain ⟨m, hm⟩ := Override.exists_applyAll hrows (inWords_of_rowsAsked hw) base.machine
  have hpointer : ∀ size ∈ (after { base := base } calls).pointerSize,
      size.isPowerOfTwo ∧ size < addressLimit := by
    rw [after_pointerSize, Option.or_none]
    exact fun size hsize => ⟨hwidth size hsize, lt_of_widthAsked? hw size hsize⟩
  obtain ⟨m', hm'⟩ := exists_pointer hpointer m
  refine ⟨_, bind_eq_ok.mpr ⟨m, ?_, bind_eq_ok.mpr ⟨m', hm', rfl⟩⟩⟩
  rw [after_machine, after_overrides]
  exact hm

/-- A builder fails exactly on a row or a pointer width that no machine may have; else the profile
keeps what it was told last and all else of the base. -/
theorem build_contract (base : Profile) {calls : List Call} (hw : ∀ call ∈ calls, call.InWords) :
    ((∃ reason, (after { base := base } calls).build = .error (.invalidProfile reason)) ↔
      (∃ o ∈ rowsAsked calls, ¬ o.Sound) ∨ ∃ size ∈ widthAsked? calls, ¬ size.isPowerOfTwo) ∧
    ((∀ o ∈ rowsAsked calls, o.Sound) → (∀ size ∈ widthAsked? calls, size.isPowerOfTwo) →
      ∃ p, (after { base := base } calls).build = .ok p ∧ Keeps base calls p) := by
  constructor
  · constructor
    · rintro ⟨reason, hfail⟩
      by_contra hgood
      simp only [not_or, not_exists, not_and, Classical.not_not] at hgood
      obtain ⟨p, hp⟩ := exists_build base hw hgood.1 hgood.2
      rw [hp] at hfail
      cases hfail
    · intro hbad
      cases h : (after { base := base } calls).build with
      | error e =>
        obtain ⟨reason, rfl⟩ := build_error h
        exact ⟨reason, rfl⟩
      | ok p =>
        obtain ⟨hrows, hwidth, -⟩ := build_ok h
        rcases hbad with ⟨o, ho, hne⟩ | ⟨size, hsize, hne⟩
        · exact absurd (hrows o ho) hne
        · exact absurd (hwidth size hsize) hne
  · intro hrows hwidth
    obtain ⟨p, hp⟩ := exists_build base hw hrows hwidth
    exact ⟨p, hp, (build_ok hp).2.2⟩

def shortened : Profile where
  name := "lp64*"
  machine := { Profile.lp64.machine with longDouble := .natural .eight }

def corrections : List Call :=
  [.rename "x86_64", .row .long 16 16, .pointerSize 6, .row .long 4 4, .pointerSize 4]

theorem corrections_contract : (∀ call ∈ corrections, call.InWords) ∧
    (after { base := .lp64 } [.row .longDouble 8 8]).build = .ok shortened ∧
    ∃ p, (after { base := shortened } corrections).build = .ok p ∧
      Keeps shortened corrections p := by
  have hw : ∀ call ∈ corrections, call.InWords := by
    simp only [corrections, List.forall_mem_cons, Call.InWords]
    exact ⟨trivial, by decide, by decide, by decide, by decide, nofun⟩
  have hrows : ∀ o ∈ rowsAsked corrections, o.Sound := by
    have hlist : rowsAsked corrections = [⟨.long, 16, 16⟩, ⟨.long, 4, 4⟩] := rfl
    rw [hlist]
    simp only [List.forall_mem_cons]
    exact ⟨⟨⟨4, rfl⟩, by decide, by decide⟩, ⟨⟨2, rfl⟩, by decide, by decide⟩, nofun⟩
  have hwidth : ∀ size ∈ widthAsked? corrections, size.isPowerOfTwo := by
    rintro _ ⟨⟩
    exact ⟨2, rfl⟩
  exact ⟨hw, by rfl, (build_contract shortened hw).2 hrows hwidth⟩

end Profile.Builder

end TypeLayout
