import Mathlib.Data.List.Induction
import TypeLayout.Config.Basic
import TypeLayout.Proofs.Profile.Building
/-! Which of the overrides of a configuration count. They are kept by spelling, a spelling where it
was first used, and applied by class in that order: of the spellings of one class, the one that came
up last decides, by its last use. -/

namespace TypeLayout

namespace Config

def settled (calls : List (String × Replacement)) : List (String × Replacement) :=
  calls.foldl (fun os o => setOverride o.1 o.2 os) []

def overriddenBy (c : Config) (calls : List (String × Replacement)) : Config :=
  calls.foldl (fun c o => c.withOverride o.1 o.2.size o.2.align) c

def lastUse? (calls : List (String × Replacement)) (spelling : String) :
    Option (String × Replacement) :=
  calls.findRev? (·.1 == spelling)

def denotes (c : SizeClass) (spelling : String) : Bool := SizeClass.ofSpelling? spelling == some c

/-- The spelling of the class that came up last. -/
def deciding? (calls : List (String × Replacement)) (c : SizeClass) : Option String :=
  (calls.map Prod.fst).eraseDups.findRev? (denotes c)

variable {calls : List (String × Replacement)} {os : List (String × Replacement)} {s : String}
  {x : Replacement}

theorem findRev?_concat (p : String × Replacement → Bool) (o : String × Replacement) :
    (os ++ [o]).findRev? p = if p o then some o else os.findRev? p := by
  rw [List.findRev?_eq_find?_reverse, List.findRev?_eq_find?_reverse, List.reverse_append]
  cases h : p o <;> simp [h]

theorem mem_of_findRev? {p : String × Replacement → Bool} {o : String × Replacement}
    (h : os.findRev? p = some o) : o ∈ os ∧ p o = true := by
  rw [List.findRev?_eq_find?_reverse] at h
  exact ⟨List.mem_reverse.mp (List.mem_of_find?_eq_some h), List.find?_some h⟩

theorem setOverride_of_not_mem (h : s ∉ os.map Prod.fst) :
    setOverride s x os = os ++ [(s, x)] := by
  induction os with
  | nil => rfl
  | cons o os ih =>
    rw [List.map_cons, List.mem_cons, not_or] at h
    rw [setOverride, if_neg (Ne.symm h.1), ih h.2]
    rfl

theorem setOverride_fst_of_mem (h : s ∈ os.map Prod.fst) :
    (setOverride s x os).map Prod.fst = os.map Prod.fst := by
  induction os with
  | nil => cases h
  | cons o os ih =>
    rw [setOverride]
    split
    next heq => rfl
    next hne =>
      rw [List.map_cons, List.mem_cons] at h
      rw [List.map_cons, List.map_cons, ih (h.resolve_left fun heq => hne heq.symm)]

theorem mem_setOverride {o : String × Replacement} (hos : (os.map Prod.fst).Nodup)
    (h : o ∈ setOverride s x os) : o = (s, x) ∨ (o ∈ os ∧ o.1 ≠ s) := by
  induction os with
  | nil => exact .inl (List.mem_singleton.mp h)
  | cons o' os ih =>
    obtain ⟨hfresh, hrest⟩ := List.nodup_cons.mp hos
    rw [setOverride] at h
    split at h
    next heq =>
      rcases List.mem_cons.mp h with rfl | h
      · exact .inl (by rw [heq])
      · refine .inr ⟨List.mem_cons_of_mem _ h, fun hs => hfresh ?_⟩
        rw [heq, ← hs]
        exact List.mem_map_of_mem h
    next hne =>
      rcases List.mem_cons.mp h with rfl | h
      · exact .inr ⟨List.mem_cons_self, hne⟩
      · rcases ih hrest h with h | ⟨h, hs⟩
        · exact .inl h
        · exact .inr ⟨List.mem_cons_of_mem _ h, hs⟩

theorem settled_concat (calls : List (String × Replacement)) (o : String × Replacement) :
    settled (calls ++ [o]) = setOverride o.1 o.2 (settled calls) := by
  rw [settled, List.foldl_append]
  rfl

theorem settled_fst (calls : List (String × Replacement)) :
    (settled calls).map Prod.fst = (calls.map Prod.fst).eraseDups := by
  induction calls using List.reverseRecOn with
  | nil => rfl
  | append_singleton calls o ih =>
    rw [settled_concat, List.map_append, List.eraseDups_append, ← ih]
    by_cases h : o.1 ∈ (settled calls).map Prod.fst
    · have hold : o.1 ∈ calls.map Prod.fst := List.mem_eraseDups.mp (ih ▸ h)
      rw [setOverride_fst_of_mem h]
      simp [List.removeAll, hold]
    · have hnew : o.1 ∉ calls.map Prod.fst := fun hold => h (ih ▸ List.mem_eraseDups.mpr hold)
      rw [setOverride_of_not_mem h]
      simp [List.removeAll, hnew, List.eraseDups_cons]

theorem settled_nodup (calls : List (String × Replacement)) :
    ((settled calls).map Prod.fst).Nodup := by
  induction calls using List.reverseRecOn with
  | nil => exact List.nodup_nil
  | append_singleton calls o ih =>
    rw [settled_concat]
    by_cases h : o.1 ∈ (settled calls).map Prod.fst
    · rwa [setOverride_fst_of_mem h]
    · rw [setOverride_of_not_mem h, List.map_append, List.nodup_append]
      refine ⟨ih, List.pairwise_singleton _ _, fun s hs s' hs' heq => h ?_⟩
      rwa [← List.mem_singleton.mp hs', ← heq]

theorem lastUse?_concat (calls : List (String × Replacement)) (o : String × Replacement)
    (s : String) : lastUse? (calls ++ [o]) s = if o.1 = s then some o else lastUse? calls s := by
  rw [lastUse?, findRev?_concat]
  simp only [beq_iff_eq]
  rfl

theorem lastUse?_of_mem_settled {o : String × Replacement} (h : o ∈ settled calls) :
    lastUse? calls o.1 = some o := by
  induction calls using List.reverseRecOn with
  | nil => cases h
  | append_singleton calls o' ih =>
    rw [settled_concat] at h
    rw [lastUse?_concat]
    rcases mem_setOverride (settled_nodup calls) h with rfl | ⟨h, hne⟩
    · exact if_pos rfl
    · rw [if_neg (Ne.symm hne)]
      exact ih h

theorem mem_of_mem_settled {o : String × Replacement} (h : o ∈ settled calls) : o ∈ calls :=
  (mem_of_findRev? (lastUse?_of_mem_settled h)).1

theorem overriddenBy_eq (c : Config) (calls : List (String × Replacement)) :
    c.overriddenBy calls =
      { c with overrides := calls.foldl (fun os o => setOverride o.1 o.2 os) c.overrides } := by
  induction calls generalizing c with
  | nil => rfl
  | cons o calls ih => exact ih _

structure Usable (o : String × Replacement) : Prop where
  denotes : ∃ c, SizeClass.ofSpelling? o.1 = some c
  sound : SoundRow o.2.size o.2.align
  inWords : o.2.size < addressLimit ∧ o.2.align < addressLimit

theorem exists_overrides (h : ∀ o ∈ os, Usable o) :
    ∃ overrides, os.mapM overrideOf = .ok overrides ∧
      (∀ x ∈ overrides, x.Sound ∧ x.InWords) ∧
      ∀ c, overrides.findRev? (·.sizeClass == c) =
        (os.findRev? fun o => denotes c o.1).map fun o => ⟨c, o.2.size, o.2.align⟩ := by
  induction os with
  | nil => exact ⟨[], rfl, by simp, fun c => rfl⟩
  | cons o os ih =>
    obtain ⟨ho, hos⟩ := List.forall_mem_cons.mp h
    obtain ⟨overrides, hrun, hsound, hlast⟩ := ih hos
    obtain ⟨k, hk⟩ := ho.denotes
    have hone : overrideOf o = .ok ⟨k, o.2.size, o.2.align⟩ := by
      unfold overrideOf
      rw [hk]
    refine ⟨⟨k, o.2.size, o.2.align⟩ :: overrides, ?_, ?_, fun c => ?_⟩
    · rw [List.mapM_cons, hone, hrun]
      rfl
    · exact List.forall_mem_cons.mpr ⟨⟨ho.sound, ho.inWords⟩, hsound⟩
    · rw [List.findRev?, List.findRev?, hlast]
      cases os.findRev? fun o => denotes c o.1 with
      | some o' => rfl
      | none =>
        by_cases hc : k = c
        · subst hc
          simp [denotes, hk]
        · simp [denotes, hk, hc]

def decidingUse? (calls : List (String × Replacement)) (c : SizeClass) :
    Option (String × Replacement) :=
  deciding? calls c >>= lastUse? calls

theorem decidingUse?_eq (calls : List (String × Replacement)) (c : SizeClass) :
    decidingUse? calls c = (settled calls).findRev? fun o => denotes c o.1 := by
  have hspelling : deciding? calls c =
      ((settled calls).findRev? fun o => denotes c o.1).map Prod.fst := by
    rw [deciding?, ← settled_fst, List.findRev?_eq_find?_reverse, List.findRev?_eq_find?_reverse,
      ← List.map_reverse, List.find?_map]
    rfl
  rw [decidingUse?, hspelling]
  cases h : (settled calls).findRev? fun o => denotes c o.1 with
  | none => rfl
  | some o => exact lastUse?_of_mem_settled (mem_of_findRev? h).1

def lastCall? (calls : List (String × Replacement)) (c : SizeClass) :
    Option (String × Replacement) :=
  calls.findRev? fun o => denotes c o.1

theorem lastUse?_of_lastCall? {c : SizeClass} {o : String × Replacement}
    (h : lastCall? calls c = some o) : lastUse? calls o.1 = some o := by
  induction calls using List.reverseRecOn with
  | nil => cases h
  | append_singleton calls o' ih =>
    have hdenotes := (mem_of_findRev? h).2
    rw [lastCall?, findRev?_concat] at h
    rw [lastUse?_concat]
    split at h
    next =>
      cases h
      exact if_pos rfl
    next hother =>
      have hne : o'.1 ≠ o.1 := fun heq => hother (heq ▸ hdenotes)
      rw [if_neg hne]
      exact ih h

theorem decidingUse?_eq_none {c : SizeClass} :
    decidingUse? calls c = none ↔ ∀ o ∈ calls, denotes c o.1 = false := by
  have hspellings : decidingUse? calls c = none ↔ deciding? calls c = none := by
    rw [decidingUse?_eq, deciding?, ← settled_fst]
    simp [List.findRev?_eq_find?_reverse]
  rw [hspellings, deciding?]
  simp [List.findRev?_eq_find?_reverse]

/-- What the row of a class is in a profile with overrides. -/
structure Row (calls : List (String × Replacement)) (preset p : Profile) (c : SizeClass) :
    Prop where
  untouched : (∀ o ∈ calls, denotes c o.1 = false) → p.machine.row c = preset.machine.row c
  decided : (∃ o ∈ calls, denotes c o.1 = true) →
    ∃ o, decidingUse? calls c = some o ∧ (p.machine.row c).Is o.2.size o.2.align
  /-- The last call of the class wins where its spelling came up after the others of the class. -/
  last : ∀ o, lastCall? calls c = some o → deciding? calls c = some o.1 →
    (p.machine.row c).Is o.2.size o.2.align

variable {c : Config} {preset p : Profile} {k : SizeClass}

theorem row_of_decidingUse?
    (h : match decidingUse? calls k with
      | some o => (p.machine.row k).Is o.2.size o.2.align
      | none => p.machine.row k = preset.machine.row k) : Row calls preset p k := by
  refine ⟨fun hnone => ?_, fun hsome => ?_, fun o hlast hdeciding => ?_⟩
  · rwa [decidingUse?_eq_none.mpr hnone] at h
  · cases hdecides : decidingUse? calls k with
    | some o =>
      rw [hdecides] at h
      exact ⟨o, rfl, h⟩
    | none =>
      obtain ⟨o, ho, hdenotes⟩ := hsome
      rw [decidingUse?_eq_none.mp hdecides o ho] at hdenotes
      cases hdenotes
  · have huse : decidingUse? calls k = some o := by
      rw [decidingUse?, hdeciding]
      exact lastUse?_of_lastCall? hlast
    rwa [huse] at h

theorem exists_abiProfile {overrides : List Override}
    (hwidth : ∀ size ∈ c.pointerSize, size.isPowerOfTwo ∧ size < addressLimit)
    (hpreset : Profile.preset c.profile = .ok preset)
    (hrun : c.overrides.mapM overrideOf = .ok overrides)
    (hsound : ∀ o ∈ overrides, o.Sound ∧ o.InWords) :
    ∃ p, c.abiProfile = .ok p ∧ ∀ k, Override.Settles overrides preset.machine p.machine k := by
  by_cases hplain : c.overrides.isEmpty && c.pointerSize.isNone
  · have hempty : c.overrides = [] := by simpa using (Bool.and_eq_true_iff.mp hplain).1
    rw [hempty] at hrun
    cases hrun
    refine ⟨preset, bind_eq_ok.mpr ⟨preset, hpreset, ?_⟩, fun k => rfl⟩
    rw [if_pos hplain]
    rfl
  · obtain ⟨m, hm⟩ := Override.exists_applyAll (fun o ho => (hsound o ho).1)
      (fun o ho => (hsound o ho).2) preset.machine
    obtain ⟨-, -, hsettles⟩ := Override.applyAll_ok hm
    obtain ⟨m', hm'⟩ := Profile.Builder.exists_pointer
      (b := { base := preset, overrides := overrides, pointerSize := c.pointerSize }) hwidth m
    obtain ⟨-, hrow, -⟩ := Profile.Builder.pointer_ok hm'
    refine ⟨Profile.marked { preset with machine := m' },
      bind_eq_ok.mpr ⟨preset, hpreset, ?_⟩, fun k => ?_⟩
    · rw [if_neg hplain]
      refine bind_eq_ok.mpr ⟨overrides, hrun, ?_⟩
      exact bind_eq_ok.mpr ⟨m, hm, bind_eq_ok.mpr ⟨m', hm', rfl⟩⟩
    · rw [Profile.machine_marked]
      exact (hsettles k).of_row_eq (hrow k)

/-- Each class has the row of the spelling of it that came up last, by the last use of that
spelling; the other rows are those of the preset. -/
theorem overriddenBy_abiProfile (hnone : c.overrides = [])
    (hwidth : ∀ size ∈ c.pointerSize, size.isPowerOfTwo ∧ size < addressLimit)
    (hpreset : Profile.preset c.profile = .ok preset) (hcalls : ∀ o ∈ calls, Usable o) :
    ∃ p, (c.overriddenBy calls).abiProfile = .ok p ∧ ∀ k, Row calls preset p k := by
  have hfields : c.overriddenBy calls = { c with overrides := settled calls } := by
    rw [overriddenBy_eq, hnone]
    rfl
  have hkept : ∀ o ∈ settled calls, Usable o := fun o ho => hcalls o (mem_of_mem_settled ho)
  obtain ⟨overrides, hrun, hsound, hlast⟩ := exists_overrides hkept
  rw [hfields]
  obtain ⟨p, hp, hsettles⟩ := exists_abiProfile (c := { c with overrides := settled calls })
    hwidth hpreset hrun hsound
  refine ⟨p, hp, fun k => row_of_decidingUse? ?_⟩
  have hrow := hsettles k
  rw [Override.Settles, hlast, ← decidingUse?_eq] at hrow
  cases h : decidingUse? calls k with
  | none => simpa [h] using hrow
  | some o => simpa [h] using hrow

def aliased : List (String × Replacement) :=
  [("short", ⟨2, 2⟩), ("short int", ⟨4, 4⟩), ("short", ⟨8, 8⟩)]

theorem aliased_usable : ∀ o ∈ aliased, Usable o := by
  have hshort : SizeClass.ofSpelling? "short" = some .short := by decide
  have hshortInt : SizeClass.ofSpelling? "short int" = some .short := by decide
  simp only [aliased, List.forall_mem_cons]
  exact ⟨⟨⟨_, hshort⟩, ⟨⟨1, rfl⟩, by decide, by decide⟩, by decide⟩,
    ⟨⟨_, hshortInt⟩, ⟨⟨2, rfl⟩, by decide, by decide⟩, by decide⟩,
    ⟨⟨_, hshort⟩, ⟨⟨3, rfl⟩, by decide, by decide⟩, by decide⟩, nofun⟩

theorem aliased_abiProfile : (∀ o ∈ aliased, Usable o) ∧
    ∃ p, (({} : Config).overriddenBy aliased).abiProfile = .ok p ∧
      ∀ k, Row aliased .lp64 p k :=
  ⟨aliased_usable, overriddenBy_abiProfile rfl nofun rfl aliased_usable⟩

def secondSpelling : Profile where
  name := "lp64*"
  machine := { Profile.lp64.machine with short := .natural .four }

/-- The last call asks for 8 bytes, the row has 4. -/
theorem aliased_not_last : (∀ o ∈ aliased, Usable o) ∧
    lastCall? aliased .short = some ("short", ⟨8, 8⟩) ∧
    ∃ p, (({} : Config).overriddenBy aliased).abiProfile = .ok p ∧
      (p.machine.row .short).Is 4 4 ∧ ¬ (p.machine.row .short).Is 8 8 :=
  ⟨aliased_usable, by decide, secondSpelling, by rfl, ⟨rfl, rfl⟩, fun h => absurd h.1 (by decide)⟩

end Config

end TypeLayout
