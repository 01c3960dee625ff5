import TypeLayout.Json.Shape
import TypeLayout.Proofs.Stateful
/-! Records of fields. The order of the members does not matter, nor do members with other names: a
record is made of what is given under each of its names, once at most. -/

namespace TypeLayout.Json

section

variable {α β γ σ τ : Type}

def valuesOf (name : String) (ms : List (String × γ)) : List γ :=
  ms.filterMap fun m => if m.1 = name then some m.2 else none

theorem valuesOf_cons_self {name key : String} (h : key = name) (v : γ)
    (ms : List (String × γ)) : valuesOf name ((key, v) :: ms) = v :: valuesOf name ms := by
  simp [valuesOf, h]

theorem valuesOf_cons_of_ne {name key : String} (h : key ≠ name) (v : γ)
    (ms : List (String × γ)) : valuesOf name ((key, v) :: ms) = valuesOf name ms := by
  simp [valuesOf, h]

theorem valuesOf_append (name : String) (ms ms' : List (String × γ)) :
    valuesOf name (ms ++ ms') = valuesOf name ms ++ valuesOf name ms' := List.filterMap_append

theorem mem_valuesOf {name : String} {ms : List (String × γ)} {v : γ} :
    v ∈ valuesOf name ms ↔ (name, v) ∈ ms := by
  simp only [valuesOf, List.mem_filterMap, Option.ite_none_right_eq_some, Option.some.injEq]
  constructor
  · rintro ⟨⟨key, w⟩, mem, rfl, rfl⟩
    exact mem
  · intro mem
    exact ⟨_, mem, rfl, rfl⟩

/-- What the values under one name give: nothing if there are none, and what the only one is read
as if there is one. -/
inductive Given (read : γ → Option β) : List γ → Option β → Prop
  | absent : Given read [] none
  | once {j : γ} {b : β} : read j = some b → Given read [j] (some b)

attribute [simp] Given.absent

@[simp] theorem Given.once_iff {read : γ → Option β} {j : γ} {b : β} :
    Given read [j] (some b) ↔ read j = some b :=
  ⟨fun | .once given => given, .once⟩

def slot (read : γ → Option β) (name : String) (s : Option β) (m : String × γ) :
    Option (Option β) :=
  if m.1 = name then (if s.isSome then none else (read m.2).map some) else some s

@[simp] theorem slot_of_ne (read : γ → Option β) {name key : String} (h : key ≠ name) (s : Option β)
    (j : γ) : slot read name s (key, j) = some s := if_neg h

theorem foldlM_slot_some (read : γ → Option β) (name : String) (ms : List (String × γ)) (b : β)
    (s : Option β) :
    ms.foldlM (slot read name) (some b) = some s ↔ valuesOf name ms = [] ∧ s = some b := by
  induction ms with
  | nil => simp [valuesOf, eq_comm]
  | cons m ms ih =>
    by_cases named : m.1 = name
    · simp [List.foldlM_cons, slot, named, valuesOf]
    · simpa [List.foldlM_cons, slot, named, valuesOf] using ih

theorem foldlM_slot (read : γ → Option β) (name : String) (ms : List (String × γ))
    (s : Option β) :
    ms.foldlM (slot read name) none = some s ↔ Given read (valuesOf name ms) s := by
  induction ms with
  | nil =>
    constructor
    · rintro ⟨⟩
      exact .absent
    · rintro ⟨⟩
      rfl
  | cons m ms ih =>
    by_cases named : m.1 = name
    · rw [List.foldlM_cons, valuesOf_cons_self named]
      simp only [slot, named, reduceIte, Option.isSome_none, Bool.false_eq_true,
        Option.bind_eq_bind, Option.bind_eq_some_iff, Option.map_eq_some_iff]
      constructor
      · rintro ⟨_, ⟨b, given, rfl⟩, rest⟩
        obtain ⟨none_left, rfl⟩ := (foldlM_slot_some read name ms b s).mp rest
        rw [none_left]
        exact .once given
      · intro given
        generalize rest : valuesOf name ms = vs at given
        cases given with
        | once given => exact ⟨_, ⟨_, given, rfl⟩, (foldlM_slot_some ..).mpr ⟨rest, rfl⟩⟩
    · simpa [List.foldlM_cons, slot, named, valuesOf] using ih

/-- How the values under a name may change: in their order, in one of them, or by one that is
given where nothing has to be. -/
inductive Change (same : γ → γ → Prop) (default : Option γ) : List γ → List γ → Prop
  | permuted {vs vs' : List γ} : vs.Perm vs' → Change same default vs vs'
  | altered {v v' : γ} {vs ws : List γ} :
    same v v' → Change same default (vs ++ v :: ws) (vs ++ v' :: ws)
  | dropped {d : γ} {vs : List γ} : default = some d → Change same default (d :: vs) vs
  | added {d : γ} : default = some d → Change same default [] [d]

theorem Given.imp {read read' : γ → Option β} {vs : List γ} {s : Option β}
    (h : ∀ v ∈ vs, ∀ b, read v = some b → read' v = some b) (given : Given read vs s) :
    Given read' vs s := by
  cases given with
  | absent => exact .absent
  | once given => exact .once (h _ (by simp) _ given)

section

variable {read read' : γ → Option β} {same : γ → γ → Prop} {vs vs' : List γ} {s : Option β}
  (stay : ∀ v ∈ vs, ∀ b, read v = some b → read' v = some b)
  (keep : ∀ v v', same v v' → ∀ b, read v = some b → read' v' = some b)
include stay keep

theorem Given.change (given : Given read vs s) (change : Change same none vs vs') :
    Given read' vs' s := by
  cases change with
  | permuted perm =>
    cases given with
    | absent =>
      rw [← perm.nil_eq]
      exact .absent
    | once given =>
      rw [← perm.singleton_eq]
      exact .once (stay _ (by simp) _ given)
  | @altered v v' vs ws same =>
    generalize only : vs ++ v :: ws = us at given
    cases given with
    | absent => simp at only
    | once given =>
      cases vs with
      | nil =>
        cases only
        exact .once (keep _ _ same _ given)
      | cons u vs => simp at only
  | dropped default => cases default
  | added default => cases default

theorem Given.change_default {d : γ} {b : β} (default : read d = some b)
    (default' : read' d = some b) (given : Given read vs s) (change : Change same (some d) vs vs') :
    ∃ s', Given read' vs' s' ∧ s'.getD b = s.getD b := by
  cases change with
  | permuted perm => exact ⟨s, given.change stay keep (.permuted perm), rfl⟩
  | altered same => exact ⟨s, given.change stay keep (.altered same), rfl⟩
  | dropped eq =>
    cases eq
    cases given with
    | once given =>
      rw [default] at given
      cases given
      exact ⟨none, .absent, rfl⟩
  | added eq =>
    cases eq
    cases given with
    | absent => exact ⟨some b, .once default', rfl⟩

end

def both (f : α → γ → Option α) (g : β → γ → Option β) (s : α × β) (m : γ) : Option (α × β) :=
  (f s.1 m).bind fun a => (g s.2 m).map (a, ·)

theorem foldlM_both {f : α → γ → Option α} {g : β → γ → Option β} (ms : List γ) (s s' : α × β) :
    ms.foldlM (both f g) s = some s' ↔
      ms.foldlM f s.1 = some s'.1 ∧ ms.foldlM g s.2 = some s'.2 := by
  induction ms generalizing s with
  | nil => simp [Prod.ext_iff]
  | cons m ms ih =>
    simp only [List.foldlM_cons, both, Option.bind_eq_bind, Option.bind_eq_some_iff,
      Option.map_eq_some_iff]
    constructor
    · rintro ⟨_, ⟨a, fst, b, snd, rfl⟩, rest⟩
      obtain ⟨fsts, snds⟩ := (ih _).mp rest
      exact ⟨⟨a, fst, fsts⟩, b, snd, snds⟩
    · rintro ⟨⟨a, fst, fsts⟩, b, snd, snds⟩
      exact ⟨(a, b), ⟨a, fst, b, snd, rfl⟩, (ih _).mpr ⟨fsts, snds⟩⟩

@[simp] theorem both_slot_of_ne (read : γ → Option β) {name key : String} (h : key ≠ name)
    (g : τ → String × γ → Option τ) (b : Option β) (t : τ) (j : γ) :
    both (slot read name) g (b, t) (key, j) = (g t (key, j)).map (b, ·) := by
  simp [both, slot_of_ne read h]

@[simp] theorem both_slot_self (read : γ → Option β) {name : String}
    {g : τ → String × γ → Option τ} {t : τ} {j : γ} (rest : g t (name, j) = some t)
    (b : Option β) :
    both (slot read name) g (b, t) (name, j) = (slot read name b (name, j)).map (·, t) := by
  simp only [both, rest, Option.map_some]
  exact Option.map_eq_bind.symm

theorem foldlM_parts {f : σ → γ → Option σ} {g : τ → γ → Option τ} (parts : σ → τ)
    (inj : ∀ s s', parts s = parts s' → s = s')
    (step : ∀ s m, g (parts s) m = (f s m).map parts) (ms : List γ) (s s' : σ) :
    ms.foldlM f s = some s' ↔ ms.foldlM g (parts s) = some (parts s') := by
  have run : ms.foldlM g (parts s) = (ms.foldlM f s).map parts := by
    induction ms generalizing s with
    | nil => rfl
    | cons m ms ih =>
      rw [List.foldlM_cons, List.foldlM_cons, step]
      cases f s m with
      | none => rfl
      | some s' => exact ih s'
  rw [run, Option.map_eq_some_iff]
  constructor
  · intro h
    exact ⟨s', h, rfl⟩
  · rintro ⟨s'', h, same⟩
    rw [h, inj _ _ same]

end

namespace Shape

variable {σ α β : Type}

def read? (shape : Shape β) (j : Json) : Option β := (shape j).toOption

theorem list_read? (shape : Shape β) (js : List Json) :
    (list shape).read? (.array js) = js.mapM shape.read? := toOption_mapM shape js

@[simp] theorem fill_toOption (shape : Shape β) (name : String) (s : Option β) (j : Json) :
    (fill name s (shape j)).toOption = slot shape.read? name s (name, j) := by
  cases s with
  | some b => simp [slot, fill, Except.toOption]
  | none =>
    simp only [slot, fill, read?, reduceIte, Option.isSome_none, Bool.false_eq_true]
    cases shape j <;> rfl

@[simp] theorem toOption_put (shape : Shape β) (name : String) (b : Option β) (j : Json)
    (put : Option β → σ) :
    (fill name b (shape j) >>= fun b => (pure (put b) : Except Mismatch σ)).toOption =
      (slot shape.read? name b (name, j)).map put := by
  rw [toOption_bind, fill_toOption]
  cases slot shape.read? name b (name, j) <;> rfl

def Fields.add (f : Fields σ α) (s : σ) (m : String × Json) : Option σ :=
  (f.step m.1 m.2 s).toOption

theorem Fields.foldlM_add {τ : Type} {f : Fields σ α} {g : τ → String × Json → Option τ}
    (parts : σ → τ) (inj : ∀ s s', parts s = parts s' → s = s')
    (step : ∀ s key j, g (parts s) (key, j) = (f.step key j s).toOption.map parts)
    (ms : List (String × Json)) (s s' : σ) :
    ms.foldlM f.add s = some s' ↔ ms.foldlM g (parts s) = some (parts s') :=
  foldlM_parts parts inj (fun s m => step s m.1 m.2) ms s s'

theorem Fields.given_both {β' : Type} {f : Fields σ α} {shape : Shape β} {shape' : Shape β'}
    {name name' : String} (parts : σ → Option β × Option β')
    (inj : ∀ s s', parts s = parts s' → s = s') (start : parts f.start = (none, none))
    (step : ∀ s key j, both (slot shape.read? name) (slot shape'.read? name') (parts s) (key, j) =
      (f.step key j s).toOption.map parts) {ms : List (String × Json)} {s : σ} :
    ms.foldlM f.add f.start = some s ↔
      Given shape.read? (valuesOf name ms) (parts s).1 ∧
      Given shape'.read? (valuesOf name' ms) (parts s).2 := by
  rw [Fields.foldlM_add parts inj step, start, foldlM_both, foldlM_slot, foldlM_slot]

theorem members_toOption (step : String → Json → σ → Except Mismatch σ)
    (ms : List (String × Json)) (s : σ) :
    (members step ms s).toOption = ms.foldlM (fun s m => (step m.1 m.2 s).toOption) s := by
  induction ms generalizing s with
  | nil => rfl
  | cons m ms ih =>
    rw [members, List.foldlM_cons, toOption_bind, List.foldlM_cons]
    exact congrArg _ (funext ih)

theorem Fields.ofMembers_eq_ok {f : Fields σ α} {ms : List (String × Json)} {a : α} :
    f.ofMembers ms = .ok a ↔ ∃ s, ms.foldlM f.add f.start = some s ∧ f.finish s = .ok a := by
  rw [← toOption_eq_some, ofMembers, toOption_bind, members_toOption, Option.bind_eq_some_iff]
  simp only [toOption_eq_some]
  rfl

theorem Fields.ofItems_eq_ok {f : Fields σ α} {items : List Json} {a : α} :
    f.ofItems items = .ok a ↔
      f.needed ≤ items.length ∧ items.length ≤ f.names.length ∧
        f.ofMembers (f.names.zip items) = .ok a := by
  have positioned : positions f.names f.step items f.start =
      members f.step (f.names.zip items) f.start := rfl
  rw [ofItems, ofMembers, positioned]
  cases members f.step (f.names.zip items) f.start with
  | error reason => simp [bind, Except.bind]
  | ok s =>
    by_cases short : items.length < f.needed
    · simp [bind, Except.bind, short, Nat.not_le.mpr short]
    · cases h : f.finish s with
      | error reason => simp [bind, Except.bind, short, h]
      | ok b =>
        by_cases long : f.names.length < items.length
        · simp [bind, Except.bind, short, h, noMore, long, Nat.not_le.mpr long]
        · simp [bind, Except.bind, short, h, noMore, long, Nat.not_lt.mp short, Nat.not_lt.mp long,
            pure, Except.pure]

theorem Fields.read_eq_ok {f : Fields σ α} {j : Json} {a : α} :
    f.read j = .ok a ↔
      (∃ ms, j = .object ms ∧ f.ofMembers ms = .ok a) ∨
      ∃ items, j = .array items ∧ f.needed ≤ items.length ∧ items.length ≤ f.names.length ∧
        f.ofMembers (f.names.zip items) = .ok a := by
  cases j <;> simp [read, ofItems_eq_ok]

end Shape

end TypeLayout.Json
