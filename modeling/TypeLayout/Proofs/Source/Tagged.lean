import TypeLayout.Proofs.Json.Values
import TypeLayout.Proofs.Source.Places
/-! Values with a kind. The kind may stand anywhere among the members; what is left is read as the
record it names. A value that can be read at all can be read to its own depth. -/

namespace TypeLayout

namespace Json

theorem depth_lt_of_mem {j : Json} {js : List Json} (h : j ∈ js) :
    j.depth < (Json.array js).depth := by
  rw [depth]
  exact Nat.lt_succ_of_le (le_total_of_mem depth itemsDepth (fun _ _ => by rw [itemsDepth]) h)

theorem depth_lt_of_member {m : String × Json} {ms : List (String × Json)} (h : m ∈ ms) :
    m.2.depth < (Json.object ms).depth := by
  rw [depth]
  exact Nat.lt_succ_of_le
    (le_total_of_mem (fun m => m.2.depth) membersDepth (fun _ _ => by rw [membersDepth]) h)

theorem depth_filter_le (p : String × Json → Bool) (ms : List (String × Json)) :
    (Json.object (ms.filter p)).depth ≤ (Json.object ms).depth := by
  rw [depth, depth, Nat.succ_le_succ_iff]
  induction ms with
  | nil => simp
  | cons m ms ih =>
    rw [membersDepth, List.filter_cons]
    split
    · rw [membersDepth]
      omega
    · omega

end Json

namespace Source

open Json (Shape Given valuesOf slot both foldlM_parts foldlM_both foldlM_slot mem_valuesOf)
open Json.Shape (Fields)

variable {τ : Type}

def withoutKind (ms : List (String × Json)) : List (String × Json) := ms.filter (·.1 ≠ "kind")

theorem valuesOf_withoutKind {name : String} (h : name ≠ "kind") (ms : List (String × Json)) :
    valuesOf name (withoutKind ms) = valuesOf name ms := by
  rw [valuesOf, valuesOf, withoutKind, List.filterMap_filter]
  congr 1
  funext m
  by_cases named : m.1 = name <;> simp [named, h]

def keepMember (kept : List (String × Json)) (m : String × Json) : Option (List (String × Json)) :=
  if m.1 = "kind" then some kept else some (m :: kept)

theorem foldlM_keepMember (ms kept : List (String × Json)) :
    ms.foldlM keepMember kept = some ((withoutKind ms).reverse ++ kept) := by
  induction ms generalizing kept with
  | nil => rfl
  | cons m ms ih =>
    rw [List.foldlM_cons, keepMember]
    by_cases kind : m.1 = "kind" <;> simp [kind, ih, withoutKind]

theorem taggedShape_object (expected : String) (table : List (String × τ))
    (ms : List (String × Json)) {kind : τ} {rest : Json} :
    taggedShape expected table (.object ms) = .ok (kind, rest) ↔
      Given (kindOf table).read? (valuesOf "kind" ms) (some kind) ∧
        rest = .object (withoutKind ms) := by
  have folded (t : Tagged τ) :
      ms.foldlM (fun t m => (Tagged.add table m.1 m.2 t).toOption) {} = some t ↔
        Given (kindOf table).read? (valuesOf "kind" ms) t.kind ∧
          (withoutKind ms).reverse = t.members := by
    rw [foldlM_parts (g := both (slot (kindOf table).read? "kind") keepMember)
      (fun t => (t.kind, t.members)) (by rintro ⟨⟩ ⟨⟩ ⟨⟩; rfl)]
    · simp only [foldlM_both, foldlM_slot, foldlM_keepMember, List.append_nil, Option.some.injEq]
    · rintro t ⟨key, j⟩
      by_cases isKind : key = "kind"
      · subst isKind
        simp [both, keepMember, Tagged.add, Option.map_eq_bind, Option.bind_assoc]
      · simp [both, keepMember, Tagged.add, isKind, Except.toOption]
  rw [← toOption_eq_some, taggedShape, toOption_bind, Json.Shape.members_toOption,
    Option.bind_eq_some_iff]
  simp only [folded]
  constructor
  · rintro ⟨⟨k, members⟩, ⟨given, rfl⟩, finished⟩
    cases k with
    | none => cases finished
    | some k =>
      cases finished
      exact ⟨given, by rw [List.reverse_reverse]⟩
  · rintro ⟨given, rfl⟩
    refine ⟨⟨some kind, (withoutKind ms).reverse⟩, ⟨given, rfl⟩, ?_⟩
    simp [Tagged.finish, Shape.required]

theorem taggedShape_array (expected : String) (table : List (String × τ)) (k : Json)
    (js : List Json) {kind : τ} {rest : Json} :
    taggedShape expected table (.array (k :: js)) = .ok (kind, rest) ↔
      kindOf table k = .ok kind ∧ rest = .array js := by
  refine map_eq_ok.trans ?_
  constructor
  · rintro ⟨_, ofKind, ⟨⟩⟩
    exact ⟨ofKind, rfl⟩
  · rintro ⟨ofKind, rfl⟩
    exact ⟨kind, ofKind, rfl⟩

section

variable {n : Nat} {ms : List (String × Json)} {k : Json} {js : List Json}

theorem declarationWithin_object {d : Declaration} :
    declarationWithin (n + 1) (.object ms) = .ok d ↔
      ∃ kind, Given (kindOf declarationKinds).read? (valuesOf "kind" ms) (some kind) ∧
        declarationOf (declaratorWithin n) (declarationWithin n) kind (.object (withoutKind ms)) =
          .ok d := by
  refine bind_eq_ok.trans ?_
  simp [Prod.exists, taggedShape_object, and_assoc]

theorem declaratorWithin_object {d : Declarator} :
    declaratorWithin (n + 1) (.object ms) = .ok d ↔
      ∃ kind, Given (kindOf declaratorKinds).read? (valuesOf "kind" ms) (some kind) ∧
        declaratorOf (declaratorWithin n) (declarationWithin n) kind (.object (withoutKind ms)) =
          .ok d := by
  refine bind_eq_ok.trans ?_
  simp [Prod.exists, taggedShape_object, and_assoc]

theorem declarationWithin_array {d : Declaration} :
    declarationWithin (n + 1) (.array (k :: js)) = .ok d ↔
      ∃ kind, kindOf declarationKinds k = .ok kind ∧
        declarationOf (declaratorWithin n) (declarationWithin n) kind (.array js) = .ok d := by
  refine bind_eq_ok.trans ?_
  simp [Prod.exists, taggedShape_array, and_assoc]

theorem declaratorWithin_array {d : Declarator} :
    declaratorWithin (n + 1) (.array (k :: js)) = .ok d ↔
      ∃ kind, kindOf declaratorKinds k = .ok kind ∧
        declaratorOf (declaratorWithin n) (declarationWithin n) kind (.array js) = .ok d := by
  refine bind_eq_ok.trans ?_
  simp [Prod.exists, taggedShape_array, and_assoc]

end

theorem declarationOf_imp {n m : Nat} {kind : DeclarationKind} {rest rest' : Json}
    (h : ∀ a, (kind.role.fields n).read rest = .ok a → (kind.role.fields m).read rest' = .ok a)
    {d : Declaration}
    (read : declarationOf (declaratorWithin n) (declarationWithin n) kind rest = .ok d) :
    declarationOf (declaratorWithin m) (declarationWithin m) kind rest' = .ok d := by
  cases kind with
  | record | enum =>
    obtain ⟨a, made, rfl⟩ := map_eq_ok.mp read
    exact map_eq_ok.mpr ⟨a, h a made, rfl⟩
  | forward | typedef => exact h d read

theorem declaratorOf_imp {n m : Nat} {kind : DeclaratorKind} {rest rest' : Json}
    (h : ∀ a, (kind.role.fields n).read rest = .ok a → (kind.role.fields m).read rest' = .ok a)
    {d : Declarator}
    (read : declaratorOf (declaratorWithin n) (declarationWithin n) kind rest = .ok d) :
    declaratorOf (declaratorWithin m) (declarationWithin m) kind rest' = .ok d := by
  cases kind with
  | array => exact h d read
  | _ =>
    obtain ⟨a, made, rfl⟩ := map_eq_ok.mp read
    exact map_eq_ok.mpr ⟨a, h a made, rfl⟩

theorem Role.read_deepen {r : Role} {n m : Nat} {j : Json} {a : r.Made}
    (deepen : ∀ (p : Place) (v : Json) (a : p.Content), v.depth < j.depth →
      p.shape n v = .ok a → p.shape m v = .ok a)
    (h : (r.fields n).read j = .ok a) : (r.fields m).read j = .ok a := by
  have alike (vs : List (String × Json)) (inside : ∀ m ∈ vs, m.2.depth < j.depth) :
      r.Alike n m vs vs :=
    ⟨fun name p _ v mem a => deepen p v a (inside _ (mem_valuesOf.mp mem)),
      fun _ _ => .permuted (.refl _)⟩
  rcases Fields.read_eq_ok.mp h with ⟨ms, rfl, made⟩ | ⟨items, rfl, needed, few, made⟩
  · refine Fields.read_eq_ok.mpr (.inl ⟨ms, rfl, r.ofMembers_alike (alike ms ?_) made⟩)
    exact fun m mem => Json.depth_lt_of_member mem
  · rw [names_eq] at few made
    refine Fields.read_eq_ok.mpr (.inr ⟨items, rfl, needed_eq n m r ▸ needed, ?_, ?_⟩)
    · rwa [names_eq]
    · rw [names_eq]
      have deep (m) (mem : m ∈ r.names.zip items) : m.2.depth < (Json.array items).depth :=
        Json.depth_lt_of_mem (List.of_mem_zip mem).2
      exact r.ofMembers_alike (alike _ deep) made

theorem taggedShape_depth {expected : String} {table : List (String × τ)} {j rest : Json} {kind : τ}
    (h : taggedShape expected table j = .ok (kind, rest)) : rest.depth ≤ j.depth ∧ 0 < j.depth := by
  cases j with
  | object ms =>
    obtain ⟨-, rfl⟩ := (taggedShape_object ..).mp h
    exact ⟨Json.depth_filter_le _ ms, Nat.succ_pos _⟩
  | array js =>
    cases js with
    | nil => cases h
    | cons k js =>
      obtain ⟨_, -, eq⟩ := map_eq_ok.mp h
      cases eq
      simp only [Json.depth, Json.itemsDepth]
      omega
  | _ => cases h

theorem shape_deepen (p : Place) {n m : Nat} {j : Json} {a : p.Content} (deep : j.depth ≤ m)
    (h : p.shape n j = .ok a) : p.shape m j = .ok a := by
  -- taking the kind out makes the rest no deeper, so its fields lie strictly below the value
  induction size : j.depth using Nat.strongRecOn generalizing p n m j with
  | _ d ih =>
    subst size
    cases p with
    | declaration =>
      obtain ⟨n, rfl⟩ : ∃ n', n = n' + 1 := by
        cases n with
        | zero => cases h
        | succ n => exact ⟨n, rfl⟩
      obtain ⟨⟨kind, rest⟩, tagged, read⟩ := bind_eq_ok.mp h
      obtain ⟨shallower, nested⟩ := taggedShape_depth tagged
      obtain ⟨m, rfl⟩ : ∃ m', m = m' + 1 := ⟨m - 1, by omega⟩
      refine bind_eq_ok.mpr ⟨_, tagged, declarationOf_imp (fun a => ?_) read⟩
      exact Role.read_deepen fun p v a inside read => ih _ (by omega) p (by omega) read rfl
    | declarator =>
      obtain ⟨n, rfl⟩ : ∃ n', n = n' + 1 := by
        cases n with
        | zero => cases h
        | succ n => exact ⟨n, rfl⟩
      obtain ⟨⟨kind, rest⟩, tagged, read⟩ := bind_eq_ok.mp h
      obtain ⟨shallower, nested⟩ := taggedShape_depth tagged
      obtain ⟨m, rfl⟩ : ∃ m', m = m' + 1 := ⟨m - 1, by omega⟩
      refine bind_eq_ok.mpr ⟨_, tagged, declaratorOf_imp (fun a => ?_) read⟩
      exact Role.read_deepen fun p v a inside read => ih _ (by omega) p (by omega) read rfl
    | member =>
      exact Role.read_deepen (r := .member) (fun p v a inside h => ih _ inside p (by omega) h rfl) h
    | base => exact h
    | list p =>
      cases j with
      | array js =>
        rw [← toOption_eq_some] at h ⊢
        change (Shape.list (p.shape n)).read? (.array js) = some a at h
        change (Shape.list (p.shape m)).read? (.array js) = some a
        rw [Json.Shape.list_read?] at h ⊢
        refine mapM_imp (fun v mem b read => toOption_eq_some.mpr ?_) h
        have inside := Json.depth_lt_of_mem mem
        exact ih _ inside p (by omega) (toOption_eq_some.mp read) rfl
      | _ => cases h

end Source

end TypeLayout
