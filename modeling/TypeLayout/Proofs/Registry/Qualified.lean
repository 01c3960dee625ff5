import TypeLayout.Proofs.Registry.Catalogue
import TypeLayout.Registry.Lookup
/-! Qualified names and look-up. A qualified name leads back to its tag, unless a typedef has the
name of an aggregate around the tag: only the last part of a path is looked for among the tags
alone, and there is nothing inside a typedef. -/

namespace TypeLayout

namespace Registry

variable {r : Registry} {s : ScopeId} {id o : TypeId} {e : Entry} {name n : String}
  {ps : List String}

theorem findWithin_concat (id : TypeId) (ps : List String) (n : String) :
    r.findWithin id (ps ++ [n]) = r.findWithin id ps >>= r.body? >>= (r.bound? · n) := by
  induction ps generalizing id with
  | nil =>
    simp only [List.nil_append, findWithin]
    cases h : r.body? id >>= (r.bound? · n) <;> simpa using h.symm
  | cons p ps ih =>
    simp only [List.cons_append, findWithin]
    cases r.body? id >>= (r.bound? · p) with
    | none => rfl
    | some inner => exact ih inner

theorem findPath?_concat (h : ps ≠ []) (s : ScopeId) (anchored : Bool) (n : String) :
    r.findPath? s ⟨anchored, ps ++ [n]⟩ =
      r.findPath? s ⟨anchored, ps⟩ >>= r.body? >>= (r.bound? · n) := by
  cases ps with
  | nil => exact absurd rfl h
  | cons p ps =>
    simp only [List.cons_append, findPath?]
    split
    · rfl
    · cases (r.startScopes s anchored).findSome? (r.bound? · p) with
      | none => rfl
      | some id => exact findWithin_concat id ps n

theorem findPath?_anchored (h : n.isEmpty = false) (s : ScopeId) :
    r.findPath? s ⟨true, [n]⟩ = r.bound? .global n := by
  simp [findPath?, startScopes, findWithin, h]

/-- A typedef has the name of the entry, in the scope of the entry. -/
def Masked (r : Registry) (id : TypeId) : Prop :=
  ∃ e, r.entry? id = some e ∧ (r.boundTypedef? e.scope e.name).isSome = true

inductive MaskedFrom (r : Registry) : TypeId → Prop
  | here {id : TypeId} : r.Masked id → MaskedFrom r id
  | around {id o : TypeId} : r.owner? id = some o → MaskedFrom r o → MaskedFrom r id

def MaskedAround (r : Registry) (id : TypeId) : Prop :=
  ∃ o, r.owner? id = some o ∧ r.MaskedFrom o

theorem maskedFrom_iff : r.MaskedFrom id ↔ r.Masked id ∨ r.MaskedAround id := by
  constructor
  · rintro (h | ⟨ho, h⟩)
    · exact Or.inl h
    · exact Or.inr ⟨_, ho, h⟩
  · rintro (h | ⟨o, ho, h⟩)
    · exact .here h
    · exact .around ho h

theorem masked_iff (he : r.entry? id = some e) :
    r.Masked id ↔ (r.boundTypedef? e.scope e.name).isSome = true := by
  simp [Masked, he]

theorem bound?_eq (s : ScopeId) (n : String) :
    r.bound? s n = (r.boundTypedef? s n <|> r.boundTag? s n) := by
  unfold bound? boundTypedef? boundTag?
  cases r.scope? s <;> rfl

theorem Arranged.bound?_of_not_masked (hr : r.Arranged) (he : r.entry? id = some e)
    (htag : e.tag?.isSome = true) (h : ¬ r.Masked id) : r.bound? e.scope e.name = some id := by
  rw [masked_iff he, Option.not_isSome_iff_eq_none] at h
  rw [bound?_eq, h, hr.bound_of_entry he htag]
  rfl

theorem Arranged.body?_of_masked (hr : r.Arranged) (he : r.entry? id = some e) (h : r.Masked id) :
    r.bound? e.scope e.name >>= r.body? = none := by
  obtain ⟨t, ht⟩ := Option.isSome_iff_exists.mp ((masked_iff he).mp h)
  have hnamed : r.named? e.scope .typedefs e.name = some t := ht
  obtain ⟨et, het, -, hspace, -⟩ := hr.named_iff.mp hnamed
  have htag : et.tag? = none := by
    by_contra htag
    have hsome : et.state.tag?.isSome = true := Option.isSome_iff_ne_none.mpr htag
    rw [Entry.space, EntryState.space, if_pos hsome] at hspace
    cases hspace
  have hbody : et.body = none := by
    rw [← Option.not_isSome_iff_eq_none, hr.isSome_body het]
    change ¬ (et.tag?.any _ = true)
    rw [htag]
    exact Bool.false_ne_true
  rw [bound?_eq, ht]
  change r.body? t = none
  rw [body?, het]
  exact hbody

theorem Arranged.route_ne_nil (hr : r.Arranged) (he : r.entry? id = some e) :
    (r.route id).reverse ≠ [] := by
  rw [hr.route_eq he]
  simp

theorem Arranged.route_cases (hr : r.Arranged) (he : r.entry? id = some e) :
    (e.scope = .global ∧ r.owner? id = none ∧ (r.route id).reverse = [e.name]) ∨
    ∃ o eo, r.owner? id = some o ∧ o.index < id.index ∧ r.entry? o = some eo ∧
      eo.tag?.isSome = true ∧ r.body? o = some e.scope ∧
      (r.route id).reverse = (r.route o).reverse ++ [e.name] := by
  have hroute := hr.route_eq he
  apply (hr.toLinked.place_of_entry hr.toTreelike he).imp
  · rintro ⟨hglobal, ho⟩
    rw [ho] at hroute
    exact ⟨hglobal, ho, by rw [hroute]; rfl⟩
  · rintro ⟨o, eo, ho, hlt, heo, htag, hbody⟩
    rw [ho] at hroute
    exact ⟨o, eo, ho, hlt, heo, htag, hbody, by rw [hroute, List.reverse_cons]⟩

theorem Arranged.findPath?_route (hr : r.Arranged) (hnames : r.IdentifierNamed)
    (he : r.entry? id = some e) (htag : e.tag?.isSome = true) :
    (¬ r.MaskedFrom id → r.findPath? s ⟨true, (r.route id).reverse⟩ = some id) ∧
    (r.MaskedFrom id → r.findPath? s ⟨true, (r.route id).reverse⟩ >>= r.body? = none) := by
  suffices h : ∀ k id e, id.index < k → r.entry? id = some e → e.tag?.isSome = true →
      (¬ r.MaskedFrom id → r.findPath? s ⟨true, (r.route id).reverse⟩ = some id) ∧
      (r.MaskedFrom id → r.findPath? s ⟨true, (r.route id).reverse⟩ >>= r.body? = none) from
    h _ id e (Nat.lt_succ_self _) he htag
  intro k
  induction k with
  | zero => exact fun id e hid => absurd hid (Nat.not_lt_zero _)
  | succ k ih =>
    intro id e hid he htag
    rw [maskedFrom_iff]
    rcases hr.route_cases he with
      ⟨hglobal, ho, hroute⟩ | ⟨o, eo, ho, holt, heo, htago, hbody, hroute⟩
    · have haround : ¬ r.MaskedAround id := by
        rintro ⟨o, ho', -⟩
        rw [ho] at ho'
        cases ho'
      have hempty : e.name.isEmpty = false := by
        have hne := (hnames id e he).1
        rw [Bool.eq_false_iff, ne_eq, String.isEmpty_iff]
        rintro hnil
        rw [hnil] at hne
        exact hne rfl
      rw [hroute, findPath?_anchored hempty, ← hglobal]
      constructor
      · exact fun h => hr.bound?_of_not_masked he htag fun hm => h (Or.inl hm)
      · rintro (h | h)
        · exact hr.body?_of_masked he h
        · exact absurd h haround
    · obtain ⟨hclear, hmasked⟩ := ih o eo (by omega) heo htago
      rw [hroute, findPath?_concat (hr.route_ne_nil heo)]
      by_cases hm : r.MaskedFrom o
      · rw [hmasked hm]
        exact ⟨fun h => absurd (Or.inr ⟨o, ho, hm⟩) h, fun _ => rfl⟩
      · rw [hclear hm]
        simp only [Option.bind_eq_bind, Option.bind_some, hbody]
        constructor
        · exact fun h => hr.bound?_of_not_masked he htag fun hm => h (Or.inl hm)
        · rintro (h | ⟨o', ho', h⟩)
          · exact hr.body?_of_masked he h
          · rw [ho] at ho'
            cases ho'
            exact absurd h hm

theorem anchored_qualifiedName (r : Registry) (id : TypeId) :
    "::" ++ r.qualifiedName id = Path.text ⟨true, (r.route id).reverse⟩ := rfl

theorem findTagPath?_anchored (s : ScopeId) (n : String) :
    r.findTagPath? s ⟨true, [n]⟩ = r.boundTag? .global n := by
  simp [findTagPath?, startScopes]

theorem findTagPath?_concat (h : ps ≠ []) (hps : ∀ p ∈ ps, Text.IdentifierLike p) (s : ScopeId)
    (n : String) : r.findTagPath? s ⟨true, ps ++ [n]⟩ =
      r.findPath? s ⟨true, ps⟩ >>= r.body? >>= (r.boundTag? · n) := by
  simp only [findTagPath?, List.getLast?_concat, List.dropLast_concat]
  cases ps with
  | nil => exact absurd rfl h
  | cons p ps => rw [Path.ofString_text h hps]

theorem Arranged.findTagPath?_route (hr : r.Arranged) (hnames : r.IdentifierNamed)
    (he : r.entry? id = some e) (htag : e.tag?.isSome = true) :
    (¬ r.MaskedAround id → r.findTagPath? s ⟨true, (r.route id).reverse⟩ = some id) ∧
    (r.MaskedAround id → r.findTagPath? s ⟨true, (r.route id).reverse⟩ = none) := by
  have hbound := hr.bound_of_entry he htag
  rcases hr.route_cases he with ⟨hglobal, ho, hroute⟩ | ⟨o, eo, ho, -, heo, htago, hbody, hroute⟩
  · rw [hroute, findTagPath?_anchored, ← hglobal]
    refine ⟨fun _ => hbound, ?_⟩
    rintro ⟨o, ho', -⟩
    rw [ho] at ho'
    cases ho'
  · obtain ⟨hclear, hmasked⟩ := hr.findPath?_route (s := s) hnames heo htago
    have hparts : ∀ n ∈ (r.route o).reverse, Text.IdentifierLike n :=
      fun n hn => hnames.route (List.mem_reverse.mp hn)
    rw [hroute, findTagPath?_concat (hr.route_ne_nil heo) hparts]
    constructor
    · intro h
      rw [hclear fun hm => h ⟨o, ho, hm⟩]
      simpa only [Option.bind_eq_bind, Option.bind_some, hbody] using hbound
    · rintro ⟨o', ho', hm⟩
      rw [ho] at ho'
      cases ho'
      rw [hmasked hm]
      rfl

/-- The qualified name of a tag, read from global scope, finds the tag, whatever typedef shares its
own name; a typedef that shares the name of an aggregate around it hides the tag. -/
theorem Reached.findTag_qualifiedName (h : r.Reached) (hnames : r.IdentifierNamed)
    (htag : (r.tagOf? id).isSome = true) :
    (¬ r.MaskedAround id → r.findTag .global ("::" ++ r.qualifiedName id) = .ok id) ∧
    (r.MaskedAround id → r.findTag .global ("::" ++ r.qualifiedName id) =
      .error (.unknownType ("::" ++ r.qualifiedName id))) := by
  obtain ⟨tag, htag⟩ := Option.isSome_iff_exists.mp htag
  obtain ⟨e, he, hte⟩ := Option.bind_eq_some_iff.mp htag
  have hparts : ∀ n ∈ (r.route id).reverse, Text.IdentifierLike n :=
    fun n hn => hnames.route (List.mem_reverse.mp hn)
  have hpath := Path.ofString_text (h.arranged.route_ne_nil he) hparts
  have hunknown : unknown (Path.text ⟨true, (r.route id).reverse⟩) =
      .unknownType (Path.text ⟨true, (r.route id).reverse⟩) :=
    congrArg LayoutError.unknownType (Text.trim_eq fun c => Path.not_blank_text hparts)
  obtain ⟨hclear, hmasked⟩ :=
    h.arranged.findTagPath?_route (s := .global) hnames he (Option.isSome_of_eq_some hte)
  rw [anchored_qualifiedName, findTag, hpath]
  constructor
  · intro hm
    rw [hclear hm]
  · intro hm
    rw [hmasked hm, hunknown]

def innerSteps : List Step :=
  [.define .global "Node" (.aggregate ⟨.structType, some "Node", [], [], []⟩),
    .define ⟨1⟩ "Inner" (.aggregate ⟨.structType, some "Inner", [], [], []⟩),
    .define ⟨1⟩ "Inner" (.typedef (.named ⟨1⟩))]

def innerRegistry : Registry := innerSteps.foldl (fun r step => (r.perform step).2) .empty

theorem innerRegistry_reached : innerRegistry.Reached :=
  .step _ (.step _ (.step _ .empty (by decide)) (by decide)) (by decide)

theorem innerRegistry_identifierNamed : innerRegistry.IdentifierNamed :=
  identifierNamed_of_entries (by decide)

theorem innerRegistry_not_masked : ¬ innerRegistry.MaskedAround ⟨1⟩ := by
  rintro ⟨o, ho, hm⟩
  have hnode : o = ⟨0⟩ := Option.some.inj (ho.symm.trans rfl)
  subst hnode
  rcases maskedFrom_iff.mp hm with h | ⟨o, ho, -⟩
  · exact absurd ((masked_iff rfl).mp h) (by decide)
  · cases ho

def maskedRegistry : Registry :=
  (innerRegistry.perform (.define .global "Node" (.typedef (.named ⟨0⟩)))).2

theorem maskedRegistry_reached : maskedRegistry.Reached :=
  .step _ innerRegistry_reached (by decide)

theorem maskedRegistry_identifierNamed : maskedRegistry.IdentifierNamed :=
  identifierNamed_of_entries (by decide)

theorem innerTag_found_and_masked :
    innerRegistry.findTag .global ("::" ++ innerRegistry.qualifiedName ⟨1⟩) = .ok ⟨1⟩ ∧
    maskedRegistry.findTag .global ("::" ++ maskedRegistry.qualifiedName ⟨1⟩) =
      .error (.unknownType ("::" ++ maskedRegistry.qualifiedName ⟨1⟩)) :=
  ⟨(innerRegistry_reached.findTag_qualifiedName innerRegistry_identifierNamed rfl).1
      innerRegistry_not_masked,
    (maskedRegistry_reached.findTag_qualifiedName maskedRegistry_identifierNamed rfl).2
      ⟨⟨0⟩, rfl, .here ⟨_, rfl, rfl⟩⟩⟩

/-- So not every tag is found by its qualified name. -/
theorem qualifiedName_not_found : ¬ ∀ (r : Registry) (id : TypeId), r.Reached → r.IdentifierNamed →
    (r.tagOf? id).isSome = true → r.findTag .global ("::" ++ r.qualifiedName id) = .ok id := by
  intro h
  have hfound := h maskedRegistry ⟨1⟩ maskedRegistry_reached maskedRegistry_identifierNamed rfl
  have hlost : maskedRegistry.findTag .global ("::" ++ maskedRegistry.qualifiedName ⟨1⟩) =
      .error (.unknownType "::Node::Inner") := rfl
  rw [hlost] at hfound
  cases hfound

end Registry

end TypeLayout
