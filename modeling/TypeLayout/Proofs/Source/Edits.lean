import TypeLayout.Proofs.Json.Values
import TypeLayout.Proofs.Source.Tagged
/-! Edits of a value that leave what is read from it as it is: other orders of members, members
that are not asked for, and fields that hold what they stand for when they are not given. They may
be made wherever a record of the format stands, however deep. -/

namespace TypeLayout.Source

open Json.Tree (member?_eq_some mapM_member?_cons)
open Json (Tree Literal Shape Given Change valuesOf valuesOf_cons_self valuesOf_cons_of_ne
  valuesOf_append)
open Json.Shape (Fields)

namespace Place

def kinds {γ : Type} (p : Place) (ms : List (String × γ)) : List γ :=
  match p with
  | declaration | declarator => valuesOf "kind" ms
  | _ => []

def kindsIn (p : Place) : Json → List Json
  | .object ms => p.kinds ms
  | .array js =>
    match p with
    | declaration | declarator => js.take 1
    | _ => []
  | _ => []

inductive Holds : Place → List Json → Role → Prop
  | member : Holds .member [] .member
  | base : Holds .base [] .base
  | declaration {j : Json} {kind : DeclarationKind} :
    kindOf declarationKinds j = .ok kind → Holds .declaration [j] kind.role
  | declarator {j : Json} {kind : DeclaratorKind} :
    kindOf declaratorKinds j = .ok kind → Holds .declarator [j] kind.role

def known (p : Place) (r : Role) : List String :=
  match p with
  | declaration | declarator => "kind" :: r.names
  | _ => r.names

end Place

namespace Role

theorem mem_names_of_place {r : Role} {name : String} {p : Place} (h : r.place name = some p) :
    name ∈ r.names := by
  unfold place at h
  split at h <;> first | decide | cases h

theorem mem_names_of_default {r : Role} {name : String} {d : Json} (h : r.default name = some d) :
    name ∈ r.names := by
  unfold default at h
  split at h <;> first | decide | cases h

theorem ne_kind_of_mem {r : Role} {name : String} (h : name ∈ r.names) : name ≠ "kind" := by
  rintro rfl
  revert h
  cases r <;> decide

end Role

def named (ms : List (Literal × Tree)) : List (String × Tree) :=
  ms.filterMap fun m => m.1.text?.map (·, m.2)

def Place.HasRole (p : Place) (kinds : List Tree) (r : Role) : Prop :=
  ∃ js, kinds.mapM Tree.value? = some js ∧ p.Holds js r

/-- One edit of a value at a place. As members may be brought into any order, all other edits of an
object are made at its first member. -/
inductive Edit : Place → Tree → Tree → Prop
  | permuted {p : Place} {ms ms' : List (Literal × Tree)} :
    ms.Perm ms' → Edit p (.object ms) (.object ms')
  | unknown {p : Place} {r : Role} {ms : List (Literal × Tree)} {k : Literal} {v : Tree}
      {name : String} :
    p.HasRole (p.kinds (named ms)) r → k.text? = some name → name ∉ p.known r →
      v.value?.isSome → Edit p (.object ms) (.object ((k, v) :: ms))
  | dropped {p : Place} {r : Role} {ms : List (Literal × Tree)} {k : Literal} {v : Tree}
      {name : String} {d : Json} :
    p.HasRole (p.kinds (named ms)) r → k.text? = some name → r.default name = some d →
      v.value? = some d → Edit p (.object ((k, v) :: ms)) (.object ms)
  | added {p : Place} {r : Role} {ms : List (Literal × Tree)} {k : Literal} {v : Tree}
      {name : String} {d : Json} :
    p.HasRole (p.kinds (named ms)) r → k.text? = some name → r.default name = some d →
      v.value? = some d → valuesOf name (named ms) = [] →
      Edit p (.object ms) (.object ((k, v) :: ms))
  | field {p q : Place} {r : Role} {ms : List (Literal × Tree)} {k : Literal} {v v' : Tree}
      {name : String} :
    p.HasRole (p.kinds (named ms)) r → k.text? = some name → r.place name = some q →
      Edit q v v' → Edit p (.object ((k, v) :: ms)) (.object ((k, v') :: ms))
  | position {p q : Place} {r : Role} {kinds js ks : List Tree} {v v' : Tree} {name : String} :
    p.HasRole kinds r → r.names[js.length]? = some name → r.place name = some q →
      Edit q v v' → Edit p (.array (kinds ++ (js ++ v :: ks))) (.array (kinds ++ (js ++ v' :: ks)))
  | item {q : Place} {js ks : List Tree} {v v' : Tree} :
    Edit q v v' → Edit (.list q) (.array (js ++ v :: ks)) (.array (js ++ v' :: ks))

/-! What an edit does to the values. -/

section

variable {n : Nat} {p : Place} {r : Role} {vs vs' : List (String × Json)}

theorem Role.Alike.withoutKind (alike : r.Alike n n vs vs') :
    r.Alike n n (withoutKind vs) (withoutKind vs') where
  stay _ _ _ _ _ _ h := h
  change name mem := by
    have other := Role.ne_kind_of_mem mem
    rw [valuesOf_withoutKind other, valuesOf_withoutKind other]
    exact alike.change name mem

theorem Role.read_object {a : r.Made} (alike : r.Alike n n vs vs')
    (h : (r.fields n).read (.object vs) = .ok a) : (r.fields n).read (.object vs') = .ok a :=
  r.ofMembers_alike alike h

theorem given_kind {τ : Type} {table : List (String × τ)} {js : List Json} {j : Json}
    {kind kind' : τ} (only : js = [j]) (ofKind : kindOf table j = .ok kind)
    (given : Given (kindOf table).read? js (some kind')) : kind' = kind := by
  subst only
  cases given with
  | once given =>
    rw [Json.Shape.read?, toOption_eq_some, ofKind] at given
    cases given
    rfl

theorem Place.shape_object {a : p.Content} (holds : p.Holds (p.kinds vs) r)
    (kinds : p.kinds vs' = p.kinds vs) (alike : ∀ n, r.Alike n n vs vs')
    (h : p.shape n (.object vs) = .ok a) : p.shape n (.object vs') = .ok a := by
  generalize only : p.kinds vs = js at holds
  cases holds with
  | member => exact Role.read_object (alike n) h
  | base => exact Role.read_object (alike n) h
  | declaration ofKind =>
    cases n with
    | zero => cases h
    | succ n =>
      obtain ⟨kind, given, read⟩ := declarationWithin_object.mp h
      obtain rfl := given_kind only ofKind given
      refine declarationWithin_object.mpr ⟨_, (congrArg (Given _ · _) kinds).mpr given, ?_⟩
      exact declarationOf_imp (fun a => Role.read_object (alike n).withoutKind) read
  | declarator ofKind =>
    cases n with
    | zero => cases h
    | succ n =>
      obtain ⟨kind, given, read⟩ := declaratorWithin_object.mp h
      obtain rfl := given_kind only ofKind given
      refine declaratorWithin_object.mpr ⟨_, (congrArg (Given _ · _) kinds).mpr given, ?_⟩
      exact declaratorOf_imp (fun a => Role.read_object (alike n).withoutKind) read

theorem Role.read_array {a : r.Made} {items items' : List Json}
    (alike : r.Alike n n (r.names.zip items) (r.names.zip items'))
    (length : items'.length = items.length) (h : (r.fields n).read (.array items) = .ok a) :
    (r.fields n).read (.array items') = .ok a := by
  rcases Fields.read_eq_ok.mp h with ⟨_, ⟨⟩, _⟩ | ⟨_, ⟨⟩, needed, few, made⟩
  rw [names_eq] at few made
  refine Fields.read_eq_ok.mpr (.inr ⟨items', rfl, by rwa [length], ?_, ?_⟩)
  · rwa [names_eq, length]
  · rw [names_eq]
    exact r.ofMembers_alike alike made

theorem Place.shape_array {a : p.Content} {kinds items items' : List Json}
    (holds : p.Holds kinds r) (alike : ∀ n, r.Alike n n (r.names.zip items) (r.names.zip items'))
    (length : items'.length = items.length) (h : p.shape n (.array (kinds ++ items)) = .ok a) :
    p.shape n (.array (kinds ++ items')) = .ok a := by
  cases holds with
  | member => exact Role.read_array (alike n) length h
  | base => exact Role.read_array (alike n) length h
  | declaration ofKind =>
    cases n with
    | zero => cases h
    | succ n =>
      obtain ⟨kind, ofKind', read⟩ := declarationWithin_array.mp h
      cases ofKind.symm.trans ofKind'
      exact declarationWithin_array.mpr
        ⟨_, ofKind, declarationOf_imp (fun a => Role.read_array (alike n) length) read⟩
  | declarator ofKind =>
    cases n with
    | zero => cases h
    | succ n =>
      obtain ⟨kind, ofKind', read⟩ := declaratorWithin_array.mp h
      cases ofKind.symm.trans ofKind'
      exact declaratorWithin_array.mpr
        ⟨_, ofKind, declaratorOf_imp (fun a => Role.read_array (alike n) length) read⟩

end

section

variable {γ : Type} {f : Tree → Option γ} {ms : List (Literal × Tree)} {vs : List (String × γ)}

theorem valuesOf_named (read : ms.mapM (Tree.member? f) = some vs) (name : String) :
    (valuesOf name (named ms)).mapM f = some (valuesOf name vs) := by
  induction ms generalizing vs with
  | nil =>
    cases read
    rfl
  | cons m ms ih =>
    obtain ⟨w, ws, first, rest, rfl⟩ := mapM_cons_eq_some.mp read
    obtain ⟨key, value⟩ := member?_eq_some.mp first
    have keyed : named (m :: ms) = (w.1, m.2) :: named ms := by simp [named, key]
    rw [keyed]
    by_cases same : w.1 = name
    · rw [valuesOf_cons_self same, valuesOf_cons_self same]
      exact mapM_cons_eq_some.mpr ⟨_, _, value, ih rest, rfl⟩
    · rw [valuesOf_cons_of_ne same, valuesOf_cons_of_ne same]
      exact ih rest

end

section

variable {n : Nat} {p : Place} {r : Role} {name : String} {vs vs' : List (String × Json)}

theorem Place.holds_of_hasRole {ms : List (Literal × Tree)}
    (role : p.HasRole (p.kinds (named ms)) r)
    (read : ms.mapM (Tree.member? Tree.value?) = some vs) :
    p.Holds (p.kinds vs) r := by
  obtain ⟨js, values, holds⟩ := role
  have kinds : (p.kinds (named ms)).mapM Tree.value? = some (p.kinds vs) := by
    cases p with
    | declaration | declarator => exact valuesOf_named read "kind"
    | _ => rfl
  cases values.symm.trans kinds
  exact holds

theorem Place.kinds_cons (h : name ≠ "kind") (w : Json) (vs : List (String × Json)) :
    p.kinds ((name, w) :: vs) = p.kinds vs := by
  cases p with
  | declaration | declarator => exact valuesOf_cons_of_ne h w vs
  | _ => rfl

theorem Place.kinds_cons_of_unknown (h : name ∉ p.known r) (w : Json)
    (vs : List (String × Json)) : p.kinds ((name, w) :: vs) = p.kinds vs := by
  cases p with
  | declaration | declarator =>
    refine valuesOf_cons_of_ne ?_ w vs
    rintro rfl
    exact h (List.mem_cons_self ..)
  | _ => rfl

theorem Place.not_mem_names (h : name ∉ p.known r) : name ∉ r.names := by
  cases p with
  | declaration | declarator => exact fun mem => h (List.mem_cons_of_mem _ mem)
  | _ => exact h

theorem Place.kinds_perm (perm : vs.Perm vs') : (p.kinds vs).Perm (p.kinds vs') := by
  cases p with
  | declaration | declarator => exact perm.filterMap _
  | _ => exact .refl _

theorem Place.Holds.kinds_eq {js js' : List Json} (holds : p.Holds js r) (perm : js.Perm js') :
    js' = js := by
  cases holds with
  | member | base => exact perm.nil_eq.symm
  | declaration | declarator => exact perm.singleton_eq.symm

theorem Place.holds_of_shape {a : p.Content} (h : p.shape n (.object vs) = .ok a) :
    ∃ r, p.Holds (p.kinds vs) r := by
  cases p with
  | member => exact ⟨_, .member⟩
  | base => exact ⟨_, .base⟩
  | declaration =>
    cases n with
    | zero => cases h
    | succ n =>
      obtain ⟨kind, given, -⟩ := declarationWithin_object.mp h
      rw [kinds]
      generalize valuesOf "kind" vs = js at given
      cases given with
      | once given => exact ⟨_, .declaration (toOption_eq_some.mp given)⟩
  | declarator =>
    cases n with
    | zero => cases h
    | succ n =>
      obtain ⟨kind, given, -⟩ := declaratorWithin_object.mp h
      rw [kinds]
      generalize valuesOf "kind" vs = js at given
      cases given with
      | once given => exact ⟨_, .declarator (toOption_eq_some.mp given)⟩
  | list q => cases h

theorem Role.alike_of_change (name : String)
    (change : name ∈ r.names →
      Change (r.Replaces n n name) (r.default name) (valuesOf name vs) (valuesOf name vs'))
    (others : ∀ other, name ≠ other → valuesOf other vs' = valuesOf other vs) :
    r.Alike n n vs vs' where
  stay _ _ _ _ _ _ h := h
  change other mem := by
    by_cases same : name = other
    · subst same
      exact change mem
    · rw [others other same]
      exact .permuted (.refl _)

theorem zip_append_cons {names : List String} {js : List Json} (ks : List Json)
    (h : names[js.length]? = some name) :
    ∃ front back, ∀ v, names.zip (js ++ v :: ks) = front ++ (name, v) :: back := by
  induction js generalizing names with
  | nil =>
    cases names with
    | nil => cases h
    | cons first names =>
      cases h
      exact ⟨[], names.zip ks, fun v => rfl⟩
  | cons j js ih =>
    cases names with
    | nil => cases h
    | cons first names =>
      obtain ⟨front, back, zip⟩ := ih h
      exact ⟨(first, j) :: front, back, fun v => congrArg _ (zip v)⟩

end

theorem value?_object_eq_some {ms : List (Literal × Tree)} {j : Json} :
    (Tree.object ms).value? = some j ↔
      ∃ vs, ms.mapM (Tree.member? Tree.value?) = some vs ∧ j = .object vs := by
  rw [Tree.value?_object, Option.map_eq_map, Option.map_eq_some_iff]
  constructor
  · rintro ⟨vs, read, rfl⟩
    exact ⟨vs, read, rfl⟩
  · rintro ⟨vs, read, rfl⟩
    exact ⟨vs, read, rfl⟩

theorem value?_array_eq_some {js : List Tree} {j : Json} :
    (Tree.array js).value? = some j ↔ ∃ vs, js.mapM Tree.value? = some vs ∧ j = .array vs := by
  rw [Tree.value?_array, Option.map_eq_map, Option.map_eq_some_iff]
  constructor
  · rintro ⟨vs, read, rfl⟩
    exact ⟨vs, read, rfl⟩
  · rintro ⟨vs, read, rfl⟩
    exact ⟨vs, read, rfl⟩

def Keeps (p : Place) (T T' : Tree) : Prop :=
  ∀ j, T.value? = some j → ∃ j', T'.value? = some j' ∧ (p.kindsIn j).Perm (p.kindsIn j') ∧
    ∀ n a, p.shape n j = .ok a → p.shape n j' = .ok a

namespace Keeps

variable {p q : Place} {r : Role} {ms ms' : List (Literal × Tree)} {k : Literal} {v v' : Tree}
  {name : String} {d : Json}

theorem permuted (perm : ms.Perm ms') : Keeps p (.object ms) (.object ms') := by
  intro j value
  obtain ⟨vs, read, rfl⟩ := value?_object_eq_some.mp value
  obtain ⟨vs', read', perm'⟩ := mapM_perm perm read
  have kinds := p.kinds_perm perm'
  refine ⟨.object vs', value?_object_eq_some.mpr ⟨vs', read', rfl⟩, kinds, fun n a h => ?_⟩
  obtain ⟨r, holds⟩ := Place.holds_of_shape h
  refine Place.shape_object holds (holds.kinds_eq kinds) (fun n => ?_) h
  exact ⟨fun _ _ _ _ _ _ h => h, fun name _ => .permuted (perm'.filterMap _)⟩

theorem object {vs vs' : List (String × Json)}
    (read : ms.mapM (Tree.member? Tree.value?) = some vs)
    (read' : ms'.mapM (Tree.member? Tree.value?) = some vs')
    (holds : p.Holds (p.kinds vs) r) (kinds : p.kinds vs' = p.kinds vs)
    (alike : ∀ n, r.Alike n n vs vs') : Keeps p (.object ms) (.object ms') := by
  intro j value
  obtain ⟨_, again, rfl⟩ := value?_object_eq_some.mp value
  cases read.symm.trans again
  exact ⟨.object vs', value?_object_eq_some.mpr ⟨vs', read', rfl⟩, .of_eq kinds.symm,
    fun _ _ => Place.shape_object holds kinds alike⟩

theorem unknown (role : p.HasRole (p.kinds (named ms)) r) (key : k.text? = some name)
    (new : name ∉ p.known r) (known : v.value?.isSome) :
    Keeps p (.object ms) (.object ((k, v) :: ms)) := by
  intro j value
  obtain ⟨vs, read, rfl⟩ := value?_object_eq_some.mp value
  obtain ⟨w, known⟩ := Option.isSome_iff_exists.mp known
  have read' := (mapM_member?_cons key).mpr ⟨w, vs, known, read, rfl⟩
  refine object read read' (Place.holds_of_hasRole role read)
    (Place.kinds_cons_of_unknown new w vs) (fun n => ?_) _ value
  exact Role.alike_of_change _ (fun mem => absurd mem (Place.not_mem_names new))
    fun other ne => valuesOf_cons_of_ne ne w vs

theorem dropped (role : p.HasRole (p.kinds (named ms)) r) (key : k.text? = some name)
    (default : r.default name = some d) (stands : v.value? = some d) :
    Keeps p (.object ((k, v) :: ms)) (.object ms) := by
  intro j value
  obtain ⟨_, read, rfl⟩ := value?_object_eq_some.mp value
  obtain ⟨w, vs, stands', rest, rfl⟩ := (mapM_member?_cons key).mp read
  obtain rfl : d = w := Option.some.inj (stands.symm.trans stands')
  have kinds := p.kinds_cons (Role.ne_kind_of_mem (Role.mem_names_of_default default)) d vs
  have holds := Place.holds_of_hasRole role rest
  refine object read rest (kinds.symm ▸ holds) kinds.symm (fun n => ?_) _ value
  refine Role.alike_of_change _ (fun _ => ?_) fun other ne => (valuesOf_cons_of_ne ne d vs).symm
  rw [valuesOf_cons_self rfl]
  exact .dropped default

theorem added (role : p.HasRole (p.kinds (named ms)) r) (key : k.text? = some name)
    (default : r.default name = some d) (stands : v.value? = some d)
    (absent : valuesOf name (named ms) = []) :
    Keeps p (.object ms) (.object ((k, v) :: ms)) := by
  intro j value
  obtain ⟨vs, read, rfl⟩ := value?_object_eq_some.mp value
  have read' := (mapM_member?_cons key).mpr ⟨d, vs, stands, read, rfl⟩
  have kinds := p.kinds_cons (Role.ne_kind_of_mem (Role.mem_names_of_default default)) d vs
  refine object read read' (Place.holds_of_hasRole role read) kinds (fun n => ?_) _ value
  refine Role.alike_of_change _ (fun _ => ?_) fun other ne => valuesOf_cons_of_ne ne d vs
  have nothing := valuesOf_named read name
  rw [absent] at nothing
  rw [valuesOf_cons_self rfl, ← Option.some.inj nothing]
  exact .added default

theorem field (role : p.HasRole (p.kinds (named ms)) r) (key : k.text? = some name)
    (place : r.place name = some q) (inner : Keeps q v v') :
    Keeps p (.object ((k, v) :: ms)) (.object ((k, v') :: ms)) := by
  intro j value
  obtain ⟨_, read, rfl⟩ := value?_object_eq_some.mp value
  obtain ⟨w, vs, stands, rest, rfl⟩ := (mapM_member?_cons key).mp read
  obtain ⟨w', stands', -, keep⟩ := inner w stands
  have read' := (mapM_member?_cons key).mpr ⟨w', vs, stands', rest, rfl⟩
  have kinds (w : Json) :=
    p.kinds_cons (Role.ne_kind_of_mem (Role.mem_names_of_place place)) w vs
  have holds := (kinds w).symm ▸ Place.holds_of_hasRole role rest
  refine object read read' holds ((kinds w').trans (kinds w).symm) (fun n => ?_) _ value
  refine Role.alike_of_change name (fun _ => ?_) fun other ne => ?_
  · rw [valuesOf_cons_self rfl, valuesOf_cons_self rfl]
    exact show Change _ _ ([] ++ w :: _) ([] ++ w' :: _) from .altered ⟨q, place, keep n⟩
  · rw [valuesOf_cons_of_ne ne, valuesOf_cons_of_ne ne]

theorem position {kinds js ks : List Tree} (role : p.HasRole kinds r)
    (position : r.names[js.length]? = some name) (place : r.place name = some q)
    (inner : Keeps q v v') :
    Keeps p (.array (kinds ++ (js ++ v :: ks))) (.array (kinds ++ (js ++ v' :: ks))) := by
  intro j value
  obtain ⟨_, read, rfl⟩ := value?_array_eq_some.mp value
  obtain ⟨vs, _, kindsRead, itemsRead, rfl⟩ := mapM_append_eq_some.mp read
  obtain ⟨front, w, back, frontRead, stands, rfl, other⟩ := mapM_split itemsRead
  obtain ⟨w', stands', -, keep⟩ := inner w stands
  have read' := mapM_append_eq_some.mpr ⟨vs, _, kindsRead, other _ w' stands', rfl⟩
  obtain ⟨_, kindsRead', holds⟩ := role
  cases kindsRead.symm.trans kindsRead'
  -- the values of the list are those of an object with its names in their own order
  refine ⟨_, value?_array_eq_some.mpr ⟨_, read', rfl⟩, ?_, fun n a => ?_⟩
  · cases holds <;> exact .refl _
  refine Place.shape_array holds (fun n => ?_) (by simp)
  rw [← length_of_mapM frontRead] at position
  obtain ⟨before, after, zip⟩ := zip_append_cons back position
  rw [zip, zip]
  refine Role.alike_of_change name (fun _ => ?_) fun other ne => ?_
  · rw [valuesOf_append, valuesOf_append, valuesOf_cons_self rfl, valuesOf_cons_self rfl]
    exact .altered ⟨_, place, keep n⟩
  · rw [valuesOf_append, valuesOf_append, valuesOf_cons_of_ne ne, valuesOf_cons_of_ne ne]

theorem item {js ks : List Tree} (inner : Keeps q v v') :
    Keeps (.list q) (.array (js ++ v :: ks)) (.array (js ++ v' :: ks)) := by
  intro j value
  obtain ⟨_, read, rfl⟩ := value?_array_eq_some.mp value
  obtain ⟨front, w, back, -, stands, rfl, other⟩ := mapM_split read
  obtain ⟨w', stands', -, keep⟩ := inner w stands
  refine ⟨_, value?_array_eq_some.mpr ⟨_, other _ w' stands', rfl⟩, .refl _, fun n a h => ?_⟩
  rw [← toOption_eq_some] at h ⊢
  refine (Shape.list_read? ..).trans ?_
  obtain ⟨as, b, bs, -, first, rfl, made⟩ := mapM_split ((Shape.list_read? ..).symm.trans h)
  exact made _ b (toOption_eq_some.mpr (keep n b (toOption_eq_some.mp first)))

end Keeps

theorem Edit.keeps {p : Place} {T T' : Tree} (edit : Edit p T T') : Keeps p T T' := by
  induction edit with
  | permuted perm => exact .permuted perm
  | unknown role key new known => exact .unknown role key new known
  | dropped role key default stands => exact .dropped role key default stands
  | added role key default stands absent => exact .added role key default stands absent
  | field role key place _ ih => exact .field role key place ih
  | position role position place _ ih => exact .position role position place ih
  | item _ ih => exact .item ih

end TypeLayout.Source
