import Mathlib.Logic.Relation
import TypeLayout.Proofs.Source.Edits
import TypeLayout.Proofs.Source.RoundTrip
/-! Edits of the text of a unit. However its members are ordered, whatever else is written beside
them, whether or not what need not be given is written out, and wherever blanks stand, the same
unit is read. -/

namespace TypeLayout

open Json (Tree Literal Shape Given Change valuesOf valuesOf_cons_self valuesOf_cons_of_ne)
open Json.Tree (mapM_member?_cons)
open Relation (ReflTransGen)

namespace Source

theorem hasStringKind_eq (j : Json) :
    hasStringKind j = (Place.declaration.kindsIn j).all isString := by
  cases j with
  | object ms =>
    rw [hasStringKind, Place.kindsIn, Place.kinds, valuesOf, List.all_filterMap]
    congr 1
    funext m
    by_cases kind : m.1 = "kind" <;> simp [kind]
  | array js =>
    cases js with
    | nil => rfl
    | cons k js => exact (Bool.and_true _).symm
  | _ => rfl

theorem Edit.declaration?_eq_some {T T' : Tree} {d : Declaration} (edit : Edit .declaration T T')
    (h : T.value?.bind declaration? = some d) : T'.value?.bind declaration? = some d := by
  obtain ⟨j, value, read⟩ := Option.bind_eq_some_iff.mp h
  obtain ⟨j', value', kinds, keep⟩ := edit.keeps _ value
  refine Option.bind_eq_some_iff.mpr ⟨j', value', ?_⟩
  obtain ⟨string, made⟩ := Option.ite_none_right_eq_some.mp read
  rw [toOption_eq_some, declarationShape_eq_ok] at made
  obtain ⟨n, made⟩ := made
  refine Option.ite_none_right_eq_some.mpr ⟨?_, ?_⟩
  · rw [hasStringKind_eq] at string ⊢
    rwa [← kinds.all_eq]
  · rw [toOption_eq_some, declarationShape_eq_ok]
    exact ⟨n, keep n d made⟩

theorem Edit.declarations?_eq_some {T T' : Tree} {ds : List Declaration}
    (edit : Edit (.list .declaration) T T') (h : declarations? Tree.value? T = some ds) :
    declarations? Tree.value? T' = some ds := by
  cases edit with
  | @item q js ks v v' edit =>
    obtain ⟨as, a, bs, -, first, rfl, other⟩ := mapM_split h
    exact other _ a (edit.declaration?_eq_some first)
  | position role =>
    obtain ⟨_, -, holds⟩ := role
    cases holds
  | _ => cases h

/-- One edit of the members of a unit. -/
inductive UnitEdit : List (Literal × Tree) → List (Literal × Tree) → Prop
  | permuted {ms ms' : List (Literal × Tree)} : ms.Perm ms' → UnitEdit ms ms'
  | unknown {ms : List (Literal × Tree)} {k : Literal} {v : Tree} {name : String} :
    k.text? = some name → name ≠ "declarations" → UnitEdit ms ((k, v) :: ms)
  | declarations {ms : List (Literal × Tree)} {k : Literal} {v v' : Tree} :
    k.text? = some "declarations" → Edit (.list .declaration) v v' →
      UnitEdit ((k, v) :: ms) ((k, v') :: ms)

theorem UnitEdit.gives {ms ms' : List (Literal × Tree)} {ds : List Declaration}
    (edit : UnitEdit ms ms') (h : Gives ms ds) : Gives ms' ds := by
  obtain ⟨vs, read, given⟩ := h
  have unread (T T' : Tree) (same : False) (b : List Declaration) :
      declarations? Tree.value? T = some b → declarations? Tree.value? T' = some b := same.elim
  cases edit with
  | permuted perm =>
    obtain ⟨vs', read', perm'⟩ := mapM_perm perm read
    exact ⟨vs', read', given.change (fun _ _ _ h => h) unread (.permuted (perm'.filterMap _))⟩
  | unknown key other =>
    refine ⟨_, (mapM_member?_cons key).mpr ⟨_, vs, rfl, read, rfl⟩, ?_⟩
    rwa [valuesOf_cons_of_ne other]
  | @declarations ms k v v' key edit =>
    obtain ⟨_, vs, ⟨⟩, rest, rfl⟩ := (mapM_member?_cons key).mp read
    refine ⟨_, (mapM_member?_cons key).mpr ⟨_, vs, rfl, rest, rfl⟩, ?_⟩
    rw [valuesOf_cons_self rfl] at given ⊢
    generalize valuesOf "declarations" vs = others at given
    cases given with
    | once read => exact .once (edit.declarations?_eq_some read)

theorem gives_of_edits {ms ms' : List (Literal × Tree)} {ds : List Declaration}
    (edits : ReflTransGen UnitEdit ms ms') (h : Gives ms ds) : Gives ms' ds := by
  induction edits with
  | refl => exact h
  | tail _ edit ih => exact edit.gives ih

end Source

open Source

/-- However the members of a unit are edited, the same unit is read from every text of them that is
not nested too deep. -/
theorem SourceUnit.parse_of_edits {ms ms' : List (Literal × Tree)} {text text' : String}
    {u : SourceUnit} (edits : ReflTransGen UnitEdit ms ms')
    (written : (Tree.object ms).Written text) (written' : (Tree.object ms').Written text')
    (shallow : (Tree.object ms').depth ≤ Json.maxDepth) (h : SourceUnit.parse text = .ok u) :
    SourceUnit.parse text' = .ok u :=
  SourceUnit.parse_of_gives written' shallow
    (gives_of_edits edits (SourceUnit.gives_of_parse written h))

/-! Edits of what was written. -/

namespace Source

section

variable {p q : Place} {r : Role} {ms ns : List (String × Json)} {name kind : String}

theorem kinds_ofMembers (p : Place) (ms : List (String × Json)) :
    p.kinds (named (Tree.ofMembers ms)) = (p.kinds ms).map Tree.ofJson := by
  have keyed : named (Tree.ofMembers ms) = ms.map fun m => (m.1, Tree.ofJson m.2) := by
    rw [Tree.ofMembers_eq, named, List.filterMap_map, ← List.filterMap_eq_map]
    congr 1
    funext m
    simp [Literal.text?_ofString]
  rw [keyed]
  cases p with
  | declaration | declarator =>
    simp only [Place.kinds, valuesOf, List.filterMap_map, List.map_filterMap]
    congr 1
    funext m
    by_cases h : m.1 = "kind" <;> simp [h]
  | _ => rfl

theorem hasRole_ofMembers {js : List Json} (holds : p.Holds js r) (only : p.kinds ms = js)
    (plain : ∀ j ∈ js, Json.Plain j) : p.HasRole (p.kinds (named (Tree.ofMembers ms))) r := by
  refine ⟨js, ?_, holds⟩
  rw [kinds_ofMembers, only]
  exact mapM_map_self fun j mem => Tree.value?_ofJson (plain j mem)

theorem declaration_hasRole {k : DeclarationKind}
    (known : kindOf declarationKinds (.string kind) = .ok k)
    (only : valuesOf "kind" ms = [.string kind]) :
    Place.declaration.HasRole (Place.declaration.kinds (named (Tree.ofMembers ms))) k.role :=
  hasRole_ofMembers (.declaration known) only (by simp)

theorem declarator_hasRole {k : DeclaratorKind}
    (known : kindOf declaratorKinds (.string kind) = .ok k)
    (only : valuesOf "kind" ms = [.string kind]) :
    Place.declarator.HasRole (Place.declarator.kinds (named (Tree.ofMembers ms))) k.role :=
  hasRole_ofMembers (.declarator known) only (by simp)

theorem Edit.swapped (p : Place) (ms ns : List (String × Json)) :
    Edit p (.object (Tree.ofMembers (ms ++ ns))) (.object (Tree.ofMembers (ns ++ ms))) := by
  refine .permuted ?_
  rw [Tree.ofMembers_eq, Tree.ofMembers_eq]
  exact List.perm_append_comm.map _

theorem kinds_append_of_defaults (defaults : ∀ m ∈ ms, r.default m.1 = some m.2) :
    p.kinds (ms ++ ns) = p.kinds ns := by
  induction ms with
  | nil => rfl
  | cons m ms ih =>
    obtain ⟨first, rest⟩ := List.forall_mem_cons.mp defaults
    have other := Role.ne_kind_of_mem (Role.mem_names_of_default first)
    exact (p.kinds_cons other m.2 (ms ++ ns)).trans (ih rest)

theorem edits_of_defaults {js : List Json} (holds : p.Holds js r) (only : p.kinds ns = js)
    (plain : ∀ j ∈ js, Json.Plain j)
    (defaults : ∀ m ∈ ms, r.default m.1 = some m.2) (plains : ∀ m ∈ ms, Json.Plain m.2) :
    ReflTransGen (Edit p) (.object (Tree.ofMembers (ms ++ ns))) (.object (Tree.ofMembers ns)) := by
  induction ms with
  | nil => exact .refl
  | cons m ms ih =>
    obtain ⟨first, rest⟩ := List.forall_mem_cons.mp defaults
    obtain ⟨value, values⟩ := List.forall_mem_cons.mp plains
    have role := hasRole_ofMembers holds ((kinds_append_of_defaults rest).trans only) plain
    exact .head (.dropped role (Literal.text?_ofString _) first (Tree.value?_ofJson value))
      (ih rest values)

theorem edits_of_field {k : Literal} {ms : List (Literal × Tree)} {v v' : Tree}
    (role : p.HasRole (p.kinds (named ms)) r) (key : k.text? = some name)
    (place : r.place name = some q) (edits : ReflTransGen (Edit q) v v') :
    ReflTransGen (Edit p) (.object ((k, v) :: ms)) (.object ((k, v') :: ms)) :=
  edits.lift (fun v => Tree.object ((k, v) :: ms)) fun _ _ edit => .field role key place edit

theorem edits_of_item {v v' : Tree} (edits : ReflTransGen (Edit q) v v') :
    ReflTransGen (Edit (.list q)) (.array [v]) (.array [v']) :=
  edits.lift (fun v => Tree.array [v]) fun _ _ edit => @Edit.item q [] [] _ _ edit

end

end Source

namespace SourceUnit

def lid : RecordDecl :=
  ⟨.structType, some "Lid", [], [⟨"hinge", .pointer (.named "Box"), none⟩], [], []⟩

def box : RecordDecl := ⟨.structType, some "Box", [], [], [], [.record lid]⟩

def header (name : String) : List (String × Json) :=
  [kind "record", ("tag", .string "struct"), ("name", .string name)]

def shortened (name list : String) (j : Json) : Json :=
  .object ((list, .array [j]) :: header name)

def shortenedHinge : Json :=
  .object [("ty", .object
    [("pointee", .object [("note", .bool true), ("name", .string "Box"), kind "named"]),
     kind "pointer"]), ("name", .string "hinge")]

theorem record_hasRole (ms : List (String × Json))
    (only : valuesOf "kind" ms = [.string "record"]) :
    Place.declaration.HasRole (Place.declaration.kinds (named (Tree.ofMembers ms))) .record := by
  have known : kindOf declarationKinds (.string "record") = .ok .record := rfl
  exact declaration_hasRole known only

theorem record_edits (ms ns : List (String × Json))
    (defaults : ∀ m ∈ ms, Role.record.default m.1 = some m.2) (plains : ∀ m ∈ ms, Json.Plain m.2)
    (only : valuesOf "kind" ns = [.string "record"]) : ReflTransGen (Edit .declaration)
      (.object (Tree.ofMembers (ms ++ ns))) (.object (Tree.ofMembers ns)) := by
  have known : kindOf declarationKinds (.string "record") = .ok .record := rfl
  exact edits_of_defaults (.declaration known) only (by simp) defaults plains

theorem hinge_edits : ReflTransGen (Edit .member)
    (.object (Tree.ofMembers [("name", .string "hinge"),
      ("ty", declaratorJson (.pointer (.named "Box")))])) (.ofJson shortenedHinge) := by
  have key := Literal.text?_ofString
  have pointee : ReflTransGen (Edit .declarator) (.ofJson (declaratorJson (.named "Box")))
      (.object (Tree.ofMembers [("note", .bool true), ("name", .string "Box"), kind "named"])) :=
    .tail (.single (.swapped _ [kind "named"] [("name", .string "Box")]))
      (.unknown (declarator_hasRole rfl rfl) (key "note") (by decide) rfl)
  have type := ReflTransGen.head
    (Edit.swapped _ [kind "pointer"] [("pointee", declaratorJson (.named "Box"))])
    (edits_of_field (declarator_hasRole rfl rfl) (key "pointee") rfl pointee)
  exact .head
    (.swapped _ [("name", .string "hinge")] [("ty", declaratorJson (.pointer (.named "Box")))])
    (edits_of_field (hasRole_ofMembers .member rfl (by simp)) (key "ty") rfl type)

theorem lid_edits : ReflTransGen (Edit .declaration) (.ofJson (declarationJson (.record lid)))
    (.ofJson (shortened "Lid" "members" shortenedHinge)) := by
  have start := (record_edits [("bases", .array [])]
      (("members", .array (memberList lid.members)) :: ("virtual_functions", .array []) ::
        ("nested", .array []) :: header "Lid")
      (by simp [Role.default]) (by simp) rfl).head
    (.swapped _ (header "Lid") ((recordMembers lid).drop 2))
  have middle := (record_edits [("virtual_functions", .array []), ("nested", .array [])]
      (header "Lid" ++ [("members", .array (memberList lid.members))])
      (by simp [Role.default]) (by simp) rfl).head
    (.swapped _ [("members", .array (memberList lid.members))]
      (("virtual_functions", .array []) :: ("nested", .array []) :: header "Lid"))
  have last := (edits_of_field (record_hasRole (header "Lid") rfl)
      (Literal.text?_ofString "members") rfl (edits_of_item hinge_edits)).head
    (.swapped _ (header "Lid") [("members", .array (memberList lid.members))])
  exact (start.trans middle).trans last

theorem box_edits : ReflTransGen UnitEdit (writtenMembers ⟨[.record box]⟩)
    (Tree.ofMembers [("declarations", .array [shortened "Box" "nested"
      (shortened "Lid" "members" shortenedHinge)])]) := by
  have start := (record_edits
      [("bases", .array []), ("members", .array []), ("virtual_functions", .array [])]
      (("nested", .array [declarationJson (.record lid)]) :: header "Box")
      (by simp [Role.default]) (by simp) rfl).head
    (.swapped _ (header "Box") ((recordMembers box).drop 2))
  have last := edits_of_field (record_hasRole (header "Box") rfl)
    (Literal.text?_ofString "nested") rfl (edits_of_item lid_edits)
  exact (edits_of_item (start.trans last)).lift (fun v => [(Literal.ofString "declarations", v)])
    fun _ _ edit => .declarations (Literal.text?_ofString _) edit

set_option maxRecDepth 4000 in
theorem parse_shortenedBox : parse
    ("\x7b\"declarations\":[\x7b\"nested\":[\x7b\"members\":[\x7b\"ty\":\x7b\"pointee\":" ++
    "\x7b\"note\":true,\"name\":\"Box\",\"kind\":\"named\"\x7d,\"kind\":\"pointer\"\x7d," ++
    "\"name\":\"hinge\"\x7d],\"kind\":\"record\",\"tag\":\"struct\",\"name\":\"Lid\"\x7d]," ++
    "\"kind\":\"record\",\"tag\":\"struct\",\"name\":\"Box\"\x7d]\x7d") = .ok ⟨[.record box]⟩ := by
  have fits : Fits ⟨[.record box]⟩ := by
    simp [box, lid, Fits, DeclarationsFit, Declaration.Fits, RecordDecl.Fits, MembersFit,
      Declarator.Fits]
  have read := parse_of_gives (written_text fits) (by decide)
    (gives_writtenMembers fits)
  exact parse_of_edits box_edits (written_text fits)
    (Tree.written_flat (.object _)) (by decide) read

end SourceUnit

end TypeLayout
