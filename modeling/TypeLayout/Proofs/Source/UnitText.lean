import TypeLayout.Proofs.Json.Values
import TypeLayout.Proofs.Source.Tagged
/-! What the reader of units makes of the texts of a tree. Under `declarations` every item has to
stand for a value that declares something, and its kind has to be a string; what stands under
other names is passed over. -/

namespace TypeLayout

open Json (Tree Literal Token Mark Spaced Reader Shape Mismatch Given valuesOf slot foldlM_slot)
open Json.Reader hiding list

namespace Source

variable {τ : Type}

def isString : Json → Bool
  | .string _ => true
  | _ => false

def hasStringKind : Json → Bool
  | .object ms => ms.all fun m => m.1 != "kind" || isString m.2
  | .array (k :: _) => isString k
  | _ => true

def declarationShape : Shape Declaration := fun j => do
  let (kind, rest) ← taggedShape "internally tagged enum Declaration" declarationKinds j
  declarationFrom kind rest

theorem kindReader_reads (table : List (String × τ)) (d : Nat) (T : Tree) :
    Reads (kindReader table) T.tokens
      ((T.within? d).bind fun j => if isString j then (kindOf table j).toOption else none) := by
  intro us cs stops h
  refine (scalar_reads (Shape.variant table) ⟨_, rfl⟩ ⟨_, rfl⟩ T us cs stops h).congr ?_
  cases scalar : T.isScalar with
  | true =>
    rw [if_pos rfl, Tree.within?_scalar scalar]
    cases T.value? with
    | none => rfl
    | some j => cases j <;> simp [isString, Shape.variant, kindOf, Except.toOption]
  | false =>
    cases value : T.within? d with
    | none => simp
    | some j =>
      have := Tree.isScalar_of_value? (Tree.value?_of_within? value)
      cases j <;> simp_all [isString, Json.isScalar]

def addMember (table : List (String × τ)) (t : Tagged τ) (m : String × Json) :
    Option (Tagged τ) :=
  if m.1 = "kind" ∧ isString m.2 = false then none else (Tagged.add table m.1 m.2 t).toOption

theorem addMember_kind (table : List (String × τ)) (t : Tagged τ) (j : Json) :
    addMember table t ("kind", j) =
      if t.kind.isSome then none
      else (if isString j then (kindOf table j).toOption else none).map
        fun k => { t with kind := some k } := by
  cases string : isString j with
  | false => simp [addMember, string]
  | true =>
    cases given : t.kind with
    | some k =>
      simp [addMember, string, Tagged.add, Shape.fill, given]
      rfl
    | none =>
      simp [addMember, string, Tagged.add, Shape.fill, given]

theorem taggedMember_reads (table : List (String × τ)) (d : Nat) (key : String) (t : Tagged τ)
    (T : Tree) :
    Reads (taggedMember d table key t) (.mark .colon :: T.tokens)
      ((T.within? d).bind fun j => addMember table t (key, j)) := by
  intro us cs stops h
  rw [taggedMember]
  by_cases isKind : key = "kind"
  · subst isKind
    -- a second kind is refused without being read
    simp only [if_pos, addMember_kind]
    cases given : t.kind.isSome with
    | true =>
      refine Arrives.congr (show Arrives _ us none from ⟨_, rfl⟩) ?_
      cases T.within? d <;> rfl
    | false =>
      have kind := (kindReader_reads table d T).map fun k => { t with kind := some k }
      refine (kind.afterColon us cs stops h).congr ?_
      cases T.within? d <;> rfl
  · rw [if_neg isKind]
    have read := (value_reads d T).map fun j => { t with members := (key, j) :: t.members }
    refine (read.afterColon us cs stops h).congr ?_
    cases T.within? d <;> simp [addMember, isKind, Tagged.add, Except.toOption]

theorem foldlM_addMember (table : List (String × τ)) (vs : List (String × Json)) (t : Tagged τ) :
    vs.foldlM (addMember table) t =
      if hasStringKind (.object vs) then (Shape.members (Tagged.add table) vs t).toOption
      else none := by
  induction vs generalizing t with
  | nil => rfl
  | cons v vs ih =>
    have first : hasStringKind (.object (v :: vs)) =
        ((v.1 != "kind" || isString v.2) && hasStringKind (.object vs)) := rfl
    rw [List.foldlM_cons, first, Shape.members, List.foldlM_cons, toOption_bind, addMember]
    by_cases refused : v.1 = "kind" ∧ isString v.2 = false
    · simp [refused]
    · rw [if_neg refused]
      have fits : (v.1 != "kind" || isString v.2) = true := by
        cases h : isString v.2 <;> simp_all
      simp only [fits, Bool.true_and, ih, Option.bind_eq_bind]
      cases Tagged.add table v.1 v.2 t <;> cases hasStringKind (.object vs) <;> rfl

def tagged? (expected : String) (table : List (String × τ)) (j : Json) : Option (τ × Json) :=
  if hasStringKind j then (taggedShape expected table j).toOption else none

theorem tagged?_scalar (expected : String) (table : List (String × τ)) (d : Nat) {T : Tree}
    (scalar : T.isScalar = true) : (T.within? d).bind (tagged? expected table) = none := by
  rw [Tree.within?_scalar scalar]
  cases value : T.value? with
  | none => rfl
  | some j =>
    have := Tree.isScalar_of_value? value
    cases j <;> simp_all [Json.isScalar, tagged?, taggedShape, Except.toOption]

theorem taggedItems_arrives (expected : String) (table : List (String × τ)) (d : Nat)
    (js : List Tree) {us : List Token} {cs : List Char}
    (h : Spaced (Tree.itemsTokens js ++ .mark .closeArray :: us) cs) :
    Arrives (taggedItems d table cs) (.mark .closeArray :: us)
      ((Tree.within? (d + 1) (.array js)).bind (tagged? expected table)) := by
  cases js with
  | nil =>
    obtain ⟨left, run, -⟩ := hasElement_close true h
    exact ⟨_, bind_ok run⟩
  | cons k js =>
    have first : Spaced (elementTokens true (k :: js) ++ .mark .closeArray :: us) cs := h
    obtain ⟨left, run, spaced⟩ := hasElement_cons k js first
    rw [taggedItems, bind_ok run]
    have collected (left : List Char)
        (h : Spaced (elementTokens false js ++ .mark .closeArray :: us) left) :
        Arrives (elements (elementStep (value d)) left false [] left) (.mark .closeArray :: us)
          ((js.mapM (Tree.within? d)).map List.reverse) := by
      have enough : js.length ≤ left.length := by
        have := length_le_moreItems js
        have := h.length_le
        simp only [elementTokens, Bool.false_eq_true, reduceIte, List.length_append] at this
        omega
      have reads (j) (_ : j ∈ js) (acc : List Json) := (value_reads d j).map (· :: acc)
      have read := elements_arrives js reads left enough [] h
      rw [foldlM_collect] at read
      exact read.congr (by simp)
    have read := (kindReader_reads table d k _ left (elementTokens_stops js) spaced).bind
      fun kind left spaced => (collected left spaced).bind
        fun items _ spaced => .pure (kind, Json.array items.reverse) spaced
    refine read.congr ?_
    -- the reader asks for the kind before the rest; what stands in the text asks for all at once
    rw [Tree.within?, List.mapM_cons]
    rcases k.within? d with _ | v
    · rfl
    rcases js.mapM (Tree.within? d) with _ | vs
    · simp
    · cases string : isString v with
      | false => simp [tagged?, hasStringKind, string]
      | true =>
        simp only [Option.bind_eq_bind, Option.bind_some, Option.map_eq_map, Option.map_some,
          Option.pure_def, tagged?, hasStringKind, string, reduceIte, taggedShape, toOption_bind,
          List.reverse_reverse]
        rfl

theorem taggedReader_reads (expected : String) (table : List (String × τ)) (d : Nat) (T : Tree) :
    Reads (taggedReader expected table d) T.tokens
      ((T.within? d).bind (tagged? expected table)) := by
  intro us cs stops h
  refine Arrives.placed ?_
  cases T with
  | array js =>
    obtain ⟨rest, peeked, spaced⟩ := array_tokens js h
    rw [bind_ok peeked]
    cases d with
    | zero => exact ⟨_, rfl⟩
    | succ d =>
      have items := taggedItems_arrives expected table d js spaced
      exact enclosed_arrives '[' (fun _ => closeArray_run) items
  | object ms =>
    obtain ⟨rest, peeked, spaced⟩ := object_tokens ms h
    rw [bind_ok peeked]
    cases d with
    | zero => exact ⟨_, rfl⟩
    | succ d =>
      have members := foldMembers_arrives
        (fun t key T => (T.within? d).bind fun j => addMember table t (key, j)) ms
        (fun m _ key t => taggedMember_reads table d key t m.2) {} spaced
      have read := members.bind fun t _ spaced => ofMismatch_arrives t.finish spaced
      refine (enclosed_arrives '{' (fun _ => closeObject_run) read).congr ?_
      rw [Tree.foldlM_member? (Tree.within? d) (addMember table), Tree.within?]
      rcases ms.mapM (Tree.member? (Tree.within? d)) with _ | vs
      · rfl
      simp only [Option.bind_some, foldlM_addMember, Option.map_eq_map, Option.map_some, tagged?,
        taggedShape, toOption_bind]
      split <;> rfl
  | _ =>
    obtain ⟨c, rest, peeked, noList, noMap, -⟩ := dispatch_scalar _ rfl stops h
    rw [bind_ok peeked]
    have noList : some c = some '[' → False := fun same => noList (Option.some.inj same)
    have noMap : some c = some '{' → False := fun same => noMap (Option.some.inj same)
    rw [tagged?_scalar expected table d rfl]
    simpa using misplaced_fails expected rest

def declaration? (j : Json) : Option Declaration :=
  if hasStringKind j then (declarationShape j).toOption else none

theorem declarationReader_reads (d : Nat) (T : Tree) :
    Reads (declarationReader d) T.tokens ((T.within? d).bind declaration?) := by
  intro us cs stops h
  refine ((taggedReader_reads _ declarationKinds d T us cs stops h).bind fun tagged _ spaced =>
    ofMismatch_arrives (declarationFrom tagged.1 tagged.2) spaced).congr ?_
  rw [Option.bind_assoc]
  congr 1
  funext j
  cases string : hasStringKind j with
  | false => simp [tagged?, declaration?, string]
  | true => simp [tagged?, declaration?, string, declarationShape, toOption_bind]

def declarations? (read : Tree → Option Json) (T : Tree) : Option (List Declaration) :=
  T.items?.bind (·.mapM fun D => (read D).bind declaration?)

theorem unitMember_reads (d : Nat) (key : String) (s : Option (List Declaration)) (T : Tree) :
    Reads (unitRecord.member (d + 1) key s) (.mark .colon :: T.tokens)
      (slot (declarations? (Tree.within? d)) "declarations" s (key, T)) := by
  intro us cs stops h
  rw [Record.member]
  by_cases asked : key = "declarations"
  · subst asked
    cases s with
    | some ds => exact ⟨_, rfl⟩
    | none =>
      have read := (list_reads (fun D => declarationReader_reads d D) T).map some
      exact read.afterColon us cs stops h
  · have other : unitRecord.names.contains key = false := by simpa [unitRecord] using asked
    rw [other, Json.slot_of_ne _ asked]
    have passed := (skip_reads T).map fun _ => s
    exact passed.afterColon us cs stops h

theorem unitRecord_arrives (d : Nat) (ms : List (Literal × Tree)) {us : List Token} {cs : List Char}
    (h : Spaced ((Tree.object ms).tokens ++ us) cs) :
    Arrives (unitRecord.read (d + 2) cs) us
      ((ms.mapM (Tree.member? some)).bind fun vs =>
        (vs.foldlM (slot (declarations? (Tree.within? d)) "declarations") none).bind
          (·.map SourceUnit.mk)) := by
  refine Arrives.placed ?_
  obtain ⟨rest, peeked, spaced⟩ := object_tokens ms h
  rw [bind_ok peeked]
  have members := foldMembers_arrives
    (fun s key T => slot (declarations? (Tree.within? d)) "declarations" s (key, T)) ms
    (fun m _ key s => unitMember_reads d key s m.2) unitRecord.start spaced
  have read := members.bind fun s _ spaced => ofMismatch_arrives (unitRecord.finish s) spaced
  refine (enclosed_arrives '{' (fun _ => closeObject_run) read).congr ?_
  have folded := Tree.foldlM_member? some
    (slot (declarations? (Tree.within? d)) "declarations") ms none
  simp only [Option.bind_some] at folded
  rw [show unitRecord.start = none from rfl, folded, Option.bind_assoc]
  congr 1
  funext vs
  congr 1
  funext s
  cases s <;> rfl

theorem declarationShape_eq_ok {j : Json} {d : Declaration} :
    declarationShape j = .ok d ↔ ∃ n, declarationWithin n j = .ok d := by
  constructor
  · intro h
    obtain ⟨⟨kind, rest⟩, tagged, read⟩ := bind_eq_ok.mp h
    exact ⟨rest.depth + 1, bind_eq_ok.mpr ⟨_, tagged, read⟩⟩
  · rintro ⟨n, h⟩
    cases n with
    | zero => cases h
    | succ n =>
      obtain ⟨⟨kind, rest⟩, tagged, read⟩ := bind_eq_ok.mp h
      refine bind_eq_ok.mpr ⟨_, tagged, declarationOf_imp (fun a => ?_) read⟩
      exact Role.read_deepen fun p v a inside => shape_deepen p (Nat.le_of_lt inside)

/-- The members of a unit give these declarations. -/
def Gives (ms : List (Literal × Tree)) (ds : List Declaration) : Prop :=
  ∃ vs, ms.mapM (Tree.member? some) = some vs ∧
    Given (declarations? Tree.value?) (valuesOf "declarations" vs) (some ds)

end Source

theorem SourceUnit.parse_object {ms : List (Literal × Tree)} {text : String} {u : SourceUnit}
    (h : (Tree.object ms).Written text) :
    SourceUnit.parse text = .ok u ↔
      ∃ vs, ms.mapM (Tree.member? some) = some vs ∧
        Given (Source.declarations? (Tree.within? 125)) (valuesOf "declarations" vs)
          (some u.declarations) := by
  have run := Json.Reader.run_of_arrives (fun _ => Source.unitRecord_arrives 125 ms) h
  rw [← toOption_eq_some, SourceUnit.parse]
  refine (congrArg (· = some u) run).to_iff.trans ?_
  rw [Option.bind_eq_some_iff]
  refine exists_congr fun vs => and_congr_right fun _ => ?_
  rw [← foldlM_slot, Option.bind_eq_some_iff]
  constructor
  · rintro ⟨s, folded, made⟩
    obtain ⟨ds, rfl, rfl⟩ := Option.map_eq_some_iff.mp made
    exact folded
  · intro folded
    exact ⟨_, folded, rfl⟩

open Source

theorem SourceUnit.gives_of_parse {ms : List (Literal × Tree)} {text : String} {u : SourceUnit}
    (written : (Tree.object ms).Written text) (h : SourceUnit.parse text = .ok u) :
    Gives ms u.declarations := by
  obtain ⟨vs, read, given⟩ := (SourceUnit.parse_object written).mp h
  refine ⟨vs, read, given.imp fun T _ ds read => ?_⟩
  obtain ⟨items, list, read⟩ := Option.bind_eq_some_iff.mp read
  refine Option.bind_eq_some_iff.mpr ⟨items, list, mapM_imp (fun D _ d read => ?_) read⟩
  obtain ⟨j, value, read⟩ := Option.bind_eq_some_iff.mp read
  exact Option.bind_eq_some_iff.mpr ⟨j, Tree.value?_of_within? value, read⟩

/-- A declaration stands two levels below its unit, so it may be nested 125 deep. -/
theorem SourceUnit.parse_of_gives {ms : List (Literal × Tree)} {text : String}
    {ds : List Declaration} (written : (Tree.object ms).Written text)
    (shallow : (Tree.object ms).depth ≤ Json.maxDepth) (h : Gives ms ds) :
    SourceUnit.parse text = .ok ⟨ds⟩ := by
  obtain ⟨vs, read, given⟩ := h
  refine (SourceUnit.parse_object written).mpr ⟨vs, read, given.imp fun T mem ds read' => ?_⟩
  obtain ⟨m, inside, named⟩ := mem_of_mapM read (Json.mem_valuesOf.mp mem)
  obtain ⟨-, unread⟩ := Tree.member?_eq_some.mp named
  obtain rfl : m.2 = T := Option.some.inj unread
  have deep := Tree.depth_lt_of_member inside
  cases list : m.2 with
  | array items =>
    rw [list] at read' deep
    refine mapM_imp (fun D mem d read => ?_) read'
    obtain ⟨j, value, read⟩ := Option.bind_eq_some_iff.mp read
    have deeper := Tree.depth_lt_of_mem mem
    refine Option.bind_eq_some_iff.mpr ⟨j, Tree.within?_of_depth_le ?_ value, read⟩
    rw [Json.maxDepth] at shallow
    omega
  | _ =>
    rw [list] at read'
    cases read'

end TypeLayout
