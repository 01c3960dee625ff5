import TypeLayout.Json.Shape
import TypeLayout.Source.Declaration
/-! Reading units. A declaration or declarator is an object whose `kind` says which; it may stand
anywhere among the members. At the top level a kind is refused as soon as it is read, all else of
a declaration once the declaration is complete. -/

namespace TypeLayout

open Json (Shape Mismatch Reader)

namespace Source

inductive DeclarationKind
  | record | forward | enum | typedef
deriving DecidableEq

inductive DeclaratorKind
  | fundamental | named | pointer | array | record | enum
deriving DecidableEq

def declarationKinds : List (String × DeclarationKind) :=
  [("record", .record), ("forward", .forward), ("enum", .enum), ("typedef", .typedef)]

def declaratorKinds : List (String × DeclaratorKind) :=
  [("fundamental", .fundamental), ("named", .named), ("pointer", .pointer), ("array", .array),
   ("record", .record), ("enum", .enum)]

def aggregateTags : List (String × AggregateKind) :=
  [("struct", .structType), ("class", .classType), ("union", .unionType)]

def forwardTags : List (String × ForwardTag) :=
  [("struct", .structTag), ("class", .classTag), ("union", .unionTag), ("enum", .enumTag)]

variable {α τ : Type}

/-- A kind by name; in a value that was read before also by its number. -/
def kindOf (table : List (String × τ)) : Shape τ
  | .string s => Shape.named table s
  | .natural n =>
    match table[n]? with
    | some (_, k) => .ok k
    | none => .error (.invalidValue (Json.label (.natural n))
        ("variant index 0 <= i < " ++ toString table.length))
  | j => .error (.invalidType j.label "variant identifier")

/-- A kind and the members that have not been read yet, last first. -/
structure Tagged (τ : Type) where
  kind : Option τ := none
  members : List (String × Json) := []

def Tagged.finish (t : Tagged τ) : Except Mismatch (τ × Json) := do
  return (← Shape.required "kind" t.kind, .object t.members.reverse)

def Tagged.add (table : List (String × τ)) (key : String) (j : Json) (t : Tagged τ) :
    Except Mismatch (Tagged τ) :=
  if key = "kind" then do return { t with kind := ← Shape.fill key t.kind (kindOf table j) }
  else .ok { t with members := (key, j) :: t.members }

def taggedShape (expected : String) (table : List (String × τ)) : Shape (τ × Json)
  | .object ms => do (← Shape.members (Tagged.add table) ms {}).finish
  | .array (j :: js) => do return (← kindOf table j, .array js)
  | .array [] => .error (.missingField "kind")
  | j => .error (.invalidType j.label expected)

structure MemberFields where
  name : Option String := none
  type : Option Declarator := none
  bitWidth : Option (Option Nat) := none

def memberFields (declarator : Shape Declarator) : Shape.Fields MemberFields MemberDecl where
  expected := "struct MemberDecl"
  names := ["name", "ty", "bit_width"]
  needed := 2
  start := {}
  step key j f := do
    match key with
    | "name" => return { f with name := ← Shape.fill key f.name (Shape.string j) }
    | "ty" => return { f with type := ← Shape.fill key f.type (declarator j) }
    | "bit_width" =>
      return { f with bitWidth := ← Shape.fill key f.bitWidth (Shape.option Shape.word32 j) }
    | _ => return f
  finish f := do
    return ⟨← Shape.required "name" f.name, ← Shape.required "ty" f.type, f.bitWidth.getD none⟩

structure BaseFields where
  name : Option String := none
  isVirtual : Option Bool := none

def baseFields : Shape.Fields BaseFields BaseDecl where
  expected := "struct BaseDecl"
  names := ["name", "is_virtual"]
  needed := 1
  start := {}
  step key j f := do
    match key with
    | "name" => return { f with name := ← Shape.fill key f.name (Shape.string j) }
    | "is_virtual" => return { f with isVirtual := ← Shape.fill key f.isVirtual (Shape.bool j) }
    | _ => return f
  finish f := do return ⟨← Shape.required "name" f.name, f.isVirtual.getD false⟩

structure EnumFields where
  name : Option (Option String) := none
  underlying : Option (Option String) := none

def enumFields : Shape.Fields EnumFields EnumDecl where
  expected := "struct EnumDecl"
  names := ["name", "underlying"]
  needed := 0
  start := {}
  step key j f := do
    match key with
    | "name" => return { f with name := ← Shape.fill key f.name (Shape.option Shape.string j) }
    | "underlying" =>
      return { f with underlying := ← Shape.fill key f.underlying (Shape.option Shape.string j) }
    | _ => return f
  finish f := .ok ⟨f.name.getD none, f.underlying.getD none⟩

structure RecordFields where
  tag : Option AggregateKind := none
  name : Option (Option String) := none
  bases : Option (List BaseDecl) := none
  members : Option (List MemberDecl) := none
  virtualFunctions : Option (List String) := none
  nested : Option (List Declaration) := none

def recordFields (declarator : Shape Declarator) (declaration : Shape Declaration) :
    Shape.Fields RecordFields RecordDecl where
  expected := "struct RecordDecl"
  names := ["tag", "name", "bases", "members", "virtual_functions", "nested"]
  needed := 1
  start := {}
  step key j f := do
    match key with
    | "tag" => return { f with tag := ← Shape.fill key f.tag (Shape.choice aggregateTags j) }
    | "name" => return { f with name := ← Shape.fill key f.name (Shape.option Shape.string j) }
    | "bases" =>
      return { f with bases := ← Shape.fill key f.bases (Shape.list baseFields.read j) }
    | "members" =>
      return { f with
        members := ← Shape.fill key f.members (Shape.list (memberFields declarator).read j) }
    | "virtual_functions" =>
      return { f with
        virtualFunctions := ← Shape.fill key f.virtualFunctions (Shape.list Shape.string j) }
    | "nested" =>
      return { f with nested := ← Shape.fill key f.nested (Shape.list declaration j) }
    | _ => return f
  finish f := do
    return ⟨← Shape.required "tag" f.tag, f.name.getD none, f.bases.getD [], f.members.getD [],
      f.virtualFunctions.getD [], f.nested.getD []⟩

structure ForwardFields where
  tag : Option ForwardTag := none
  name : Option String := none

def forwardFields : Shape.Fields ForwardFields Declaration where
  expected := "struct variant Declaration::Forward"
  names := ["tag", "name"]
  needed := 2
  start := {}
  step key j f := do
    match key with
    | "tag" => return { f with tag := ← Shape.fill key f.tag (Shape.choice forwardTags j) }
    | "name" => return { f with name := ← Shape.fill key f.name (Shape.string j) }
    | _ => return f
  finish f := do
    return .forward (← Shape.required "tag" f.tag) (← Shape.required "name" f.name)

structure TypedefFields where
  name : Option String := none
  target : Option Declarator := none

def typedefFields (declarator : Shape Declarator) : Shape.Fields TypedefFields Declaration where
  expected := "struct variant Declaration::Typedef"
  names := ["name", "target"]
  needed := 2
  start := {}
  step key j f := do
    match key with
    | "name" => return { f with name := ← Shape.fill key f.name (Shape.string j) }
    | "target" => return { f with target := ← Shape.fill key f.target (declarator j) }
    | _ => return f
  finish f := do
    return .typedef (← Shape.required "name" f.name) (← Shape.required "target" f.target)

def singleField (expected name : String) (shape : Shape α) : Shape.Fields (Option α) α where
  expected := expected
  names := [name]
  needed := 1
  start := none
  step key j f := if key = name then Shape.fill key f (shape j) else .ok f
  finish f := Shape.required name f

structure ArrayFields where
  element : Option Declarator := none
  count : Option Nat := none

def arrayFields (declarator : Shape Declarator) : Shape.Fields ArrayFields Declarator where
  expected := "struct variant Declarator::Array"
  names := ["element", "count"]
  needed := 2
  start := {}
  step key j f := do
    match key with
    | "element" => return { f with element := ← Shape.fill key f.element (declarator j) }
    | "count" => return { f with count := ← Shape.fill key f.count (Shape.word64 j) }
    | _ => return f
  finish f := do
    return .array (← Shape.required "element" f.element) (← Shape.required "count" f.count)

def declaratorOf (declarator : Shape Declarator) (declaration : Shape Declaration) :
    DeclaratorKind → Shape Declarator
  | .fundamental, j =>
    .fundamental <$>
      (singleField "struct variant Declarator::Fundamental" "spelling" Shape.string).read j
  | .named, j =>
    .named <$> (singleField "struct variant Declarator::Named" "name" Shape.string).read j
  | .pointer, j =>
    .pointer <$> (singleField "struct variant Declarator::Pointer" "pointee" declarator).read j
  | .array, j => (arrayFields declarator).read j
  | .record, j => .record <$> (recordFields declarator declaration).read j
  | .enum, j => .enum <$> enumFields.read j

def declarationOf (declarator : Shape Declarator) (declaration : Shape Declaration) :
    DeclarationKind → Shape Declaration
  | .record, j => .record <$> (recordFields declarator declaration).read j
  | .forward, j => forwardFields.read j
  | .enum, j => .enum <$> enumFields.read j
  | .typedef, j => (typedefFields declarator).read j

mutual

def declaratorWithin : Nat → Shape Declarator
  | 0, j => .error (.invalidType j.label "internally tagged enum Declarator")
  | n + 1, j => do
    let (kind, rest) ← taggedShape "internally tagged enum Declarator" declaratorKinds j
    declaratorOf (declaratorWithin n) (declarationWithin n) kind rest

def declarationWithin : Nat → Shape Declaration
  | 0, j => .error (.invalidType j.label "internally tagged enum Declaration")
  | n + 1, j => do
    let (kind, rest) ← taggedShape "internally tagged enum Declaration" declarationKinds j
    declarationOf (declaratorWithin n) (declarationWithin n) kind rest

end

/-- Every step into a value lessens its depth. -/
def declaratorFrom (kind : DeclaratorKind) (rest : Json) : Except Mismatch Declarator :=
  declaratorOf (declaratorWithin rest.depth) (declarationWithin rest.depth) kind rest

def declarationFrom (kind : DeclarationKind) (rest : Json) : Except Mismatch Declaration :=
  declarationOf (declaratorWithin rest.depth) (declarationWithin rest.depth) kind rest

def kindReader (table : List (String × τ)) : Reader τ := Reader.scalar (Shape.variant table)

def taggedMember (depth : Nat) (table : List (String × τ)) (key : String) (t : Tagged τ) :
    Reader (Tagged τ) := do
  if key = "kind" then
    if t.kind.isSome then Reader.failMismatch (.duplicateField key)
    else
      Reader.colon
      return { t with kind := some (← kindReader table) }
  else
    Reader.colon
    return { t with members := (key, ← Reader.value depth) :: t.members }

def taggedItems (depth : Nat) (table : List (String × τ)) : Reader (τ × Json) := do
  if ← Reader.hasElement true then
    let kind ← kindReader table
    let step := Reader.elementStep (Reader.value depth)
    let items ← Reader.elements step (← get) false []
    pure (kind, .array items.reverse)
  else Reader.failMismatch (.missingField "kind")

def taggedReader (expected : String) (table : List (String × τ)) (depth : Nat) :
    Reader (τ × Json) := Reader.placed do
  match ← Reader.peek with
  | some '{' =>
    Reader.object depth fun inner => do
      let t ← Reader.foldMembers (taggedMember inner table) {}
      Reader.ofMismatch t.finish
  | some '[' => Reader.array depth fun inner => taggedItems inner table
  | _ => Reader.misplaced expected

def declarationReader (depth : Nat) : Reader Declaration := do
  let (kind, rest) ← taggedReader "internally tagged enum Declaration" declarationKinds depth
  Reader.ofMismatch (declarationFrom kind rest)

def declaratorReader (depth : Nat) : Reader Declarator := do
  let (kind, rest) ← taggedReader "internally tagged enum Declarator" declaratorKinds depth
  Reader.ofMismatch (declaratorFrom kind rest)

def unitRecord : Reader.Record (Option (List Declaration)) SourceUnit where
  expected := "struct SourceUnit"
  names := ["declarations"]
  needed := 1
  start := none
  isGiven _ s := s.isSome
  step depth _ _ := some <$> Reader.list declarationReader depth
  finish s := do return ⟨← Shape.required "declarations" s⟩

end Source

def Declaration.parse (text : String) : Except Json.Fault Declaration :=
  (Source.declarationReader Json.maxDepth).run text

def Declarator.parse (text : String) : Except Json.Fault Declarator :=
  (Source.declaratorReader Json.maxDepth).run text

def SourceUnit.parse (text : String) : Except Json.Fault SourceUnit :=
  (Source.unitRecord.read Json.maxDepth).run text

end TypeLayout
