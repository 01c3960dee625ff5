import TypeLayout.Registry.Entry
/-! Declarations as a front end hands them over: the shape of types by name, before any name is
looked up. -/

namespace TypeLayout

inductive ForwardTag
  | structTag | classTag | unionTag | enumTag
deriving DecidableEq, Repr

namespace ForwardTag

def keyword : ForwardTag → String
  | structTag => "struct"
  | classTag => "class"
  | unionTag => "union"
  | enumTag => "enum"

def kind : ForwardTag → TagKind
  | structTag => .aggregate .structType
  | classTag => .aggregate .classType
  | unionTag => .aggregate .unionType
  | enumTag => .enum

end ForwardTag

structure BaseDecl where
  name : String
  isVirtual : Bool := false
deriving DecidableEq, Repr

structure EnumDecl where
  name : Option String := none
  underlying : Option String := none
deriving DecidableEq, Repr

mutual

inductive Declarator
  | fundamental (spelling : String)
  | named (name : String)
  | pointer (pointee : Declarator)
  | array (element : Declarator) (count : Nat)
  | record (decl : RecordDecl)
  | enum (decl : EnumDecl)

structure MemberDecl where
  name : String
  type : Declarator
  bitWidth : Option Nat

structure RecordDecl where
  tag : AggregateKind
  name : Option String
  bases : List BaseDecl
  members : List MemberDecl
  virtualFunctions : List String
  nested : List Declaration

inductive Declaration
  | record (decl : RecordDecl)
  | forward (tag : ForwardTag) (name : String)
  | enum (decl : EnumDecl)
  | typedef (name : String) (target : Declarator)

end

instance : Inhabited Declarator := ⟨.named ""⟩

instance : Inhabited Declaration := ⟨.forward .structTag ""⟩

namespace RecordDecl

def start (tag : AggregateKind) (name : Option String) : RecordDecl := ⟨tag, name, [], [], [], []⟩

def addMember (r : RecordDecl) (x : MemberDecl) : RecordDecl :=
  { r with members := r.members ++ [x] }

def addBase (r : RecordDecl) (b : BaseDecl) : RecordDecl := { r with bases := r.bases ++ [b] }

def addVirtualFunction (r : RecordDecl) (name : String) : RecordDecl :=
  { r with virtualFunctions := r.virtualFunctions ++ [name] }

def addNested (r : RecordDecl) (d : Declaration) : RecordDecl :=
  { r with nested := r.nested ++ [d] }

end RecordDecl

def Declaration.name? : Declaration → Option String
  | .record r => r.name
  | .forward _ name => some name
  | .enum e => e.name
  | .typedef name _ => some name

structure SourceUnit where
  declarations : List Declaration := []

mutual

def Declarator.same : Declarator → Declarator → Bool
  | .fundamental a, .fundamental b => a == b
  | .named a, .named b => a == b
  | .pointer a, .pointer b => a.same b
  | .array a m, .array b n => m == n && a.same b
  | .record a, .record b => a.same b
  | .enum a, .enum b => a == b
  | _, _ => false
termination_by structural a => a

def RecordDecl.same : RecordDecl → RecordDecl → Bool
  | ⟨tag, name, bases, members, functions, nested⟩,
    ⟨tag', name', bases', members', functions', nested'⟩ =>
    tag == tag' && name == name' && bases == bases' && functions == functions' &&
      sameMembers members members' && sameDeclarations nested nested'
termination_by structural a => a

def sameMembers : List MemberDecl → List MemberDecl → Bool
  | [], [] => true
  | ⟨name, type, width⟩ :: xs, ⟨name', type', width'⟩ :: ys =>
    name == name' && width == width' && type.same type' && sameMembers xs ys
  | _, _ => false
termination_by structural a => a

def Declaration.same : Declaration → Declaration → Bool
  | .record a, .record b => a.same b
  | .forward tag name, .forward tag' name' => tag == tag' && name == name'
  | .enum a, .enum b => a == b
  | .typedef name target, .typedef name' target' => name == name' && target.same target'
  | _, _ => false
termination_by structural a => a

def sameDeclarations : List Declaration → List Declaration → Bool
  | [], [] => true
  | a :: as, b :: bs => a.same b && sameDeclarations as bs
  | _, _ => false
termination_by structural a => a

end

instance : BEq SourceUnit := ⟨fun a b => sameDeclarations a.declarations b.declarations⟩

end TypeLayout
