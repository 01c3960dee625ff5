import TypeLayout.Json.Printer
import TypeLayout.Source.Declaration
/-! Writing units. The `kind` comes first and then every field, defaults included; only the width
of a member that is no bit-field is left out. -/

namespace TypeLayout

namespace Source

def optionalName : Option String → Json
  | some name => .string name
  | none => .null

def kind (name : String) : String × Json := ("kind", .string name)

def baseJson (b : BaseDecl) : Json :=
  .object [("name", .string b.name), ("is_virtual", .bool b.isVirtual)]

def enumMembers (e : EnumDecl) : List (String × Json) :=
  [("name", optionalName e.name), ("underlying", optionalName e.underlying)]

def widthMember : Option Nat → List (String × Json)
  | some width => [("bit_width", .natural width)]
  | none => []

mutual

def declaratorJson : Declarator → Json
  | .fundamental spelling => .object [kind "fundamental", ("spelling", .string spelling)]
  | .named name => .object [kind "named", ("name", .string name)]
  | .pointer pointee => .object [kind "pointer", ("pointee", declaratorJson pointee)]
  | .array element count =>
    .object [kind "array", ("element", declaratorJson element), ("count", .natural count)]
  | .record r => .object (kind "record" :: recordMembers r)
  | .enum e => .object (kind "enum" :: enumMembers e)

def recordMembers : RecordDecl → List (String × Json)
  | ⟨tag, name, bases, members, virtualFunctions, nested⟩ =>
    [("tag", .string tag.keyword), ("name", optionalName name),
     ("bases", .array (bases.map baseJson)), ("members", .array (memberList members)),
     ("virtual_functions", .array (virtualFunctions.map .string)),
     ("nested", .array (declarationList nested))]

def memberList : List MemberDecl → List Json
  | [] => []
  | ⟨name, type, width⟩ :: xs =>
    .object (("name", .string name) :: ("ty", declaratorJson type) :: widthMember width) ::
      memberList xs

def declarationJson : Declaration → Json
  | .record r => .object (kind "record" :: recordMembers r)
  | .forward tag name =>
    .object [kind "forward", ("tag", .string tag.keyword), ("name", .string name)]
  | .enum e => .object (kind "enum" :: enumMembers e)
  | .typedef name target =>
    .object [kind "typedef", ("name", .string name), ("target", declaratorJson target)]

def declarationList : List Declaration → List Json
  | [] => []
  | d :: ds => declarationJson d :: declarationList ds

end

end Source

def SourceUnit.json (u : SourceUnit) : Json :=
  .object [("declarations", .array (Source.declarationList u.declarations))]

def SourceUnit.text (u : SourceUnit) : String := u.json.pretty

end TypeLayout
