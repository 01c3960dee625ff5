import TypeLayout.Proofs.Json.Printing
import TypeLayout.Proofs.Source.UnitText
import TypeLayout.Source.Encode
/-! Units written and read again. What is written of a unit is read as that unit, if its numbers fit
their fields and it is not nested too deep; a field that is left out or empty is read as it was. -/

namespace TypeLayout

open Json (Tree Literal Shape Given Plain valuesOf)
open Json.Shape (Fields)

mutual

def Declarator.Fits : Declarator → Prop
  | .fundamental _ | .named _ | .enum _ => True
  | .pointer pointee => pointee.Fits
  | .array element count => element.Fits ∧ count < 0x10000000000000000
  | .record r => r.Fits
termination_by structural d => d

def RecordDecl.Fits : RecordDecl → Prop
  | ⟨_, _, _, members, _, nested⟩ => MembersFit members ∧ DeclarationsFit nested
termination_by structural r => r

def MembersFit : List MemberDecl → Prop
  | [] => True
  | ⟨_, type, width⟩ :: xs => type.Fits ∧ (∀ w ∈ width, w < 0x100000000) ∧ MembersFit xs
termination_by structural xs => xs

def Declaration.Fits : Declaration → Prop
  | .record r => r.Fits
  | .forward _ _ | .enum _ => True
  | .typedef _ target => target.Fits
termination_by structural d => d

def DeclarationsFit : List Declaration → Prop
  | [] => True
  | d :: ds => d.Fits ∧ DeclarationsFit ds
termination_by structural ds => ds

end

def SourceUnit.Fits (u : SourceUnit) : Prop := DeclarationsFit u.declarations

namespace Source

/-! What is written holds no other numbers. -/

@[simp] theorem plain_optionalName (name : Option String) : Plain (optionalName name) := by
  cases name <;> simp [optionalName]

@[simp] theorem plain_enumMembers (e : EnumDecl) : ∀ m ∈ enumMembers e, Plain m.2 := by
  simp [enumMembers]

@[simp] theorem plain_baseJson (b : BaseDecl) : Plain (baseJson b) := by simp [baseJson]

theorem plain_widthMember {width : Option Nat} (fits : ∀ w ∈ width, w < 0x100000000) :
    ∀ m ∈ widthMember width, Plain m.2 := by
  cases width with
  | none => simp [widthMember]
  | some w =>
    have : w < Json.Reader.significandLimit := Nat.lt_trans (fits w rfl) (by decide)
    simpa [widthMember] using this

mutual

theorem plain_declaratorJson (d : Declarator) (fits : d.Fits) : Plain (declaratorJson d) := by
  cases d with
  | fundamental spelling | named name => simp [declaratorJson, kind]
  | pointer pointee => simpa [declaratorJson, kind] using plain_declaratorJson pointee fits
  | array element count =>
    simpa [declaratorJson, kind] using ⟨plain_declaratorJson element fits.1, fits.2⟩
  | record r => simpa [declaratorJson, kind] using plain_recordMembers r fits
  | enum e => simpa [declaratorJson, kind] using plain_enumMembers e

theorem plain_recordMembers (r : RecordDecl) (fits : r.Fits) :
    ∀ m ∈ recordMembers r, Plain m.2 := by
  obtain ⟨tag, name, bases, members, functions, nested⟩ := r
  simpa [recordMembers] using
    ⟨plain_memberList members fits.1, plain_declarationList nested fits.2⟩

theorem plain_memberList (xs : List MemberDecl) (fits : MembersFit xs) :
    ∀ j ∈ memberList xs, Plain j := by
  cases xs with
  | nil => exact nofun
  | cons x xs =>
    obtain ⟨name, type, width⟩ := x
    obtain ⟨fitsType, fitsWidth, fitsRest⟩ := fits
    simpa [memberList] using ⟨⟨plain_declaratorJson type fitsType,
      by simpa using plain_widthMember fitsWidth⟩, plain_memberList xs fitsRest⟩

theorem plain_declarationJson (d : Declaration) (fits : d.Fits) : Plain (declarationJson d) := by
  cases d with
  | record r => simpa [declarationJson, kind] using plain_recordMembers r fits
  | forward tag name => simp [declarationJson, kind]
  | enum e => simpa [declarationJson, kind] using plain_enumMembers e
  | typedef name target => simpa [declarationJson, kind] using plain_declaratorJson target fits

theorem plain_declarationList (ds : List Declaration) (fits : DeclarationsFit ds) :
    ∀ j ∈ declarationList ds, Plain j := by
  cases ds with
  | nil => exact nofun
  | cons d ds =>
    simpa [declarationList] using
      ⟨plain_declarationJson d fits.1, plain_declarationList ds fits.2⟩

end

/-! What is written is read again. -/

theorem taggedShape_kind {τ : Type} {expected name : String} {table : List (String × τ)} {k : τ}
    {ms : List (String × Json)} (named : table.lookup name = some k)
    (noKind : ∀ m ∈ ms, m.1 ≠ "kind") :
    taggedShape expected table (.object (kind name :: ms)) = .ok (k, .object ms) := by
  have only : valuesOf "kind" (kind name :: ms) = [.string name] := by
    have none_left : valuesOf "kind" ms = [] :=
      List.filterMap_eq_nil_iff.mpr fun m mem => if_neg (noKind m mem)
    rw [kind, Json.valuesOf_cons_self rfl, none_left]
  have kept : withoutKind (kind name :: ms) = ms := by
    simpa [withoutKind, kind] using noKind
  refine (taggedShape_object ..).mpr ⟨?_, by rw [kept]⟩
  rw [only]
  exact .once (by simp [Shape.read?, kindOf, Shape.named, named])

theorem recordMembers_noKind (r : RecordDecl) : ∀ m ∈ recordMembers r, m.1 ≠ "kind" := by
  obtain ⟨tag, name, bases, members, functions, nested⟩ := r
  simp [recordMembers]

theorem enumMembers_noKind (e : EnumDecl) : ∀ m ∈ enumMembers e, m.1 ≠ "kind" := by
  simp [enumMembers]

theorem option_optionalName (name : Option String) :
    Shape.option Shape.string (optionalName name) = .ok name := by
  cases name <;> rfl

theorem named_keyword (tag : AggregateKind) :
    Shape.choice aggregateTags (.string tag.keyword) = .ok tag := by
  cases tag <;> rfl

theorem named_forwardKeyword (tag : ForwardTag) :
    Shape.choice forwardTags (.string tag.keyword) = .ok tag := by
  cases tag <;> rfl

theorem list_reads {β : Type} {shape : Shape β} {f : β → Json} (h : ∀ b, shape (f b) = .ok b)
    (bs : List β) : Shape.list shape (.array (bs.map f)) = .ok bs := by
  rw [← toOption_eq_some]
  exact (Shape.list_read? ..).trans (mapM_map_self fun b _ => toOption_eq_some.mpr (h b))

theorem list_cons_reads {β : Type} {shape : Shape β} {j : Json} {js : List Json} {b : β}
    {bs : List β} (first : shape j = .ok b) (rest : Shape.list shape (.array js) = .ok bs) :
    Shape.list shape (.array (j :: js)) = .ok (b :: bs) := by
  rw [← toOption_eq_some] at rest ⊢
  refine (Shape.list_read? ..).trans (mapM_cons_eq_some.mpr ⟨b, bs, ?_, ?_, rfl⟩)
  · exact toOption_eq_some.mpr first
  · exact (Shape.list_read? ..).symm.trans rest

theorem enumMembers_reads (e : EnumDecl) : enumFields.ofMembers (enumMembers e) = .ok e := by
  refine Fields.ofMembers_eq_ok.mpr
    ⟨⟨some e.name, some e.underlying⟩, enumFields_given.mpr ?_, rfl⟩
  simp [enumMembers, valuesOf, Shape.read?, option_optionalName]

theorem baseJson_reads (b : BaseDecl) : baseFields.read (baseJson b) = .ok b := rfl

section

variable {n : Nat}

theorem recordMembers_of_reads {tag : AggregateKind} {name : Option String} {bases : List BaseDecl}
    {members : List MemberDecl} {functions : List String} {nested : List Declaration}
    (readMembers :
      Shape.list (memberFields (declaratorWithin n)).read (.array (memberList members)) =
        .ok members)
    (readNested : Shape.list (declarationWithin n) (.array (declarationList nested)) = .ok nested) :
    (recordFields (declaratorWithin n) (declarationWithin n)).ofMembers
      (recordMembers ⟨tag, name, bases, members, functions, nested⟩) =
        .ok ⟨tag, name, bases, members, functions, nested⟩ := by
  have readBases : Shape.list baseFields.read (.array (bases.map baseJson)) = .ok bases :=
    list_reads baseJson_reads bases
  have readFunctions : Shape.list Shape.string (.array (functions.map .string)) = .ok functions :=
    list_reads (fun s => (rfl : Shape.string (.string s) = .ok s)) functions
  refine Fields.ofMembers_eq_ok.mpr ⟨⟨some tag, some name, some bases, some members,
    some functions, some nested⟩, (recordFields_given _ _).mpr ?_, rfl⟩
  simp [recordMembers, valuesOf, Shape.read?, named_keyword, option_optionalName, readBases,
    readMembers, readFunctions, readNested]

theorem memberJson_of_reads {name : String} {type : Declarator} {width : Option Nat}
    (readType : declaratorWithin n (declaratorJson type) = .ok type)
    (fits : ∀ w ∈ width, w < 0x100000000) :
    (memberFields (declaratorWithin n)).read
      (.object (("name", .string name) :: ("ty", declaratorJson type) :: widthMember width)) =
        .ok ⟨name, type, width⟩ := by
  refine Fields.ofMembers_eq_ok.mpr ⟨⟨some name, some type, width.map some⟩,
    (memberFields_given _).mpr ?_, by cases width <;> rfl⟩
  cases width with
  | none => simp [widthMember, valuesOf, Shape.read?, Shape.string, readType]
  | some w =>
    have readWidth : Shape.option Shape.word32 (.natural w) = .ok (some w) :=
      map_eq_ok.mpr ⟨w, if_pos (fits w rfl), rfl⟩
    simp [widthMember, valuesOf, Shape.read?, Shape.string, readType, readWidth]

theorem singleField_reads {β : Type} {expected name : String} {shape : Shape β} {j : Json} {b : β}
    (read : shape j = .ok b) :
    (singleField expected name shape).read (.object [(name, j)]) = .ok b := by
  refine Fields.ofMembers_eq_ok.mpr ⟨some b, (singleField_given ..).mpr ?_, rfl⟩
  simp [valuesOf, Shape.read?, read]

theorem arrayFields_of_reads {element : Declarator} {count : Nat}
    (readElement : declaratorWithin n (declaratorJson element) = .ok element)
    (fits : count < 0x10000000000000000) :
    (arrayFields (declaratorWithin n)).read
      (.object [("element", declaratorJson element), ("count", .natural count)]) =
        .ok (.array element count) := by
  have readCount : Shape.word64 (.natural count) = .ok count := if_pos fits
  refine Fields.ofMembers_eq_ok.mpr ⟨⟨some element, some count⟩, (arrayFields_given _).mpr ?_, rfl⟩
  simp [valuesOf, Shape.read?, readElement, readCount]

theorem forwardFields_reads (tag : ForwardTag) (name : String) :
    forwardFields.read (.object [("tag", .string tag.keyword), ("name", .string name)]) =
      .ok (.forward tag name) := by
  refine Fields.ofMembers_eq_ok.mpr ⟨⟨some tag, some name⟩, forwardFields_given.mpr ?_, rfl⟩
  simp [valuesOf, Shape.read?, named_forwardKeyword, Shape.string]

theorem typedefFields_of_reads {name : String} {target : Declarator}
    (readTarget : declaratorWithin n (declaratorJson target) = .ok target) :
    (typedefFields (declaratorWithin n)).read
      (.object [("name", .string name), ("target", declaratorJson target)]) =
        .ok (.typedef name target) := by
  refine Fields.ofMembers_eq_ok.mpr ⟨⟨some name, some target⟩, (typedefFields_given _).mpr ?_, rfl⟩
  simp [valuesOf, Shape.read?, Shape.string, readTarget]

end

mutual

theorem declaratorJson_reads (d : Declarator) (n : Nat) (fits : d.Fits)
    (deep : (declaratorJson d).depth ≤ n) : declaratorWithin n (declaratorJson d) = .ok d := by
  cases n with
  | zero => cases d <;> exact absurd deep (Nat.not_succ_le_zero _)
  | succ n =>
    cases d with
    | fundamental spelling | named name =>
      exact bind_eq_ok.mpr ⟨_, taggedShape_kind rfl (by simp), rfl⟩
    | pointer pointee =>
      have read := declaratorJson_reads pointee n fits
        (by simpa [declaratorJson, kind, Json.depth, Json.membersDepth] using deep)
      refine bind_eq_ok.mpr ⟨_, taggedShape_kind rfl (by simp), ?_⟩
      exact map_eq_ok.mpr ⟨_, singleField_reads read, rfl⟩
    | array element count =>
      have read := declaratorJson_reads element n fits.1
        (by simpa [declaratorJson, kind, Json.depth, Json.membersDepth] using deep)
      refine bind_eq_ok.mpr ⟨_, taggedShape_kind rfl (by simp), ?_⟩
      exact arrayFields_of_reads read fits.2
    | record r =>
      have read := recordMembers_reads r n fits
        (by simpa [declaratorJson, kind, Json.depth, Json.membersDepth] using deep)
      refine bind_eq_ok.mpr ⟨_, taggedShape_kind rfl (recordMembers_noKind r), ?_⟩
      exact map_eq_ok.mpr ⟨_, read, rfl⟩
    | enum e =>
      refine bind_eq_ok.mpr ⟨_, taggedShape_kind rfl (enumMembers_noKind e), ?_⟩
      exact map_eq_ok.mpr ⟨_, enumMembers_reads e, rfl⟩

theorem recordMembers_reads (r : RecordDecl) (n : Nat) (fits : r.Fits)
    (deep : Json.membersDepth (recordMembers r) ≤ n) :
    (recordFields (declaratorWithin n) (declarationWithin n)).ofMembers (recordMembers r) =
      .ok r := by
  obtain ⟨tag, name, bases, members, functions, nested⟩ := r
  simp only [recordMembers, Json.membersDepth, Json.depth, Nat.max_le] at deep
  exact recordMembers_of_reads (memberList_reads members n fits.1 (by omega))
    (declarationList_reads nested n fits.2 (by omega))

theorem memberList_reads (xs : List MemberDecl) (n : Nat) (fits : MembersFit xs)
    (deep : Json.itemsDepth (memberList xs) ≤ n) :
    Shape.list (memberFields (declaratorWithin n)).read (.array (memberList xs)) = .ok xs := by
  cases xs with
  | nil => rfl
  | cons x xs =>
    obtain ⟨name, type, width⟩ := x
    obtain ⟨fitsType, fitsWidth, fitsRest⟩ := fits
    simp only [memberList, Json.itemsDepth, Json.membersDepth, Json.depth, Nat.max_le] at deep
    have readType := declaratorJson_reads type n fitsType (by omega)
    exact list_cons_reads (memberJson_of_reads readType fitsWidth)
      (memberList_reads xs n fitsRest deep.2)

theorem declarationJson_reads (d : Declaration) (n : Nat) (fits : d.Fits)
    (deep : (declarationJson d).depth ≤ n) : declarationWithin n (declarationJson d) = .ok d := by
  cases n with
  | zero => cases d <;> exact absurd deep (Nat.not_succ_le_zero _)
  | succ n =>
    cases d with
    | record r =>
      have read := recordMembers_reads r n fits
        (by simpa [declarationJson, kind, Json.depth, Json.membersDepth] using deep)
      refine bind_eq_ok.mpr ⟨_, taggedShape_kind rfl (recordMembers_noKind r), ?_⟩
      exact map_eq_ok.mpr ⟨_, read, rfl⟩
    | forward tag name =>
      exact bind_eq_ok.mpr ⟨_, taggedShape_kind rfl (by simp), forwardFields_reads tag name⟩
    | enum e =>
      refine bind_eq_ok.mpr ⟨_, taggedShape_kind rfl (enumMembers_noKind e), ?_⟩
      exact map_eq_ok.mpr ⟨_, enumMembers_reads e, rfl⟩
    | typedef name target =>
      have read := declaratorJson_reads target n fits
        (by simpa [declarationJson, kind, Json.depth, Json.membersDepth] using deep)
      exact bind_eq_ok.mpr ⟨_, taggedShape_kind rfl (by simp), typedefFields_of_reads read⟩

theorem declarationList_reads (ds : List Declaration) (n : Nat) (fits : DeclarationsFit ds)
    (deep : Json.itemsDepth (declarationList ds) ≤ n) :
    Shape.list (declarationWithin n) (.array (declarationList ds)) = .ok ds := by
  cases ds with
  | nil => rfl
  | cons d ds =>
    simp only [declarationList, Json.itemsDepth, Nat.max_le] at deep
    exact list_cons_reads (declarationJson_reads d n fits.1 deep.1)
      (declarationList_reads ds n fits.2 deep.2)

end

theorem hasStringKind_kind {name : String} {ms : List (String × Json)}
    (noKind : ∀ m ∈ ms, m.1 ≠ "kind") : hasStringKind (.object (kind name :: ms)) = true := by
  refine List.all_eq_true.mpr fun m mem => ?_
  cases mem with
  | head => rfl
  | tail _ mem => simp [noKind m mem]

theorem hasStringKind_declarationJson (d : Declaration) :
    hasStringKind (declarationJson d) = true := by
  cases d with
  | record r => exact hasStringKind_kind (recordMembers_noKind r)
  | enum e => exact hasStringKind_kind (enumMembers_noKind e)
  | forward tag name => exact hasStringKind_kind (by simp)
  | typedef name target => exact hasStringKind_kind (by simp)

theorem declaration?_declarationJson {d : Declaration} (fits : d.Fits) :
    declaration? (declarationJson d) = some d := by
  have read := declarationJson_reads d _ fits (Nat.le_refl _)
  rw [declaration?, if_pos (hasStringKind_declarationJson d), toOption_eq_some]
  exact declarationShape_eq_ok.mpr ⟨_, read⟩

theorem declarations?_declarationList {ds : List Declaration} (fits : DeclarationsFit ds) :
    declarations? Tree.value? (.ofJson (.array (declarationList ds))) = some ds := by
  change (Tree.ofItems (declarationList ds)).mapM (fun D => D.value?.bind declaration?) = some ds
  induction ds with
  | nil => rfl
  | cons d ds ih =>
    refine mapM_cons_eq_some.mpr ⟨d, ds, ?_, ih fits.2, rfl⟩
    rw [Tree.value?_ofJson (plain_declarationJson d fits.1), Option.bind_some,
      declaration?_declarationJson fits.1]

end Source

open Source

theorem SourceUnit.plain_json {u : SourceUnit} (fits : u.Fits) : Plain u.json := by
  simpa [SourceUnit.json] using plain_declarationList u.declarations fits

def SourceUnit.writtenMembers (u : SourceUnit) : List (Literal × Tree) :=
  Tree.ofMembers [("declarations", .array (declarationList u.declarations))]

theorem SourceUnit.written_text {u : SourceUnit} (fits : u.Fits) :
    (Tree.object u.writtenMembers).Written u.text :=
  Json.written_pretty (SourceUnit.plain_json fits)

theorem SourceUnit.depth_writtenMembers (u : SourceUnit) :
    (Tree.object u.writtenMembers).depth = u.json.depth := Tree.depth_ofJson u.json

theorem SourceUnit.gives_writtenMembers {u : SourceUnit} (fits : u.Fits) :
    Gives u.writtenMembers u.declarations :=
  ⟨_, (Tree.mapM_member?_cons (Literal.text?_ofString _)).mpr ⟨_, [], rfl, rfl, rfl⟩,
    .once (declarations?_declarationList fits)⟩

/-- What is written of a unit is read as that unit again. -/
theorem SourceUnit.parse_text {u : SourceUnit} (fits : u.Fits)
    (shallow : u.json.depth ≤ Json.maxDepth) : SourceUnit.parse u.text = .ok u :=
  SourceUnit.parse_of_gives (SourceUnit.written_text fits)
    (u.depth_writtenMembers.symm ▸ shallow) (SourceUnit.gives_writtenMembers fits)

namespace SourceUnit

def quotedName : String := "\"Node\"\n"

def quotedUnit : SourceUnit where
  declarations :=
    [.forward .classTag "Base",
     .record ⟨.structType, some "Node", [⟨"Base", true⟩],
        [⟨"next", .pointer (.named "Node"), none⟩, ⟨"flags", .fundamental "unsigned int", some 3⟩,
          ⟨"cells", .array (.record ⟨.unionType, none, [], [], [], []⟩) 4, none⟩],
        ["visit"], [.enum ⟨none, some "char"⟩]⟩,
     .typedef quotedName (.named "Node")]

theorem quotedUnit_reloads : quotedUnit.Fits ∧ quotedUnit.json.depth ≤ Json.maxDepth ∧
    parse quotedUnit.text = .ok quotedUnit := by
  have fits : quotedUnit.Fits := by
    simp [quotedUnit, Fits, DeclarationsFit, Declaration.Fits, RecordDecl.Fits, MembersFit,
      Declarator.Fits]
  have shallow : quotedUnit.json.depth ≤ Json.maxDepth := by decide
  exact ⟨fits, shallow, parse_text fits shallow⟩

end SourceUnit

end TypeLayout
