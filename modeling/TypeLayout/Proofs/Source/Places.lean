import TypeLayout.Proofs.Source.Format
/-! Where records of the unit format stand and what is read there. A declaration or a declarator is
a record of one of several roles, which its kind says; the fields of some roles are places again. -/

namespace TypeLayout.Source

open Json (Shape Given Change valuesOf)
open Json.Shape (Fields)

inductive Place
  | declaration | declarator | member | base
  | list (item : Place)
deriving DecidableEq

inductive Role
  | member | base | record | enum | forward | typedef
  | fundamental | named | pointer | array
deriving DecidableEq

def DeclarationKind.role : DeclarationKind → Role
  | record => .record
  | forward => .forward
  | enum => .enum
  | typedef => .typedef

def DeclaratorKind.role : DeclaratorKind → Role
  | fundamental => .fundamental
  | named => .named
  | pointer => .pointer
  | array => .array
  | record => .record
  | enum => .enum

namespace Place

def Content : Place → Type
  | declaration => Declaration
  | declarator => Declarator
  | member => MemberDecl
  | base => BaseDecl
  | list p => List p.Content

def shape (n : Nat) : (p : Place) → Shape p.Content
  | declaration => declarationWithin n
  | declarator => declaratorWithin n
  | member => (memberFields (declaratorWithin n)).read
  | base => baseFields.read
  | list p => Shape.list (p.shape n)

end Place

namespace Role

def names : Role → List String
  | member => ["name", "ty", "bit_width"]
  | base => ["name", "is_virtual"]
  | record => ["tag", "name", "bases", "members", "virtual_functions", "nested"]
  | enum => ["name", "underlying"]
  | forward => ["tag", "name"]
  | typedef => ["name", "target"]
  | fundamental => ["spelling"]
  | named => ["name"]
  | pointer => ["pointee"]
  | array => ["element", "count"]

def place : Role → String → Option Place
  | member, "ty" => some .declarator
  | record, "bases" => some (.list .base)
  | record, "members" => some (.list .member)
  | record, "nested" => some (.list .declaration)
  | typedef, "target" => some .declarator
  | pointer, "pointee" => some .declarator
  | array, "element" => some .declarator
  | _, _ => none

def default : Role → String → Option Json
  | member, "bit_width" => some .null
  | base, "is_virtual" => some (.bool false)
  | record, "name" => some .null
  | record, "bases" => some (.array [])
  | record, "members" => some (.array [])
  | record, "virtual_functions" => some (.array [])
  | record, "nested" => some (.array [])
  | enum, "name" => some .null
  | enum, "underlying" => some .null
  | _, _ => none

def State : Role → Type
  | member => MemberFields
  | base => BaseFields
  | record => RecordFields
  | enum => EnumFields
  | forward => ForwardFields
  | typedef => TypedefFields
  | fundamental | named => Option String
  | pointer => Option Declarator
  | array => ArrayFields

def Made : Role → Type
  | member => MemberDecl
  | base => BaseDecl
  | record => RecordDecl
  | enum => EnumDecl
  | forward | typedef => Declaration
  | fundamental | named => String
  | pointer | array => Declarator

def fields (n : Nat) : (r : Role) → Fields r.State r.Made
  | member => memberFields (declaratorWithin n)
  | base => baseFields
  | record => recordFields (declaratorWithin n) (declarationWithin n)
  | enum => enumFields
  | forward => forwardFields
  | typedef => typedefFields (declaratorWithin n)
  | fundamental => singleField "struct variant Declarator::Fundamental" "spelling" Shape.string
  | named => singleField "struct variant Declarator::Named" "name" Shape.string
  | pointer => singleField "struct variant Declarator::Pointer" "pointee" (declaratorWithin n)
  | array => arrayFields (declaratorWithin n)

theorem names_eq (n : Nat) (r : Role) : (r.fields n).names = r.names := by
  cases r <;> rfl

theorem needed_eq (n m : Nat) (r : Role) : (r.fields n).needed = (r.fields m).needed := by
  cases r <;> rfl

def Replaces (r : Role) (n m : Nat) (name : String) (v v' : Json) : Prop :=
  ∃ p, r.place name = some p ∧ ∀ a, p.shape n v = .ok a → p.shape m v' = .ok a

structure Alike (r : Role) (n m : Nat) (vs vs' : List (String × Json)) : Prop where
  stay : ∀ name p, r.place name = some p → ∀ v ∈ valuesOf name vs,
    ∀ a, p.shape n v = .ok a → p.shape m v = .ok a
  change : ∀ name ∈ r.names,
    Change (r.Replaces n m name) (r.default name) (valuesOf name vs) (valuesOf name vs')

namespace Alike

variable {r : Role} {n m : Nat} {vs vs' : List (String × Json)}
  (alike : r.Alike n m vs vs') (name : String) (mem : name ∈ r.names)
include alike mem

section

variable {β : Type} {shape : Shape β} {s : Option β} (noPlace : r.place name = none)
  (given : Given shape.read? (valuesOf name vs) s)
include noPlace given

theorem fixed (needed : r.default name = none) : Given shape.read? (valuesOf name vs') s := by
  refine given.change (fun _ _ _ h => h) ?_ (needed ▸ alike.change name mem)
  rintro v v' ⟨p, place, -⟩
  rw [noPlace] at place
  cases place

theorem fixed_default {d : Json} {b : β} (default : r.default name = some d)
    (stands : shape d = .ok b) :
    ∃ s', Given shape.read? (valuesOf name vs') s' ∧ s'.getD b = s.getD b := by
  refine given.change_default (fun _ _ _ h => h) ?_ (toOption_eq_some.mpr stands)
    (toOption_eq_some.mpr stands) (default ▸ alike.change name mem)
  rintro v v' ⟨p, place, -⟩
  rw [noPlace] at place
  cases place

end

section

variable (p : Place) {s : Option p.Content} (place : r.place name = some p)
  (given : Given (p.shape n).read? (valuesOf name vs) s)
include place given

theorem placed (needed : r.default name = none) :
    Given (p.shape m).read? (valuesOf name vs') s := by
  refine given.change ?_ ?_ (needed ▸ alike.change name mem)
  · intro v mem a read
    exact toOption_eq_some.mpr (alike.stay name p place v mem a (toOption_eq_some.mp read))
  · rintro v v' ⟨q, place', keep⟩ a read
    rw [place] at place'
    cases place'
    exact toOption_eq_some.mpr (keep a (toOption_eq_some.mp read))

theorem placed_default {d : Json} {b : p.Content} (default : r.default name = some d)
    (stands : ∀ n, p.shape n d = .ok b) :
    ∃ s', Given (p.shape m).read? (valuesOf name vs') s' ∧ s'.getD b = s.getD b := by
  refine given.change_default ?_ ?_ (toOption_eq_some.mpr (stands n))
    (toOption_eq_some.mpr (stands m)) (default ▸ alike.change name mem)
  · intro v mem a read
    exact toOption_eq_some.mpr (alike.stay name p place v mem a (toOption_eq_some.mp read))
  · rintro v v' ⟨q, place', keep⟩ a read
    rw [place] at place'
    cases place'
    exact toOption_eq_some.mpr (keep a (toOption_eq_some.mp read))

end

end Alike

theorem recordFields_finish (declarator : Shape Declarator) (declaration : Shape Declaration)
    (s s' : RecordFields) (tag : s.tag = s'.tag) (name : s.name.getD none = s'.name.getD none)
    (bases : s.bases.getD [] = s'.bases.getD []) (members : s.members.getD [] = s'.members.getD [])
    (functions : s.virtualFunctions.getD [] = s'.virtualFunctions.getD [])
    (nested : s.nested.getD [] = s'.nested.getD []) :
    (recordFields declarator declaration).finish s =
      (recordFields declarator declaration).finish s' := by
  simp only [recordFields, tag, name, bases, members, functions, nested]

theorem ofMembers_alike {r : Role} {n m : Nat} {vs vs' : List (String × Json)}
    (alike : r.Alike n m vs vs') {a : r.Made} (h : (r.fields n).ofMembers vs = .ok a) :
    (r.fields m).ofMembers vs' = .ok a := by
  obtain ⟨s, filled, made⟩ := Fields.ofMembers_eq_ok.mp h
  refine Fields.ofMembers_eq_ok.mpr ?_
  cases r with
  | member =>
    obtain ⟨name, type, width⟩ := (memberFields_given _).mp filled
    have name := alike.fixed "name" (by decide) rfl name rfl
    have type := alike.placed "ty" (by decide) .declarator rfl type rfl
    obtain ⟨width', width, same⟩ := alike.fixed_default "bit_width" (by decide) rfl width rfl rfl
    refine ⟨⟨s.name, s.type, width'⟩, (memberFields_given _).mpr ⟨name, type, width⟩, ?_⟩
    rw [← made]
    simp only [fields, memberFields, same]
    rfl
  | base =>
    obtain ⟨name, isVirtual⟩ := baseFields_given.mp filled
    have name := alike.fixed "name" (by decide) rfl name rfl
    obtain ⟨isVirtual', isVirtual, same⟩ :=
      alike.fixed_default "is_virtual" (by decide) rfl isVirtual rfl rfl
    refine ⟨⟨s.name, isVirtual'⟩, baseFields_given.mpr ⟨name, isVirtual⟩, ?_⟩
    rw [← made]
    simp only [fields, baseFields, same]
    rfl
  | record =>
    obtain ⟨tag, name, bases, members, functions, nested⟩ := (recordFields_given _ _).mp filled
    have tag := alike.fixed "tag" (by decide) rfl tag rfl
    obtain ⟨name', name, sameName⟩ := alike.fixed_default "name" (by decide) rfl name rfl rfl
    obtain ⟨bases', bases, sameBases⟩ :=
      alike.placed_default "bases" (by decide) (.list .base) rfl bases rfl fun _ => rfl
    obtain ⟨members', members, sameMembers⟩ :=
      alike.placed_default "members" (by decide) (.list .member) rfl members rfl fun _ => rfl
    obtain ⟨functions', functions, sameFunctions⟩ :=
      alike.fixed_default "virtual_functions" (by decide) rfl functions rfl rfl
    obtain ⟨nested', nested, sameNested⟩ :=
      alike.placed_default "nested" (by decide) (.list .declaration) rfl nested rfl fun _ => rfl
    let s' : RecordFields := ⟨s.tag, name', bases', members', functions', nested'⟩
    have same := recordFields_finish (declaratorWithin n) (declarationWithin n) s' s rfl sameName
      sameBases sameMembers sameFunctions sameNested
    exact ⟨s', (recordFields_given _ _).mpr ⟨tag, name, bases, members, functions, nested⟩,
      same.trans made⟩
  | enum =>
    obtain ⟨name, underlying⟩ := enumFields_given.mp filled
    obtain ⟨name', name, sameName⟩ := alike.fixed_default "name" (by decide) rfl name rfl rfl
    obtain ⟨underlying', underlying, sameUnderlying⟩ :=
      alike.fixed_default "underlying" (by decide) rfl underlying rfl rfl
    refine ⟨⟨name', underlying'⟩, enumFields_given.mpr ⟨name, underlying⟩, ?_⟩
    rw [← made]
    simp only [fields, enumFields, sameName, sameUnderlying]
    rfl
  | forward =>
    obtain ⟨tag, name⟩ := forwardFields_given.mp filled
    have tag := alike.fixed "tag" (by decide) rfl tag rfl
    have name := alike.fixed "name" (by decide) rfl name rfl
    exact ⟨s, forwardFields_given.mpr ⟨tag, name⟩, made⟩
  | typedef =>
    obtain ⟨name, target⟩ := (typedefFields_given _).mp filled
    have name := alike.fixed "name" (by decide) rfl name rfl
    have target := alike.placed "target" (by decide) .declarator rfl target rfl
    exact ⟨s, (typedefFields_given _).mpr ⟨name, target⟩, made⟩
  | fundamental =>
    have spelling := alike.fixed "spelling" (by decide) rfl ((singleField_given ..).mp filled) rfl
    exact ⟨s, (singleField_given ..).mpr spelling, made⟩
  | named =>
    have name := alike.fixed "name" (by decide) rfl ((singleField_given ..).mp filled) rfl
    exact ⟨s, (singleField_given ..).mpr name, made⟩
  | pointer =>
    have pointee := alike.placed "pointee" (by decide) .declarator rfl
      ((singleField_given ..).mp filled) rfl
    exact ⟨s, (singleField_given ..).mpr pointee, made⟩
  | array =>
    obtain ⟨element, count⟩ := (arrayFields_given _).mp filled
    have element := alike.placed "element" (by decide) .declarator rfl element rfl
    have count := alike.fixed "count" (by decide) rfl count rfl
    exact ⟨s, (arrayFields_given _).mpr ⟨element, count⟩, made⟩

end Role

end TypeLayout.Source
