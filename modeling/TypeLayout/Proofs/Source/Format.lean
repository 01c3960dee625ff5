import TypeLayout.Proofs.Json.Fields
import TypeLayout.Source.Decode
/-! The records of the unit format. What a record is made of depends on what is given under its
names alone, so it may be told for all records at once how much of a value matters to them. -/

namespace TypeLayout.Source

open Json (Shape Given valuesOf slot both foldlM_both foldlM_slot)
open Json.Shape (Fields string bool word32 word64 option list choice)

/-! The fields of each record. -/

section

variable (declarator : Shape Declarator) (declaration : Shape Declaration)
  {ms : List (String × Json)}

theorem memberFields_given {s : MemberFields} :
    ms.foldlM (memberFields declarator).add {} = some s ↔
      Given string.read? (valuesOf "name" ms) s.name ∧
      Given declarator.read? (valuesOf "ty" ms) s.type ∧
      Given (option word32).read? (valuesOf "bit_width" ms) s.bitWidth := by
  rw [Fields.foldlM_add (g := both (slot string.read? "name")
      (both (slot declarator.read? "ty") (slot (option word32).read? "bit_width")))
    (fun s => (s.name, s.type, s.bitWidth)) (by rintro ⟨⟩ ⟨⟩ ⟨⟩; rfl)]
  · simp only [foldlM_both, foldlM_slot]
  · intro s key j
    simp only [memberFields]
    split <;> simp_all <;> rfl

theorem baseFields_given {s : BaseFields} :
    ms.foldlM baseFields.add {} = some s ↔
      Given string.read? (valuesOf "name" ms) s.name ∧
      Given bool.read? (valuesOf "is_virtual" ms) s.isVirtual :=
  Fields.given_both (fun s : BaseFields => (s.name, s.isVirtual)) (by rintro ⟨⟩ ⟨⟩ ⟨⟩; rfl) rfl
    fun s key j => by
      simp only [baseFields]
      split <;> simp_all <;> rfl

theorem enumFields_given {s : EnumFields} :
    ms.foldlM enumFields.add {} = some s ↔
      Given (option string).read? (valuesOf "name" ms) s.name ∧
      Given (option string).read? (valuesOf "underlying" ms) s.underlying :=
  Fields.given_both (fun s : EnumFields => (s.name, s.underlying)) (by rintro ⟨⟩ ⟨⟩ ⟨⟩; rfl) rfl
    fun s key j => by
      simp only [enumFields]
      split <;> simp_all <;> rfl

theorem recordFields_given {s : RecordFields} :
    ms.foldlM (recordFields declarator declaration).add {} = some s ↔
      Given (choice aggregateTags).read? (valuesOf "tag" ms) s.tag ∧
      Given (option string).read? (valuesOf "name" ms) s.name ∧
      Given (list baseFields.read).read? (valuesOf "bases" ms) s.bases ∧
      Given (list (memberFields declarator).read).read? (valuesOf "members" ms) s.members ∧
      Given (list string).read? (valuesOf "virtual_functions" ms) s.virtualFunctions ∧
      Given (list declaration).read? (valuesOf "nested" ms) s.nested := by
  rw [Fields.foldlM_add (g := both (slot (choice aggregateTags).read? "tag")
      (both (slot (option string).read? "name")
      (both (slot (list baseFields.read).read? "bases")
      (both (slot (list (memberFields declarator).read).read? "members")
      (both (slot (list string).read? "virtual_functions")
        (slot (list declaration).read? "nested"))))))
    (fun s => (s.tag, s.name, s.bases, s.members, s.virtualFunctions, s.nested))
    (by rintro ⟨⟩ ⟨⟩ ⟨⟩; rfl)]
  · simp only [foldlM_both, foldlM_slot]
  · intro s key j
    simp only [recordFields]
    split <;> simp_all <;> rfl

theorem forwardFields_given {s : ForwardFields} :
    ms.foldlM forwardFields.add {} = some s ↔
      Given (choice forwardTags).read? (valuesOf "tag" ms) s.tag ∧
      Given string.read? (valuesOf "name" ms) s.name :=
  Fields.given_both (fun s : ForwardFields => (s.tag, s.name)) (by rintro ⟨⟩ ⟨⟩ ⟨⟩; rfl) rfl
    fun s key j => by
      simp only [forwardFields]
      split <;> simp_all <;> rfl

theorem typedefFields_given {s : TypedefFields} :
    ms.foldlM (typedefFields declarator).add {} = some s ↔
      Given string.read? (valuesOf "name" ms) s.name ∧
      Given declarator.read? (valuesOf "target" ms) s.target :=
  Fields.given_both (fun s : TypedefFields => (s.name, s.target)) (by rintro ⟨⟩ ⟨⟩ ⟨⟩; rfl) rfl
    fun s key j => by
      simp only [typedefFields]
      split <;> simp_all <;> rfl

theorem arrayFields_given {s : ArrayFields} :
    ms.foldlM (arrayFields declarator).add {} = some s ↔
      Given declarator.read? (valuesOf "element" ms) s.element ∧
      Given word64.read? (valuesOf "count" ms) s.count :=
  Fields.given_both (fun s : ArrayFields => (s.element, s.count)) (by rintro ⟨⟩ ⟨⟩ ⟨⟩; rfl) rfl
    fun s key j => by
      simp only [arrayFields]
      split <;> simp_all <;> rfl

theorem singleField_given {α : Type} (expected name : String) (shape : Shape α) {s : Option α} :
    ms.foldlM (singleField expected name shape).add none = some s ↔
      Given shape.read? (valuesOf name ms) s := by
  have step : (singleField expected name shape).add = slot shape.read? name := by
    funext s ⟨key, j⟩
    by_cases named : key = name
    · subst named
      simp [Fields.add, singleField]
    · simp [Fields.add, singleField, named, Except.toOption]
  rw [step, foldlM_slot]

end

end TypeLayout.Source
