import Mathlib.Logic.Function.Basic
import TypeLayout.Registry.Basic
/-! Registries that differ in their ids. Under a renaming that keeps qualified names and carries
definitions over, types keep their names and their readings through typedefs. -/

namespace TypeLayout

variable {ρ : TypeId → TypeId}

mutual

def Descriptor.rename (ρ : TypeId → TypeId) : Descriptor → Descriptor
  | .fundamental kind => .fundamental kind
  | .pointer pointee => .pointer (pointee.rename ρ)
  | .array element count => .array (element.rename ρ) count
  | .enum e => .enum e
  | .aggregate a => .aggregate (a.rename ρ)
  | .named id => .named (ρ id)

def Aggregate.rename (ρ : TypeId → TypeId) : Aggregate → Aggregate
  | ⟨kind, name, members, bases, functions⟩ =>
    ⟨kind, name, renameMembers ρ members, renameBases ρ bases, functions⟩

def Member.rename (ρ : TypeId → TypeId) : Member → Member
  | ⟨name, type, width⟩ => ⟨name, type.rename ρ, width⟩

def BaseSpec.rename (ρ : TypeId → TypeId) : BaseSpec → BaseSpec
  | ⟨type, isVirtual⟩ => ⟨type.rename ρ, isVirtual⟩

def renameMembers (ρ : TypeId → TypeId) : List Member → List Member
  | [] => []
  | x :: xs => x.rename ρ :: renameMembers ρ xs

def renameBases (ρ : TypeId → TypeId) : List BaseSpec → List BaseSpec
  | [] => []
  | b :: bs => b.rename ρ :: renameBases ρ bs

end

def Definition.rename (ρ : TypeId → TypeId) : Definition → Definition
  | .aggregate body => .aggregate (body.rename ρ)
  | .enum type => .enum type
  | .typedef target => .typedef (target.rename ρ)

@[simp] theorem Aggregate.kind_rename (a : Aggregate) : (a.rename ρ).kind = a.kind := by
  cases a
  rfl

@[simp] theorem Aggregate.members_rename (a : Aggregate) :
    (a.rename ρ).members = renameMembers ρ a.members := by
  cases a
  rfl

@[simp] theorem Aggregate.bases_rename (a : Aggregate) :
    (a.rename ρ).bases = renameBases ρ a.bases := by
  cases a
  rfl

@[simp] theorem Aggregate.declaresVirtual_rename (a : Aggregate) :
    (a.rename ρ).declaresVirtual = a.declaresVirtual := by
  cases a
  rfl

@[simp] theorem Aggregate.displayName_rename (a : Aggregate) :
    (a.rename ρ).displayName = a.displayName := by
  cases a
  rfl

@[simp] theorem Member.name_rename (x : Member) : (x.rename ρ).name = x.name := by
  cases x
  rfl

@[simp] theorem Member.type_rename (x : Member) : (x.rename ρ).type = x.type.rename ρ := by
  cases x
  rfl

@[simp] theorem Member.bitWidth_rename (x : Member) : (x.rename ρ).bitWidth = x.bitWidth := by
  cases x
  rfl

@[simp] theorem BaseSpec.type_rename (b : BaseSpec) : (b.rename ρ).type = b.type.rename ρ := by
  cases b
  rfl

@[simp] theorem BaseSpec.isVirtual_rename (b : BaseSpec) :
    (b.rename ρ).isVirtual = b.isVirtual := by
  cases b
  rfl

theorem all_isSeparator_rename (xs : List Member) :
    (renameMembers ρ xs).all (·.isSeparator) = xs.all (·.isSeparator) := by
  induction xs with
  | nil => rfl
  | cons x xs ih => rw [renameMembers, List.all_cons, List.all_cons, ih, Member.isSeparator,
      Member.bitWidth_rename, Member.isSeparator]

namespace Registry

/-- Two registries that `ρ` leads between. The second may word the error of an incomplete type
otherwise, as far as `E` allows. -/
structure Twins (E : LayoutError → LayoutError → Prop) (ρ : TypeId → TypeId) (r r' : Registry) :
    Prop where
  injective : Function.Injective ρ
  size_eq : r'.size = r.size
  definition?_eq : ∀ id, r'.definition? (ρ id) = (r.definition? id).map (·.rename ρ)
  qualifiedName_eq : ∀ id, r'.qualifiedName (ρ id) = r.qualifiedName id
  reflexive : ∀ e, E e e
  inMember : ∀ {e e'} (name : String), E e e' → E (e.inMember name) (e'.inMember name)
  incomplete : ∀ {id}, r.definition? id = none →
    E (.incompleteType (r.displayName id) none) (.incompleteType (r'.displayName (ρ id)) none)

variable {E : LayoutError → LayoutError → Prop} {r r' : Registry}

namespace Twins

variable (h : Twins E ρ r r')
include h

theorem typeName_rename (d : Descriptor) : r'.typeName (d.rename ρ) = r.typeName d := by
  unfold typeName
  generalize "" = dims
  fun_induction typeNameWith r d dims with
  | case1 element count dims ih =>
    rw [← ih]
    rfl
  | case2 pointee dims ih =>
    rw [← ih]
    rfl
  | case7 id dims =>
    rw [← h.qualifiedName_eq]
    rfl
  | case6 body dims =>
    rw [← body.displayName_rename]
    rfl
  | _ => rfl

theorem strip_rename (d : Descriptor) : r'.strip (d.rename ρ) = (r.strip d).rename ρ := by
  unfold strip
  rw [h.size_eq]
  generalize r.size = n
  induction n generalizing d with
  | zero => rfl
  | succ n ih =>
    cases d with
    | named id =>
      simp only [Descriptor.rename, stripFrom, h.definition?_eq]
      cases r.definition? id with
      | none => rfl
      | some d =>
        cases d with
        | typedef target => exact ih target
        | _ => rfl
    | _ => rfl

end Twins

end Registry

end TypeLayout
