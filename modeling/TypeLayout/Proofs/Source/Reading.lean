import TypeLayout.Proofs.Registry.Renaming
import TypeLayout.Proofs.Source.Sites
/-! Declarations read without a second pass. In a registry that has every tag of a unit already, the
meaning of a declarator is a matter of looking names up; nothing is declared, completed or set
aside. -/

namespace TypeLayout

open Registry

def Declaration.hasBody : Declaration → Bool
  | .record _ | .enum _ => true
  | _ => false

structure Names where
  find : ScopeId → String → Except LayoutError TypeId
  tag : ScopeId → String → Option TypeId

def Registry.names (r : Registry) : Names := ⟨r.find, r.boundTag?⟩

namespace Names

def readName (f : Names) (s : ScopeId) (name : String) : Except LayoutError Descriptor :=
  match f.find s name with
  | .ok id => .ok (.named id)
  | .error e =>
    match Fundamental.ofSpelling? name with
    | some kind => .ok (.fundamental kind)
    | none => .error e

def readTag (f : Names) (s : ScopeId) (name : String) : Except LayoutError Descriptor :=
  match f.tag s name with
  | some id => .ok (.named id)
  | none => .error (unknown name)

def readBases (f : Names) (s : ScopeId) : List BaseDecl → Except LayoutError (List BaseSpec)
  | [] => .ok []
  | b :: bs => do
    let id ← f.find s b.name
    return ⟨.named id, b.isVirtual⟩ :: (← f.readBases s bs)

def readEnum (f : Names) (s : ScopeId) (e : EnumDecl) : Except LayoutError Descriptor :=
  match e.name with
  | some name => f.readTag s name
  | none => e.type.map .enum

mutual

def readDeclarator (f : Names) (s : ScopeId) : Declarator → Except LayoutError Descriptor
  | .fundamental spelling =>
    match Fundamental.ofSpelling? spelling with
    | some kind => .ok (.fundamental kind)
    | none => .error (.unknownType spelling)
  | .named name => f.readName s name
  | .pointer pointee => (f.readDeclarator s pointee).map .pointer
  | .array element count => (f.readDeclarator s element).map (.array · count)
  | .record r =>
    match r.name with
    | some name => f.readTag s name
    | none => (f.readBody s s r).map .aggregate
  | .enum e => f.readEnum s e

/-- The body of a record around which names are looked up in `s`, and inside which in `t`. -/
def readBody (f : Names) (s t : ScopeId) : RecordDecl → Except LayoutError Aggregate
  | ⟨tag, name, bases, members, functions, _⟩ => do
    let specs ← f.readBases s bases
    let xs ← f.readMembers t members
    return ⟨tag, name, xs, specs, functions⟩

def readMembers (f : Names) (s : ScopeId) : List MemberDecl → Except LayoutError (List Member)
  | [] => .ok []
  | ⟨name, type, width⟩ :: xs => do
    let d ← f.readDeclarator s type
    return ⟨name, d, width⟩ :: (← f.readMembers s xs)

end

variable {ρ : TypeId → TypeId} {f f' : Names} {s s' t t' : ScopeId}

structure Follows (ρ : TypeId → TypeId) (f f' : Names) (s s' : ScopeId) : Prop where
  find : ∀ name, f'.find s' name = (f.find s name).map ρ
  tag : ∀ name, f'.tag s' name = (f.tag s name).map ρ

namespace Follows

variable (h : Follows ρ f f' s s')
include h

theorem readName (name : String) :
    f'.readName s' name = (f.readName s name).map (·.rename ρ) := by
  unfold Names.readName
  rw [h.find]
  cases f.find s name with
  | ok id => rfl
  | error e =>
    dsimp only [Except.map]
    cases Fundamental.ofSpelling? name <;> rfl

theorem readTag (name : String) : f'.readTag s' name = (f.readTag s name).map (·.rename ρ) := by
  unfold Names.readTag
  rw [h.tag]
  cases f.tag s name <;> rfl

theorem readBases (bs : List BaseDecl) :
    f'.readBases s' bs = (f.readBases s bs).map (renameBases ρ) := by
  induction bs with
  | nil => rfl
  | cons b bs ih =>
    simp only [Names.readBases, h.find, ih]
    cases f.find s b.name with
    | error e => rfl
    | ok id => cases f.readBases s bs <;> rfl

theorem readEnum (e : EnumDecl) : f'.readEnum s' e = (f.readEnum s e).map (·.rename ρ) := by
  unfold Names.readEnum
  cases e.name with
  | some name => exact h.readTag name
  | none => cases e.type <;> rfl

end Follows

mutual

theorem readDeclarator_rename (d : Declarator) {s s' : ScopeId} (h : Follows ρ f f' s s') :
    f'.readDeclarator s' d = (f.readDeclarator s d).map (·.rename ρ) := by
  cases d with
  | fundamental spelling =>
    unfold readDeclarator
    cases Fundamental.ofSpelling? spelling <;> rfl
  | named name => exact h.readName name
  | pointer pointee =>
    simp only [readDeclarator, readDeclarator_rename pointee h]
    cases f.readDeclarator s pointee <;> rfl
  | array element count =>
    simp only [readDeclarator, readDeclarator_rename element h]
    cases f.readDeclarator s element <;> rfl
  | record r =>
    unfold readDeclarator
    cases r.name with
    | some name => exact h.readTag name
    | none =>
      simp only [readBody_rename r h h]
      cases f.readBody s s r <;> rfl
  | enum e => exact h.readEnum e

theorem readBody_rename (r : RecordDecl) {s s' t t' : ScopeId} (h : Follows ρ f f' s s')
    (ht : Follows ρ f f' t t') : f'.readBody s' t' r = (f.readBody s t r).map (·.rename ρ) := by
  obtain ⟨tag, name, bases, members, functions, nested⟩ := r
  simp only [readBody, h.readBases, readMembers_rename members ht]
  cases f.readBases s bases with
  | error e => rfl
  | ok specs => cases f.readMembers t members <;> rfl

theorem readMembers_rename (xs : List MemberDecl) {s s' : ScopeId} (h : Follows ρ f f' s s') :
    f'.readMembers s' xs = (f.readMembers s xs).map (renameMembers ρ) := by
  cases xs with
  | nil => rfl
  | cons x xs =>
    obtain ⟨name, type, width⟩ := x
    simp only [readMembers, readDeclarator_rename type h, readMembers_rename xs h]
    cases f.readDeclarator s type with
    | error e => rfl
    | ok d => cases f.readMembers s xs <;> rfl

end

end Names

namespace Registry

variable {r r' : Registry} {s : ScopeId} {name : String}

theorem FillsTo.names_eq (h : r.FillsTo r') : r'.names = r.names := by
  unfold names
  rw [h.find_eq, h.boundTag?_eq]

/-- What a declaration with a body defines at the end of its route. -/
inductive Reads (r : Registry) : List String → Declaration → Definition → Prop
  | record {n : String} {p : List String} {s t : ScopeId} {decl : RecordDecl} {body : Aggregate} :
    r.scopeAt p = some s → r.scopeAt (n :: p) = some t → r.names.readBody s t decl = .ok body →
    Reads r (n :: p) (.record decl) (.aggregate body)
  | enum {q : List String} {e : EnumDecl} {type : EnumType} : e.type = .ok type →
    Reads r q (.enum e) (.enum type)

theorem Reads.hasBody {q : List String} {d : Declaration} {x : Definition} (h : r.Reads q d x) :
    d.hasBody = true := by
  cases h <;> rfl

theorem Reads.fillsTo {q : List String} {d : Declaration} {x : Definition} (h : r.Reads q d x)
    (hf : r.FillsTo r') : r'.Reads q d x := by
  cases h with
  | record hs ht hbody =>
    refine .record ?_ ?_ (hf.names_eq ▸ hbody)
    · rw [hf.scopeAt_eq]
      exact hs
    · rw [hf.scopeAt_eq]
      exact ht
  | enum ht => exact .enum ht

end Registry

end TypeLayout
