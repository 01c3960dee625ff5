import TypeLayout.Proofs.Registry.Catalogue
import TypeLayout.Proofs.Source.Sites
/-! What a unit defines, wherever it stands: in a body, behind pointers and arrays, or in the target
of a typedef. A registry keeps such a declaration if its name is bound in the scope around it, to a
definition that says what the declaration says. -/

namespace TypeLayout

open Registry

structure Occurrence where
  around : List String
  declaration : Declaration

mutual

def Declaration.occurrences (p : List String) : Declaration → List Occurrence
  | .record r => r.occurrences p
  | .forward _ _ => []
  | .enum e => [⟨p, .enum e⟩]
  | .typedef name target => target.occurrences p ++ [⟨p, .typedef name target⟩]

def RecordDecl.occurrences (p : List String) : RecordDecl → List Occurrence
  | ⟨tag, name, bases, members, functions, nested⟩ =>
    occurrencesAll (insideOf p name) nested ++ occurrencesOfMembers (insideOf p name) members ++
      [⟨p, .record ⟨tag, name, bases, members, functions, nested⟩⟩]

def Declarator.occurrences (p : List String) : Declarator → List Occurrence
  | .record r => r.occurrences p
  | .enum e => [⟨p, .enum e⟩]
  | .pointer pointee => pointee.occurrences p
  | .array element _ => element.occurrences p
  | _ => []

def occurrencesAll (p : List String) : List Declaration → List Occurrence
  | [] => []
  | d :: ds => d.occurrences p ++ occurrencesAll p ds

def occurrencesOfMembers (p : List String) : List MemberDecl → List Occurrence
  | [] => []
  | ⟨_, type, _⟩ :: xs => type.occurrences p ++ occurrencesOfMembers p xs

end

def Declaration.space : Declaration → NameSpace
  | .typedef _ _ => .typedefs
  | _ => .tags

def MemberDecl.outline (x : MemberDecl) : String × Option Nat := (x.name, x.bitWidth)

def Member.outline (x : Member) : String × Option Nat := (x.name, x.bitWidth)

namespace Registry

/-- A registry between the end of the first pass and the end of the second, in which an entry is not
complete yet. -/
structure Moment (first last : Registry) (id : TypeId) (r : Registry) : Prop where
  after : first.GrowsTo r
  before : r.GrowsTo last
  incomplete : r.definition? id = none

/-- The body of a record says what its declaration says. Its bases are what their names led to
around the record when it was being defined. -/
structure Copies (first last : Registry) (s : ScopeId) (id : TypeId) (decl : RecordDecl)
    (a : Aggregate) : Prop where
  kind : a.kind = decl.tag
  name : a.name = decl.name
  members : a.members.map Member.outline = decl.members.map MemberDecl.outline
  virtualFunctions : a.virtualFunctions = decl.virtualFunctions
  virtualBases : a.bases.map BaseSpec.isVirtual = decl.bases.map BaseDecl.isVirtual
  bases : ∃ r, Moment first last id r ∧
    List.Forall₂ (fun b spec => r.resolveBase s b = .ok spec) decl.bases a.bases

inductive Renders (first last : Registry) (s : ScopeId) (id : TypeId) :
    Declaration → Definition → Prop
  | record {decl : RecordDecl} {a : Aggregate} : Copies first last s id decl a →
    Renders first last s id (.record decl) (.aggregate a)
  | enum {e : EnumDecl} {type : EnumType} : e.type = .ok type →
    Renders first last s id (.enum e) (.enum type)
  | typedef {name : String} {target : Declarator} {type : Descriptor} :
    Renders first last s id (.typedef name target) (.typedef type)

/-- A declaration that has a name is bound where it stands, and complete. -/
def Keeps (first r : Registry) (x : Occurrence) : Prop :=
  ∀ n, x.declaration.name? = some n → ∃ s id d, r.scopeAt x.around = some s ∧
    r.named? s x.declaration.space n = some id ∧ r.definition? id = some d ∧
    Renders first r s id x.declaration d

structure Retains (first : Registry) (xs : List Occurrence) (r r' : Registry) : Prop
    extends GrowsTo r r' where
  keeps : ∀ x ∈ xs, Keeps first r' x

variable {first r r' r'' : Registry} {s : ScopeId} {name : String} {id : TypeId}
  {p : List String} {d : Definition} {x : Declaration} {xs ys : List Occurrence}

theorem Moment.growsTo {moment : Registry} (h : Moment first r id moment) (hg : r.GrowsTo r') :
    Moment first r' id moment :=
  ⟨h.after, h.before.trans hg, h.incomplete⟩

theorem Renders.growsTo (h : Renders first r s id x d) (hg : r.GrowsTo r') :
    Renders first r' s id x d := by
  cases h with
  | record h =>
    obtain ⟨moment, hmoment, hbases⟩ := h.bases
    exact .record { h with bases := ⟨moment, hmoment.growsTo hg, hbases⟩ }
  | enum ht => exact .enum ht
  | typedef => exact .typedef

theorem Keeps.growsTo {x : Occurrence} (h : Keeps first r x) (hg : r.GrowsTo r') :
    Keeps first r' x := by
  intro n hn
  obtain ⟨s, id, d, hs, hbound, hd, hrenders⟩ := h n hn
  exact ⟨s, id, d, hg.scopeAt hs, hg.named? hbound, hg.definition? hd, hrenders.growsTo hg⟩

theorem GrowsTo.retains_nil (h : r.GrowsTo r') : Retains first [] r r' :=
  ⟨h, fun _ hx => by cases hx⟩

theorem Retains.trans (h : Retains first xs r r') (h' : Retains first ys r' r'') :
    Retains first (xs ++ ys) r r'' where
  toGrowsTo := h.toGrowsTo.trans h'.toGrowsTo
  keeps x hx := by
    rcases List.mem_append.mp hx with hx | hx
    · exact (h.keeps x hx).growsTo h'.toGrowsTo
    · exact h'.keeps x hx

theorem retains_unnamed (h : x.name? = none) : Retains first [⟨p, x⟩] r r where
  toGrowsTo := .refl r
  keeps y hy n hn := by
    rw [List.mem_singleton.mp hy, h] at hn
    cases hn

theorem retains_define (hr : r.WellFormed) (hp : r.scopeAt p = some s)
    (h : r.define s name d = .ok (id, r')) (hname : x.name? = some name)
    (hspace : x.space = EntryState.space (.defined d)) (hrenders : Renders first r' s id x d) :
    Retains first [⟨p, x⟩] r r' where
  toGrowsTo := growsTo_define h
  keeps y hy n hn := by
    obtain ⟨hbound, hdef⟩ := named?_of_define (hr.scopeAt_lt hp) h
    rw [List.mem_singleton.mp hy] at hn ⊢
    cases hname.symm.trans hn
    exact ⟨s, id, d, (growsTo_define h).scopeAt hp, hspace ▸ hbound, hdef, hrenders⟩

def idOf? (r : Registry) (s : ScopeId) (x : Declaration) : Option TypeId :=
  x.name? >>= r.named? s x.space

/-- One id for each declaration that has a name, in order. -/
def Lists (r : Registry) (s : ScopeId) (xs : List Declaration) (ids : List TypeId) : Prop :=
  List.Forall₂ (fun x id => r.idOf? s x = some id) (xs.filter (·.name?.isSome)) ids

theorem Lists.growsTo {xs : List Declaration} {ids : List TypeId} (h : r.Lists s xs ids)
    (hg : r.GrowsTo r') : r'.Lists s xs ids := by
  refine h.imp fun x id hid => ?_
  obtain ⟨n, hn, hbound⟩ := Option.bind_eq_some_iff.mp hid
  exact Option.bind_eq_some_iff.mpr ⟨n, hn, hg.named? hbound⟩

theorem Lists.append {xs ys : List Declaration} {ids js : List TypeId} (h : r.Lists s xs ids)
    (h' : r.Lists s ys js) : r.Lists s (xs ++ ys) (ids ++ js) := by
  unfold Lists
  rw [List.filter_append]
  exact List.rel_append h h'

theorem lists_unnamed (h : x.name? = none) : r.Lists s [x] [] := by
  simp [Lists, h]

theorem lists_named (h : x.name? = some name) (hbound : r.named? s x.space name = some id) :
    r.Lists s [x] [id] := by
  simp [Lists, h, idOf?, hbound]

end Registry

end TypeLayout
