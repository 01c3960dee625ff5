import TypeLayout.Proofs.Source.Deferred
/-! What the second pass comes to, and the state in which it does. Inside a record these are the
declarations of its body and the records written in its members; behind the step that makes the
record fail nothing is reached any more. What is set aside are the errors of the declarations
visited, in this order. -/

namespace TypeLayout

inductive Item
  | declaration (d : Declaration)
  | record (r : RecordDecl)

/-- An item where the second pass takes it up, inside the records that are being defined. -/
structure Visit where
  item : Item
  defining : List TypeId
  scope : ScopeId
  before : Resolution

mutual

def visitsInDeclaration (defining : List TypeId) (s : ScopeId) (z : Resolution) :
    Declaration → List Visit
  | .record r => visitsInRecord defining s z r ++ [⟨.record r, defining, s, z⟩]
  | .typedef _ target => visitsInDeclarator defining s z target
  | _ => []

def visitsInRecord (defining : List TypeId) (s : ScopeId) (z : Resolution) :
    RecordDecl → List Visit
  | ⟨tag, name, bases, members, _, nested⟩ =>
    match (openRecord s tag name).run z with
    | (.error _, _) => []
    | (.ok (id, body), z₁) =>
      let inside := id.toList ++ defining
      visitsInNested inside body z₁ nested ++
        match (resolveBases s bases).run ((resolveNested inside body nested).run z₁).2 with
        | (.error _, _) => []
        | (.ok _, z₂) => visitsInMembers inside body z₂ members

def visitsInDeclarator (defining : List TypeId) (s : ScopeId) (z : Resolution) :
    Declarator → List Visit
  | .pointer pointee => visitsInDeclarator defining s z pointee
  | .array element _ => visitsInDeclarator defining s z element
  | .record r => visitsInRecord defining s z r ++ [⟨.record r, defining, s, z⟩]
  | _ => []

def visitsInNested (defining : List TypeId) (s : ScopeId) (z : Resolution) :
    List Declaration → List Visit
  | [] => []
  | d :: ds =>
    visitsInDeclaration defining s z d ++ ⟨.declaration d, defining, s, z⟩ ::
      visitsInNested defining s ((setAside d (resolveDeclaration defining s d)).run z).2 ds

def visitsInMembers (defining : List TypeId) (s : ScopeId) (z : Resolution) :
    List MemberDecl → List Visit
  | [] => []
  | ⟨name, type, _⟩ :: xs =>
    visitsInDeclarator defining s z type ++
      match (resolveDeclarator defining s type).run z with
      | (.error _, _) => []
      | (.ok d, z₁) =>
        match z₁.registry.checkMember defining d name with
        | .error _ => []
        | .ok _ => visitsInMembers defining s z₁ xs

end

namespace Visit

def error? (v : Visit) : Option LayoutError :=
  match v.item with
  | .declaration d => failure? ((resolveDeclaration v.defining v.scope d).run v.before).1
  | .record _ => none

end Visit

def errorsOf (vs : List Visit) : List LayoutError := vs.filterMap Visit.error?

theorem errorsOf_append (vs ws : List Visit) : errorsOf (vs ++ ws) = errorsOf vs ++ errorsOf ws :=
  List.filterMap_append

theorem errorsOf_cons (v : Visit) (vs : List Visit) :
    errorsOf (v :: vs) = v.error?.toList ++ errorsOf vs := by
  unfold errorsOf
  rw [List.filterMap_cons]
  cases v.error? <;> rfl

theorem errorsOf_record (vs : List Visit) (r : RecordDecl) (defining : List TypeId) (s : ScopeId)
    (z : Resolution) : errorsOf (vs ++ [⟨.record r, defining, s, z⟩]) = errorsOf vs :=
  (errorsOf_append _ _).trans (List.append_nil _)

theorem visitsInRecord_of_run {defining : List TypeId} {s body : ScopeId}
    {z z₁ z₂ z₃ : Resolution} {tag : AggregateKind} {name : Option String} {bases : List BaseDecl}
    {members : List MemberDecl} {functions : List String} {nested : List Declaration}
    {id : Option TypeId} {u : Except LayoutError Unit} {specs : List BaseSpec}
    (hopen : (openRecord s tag name).run z = (.ok (id, body), z₁))
    (hnested : (resolveNested (id.toList ++ defining) body nested).run z₁ = (u, z₂))
    (hbases : (resolveBases s bases).run z₂ = (.ok specs, z₃)) :
    visitsInRecord defining s z ⟨tag, name, bases, members, functions, nested⟩ =
      visitsInNested (id.toList ++ defining) body z₁ nested ++
        visitsInMembers (id.toList ++ defining) body z₃ members := by
  simp [visitsInRecord, hopen, hnested, hbases]

theorem visitsInMembers_of_run {defining : List TypeId} {s : ScopeId} {z z₁ : Resolution}
    {name : String} {type : Declarator} {width : Option Nat} {xs : List MemberDecl}
    {d : Descriptor} (htype : (resolveDeclarator defining s type).run z = (.ok d, z₁))
    (hcheck : z₁.registry.checkMember defining d name = .ok ()) :
    visitsInMembers defining s z (⟨name, type, width⟩ :: xs) =
      visitsInDeclarator defining s z type ++ visitsInMembers defining s z₁ xs := by
  simp [visitsInMembers, htype, hcheck]

theorem run_resolveNested (defining : List TypeId) (s : ScopeId) (ds : List Declaration)
    (z : Resolution) : ((resolveNested defining s ds).run z).1 = .ok () := by
  induction ds generalizing z with
  | nil => rfl
  | cons d ds ih =>
    change ((setAside d (resolveDeclaration defining s d) >>= fun _ =>
      resolveNested defining s ds).run z).1 = _
    rw [run_bind_ok (Prod.ext (run_setAside d _ z) rfl)]
    exact ih _

mutual

theorem resolveDeclaration_defers (d : Declaration) (defining : List TypeId) (s : ScopeId)
    (z : Resolution) : Defers (resolveDeclaration defining s d) z
      (errorsOf (visitsInDeclaration defining s z d)) := by
  cases d with
  | record r =>
    have hr := resolveRecord_defers r defining s z
    rw [visitsInDeclaration, errorsOf_record]
    exact hr.bind_quiet fun _ => .pure _
  | forward tag name => exact ((Quiet.declare _ _ _).bind fun _ => .pure _).defers z
  | enum e => exact ((Quiet.resolveEnum _ _).bind fun _ => .pure _).defers z
  | typedef name target =>
    refine (resolveDeclarator_defers target defining s z).bind_quiet fun t => ?_
    refine Quiet.registry.bind fun _ => (Quiet.note _ _ _).bind fun _ => ?_
    exact (Quiet.define _ _ _).bind fun _ => .pure _

theorem resolveRecord_defers (r : RecordDecl) (defining : List TypeId) (s : ScopeId)
    (z : Resolution) : Defers (resolveRecord defining s r) z
      (errorsOf (visitsInRecord defining s z r)) := by
  obtain ⟨tag, name, bases, members, functions, nested⟩ := r
  have hopen := (Quiet.openRecord s tag name).defers z
  unfold visitsInRecord resolveRecord
  split
  next e z₁ hrun => exact hopen.bind_error hrun
  next id body z₁ hrun =>
    have hnested := resolveNested_defers nested (id.toList ++ defining) body z₁
    rw [errorsOf_append]
    refine hopen.bind_ok hrun (hnested.bind_ok (Prod.ext (run_resolveNested _ _ _ _) rfl) ?_)
    have hbases := (Quiet.resolveBases s bases).defers
      ((resolveNested (id.toList ++ defining) body nested).run z₁).2
    split
    next e z₂ hrun => exact hbases.bind_error hrun
    next specs z₂ hrun =>
      refine hbases.bind_ok hrun ?_
      exact (resolveMembers_defers members (id.toList ++ defining) body z₂).bind_quiet fun _ =>
        .closeRecord _ _ _

theorem resolveDeclarator_defers (d : Declarator) (defining : List TypeId) (s : ScopeId)
    (z : Resolution) : Defers (resolveDeclarator defining s d) z
      (errorsOf (visitsInDeclarator defining s z d)) := by
  cases d with
  | fundamental spelling =>
    unfold resolveDeclarator
    split
    · exact (Quiet.pure _).defers z
    · exact (Quiet.throw _).defers z
  | named name => exact (Quiet.registry.bind fun _ => .ofExcept _).defers z
  | pointer pointee =>
    exact (resolveDeclarator_defers pointee defining s z).bind_quiet fun _ => .pure _
  | array element count =>
    exact (resolveDeclarator_defers element defining s z).bind_quiet fun _ => .pure _
  | record r =>
    rw [visitsInDeclarator, errorsOf_record]
    exact resolveRecord_defers r defining s z
  | enum e => exact (Quiet.resolveEnum s e).defers z

theorem resolveNested_defers (ds : List Declaration) (defining : List TypeId) (s : ScopeId)
    (z : Resolution) : Defers (resolveNested defining s ds) z
      (errorsOf (visitsInNested defining s z ds)) := by
  cases ds with
  | nil => exact (Quiet.pure _).defers z
  | cons d ds =>
    have hfirst := (resolveDeclaration_defers d defining s z).setAside d
    rw [visitsInNested, errorsOf_append, errorsOf_cons, ← List.append_assoc]
    exact hfirst.bind_ok (Prod.ext (run_setAside d _ z) rfl) (resolveNested_defers ds defining s _)

theorem resolveMembers_defers (xs : List MemberDecl) (defining : List TypeId) (s : ScopeId)
    (z : Resolution) : Defers (resolveMembers defining s xs) z
      (errorsOf (visitsInMembers defining s z xs)) := by
  cases xs with
  | nil => exact (Quiet.pure _).defers z
  | cons x xs =>
    obtain ⟨name, type, width⟩ := x
    have htype := (resolveDeclarator_defers type defining s z).rethrow fun e => e.inMember name
    unfold visitsInMembers resolveMembers
    rw [errorsOf_append]
    split
    next e z₁ hrun =>
      exact (List.append_nil _).symm ▸ htype.bind_error ((run_tryCatch_error hrun).trans rfl)
    next d z₁ hrun =>
      refine htype.bind_ok (run_tryCatch_ok hrun) (.ask ?_)
      refine .check (fun e hcheck => ?_) fun _ hcheck => ?_
      · rw [hcheck]
        rfl
      · rw [hcheck]
        exact (resolveMembers_defers xs defining s z₁).bind_quiet fun _ => .pure _

end

end TypeLayout
