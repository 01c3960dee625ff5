import TypeLayout.Proofs.Source.Census
import TypeLayout.Proofs.Source.Habits
/-! The names of tags. Whatever fails, and in which pass, the tags that a unit adds to the standard
typedefs have the names of its records, enumerations and forward declarations. -/

namespace TypeLayout

open Registry

variable {P : String → Prop}

namespace Registry

def TagNames (P : String → Prop) (r : Registry) : Prop :=
  ∀ id e, r.entry? id = some e → e.tag?.isSome = true → P e.name

variable {r r' : Registry} {s : ScopeId} {name : String} {id : TypeId}

theorem withPrelude_tagNames (P : String → Prop) : withPrelude.TagNames P := by
  intro id e he htag
  obtain ⟨-, kind, hstate⟩ := withPrelude_flat.entry he
  rw [Entry.tag?, hstate] at htag
  cases htag

theorem TagNames.alloc (h : r.TagNames P) {state : EntryState}
    (hname : state.tag?.isSome = true → P name) : (r.alloc s name state).2.TagNames P := by
  intro id e he htag
  rw [entry?_alloc] at he
  split at he
  · cases he
    exact hname htag
  · exact h id e he htag

theorem TagNames.declare (h : r.TagNames P) (hname : P name) {tag : TagKind}
    (hd : r.declare s name tag = .ok (id, r')) : r'.TagNames P := by
  rcases declare_cases hd with ⟨-, -, rfl⟩ | ⟨-, -, rfl⟩
  · exact h
  · exact h.alloc fun _ => hname

theorem TagNames.define (h : r.TagNames P) {d : Definition}
    (hname : d.tag?.isSome = true → P name) (hd : r.define s name d = .ok (id, r')) :
    r'.TagNames P := by
  rcases define_cases hd with ⟨hrival, -, -⟩ | ⟨-, -, rfl⟩
  · obtain ⟨hf, -⟩ := fillsTo_define hd hrival
    intro j e' he' htag
    obtain ⟨e, he, hb⟩ := hf.becomes (hf.size_eq ▸ entry?_lt he') he'
    rw [hb.name]
    exact h j e he (hb.tag_isSome ▸ htag)
  · exact h.alloc hname

end Registry

def Calls (P : String → Prop) {α : Type} (x : ResolveM α) : Prop :=
  ∀ z : Resolution, z.registry.TagNames P → (x.run z).2.registry.TagNames P

namespace Calls

variable {α β : Type} {x : ResolveM α} {s : ScopeId} {name : String}

theorem of_run (h : Calls P x) {z z' : Resolution} {a : Except LayoutError α}
    (hz : z.registry.TagNames P) (hrun : x.run z = (a, z')) : z'.registry.TagNames P := by
  have hkept := h z hz
  rw [hrun] at hkept
  exact hkept

theorem pure (a : α) : Calls P (pure a : ResolveM α) := fun _ hz => hz

theorem throw (e : LayoutError) : Calls P (throw e : ResolveM α) := fun _ hz => hz

theorem ofExcept (y : Except LayoutError α) : Calls P (ofExcept y : ResolveM α) := by
  intro z hz
  rw [run_ofExcept]
  exact hz

theorem registry : Calls P ResolveM.registry := fun _ hz => hz

theorem update {f : Resolution → Resolution} (hf : ∀ z, (f z).registry = z.registry) :
    Calls P (modify f : ResolveM Unit) := by
  intro z hz
  exact (hf z).symm ▸ hz

theorem note (level : Log.Level) (origin message : String) :
    Calls P (ResolveM.note level origin message) := update fun _ => rfl

theorem bind (hx : Calls P x) {f : α → ResolveM β} (hf : ∀ a, Calls P (f a)) :
    Calls P (x >>= f) :=
  run_bind_keeps (R := fun z z' : Resolution => z.registry.TagNames P → z'.registry.TagNames P)
    (fun h h' hz => h' (h hz)) hx hf

theorem tryCatch (hx : Calls P x) {f : LayoutError → ResolveM α} (hf : ∀ e, Calls P (f e)) :
    Calls P (tryCatch x f) :=
  run_tryCatch_keeps (R := fun z z' : Resolution => z.registry.TagNames P → z'.registry.TagNames P)
    (fun h h' hz => h' (h hz)) hx hf

theorem discard (hx : Calls P x) : Calls P (discard x) := by
  rw [discard_eq_bind]
  exact hx.bind fun _ => .pure ()

theorem declare (hname : P name) (s : ScopeId) (tag : TagKind) :
    Calls P (ResolveM.declare s name tag) := by
  intro z hz
  have hask : ResolveM.registry.run z = (.ok z.registry, z) := rfl
  rw [ResolveM.declare, run_bind_ok hask]
  cases hd : z.registry.declare s name tag with
  | error e =>
    rw [run_bind_error (run_ofExcept _ z)]
    exact hz
  | ok p =>
    rw [run_bind_ok (run_ofExcept _ z)]
    exact hz.declare hname hd

theorem define {d : Definition} (hname : d.tag?.isSome = true → P name) (s : ScopeId) :
    Calls P (ResolveM.define s name d) := by
  intro z hz
  have hask : ResolveM.registry.run z = (.ok z.registry, z) := rfl
  rw [ResolveM.define, run_bind_ok hask]
  cases hd : z.registry.define s name d with
  | error e =>
    rw [run_bind_error (run_ofExcept _ z)]
    exact hz
  | ok p =>
    have hinstall : Calls P (do
        modify fun z => { z with registry := p.2 }
        return p.1 : ResolveM TypeId) := fun _ _ => hz.define hname hd
    rw [run_bind_ok (run_ofExcept _ z)]
    dsimp only
    split
    · exact (note _ _ _).bind (fun _ => hinstall) z hz
    · exact hinstall z hz

theorem setAside (hx : Calls P x) (d : Declaration) : Calls P (setAside d x) := by
  refine hx.discard.tryCatch fun e => (note _ _ _).bind fun _ => ?_
  exact update fun _ => rfl

end Calls

theorem calls_habit (P : String → Prop) : FirmHabit P fun _ x => Calls P x where
  lift := .ofExcept
  registry := .registry
  note := .note
  bind hx hf := hx.bind hf
  declare s _ tag hname := .declare hname s tag
  define s _ _ hname := .define hname s
  rethrow f hx := hx.tryCatch fun e => .throw (f e)
  setAside d hx := hx.setAside d

namespace Resolution

variable {z : Resolution} {o : Outcome} {d : Declaration} {ds : List Declaration}

theorem predeclareStep_tagNames (hz : z.registry.TagNames P) (h : SitesNamed P (d.sites [])) :
    (predeclareStep d o z).2.registry.TagNames P := by
  unfold predeclareStep
  split
  next hrun => exact (predeclare_habit (calls_habit P).toHabit d h .global : Calls P _).of_run hz hrun
  next hrun =>
    have hkept := (predeclare_habit (calls_habit P).toHabit d h .global : Calls P _).of_run hz hrun
    exact hkept

theorem resolveStep_tagNames (hz : z.registry.TagNames P) (h : SitesNamed P (d.sites [])) :
    (resolveStep d o z).2.registry.TagNames P := by
  unfold resolveStep
  split
  next hrun =>
    have hkept := (resolveDeclaration_habit (calls_habit P) d h [] .global : Calls P _).of_run hz hrun
    exact hkept
  next hrun =>
    have hkept := (resolveDeclaration_habit (calls_habit P) d h [] .global : Calls P _).of_run hz hrun
    exact hkept

theorem predeclarePass_tagNames (hz : z.registry.TagNames P)
    (h : SitesNamed P (sitesAll [] ds)) : (predeclarePass ds o z).2.registry.TagNames P := by
  induction ds generalizing o z with
  | nil => exact hz
  | cons d ds ih =>
    obtain ⟨hd, hds⟩ := sitesNamed_append.mp h
    exact ih (predeclareStep_tagNames hz hd) hds

theorem resolvePass_tagNames (hz : z.registry.TagNames P)
    (h : SitesNamed P (sitesAll [] ds)) : (resolvePass ds o z).2.registry.TagNames P := by
  induction ds generalizing o z with
  | nil => exact hz
  | cons d ds ih =>
    obtain ⟨hd, hds⟩ := sitesNamed_append.mp h
    exact ih (resolveStep_tagNames hz hd) hds

end Resolution

theorem SourceUnit.tagNames {u : SourceUnit} (h : SitesNamed P (sitesAll [] u.declarations)) :
    u.resolve.2.registry.TagNames P :=
  Resolution.resolvePass_tagNames
    (Resolution.predeclarePass_tagNames (z := { registry := .withPrelude })
      (withPrelude_tagNames P) h) h

end TypeLayout
