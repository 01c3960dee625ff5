import TypeLayout.Proofs.Layout.Veil
import TypeLayout.Profile
/-! Layouts of veiled types. Descent by descent, what the plain registry lays out is mirrored where
typedefs and names have been put in between. -/

namespace TypeLayout

open Registry

namespace LayoutEnv

variable {env : LayoutEnv} {r' : Registry} {ρ : TypeId → TypeId} {a a' : Aggregate}
  {d d' : Descriptor} {l : Layout} {trail trail' : Trail} {owner owner' : String}

/-- Of every type that the descent lays out, whatever veils it is laid out too, and mirrors it. -/
def Unveils (env : LayoutEnv) (r' : Registry) (ρ : TypeId → TypeId)
    (g : Descend (Except LayoutError)) : Prop :=
  ∀ trail d d' l, Veiled env.registry r' ρ d d' → g trail d = .ok l →
    ∃ l', (env.onto r').layoutOf d' = (.ok l' : Except LayoutError Layout) ∧ l.Mirrors ρ l'

section

variable {g : Descend (Except LayoutError)} (h : Veils env.registry r' ρ)
  (hr : env.registry.Founded) (hr' : r'.Founded) (hg : env.Unveils r' ρ g)
  (hknown : ∀ trail i l, g trail (.named i) = .ok l → i.index < env.registry.size)
include h hr hr' hg hknown

theorem bodies_veiled (hv : Veiled env.registry r' ρ (.aggregate a) (.aggregate a')) :
    (env.mirror r' h.injective).Bodies g (fun _ x => (env.onto r').layoutOf x) trail trail'
      a a' := by
  have hasked : ∀ i, (env.mirror r' h.injective).Asked g
      (fun _ x => (env.onto r').layoutOf x) trail trail' i := fun i l hl =>
    hg _ _ _ l (.named (hknown _ i l hl)) hl
  cases hv with
  | aggregate hkind hvirtual hmembers hbases =>
    refine ⟨hkind, hvirtual, ?_, fun _ => ?_, fun _ _ _ i _ => hasked i⟩
    · refine hmembers.forall₂.imp fun x x' ⟨hname, hwidth, htype⟩ => ?_
      refine ⟨hname, hwidth, trivial, fun width _ unit hu => ?_, fun _ l hl => ?_⟩
      · exact ⟨unit, fittingUnit_veiled h hr hr' htype hu, rfl⟩
      · exact hg _ _ _ l htype hl
    · refine hbases.forall₂.imp fun b b' ⟨hvirtual, htype⟩ => ?_
      refine ⟨hvirtual, fun i hi => ?_, fun i _ => hasked i⟩
      exact ⟨ρ i, baseId_veiled h hr hr' htype hi, rfl⟩

theorem aggregate_veiled (hv : Veiled env.registry r' ρ (.aggregate a) (.aggregate a'))
    (hl : env.aggregate g trail a owner = .ok l) :
    ∃ l', (env.onto r').aggregate (fun _ x => (env.onto r').layoutOf x) trail' a' owner' =
      (.ok l' : Except LayoutError Layout) ∧ l.Mirrors ρ l' :=
  (env.mirror r' h.injective).aggregates (bodies_veiled h hr hr' hg hknown hv) trivial l hl

theorem yields_veiled (hd : ∀ i, d = .named i → ¬ env.registry.IsTypedef i)
    (hd' : ∀ j, d' = .named j → ¬ r'.IsTypedef j) (hv : Veiled env.registry r' ρ d d')
    (hl : env.Yields g trail d l) :
    ∃ l', (env.onto r').Yields (fun _ x => (env.onto r').layoutOf x) [] d' l' ∧
      l.Mirrors ρ l' := by
  cases hv with
  | fundamental kind =>
    cases hl with
    | fundamental he => exact ⟨_, .fundamental he, Layout.scalar_mirrors _ _⟩
  | pointer t t' =>
    cases hl with
    | pointer => exact ⟨_, .pointer, Layout.scalar_mirrors _ _⟩
  | array count hv =>
    cases hl with
    | array hl hz hlt =>
      obtain ⟨l', hl', hm⟩ := hg _ _ _ _ hv hl
      rw [← hm.size] at hz hlt ⊢
      rw [← hm.align]
      exact ⟨_, .array hl' hz hlt, Layout.scalar_mirrors _ _⟩
  | enum he =>
    cases hl with
    | enum hx =>
      rw [← he] at hx
      exact ⟨_, .enum hx, Layout.scalar_mirrors _ _⟩
  | aggregate hkind hvirtual hmembers hbases =>
    cases hl with
    | inline hl =>
      obtain ⟨l', hl', hm⟩ :=
        aggregate_veiled h hr hr' hg hknown (.aggregate hkind hvirtual hmembers hbases) hl
      exact ⟨l', .inline hl', hm⟩
  | namedEnum hj hv =>
    cases hl with
    | enum hx =>
      cases hv with
      | enum he =>
        rw [← he] at hx
        exact ⟨_, .namedEnum hj hx, Layout.scalar_mirrors _ _⟩
  | namedBody hj hv =>
    cases hl with
    | inline hl =>
      obtain ⟨l', hl', hm⟩ := aggregate_veiled h hr hr' hg hknown hv hl
      exact ⟨l', .body hj rfl hl', hm⟩
  | typedef hj _ => exact absurd ⟨_, hj⟩ (hd' _ rfl)
  | named hi =>
    cases hl with
    | typedef ht _ => exact absurd ⟨_, ht⟩ (hd _ rfl)
    | namedEnum he hx =>
      obtain ⟨y, hy, hv⟩ := h.defined _ _ he
      cases hv with
      | enum hv =>
        cases hv with
        | enum he =>
          rw [← he] at hx
          exact ⟨_, .namedEnum hy hx, Layout.scalar_mirrors _ _⟩
    | body ha _ hl =>
      obtain ⟨y, hy, hv⟩ := h.defined _ _ ha
      cases hv with
      | aggregate hv =>
        obtain ⟨l', hl', hm⟩ := aggregate_veiled h hr hr' hg hknown hv hl
        exact ⟨l', .body hy rfl hl', hm⟩

end

theorem layoutWithin_unveils (h : Veils env.registry r' ρ) (hr : env.registry.Founded)
    (hr' : r'.Founded) (n : Nat) : env.Unveils r' ρ (env.layoutWithin n) := by
  induction n with
  | zero =>
    intro trail d d' l _ hl
    cases hl
  | succ n ih =>
    intro trail d d' l hv hl
    have hknown : ∀ trail i l, env.layoutWithin n trail (.named i) =
        (.ok l : Except LayoutError Layout) → i.index < env.registry.size :=
      fun _ _ _ hl => id_lt_of_layoutOf_ok (layoutOf_of_ok hr hl)
    by_cases ht : ∃ i t, d = .named i ∧ env.registry.definition? i = some (.typedef t)
    · obtain ⟨i, t, rfl, ht⟩ := ht
      cases layoutStep_ok hl with
      | typedef ht' hl =>
        rw [ht] at ht'
        cases ht'
        exact ih _ _ _ _ (h.target hr' ht hv) hl
      | namedEnum he _ =>
        rw [ht] at he
        cases he
      | body ha _ _ =>
        rw [ht] at ha
        cases ha
    · have hd : ∀ i, d = .named i → ¬ env.registry.IsTypedef i := by
        rintro i rfl ⟨t, hi⟩
        exact ht ⟨i, t, rfl, hi⟩
      have hs := h.strip hr hr' hv
      rw [strip_of_not_typedef hd] at hs
      obtain ⟨l', hy, hm⟩ := yields_veiled h hr hr' ih hknown hd
        (fun _ hj => hr'.strip_not_typedef hj) hs (layoutStep_ok hl)
      have hl' := @layoutOf_of_yields (env.onto r') _ _ hr' hy
      exact ⟨l', (layoutOf_strip hr' d').symm.trans hl', hm⟩

/-- Where a type lays out, whatever it is veiled by lays out too, and differs in names alone. -/
theorem layoutOf_veiled (hr : env.registry.Built) (hr' : r'.Built) (h : Veils env.registry r' ρ)
    (hv : Veiled env.registry r' ρ d d')
    (hl : env.layoutOf d = (.ok l : Except LayoutError Layout)) :
    ∃ l', (env.onto r').layoutOf d' = (.ok l' : Except LayoutError Layout) ∧ l.Mirrors ρ l' :=
  layoutWithin_unveils h hr.wellFormed.toFounded hr'.wellFormed.toFounded _ [] d d' l hv hl

end LayoutEnv

def Registry.adding (r : Registry) : List (String × Definition) → Registry
  | [] => r
  | (name, d) :: rest => (r.alloc .global name (.defined d)).2.adding rest

def Registry.takes (r : Registry) : List (String × Definition) → Bool
  | [] => true
  | (name, d) :: rest => (r.rival? .global name d).isNone && d.mentions.all (·.index < r.size) &&
    (r.alloc .global name (.defined d)).2.takes rest

theorem Registry.Built.adding {r : Registry} (hr : r.Built) {entries : List (String × Definition)}
    (h : r.takes entries = true) : (r.adding entries).Built := by
  induction entries generalizing r with
  | nil => exact hr
  | cons entry rest ih =>
    obtain ⟨name, d⟩ := entry
    simp only [takes, Bool.and_eq_true, Option.isNone_iff_eq_none, List.all_eq_true,
      decide_eq_true_eq] at h
    obtain ⟨⟨hfree, hmentions⟩, hrest⟩ := h
    have hd : r.define .global name d = .ok (r.alloc .global name (.defined d)) := by
      unfold Registry.define
      rw [hfree]
    exact ih (.define hr hr.wellFormed.global_lt hmentions hd) hrest

def header : Aggregate := ⟨.structType, some "Header", [⟨"tag", .fundamental .int, none⟩], [], []⟩

def cell : Aggregate :=
  ⟨.unionType, none, [⟨"i", .fundamental .int, none⟩, ⟨"c", .fundamental .char, none⟩], [], []⟩

def frame : Aggregate :=
  ⟨.structType, some "Frame", [⟨"cell", .aggregate cell, none⟩,
    ⟨"kind", .enum ⟨none, .char⟩, none⟩, ⟨"flags", .fundamental .int, some 3⟩,
    ⟨"tail", .array (.fundamental .char) 2, none⟩], [⟨.named ⟨0⟩, false⟩], []⟩

/-- `frame` with typedefs for what it spelled out and names for what was inline. -/
def veiledFrame : Aggregate :=
  ⟨.structType, some "Frame", [⟨"cell", .named ⟨3⟩, none⟩, ⟨"kind", .named ⟨0⟩, none⟩,
    ⟨"flags", .named ⟨5⟩, some 3⟩, ⟨"tail", .array (.named ⟨6⟩) 2, none⟩],
    [⟨.named ⟨2⟩, false⟩], []⟩

def frames : Registry :=
  empty.adding [("Header", .aggregate header), ("Frame", .aggregate frame)]

def veiledFrames : Registry :=
  empty.adding [("Kind", .enum ⟨some "Kind", .char⟩), ("Header", .aggregate header),
    ("Prefix", .typedef (.named ⟨1⟩)), ("Cell", .aggregate cell),
    ("Word", .typedef (.fundamental .int)), ("Flags", .typedef (.named ⟨4⟩)),
    ("Letter", .typedef (.fundamental .char)), ("Frame", .aggregate veiledFrame)]

def unveiledAt (i : TypeId) : TypeId := if i.index = 0 then ⟨1⟩ else ⟨i.index + 6⟩

theorem frames_built : frames.Built := Built.empty.adding (by decide)

theorem veiledFrames_built : veiledFrames.Built := Built.empty.adding (by decide)

theorem header_veiled : Veiled frames veiledFrames unveiledAt (.aggregate header)
    (.aggregate header) :=
  .aggregate rfl rfl (.cons rfl rfl (.fundamental _) .nil) .nil

theorem cell_veiled : Veiled frames veiledFrames unveiledAt (.aggregate cell) (.named ⟨3⟩) :=
  .namedBody rfl (.aggregate rfl rfl (.cons rfl rfl (.fundamental _)
    (.cons rfl rfl (.fundamental _) .nil)) .nil)

theorem frame_veiled : Veiled frames veiledFrames unveiledAt (.aggregate frame)
    (.aggregate veiledFrame) := by
  have hkind : Veiled frames veiledFrames unveiledAt (.enum ⟨none, .char⟩) (.named ⟨0⟩) :=
    .namedEnum rfl (.enum rfl)
  have hflags : Veiled frames veiledFrames unveiledAt (.fundamental .int) (.named ⟨5⟩) :=
    .typedef rfl (.typedef rfl (.fundamental _))
  have hletter : Veiled frames veiledFrames unveiledAt (.fundamental .char) (.named ⟨6⟩) :=
    .typedef rfl (.fundamental _)
  have hbase : Veiled frames veiledFrames unveiledAt (.named ⟨0⟩) (.named ⟨2⟩) :=
    .typedef rfl (.named (by decide))
  refine .aggregate rfl rfl ?_ (.cons rfl hbase .nil)
  exact .cons rfl rfl cell_veiled (.cons rfl rfl hkind (.cons rfl rfl hflags
    (.cons rfl rfl (.array 2 hletter) .nil)))

theorem frames_veiled : Veils frames veiledFrames unveiledAt where
  injective := by
    rintro ⟨i⟩ ⟨j⟩ h
    simp only [unveiledAt] at h
    split at h <;> split at h <;> simp at h ⊢ <;> omega
  defined := by
    rintro ⟨i⟩ x hx
    have hlt : i < 2 := definition?_lt hx
    match i, hlt with
    | 0, _ =>
      cases hx
      exact ⟨_, rfl, .aggregate header_veiled⟩
    | 1, _ =>
      cases hx
      exact ⟨_, rfl, .aggregate frame_veiled⟩
  incomplete := by
    rintro ⟨i⟩ hlt hx
    have hlt : i < 2 := hlt
    match i, hlt with
    | 0, _ => cases hx
    | 1, _ => cases hx

namespace LayoutEnv

def frameLayout : Layout where
  size := 20
  align := .four
  nvSize := 20
  nvAlign := .four
  fields := [⟨"cell", "union (anonymous)", 4, 4, .four, .whole⟩,
    ⟨"kind", "enum (anonymous)", 8, 1, .one, .whole⟩, ⟨"flags", "int", 12, 4, .four, .bits 4 0 3⟩,
    ⟨"tail", "char[2]", 16, 2, .one, .whole⟩]
  bases := [⟨"Header", 0, 4, false⟩]
  padding := [⟨9, 3⟩, ⟨18, 2⟩]
  flags := { hasBitFields := true }

theorem frame_unveiled : frames.Built ∧ veiledFrames.Built ∧
    Veils frames veiledFrames unveiledAt ∧
    Veiled frames veiledFrames unveiledAt (.named ⟨1⟩) (.named ⟨7⟩) ∧
    (LayoutEnv.mk frames Profile.lp64.machine .itaniumBaseline).layoutOf (.named ⟨1⟩) =
      (.ok frameLayout : Except LayoutError Layout) ∧
    ∃ l', (LayoutEnv.mk veiledFrames Profile.lp64.machine .itaniumBaseline).layoutOf (.named ⟨7⟩) =
      (.ok l' : Except LayoutError Layout) ∧ frameLayout.Mirrors unveiledAt l' := by
  have hl : (LayoutEnv.mk frames Profile.lp64.machine .itaniumBaseline).layoutOf (.named ⟨1⟩) =
      (.ok frameLayout : Except LayoutError Layout) := by
    decide +kernel
  have hv : Veiled frames veiledFrames unveiledAt (.named ⟨1⟩) (.named ⟨7⟩) :=
    .named (i := ⟨1⟩) (by decide)
  exact ⟨frames_built, veiledFrames_built, frames_veiled, hv, hl,
    @layoutOf_veiled ⟨frames, Profile.lp64.machine, .itaniumBaseline⟩ _ _ _ _ _ frames_built
      veiledFrames_built frames_veiled hv hl⟩

end LayoutEnv

end TypeLayout
