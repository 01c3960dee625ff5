import TypeLayout.Proofs.Registry.Qualified
import TypeLayout.Proofs.Stateful
import TypeLayout.Proofs.Text.Words
import TypeLayout.Query.Expression
import TypeLayout.Source.Resolution
/-! A name in an expression and the same name in a declaration. An expression takes a specifier
sequence for the fundamental type it spells and looks for anything else, a declaration looks first
and reads specifiers only where nothing is found. So they part where a name that spells a
fundamental type is bound in global scope, and nowhere else. -/

namespace TypeLayout

namespace Specifiers

def vocabulary : List String :=
  ["long", "signed", "unsigned", "short", "int", "char", "float", "double", "bool", "_Bool",
   "wchar_t", "void"]

variable {s s' : Specifiers} {word : String}

theorem mem_vocabulary_of_base {b : BaseWord} (h : BaseWord.ofString? word = some b) :
    word ∈ vocabulary := by
  by_contra hw
  simp only [vocabulary, List.mem_cons, List.not_mem_nil, or_false, not_or] at hw
  simp [BaseWord.ofString?, hw] at h

theorem mem_vocabulary_of_add (h : s.add word = some s') : word ∈ vocabulary := by
  by_contra hw
  have hnone : BaseWord.ofString? word = none := by
    cases hb : BaseWord.ofString? word with
    | none => rfl
    | some b => exact absurd (mem_vocabulary_of_base hb) hw
  simp only [vocabulary, List.mem_cons, List.not_mem_nil, or_false, not_or] at hw
  simp [add, hw, hnone] at h

theorem mem_vocabulary_of_foldlM {words : List String} (h : words.foldlM add s = some s')
    (hw : word ∈ words) : word ∈ vocabulary := by
  induction words generalizing s with
  | nil => cases hw
  | cons w words ih =>
    obtain ⟨s₁, hadd, hrest⟩ := Option.bind_eq_some_iff.mp h
    rcases List.mem_cons.mp hw with rfl | hw
    · exact mem_vocabulary_of_add hadd
    · exact ih hrest hw

end Specifiers

theorem Fundamental.ne_colon_of_ofSpelling? {text : String} {kind : Fundamental}
    (h : Fundamental.ofSpelling? text = some kind) {c : Char} (hc : c ∈ text.toList) : c ≠ ':' := by
  rintro rfl
  obtain ⟨s, hs, -⟩ := Option.bind_eq_some_iff.mp h
  obtain ⟨w, hw, hcw⟩ := Text.exists_mem_words hc rfl
  have hfree : ∀ v ∈ Specifiers.vocabulary, ':' ∉ v.toList := by decide
  exact hfree w (Specifiers.mem_vocabulary_of_foldlM hs hw) hcw

namespace Query

open Text

namespace Token

def Proper : Token → Prop
  | word w => ∀ c ∈ w, isWordChar c = true
  | _ => True

variable {run cs : List Char} {ts : List Token} {t : Token}

theorem proper_of_mem_flush (hrun : ∀ c ∈ run, isWordChar c = true)
    (hts : ∀ t ∈ ts, Proper t) (h : t ∈ flush run ts) : Proper t := by
  rw [flush] at h
  split at h
  · exact hts t h
  · rcases List.mem_cons.mp h with rfl | h
    · split
      · trivial
      · exact fun c hc => hrun c (List.mem_reverse.mp hc)
    · exact hts t h

theorem proper_ofChar (c : Char) : Proper (ofChar c) := by
  rw [ofChar]
  split <;> trivial

theorem proper_of_mem_lexFrom (hrun : ∀ c ∈ run, isWordChar c = true)
    (h : t ∈ lexFrom run cs) : Proper t := by
  induction run, cs using lexFrom.induct generalizing t with
  | case1 run => exact proper_of_mem_flush hrun (fun _ h => by cases h) h
  | case2 run cs ih =>
    refine proper_of_mem_flush hrun (fun u hu => ?_) h
    rcases List.mem_cons.mp hu with rfl | hu
    · trivial
    · exact ih (fun _ h => by cases h) hu
  | case3 run c cs hne hc ih =>
    rw [lexFrom, if_pos hc] at h
    · refine ih (fun d hd => ?_) h
      rcases List.mem_cons.mp hd with rfl | hd
      · exact hc
      · exact hrun d hd
    · exact hne
  | case4 run c cs hne hc ih =>
    rw [lexFrom, if_neg hc] at h
    · refine proper_of_mem_flush hrun (fun u hu => ?_) h
      rcases List.mem_cons.mp hu with rfl | hu
      · exact proper_ofChar c
      · exact ih (fun _ h => by cases h) hu
    · exact hne

theorem proper_of_mem_lex {s : String} (h : t ∈ lex s) : Proper t :=
  proper_of_mem_lexFrom (fun _ h => by cases h) h

end Token

def Named (w : List Char) : Prop := isName w = true ∧ ∀ c ∈ w, isWordChar c = true

variable {ts rest : List Token}

theorem Named.ne_nil {w : List Char} (h : Named w) : w ≠ [] := by
  rintro rfl
  exact absurd h.1 (by decide)

theorem named_of_takeNames (hts : ∀ t ∈ ts, t.Proper) :
    ∀ n ∈ (takeNames ts).1, Named n.name := by
  induction ts using takeNames.induct with
  | case1 w ts hw more rest hrec ih =>
    have hrest := ih fun t ht => hts t (List.mem_cons_of_mem _ (List.mem_cons_of_mem _ ht))
    simp only [takeNames, hw, if_true, hrec, List.mem_cons] at hrest ⊢
    rintro n (rfl | hn)
    · exact ⟨hw, hts _ (List.mem_cons_of_mem _ List.mem_cons_self)⟩
    · exact hrest n hn
  | case2 w ts hw => simp [takeNames, hw]
  | case3 w ts hw more rest hrec ih =>
    have hrest := ih fun t ht => hts t (List.mem_cons_of_mem _ ht)
    simp only [takeNames, hw, if_true, hrec, List.mem_cons] at hrest ⊢
    rintro n (rfl | hn)
    · exact ⟨hw, hts _ List.mem_cons_self⟩
    · exact hrest n hn
  | case4 w ts hw => simp [takeNames, hw]
  | case5 ts h₁ h₂ =>
    rw [takeNames]
    · exact fun n hn => by cases hn
    · exact h₁
    · exact h₂

structure Base.Proper (b : Base) : Prop where
  first : Named b.first
  more : ∀ n ∈ b.more, Named n.name

theorem proper_of_takeFirst {isAnchored : Bool} {b : Base} (hts : ∀ t ∈ ts, t.Proper)
    (h : takeFirst isAnchored ts = some (b, rest)) : b.Proper := by
  unfold takeFirst at h
  split at h
  next w ts =>
    split at h
    next hw =>
      have hmore := named_of_takeNames fun t ht => hts t (List.mem_cons_of_mem _ ht)
      cases h
      exact ⟨⟨hw, hts _ List.mem_cons_self⟩, hmore⟩
    next => cases h
  next => cases h

theorem proper_of_takeBase {b : Base} (hts : ∀ t ∈ ts, t.Proper)
    (h : takeBase ts = some (b, rest)) : b.Proper := by
  unfold takeBase at h
  split at h
  · exact proper_of_takeFirst (fun t ht => hts t (List.mem_cons_of_mem _ ht)) h
  · exact proper_of_takeFirst hts h

theorem mem_of_mem_takeKeyword {t : Token} (h : t ∈ (takeKeyword ts).2) : t ∈ ts := by
  induction ts using takeKeyword.induct with
  | case1 ts ih => exact List.mem_cons_of_mem _ (ih h)
  | case2 w ts tag htag =>
    simp only [takeKeyword, htag] at h
    exact List.mem_cons_of_mem _ (List.mem_cons_of_mem _ h)
  | case3 w ts htag =>
    simp only [takeKeyword, htag] at h
    exact h
  | case4 ts h₁ h₂ =>
    rw [takeKeyword] at h
    · exact h
    · exact h₁
    · exact h₂

theorem exists_base_of_parse? {e : TypeExpression} (hts : ∀ t ∈ ts, t.Proper)
    (h : parse? ts = some e) : ∃ b : Base, b.Proper ∧ e.base = b.text := by
  simp only [parse?, Option.bind_eq_bind, Option.bind_eq_some_iff] at h
  obtain ⟨⟨b, rest⟩, hb, dimensions, -, h⟩ := h
  refine ⟨b, proper_of_takeBase (fun t ht => hts t ?_) hb, ?_⟩
  · exact mem_of_mem_takeKeyword (List.mem_of_mem_filter ht)
  · split at h
    · cases h
    · cases h
      rfl

theorem Named.not_blank {w : List Char} (h : Named w) : ∀ c ∈ w, isBlank c = false :=
  fun c hc => not_isBlank_of_isWordChar (h.2 c hc)

namespace Base.Proper

variable {b : Base}

theorem toList_text (b : Base) : b.text.toList =
    (if b.isAnchored then [':', ':'] else []) ++ b.first ++
      b.more.flatMap fun n => (if n.isQualified then [':', ':'] else [' ']) ++ n.name := by
  rw [Base.text, String.toList_ofList]

theorem text_ne_empty (h : b.Proper) : b.text.isEmpty = false := by
  have hne : b.text.toList ≠ [] := by simp [toList_text, h.first.ne_nil]
  cases hb : b.text.isEmpty with
  | false => rfl
  | true =>
    rw [String.isEmpty_iff.mp hb] at hne
    exact absurd rfl hne

theorem trim_text (h : b.Proper) : trim b.text = b.text := by
  obtain ⟨c, cs, hc⟩ := List.exists_cons_of_ne_nil h.first.ne_nil
  apply trim_eq_of_ends
  · intro d hd
    rw [toList_text, hc] at hd
    split at hd
    · cases hd
      rfl
    · cases hd
      exact h.first.not_blank c (hc ▸ List.mem_cons_self)
  · intro d hd
    -- the last character is that of the last name
    have hlast : ∃ w, Named w ∧ d ∈ w := by
      rw [toList_text] at hd
      rcases List.eq_nil_or_concat b.more with hm | ⟨ns, n, hm⟩
      · refine ⟨b.first, h.first, ?_⟩
        rw [hm, List.flatMap_nil, List.append_nil,
          List.getLast?_append_of_ne_nil _ h.first.ne_nil] at hd
        exact List.mem_of_getLast? hd
      · have hn := h.more n (by simp [hm])
        refine ⟨n.name, hn, ?_⟩
        rw [hm, List.concat_eq_append, List.flatMap_append, List.flatMap_singleton,
          ← List.append_assoc, ← List.append_assoc,
          List.getLast?_append_of_ne_nil _ hn.ne_nil] at hd
        exact List.mem_of_getLast? hd
    obtain ⟨w, hw, hdw⟩ := hlast
    exact hw.not_blank d hdw

end Base.Proper

end Query

namespace TypeExpression

open Query

variable {text : String} {e : TypeExpression}

theorem exists_base_of_parse (h : parse text = .ok e) : ∃ b : Base, b.Proper ∧ e.base = b.text := by
  unfold parse at h
  split at h
  next e' he =>
    cases h
    exact exists_base_of_parse? (fun t => Token.proper_of_mem_lex) he
  next => cases h

theorem base_trimmed (h : parse text = .ok e) :
    e.base.isEmpty = false ∧ Text.trim e.base = e.base := by
  obtain ⟨b, hb, he⟩ := exists_base_of_parse h
  rw [he]
  exact ⟨hb.text_ne_empty, hb.trim_text⟩

end TypeExpression

namespace Registry

variable {r : Registry} {name : String}

theorem Arranged.enclosing_global (hr : r.Arranged) : r.enclosing .global = [.global] := by
  obtain ⟨n, hn⟩ := Nat.exists_eq_succ_of_ne_zero (Nat.ne_of_gt hr.global_lt)
  have hparent : r.scope? .global >>= Scope.parent = none :=
    Option.bind_eq_none_iff.mpr fun _ hsc => (hr.toLinked.global_place hr.toTreelike hsc).1
  simp only [enclosing, hn, scopesOutward, hparent]

theorem ofString_of_plain (htrim : Text.trim name = name) (hcolon : ∀ c ∈ name.toList, c ≠ ':') :
    Path.ofString name = ⟨false, [name]⟩ := by
  have hchars : Text.trimChars name.toList = name.toList := by
    rw [← String.toList_ofList (l := Text.trimChars name.toList), ← Text.trim, htrim]
  have hanchor : Path.startsAnchored name.toList = false := by
    cases hc : name.toList with
    | nil => rfl
    | cons c cs =>
      have hne := hcolon c (hc ▸ List.mem_cons_self)
      rw [Path.startsAnchored]
      intro ds hds
      exact hne (List.cons.inj hds).1
  have hdrop : Path.dropColons name.toList = name.toList := by
    cases hc : name.toList with
    | nil => rfl
    | cons c cs =>
      have hne := hcolon c (hc ▸ List.mem_cons_self)
      rw [Path.dropColons]
      intro ds hds
      exact hne (List.cons.inj hds).1
  simp only [Path.ofString, hchars, hanchor, hdrop, Text.cutColons_word hcolon, List.map_cons,
    List.map_nil, String.ofList_toList, htrim]

theorem Arranged.find_global_eq_ok (hr : r.Arranged) (hne : name.isEmpty = false)
    (htrim : Text.trim name = name) (hcolon : ∀ c ∈ name.toList, c ≠ ':') {id : TypeId} :
    r.find .global name = .ok id ↔ r.bound? .global name = some id := by
  have hpath : r.findPath? .global ⟨false, [name]⟩ = r.bound? .global name := by
    simp only [findPath?, hne, startScopes, hr.enclosing_global, List.findSome?_cons,
      List.findSome?_nil, Bool.false_eq_true, if_false]
    cases r.bound? .global name <;> rfl
  rw [find, ofString_of_plain htrim hcolon, hpath]
  cases r.bound? .global name <;> simp

end Registry

namespace TypeExpression

/-- The name spells a fundamental type and is bound in global scope as well. -/
def Contested (r : Registry) (name : String) : Prop :=
  (Fundamental.ofSpelling? name).isSome = true ∧ (r.bound? .global name).isSome = true

variable {r : Registry} {text : String} {e : TypeExpression} {kind : Fundamental} {id : TypeId}

theorem pointers_arrays_of_isNamed (h : e.isNamed = true) (d : Descriptor) :
    arrays e.dimensions (pointers e.pointerDepth d) = d := by
  simp only [isNamed, Bool.and_eq_true, beq_iff_eq, List.isEmpty_iff] at h
  rw [h.1, h.2]
  rfl

theorem resolve_of_plain (hplain : e.elaborated = none) (hnamed : e.isNamed = true) :
    e.resolve r = match Fundamental.ofSpelling? e.base with
      | some kind => .ok (.fundamental kind)
      | none => .named <$> r.find .global e.base := by
  have hwrap : (fun d => arrays e.dimensions (pointers e.pointerDepth d)) = id :=
    funext (pointers_arrays_of_isNamed hnamed)
  have hbase : e.fundamental? = Fundamental.ofSpelling? e.base := by
    simp only [fundamental?, hplain]
  rw [resolve, hwrap, resolveBase, hplain, hbase]
  cases Fundamental.ofSpelling? e.base with
  | some kind => rfl
  | none => cases r.find .global e.base <;> rfl

theorem find_eq_ok_iff_bound (hr : r.Arranged) (hp : parse text = .ok e)
    (hs : Fundamental.ofSpelling? e.base = some kind) :
    r.find .global e.base = .ok id ↔ r.bound? .global e.base = some id := by
  obtain ⟨hne, htrim⟩ := base_trimmed hp
  exact hr.find_global_eq_ok hne htrim fun c => Fundamental.ne_colon_of_ofSpelling? hs

theorem resolve_eq_resolveName (hr : r.Arranged) (hp : parse text = .ok e)
    (hplain : e.elaborated = none) (hnamed : e.isNamed = true) (hc : ¬ Contested r e.base) :
    e.resolve r = r.resolveName .global e.base := by
  rw [resolve_of_plain hplain hnamed, Registry.resolveName]
  cases hs : Fundamental.ofSpelling? e.base with
  | none => cases r.find .global e.base <;> rfl
  | some kind =>
    cases hf : r.find .global e.base with
    | error => rfl
    | ok id =>
      have hbound := (find_eq_ok_iff_bound hr hp hs).mp hf
      exact absurd ⟨Option.isSome_of_eq_some hs, Option.isSome_of_eq_some hbound⟩ hc

theorem resolveDeclarator_named (defining : List TypeId) (name : String) (z : Resolution) :
    (resolveDeclarator defining .global (.named name)).run z =
      (z.registry.resolveName .global name, z) :=
  (run_bind_ok rfl).trans (run_ofExcept _ z)

/-- The name of a type without pointers and bounds means the same in an expression and in a
declaration at global scope, down to the error, unless it is contested. Then it should, but the
expression reads it by the specifiers and never asks the registry. -/
theorem resolve_agrees_with_declarator (hr : r.Reached) (hp : parse text = .ok e)
    (hplain : e.elaborated = none) (hnamed : e.isNamed = true) (defining : List TypeId)
    {z : Resolution} (hz : z.registry = r) :
    (¬ Contested r e.base →
      (resolveDeclarator defining .global (.named e.base)).run z = (e.resolve r, z)) ∧
    (Contested r e.base → ∃ kind id, Fundamental.ofSpelling? e.base = some kind ∧
      r.bound? .global e.base = some id ∧ e.resolve r = .ok (.fundamental kind) ∧
      (resolveDeclarator defining .global (.named e.base)).run z = (.ok (.named id), z)) := by
  rw [resolveDeclarator_named, hz]
  constructor
  · intro hc
    rw [resolve_eq_resolveName hr.arranged hp hplain hnamed hc]
  · rintro ⟨hs, hb⟩
    obtain ⟨kind, hs⟩ := Option.isSome_iff_exists.mp hs
    obtain ⟨id, hb⟩ := Option.isSome_iff_exists.mp hb
    have hf := (find_eq_ok_iff_bound hr.arranged hp hs).mpr hb
    refine ⟨kind, id, hs, hb, ?_, ?_⟩
    · rw [resolve_of_plain hplain hnamed, hs]
    · rw [Registry.resolveName, hf]

def wideRegistry : Registry :=
  (Registry.withPrelude.perform (.define .global "wchar_t"
    (.typedef (.fundamental .unsignedShort)))).2

theorem wideRegistry_reached : wideRegistry.Reached :=
  .step _ .prelude Registry.withPrelude_arranged.global_lt

theorem wideRegistry_resolves :
    parse " :: size_t" = .ok ⟨none, "::size_t", 0, []⟩ ∧ ¬ Contested wideRegistry "::size_t" ∧
    (resolveDeclarator [] .global (.named "::size_t")).run { registry := wideRegistry } =
      (resolve ⟨none, "::size_t", 0, []⟩ wideRegistry, { registry := wideRegistry }) ∧
    parse "const wchar_t" = .ok ⟨none, "wchar_t", 0, []⟩ ∧ Contested wideRegistry "wchar_t" ∧
    ∃ kind id, Fundamental.ofSpelling? "wchar_t" = some kind ∧
      wideRegistry.bound? .global "wchar_t" = some id ∧
      resolve ⟨none, "wchar_t", 0, []⟩ wideRegistry = .ok (.fundamental kind) ∧
      (resolveDeclarator [] .global (.named "wchar_t")).run { registry := wideRegistry } =
        (.ok (.named id), { registry := wideRegistry }) := by
  have hsize : ¬ Contested wideRegistry "::size_t" := fun h => by cases h.1
  have hwide : Contested wideRegistry "wchar_t" := ⟨rfl, by decide +kernel⟩
  -- the registry stays closed, since unfolding it here runs all of the prelude
  have hz : ∀ r : Registry, ({ registry := r } : Resolution).registry = r := fun _ => rfl
  have hparse : parse " :: size_t" = .ok ⟨none, "::size_t", 0, []⟩ := rfl
  have hparse' : parse "const wchar_t" = .ok ⟨none, "wchar_t", 0, []⟩ := rfl
  have hagrees := (resolve_agrees_with_declarator wideRegistry_reached hparse rfl rfl []
    (hz wideRegistry)).1 hsize
  have hparts := (resolve_agrees_with_declarator wideRegistry_reached hparse' rfl rfl []
    (hz wideRegistry)).2 hwide
  exact ⟨hparse, hsize, hagrees, hparse', hwide, hparts⟩

/-- So a query of `wchar_t` and a member declared with it may name different types. -/
theorem wideCharacter_disagrees : wideRegistry.Reached ∧
    parse "wchar_t" = .ok ⟨none, "wchar_t", 0, []⟩ ∧
    isNamed ⟨none, "wchar_t", 0, []⟩ = true ∧
    resolve ⟨none, "wchar_t", 0, []⟩ wideRegistry = .ok (.fundamental .wideChar) ∧
    (resolveDeclarator [] .global (.named "wchar_t")).run { registry := wideRegistry } =
      (.ok (.named ⟨33⟩), { registry := wideRegistry }) := by
  refine ⟨wideRegistry_reached, rfl, rfl, rfl, ?_⟩
  have hfind : wideRegistry.findPath? .global (.ofString "wchar_t") = some ⟨33⟩ := by
    decide +kernel
  rw [resolveDeclarator_named, Registry.resolveName, Registry.find, hfind]

end TypeExpression

end TypeLayout
