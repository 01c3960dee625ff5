import Mathlib
import TypeLayout.Proofs.Layout.Exact
import TypeLayout.Query.Report
/-! Arithmetic in 64 bits refines the rule. A layout succeeds exactly if every size below the type
fits, and then it is the rule's; no sum of an offset and a size exceeds the size of the type. -/

namespace TypeLayout

open Relation (ReflTransGen TransGen)
open Registry

namespace Region

theorem stop_le_of_mem_between {start stop : Nat} {r : Region} (h : r ∈ between start stop) :
    r.stop ≤ stop := by
  unfold between at h
  split at h
  next hlt =>
    rw [List.mem_singleton.mp h]
    unfold Region.stop
    dsimp only
    omega
  next => cases h

def bytes (rs : List Region) : Nat := (rs.map Region.size).sum

@[simp] theorem bytes_append (rs ss : List Region) : bytes (rs ++ ss) = bytes rs + bytes ss := by
  simp [bytes]

theorem bytes_between (start stop : Nat) : bytes (between start stop) = stop - start := by
  unfold between
  split
  · simp [bytes]
  · simp only [bytes, List.map_nil, List.sum_nil]
    omega

end Region

theorem Layout.paddingBytes_eq (l : Layout) : l.paddingBytes = Region.bytes l.padding := by
  have hfold : ∀ (rs : List Region) (n : Nat),
      rs.foldl (fun n p => n + p.size) n = n + Region.bytes rs := by
    intro rs
    induction rs with
    | nil => exact fun n => rfl
    | cons r rs ih =>
      intro n
      rw [List.foldl_cons, ih, Region.bytes, Region.bytes, List.map_cons, List.sum_cons,
        Nat.add_assoc]
  unfold paddingBytes
  rw [hfold, Nat.zero_add]

namespace LayoutEnv

variable {env : LayoutEnv} {trail : Trail} {a : Aggregate} {owner : String} {d z : Descriptor}
  {n : Nat} {l : Layout} {x : Descriptor → Layout} {ps : List Part} {c : Nat}

theorem stop_le_of_mem_gaps {r : Region} (h : r ∈ env.gaps ps c) : r.stop ≤ env.stopOf ps c := by
  induction ps generalizing c with
  | nil => cases h
  | cons p ps ih =>
    rcases List.mem_append.mp h with h | h
    · have hstart := Region.stop_le_of_mem_between h
      have hstop := Nat.le_trans hstart ((env.piece p).start_le_stop c)
      exact Nat.le_trans hstop (env.le_stopOf ps _)
    · exact ih h

theorem bytes_gaps_le (env : LayoutEnv) (ps : List Part) (c : Nat) :
    c + Region.bytes (env.gaps ps c) ≤ env.stopOf ps c := by
  induction ps generalizing c with
  | nil => exact Nat.le_refl _
  | cons p ps ih =>
    have hrest := ih ((env.piece p).stop c)
    have hstart := (env.piece p).le_start c
    have hstop := (env.piece p).start_le_stop c
    change c + Region.bytes (Region.between _ _ ++ env.gaps ps _) ≤
      env.stopOf ps ((env.piece p).stop c)
    rw [Region.bytes_append, Region.bytes_between]
    omega

theorem stop_le_of_mem_entries {b : BaseSubobject}
    (h : b ∈ (env.starts ps c).flatMap env.entriesAt) : b.stop ≤ env.stopOf ps c := by
  induction ps generalizing c with
  | nil => cases h
  | cons p ps ih =>
    rcases List.mem_append.mp h with h | h
    · cases p with
      | base laid =>
        rw [List.mem_singleton.mp h]
        exact env.le_stopOf ps _
      | slot owner => cases h
      | member m l => cases h
    · exact ih h

theorem ownStop_le_sharedStart (env : LayoutEnv) (x : Descriptor → Layout) (owner : String)
    (a : Aggregate) :
    env.stopOf (env.ownParts x owner a) 0 ≤ env.sharedStart x owner a := by
  unfold sharedStart
  split
  · exact Nat.le_refl _
  · exact Alignment.le_roundUp _ _

structure Encloses (l : Layout) : Prop where
  base : ∀ b ∈ l.bases, b.stop ≤ l.size
  padding : ∀ r ∈ l.padding, r.stop ≤ l.size
  bytes : Region.bytes l.padding ≤ l.size

theorem scalar_encloses (size : Nat) (align : Alignment) : Encloses (.scalar size align) :=
  ⟨fun b hb => (by cases hb), fun r hr => (by cases hr), Nat.zero_le _⟩

theorem padding_recordBy (env : LayoutEnv) (x : Descriptor → Layout) (owner : String)
    (a : Aggregate) :
    ∃ stop tail, stop = env.stopOf (env.sharedParts x a) (env.sharedStart x owner a) ∧
      (env.recordBy x owner a).padding = env.gaps (env.ownParts x owner a) 0 ++
        Region.between (env.stopOf (env.ownParts x owner a) 0) (env.sharedStart x owner a) ++
        env.gaps (env.sharedParts x a) (env.sharedStart x owner a) ++ tail ∧
      stop + Region.bytes tail ≤ (env.recordBy x owner a).size ∧
      ∀ r ∈ tail, r.stop ≤ (env.recordBy x owner a).size := by
  by_cases hz : ((a.flagsOver (env.basesBy x a.bases)).empty &&
      env.stopOf (env.sharedParts x a) (env.sharedStart x owner a) = 0) = true
  · have hsize : (env.recordBy x owner a).size = 1 := if_pos hz
    simp only [Bool.and_eq_true, decide_eq_true_eq] at hz
    refine ⟨_, [], rfl, congrArg (_ ++ ·) (if_pos (by simpa using hz)), ?_,
      fun r hr => (by cases hr)⟩
    rw [hsize, hz.2]
    exact Nat.zero_le 1
  · have hsize : (env.recordBy x owner a).size = Alignment.roundUp _ _ := if_neg hz
    refine ⟨_, Region.between _ (env.recordBy x owner a).size, rfl,
      congrArg (_ ++ ·) (if_neg hz), ?_, fun r hr => Region.stop_le_of_mem_between hr⟩
    rw [Region.bytes_between, hsize]
    exact Nat.le_of_eq (Nat.add_sub_of_le (Alignment.le_roundUp _ _))

theorem recordBy_encloses : Encloses (env.recordBy x owner a) := by
  obtain ⟨stop, tail, hstop, hpadding, htail, hend⟩ := env.padding_recordBy x owner a
  have hstart := env.ownStop_le_sharedStart x owner a
  have hshared := env.le_stopOf (env.sharedParts x a) (env.sharedStart x owner a)
  have hown := env.bytes_gaps_le (env.ownParts x owner a) 0
  have hgaps := env.bytes_gaps_le (env.sharedParts x a) (env.sharedStart x owner a)
  rw [← hstop] at hshared hgaps
  refine ⟨fun b hb => ?_, fun r hr => ?_, ?_⟩
  · change b ∈ List.flatMap _ (_ ++ _) at hb
    rw [List.flatMap_append, List.mem_append] at hb
    rcases hb with hb | hb
    · have hle := stop_le_of_mem_entries hb
      omega
    · have hle := stop_le_of_mem_entries hb
      omega
  · rw [hpadding] at hr
    simp only [List.mem_append] at hr
    rcases hr with ((hr | hr) | hr) | hr
    · have hle := stop_le_of_mem_gaps hr
      omega
    · have hle := Region.stop_le_of_mem_between hr
      omega
    · have hle := stop_le_of_mem_gaps hr
      omega
    · exact hend r hr
  · rw [hpadding, Region.bytes_append, Region.bytes_append, Region.bytes_append,
      Region.bytes_between]
    omega

theorem unionBy_encloses : Encloses (env.unionBy x a) := by
  unfold unionBy
  split
  · exact ⟨fun b hb => (by cases hb), fun r hr => (by cases hr), Nat.zero_le _⟩
  · refine ⟨fun b hb => (by cases hb), fun r hr => Region.stop_le_of_mem_between hr, ?_⟩
    change Region.bytes (Region.between _ _) ≤ Alignment.roundUp _ _
    rw [Region.bytes_between]
    exact Nat.sub_le _ _

theorem fundamentalBy_encloses (kind : Fundamental) : Encloses (env.fundamentalBy kind) := by
  unfold fundamentalBy
  split
  · exact scalar_encloses _ _
  · exact scalar_encloses _ _

theorem exactWithin_encloses (env : LayoutEnv) (n : Nat) (d : Descriptor) :
    Encloses (env.exactWithin n d) := by
  have hagg : ∀ {x owner a}, Encloses (env.aggregateBy x owner a) := by
    intro x owner a
    unfold aggregateBy
    split
    · exact unionBy_encloses
    · exact recordBy_encloses
  induction n generalizing d with
  | zero => exact scalar_encloses _ _
  | succ n ih =>
    change Encloses (env.rule (env.exactWithin n) d)
    cases d with
    | fundamental kind => exact fundamentalBy_encloses kind
    | pointer d => exact scalar_encloses _ _
    | array element count => exact scalar_encloses _ _
    | enum e => exact fundamentalBy_encloses e.underlying
    | aggregate a => exact hagg
    | named id =>
      cases hdef : env.registry.definition? id with
      | none =>
        rw [rule_undefined hdef]
        exact scalar_encloses _ _
      | some def' =>
        cases def' with
        | typedef t =>
          rw [rule_typedef hdef]
          exact ih t
        | enum e =>
          rw [rule_enum hdef]
          exact fundamentalBy_encloses e.underlying
        | aggregate a =>
          rw [rule_body hdef]
          exact hagg

theorem size_aggregateBy (owner owner' : String) :
    (env.aggregateBy x owner a).size = (env.aggregateBy x owner' a).size := by
  have hstop : ∀ c, env.stopOf (env.ownParts x owner a) c =
      env.stopOf (env.ownParts x owner' a) c := by
    intro c
    unfold ownParts
    dsimp only
    split
    · rfl
    · rfl
  have halign : env.strictest (env.ownParts x owner a) .one =
      env.strictest (env.ownParts x owner' a) .one := by
    unfold ownParts
    dsimp only
    split
    · rfl
    · rfl
  unfold aggregateBy
  split
  · rfl
  · unfold recordBy sharedStart
    simp only [hstop, halign]

theorem exact_strip (hr : env.registry.Founded) (hd : env.registry.Grounded env.Simple d) :
    env.exact (env.registry.strip d) = env.exact d := by
  induction d using hr.typedef_induction with
  | link id t ht ih =>
    rw [hr.strip_typedef ht, ih (hd.held (.target ht)), exact_eq_rule hr hd, rule_typedef ht]
  | stop d hnot => rw [strip_of_not_typedef hnot]

theorem reaches_base (hr : env.registry.Founded) (hd : env.registry.Grounded env.Simple d)
    (hz : env.registry.Reaches d z) :
    env.registry.Reaches (env.registry.strip d) z ∨
      env.exact z = env.exact (env.registry.strip d) := by
  induction d using hr.typedef_induction with
  | link id t ht ih =>
    rcases ReflTransGen.cases_head hz with rfl | ⟨w, hw, hz⟩
    · exact Or.inr (exact_strip hr hd).symm
    · obtain rfl := (holds_typedef ht).mp hw
      rw [hr.strip_typedef ht]
      exact ih (hd.held (.target ht)) hz
  | stop d hnot =>
    rw [strip_of_not_typedef hnot]
    exact Or.inl hz

theorem asks_fit_iff (hr : env.registry.Founded) {g : Descend (Except LayoutError)}
    (hheld : env.ListsHeld g) (hd : env.registry.Grounded env.Simple (.aggregate a)) :
    (∀ name z, env.Asks g trail a name z →
      ∀ w, env.registry.Reaches z w → (env.exact w).size < addressLimit) ↔
    ∀ z, env.registry.Holds (.aggregate a) z →
      ∀ w, env.registry.Reaches z w → (env.exact w).size < addressLimit := by
  constructor
  · intro h z hz w hw
    have hground := hd.held hz
    cases hz with
    | member hx hnone => exact h _ _ (.member hx hnone) w hw
    | @base _ b hu hb =>
      obtain ⟨id, hid⟩ := hd.here.2 hu b hb
      have hbase := h _ _ (.base hu hb (baseId_eq_ok.mpr hid))
      rcases reaches_base hr hground hw with hw | he
      · exact hbase w (hid ▸ hw)
      · rw [he, hid]
        exact hbase _ .refl
  · intro h name z hz w hw
    obtain ⟨v, hv, hvz⟩ := TransGen.head'_iff.mp (hz.contained hr hheld)
    exact h v hv w (hvz.trans hw)

theorem fundamental_answers {kind : Fundamental} (h : kind ≠ .void) :
    Answers (env.fundamental kind) ((env.fundamentalBy kind).size < addressLimit)
      (env.fundamentalBy kind) := by
  unfold fundamental fundamentalBy
  cases he : env.machine.extent? kind with
  | none => exact absurd ((env.machine.extent?_eq_none_iff kind).mp he) h
  | some p =>
    obtain ⟨size, align⟩ := p
    have hlt : size < addressLimit := by
      unfold Machine.extent? at he
      split at he
      next c _ =>
        cases he
        exact (env.machine.row c).size_lt
      next =>
        split at he
        · cases he
          exact env.machine.pointer.value_lt
        · cases he
    exact (Answers.ok _).congr ⟨fun _ => hlt, fun _ => trivial⟩

theorem array_answers {element : Descriptor} {count : Nat} (h : l.size ≠ 0) :
    Answers (env.array element count l) (l.size * count < addressLimit)
      (.scalar (l.size * count) l.align) := by
  unfold array
  rw [if_neg h]
  exact .guarded _ _

/-- With this much fuel, a descent into a type of which nothing is in progress answers as the rule
says. -/
def Conforms (env : LayoutEnv) (n : Nat) : Prop :=
  ∀ trail d, env.registry.Fits n trail d → Clear env.registry trail d →
    env.registry.Grounded env.Simple d → Answers (env.layoutWithin n trail d)
      (∀ z, env.registry.Reaches d z → (env.exact z).size < addressLimit) (env.exact d)

namespace Conforms

theorem aggregate (h : env.Conforms n) (hr : env.registry.Founded)
    (hf : env.registry.Fits (n + 1) trail (.aggregate a))
    (hc : ∀ z, env.registry.Contains (.aggregate a) z → Clear env.registry trail z)
    (hd : env.registry.Grounded env.Simple (.aggregate a)) :
    Answers (env.aggregate (env.layoutWithin n) trail a owner)
      (∀ z, env.registry.Reaches (.aggregate a) z → (env.exact z).size < addressLimit)
      (env.aggregateBy env.exact owner a) := by
  have hheld := layoutWithin_listsHeld env hr n
  refine (aggregate_answers
    (Q := fun z => ∀ w, env.registry.Reaches z w → (env.exact w).size < addressLimit)
    hd.here.1 hd.here.2 fun name z hz => ?_).congr ?_
  · have hin := hz.contained hr hheld
    exact h _ z (hz.fits hr hheld hf) ((hc z hin).enter name) (hd.reached hin.to_reflTransGen)
  · rw [asks_fit_iff hr hheld hd, forall_reaches_iff, exact_eq_rule hr hd, and_comm,
      size_aggregateBy owner a.displayName]
    rfl

theorem array {element : Descriptor} {count : Nat} (h : env.Conforms n) (hr : env.registry.Founded)
    (hf : env.registry.Fits (n + 1) trail (.array element count))
    (hc : Clear env.registry trail (.array element count))
    (hd : env.registry.Grounded env.Simple (.array element count)) :
    Answers (env.layoutStep (env.layoutWithin n) trail (.array element count))
      (∀ z, env.registry.Reaches (.array element count) z → (env.exact z).size < addressLimit)
      (env.rule env.exact (.array element count)) := by
  have hw : element.weight < (Descriptor.array element count).weight := Nat.lt_succ_self _
  have hx : env.registry.Holds (.array element count) element := .element
  have helement := h trail element (hf.inside (fun _ hid => hid) hw) (hc.reached (.single hx))
    (hd.held hx)
  refine (helement.bind fun _ => (array_answers hd.here).lift).congr ?_
  rw [forall_reaches_iff (d := .array element count), exact_eq_rule hr hd, and_comm]
  refine and_congr_right fun _ => ⟨fun h z hz => ?_, fun h => h _ hx⟩
  cases hz
  exact h

theorem typedef {id : TypeId} {t : Descriptor} (h : env.Conforms n) (hr : env.registry.Founded)
    (hdef : env.registry.definition? id = some (.typedef t))
    (hf : env.registry.Fits (n + 1) trail (.named id)) (hc : Clear env.registry trail (.named id))
    (hd : env.registry.Grounded env.Simple (.named id)) :
    Answers (env.layoutWithin n trail t)
      (∀ z, env.registry.Reaches (.named id) z → (env.exact z).size < addressLimit)
      (env.rule env.exact (.named id)) := by
  have ht : env.registry.Holds (.named id) t := .target hdef
  rw [rule_typedef hdef]
  refine (h trail t (hf.typedef hr hdef) (hc.reached (.single ht)) (hd.held ht)).congr ?_
  rw [forall_reaches_iff (d := .named id), exact_eq_rule hr hd, rule_typedef hdef]
  refine ⟨fun h => ⟨h t .refl, fun z hz => ?_⟩, fun h => h.2 t ht⟩
  obtain rfl := (holds_typedef hdef).mp hz
  exact h

theorem namedAggregate {id : TypeId} (h : env.Conforms n) (hr : env.registry.Founded)
    (hdef : env.registry.definition? id = some (.aggregate a))
    (hf : env.registry.Fits (n + 1) trail (.named id)) (hc : Clear env.registry trail (.named id))
    (hd : env.registry.Grounded env.Simple (.named id)) :
    Answers (env.namedAggregate (env.layoutWithin n) trail id a)
      (∀ z, env.registry.Reaches (.named id) z → (env.exact z).size < addressLimit)
      (env.rule env.exact (.named id)) := by
  have ha : env.registry.Holds (.named id) (.aggregate a) := .body hdef
  rw [rule_body hdef, namedAggregate_plain, hc.find?]
  refine (h.aggregate hr (hf.body hdef hc.find?) (fun z hz => ?_) (hd.held ha)).congr ?_
  · exact hc.push hd.not_contains_self (TransGen.head ha hz)
  · rw [forall_reaches_iff (d := .named id), exact_eq_rule hr hd, rule_body hdef]
    refine ⟨fun h => ⟨?_, fun z hz => ?_⟩, fun h => h.2 _ ha⟩
    · have hsize := h _ .refl
      rw [exact_eq_rule hr (hd.held ha)] at hsize
      rw [size_aggregateBy _ a.displayName]
      exact hsize
    · obtain rfl := (holds_body hdef).mp hz
      exact h

theorem succ (h : env.Conforms n) (hr : env.registry.Founded) : env.Conforms (n + 1) := by
  intro trail d hf hc hd
  rw [exact_eq_rule hr hd]
  change Answers (env.layoutStep (env.layoutWithin n) trail d) _ _
  cases d with
  | fundamental kind =>
    rw [forall_reaches_of_leaf (fun x hx => by cases hx), exact_eq_rule hr hd]
    exact (fundamental_answers hd.here).lift
  | pointer d =>
    rw [forall_reaches_of_leaf (fun x hx => by cases hx), exact_eq_rule hr hd]
    exact (Answers.pure _).congr ⟨fun _ => env.machine.pointer.value_lt, fun _ => trivial⟩
  | array element count => exact h.array hr hf hc hd
  | enum e =>
    rw [forall_reaches_of_leaf (fun x hx => by cases hx), exact_eq_rule hr hd]
    exact (fundamental_answers hd.here).lift
  | aggregate a => exact h.aggregate hr hf (fun z hz => hc.reached hz.to_reflTransGen) hd
  | named id =>
    obtain ⟨def', hdef, hvoid⟩ := hd.here
    have hdefined : Answers (ofExcept (env.registry.definition id)) True def' := by
      rw [definition_eq_ok.mpr hdef]
      exact .ok def'
    refine Answers.congr (hdefined.bind fun _ => ?_) (Iff.of_eq (true_and _))
    cases def' with
    | typedef t => exact h.typedef hr hdef hf hc hd
    | enum e =>
      rw [rule_enum hdef, forall_reaches_of_leaf (fun x hx => not_holds_enum hdef hx),
        exact_eq_rule hr hd, rule_enum hdef]
      exact (fundamental_answers (hvoid e rfl)).lift
    | aggregate a => exact h.namedAggregate hr hdef hf hc hd

end Conforms

/-- A descent with enough fuel of which nothing is in progress answers as the rule says. -/
theorem layoutWithin_conforms (hr : env.registry.Founded) (n : Nat) : env.Conforms n := by
  induction n with
  | zero => exact fun trail d hf => absurd hf not_fits_zero
  | succ n ih => exact ih.succ hr

theorem tractable_of_grounded (h : env.registry.Grounded env.Simple d) : env.Tractable d :=
  ⟨fun _ hz => (h.reached hz).here, fun _ hz => (h.reached hz).not_contains_self⟩

/-- The layouts below a type follow the rule, where every part starts at the least multiple of its
alignment that is free. The type is laid out exactly if the size of everything it contains by value
fits in 64 bits, and then as the rule says; then no slot, base, field or padding ends behind the
type, and all the padding together is no larger than the type. -/
theorem layoutOf_refines_rule (hr : env.registry.Built) (hd : env.Tractable d) :
    (∀ z, env.registry.Reaches d z → env.exact z = env.rule env.exact z) ∧
    ((∃ l, env.layoutOf d = (.ok l : Except LayoutError Layout)) ↔
      ∀ z, env.registry.Reaches d z → (env.exact z).size < addressLimit) ∧
    ∀ l, env.layoutOf d = (.ok l : Except LayoutError Layout) →
      l = env.exact d ∧ l.size < addressLimit ∧
      (∀ row ∈ Report.rowsOf l env.machine.pointerSize, row.stop ≤ l.size) ∧
      l.paddingBytes ≤ l.size := by
  have hfounded := hr.wellFormed.toFounded
  have hground := hd.grounded hfounded
  have hanswers : Answers (env.layoutOf d) _ (env.exact d) :=
    layoutWithin_conforms hfounded _ [] d (env.registry.fits_layoutFuel d) (clear_nil _ d) hground
  refine ⟨fun z hz => exact_eq_rule hfounded (hground.reached hz), ⟨?_, ?_⟩, fun l hl => ?_⟩
  · rintro ⟨l, hl⟩
    exact ((hanswers l).mp hl).1
  · exact fun h => ⟨_, hanswers.eq_ok h⟩
  · have hregular : l.Regular env.machine := layoutWithin_regular env _ [] d l hl
    obtain ⟨hsizes, rfl⟩ := (hanswers l).mp hl
    have hencloses : Encloses (env.exact d) := exactWithin_encloses env _ d
    refine ⟨rfl, hsizes d .refl, fun row hrow => ?_, ?_⟩
    · simp only [Report.rowsOf, List.mem_append, List.mem_map] at hrow
      rcases hrow with ((⟨s, hs, rfl⟩ | ⟨b, hb, rfl⟩) | ⟨f, hf, rfl⟩) | ⟨p, hp, rfl⟩
      · exact (hregular.slot s hs).stop_le
      · exact hencloses.base b hb
      · exact Nat.le_trans (hregular.field f hf).stop_le hregular.nvSize_le
      · exact hencloses.padding p hp
    · rw [Layout.paddingBytes_eq]
      exact hencloses.bytes

def nodeClass : Aggregate :=
  ⟨.classType, some "Node", [⟨"next", .pointer (.named ⟨0⟩), none⟩], [], []⟩

def leafClass : Aggregate :=
  ⟨.classType, some "Leaf", [⟨"value", .fundamental .char, none⟩], [⟨.named ⟨0⟩, true⟩], []⟩

def keyUnion : Aggregate :=
  ⟨.unionType, none, [⟨"number", .fundamental .int, none⟩, ⟨"real", .fundamental .double, none⟩],
    [], []⟩

def treeClass : Aggregate :=
  ⟨.classType, some "Tree",
    [⟨"sizes", .array (.fundamental .short) 3, none⟩, ⟨"key", .aggregate keyUnion, none⟩],
    [⟨.named ⟨1⟩, false⟩], []⟩

def forwardNode : Registry := (empty.alloc .global "Node" (.forward (.aggregate .classType))).2

def nodeRegistry : Registry := forwardNode.setState ⟨0⟩ (.defined (.aggregate nodeClass))

def leafRegistry : Registry :=
  (nodeRegistry.alloc .global "Leaf" (.defined (.aggregate leafClass))).2

def trees : LayoutEnv where
  registry := (leafRegistry.alloc .global "Tree" (.defined (.aggregate treeClass))).2
  machine := Profile.lp64.machine
  policy := .strictSequential

theorem trees_built : trees.registry.Built := by
  have hforward : empty.declare .global "Node" (.aggregate .classType) =
      .ok (⟨0⟩, forwardNode) := by
    rfl
  have hnode : forwardNode.define .global "Node" (.aggregate nodeClass) =
      .ok (⟨0⟩, nodeRegistry) := by
    rfl
  have hleaf : nodeRegistry.define .global "Leaf" (.aggregate leafClass) =
      .ok (⟨1⟩, leafRegistry) := by
    rfl
  have htree : leafRegistry.define .global "Tree" (.aggregate treeClass) =
      .ok (⟨2⟩, trees.registry) := by
    rfl
  have hdeclared : forwardNode.Built := .declare .empty (by decide) hforward
  have hdefined : nodeRegistry.Built := .define hdeclared (by decide) (by decide) hnode
  have hderived : leafRegistry.Built := .define hdefined (by decide) (by decide) hleaf
  exact .define hderived (by decide) (by decide) htree

theorem fundamental_grounded {kind : Fundamental} (h : kind ≠ .void) :
    env.registry.Grounded env.Simple (.fundamental kind) := .intro h fun x hx => by cases hx

theorem tree_grounded : trees.registry.Grounded trees.Simple (.named ⟨2⟩) := by
  have hnode : trees.registry.Grounded trees.Simple (.named ⟨0⟩) := by
    refine .intro ⟨_, rfl, fun e he => by cases he⟩ fun x hx => ?_
    obtain rfl := (holds_body (a := nodeClass) rfl).mp hx
    refine .intro ⟨by decide, fun _ b hb => by cases hb⟩ fun x hx => ?_
    cases hx with
    | member hx _ =>
      obtain rfl := List.mem_singleton.mp hx
      exact .intro trivial fun x hx => by cases hx
    | base _ hb => cases hb
  have hleaf : trees.registry.Grounded trees.Simple (.named ⟨1⟩) := by
    refine .intro ⟨_, rfl, fun e he => by cases he⟩ fun x hx => ?_
    obtain rfl := (holds_body (a := leafClass) rfl).mp hx
    refine .intro ⟨by decide, fun _ b hb => ?_⟩ fun x hx => ?_
    · obtain rfl := List.mem_singleton.mp hb
      exact ⟨⟨0⟩, rfl⟩
    · cases hx with
      | member hx _ =>
        obtain rfl := List.mem_singleton.mp hx
        exact fundamental_grounded (by decide)
      | base _ hb =>
        obtain rfl := List.mem_singleton.mp hb
        exact hnode
  have hunion : trees.registry.Grounded trees.Simple (.aggregate keyUnion) := by
    refine .intro ⟨by decide, fun hu => by cases hu⟩ fun x hx => ?_
    cases hx with
    | member hx _ =>
      rcases List.mem_cons.mp hx with rfl | hx
      · exact fundamental_grounded (by decide)
      · obtain rfl := List.mem_singleton.mp hx
        exact fundamental_grounded (by decide)
    | base hu _ => cases hu
  have hsizes : trees.registry.Grounded trees.Simple (.array (.fundamental .short) 3) := by
    refine .intro (by decide : (trees.exact (.fundamental .short)).size ≠ 0) fun x hx => ?_
    cases hx
    exact fundamental_grounded (by decide)
  refine .intro ⟨_, rfl, fun e he => by cases he⟩ fun x hx => ?_
  obtain rfl := (holds_body (a := treeClass) rfl).mp hx
  refine .intro ⟨by decide, fun _ b hb => ?_⟩ fun x hx => ?_
  · obtain rfl := List.mem_singleton.mp hb
    exact ⟨⟨1⟩, rfl⟩
  · cases hx with
    | member hx _ =>
      rcases List.mem_cons.mp hx with rfl | hx
      · exact hsizes
      · obtain rfl := List.mem_singleton.mp hx
        exact hunion
    | base _ hb =>
      obtain rfl := List.mem_singleton.mp hb
      exact hleaf

def treeLayout : Layout where
  size := 40
  align := .eight
  nvSize := 32
  nvAlign := .eight
  fields := [⟨"sizes", "short[3]", 16, 6, .two, .whole⟩,
    ⟨"key", "union (anonymous)", 24, 8, .eight, .whole⟩]
  bases := [⟨"Leaf", 0, 16, false⟩, ⟨"Node", 32, 8, true⟩]
  slots := [⟨0, "Leaf", false⟩]
  padding := [⟨22, 2⟩]
  virtualBases := [⟨0⟩]
  flags := { dynamic := true, hasVirtualBases := true }

theorem treeLayout_exact : trees.registry.Built ∧ trees.Tractable (.named ⟨2⟩) ∧
    trees.layoutOf (.named ⟨2⟩) = (.ok treeLayout : Except LayoutError Layout) ∧
    treeLayout = trees.exact (.named ⟨2⟩) ∧
    ∀ z, trees.registry.Reaches (.named ⟨2⟩) z → (trees.exact z).size < addressLimit := by
  have hl : trees.layoutOf (.named ⟨2⟩) = (.ok treeLayout : Except LayoutError Layout) := by
    decide +kernel
  have htree := tractable_of_grounded tree_grounded
  have hrefines := layoutOf_refines_rule trees_built htree
  exact ⟨trees_built, htree, hl, (hrefines.2.2 treeLayout hl).1, hrefines.2.1.mp ⟨treeLayout, hl⟩⟩

def unnamedBase : Aggregate := ⟨.structType, none, [⟨"x", .fundamental .int, none⟩], [], []⟩

def unnamedDerived : Aggregate :=
  ⟨.structType, some "Derived", [], [⟨.aggregate unnamedBase, false⟩], []⟩

def unnamed : LayoutEnv where
  registry := (empty.alloc .global "Derived" (.defined (.aggregate unnamedDerived))).2
  machine := Profile.lp64.machine
  policy := .itaniumBaseline

/-- A virtual base that would fit into the bytes between the last member and the end of the
non-virtual part. -/
def sharedStruct : Aggregate :=
  ⟨.structType, some "Shared", [⟨"count", .fundamental .int, none⟩], [], []⟩

def holderClass : Aggregate :=
  ⟨.classType, some "Holder", [⟨"tag", .fundamental .char, none⟩], [⟨.named ⟨0⟩, true⟩], []⟩

def sharedRegistry : Registry :=
  (empty.alloc .global "Shared" (.defined (.aggregate sharedStruct))).2

def holders : LayoutEnv where
  registry := (sharedRegistry.alloc .global "Holder" (.defined (.aggregate holderClass))).2
  machine := Profile.lp64.machine
  policy := .itaniumBaseline

def holderLayout : Layout where
  size := 24
  align := .eight
  nvSize := 16
  nvAlign := .eight
  fields := [⟨"tag", "char", 8, 1, .one, .whole⟩]
  bases := [⟨"Shared", 16, 4, true⟩]
  slots := [⟨0, "Holder", false⟩]
  padding := [⟨9, 7⟩, ⟨20, 4⟩]
  virtualBases := [⟨0⟩]
  flags := { dynamic := true, hasVirtualBases := true }

/-- A base that has no name is refused, though all below the class is complete, and small; and a
virtual base does not start at the first multiple of its alignment behind the last member, but
behind the rounded non-virtual part. -/
theorem unnamedBase_refused_and_shared_behind_nvSize :
    (unnamed.registry.Built ∧
      (∀ z, unnamed.registry.Reaches (.named ⟨0⟩) z →
        (z = .named ⟨0⟩ ∨ z = .aggregate unnamedDerived ∨ z = .aggregate unnamedBase ∨
          z = .fundamental .int) ∧ ¬ unnamed.registry.Contains z z) ∧
      unnamed.layoutOf (.aggregate unnamedBase) = (.ok { Layout.scalar 4 .four with
        fields := [⟨"x", "int", 0, 4, .four, .whole⟩] } : Except LayoutError Layout) ∧
      unnamed.layoutOf (.named ⟨0⟩) =
        (.error (.unknownType "base class `struct (anonymous)`") : Except LayoutError Layout)) ∧
    (holders.registry.Built ∧
      holders.layoutOf (.named ⟨0⟩) = (.ok { Layout.scalar 4 .four with
        fields := [⟨"count", "int", 0, 4, .four, .whole⟩] } : Except LayoutError Layout) ∧
      holders.layoutOf (.named ⟨1⟩) = (.ok holderLayout : Except LayoutError Layout) ∧
      IsLeast {y | Alignment.four.value ∣ y ∧ 9 ≤ y} 12) := by
  have hderived : empty.define .global "Derived" (.aggregate unnamedDerived) =
      .ok (⟨0⟩, unnamed.registry) := by
    rfl
  have hshared : empty.define .global "Shared" (.aggregate sharedStruct) =
      .ok (⟨0⟩, sharedRegistry) := by
    rfl
  have hholder : sharedRegistry.define .global "Holder" (.aggregate holderClass) =
      .ok (⟨1⟩, holders.registry) := by
    rfl
  have hground : unnamed.registry.Grounded
      (fun z => z = .named ⟨0⟩ ∨ z = .aggregate unnamedDerived ∨
        z = .aggregate unnamedBase ∨ z = .fundamental .int) (.named ⟨0⟩) := by
    refine .intro (Or.inl rfl) fun x hx => ?_
    obtain rfl := (holds_body (a := unnamedDerived) rfl).mp hx
    refine .intro (Or.inr (Or.inl rfl)) fun x hx => ?_
    cases hx with
    | member hx _ => cases hx
    | base _ hb =>
      obtain rfl := List.mem_singleton.mp hb
      refine .intro (Or.inr (Or.inr (Or.inl rfl))) fun x hx => ?_
      cases hx with
      | member hx _ =>
        obtain rfl := List.mem_singleton.mp hx
        exact .intro (Or.inr (Or.inr (Or.inr rfl))) fun x hx => by cases hx
      | base _ hb => cases hb
  refine ⟨⟨.define .empty (by decide) (by decide) hderived, fun z hz => ?_, by decide +kernel,
      by rfl⟩,
    ⟨.define (.define .empty (by decide) (by decide) hshared) (by decide) (by decide) hholder,
      by decide +kernel, by decide +kernel, ?_⟩⟩
  · exact ⟨(hground.reached hz).here, (hground.reached hz).not_contains_self⟩
  · exact Alignment.isLeast_roundUp .four 9

end LayoutEnv

end TypeLayout
