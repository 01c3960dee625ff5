import TypeLayout.Proofs.Registry.WellFormed
import TypeLayout.Registry.Lookup
/-! What is found by name is an entry of the registry, and its defined aggregates are listed. -/

namespace TypeLayout

namespace Registry

variable {r : Registry} {s : ScopeId} {name : String} {id : TypeId}

theorem mem_of_lookup {xs : List (String × TypeId)} (h : xs.lookup name = some id) :
    (name, id) ∈ xs := by
  obtain ⟨l₁, l₂, rfl, -⟩ := List.lookup_eq_some_iff.mp h
  exact List.mem_append_right _ List.mem_cons_self

theorem Binding.boundTag?_lt (hr : r.Binding) (h : r.boundTag? s name = some id) :
    id.index < r.size := by
  obtain ⟨sc, hsc, ht⟩ := Option.bind_eq_some_iff.mp h
  exact hr.tag_lt hsc (mem_of_lookup ht)

theorem Binding.boundTypedef?_lt (hr : r.Binding) (h : r.boundTypedef? s name = some id) :
    id.index < r.size := by
  obtain ⟨sc, hsc, ht⟩ := Option.bind_eq_some_iff.mp h
  exact hr.typedef_lt hsc (mem_of_lookup ht)

theorem Binding.bound?_lt (hr : r.Binding) (h : r.bound? s name = some id) :
    id.index < r.size := by
  obtain ⟨sc, hsc, hg⟩ := Option.bind_eq_some_iff.mp h
  rw [Scope.get?, Option.orElse_eq_orElse, Option.orElse_eq_or] at hg
  rcases Option.or_eq_some_iff.mp hg with ht | ⟨-, ht⟩
  · exact hr.typedef_lt hsc (mem_of_lookup ht)
  · exact hr.tag_lt hsc (mem_of_lookup ht)

theorem Binding.findWithin_lt (hr : r.Binding) {parts : List String} {outer : TypeId}
    (ho : outer.index < r.size) (h : r.findWithin outer parts = some id) : id.index < r.size := by
  induction parts generalizing outer with
  | nil =>
    rw [← Option.some.inj h]
    exact ho
  | cons part parts ih =>
    unfold findWithin at h
    split at h
    next inner hi =>
      obtain ⟨body, -, hb⟩ := Option.bind_eq_some_iff.mp hi
      exact ih (hr.bound?_lt hb) h
    next => cases h

theorem Binding.findPath?_lt (hr : r.Binding) {path : Path} (h : r.findPath? s path = some id) :
    id.index < r.size := by
  unfold findPath? at h
  split at h
  · cases h
  next first rest _ =>
    split at h
    · cases h
    · obtain ⟨outer, ho, hw⟩ := Option.bind_eq_some_iff.mp h
      obtain ⟨scope, -, hb⟩ := List.exists_of_findSome?_eq_some ho
      exact hr.findWithin_lt (hr.bound?_lt hb) hw

theorem Binding.find_lt (hr : r.Binding) (h : r.find s name = .ok id) : id.index < r.size := by
  unfold find at h
  split at h
  next i hi =>
    cases h
    exact hr.findPath?_lt hi
  next => cases h

theorem entry_isDefinedAggregate {e : Entry} :
    e.isDefinedAggregate = true ↔ ∃ a, e.definition? = some (.aggregate a) := by
  obtain ⟨name, scope, state, body⟩ := e
  rcases state with tag | ⟨a | e | t⟩ <;>
    simp [Entry.isDefinedAggregate, Entry.isComplete, Entry.isAggregate, Entry.definition?,
      EntryState.isAggregate, EntryState.definition?, EntryState.tag?, Definition.tag?,
      TagKind.isAggregate]

theorem mem_definedAggregates :
    id ∈ r.definedAggregates ↔ ∃ a, r.definition? id = some (.aggregate a) := by
  unfold definedAggregates definition? entry?
  constructor
  · intro h
    obtain ⟨⟨e, n⟩, he, rfl⟩ := List.mem_map.mp h
    obtain ⟨hmem, hdef⟩ := List.mem_filter.mp he
    obtain ⟨a, ha⟩ := entry_isDefinedAggregate.mp hdef
    have hget := List.mem_zipIdx_iff_getElem?.mp hmem
    rw [Array.getElem?_toList] at hget
    refine ⟨a, ?_⟩
    rw [hget]
    exact ha
  · rintro ⟨a, ha⟩
    obtain ⟨e, he, hdef⟩ := Option.bind_eq_some_iff.mp ha
    refine List.mem_map.mpr ⟨(e, id.index), List.mem_filter.mpr ⟨?_, ?_⟩, rfl⟩
    · rw [List.mem_zipIdx_iff_getElem?, Array.getElem?_toList]
      exact he
    · exact entry_isDefinedAggregate.mpr ⟨a, hdef⟩

theorem definedAggregates_nodup (r : Registry) : r.definedAggregates.Nodup := by
  have hindex : r.entries.toList.zipIdx.Pairwise fun x y => x.2 ≠ y.2 := by
    apply List.pairwise_map.mp
    change (r.entries.toList.zipIdx.map Prod.snd).Nodup
    rw [List.zipIdx_map_snd]
    exact List.nodup_range'
  apply List.pairwise_map.mpr
  exact (hindex.filter _).imp fun hne h => hne (congrArg TypeId.index h)

end Registry

end TypeLayout
