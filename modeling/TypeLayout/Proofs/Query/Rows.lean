import TypeLayout.Proofs.Layout.Extent
import TypeLayout.Query.Report
/-! The rows of a report. They are those of the layout, sorted without disturbing what ties; the
rows of an aggregate, read in that order, leave no gap and end where the aggregate ends. -/

namespace TypeLayout

open Region (reach)

namespace Row

def region (r : Row) : Region := ⟨r.offset, r.size⟩

theorem before_iff {a b : Row} : a.before b = true ↔
    a.offset < b.offset ∨ a.offset = b.offset ∧ a.kind.rank ≤ b.kind.rank := by
  simp [before]

theorem before_trans {a b c : Row} (h : a.before b = true) (h' : b.before c = true) :
    a.before c = true := by
  rw [before_iff] at *
  omega

theorem before_total (a b : Row) : (a.before b || b.before a) = true := by
  rw [Bool.or_eq_true, before_iff, before_iff]
  omega

end Row

namespace Report

variable {l : Layout} {m : Machine} {w x : Nat}

def listedRows (l : Layout) (w : Nat) : List Row :=
  l.slots.map (Row.ofSlot w) ++ l.bases.map Row.ofBase ++ l.fields.map Row.ofField

theorem rowsOf_eq (l : Layout) (w : Nat) :
    rowsOf l w = listedRows l w ++ l.padding.map Row.ofPadding := rfl

theorem regions_listedRows (l : Layout) (m : Machine) :
    (listedRows l m.pointerSize).map Row.region = l.listed m := by
  simp only [listedRows, List.map_append, List.map_map]
  rfl

theorem regions_rowsOf (l : Layout) (m : Machine) :
    (rowsOf l m.pointerSize).map Row.region = l.listed m ++ l.padding := by
  have hpadding : l.padding.map (Row.region ∘ Row.ofPadding) = l.padding := List.map_id _
  rw [rowsOf_eq, List.map_append, regions_listedRows, List.map_map, hpadding]

@[simp] theorem rank_ofSlot (w : Nat) (s : VtableSlot) : (Row.ofSlot w s).kind.rank = 0 := rfl

@[simp] theorem rank_ofBase (b : BaseSubobject) : (Row.ofBase b).kind.rank = 1 := by
  unfold Row.ofBase
  cases b.isVirtual <;> rfl

@[simp] theorem rank_ofField (f : Field) : (Row.ofField f).kind.rank = 2 := by
  unfold Row.ofField
  cases f.storage <;> rfl

@[simp] theorem rank_ofPadding (p : Region) : (Row.ofPadding p).kind.rank = 3 := rfl

theorem isPadding_eq (row : Row) : row.isPadding = decide (row.kind.rank = 3) := by
  unfold Row.isPadding
  cases row.kind <;> rfl

theorem not_isPadding {row : Row} (h : row ∈ listedRows l w) : row.isPadding = false := by
  simp only [listedRows, List.mem_append, List.mem_map] at h
  rw [isPadding_eq]
  rcases h with (⟨s, -, rfl⟩ | ⟨b, -, rfl⟩) | ⟨f, -, rfl⟩ <;> simp

theorem rowsOf_ranked (l : Layout) (w : Nat) :
    (rowsOf l w).Pairwise fun a b => a.kind.rank ≤ b.kind.rank := by
  have hranks : ((rowsOf l w).map (·.kind.rank)).Pairwise (· ≤ ·) := by
    have hmap : (rowsOf l w).map (·.kind.rank) = List.replicate l.slots.length 0 ++
        List.replicate l.bases.length 1 ++ List.replicate l.fields.length 2 ++
          List.replicate l.padding.length 3 := by
      simp [rowsOf, Function.comp_def]
    rw [hmap]
    simp [List.pairwise_append, List.pairwise_replicate, or_imp, forall_and]
  exact List.pairwise_map.mp hranks

theorem filter_rows (l : Layout) (w x : Nat) :
    ((rowsOf l w).mergeSort Row.before).filter (·.offset == x) =
      (rowsOf l w).filter (·.offset == x) := by
  have hperm : ((rowsOf l w).mergeSort Row.before).Perm (rowsOf l w) := List.mergeSort_perm _ _
  have hsorted : ((rowsOf l w).filter (·.offset == x)).Pairwise fun a b => a.before b = true := by
    apply ((rowsOf_ranked l w).filter _).imp_of_mem
    intro a b ha hb hrank
    have ha := (List.mem_filter.mp ha).2
    have hb := (List.mem_filter.mp hb).2
    rw [beq_iff_eq] at ha hb
    exact Row.before_iff.mpr (Or.inr ⟨ha.trans hb.symm, hrank⟩)
  have hsub : ((rowsOf l w).filter (·.offset == x)).Sublist
      ((rowsOf l w).mergeSort Row.before) := by
    apply List.sublist_mergeSort _ Row.before_total hsorted List.filter_sublist
    intro a b c
    exact Row.before_trans
  have hkept := hsub.filter (·.offset == x)
  rw [List.filter_filter] at hkept
  simp only [Bool.and_self] at hkept
  exact (hkept.eq_of_length (hperm.filter _).length_eq.symm).symm

theorem rows_perm (name : String) (l : Layout) (p : Profile) (description : Option String) :
    (ofLayout name l p description).rows.Perm (rowsOf l p.machine.pointerSize) := by
  rw [← p.machine.vtablePointerSize_eq_pointerSize]
  exact List.mergeSort_perm _ _

theorem rows_sorted (name : String) (l : Layout) (p : Profile) (description : Option String) :
    (ofLayout name l p description).rows.Pairwise fun a b => a.before b = true := by
  apply List.pairwise_mergeSort _ Row.before_total
  intro a b c
  exact Row.before_trans

theorem paddingBytes_ofLayout (name : String) (l : Layout) (p : Profile)
    (description : Option String) :
    (ofLayout name l p description).paddingBytes = l.paddingBytes := by
  have hfilter : (rowsOf l p.machine.pointerSize).filter (·.isPadding) =
      l.padding.map Row.ofPadding := by
    rw [rowsOf_eq, List.filter_append, List.filter_eq_nil_iff.mpr, List.filter_eq_self.mpr,
      List.nil_append]
    · intro row hrow
      obtain ⟨q, -, rfl⟩ := List.mem_map.mp hrow
      rfl
    · intro row hrow
      simp [not_isPadding hrow]
  have hperm := (rows_perm name l p description).filter (·.isPadding)
  rw [hfilter] at hperm
  have hcomm : RightCommutative fun (n : Nat) (row : Row) => n + row.size :=
    ⟨fun n a b => Nat.add_right_comm n a.size b.size⟩
  unfold paddingBytes
  rw [hperm.foldl_eq, List.foldl_map]
  rfl

theorem rowsOf_apart {m : Machine} (h : l.PaddingApart m) :
    (rowsOf l m.pointerSize).Pairwise fun a b =>
      a.isPadding = true ∨ b.isPadding = true → Region.Disjoint a.region b.region := by
  rw [rowsOf_eq]
  refine List.pairwise_append.mpr ⟨?_, ?_, ?_⟩
  · apply List.pairwise_of_forall_mem_list
    intro a ha b hb hpadding
    rw [not_isPadding ha, not_isPadding hb] at hpadding
    simp at hpadding
  · apply List.pairwise_map.mpr
    apply h.padding.imp
    intro a b hdisjoint _
    exact hdisjoint
  · intro a ha b hb _
    obtain ⟨q, hq, rfl⟩ := List.mem_map.mp hb
    apply h.listed a.region _ q hq
    rw [← regions_listedRows]
    exact List.mem_map_of_mem ha

end Report

namespace LayoutEnv

/-- The rows of a report are those of the layout, by offset, then by kind, then as the layout has
them, and their padding is its padding. The rows of an aggregate, read in this order, leave no gap
and end with the aggregate, unless none takes a byte; no padding shares a byte with another row. -/
theorem report_rows {r : Registry} {p : Profile} {policy : BasePolicy} {d : Descriptor}
    {l : Layout} {report : Report} {name : String} {description : Option String} (hr : r.Built)
    (hl : (LayoutEnv.mk r p.machine policy).layoutOf d = (.ok l : Except LayoutError Layout))
    (hreport : report = .ofLayout name l p description) :
    report.rows.Perm (Report.rowsOf l p.machine.pointerSize) ∧
    (report.rows.Pairwise fun a b =>
      a.offset < b.offset ∨ a.offset = b.offset ∧ a.kind.rank ≤ b.kind.rank) ∧
    (∀ x, report.rows.filter (·.offset == x) =
      (l.slots.map (Row.ofSlot p.machine.pointerSize)).filter (·.offset == x) ++
      (l.bases.map Row.ofBase).filter (·.offset == x) ++
      (l.fields.map Row.ofField).filter (·.offset == x) ++
      (l.padding.map Row.ofPadding).filter (·.offset == x)) ∧
    report.paddingBytes = l.paddingBytes ∧
    ∀ owner a, r.bodyOf? d = some (owner, a) →
      (∀ before row after, report.rows = before ++ row :: after →
        row.offset ≤ reach (before.map Row.region)) ∧
      reach (report.rows.map Row.region) ≤ l.size ∧
      ((∃ row ∈ report.rows, 0 < row.size) → reach (report.rows.map Row.region) = l.size) ∧
      report.rows.Pairwise fun a b =>
        a.isPadding = true ∨ b.isPadding = true → Region.Disjoint a.region b.region := by
  subst hreport
  have hperm := Report.rows_perm name l p description
  have hsorted := Report.rows_sorted name l p description
  refine ⟨hperm, hsorted.imp Row.before_iff.mp, fun x => ?_,
    Report.paddingBytes_ofLayout name l p description, fun owner a hd => ?_⟩
  · refine (Report.filter_rows l _ x).trans ?_
    simp [Report.rowsOf]
  · obtain ⟨hapart, n, hfills, hle, hn⟩ := aggregate_fills hr.wellFormed.toFounded hd hl
    rw [← Report.regions_rowsOf] at hfills
    have hfills := hfills.perm (hperm.map Row.region).symm
    have hoffsets : ((Report.ofLayout name l p description).rows.map Row.region).Pairwise
        fun s t => s.offset ≤ t.offset := by
      apply List.pairwise_map.mpr
      apply hsorted.imp
      intro a b h
      have h := Row.before_iff.mp h
      unfold Row.region
      dsimp only
      omega
    refine ⟨fun before row after hsplit => ?_, ?_, fun ⟨row, hrow, hpos⟩ => ?_, ?_⟩
    · rw [hsplit, List.map_append, List.map_cons] at hfills hoffsets
      exact hfills.offset_le_reach hoffsets
    · rw [hfills.reach_eq]
      exact hle
    · have hstop : row.offset + row.size ≤ n := hfills.stop_le _ (List.mem_map_of_mem hrow)
      rw [hfills.reach_eq]
      omega
    · refine (hperm.pairwise_iff fun h hpadding => ?_).mpr (Report.rowsOf_apart hapart)
      exact (h hpadding.symm).symm

/-- A row for a vtable pointer that lies in a base, two for bit-fields that share a unit. -/
theorem derivedLayout_rows : derived.registry.Built ∧
    derived.layoutOf (.named ⟨1⟩) = (.ok derivedLayout : Except LayoutError Layout) ∧
    (Report.ofLayout "Derived" derivedLayout .lp64 none).rows.filter (·.offset == 16) =
      [⟨"lo", 16, 4, .bitField, some "int", some "bits 0..3"⟩,
        ⟨"mid", 16, 4, .bitField, some "int", some "bits 3..8"⟩] ∧
    reach ((Report.ofLayout "Derived" derivedLayout .lp64 none).rows.map Row.region) = 32 := by
  have hd : derived.registry.bodyOf? (.named ⟨1⟩) = some ("Derived", packedDerived) := by
    rfl
  have hl : derived.layoutOf (.named ⟨1⟩) = (.ok derivedLayout : Except LayoutError Layout) := by
    decide +kernel
  have hreport : Report.ofLayout "Derived" derivedLayout .lp64 none =
      .ofLayout "Derived" derivedLayout .lp64 none := rfl
  obtain ⟨hperm, -, hat, -, hbody⟩ := report_rows derived_built hl hreport
  refine ⟨derived_built, hl, ?_, ?_⟩
  · rw [hat]
    decide +kernel
  · obtain ⟨-, -, hend, -⟩ := hbody _ _ hd
    apply hend
    refine ⟨⟨"last", 24, 2, .member, some "short", none⟩, hperm.mem_iff.mpr ?_, by decide⟩
    decide +kernel

end LayoutEnv

end TypeLayout
