import TypeLayout.Proofs.Registry.Naming
import TypeLayout.Text.WordChar
/-! Blanks, word characters and the words of a text. No word character is blank, every character
that is not blank lies in a word, and a text that neither starts nor ends with a blank is its own
trimmed form. -/

namespace TypeLayout.Text

variable {c d : Char} {cs : List Char} {s : String}

def blankPoints : List Nat :=
  [9, 10, 11, 12, 13, 32, 0x85, 0xa0, 0x1680, 0x2000, 0x2001, 0x2002, 0x2003, 0x2004, 0x2005,
   0x2006, 0x2007, 0x2008, 0x2009, 0x200a, 0x2028, 0x2029, 0x202f, 0x205f, 0x3000]

theorem mem_blankPoints (h : isBlank c = true) : c.toNat ∈ blankPoints := by
  simp only [isBlank, Bool.or_eq_true, Bool.and_eq_true, decide_eq_true_eq, beq_iff_eq] at h
  simp only [blankPoints, List.mem_cons, List.not_mem_nil, or_false]
  omega

theorem not_isBlank_of_isWordChar (h : isWordChar c = true) : isBlank c = false := by
  have hpoints : ∀ n ∈ blankPoints, isWordChar (Char.ofNat n) = false := by decide +kernel
  by_contra hb
  have hc := hpoints c.toNat (mem_blankPoints (by simpa using hb))
  rw [Char.ofNat_toNat, h] at hc
  cases hc

theorem dropBlanks_cons (h : isBlank c = false) : dropBlanks (c :: cs) = c :: cs := by
  simp [dropBlanks, h]

theorem trimChars_eq_of_ends (h : ∀ d ∈ cs.head?, isBlank d = false)
    (h' : ∀ d ∈ cs.getLast?, isBlank d = false) : trimChars cs = cs := by
  have hdrop : ∀ ds : List Char, (∀ d ∈ ds.head?, isBlank d = false) → dropBlanks ds = ds := by
    intro ds hds
    cases ds with
    | nil => rfl
    | cons d ds => exact dropBlanks_cons (hds d rfl)
  rw [trimChars, hdrop cs h, hdrop cs.reverse fun d hd => h' d (List.head?_reverse ▸ hd),
    List.reverse_reverse]

theorem trim_eq_of_ends (h : ∀ d ∈ s.toList.head?, isBlank d = false)
    (h' : ∀ d ∈ s.toList.getLast?, isBlank d = false) : trim s = s := by
  rw [trim, trimChars_eq_of_ends h h', String.ofList_toList]

theorem mem_onFirst {w : List Char} {ws : List (List Char)} (h : w ∈ ws) :
    ∃ v ∈ onFirst c ws, ∀ d ∈ w, d ∈ v := by
  cases ws with
  | nil => cases h
  | cons u us =>
    rcases List.mem_cons.mp h with rfl | h
    · exact ⟨c :: w, List.mem_cons_self, fun d hd => List.mem_cons_of_mem c hd⟩
    · exact ⟨w, List.mem_cons_of_mem _ h, fun d hd => hd⟩

theorem mem_head_onFirst (c : Char) (ws : List (List Char)) : ∃ v ∈ onFirst c ws, c ∈ v := by
  cases ws with
  | nil => exact ⟨[c], List.mem_cons_self, List.mem_cons_self⟩
  | cons u us => exact ⟨c :: u, List.mem_cons_self, List.mem_cons_self⟩

theorem exists_mem_cut {p : Char → Bool} (hd : d ∈ cs) (hp : p d = false) :
    ∃ w ∈ cut p cs, d ∈ w := by
  induction cs with
  | nil => cases hd
  | cons c cs ih =>
    rw [cut]
    rcases List.mem_cons.mp hd with rfl | hd
    · rw [hp]
      exact mem_head_onFirst d _
    · obtain ⟨w, hw, hdw⟩ := ih hd
      split
      · exact ⟨w, List.mem_cons_of_mem _ hw, hdw⟩
      · obtain ⟨v, hv, hsub⟩ := mem_onFirst (c := c) hw
        exact ⟨v, hv, hsub d hdw⟩

theorem exists_mem_words (hd : d ∈ s.toList) (hb : isBlank d = false) :
    ∃ w ∈ words s, d ∈ w.toList := by
  obtain ⟨w, hw, hdw⟩ := exists_mem_cut hd hb
  refine ⟨String.ofList w, List.mem_map.mpr ⟨w, List.mem_filter.mpr ⟨hw, ?_⟩, rfl⟩, ?_⟩
  · cases w with
    | nil => cases hdw
    | cons => rfl
  · rw [String.toList_ofList]
    exact hdw

end TypeLayout.Text
