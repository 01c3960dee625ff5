import TypeLayout.Proofs.Registry.Routes
import TypeLayout.Registry.Path
/-! Qualified names of identifiers. An identifier holds neither a blank nor a colon, so the parts of
a qualified name are read back from its text, and tags with one qualified name are one tag. -/

namespace TypeLayout

namespace Text

/-- What every identifier is, whatever letters, digits and signs it may be made of. -/
def IdentifierLike (s : String) : Prop :=
  s.toList ≠ [] ∧ ∀ c ∈ s.toList, isBlank c = false ∧ c ≠ ':'

-- by the letters of the text, not by all characters there are
instance (s : String) : Decidable (IdentifierLike s) :=
  have : Decidable (∀ c ∈ s.toList, isBlank c = false ∧ c ≠ ':') := List.decidableBAll _ _
  inferInstanceAs (Decidable (_ ∧ _))

variable {c : Char} {cs w : List Char} {s : String} {parts : List String}

theorem dropBlanks_eq (h : ∀ c ∈ cs, isBlank c = false) : dropBlanks cs = cs := by
  cases cs with
  | nil => rfl
  | cons c cs => simp [dropBlanks, h c List.mem_cons_self]

theorem trimChars_eq (h : ∀ c ∈ cs, isBlank c = false) : trimChars cs = cs := by
  have hr : ∀ c ∈ cs.reverse, isBlank c = false := by
    intro c hc
    exact h c (List.mem_reverse.mp hc)
  rw [trimChars, dropBlanks_eq h, dropBlanks_eq hr, List.reverse_reverse]

theorem trim_eq (h : ∀ c ∈ s.toList, isBlank c = false) : trim s = s := by
  rw [trim, trimChars_eq h, String.ofList_toList]

theorem cutColons_cons (h : c ≠ ':') : cutColons (c :: cs) = onFirst c (cutColons cs) := by
  rw [cutColons]
  intro d hd
  exact absurd hd h

theorem cutColons_word (h : ∀ c ∈ w, c ≠ ':') : cutColons w = [w] := by
  induction w with
  | nil => rfl
  | cons c w ih =>
    rw [cutColons_cons (h c List.mem_cons_self), ih fun d hd => h d (List.mem_cons_of_mem c hd)]
    rfl

theorem cutColons_append (h : ∀ c ∈ w, c ≠ ':') :
    cutColons (w ++ ':' :: ':' :: cs) = w :: cutColons cs := by
  induction w with
  | nil => rfl
  | cons c w ih =>
    rw [List.cons_append, cutColons_cons (h c List.mem_cons_self),
      ih fun d hd => h d (List.mem_cons_of_mem c hd)]
    rfl

theorem toList_join_cons (s t : String) (ss : List String) :
    (join "::" (s :: t :: ss)).toList = s.toList ++ ':' :: ':' :: (join "::" (t :: ss)).toList := by
  simp [join]

theorem cutColons_join (h : parts ≠ []) (hparts : ∀ s ∈ parts, IdentifierLike s) :
    cutColons (join "::" parts).toList = parts.map String.toList := by
  induction parts with
  | nil => exact absurd rfl h
  | cons s ss ih =>
    have hs := fun c hc => ((hparts s List.mem_cons_self).2 c hc).2
    cases ss with
    | nil => exact cutColons_word hs
    | cons t ss =>
      rw [toList_join_cons, cutColons_append hs,
        ih (List.cons_ne_nil t ss) fun u hu => hparts u (List.mem_cons_of_mem s hu)]
      rfl

theorem mem_join (h : c ∈ (join "::" parts).toList) : c = ':' ∨ ∃ s ∈ parts, c ∈ s.toList := by
  induction parts with
  | nil => simp [join] at h
  | cons s ss ih =>
    cases ss with
    | nil => exact Or.inr ⟨s, List.mem_cons_self, h⟩
    | cons t ss =>
      rw [toList_join_cons] at h
      simp only [List.mem_append, List.mem_cons] at h
      rcases h with h | h | h | h
      · exact Or.inr ⟨s, List.mem_cons_self, h⟩
      · exact Or.inl h
      · exact Or.inl h
      · apply (ih h).imp_right
        rintro ⟨u, hu, hc⟩
        exact ⟨u, List.mem_cons_of_mem s hu, hc⟩

theorem not_blank_join (hparts : ∀ s ∈ parts, IdentifierLike s)
    (h : c ∈ (join "::" parts).toList) : isBlank c = false := by
  rcases mem_join h with rfl | ⟨s, hs, hc⟩
  · rfl
  · exact ((hparts s hs).2 c hc).1

end Text

namespace Path

open Text

variable {parts parts' : List String}

theorem exists_cons_join (h : parts ≠ []) (hparts : ∀ s ∈ parts, IdentifierLike s) :
    ∃ c cs, (join "::" parts).toList = c :: cs ∧ c ≠ ':' := by
  obtain ⟨s, ss, rfl⟩ := List.exists_cons_of_ne_nil h
  obtain ⟨hne, hs⟩ := hparts s List.mem_cons_self
  obtain ⟨c, cs, hc⟩ := List.exists_cons_of_ne_nil hne
  have hcolon := (hs c (hc ▸ List.mem_cons_self)).2
  cases ss with
  | nil => exact ⟨c, cs, hc, hcolon⟩
  | cons t ss => exact ⟨c, _, by rw [toList_join_cons, hc, List.cons_append], hcolon⟩

theorem dropColons_join (h : parts ≠ []) (hparts : ∀ s ∈ parts, IdentifierLike s) :
    dropColons (join "::" parts).toList = (join "::" parts).toList := by
  obtain ⟨c, cs, hcs, hcolon⟩ := exists_cons_join h hparts
  rw [hcs, dropColons]
  intro ds hds
  exact absurd (List.cons.inj hds).1 hcolon

theorem map_trim (hparts : ∀ s ∈ parts, IdentifierLike s) :
    (parts.map String.toList).map (fun p => trim (String.ofList p)) = parts := by
  have hpart : ∀ s ∈ parts, trim (String.ofList s.toList) = s := by
    intro s hs
    rw [String.ofList_toList]
    exact trim_eq fun c hc => ((hparts s hs).2 c hc).1
  rw [List.map_map]
  exact (List.map_congr_left hpart).trans (List.map_id parts)

theorem toList_text (parts : List String) :
    (text ⟨true, parts⟩).toList = ':' :: ':' :: (join "::" parts).toList := by simp [text]

theorem not_blank_text (hparts : ∀ s ∈ parts, IdentifierLike s) {c : Char}
    (h : c ∈ (text ⟨true, parts⟩).toList) : isBlank c = false := by
  simp only [toList_text, List.mem_cons] at h
  rcases h with rfl | rfl | h
  · rfl
  · rfl
  · exact not_blank_join hparts h

theorem ofString_text (h : parts ≠ []) (hparts : ∀ s ∈ parts, IdentifierLike s) :
    ofString (text ⟨true, parts⟩) = ⟨true, parts⟩ := by
  have hchars : trimChars (text ⟨true, parts⟩).toList = ':' :: ':' :: (join "::" parts).toList := by
    rw [trimChars_eq fun c => not_blank_text hparts, toList_text]
  simp only [ofString, hchars, startsAnchored, dropColons, dropColons_join h hparts,
    cutColons_join h hparts, map_trim hparts]

theorem ofString_join (h : parts ≠ []) (hparts : ∀ s ∈ parts, IdentifierLike s) :
    ofString (join "::" parts) = ⟨false, parts⟩ := by
  have hchars : trimChars (join "::" parts).toList = (join "::" parts).toList :=
    trimChars_eq fun c => not_blank_join hparts
  have hanchor : startsAnchored (join "::" parts).toList = false := by
    obtain ⟨c, cs, hcs, hcolon⟩ := exists_cons_join h hparts
    rw [hcs, startsAnchored]
    intro ds hds
    exact absurd (List.cons.inj hds).1 hcolon
  simp only [ofString, hchars, hanchor, dropColons_join h hparts, cutColons_join h hparts,
    map_trim hparts]

theorem join_injective (h : parts ≠ []) (h' : parts' ≠ [])
    (hparts : ∀ s ∈ parts, IdentifierLike s) (hparts' : ∀ s ∈ parts', IdentifierLike s)
    (he : join "::" parts = join "::" parts') : parts = parts' := by
  have htext : text ⟨true, parts⟩ = text ⟨true, parts'⟩ := by
    simp only [text, he]
  have hpath := congrArg ofString htext
  rw [ofString_text h hparts, ofString_text h' hparts'] at hpath
  exact congrArg Path.parts hpath

end Path

namespace Registry

variable {r : Registry} {id id' : TypeId}

theorem route_reverse_ne_nil (h : r.tagAt (r.route id) = some id) : (r.route id).reverse ≠ [] := by
  intro hnil
  rw [List.reverse_eq_nil_iff.mp hnil] at h
  cases h

theorem eq_of_join_route (hat : r.tagAt (r.route id) = some id)
    (hat' : r.tagAt (r.route id') = some id') (hid : ∀ n ∈ r.route id, Text.IdentifierLike n)
    (hid' : ∀ n ∈ r.route id', Text.IdentifierLike n)
    (h : r.qualifiedName id = r.qualifiedName id') : id = id' := by
  rw [qualifiedName_eq_join, qualifiedName_eq_join] at h
  have hroute := Path.join_injective (route_reverse_ne_nil hat) (route_reverse_ne_nil hat')
    (fun n hn => hid n (List.mem_reverse.mp hn)) (fun n hn => hid' n (List.mem_reverse.mp hn)) h
  rw [List.reverse_inj] at hroute
  rw [← hroute, hat] at hat'
  exact Option.some.inj hat'

end Registry

end TypeLayout
