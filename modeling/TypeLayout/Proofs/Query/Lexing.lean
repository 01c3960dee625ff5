import TypeLayout.Proofs.Query.Identifiers
/-! The tokens of a text as a relation. A text has the tokens that the lexer finds in it and no
others, so facts about tokens are proved along the text and texts are lexed piece by piece. -/

namespace TypeLayout.Query

open Text

variable {run w cs : List Char} {ts : List Token}

theorem not_isWordChar_of_isBlank {c : Char} (h : isBlank c = true) : isWordChar c = false := by
  cases hc : isWordChar c with
  | false => rfl
  | true =>
    rw [not_isBlank_of_isWordChar hc] at h
    cases h

def Parted (cs : List Char) : Prop := ∀ c ∈ cs.head?, isWordChar c = false

theorem parted_nil : Parted [] := fun _ h => by cases h

theorem parted_cons {c : Char} (h : isWordChar c = false) : Parted (c :: cs) := by
  rintro d hd
  cases hd
  exact h

theorem parted_colon : Parted (':' :: cs) := parted_cons (by decide)

structure Whole (w : List Char) : Prop where
  ne_nil : w ≠ []
  wordChars : ∀ c ∈ w, isWordChar c = true

-- by the letters of the word, not by all characters there are
instance (w : List Char) : Decidable (Whole w) :=
  have : Decidable (∀ c ∈ w, isWordChar c = true) := List.decidableBAll _ _
  decidable_of_iff (w ≠ [] ∧ ∀ c ∈ w, isWordChar c = true) ⟨fun h => ⟨h.1, h.2⟩,
    fun h => ⟨h.1, h.2⟩⟩

theorem Whole.append_not_parted (h : Whole w) : ¬ Parted (w ++ cs) := by
  obtain ⟨c, w, rfl⟩ := List.exists_cons_of_ne_nil h.ne_nil
  intro hparted
  have hc := hparted c rfl
  rw [h.wordChars c List.mem_cons_self] at hc
  cases hc

namespace Token

inductive Lexed : List Char → List Token → Prop
  | nil : Lexed [] []
  | blank {c : Char} {cs : List Char} {ts : List Token} : isBlank c = true → Lexed cs ts →
    Lexed (c :: cs) (gap :: ts)
  | qualifier {w cs : List Char} {ts : List Token} : Whole w → isQualifier w = true → Parted cs →
    Lexed cs ts → Lexed (w ++ cs) (gap :: ts)
  | word {w cs : List Char} {ts : List Token} : Whole w → isQualifier w = false → Parted cs →
    Lexed cs ts → Lexed (w ++ cs) (word w :: ts)
  | colons {cs : List Char} {ts : List Token} : Lexed cs ts →
    Lexed (':' :: ':' :: cs) (colons :: ts)
  | symbol {c : Char} {cs : List Char} {ts : List Token} : isBlank c = false →
    isWordChar c = false → (c = ':' → ∀ ds, cs ≠ ':' :: ds) → Lexed cs ts →
    Lexed (c :: cs) (symbol c :: ts)

theorem lexed_flush (hrun : ∀ c ∈ run, isWordChar c = true) (hparted : Parted cs)
    (h : Lexed cs ts) : Lexed (run.reverse ++ cs) (flush run ts) := by
  cases hempty : run.isEmpty with
  | true =>
    rw [List.isEmpty_iff.mp hempty]
    exact h
  | false =>
    have hne : run ≠ [] := by
      rintro rfl
      cases hempty
    have hwhole : Whole run.reverse :=
      ⟨by simpa using hne, fun c hc => hrun c (List.mem_reverse.mp hc)⟩
    cases hq : isQualifier run.reverse with
    | true => simpa [flush, hempty, hq] using Lexed.qualifier hwhole hq hparted h
    | false => simpa [flush, hempty, hq] using Lexed.word hwhole hq hparted h

theorem lexed_lexFrom (hrun : ∀ c ∈ run, isWordChar c = true) :
    Lexed (run.reverse ++ cs) (lexFrom run cs) := by
  induction run, cs using lexFrom.induct with
  | case1 run => exact lexed_flush hrun parted_nil .nil
  | case2 run cs ih => exact lexed_flush hrun parted_colon (.colons (ih fun _ h => by cases h))
  | case3 run c cs hne hc ih =>
    rw [lexFrom, if_pos hc]
    · have hlexed := ih fun d hd => by
        rcases List.mem_cons.mp hd with rfl | hd
        · exact hc
        · exact hrun d hd
      simpa using hlexed
    · exact hne
  | case4 run c cs hne hc ih =>
    have hrest := ih fun _ h => by cases h
    have hword : isWordChar c = false := by simpa using hc
    rw [lexFrom, if_neg hc]
    · refine lexed_flush hrun (parted_cons hword) ?_
      cases hb : isBlank c with
      | true => simpa [ofChar, hb] using Lexed.blank hb hrest
      | false => simpa [ofChar, hb] using Lexed.symbol hb hword (fun hcolon ds => hne ds hcolon) hrest
    · exact hne

theorem lexed_lex (s : String) : Lexed s.toList (lex s) :=
  @lexed_lexFrom [] s.toList fun _ h => by cases h

theorem lexFrom_of_parted (h : Parted cs) : lexFrom run cs = flush run (lexFrom [] cs) := by
  fun_cases lexFrom run cs with
  | case1 => rfl
  | case2 cs => rfl
  | case3 c cs hne hc =>
    rw [h c rfl] at hc
    cases hc
  | case4 c cs hne hc =>
    have hstep : lexFrom [] (c :: cs) = ofChar c :: lexFrom [] cs := by
      rw [lexFrom, if_neg hc]
      · rfl
      · exact hne
    rw [hstep]

theorem lexFrom_word (hw : Whole w) (hparted : Parted cs) :
    lexFrom [] (w ++ cs) = flush w.reverse (lexFrom [] cs) := by
  rw [lexFrom_append hw.wordChars, List.append_nil, lexFrom_of_parted hparted]

theorem Lexed.lexFrom_eq (h : Lexed cs ts) : lexFrom [] cs = ts := by
  induction h with
  | nil => rfl
  | @blank c cs ts hb _ ih =>
    rw [lexFrom, not_isWordChar_of_isBlank hb, if_neg Bool.false_ne_true, ih]
    · simp [flush, ofChar, hb]
    · rintro ds rfl
      cases hb
  | qualifier hw hq hparted _ ih =>
    rw [lexFrom_word hw hparted, ih]
    simp [flush, hw.ne_nil, hq]
  | word hw hq hparted _ ih => rw [lexFrom_word hw hparted, ih, flush_reverse hw.ne_nil hq]
  | colons _ ih => rw [lexFrom, ih]; rfl
  | symbol hb hword hne _ ih =>
    rw [lexFrom, hword, if_neg Bool.false_ne_true, ih]
    · simp [flush, ofChar, hb]
    · exact fun ds hc hcs => hne hc ds hcs

theorem Lexed.lex_eq {s : String} (h : Lexed s.toList ts) : lex s = ts := h.lexFrom_eq

theorem Lexed.whole_of_mem (h : Lexed cs ts) (hw : Token.word w ∈ ts) :
    Whole w ∧ isQualifier w = false := by
  induction h with
  | nil => cases hw
  | word hwhole hq _ _ ih =>
    rcases List.mem_cons.mp hw with hw | hw
    · cases hw
      exact ⟨hwhole, hq⟩
    · exact ih hw
  | blank _ _ ih | qualifier _ _ _ _ ih | colons _ ih | symbol _ _ _ _ ih =>
    rcases List.mem_cons.mp hw with hw | hw
    · cases hw
    · exact ih hw

end Token

end TypeLayout.Query
