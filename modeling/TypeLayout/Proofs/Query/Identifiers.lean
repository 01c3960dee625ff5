import TypeLayout.Proofs.Query.Spelled
/-! Qualified names as expressions. The qualified name of a tag, asked for as an expression, is read
as the name alone and leads back to the tag, if its parts are identifiers without a meaning of their
own and no typedef takes the place of a tag on the way. -/

namespace TypeLayout

namespace Text

variable {cs : List Char} {p : Char → Bool} {s : String}

theorem cut_eq (h : ∀ c ∈ cs, p c = false) : cut p cs = [cs] := by
  induction cs with
  | nil => rfl
  | cons c cs ih =>
    rw [cut, h c List.mem_cons_self, ih fun d hd => h d (List.mem_cons_of_mem c hd)]
    rfl

theorem words_eq (h : ∀ c ∈ s.toList, isBlank c = false) (hne : s.toList ≠ []) :
    words s = [s] := by
  simp [words, cut_eq h, hne]

theorem toList_join (n : String) (ns : List String) :
    (join "::" (n :: ns)).toList = n.toList ++ ns.flatMap fun m => ':' :: ':' :: m.toList := by
  induction ns generalizing n with
  | nil => simp [join]
  | cons m ns ih =>
    rw [toList_join_cons, ih]
    rfl

end Text

namespace Query

open Text

structure Identifier (name : String) : Prop where
  named : Named name.toList
  not_qualifier : Token.isQualifier name.toList = false
  not_specifier : name ∉ Specifiers.vocabulary

-- by the letters of the word, not by all characters there are
instance (w : List Char) : Decidable (Named w) :=
  have : Decidable (∀ c ∈ w, isWordChar c = true) := List.decidableBAll _ _
  inferInstanceAs (Decidable (_ ∧ _))

instance (name : String) : Decidable (Identifier name) :=
  decidable_of_iff (Named name.toList ∧ Token.isQualifier name.toList = false ∧
    name ∉ Specifiers.vocabulary) ⟨fun h => ⟨h.1, h.2.1, h.2.2⟩, fun h => ⟨h.1, h.2, h.3⟩⟩

variable {n : String} {ns : List String} {w run cs : List Char} {ts : List Token}

theorem ne_colon_of_isWordChar {c : Char} (h : isWordChar c = true) : c ≠ ':' := by
  rintro rfl
  exact absurd h (by decide)

theorem Identifier.like (h : Identifier n) : IdentifierLike n :=
  ⟨h.named.ne_nil, fun c hc => ⟨h.named.not_blank c hc, ne_colon_of_isWordChar (h.named.2 c hc)⟩⟩

namespace Token

theorem lexFrom_append (hw : ∀ c ∈ w, isWordChar c = true) :
    lexFrom run (w ++ cs) = lexFrom (w.reverse ++ run) cs := by
  induction w generalizing run with
  | nil => rfl
  | cons c w ih =>
    have hc := hw c List.mem_cons_self
    rw [List.cons_append, lexFrom, if_pos hc, ih fun d hd => hw d (List.mem_cons_of_mem c hd)]
    · simp
    · exact fun _ h _ => ne_colon_of_isWordChar hc h

theorem flush_reverse (hne : w ≠ []) (hq : isQualifier w = false) :
    flush w.reverse ts = .word w :: ts := by
  simp [flush, hne, hq]

def ofParts (ns : List String) : List Token := ns.flatMap fun n => [.colons, .word n.toList]

theorem lex_join (hn : Identifier n) (hns : ∀ m ∈ ns, Identifier m) :
    lex (join "::" (n :: ns)) = .word n.toList :: ofParts ns := by
  unfold lex
  induction ns generalizing n with
  | nil =>
    have hlex : lexFrom [] (n.toList ++ []) = lexFrom (n.toList.reverse ++ []) [] :=
      lexFrom_append hn.named.2
    rw [List.append_nil, List.append_nil] at hlex
    exact hlex.trans (flush_reverse hn.named.ne_nil hn.not_qualifier)
  | cons m ns ih =>
    have hrest := ih (hns m List.mem_cons_self) fun k hk => hns k (List.mem_cons_of_mem m hk)
    rw [toList_join_cons, lexFrom_append hn.named.2, List.append_nil, lexFrom, hrest,
      flush_reverse hn.named.ne_nil hn.not_qualifier]
    rfl

theorem significant_ofParts (n : String) (ns : List String) :
    significant (.word n.toList :: ofParts ns) = .word n.toList :: ofParts ns := by
  apply List.filter_eq_self.mpr
  intro t ht
  rcases List.mem_cons.mp ht with rfl | ht
  · rfl
  · obtain ⟨m, -, hm⟩ := List.mem_flatMap.mp ht
    simp only [List.mem_cons, List.not_mem_nil, or_false] at hm
    rcases hm with rfl | rfl <;> rfl

end Token

theorem takeNames_ofParts (hns : ∀ m ∈ ns, Identifier m) :
    takeNames (Token.ofParts ns) = (ns.map fun m => ⟨true, m.toList⟩, []) := by
  induction ns with
  | nil => rfl
  | cons m ns ih =>
    have hm := (hns m List.mem_cons_self).named.1
    have hrest := ih fun k hk => hns k (List.mem_cons_of_mem m hk)
    change takeNames (.colons :: .word m.toList :: Token.ofParts ns) = _
    simp only [takeNames, hm, if_true, hrest, List.map_cons]

theorem text_join (n : String) (ns : List String) :
    Base.text ⟨false, n.toList, ns.map fun m => ⟨true, m.toList⟩⟩ = join "::" (n :: ns) := by
  rw [← String.toList_inj, Base.Proper.toList_text, toList_join, List.flatMap_map]
  rfl

theorem parse?_ofParts (hn : Identifier n) (hns : ∀ m ∈ ns, Identifier m) :
    parse? (.word n.toList :: Token.ofParts ns) = some ⟨none, join "::" (n :: ns), 0, []⟩ := by
  have hkeyword : takeKeyword (.word n.toList :: Token.ofParts ns) =
      (none, .word n.toList :: Token.ofParts ns) := by
    cases ns <;> rfl
  have hbase : takeBase (.word n.toList :: Token.ofParts ns) =
      some (⟨false, n.toList, ns.map fun m => ⟨true, m.toList⟩⟩, []) := by
    simp only [takeBase, takeFirst, hn.named.1, if_true, takeNames_ofParts hns]
  simp only [parse?, hkeyword, Token.significant_ofParts, hbase, Option.bind_eq_bind,
    Option.bind_some, takeStars, takeBounds, text_join]
  rfl

end Query

open Query

variable {n : String} {ns : List String}

theorem TypeExpression.parse_join (hn : Identifier n) (hns : ∀ m ∈ ns, Identifier m) :
    parse (Text.join "::" (n :: ns)) = .ok ⟨none, Text.join "::" (n :: ns), 0, []⟩ := by
  rw [parse, Token.lex_join hn hns, parse?_ofParts hn hns]

theorem Fundamental.ofSpelling?_join (hn : Identifier n) (hns : ∀ m ∈ ns, Identifier m) :
    Fundamental.ofSpelling? (Text.join "::" (n :: ns)) = none := by
  cases hs : Fundamental.ofSpelling? (Text.join "::" (n :: ns)) with
  | none => rfl
  | some kind =>
    cases ns with
    | nil =>
      obtain ⟨s, hs, -⟩ := Option.bind_eq_some_iff.mp hs
      have hwords : Text.words n = [n] := Text.words_eq hn.named.not_blank hn.named.ne_nil
      have hmem : n ∈ Text.words n := by simp [hwords]
      exact absurd (Specifiers.mem_vocabulary_of_foldlM hs hmem) hn.not_specifier
    | cons m ns =>
      have hcolon : ':' ∈ (Text.join "::" (n :: m :: ns)).toList := by simp [Text.toList_join]
      exact absurd rfl (Fundamental.ne_colon_of_ofSpelling? hs hcolon)

end TypeLayout
