import TypeLayout.Proofs.Query.ExpressionText
/-! Texts that mean the same. An expression is read from its lexemes other than `const` and
`volatile`; blanks only part them. The one exception is a keyword that touches a pair of colons,
which is no keyword. -/

namespace TypeLayout

namespace Query

open Text Token

variable {cs ds w : List Char} {ts : List Token} {c : Char}

def goesOn (c : Char) : List Char → Bool
  | d :: _ => isWordChar c && isWordChar d
  | [] => false

/-- Maximal runs of word characters, pairs of colons and single other characters. -/
def pieces : List Char → List (List Char)
  | ':' :: ':' :: cs => [':', ':'] :: pieces cs
  | c :: cs => if goesOn c cs then onFirst c (pieces cs) else [c] :: pieces cs
  | [] => []

def lexemes (cs : List Char) : List (List Char) := (pieces cs).filter (!List.all · isBlank)

def meaning (cs : List Char) : List (List Char) := (lexemes cs).filter (!isQualifier ·)

/-- A keyword is followed by a pair of colons with nothing between. -/
def KeywordMeetsColons (cs : List Char) : Prop :=
  ∃ w ∈ pieces cs, (keywordTag? w).isSome = true ∧ [w, [':', ':']] <:+: pieces cs

instance (cs : List Char) : Decidable (KeywordMeetsColons cs) :=
  inferInstanceAs (Decidable (∃ w ∈ pieces cs, _ ∧ _))

theorem pieces_cons (hne : c = ':' → ∀ ds, cs ≠ ':' :: ds) (h : goesOn c cs = false) :
    pieces (c :: cs) = [c] :: pieces cs := by
  rw [pieces, h]
  · rfl
  · exact fun ds hc hcs => hne hc ds hcs

theorem pieces_goesOn (h : goesOn c cs = true) : pieces (c :: cs) = onFirst c (pieces cs) := by
  rw [pieces, if_pos h]
  rintro ds rfl rfl
  have hcolon : isWordChar ':' = false := by decide
  rw [goesOn, hcolon] at h
  cases h

theorem goesOn_of_parted (h : Parted cs) : goesOn c cs = false := by
  cases cs with
  | nil => rfl
  | cons d cs => rw [goesOn, h d rfl, Bool.and_false]

theorem goesOn_of_not_wordChar (h : isWordChar c = false) : goesOn c cs = false := by
  cases cs with
  | nil => rfl
  | cons d cs => rw [goesOn, h, Bool.false_and]

theorem pieces_blank (h : isBlank c = true) : pieces (c :: cs) = [c] :: pieces cs := by
  refine pieces_cons ?_ (goesOn_of_not_wordChar (not_isWordChar_of_isBlank h))
  rintro rfl
  cases h

theorem pieces_word (hw : Whole w) (hparted : Parted cs) : pieces (w ++ cs) = w :: pieces cs := by
  obtain ⟨c, w, rfl⟩ := List.exists_cons_of_ne_nil hw.ne_nil
  have hwords := hw.wordChars
  clear hw
  induction w generalizing c with
  | nil =>
    have hc := hwords c List.mem_cons_self
    exact pieces_cons (fun h => absurd h (ne_colon_of_isWordChar hc)) (goesOn_of_parted hparted)
  | cons d w ih =>
    have hc := hwords c List.mem_cons_self
    have hd := hwords d (List.mem_cons_of_mem c List.mem_cons_self)
    have hrest := ih d fun e he => hwords e (List.mem_cons_of_mem c he)
    have hgoes : goesOn c ((d :: w) ++ cs) = true := by
      rw [List.cons_append, goesOn, hc, hd, Bool.true_and]
    rw [List.cons_append, pieces_goesOn hgoes, hrest]
    rfl

theorem Whole.not_blank (hw : Whole w) : w.all isBlank = false := by
  obtain ⟨c, w, rfl⟩ := List.exists_cons_of_ne_nil hw.ne_nil
  rw [List.all_cons, not_isBlank_of_isWordChar (hw.wordChars c List.mem_cons_self),
    Bool.false_and]

theorem meaning_of_counts (h : pieces ds = w :: pieces cs) (hb : w.all isBlank = false)
    (hq : isQualifier w = false) : meaning ds = w :: meaning cs := by
  simp only [meaning, lexemes, h, hb, hq, List.filter_cons, Bool.not_false, if_true]

theorem meaning_of_blank (h : pieces ds = w :: pieces cs) (hb : w.all isBlank = true) :
    meaning ds = meaning cs := by
  rw [meaning, lexemes, h, List.filter_cons_of_neg (by simp [hb])]
  rfl

theorem meaning_of_qualifier (h : pieces ds = w :: pieces cs) (hb : w.all isBlank = false)
    (hq : isQualifier w = true) : meaning ds = meaning cs := by
  simp only [meaning, lexemes, h, hb, hq, List.filter_cons, Bool.not_false, Bool.not_true, if_true,
    Bool.false_eq_true, if_false]

namespace Token

def ofLexeme : List Char → Token
  | c :: w => if isWordChar c then word (c :: w) else if w.isEmpty then symbol c else colons
  | [] => gap

theorem ofLexeme_word (hw : Whole w) : ofLexeme w = word w := by
  obtain ⟨c, w, rfl⟩ := List.exists_cons_of_ne_nil hw.ne_nil
  rw [ofLexeme, if_pos (hw.wordChars c List.mem_cons_self)]

theorem ofLexeme_symbol (hc : isWordChar c = false) : ofLexeme [c] = symbol c := by
  rw [ofLexeme, hc]
  rfl

end Token

theorem Token.Lexed.significant_eq (h : Lexed cs ts) :
    significant ts = (meaning cs).map ofLexeme := by
  induction h with
  | nil => rfl
  | @blank c cs ts hb _ ih =>
    rw [meaning_of_blank (pieces_blank hb) (by simp [hb]), ← ih]
    rfl
  | qualifier hw hq hparted _ ih =>
    rw [meaning_of_qualifier (pieces_word hw hparted) hw.not_blank hq, ← ih]
    rfl
  | word hw hq hparted _ ih =>
    rw [meaning_of_counts (pieces_word hw hparted) hw.not_blank hq, List.map_cons,
      ofLexeme_word hw, ← ih]
    rfl
  | @colons cs ts _ ih =>
    have hpieces : pieces (':' :: ':' :: cs) = [':', ':'] :: pieces cs := by rw [pieces]
    rw [meaning_of_counts hpieces (by decide) (by decide), List.map_cons, ← ih]
    rfl
  | symbol hb hc hne _ ih =>
    rw [meaning_of_counts (pieces_cons hne (goesOn_of_not_wordChar hc)) (by simp [hb])
      (by simp [isQualifier]), List.map_cons, ofLexeme_symbol hc, ← ih]
    rfl

/-! Reading what counts. -/

def parseRest? (elaborated : Option TagKind) (ts : List Token) : Option TypeExpression := do
  let (base, ts) ← takeBase ts
  let (depth, ts) := takeStars ts
  let dimensions ← takeBounds ts
  if elaborated.isSome && base.isSpaced then none
  else some ⟨elaborated, base.text, depth, dimensions⟩

theorem parse?_eq (ts : List Token) :
    parse? ts = parseRest? (takeKeyword ts).1 (significant (takeKeyword ts).2) := rfl

def takeTag : List Token → Option TagKind × List Token
  | .word w :: ts =>
    match keywordTag? w with
    | some tag => (some tag, ts)
    | none => (none, .word w :: ts)
  | ts => (none, ts)

theorem KeywordMeetsColons.cons (h : KeywordMeetsColons cs) (hds : pieces ds = w :: pieces cs) :
    KeywordMeetsColons ds := by
  obtain ⟨v, hv, hkeyword, hinfix⟩ := h
  refine ⟨v, ?_, hkeyword, ?_⟩ <;> rw [hds]
  · exact List.mem_cons_of_mem w hv
  · exact List.infix_cons hinfix

theorem takeFirst_keyword {isAnchored : Bool} (h : (keywordTag? w).isSome = true) :
    takeFirst isAnchored (word w :: ts) = none := by
  have hname : isName w = false := by
    rw [isName, Option.isNone_eq_false_iff.mpr h, Bool.and_false]
  rw [takeFirst, hname]
  rfl

theorem parse?_of_lexed (h : Lexed cs ts) (hmeets : ¬ KeywordMeetsColons cs) :
    parse? ts = parseRest? (takeTag (significant ts)).1 (takeTag (significant ts)).2 := by
  induction h with
  | nil => rfl
  | blank hb _ ih => exact ih fun h => hmeets (h.cons (pieces_blank hb))
  | qualifier hw _ hparted _ ih => exact ih fun h => hmeets (h.cons (pieces_word hw hparted))
  | colons => rfl
  | symbol => rfl
  | @word w cs ts hw hq hparted hrest _ =>
    have htag : takeTag (significant (word w :: ts)) = match keywordTag? w with
        | some tag => (some tag, significant ts)
        | none => (none, word w :: significant ts) := rfl
    rw [parse?_eq, htag]
    cases hk : keywordTag? w with
    | none =>
      rw [takeKeyword_word hk]
      rfl
    | some tag =>
      have hnone : parseRest? none (word w :: significant ts) = none := by
        have hsome : (keywordTag? w).isSome = true := Option.isSome_of_eq_some hk
        rw [parseRest?, takeBase, takeFirst_keyword hsome]
        · rfl
        · exact fun _ h => by cases h
      cases hrest with
      | nil => exact hnone
      | blank | qualifier => simp only [takeKeyword, hk]; rfl
      | word hv => exact absurd hparted hv.append_not_parted
      | symbol => exact hnone
      | @colons cs =>
        have hpieces : pieces (w ++ ':' :: ':' :: cs) = w :: [':', ':'] :: pieces cs := by
          rw [pieces_word hw hparted, pieces]
        refine absurd ⟨w, ?_, Option.isSome_of_eq_some hk, ?_⟩ hmeets
        · simp [hpieces]
        · exact ⟨[], pieces cs, hpieces.symm⟩

end Query

namespace TypeExpression

open Query

variable {s t : String}

/-- Two texts that mean the same are read as the same expression, or neither is read. -/
theorem parse_of_meaning (h : meaning s.toList = meaning t.toList)
    (hs : ¬ KeywordMeetsColons s.toList) (ht : ¬ KeywordMeetsColons t.toList) :
    (∃ e, parse s = .ok e ∧ parse t = .ok e) ∨
      (parse s = .error (.invalidExpression (Text.trim s)) ∧
        parse t = .error (.invalidExpression (Text.trim t))) := by
  have hread : parse? (Token.lex s) = parse? (Token.lex t) := by
    rw [parse?_of_lexed (Token.lexed_lex s) hs, parse?_of_lexed (Token.lexed_lex t) ht,
      (Token.lexed_lex s).significant_eq, (Token.lexed_lex t).significant_eq, h]
  unfold parse
  rw [hread]
  cases parse? (Token.lex t) with
  | some e => exact .inl ⟨e, rfl, rfl⟩
  | none => exact .inr ⟨rfl, rfl⟩

/-- A keyword that touches colons is a name that none may have. -/
example : meaning "struct ::Node".toList = meaning "struct::Node".toList ∧
    parse "struct ::Node" = .ok ⟨some (.aggregate .structType), "::Node", 0, []⟩ ∧
    parse "struct::Node" = .error (.invalidExpression "struct::Node") := by
  decide +kernel

theorem nodeArray_parse_of_meaning :
    meaning " struct const::Outer ::volatile Node*[ 7]".toList =
      meaning "struct ::Outer::Node\n*[7]volatile".toList ∧
    ¬ KeywordMeetsColons " struct const::Outer ::volatile Node*[ 7]".toList ∧
    ¬ KeywordMeetsColons "struct ::Outer::Node\n*[7]volatile".toList ∧
    parse " struct const::Outer ::volatile Node*[ 7]" =
      .ok ⟨some (.aggregate .structType), "::Outer::Node", 1, [7]⟩ ∧
    parse "struct ::Outer::Node\n*[7]volatile" =
      .ok ⟨some (.aggregate .structType), "::Outer::Node", 1, [7]⟩ := by
  have hmeaning : meaning " struct const::Outer ::volatile Node*[ 7]".toList =
      meaning "struct ::Outer::Node\n*[7]volatile".toList := by decide +kernel
  have hs : ¬ KeywordMeetsColons " struct const::Outer ::volatile Node*[ 7]".toList := by
    decide +kernel
  have ht : ¬ KeywordMeetsColons "struct ::Outer::Node\n*[7]volatile".toList := by decide +kernel
  have hparse : parse " struct const::Outer ::volatile Node*[ 7]" =
      .ok ⟨some (.aggregate .structType), "::Outer::Node", 1, [7]⟩ := by decide +kernel
  rcases parse_of_meaning hmeaning hs ht with ⟨e, hse, hte⟩ | ⟨hse, -⟩
  · rw [hparse] at hse
    cases hse
    exact ⟨hmeaning, hs, ht, hparse, hte⟩
  · rw [hparse] at hse
    cases hse

end TypeExpression

end TypeLayout
