import TypeLayout.Proofs.Json.Printing
import TypeLayout.Proofs.Query.Lexing
/-! Printed expressions. What is read is a base of whole names behind a keyword or not, with stars
and bounds, and the text of such an expression is lexed into exactly the tokens that are read as the
expression again. -/

namespace TypeLayout

namespace Query

open Text Token

variable {ts rest : List Token} {b : Base} {e : TypeExpression} {cs : List Char} {n : Nat}
  {w : List Char} {tag : TagKind} {more : List NextName} {dimensions : List Nat}

/-! What is read. -/

/-- A name that the lexer cuts out as one word. -/
structure WholeName (w : List Char) : Prop where
  named : Named w
  not_qualifier : isQualifier w = false

theorem WholeName.whole (h : WholeName w) : Whole w := ⟨h.named.ne_nil, h.named.2⟩

/-- An expression as it is read, with its base. -/
structure Readable (e : TypeExpression) (b : Base) : Prop where
  base : e.base = b.text
  first : WholeName b.first
  more : ∀ n ∈ b.more, WholeName n.name
  bounds : ∀ n ∈ e.dimensions, n < addressLimit
  single : e.elaborated.isSome = true → b.isSpaced = false

theorem mem_of_mem_takeNames {m : NextName} (h : m ∈ (takeNames ts).1) : word m.name ∈ ts := by
  induction ts using takeNames.induct with
  | case1 w ts hw more rest hrec ih =>
    simp only [takeNames, hw, if_true, hrec, List.mem_cons] at h ih
    rcases h with rfl | h
    · exact List.mem_cons_of_mem _ List.mem_cons_self
    · exact List.mem_cons_of_mem _ (List.mem_cons_of_mem _ (ih h))
  | case2 w ts hw => simp [takeNames, hw] at h
  | case3 w ts hw more rest hrec ih =>
    simp only [takeNames, hw, if_true, hrec, List.mem_cons] at h ih
    rcases h with rfl | h
    · exact List.mem_cons_self
    · exact List.mem_cons_of_mem _ (ih h)
  | case4 w ts hw => simp [takeNames, hw] at h
  | case5 ts h₁ h₂ =>
    rw [takeNames] at h
    · cases h
    · exact h₁
    · exact h₂

theorem mem_of_takeFirst {isAnchored : Bool} (h : takeFirst isAnchored ts = some (b, rest)) :
    word b.first ∈ ts ∧ ∀ m ∈ b.more, word m.name ∈ ts := by
  unfold takeFirst at h
  split at h
  next w ts =>
    split at h
    next =>
      cases h
      exact ⟨List.mem_cons_self, fun m hm => List.mem_cons_of_mem _ (mem_of_mem_takeNames hm)⟩
    next => cases h
  next => cases h

theorem mem_of_takeBase (h : takeBase ts = some (b, rest)) :
    word b.first ∈ ts ∧ ∀ m ∈ b.more, word m.name ∈ ts := by
  unfold takeBase at h
  split at h
  · obtain ⟨hfirst, hmore⟩ := mem_of_takeFirst h
    exact ⟨List.mem_cons_of_mem _ hfirst, fun m hm => List.mem_cons_of_mem _ (hmore m hm)⟩
  · exact mem_of_takeFirst h

theorem lt_of_bound? (h : bound? w = some n) : n < addressLimit := by
  unfold bound? at h
  split at h
  next =>
    obtain ⟨hlt, h⟩ := Option.ite_none_right_eq_some.mp h
    cases h
    exact hlt
  next => cases h

theorem lt_of_takeBounds (h : takeBounds ts = some dimensions) :
    ∀ n ∈ dimensions, n < addressLimit := by
  induction ts using takeBounds.induct generalizing dimensions with
  | case1 =>
    cases h
    exact fun n hn => by cases hn
  | case2 w ts ih =>
    obtain ⟨n, hn, h⟩ := Option.bind_eq_some_iff.mp h
    obtain ⟨ns, hns, h⟩ := Option.bind_eq_some_iff.mp h
    cases h
    rintro m hm
    rcases List.mem_cons.mp hm with rfl | hm
    · exact lt_of_bound? hn
    · exact ih hns m hm
  | case3 ts h₁ h₂ =>
    rw [takeBounds] at h
    · cases h
    · exact h₁
    · exact h₂

theorem readable_of_parse? (hlexed : Lexed cs ts) (h : parse? ts = some e) :
    ∃ b, Readable e b := by
  simp only [parse?, Option.bind_eq_bind, Option.bind_eq_some_iff] at h
  obtain ⟨⟨b, rest⟩, hb, dimensions, hbounds, h⟩ := h
  have hwhole : ∀ w, isName w = true → word w ∈ significant (takeKeyword ts).2 → WholeName w := by
    intro w hname hw
    have hw' := hlexed.whole_of_mem (mem_of_mem_takeKeyword (List.mem_of_mem_filter hw))
    exact ⟨⟨hname, hw'.1.wordChars⟩, hw'.2⟩
  have hproper : b.Proper := by
    refine proper_of_takeBase (fun t ht => ?_) hb
    cases t with
    | word w =>
      exact (hlexed.whole_of_mem (mem_of_mem_takeKeyword (List.mem_of_mem_filter ht))).1.wordChars
    | colons | symbol | gap => trivial
  obtain ⟨hfirst, hmore⟩ := mem_of_takeBase hb
  split at h
  next => cases h
  next hsingle =>
    cases h
    exact ⟨b, {
      base := rfl
      first := hwhole _ hproper.first.1 hfirst
      more := fun m hm => hwhole _ (hproper.more m hm).1 (hmore m hm)
      bounds := lt_of_takeBounds hbounds
      single := by simpa using hsingle }⟩

/-! The tokens of a printed expression. -/

namespace Token

def ofMore (more : List NextName) : List Token :=
  more.flatMap fun m => [if m.isQualified then colons else gap, word m.name]

def ofBase (b : Base) : List Token :=
  (if b.isAnchored then [colons] else []) ++ word b.first :: ofMore b.more

def ofBounds (dimensions : List Nat) : List Token :=
  dimensions.flatMap fun n => [symbol '[', word (Nat.toDigits 10 n), symbol ']']

def ofDeclarator (depth : Nat) (dimensions : List Nat) : List Token :=
  List.replicate depth (symbol '*') ++ ofBounds dimensions

def ofKeyword : Option TagKind → List Token
  | some tag => [word tag.keyword.toList, gap]
  | none => []

end Token

theorem isDigit_toDigits (n : Nat) : ∀ c ∈ Nat.toDigits 10 n, isAsciiDigit c = true := by
  intro c hc
  simpa [isAsciiDigit, Json.Reader.isDigit] using Json.isDigit_of_mem_toDigits hc

theorem isWordChar_of_isAsciiDigit {c : Char} (h : isAsciiDigit c = true) :
    isWordChar c = true := by
  have hlt : c.toNat < 128 := by
    simp only [isAsciiDigit, Bool.and_eq_true, decide_eq_true_eq] at h
    exact Nat.lt_of_le_of_lt (show c.toNat ≤ '9'.toNat from h.2) (by decide)
  simp [isWordChar, hlt, h]

theorem whole_toDigits (n : Nat) : Whole (Nat.toDigits 10 n) :=
  ⟨Nat.toDigits_ne_nil, fun c hc => isWordChar_of_isAsciiDigit (isDigit_toDigits n c hc)⟩

theorem not_qualifier_toDigits (n : Nat) : isQualifier (Nat.toDigits 10 n) = false := by
  have hdigits := isDigit_toDigits n
  cases hq : isQualifier (Nat.toDigits 10 n) with
  | false => rfl
  | true =>
    simp only [isQualifier, Bool.or_eq_true, beq_iff_eq] at hq
    rcases hq with hq | hq
    all_goals
      rw [hq] at hdigits
      exact absurd (hdigits 'o' (by decide)) (by decide)

def boundsChars (dimensions : List Nat) : List Char :=
  dimensions.flatMap fun n => '[' :: Nat.toDigits 10 n ++ [']']

def declaratorChars (depth : Nat) (dimensions : List Nat) : List Char :=
  List.replicate depth '*' ++ boundsChars dimensions

def keywordChars : Option TagKind → List Char
  | some tag => tag.keyword.toList ++ [' ']
  | none => []

theorem toList_bound (n : Nat) : s!"[{n}]".toList = '[' :: Nat.toDigits 10 n ++ [']'] := by
  change ("[" ++ toString n ++ "]").toList = _
  simp

theorem Readable.toList_text (h : Readable e b) : e.text.toList = keywordChars e.elaborated ++
    (b.text.toList ++ declaratorChars e.pointerDepth e.dimensions) := by
  have hbounds : (String.join (e.dimensions.map fun n => s!"[{n}]")).toList =
      boundsChars e.dimensions := by
    rw [String.toList_join, List.flatMap_map]
    exact congrArg (e.dimensions.flatMap ·) (funext toList_bound)
  rw [TypeExpression.text, String.toList_append, String.toList_append, String.toList_append,
    hbounds, h.base, String.toList_ofList]
  cases e.elaborated <;> simp [keywordChars, declaratorChars]

theorem lexed_bounds (dimensions : List Nat) :
    Lexed (boundsChars dimensions) (ofBounds dimensions) := by
  induction dimensions with
  | nil => exact .nil
  | cons n dimensions ih =>
    have hclose := Lexed.symbol (c := ']') rfl (by decide) (fun h => by cases h) ih
    have hdigits := Lexed.word (whole_toDigits n) (not_qualifier_toDigits n)
      (parted_cons (by decide)) hclose
    have hopen := Lexed.symbol (c := '[') rfl (by decide) (fun h => by cases h) hdigits
    simpa [boundsChars, ofBounds] using hopen

theorem parted_declarator (depth : Nat) (dimensions : List Nat) :
    Parted (declaratorChars depth dimensions) := by
  cases depth with
  | succ depth => exact parted_cons (by decide)
  | zero =>
    cases dimensions with
    | nil => exact parted_nil
    | cons n dimensions => exact parted_cons (by decide)

theorem lexed_declarator (depth : Nat) (dimensions : List Nat) :
    Lexed (declaratorChars depth dimensions) (ofDeclarator depth dimensions) := by
  induction depth with
  | zero => exact lexed_bounds dimensions
  | succ depth ih => exact .symbol rfl (by decide) (fun h => by cases h) ih

theorem lexed_more (hmore : ∀ m ∈ more, WholeName m.name) (hparted : Parted cs)
    (h : Lexed cs ts) :
    let chars := more.flatMap fun m => (if m.isQualified then [':', ':'] else [' ']) ++ m.name
    Lexed (chars ++ cs) (ofMore more ++ ts) ∧ Parted (chars ++ cs) := by
  induction more with
  | nil => exact ⟨h, hparted⟩
  | cons m more ih =>
    obtain ⟨hrest, hparted⟩ := ih fun k hk => hmore k (List.mem_cons_of_mem m hk)
    have hm := hmore m List.mem_cons_self
    have hword := Lexed.word hm.whole hm.not_qualifier hparted hrest
    cases hq : m.isQualified with
    | true =>
      constructor
      · simpa [ofMore, hq] using Lexed.colons hword
      · simpa [hq] using parted_colon
    | false =>
      constructor
      · simpa [ofMore, hq] using Lexed.blank (c := ' ') rfl hword
      · simpa [hq] using parted_cons (c := ' ') (by decide)

theorem lexed_base (hfirst : WholeName b.first) (hmore : ∀ m ∈ b.more, WholeName m.name)
    (hparted : Parted cs) (h : Lexed cs ts) : Lexed (b.text.toList ++ cs) (ofBase b ++ ts) := by
  obtain ⟨hrest, hparted⟩ := lexed_more hmore hparted h
  have hword := Lexed.word hfirst.whole hfirst.not_qualifier hparted hrest
  rw [Base.Proper.toList_text]
  cases ha : b.isAnchored with
  | true => simpa [ofBase, ha] using Lexed.colons hword
  | false => simpa [ofBase, ha] using hword

theorem whole_keyword (tag : TagKind) :
    Whole tag.keyword.toList ∧ isQualifier tag.keyword.toList = false ∧
      keywordTag? tag.keyword.toList = some tag := by
  rcases tag with (_ | _ | _) | _
  all_goals exact ⟨by decide, by decide, by decide⟩

theorem lexed_keyword (tag? : Option TagKind) (h : Lexed cs ts) :
    Lexed (keywordChars tag? ++ cs) (ofKeyword tag? ++ ts) := by
  cases tag? with
  | none => exact h
  | some tag =>
    obtain ⟨hwhole, hq, -⟩ := whole_keyword tag
    have hword := Lexed.word hwhole hq (parted_cons (by decide)) (Lexed.blank (c := ' ') rfl h)
    simpa [keywordChars, ofKeyword] using hword

theorem Readable.lexed_text (h : Readable e b) : Lexed e.text.toList
    (ofKeyword e.elaborated ++ (ofBase b ++ ofDeclarator e.pointerDepth e.dimensions)) := by
  rw [h.toList_text]
  exact lexed_keyword _ (lexed_base h.first h.more (parted_declarator _ _) (lexed_declarator _ _))

/-! Reading these tokens. -/

theorem takeKeyword_word (h : keywordTag? w = none) :
    takeKeyword (word w :: ts) = (none, word w :: ts) := by
  rcases ts with _ | ⟨t, ts⟩
  · rfl
  · cases t with
    | gap => simp only [takeKeyword, h]
    | word | colons | symbol => rfl

theorem takeKeyword_ofKeyword (tag? : Option TagKind) (hname : isName b.first = true) :
    takeKeyword (ofKeyword tag? ++ (ofBase b ++ ts)) = (tag?, ofBase b ++ ts) := by
  have hfirst : keywordTag? b.first = none := by
    simp only [isName, Bool.and_eq_true, Option.isNone_iff_eq_none] at hname
    exact hname.2
  cases tag? with
  | some tag => simp [ofKeyword, takeKeyword, (whole_keyword tag).2.2]
  | none =>
    cases ha : b.isAnchored with
    | true => simp [ofKeyword, ofBase, ha, takeKeyword]
    | false =>
      simp only [ofKeyword, ofBase, ha, Bool.false_eq_true, if_false, List.nil_append,
        List.cons_append]
      exact takeKeyword_word hfirst

theorem significant_ofDeclarator (depth : Nat) (dimensions : List Nat) :
    significant (ofDeclarator depth dimensions) = ofDeclarator depth dimensions := by
  apply List.filter_eq_self.mpr
  intro t ht
  rcases List.mem_append.mp ht with ht | ht
  · rw [(List.mem_replicate.mp ht).2]
    rfl
  · obtain ⟨n, -, hn⟩ := List.mem_flatMap.mp ht
    simp only [List.mem_cons, List.not_mem_nil, or_false] at hn
    rcases hn with rfl | rfl | rfl <;> rfl

theorem takeNames_ofDeclarator (depth : Nat) (dimensions : List Nat) :
    takeNames (ofDeclarator depth dimensions) = ([], ofDeclarator depth dimensions) := by
  cases depth with
  | succ depth => rfl
  | zero => cases dimensions <;> rfl

theorem takeNames_ofMore (hmore : ∀ m ∈ more, isName m.name = true)
    (hts : takeNames ts = ([], ts)) : takeNames (significant (ofMore more) ++ ts) = (more, ts) := by
  induction more with
  | nil => exact hts
  | cons m more ih =>
    have hm := hmore m List.mem_cons_self
    have hrest := ih fun k hk => hmore k (List.mem_cons_of_mem m hk)
    obtain ⟨isQualified, name⟩ := m
    cases isQualified with
    | true =>
      change takeNames (colons :: word name :: (significant (ofMore more) ++ ts)) = _
      simp only [takeNames, hm, if_true, hrest]
    | false =>
      change takeNames (word name :: (significant (ofMore more) ++ ts)) = _
      simp only [takeNames, hm, if_true, hrest]

theorem takeBase_ofBase (hfirst : isName b.first = true)
    (hmore : ∀ m ∈ b.more, isName m.name = true) (hts : takeNames ts = ([], ts)) :
    takeBase (significant (ofBase b) ++ ts) = some (b, ts) := by
  have hrest := takeNames_ofMore hmore hts
  obtain ⟨isAnchored, first, more⟩ := b
  cases isAnchored with
  | true =>
    change takeFirst true (word first :: (significant (ofMore more) ++ ts)) = _
    simp only [takeFirst, hfirst, if_true, hrest]
  | false =>
    change takeFirst false (word first :: (significant (ofMore more) ++ ts)) = _
    simp only [takeFirst, hfirst, if_true, hrest]

theorem takeStars_ofDeclarator (depth : Nat) (dimensions : List Nat) :
    takeStars (ofDeclarator depth dimensions) = (depth, ofBounds dimensions) := by
  induction depth with
  | zero => cases dimensions <;> rfl
  | succ depth ih =>
    change takeStars (symbol '*' :: ofDeclarator depth dimensions) = _
    rw [takeStars, ih]

theorem bound?_toDigits (h : n < addressLimit) : bound? (Nat.toDigits 10 n) = some n := by
  have hvalue : (Nat.toDigits 10 n).foldl (fun n c => n * 10 + (c.toNat - '0'.toNat)) 0 = n := by
    simpa only [Nat.ofDigitChars, Nat.mul_comm] using Nat.ofDigitChars_ten_toDigits (n := n)
  rw [bound?, if_pos (List.all_eq_true.mpr (isDigit_toDigits n))]
  simp only [hvalue, h, if_true]

theorem takeBounds_ofBounds (h : ∀ n ∈ dimensions, n < addressLimit) :
    takeBounds (ofBounds dimensions) = some dimensions := by
  induction dimensions with
  | nil => rfl
  | cons n dimensions ih =>
    change takeBounds (symbol '[' :: word (Nat.toDigits 10 n) :: symbol ']' ::
      ofBounds dimensions) = _
    rw [takeBounds, bound?_toDigits (h n List.mem_cons_self),
      ih fun m hm => h m (List.mem_cons_of_mem n hm)]
    rfl

theorem Readable.parse?_eq (h : Readable e b) : parse? (ofKeyword e.elaborated ++
    (ofBase b ++ ofDeclarator e.pointerDepth e.dimensions)) = some e := by
  have hkeyword : takeKeyword (ofKeyword e.elaborated ++
      (ofBase b ++ ofDeclarator e.pointerDepth e.dimensions)) =
      (e.elaborated, ofBase b ++ ofDeclarator e.pointerDepth e.dimensions) :=
    takeKeyword_ofKeyword e.elaborated h.first.named.1
  have hbase := takeBase_ofBase h.first.named.1 (fun m hm => (h.more m hm).named.1)
    (takeNames_ofDeclarator e.pointerDepth e.dimensions)
  have hsignificant : significant (ofBase b ++ ofDeclarator e.pointerDepth e.dimensions) =
      significant (ofBase b) ++ ofDeclarator e.pointerDepth e.dimensions := by
    rw [significant, List.filter_append, ← significant, ← significant, significant_ofDeclarator]
  have hsingle : (e.elaborated.isSome && b.isSpaced) = false := by
    cases hs : e.elaborated.isSome with
    | false => rfl
    | true => exact h.single hs
  simp only [parse?, hkeyword, hsignificant, hbase, Option.bind_eq_bind, Option.bind_some,
    takeStars_ofDeclarator, takeBounds_ofBounds h.bounds, hsingle, ← h.base]
  rfl

end Query

namespace TypeExpression

open Query

variable {text : String} {e : TypeExpression} {b : Base}

theorem parse_eq_ok : parse text = .ok e ↔ parse? (Token.lex text) = some e := by
  unfold parse
  cases parse? (Token.lex text) <;> simp

theorem parse_of_readable (h : Readable e b) : parse e.text = .ok e := by
  rw [parse_eq_ok, h.lexed_text.lex_eq, h.parse?_eq]

/-- The text of an expression that was read is read as the same expression. -/
theorem parse_printed (h : parse text = .ok e) : parse e.text = .ok e := by
  obtain ⟨b, hb⟩ := readable_of_parse? (Token.lexed_lex text) (parse_eq_ok.mp h)
  exact parse_of_readable hb

theorem nodeArray_parse_printed :
    parse " struct const::Outer ::volatile Node * const*[ 007 ]" =
      .ok ⟨some (.aggregate .structType), "::Outer::Node", 2, [7]⟩ ∧
    parse "struct ::Outer::Node**[7]" =
      .ok ⟨some (.aggregate .structType), "::Outer::Node", 2, [7]⟩ := by
  have hparse : parse " struct const::Outer ::volatile Node * const*[ 007 ]" =
      .ok ⟨some (.aggregate .structType), "::Outer::Node", 2, [7]⟩ := by decide +kernel
  exact ⟨hparse, parse_printed hparse⟩

end TypeExpression

end TypeLayout
