import TypeLayout.Proofs.Json.Scalars
/-! What the readers make of the texts of a tree: a value, whatever the blanks, or a fault if some
string or number in it stands for nothing, or if it is nested too deep. -/

namespace TypeLayout.Json

def Token.first : Token → Char
  | mark m => m.char
  | null => 'n'
  | bool true => 't'
  | bool false => 'f'
  | number n => n.chars.headD '-'
  | string _ => '"'

theorem Numeral.chars_cons (n : Numeral) :
    (n.isNegative = true ∧ n.chars = '-' :: n.unsigned) ∨
      ∃ d ds, n.isNegative = false ∧ n.chars = d :: ds ∧ Reader.isDigit d = true := by
  obtain ⟨d, ds, cons⟩ := List.exists_cons_of_ne_nil n.whole_ok.1
  cases negative : n.isNegative with
  | true => exact .inl ⟨rfl, by simp [Numeral.chars, negative]⟩
  | false =>
    exact .inr ⟨d, ds ++ n.fractionChars ++ n.exponentChars, rfl,
      by simp [Numeral.chars, Numeral.unsigned, negative, cons],
      n.whole_ok.2 d (by simp [cons])⟩

theorem Token.chars_cons (t : Token) : ∃ more, t.chars = t.first :: more := by
  cases t with
  | number n =>
    rcases n.chars_cons with ⟨-, cons⟩ | ⟨d, ds, -, cons, -⟩ <;>
      exact ⟨_, by rw [Token.chars, Token.first, cons]; rfl⟩
  | bool b => cases b <;> exact ⟨_, rfl⟩
  | _ => exact ⟨_, rfl⟩

theorem isGap_cases {c : Char} (h : Reader.isGap c = true) :
    c = ' ' ∨ c = '\n' ∨ c = '\t' ∨ c = '\r' := by
  simpa only [Reader.isGap, Bool.or_eq_true, beq_iff_eq, or_assoc] using h

theorem isGap_of_isDigit {c : Char} (h : Reader.isDigit c = true) : Reader.isGap c = false := by
  refine Bool.eq_false_iff.mpr fun gap => ?_
  rcases isGap_cases gap with rfl | rfl | rfl | rfl <;> cases h

theorem Token.first_not_gap (t : Token) : Reader.isGap t.first = false := by
  cases t with
  | mark m => cases m <;> rfl
  | bool b => cases b <;> rfl
  | number n =>
    rcases n.chars_cons with ⟨-, cons⟩ | ⟨d, ds, -, cons, digit⟩
    · rw [Token.first, cons]; rfl
    · rw [Token.first, cons]; exact isGap_of_isDigit digit
  | _ => rfl

section

variable {t : Token} {ts us : List Token} {cs : List Char}

theorem Spaced.skipGaps (h : Spaced (t :: us) cs) :
    ∃ rest, Reader.skipGaps cs = t.chars ++ rest ∧ Spaced us rest := by
  generalize list : t :: us = ts at h
  cases h with
  | done _ => cases list
  | token gaps rest =>
    cases list
    obtain ⟨more, cons⟩ := t.chars_cons
    refine ⟨_, ?_, rest⟩
    rw [Reader.skipGaps, List.append_assoc, List.dropWhile_append_of_pos gaps, cons,
      List.cons_append, List.dropWhile_cons_of_neg (by simp [t.first_not_gap])]

theorem Spaced.here (h : Spaced us cs) : Spaced (t :: us) (t.chars ++ cs) :=
  @Spaced.token [] cs t us nofun h

theorem Spaced.skipGaps_nil (h : Spaced [] cs) : Reader.skipGaps cs = [] := by
  cases h with
  | done gaps =>
    rw [Reader.skipGaps, ← List.append_nil cs, List.dropWhile_append_of_pos gaps]
    rfl

theorem Spaced.length_le (h : Spaced ts cs) : ts.length ≤ cs.length := by
  induction h with
  | done _ => simp
  | @token gap cs t ts _ _ ih =>
    obtain ⟨more, cons⟩ := t.chars_cons
    simp only [cons, List.length_append, List.length_cons]
    omega

end

def Stops : List Token → Prop
  | [] | .mark _ :: _ => True
  | _ => False

theorem Stops.quiet {us : List Token} {cs : List Char} (stops : Stops us) (h : Spaced us cs) :
    Reader.Quiet cs := by
  intro c hc
  have blank (gap : Reader.isGap c = true) :
      Reader.isDigit c = false ∧ c ≠ '.' ∧ Reader.exponentLetter (some c) = false := by
    rcases isGap_cases gap with rfl | rfl | rfl | rfl <;> decide
  cases h with
  | done gaps => exact blank (gaps c (List.mem_of_mem_head? hc))
  | @token gap _ t _ gaps _ =>
    cases t with
    | mark m =>
      cases gap with
      | nil =>
        cases hc
        cases m <;> decide
      | cons g gap =>
        cases hc
        exact blank (gaps c (by simp))
    | _ => exact stops.elim

theorem isDigit_ne {d c : Char} (digit : Reader.isDigit d = true) (h : Reader.isDigit c = false) :
    d ≠ c := by
  rintro rfl
  rw [digit] at h
  cases h

theorem Tree.tokens_cons (j : Tree) :
    ∃ t ts, j.tokens = t :: ts ∧ t.first ≠ ']' ∧ t.first ≠ '}' := by
  cases j with
  | bool b => cases b <;> exact ⟨_, _, rfl, by decide, by decide⟩
  | number n =>
    refine ⟨_, _, rfl, ?_⟩
    rcases n.chars_cons with ⟨-, cons⟩ | ⟨d, ds, -, cons, digit⟩ <;> rw [Token.first, cons]
    · exact ⟨nofun, nofun⟩
    · exact ⟨isDigit_ne digit rfl, isDigit_ne digit rfl⟩
  | _ => exact ⟨_, _, rfl, nofun, nofun⟩

namespace Reader

/-- A run leaves a text of the tokens `us`, or fails. -/
def Arrives {α : Type} (r : Except Fault (α × List Char)) (us : List Token) : Option α → Prop
  | some a => ∃ left, r = .ok (a, left) ∧ Spaced us left
  | none => ∃ e, r = .error e

/-- A reader takes the tokens wherever they stand before others, with this answer or a fault. -/
def Reads {α : Type} (x : Reader α) (ts : List Token) (answer : Option α) : Prop :=
  ∀ us cs, Stops us → Spaced (ts ++ us) cs → Arrives (x cs) us answer

section

variable {α β : Type} {x : Reader α} {f : α → Reader β} {answer : Option α} {next : α → Option β}
  {t : Token} {us vs : List Token} {cs left : List Char} {isFirst : Bool}

theorem Arrives.bind (hx : Arrives (x cs) us answer)
    (hf : ∀ a left, Spaced us left → Arrives (f a left) vs (next a)) :
    Arrives ((x >>= f) cs) vs (answer.bind next) := by
  cases answer with
  | none =>
    obtain ⟨e, run⟩ := hx
    exact ⟨e, bind_error run⟩
  | some a =>
    obtain ⟨left, run, spaced⟩ := hx
    rw [bind_ok run]
    exact hf a left spaced

theorem Arrives.map {g : α → β} (hx : Arrives (x cs) us answer) :
    Arrives ((g <$> x) cs) us (answer.map g) := by
  rw [map_eq_pure_bind, Option.map_eq_bind]
  exact hx.bind fun a left spaced => ⟨left, rfl, spaced⟩

theorem Arrives.of_toOption {r : Except Fault (α × List Char)}
    (run : r.toOption = answer.map (·, left)) (spaced : Spaced us left) : Arrives r us answer := by
  cases answer with
  | none =>
    cases r with
    | error e => exact ⟨e, rfl⟩
    | ok p => cases run
  | some a =>
    cases r with
    | error e => cases run
    | ok p => exact ⟨left, by rw [Option.some.inj run], spaced⟩

theorem peek_run (h : Spaced (t :: us) cs) :
    ∃ rest, peek cs = .ok (some t.first, t.chars ++ rest) ∧ Spaced us rest := by
  obtain ⟨rest, gone, spaced⟩ := h.skipGaps
  obtain ⟨more, cons⟩ := t.chars_cons
  exact ⟨rest, by rw [peek, gone, cons]; rfl, spaced⟩

theorem peek_mark {m : Mark} (h : Spaced (.mark m :: us) cs) :
    ∃ rest, peek cs = .ok (some m.char, m.char :: rest) ∧ Spaced us rest := peek_run h

theorem hasElement_close (isFirst : Bool) (h : Spaced (.mark .closeArray :: us) cs) :
    Arrives (hasElement isFirst cs) (.mark .closeArray :: us) (some false) := by
  obtain ⟨rest, peeked, spaced⟩ := peek_mark h
  rw [hasElement, bind_ok peeked]
  exact ⟨_, rfl, spaced.here⟩

theorem hasElement_first (j : Tree) (h : Spaced (j.tokens ++ us) cs) :
    Arrives (hasElement true cs) (j.tokens ++ us) (some true) := by
  obtain ⟨t, ts, cons, open_, -⟩ := j.tokens_cons
  rw [cons] at h ⊢
  obtain ⟨rest, peeked, spaced⟩ := peek_run h
  rw [hasElement, bind_ok peeked]
  refine ⟨_, ?_, spaced.here⟩
  simp

theorem hasElement_comma (j : Tree) (h : Spaced (.mark .comma :: j.tokens ++ us) cs) :
    Arrives (hasElement false cs) (j.tokens ++ us) (some true) := by
  obtain ⟨t, ts, cons, open_, -⟩ := j.tokens_cons
  rw [cons] at h ⊢
  obtain ⟨rest, peeked, spaced⟩ := peek_mark h
  obtain ⟨rest', peeked', spaced'⟩ := peek_run spaced
  refine ⟨_, ?_, spaced'.here⟩
  rw [hasElement, bind_ok peeked]
  simp [Mark.char, bind_ok peeked']

def elementTokens (isFirst : Bool) (js : List Tree) : List Token :=
  if isFirst then Tree.itemsTokens js else Tree.moreItems js

theorem hasElement_cons (j : Tree) (js : List Tree)
    (h : Spaced (elementTokens isFirst (j :: js) ++ us) cs) :
    Arrives (hasElement isFirst cs) (j.tokens ++ (elementTokens false js ++ us)) (some true) := by
  cases isFirst with
  | true =>
    refine hasElement_first j ?_
    simpa [elementTokens, Tree.itemsTokens] using h
  | false =>
    refine hasElement_comma j ?_
    simpa [elementTokens, Tree.moreItems] using h

theorem elementTokens_stops (js : List Tree) :
    Stops (elementTokens false js ++ .mark .closeArray :: us) := by
  cases js <;> trivial

theorem elements_arrives {step : α → Reader α} {next : α → Tree → Option α} (js : List Tree)
    (reads : ∀ j ∈ js, ∀ a, Reads (step a) j.tokens (next a j)) (text : List Char)
    (enough : js.length ≤ text.length) (a : α)
    (h : Spaced (elementTokens isFirst js ++ .mark .closeArray :: us) cs) :
    Arrives (elements step text isFirst a cs) (.mark .closeArray :: us) (js.foldlM next a) := by
  induction js generalizing text isFirst a cs with
  | nil =>
    have closes : Spaced (.mark .closeArray :: us) cs := by
      cases isFirst <;> exact h
    obtain ⟨left, run, spaced⟩ := hasElement_close isFirst closes
    refine ⟨left, ?_, spaced⟩
    cases text with
    | nil => rw [elements, bind_ok (discard_ok run)]; rfl
    | cons c text => rw [elements, bind_ok run]; rfl
  | cons j js ih =>
    cases text with
    | nil => simp at enough
    | cons c text =>
      obtain ⟨left, run, spaced⟩ := hasElement_cons j js h
      rw [elements, bind_ok run, List.foldlM_cons]
      refine (reads j (by simp) a _ _ (elementTokens_stops js) spaced).bind fun a' left' rest => ?_
      exact ih (fun j' mem => reads j' (by simp [mem])) text (by simpa using enough) a' rest

theorem length_le_moreItems (js : List Tree) : js.length ≤ (Tree.moreItems js).length := by
  induction js with
  | nil => simp
  | cons j js ih =>
    simp only [Tree.moreItems, List.length_cons, List.length_append]
    omega

theorem length_le_itemsTokens (js : List Tree) : js.length ≤ (Tree.itemsTokens js).length := by
  cases js with
  | nil => simp
  | cons j js =>
    obtain ⟨t, ts, cons, -⟩ := j.tokens_cons
    have := length_le_moreItems js
    simp only [Tree.itemsTokens, cons, List.length_cons, List.length_append]
    omega

theorem foldElements_arrives {step : α → Reader α} {next : α → Tree → Option α} (js : List Tree)
    (reads : ∀ j ∈ js, ∀ a, Reads (step a) j.tokens (next a j)) (a : α)
    (h : Spaced (Tree.itemsTokens js ++ .mark .closeArray :: us) cs) :
    Arrives (foldElements step a cs) (.mark .closeArray :: us) (js.foldlM next a) := by
  have enough : js.length ≤ cs.length := by
    have := length_le_itemsTokens js
    have := h.length_le
    rw [List.length_append] at this
    omega
  exact elements_arrives js reads cs enough a h

/-! Members. -/

def memberTokens (isFirst : Bool) (ms : List (Literal × Tree)) : List Token :=
  if isFirst then Tree.membersTokens ms else Tree.moreMembers ms

theorem nextKey_close (isFirst : Bool) (h : Spaced (.mark .closeObject :: us) cs) :
    Arrives (nextKey isFirst cs) (.mark .closeObject :: us) (some none) := by
  obtain ⟨rest, peeked, spaced⟩ := peek_mark h
  rw [nextKey, bind_ok peeked]
  exact ⟨_, rfl, spaced.here⟩

theorem key_arrives (k : Literal) (spaced : Spaced us left) :
    Arrives ((some <$> string : Reader _) (k.chars ++ '"' :: left)) us (k.text?.map some) :=
  (Arrives.of_toOption (string_run k left) spaced).map

theorem peek_string {s : Literal} (h : Spaced (.string s :: us) cs) :
    ∃ rest, peek cs = .ok (some '"', '"' :: (s.chars ++ '"' :: rest)) ∧ Spaced us rest := by
  obtain ⟨rest, peeked, spaced⟩ := peek_run h
  exact ⟨rest, by simpa [Token.first, Token.chars] using peeked, spaced⟩

theorem nextKey_cons (k : Literal) (j : Tree) (ms : List (Literal × Tree))
    (h : Spaced (memberTokens isFirst ((k, j) :: ms) ++ us) cs) :
    Arrives (nextKey isFirst cs) (.mark .colon :: j.tokens ++ (memberTokens false ms ++ us))
      (k.text?.map some) := by
  cases isFirst with
  | true =>
    have keyed : Spaced
        (.string k :: (.mark .colon :: j.tokens ++ (memberTokens false ms ++ us))) cs := by
      simpa [memberTokens, Tree.membersTokens] using h
    obtain ⟨rest, peeked, spaced⟩ := peek_string keyed
    rw [nextKey, bind_ok peeked]
    exact key_arrives k spaced
  | false =>
    have keyed : Spaced (.mark .comma :: .string k ::
        (.mark .colon :: j.tokens ++ (memberTokens false ms ++ us))) cs := by
      simpa [memberTokens, Tree.moreMembers] using h
    obtain ⟨rest, peeked, comma⟩ := peek_mark keyed
    obtain ⟨rest', peeked', spaced⟩ := peek_string comma
    have run : nextKey false cs = (some <$> string : Reader _) (k.chars ++ '"' :: rest') := by
      rw [nextKey, bind_ok peeked]
      simp [Mark.char, bind_ok peeked']
    rw [run]
    exact key_arrives k spaced

theorem memberTokens_stops (ms : List (Literal × Tree)) :
    Stops (memberTokens false ms ++ .mark .closeObject :: us) := by
  cases ms <;> trivial

theorem members_arrives {step : String → α → Reader α}
    (next : α → String → Tree → Option α) (ms : List (Literal × Tree))
    (reads : ∀ m ∈ ms, ∀ key a, Reads (step key a) (.mark .colon :: m.2.tokens) (next a key m.2))
    (text : List Char) (enough : ms.length ≤ text.length) (a : α)
    (h : Spaced (memberTokens isFirst ms ++ .mark .closeObject :: us) cs) :
    Arrives (members step text isFirst a cs) (.mark .closeObject :: us)
      (ms.foldlM (fun a m => m.1.text?.bind (next a · m.2)) a) := by
  induction ms generalizing text isFirst a cs with
  | nil =>
    have closes : Spaced (.mark .closeObject :: us) cs := by
      cases isFirst <;> exact h
    obtain ⟨left, run, spaced⟩ := nextKey_close isFirst closes
    refine ⟨left, ?_, spaced⟩
    cases text with
    | nil => rw [members, bind_ok (discard_ok run)]; rfl
    | cons c text => rw [members, bind_ok run]; rfl
  | cons m ms ih =>
    cases text with
    | nil => simp at enough
    | cons c text =>
      have key := nextKey_cons m.1 m.2 ms h
      rw [members, List.foldlM_cons]
      -- a key that spells no text is refused before its value is looked at
      cases spelled : m.1.text? with
      | none =>
        obtain ⟨e, run⟩ : ∃ e, nextKey isFirst cs = .error e := by rwa [spelled] at key
        exact ⟨e, bind_error run⟩
      | some k =>
        rw [spelled] at key
        obtain ⟨left, run, spaced⟩ := key
        rw [bind_ok run]
        refine (reads m (by simp) k a _ _ (memberTokens_stops ms) spaced).bind
          fun a' left' rest => ?_
        exact ih (fun m' mem => reads m' (by simp [mem])) text (by simpa using enough) a' rest

theorem length_le_moreMembers (ms : List (Literal × Tree)) :
    ms.length ≤ (Tree.moreMembers ms).length := by
  induction ms with
  | nil => simp
  | cons m ms ih =>
    simp only [Tree.moreMembers, List.length_cons, List.length_append]
    omega

theorem length_le_membersTokens (ms : List (Literal × Tree)) :
    ms.length ≤ (Tree.membersTokens ms).length := by
  cases ms with
  | nil => simp
  | cons m ms =>
    have := length_le_moreMembers ms
    simp only [Tree.membersTokens, List.length_cons, List.length_append]
    omega

theorem foldMembers_arrives {step : String → α → Reader α}
    (next : α → String → Tree → Option α) (ms : List (Literal × Tree))
    (reads : ∀ m ∈ ms, ∀ key a, Reads (step key a) (.mark .colon :: m.2.tokens) (next a key m.2))
    (a : α) (h : Spaced (Tree.membersTokens ms ++ .mark .closeObject :: us) cs) :
    Arrives (foldMembers step a cs) (.mark .closeObject :: us)
      (ms.foldlM (fun a m => m.1.text?.bind (next a · m.2)) a) := by
  have enough : ms.length ≤ cs.length := by
    have := length_le_membersTokens ms
    have := h.length_le
    rw [List.length_append] at this
    omega
  exact members_arrives next ms reads cs enough a h

end

end Reader

end TypeLayout.Json
