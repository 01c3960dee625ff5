import TypeLayout.Json.Skip
import TypeLayout.Proofs.Json.Grammar
/-! What the readers of words, strings and numbers make of the spelled tokens. -/

namespace TypeLayout.Json

def isNumber : Json → Bool
  | .natural _ | .negative _ | .real _ => true
  | _ => false

namespace Reader

section

variable {α β : Type} {x : Reader α} {f : α → Reader β} {a : α} {cs left : List Char} {e : Fault}

theorem bind_ok (h : x cs = .ok (a, left)) : (x >>= f) cs = f a left := by
  change (x cs >>= fun p => f p.1 p.2) = _
  rw [h]
  rfl

theorem bind_error (h : x cs = .error e) : (x >>= f) cs = .error e := by
  change (x cs >>= fun p => f p.1 p.2) = _
  rw [h]
  rfl

theorem map_ok {g : α → β} (h : x cs = .ok (a, left)) : (g <$> x) cs = .ok (g a, left) := by
  rw [map_eq_pure_bind, bind_ok h]
  rfl

theorem discard_ok (h : x cs = .ok (a, left)) : (discard x : Reader Unit) cs = .ok ((), left) :=
  map_ok h

theorem map_toOption {g : α → β} :
    ((g <$> x) cs).toOption = (x cs).toOption.map fun p => (g p.1, p.2) := by
  rw [map_eq_pure_bind]
  cases h : x cs with
  | ok p => rw [bind_ok h]; rfl
  | error e => rw [bind_error h]; rfl

@[simp] theorem pure_run : (pure a : Reader α) cs = .ok (a, cs) := rfl

@[simp] theorem get_bind_run {f : List Char → Reader β} : (get >>= f) cs = f cs cs := rfl

@[simp] theorem set_bind_run {f : PUnit → Reader β} : (set left >>= f) cs = f ⟨⟩ left := rfl

@[simp] theorem drop_bind_run {f : Unit → Reader β} : (drop >>= f) cs = f () cs.tail := rfl

@[simp] theorem fail_run {cause : Cause} :
    (fail cause : Reader α) cs = .error { cause := cause, rest := cs } := rfl

end

/-! Strings. -/

theorem utf8Size_of_hexValue {c : Char} {n : Nat} (h : hexValue c = some n) : c.utf8Size = 1 := by
  refine Char.utf8Size_eq_one_iff.mpr ?_
  simp only [hexValue, Char.le_def] at h
  split at h
  case isTrue decimal => exact UInt32.le_trans decimal.2 (by decide)
  split at h
  case isTrue small => exact UInt32.le_trans small.2 (by decide)
  split at h
  case isTrue large => exact UInt32.le_trans large.2 (by decide)
  cases h

theorem hex_digits {ds : List Char} {n : Nat} (len : ds.length = 4) (h : hexNumber ds = some n) :
    ∃ a b c d, ds = [a, b, c, d] ∧ a.utf8Size = 1 ∧ b.utf8Size = 1 ∧ c.utf8Size = 1 ∧
      d.utf8Size = 1 := by
  obtain ⟨a, b, c, d, rfl⟩ : ∃ a b c d, ds = [a, b, c, d] := by
    match ds, len with
    | [a, b, c, d], _ => exact ⟨a, b, c, d, rfl⟩
  simp only [hexNumber, List.foldlM_cons, Option.bind_eq_bind, Option.bind_eq_some_iff,
    Option.map_eq_some_iff] at h
  obtain ⟨_, ⟨_, ha, -⟩, _, ⟨_, hb, -⟩, _, ⟨_, hc, -⟩, _, ⟨_, hd, -⟩, -⟩ := h
  exact ⟨a, b, c, d, rfl, utf8Size_of_hexValue ha, utf8Size_of_hexValue hb,
    utf8Size_of_hexValue hc, utf8Size_of_hexValue hd⟩

theorem plainEscape_ne_u {letter c : Char} (h : plainEscape letter = some c) : letter ≠ 'u' := by
  rintro rfl
  cases h

theorem stringFrom_hex {ds cs acc : List Char} {n : Nat} {lead : Option Nat}
    (ok : ds.length = 4 ∧ hexNumber ds = some n) :
    stringFrom.go (.hex lead []) acc (ds ++ cs) =
      match unit16 lead n with
      | .error reason => .error { cause := .malformed reason, rest := cs }
      | .ok (.char c) => stringFrom.go .plain (c :: acc) cs
      | .ok (.leading n) => stringFrom.go (.pairSlash n) acc cs := by
  obtain ⟨a, b, c, d, rfl, ha, hb, hc, hd⟩ := hex_digits ok.1 ok.2
  rcases unit : unit16 lead n with reason | c | n <;>
    simp [stringFrom.go, byteLength, ha, hb, hc, hd, ok.2, unit]

theorem skipString_hex {ds cs : List Char} {n : Nat}
    (ok : ds.length = 4 ∧ hexNumber ds = some n) :
    skipString.go (.hex none []) (ds ++ cs) = skipString.go .plain cs := by
  obtain ⟨a, b, c, d, rfl, ha, hb, hc, hd⟩ := hex_digits ok.1 ok.2
  simp [skipString.go, byteLength, ha, hb, hc, hd, ok.2]

section

variable {letter c : Char} {ds : List Char} {n : Nat} (s : Literal) (acc cs : List Char)

theorem stringFrom_plain (ok : c ≠ '"' ∧ c ≠ '\\' ∧ 0x20 ≤ c.toNat) :
    stringFrom.go .plain acc (Literal.chars (.plain c ok :: s) ++ cs) =
      stringFrom.go .plain (c :: acc) (s.chars ++ cs) := by
  simp [Glyph.chars, stringFrom.go, ok.1, ok.2.1, Nat.not_lt.mpr ok.2.2]

theorem stringFrom_escape (ok : plainEscape letter = some c) :
    stringFrom.go .plain acc (Literal.chars (.escape letter c ok :: s) ++ cs) =
      stringFrom.go .plain (c :: acc) (s.chars ++ cs) := by
  simp [Glyph.chars, stringFrom.go, ok, plainEscape_ne_u ok]

theorem stringFrom_hexGlyph (ok : ds.length = 4 ∧ hexNumber ds = some n) :
    stringFrom.go .plain acc (Literal.chars (.hex ds n ok :: s) ++ cs) =
      stringFrom.go (.hex none []) acc (ds ++ (s.chars ++ cs)) := by
  simp [Glyph.chars, stringFrom.go]

theorem stringFrom_pairSlash (lead : Nat) (ok : ds.length = 4 ∧ hexNumber ds = some n) :
    stringFrom.go (.pairSlash lead) acc (Literal.chars (.hex ds n ok :: s) ++ cs) =
      stringFrom.go (.hex (some lead) []) acc (ds ++ (s.chars ++ cs)) := by
  simp [Glyph.chars, stringFrom.go]

theorem stringFrom_lone (lead : Nat) (h : ∀ ds n ok s', s = .hex ds n ok :: s' → False) :
    (stringFrom.go (.pairSlash lead) acc (s.chars ++ '"' :: cs)).toOption = none := by
  match s with
  | [] => rfl
  | .plain c ok :: s => simp [Glyph.chars, stringFrom.go, ok.2.1, Except.toOption]
  | .escape letter c ok :: s =>
    simp [Glyph.chars, stringFrom.go, plainEscape_ne_u ok, Except.toOption]
  | .hex ds n ok :: s => exact (h ds n ok s rfl).elim

theorem stringFrom_run :
    (stringFrom.go .plain acc (s.chars ++ '"' :: cs)).toOption =
      s.decode.map fun xs => (acc.reverse ++ xs, cs) := by
  -- the cases of `decode`: the end, a plain character, an escaped one, a trailing half on its own,
  -- a pair, a leading half before another unit or before anything else, and a whole character
  induction s using Literal.decode.induct generalizing acc with
  | case1 => simp [Literal.decode, stringFrom.go, Except.toOption]
  | case2 c ok s ih =>
    rw [stringFrom_plain, ih]
    simp [Literal.decode, Function.comp_def]
  | case3 letter c ok s ih =>
    rw [stringFrom_escape, ih]
    simp [Literal.decode, Function.comp_def]
  | case4 ds n ok s trailing =>
    rw [stringFrom_hexGlyph, stringFrom_hex ok]
    simp [Literal.decode.eq_def, unit16, trailing, Except.toOption]
  | case5 ds n ok notTrailing leading ds' m ok' s trailing ih =>
    rw [stringFrom_hexGlyph, stringFrom_hex ok]
    simp only [unit16, notTrailing, leading, reduceIte, Bool.false_eq_true]
    rw [stringFrom_pairSlash, stringFrom_hex ok']
    simp [Literal.decode, notTrailing, leading, trailing, unit16, ih, Literal.pair,
      Function.comp_def]
  | case6 ds n ok notTrailing leading ds' m ok' s lone =>
    rw [stringFrom_hexGlyph, stringFrom_hex ok]
    simp only [unit16, notTrailing, leading, reduceIte, Bool.false_eq_true]
    rw [stringFrom_pairSlash, stringFrom_hex ok']
    simp [Literal.decode, notTrailing, leading, lone, unit16, Except.toOption]
  | case7 ds n ok s notTrailing leading lone =>
    rw [stringFrom_hexGlyph, stringFrom_hex ok]
    simp only [unit16, notTrailing, leading, reduceIte, Bool.false_eq_true]
    rw [stringFrom_lone _ _ _ _ lone]
    simp [Literal.decode, notTrailing, leading]
  | case8 ds n ok s notTrailing notLeading ih =>
    rw [stringFrom_hexGlyph, stringFrom_hex ok]
    simp only [unit16, notTrailing, notLeading, reduceIte, Bool.false_eq_true, ih]
    simp [Literal.decode.eq_def (.hex ds n ok :: s), notTrailing, notLeading, Function.comp_def]

theorem string_run : (string (s.chars ++ '"' :: cs)).toOption = s.text?.map (·, cs) := by
  rw [string, map_toOption]
  change (stringFrom.go .plain [] (s.chars ++ '"' :: cs)).toOption.map _ = _
  rw [stringFrom_run]
  simp [Literal.text?, Function.comp_def]

theorem skipString_run : skipString.go .plain (s.chars ++ '"' :: cs) = .ok ((), cs) := by
  induction s with
  | nil => simp [skipString.go]
  | cons g s ih =>
    cases g with
    | plain c ok => simp [Glyph.chars, skipString.go, ok.1, ok.2.1, Nat.not_lt.mpr ok.2.2, ih]
    | escape letter c ok =>
      simp [Glyph.chars, skipString.go, ok, plainEscape_ne_u ok, ih]
    | hex ds n ok => simp [Glyph.chars, skipString.go, skipString_hex ok, ih]

end

/-! Numbers. -/

def Quiet (rest : List Char) : Prop :=
  ∀ c ∈ rest.head?, isDigit c = false ∧ c ≠ '.' ∧ exponentLetter (some c) = false

/-- Whatever follows the text quietly, a reader takes the text and no more, always with the same
number, or always refuses it. -/
def Decided (x : Reader Json) (text : List Char) : Prop :=
  ∃ answer : Option Json, (∀ j ∈ answer, j.isNumber = true) ∧
    ∀ rest, Quiet rest → (x (text ++ rest)).toOption = answer.map (·, rest)

section

variable {α : Type} {x : Reader α} {f : α → Reader Json} {a : α} {y z : Reader Json}
  {text left rest ds : List Char}

theorem Decided.bind (h : ∀ rest, Quiet rest → x (text ++ rest) = .ok (a, left ++ rest))
    (decided : Decided (f a) left) : Decided (x >>= f) text := by
  obtain ⟨answer, number, read⟩ := decided
  refine ⟨answer, number, fun rest quiet => ?_⟩
  rw [bind_ok (h rest quiet), read rest quiet]

theorem Decided.congr (h : ∀ rest, Quiet rest → y (text ++ rest) = z (text ++ rest))
    (decided : Decided z text) : Decided y text := by
  obtain ⟨answer, number, read⟩ := decided
  exact ⟨answer, number, fun rest quiet => by rw [h rest quiet, read rest quiet]⟩

theorem digits_run (isDigits : ∀ d ∈ ds, isDigit d = true)
    (stop : ∀ c ∈ rest.head?, isDigit c = false) : digits (ds ++ rest) = .ok (ds, rest) := by
  have none_left : rest.takeWhile isDigit = [] ∧ rest.dropWhile isDigit = rest := by
    cases rest with
    | nil => exact ⟨rfl, rfl⟩
    | cons c cs => simp [stop c rfl]
  simp [digits, List.takeWhile_append_of_pos isDigits, List.dropWhile_append_of_pos isDigits,
    none_left]

theorem digits_end (isDigits : ∀ d ∈ ds, isDigit d = true) (quiet : Quiet rest) :
    digits (ds ++ rest) = .ok (ds, [] ++ rest) :=
  digits_run isDigits fun c hc => (quiet c hc).1

theorem real_decided (d : Decimal) : Decided (real d) [] := by
  cases large : d.overflows with
  | false =>
    exact ⟨some (.real d), by rintro _ ⟨⟩; rfl,
      fun rest _ => by simp [real, large, Except.toOption]⟩
  | true => exact ⟨none, nofun, fun rest _ => by simp [real, large, Except.toOption]⟩

theorem pure_decided {j : Json} (number : j.isNumber = true) : Decided (pure j) [] :=
  ⟨some j, by rintro _ ⟨⟩; exact number, fun _ _ => rfl⟩

theorem integer_isNumber (isNegative : Bool) (n : Nat) :
    (integer isNegative n).isNumber = true := by
  rw [integer]
  split
  · rfl
  · split <;> rfl

theorem Quiet.noLetter (quiet : Quiet rest) : exponentLetter rest.head? = false := by
  cases rest with
  | nil => rfl
  | cons c rest => exact (quiet c rfl).2.2

theorem exponentLetter_letter (e : Exponent) : exponentLetter (some e.letter) = true := by
  rcases e.letter_ok with h | h <;> rw [h] <;> rfl

theorem exponentSign_run (e : Exponent) (rest : List Char) :
    exponentSign (e.sign.toList ++ e.digits ++ rest) =
      .ok (e.sign == some '-', e.digits ++ rest) := by
  cases sign : e.sign with
  | some c => rcases e.sign_ok c sign with rfl | rfl <;> rfl
  | none =>
    obtain ⟨d, ds, cons⟩ := List.exists_cons_of_ne_nil e.digits_ok.1
    have digit : isDigit d = true := e.digits_ok.2 d (by simp [cons])
    have noPlus : d ≠ '+' := by rintro rfl; cases digit
    have noMinus : d ≠ '-' := by rintro rfl; cases digit
    simp [cons, exponentSign, noPlus, noMinus]

theorem exponent_decided (e : Exponent) (isNegative : Bool) (significand : Nat) (start : Int) :
    Decided (exponent isNegative significand start) (e.sign.toList ++ e.digits) := by
  refine Decided.bind (fun rest _ => exponentSign_run e rest) ?_
  obtain ⟨d, ds, cons⟩ := List.exists_cons_of_ne_nil e.digits_ok.1
  have digit : isDigit d = true := e.digits_ok.2 d (by simp [cons])
  refine Decided.congr (fun rest _ => by
    rw [get_bind_run, cons, List.cons_append, List.head?_cons]) ?_
  simp only [digit, reduceIte]
  refine Decided.bind (fun rest quiet => digits_end e.digits_ok.2 quiet) ?_
  split
  · exact real_decided _
  · split
    · exact ⟨none, nofun, fun rest _ => rfl⟩
    · exact pure_decided rfl

theorem exponentChars_head (n : Numeral) (quiet : Quiet rest) :
    ∀ c ∈ (n.exponentChars ++ rest).head?, isDigit c = false ∧ c ≠ '.' := by
  intro c hc
  cases e : n.exponent with
  | none =>
    simp only [Numeral.exponentChars, e, Option.elim_none, List.nil_append] at hc
    exact ⟨(quiet c hc).1, (quiet c hc).2.1⟩
  | some x =>
    simp only [Numeral.exponentChars, e, Option.elim_some, Exponent.chars, List.cons_append,
      List.head?_cons, Option.mem_def, Option.some.injEq] at hc
    subst hc
    rcases x.letter_ok with h | h <;> rw [h] <;> decide

theorem exponentPart_decided (n : Numeral) (isNegative : Bool) (significand : Nat) (start : Int)
    {otherwise : Reader Json} (decided : Decided otherwise []) :
    Decided (do
      if exponentLetter (← get).head? then
        drop
        exponent isNegative significand start
      else otherwise) n.exponentChars := by
  cases e : n.exponent with
  | none =>
    rw [show n.exponentChars = [] by simp [Numeral.exponentChars, e]]
    refine Decided.congr (fun rest quiet => ?_) decided
    simp [quiet.noLetter]
  | some x =>
    rw [show n.exponentChars = x.letter :: (x.sign.toList ++ x.digits) by
      simp [Numeral.exponentChars, e, Exponent.chars]]
    obtain ⟨answer, number, read⟩ := exponent_decided x isNegative significand start
    refine ⟨answer, number, fun rest quiet => ?_⟩
    rw [get_bind_run, List.cons_append, List.head?_cons, exponentLetter_letter, if_pos rfl,
      drop_bind_run, List.tail_cons, read rest quiet]

theorem fraction_taken (n : Numeral) (h : n.fraction = some ds) (quiet : Quiet rest) :
    digits (ds ++ n.exponentChars ++ rest) = .ok (ds, n.exponentChars ++ rest) := by
  rw [List.append_assoc]
  exact digits_run (n.fraction_ok ds h).2 fun c hc => (exponentChars_head n quiet c hc).1

theorem fraction_decided (n : Numeral) (h : n.fraction = some ds) (isNegative : Bool)
    (significand : Nat) (start : Int) :
    Decided (fraction isNegative significand start) (ds ++ n.exponentChars) := by
  refine Decided.bind (fun _ quiet => fraction_taken n h quiet) ?_
  simp only [List.isEmpty_iff, (n.fraction_ok ds h).1, reduceIte]
  exact exponentPart_decided n _ _ _ (real_decided _)

theorem afterInteger_decided (n : Numeral) (isNegative : Bool) (significand omitted : Nat) :
    Decided (afterInteger isNegative significand omitted) (n.fractionChars ++ n.exponentChars) := by
  cases f : n.fraction with
  | none =>
    rw [show n.fractionChars = [] by simp [Numeral.fractionChars, f], List.nil_append]
    have whole : Decided (if omitted = 0 then pure (integer isNegative significand)
        else real ⟨isNegative, significand, omitted⟩) [] := by
      split
      · exact pure_decided (integer_isNumber isNegative significand)
      · exact real_decided _
    have read := exponentPart_decided n isNegative significand omitted whole
    refine Decided.congr (fun rest quiet => ?_) read
    have noPoint : (n.exponentChars ++ rest).head? ≠ some '.' :=
      fun h => (exponentChars_head n quiet _ h).2 rfl
    simp only [afterInteger, get_bind_run]
  | some ds =>
    obtain ⟨answer, number, read⟩ := fraction_decided n f isNegative significand omitted
    refine ⟨answer, number, fun rest quiet => ?_⟩
    simp only [Numeral.fractionChars, f, Option.elim_some, List.cons_append, afterInteger,
      get_bind_run, List.head?_cons, drop_bind_run, List.tail_cons, read rest quiet]

theorem parts_head (n : Numeral) (quiet : Quiet rest) :
    ∀ c ∈ (n.fractionChars ++ n.exponentChars ++ rest).head?, isDigit c = false := by
  intro c hc
  rw [List.append_assoc] at hc
  cases f : n.fraction with
  | none =>
    simp only [Numeral.fractionChars, f, Option.elim_none, List.nil_append] at hc
    exact (exponentChars_head n quiet c hc).1
  | some ds =>
    simp only [Numeral.fractionChars, f, Option.elim_some, List.cons_append, List.head?_cons,
      Option.mem_def, Option.some.injEq] at hc
    subst hc
    rfl

theorem parts_noDigit (n : Numeral) (quiet : Quiet rest) :
    ((n.fractionChars ++ n.exponentChars ++ rest).head?.map isDigit).getD false = false := by
  cases h : (n.fractionChars ++ n.exponentChars ++ rest).head? with
  | none => rfl
  | some c => exact parts_head n quiet c h

theorem whole_taken (n : Numeral) (quiet : Quiet rest) :
    digits (n.unsigned ++ rest) = .ok (n.whole, n.fractionChars ++ n.exponentChars ++ rest) := by
  rw [Numeral.unsigned, List.append_assoc, List.append_assoc, ← List.append_assoc n.fractionChars]
  exact digits_run n.whole_ok.2 (parts_head n quiet)

theorem unsigned_cases (n : Numeral) :
    n.unsigned = '0' :: (n.fractionChars ++ n.exponentChars) ∨
      ∃ d ds, n.unsigned = d :: ds ∧ isDigit d = true ∧ d ≠ '0' := by
  obtain ⟨d, ds, cons⟩ := List.exists_cons_of_ne_nil n.whole_ok.1
  by_cases zero : d = '0'
  · have whole := n.leading_ok (by rw [cons, zero]; rfl)
    exact .inl (by simp [Numeral.unsigned, whole])
  · exact .inr ⟨d, _, by rw [Numeral.unsigned, cons]; rfl, n.whole_ok.2 d (by simp [cons]), zero⟩

theorem number_decided (n : Numeral) (isNegative : Bool) :
    Decided (number isNegative) n.unsigned := by
  rcases unsigned_cases n with spelled | ⟨d, ds, spelled, digit, zero⟩
  · obtain ⟨answer, isNumber, read⟩ := afterInteger_decided n isNegative 0 0
    refine ⟨answer, isNumber, fun rest quiet => ?_⟩
    rw [spelled, List.cons_append, number, get_bind_run]
    simp only [set_bind_run, parts_noDigit n quiet, Bool.false_eq_true, reduceIte]
    exact read rest quiet
  · have whole : Decided (do
        let joined := joinDigits significandLimit 0 (← digits)
        afterInteger isNegative joined.1 joined.2.length) n.unsigned :=
      Decided.bind (fun _ quiet => whole_taken n quiet) (afterInteger_decided n isNegative _ _)
    refine Decided.congr (fun rest quiet => ?_) whole
    rw [spelled, List.cons_append, number, get_bind_run]
    simp only [digit, reduceIte]

/-! The reader that skips a number takes the same text. -/

theorem skipExponent_run (e : Exponent) (quiet : Quiet rest) :
    skipExponent (e.sign.toList ++ e.digits ++ rest) = .ok ((), rest) := by
  obtain ⟨d, ds, cons⟩ := List.exists_cons_of_ne_nil e.digits_ok.1
  have digit : isDigit d = true := e.digits_ok.2 d (by simp [cons])
  have taken : (discard digits : Reader Unit) (e.digits ++ rest) = .ok ((), rest) :=
    discard_ok (digits_end e.digits_ok.2 quiet)
  rw [skipExponent, bind_ok (discard_ok (exponentSign_run e rest)), get_bind_run]
  simp only [cons, List.cons_append, List.head?_cons, digit, reduceIte]
  rw [← List.cons_append, ← cons, taken]

theorem skipExponentPart_run (n : Numeral) (quiet : Quiet rest) :
    (do if exponentLetter (← get).head? then
          drop
          skipExponent : Reader Unit) (n.exponentChars ++ rest) = .ok ((), rest) := by
  cases e : n.exponent with
  | none => simp [Numeral.exponentChars, e, quiet.noLetter]
  | some x =>
    simp [Numeral.exponentChars, e, Exponent.chars, exponentLetter_letter, skipExponent_run x quiet,
      -List.append_assoc]

theorem skipFraction_run (n : Numeral) (h : n.fraction = some ds) (quiet : Quiet rest) :
    skipFraction (ds ++ n.exponentChars ++ rest) = .ok ((), rest) := by
  rw [skipFraction, bind_ok (fraction_taken n h quiet)]
  simp only [List.isEmpty_iff, (n.fraction_ok ds h).1, reduceIte]
  exact skipExponentPart_run n quiet

theorem skipAfterInteger_run (n : Numeral) (quiet : Quiet rest) :
    skipAfterInteger (n.fractionChars ++ n.exponentChars ++ rest) = .ok ((), rest) := by
  cases f : n.fraction with
  | none =>
    have noPoint : (n.exponentChars ++ rest).head? ≠ some '.' :=
      fun h => (exponentChars_head n quiet _ h).2 rfl
    rw [← skipExponentPart_run n quiet]
    simp only [Numeral.fractionChars, f, Option.elim_none, List.nil_append, skipAfterInteger,
      get_bind_run]
  | some ds =>
    rw [← skipFraction_run n f quiet]
    simp only [Numeral.fractionChars, f, Option.elim_some, List.cons_append, skipAfterInteger,
      get_bind_run, List.head?_cons, drop_bind_run, List.tail_cons]

theorem skipNumber_run (n : Numeral) (quiet : Quiet rest) :
    skipNumber (n.unsigned ++ rest) = .ok ((), rest) := by
  rcases unsigned_cases n with spelled | ⟨d, ds, spelled, digit, zero⟩
  · rw [spelled, List.cons_append, skipNumber, get_bind_run]
    simp only [set_bind_run, parts_noDigit n quiet, Bool.false_eq_true, reduceIte]
    exact skipAfterInteger_run n quiet
  · have taken := discard_ok (whole_taken n quiet)
    rw [spelled, List.cons_append] at taken ⊢
    rw [skipNumber, get_bind_run]
    simp only [digit, reduceIte]
    rw [bind_ok taken]
    exact skipAfterInteger_run n quiet

theorem value?_eq_of_read {n : Numeral} {answer : Option Json}
    (read : ∀ rest, Quiet rest →
      (number n.isNegative (n.unsigned ++ rest)).toOption = answer.map (·, rest)) :
    n.value? = answer := by
  have alone := read [] (by simp [Quiet])
  rw [List.append_nil] at alone
  rcases h : number n.isNegative n.unsigned with e | p <;> cases answer <;>
    simp_all [Numeral.value?, Except.toOption]

theorem number_run (n : Numeral) (quiet : Quiet rest) :
    (number n.isNegative (n.unsigned ++ rest)).toOption = n.value?.map (·, rest) := by
  obtain ⟨answer, -, read⟩ := number_decided n n.isNegative
  rw [value?_eq_of_read read, read rest quiet]

theorem isNumber_of_value? {n : Numeral} {j : Json} (h : n.value? = some j) :
    j.isNumber = true := by
  obtain ⟨answer, isNumber, read⟩ := number_decided n n.isNegative
  rw [value?_eq_of_read read] at h
  exact isNumber j h

end

end Reader

end TypeLayout.Json
