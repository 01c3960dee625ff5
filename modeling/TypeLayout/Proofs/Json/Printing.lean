import TypeLayout.Json.Printer
import TypeLayout.Proofs.Json.Values
/-! Indented texts. A value whose numbers are integers of 64 bits is written as one of the texts of
a tree that stands for it, and the tree is nested as deep as the value. -/

namespace TypeLayout.Json

open Reader (isDigit isGap)

/-- Every number is an integer that 64 bits hold. -/
inductive Plain : Json → Prop
  | null : Plain .null
  | bool (b : Bool) : Plain (.bool b)
  | natural {n : Nat} : n < Reader.significandLimit → Plain (.natural n)
  | string (s : String) : Plain (.string s)
  | array {js : List Json} : (∀ j ∈ js, Plain j) → Plain (.array js)
  | object {ms : List (String × Json)} : (∀ m ∈ ms, Plain m.2) → Plain (.object ms)

namespace Plain

attribute [simp] null bool string

@[simp] theorem natural_iff {n : Nat} : Plain (.natural n) ↔ n < Reader.significandLimit :=
  ⟨fun | .natural small => small, .natural⟩

@[simp] theorem array_iff {js : List Json} : Plain (.array js) ↔ ∀ j ∈ js, Plain j :=
  ⟨fun | .array items => items, .array⟩

@[simp] theorem object_iff {ms : List (String × Json)} :
    Plain (.object ms) ↔ ∀ m ∈ ms, Plain m.2 :=
  ⟨fun | .object members => members, .object⟩

end Plain

/-! Strings. -/

def escapeLetter? (c : Char) : Option Char :=
  ['"', '\\', 'b', 'f', 'n', 'r', 't'].find? fun letter => Reader.plainEscape letter = some c

theorem hexNumber_ofControl (n : Fin 32) :
    Reader.hexNumber ['0', '0', hexDigit (n / 16), hexDigit (n % 16)] = some n.val := by
  revert n
  decide

def Glyph.ofChar (c : Char) : Glyph :=
  if ok : c ≠ '"' ∧ c ≠ '\\' ∧ 0x20 ≤ c.toNat then .plain c ok
  else match found : escapeLetter? c with
    | some letter => .escape letter c (by simpa using List.find?_some found)
    | none =>
      let n := Fin.ofNat 32 c.toNat
      .hex ['0', '0', hexDigit (n / 16), hexDigit (n % 16)] n ⟨rfl, hexNumber_ofControl n⟩

theorem escaped_cases {P : Char → Prop} (quote : P '"') (backslash : P '\\')
    (control : ∀ n : Fin 32, P (Char.ofNat n)) {c : Char}
    (h : ¬(c ≠ '"' ∧ c ≠ '\\' ∧ 0x20 ≤ c.toNat)) : P c := by
  by_cases isQuote : c = '"'
  · exact isQuote ▸ quote
  by_cases isBackslash : c = '\\'
  · exact isBackslash ▸ backslash
  have small : c.toNat < 32 := by
    simp only [ne_eq, isQuote, isBackslash, not_false_eq_true, true_and] at h
    omega
  have := control ⟨c.toNat, small⟩
  rwa [Char.ofNat_toNat] at this

theorem Glyph.chars_ofChar (c : Char) : (Glyph.ofChar c).chars = escapeChar c := by
  by_cases ok : c ≠ '"' ∧ c ≠ '\\' ∧ 0x20 ≤ c.toNat
  · obtain ⟨notQuote, notBackslash, large⟩ := ok
    have spaces (d : Char) (small : d.toNat < 0x20) : c ≠ d := by
      rintro rfl
      omega
    rw [Glyph.ofChar, dif_pos ⟨notQuote, notBackslash, large⟩]
    simp [escapeChar, notQuote, notBackslash, spaces, Nat.not_lt.mpr large, Glyph.chars]
  · exact escaped_cases (P := fun c => (Glyph.ofChar c).chars = escapeChar c) (by decide)
      (by decide) (by decide) ok

def Glyph.char? : Glyph → Option Char
  | plain c _ | escape _ c _ => some c
  | hex _ n _ => if n < 0xd800 then some (Char.ofNat n) else none

theorem Glyph.char?_ofChar (c : Char) : (Glyph.ofChar c).char? = some c := by
  by_cases ok : c ≠ '"' ∧ c ≠ '\\' ∧ 0x20 ≤ c.toNat
  · rw [Glyph.ofChar, dif_pos ok, Glyph.char?]
  · exact escaped_cases (P := fun c => (Glyph.ofChar c).char? = some c) (by decide) (by decide)
      (by decide) ok

namespace Literal

theorem decode_cons {g : Glyph} {c : Char} (h : g.char? = some c) (s : Literal) :
    decode (g :: s) = (c :: ·) <$> decode s := by
  cases g with
  | plain d _ | escape _ d _ =>
    cases h
    rfl
  | hex digits n _ =>
    obtain ⟨small, same⟩ := Option.ite_none_right_eq_some.mp h
    cases same
    have noTrailing : Reader.isTrailing n = false := by
      simp only [Reader.isTrailing, Bool.and_eq_false_iff, decide_eq_false_iff_not]
      omega
    have noLeading : Reader.isLeading n = false := by
      simp only [Reader.isLeading, Bool.and_eq_false_iff, decide_eq_false_iff_not]
      omega
    cases s with
    | nil => simp [decode, noTrailing, noLeading]
    | cons g s => cases g <;> simp [decode, noTrailing, noLeading]

def ofString (s : String) : Literal := s.toList.map Glyph.ofChar

theorem text?_ofString (s : String) : (ofString s).text? = some s := by
  have decoded (cs : List Char) : decode (cs.map Glyph.ofChar) = some cs := by
    induction cs with
    | nil => rfl
    | cons c cs ih => rw [List.map_cons, decode_cons (Glyph.char?_ofChar c), ih]; rfl
  rw [text?, ofString, decoded, Option.map_eq_map, Option.map_some, String.ofList_toList]

theorem chars_ofString (s : String) : '"' :: (ofString s).chars ++ ['"'] = (quote s).toList := by
  rw [quote, String.toList_ofList, ofString, chars, List.flatMap_map]
  simp only [Glyph.chars_ofChar]

end Literal

/-! Numbers. -/

section

open Reader

variable {n : Nat}

theorem isDigit_of_mem_toDigits {c : Char} (h : c ∈ Nat.toDigits 10 n) : isDigit c = true := by
  have digit := Nat.isDigit_of_mem_toDigits (by omega) (Nat.le_refl 10) h
  simpa [Char.isDigit, isDigit, Char.le_def, UInt32.le_iff_toNat_le] using digit

theorem le_ofDigitChars (ds : List Char) (n : Nat) : n ≤ Nat.ofDigitChars 10 ds n := by
  rw [Nat.ofDigitChars_eq_ofDigitChars_zero]
  exact Nat.le_add_right_of_le (Nat.le_mul_of_pos_left n (Nat.pow_pos (by omega)))

theorem joinDigits_of_lt {limit : Nat} (ds : List Char) (n : Nat)
    (h : Nat.ofDigitChars 10 ds n < limit) :
    joinDigits limit n ds = (Nat.ofDigitChars 10 ds n, []) := by
  induction ds generalizing n with
  | nil => rw [joinDigits, Nat.ofDigitChars_nil]
  | cons d ds ih =>
    have step : n * 10 + digitValue d = 10 * n + (d.toNat - '0'.toNat) := by
      rw [digitValue, Nat.mul_comm]
    rw [Nat.ofDigitChars_cons, ← step] at h ⊢
    rw [joinDigits, if_pos (Nat.lt_of_le_of_lt (le_ofDigitChars ds _) h)]
    exact ih _ h

theorem toDigits_of_head_zero (h : (Nat.toDigits 10 n).head? = some '0') :
    Nat.toDigits 10 n = ['0'] := by
  induction n using Nat.strongRecOn with
  | _ n ih =>
    rw [Nat.toDigits_eq_if (by omega)] at h ⊢
    split at h
    · rename_i small
      rw [if_pos small]
      exact congrArg (· :: []) (Option.some.inj h)
    · rename_i large
      obtain ⟨d, ds, cons⟩ :=
        List.exists_cons_of_ne_nil (Nat.toDigits_ne_nil (n := n / 10) (b := 10))
      have zero := ih (n / 10) (by omega) (by simpa [cons] using h)
      have value : n / 10 = 0 := by
        rw [← Nat.ofDigitChars_ten_toDigits (n := n / 10), zero]
        rfl
      omega

def Numeral.ofNat (n : Nat) : Numeral where
  isNegative := false
  whole := Nat.toDigits 10 n
  whole_ok := ⟨Nat.toDigits_ne_nil, fun _ => isDigit_of_mem_toDigits⟩
  leading_ok := toDigits_of_head_zero
  fraction_ok := by simp

theorem Numeral.chars_ofNat (n : Nat) : (ofNat n).chars = (toString n).toList := by
  rw [Nat.toString_eq_ofList_toDigits, String.toList_ofList]
  simp [chars, unsigned, ofNat, fractionChars, exponentChars]

theorem Numeral.value?_ofNat (h : n < significandLimit) :
    (ofNat n).value? = some (.natural n) := by
  have unsigned : (ofNat n).unsigned = Nat.toDigits 10 n := by
    simp [Numeral.unsigned, ofNat, fractionChars, exponentChars]
  have read : number false (Nat.toDigits 10 n) = .ok (.natural n, []) := by
    obtain ⟨d, ds, cons⟩ := List.exists_cons_of_ne_nil (Nat.toDigits_ne_nil (n := n) (b := 10))
    by_cases zero : d = '0'
    · subst zero
      have only : Nat.toDigits 10 n = ['0'] := toDigits_of_head_zero (by rw [cons]; rfl)
      have value : n = 0 := by
        rw [← Nat.ofDigitChars_ten_toDigits (n := n), only]
        rfl
      subst value
      rfl
    · have digit : isDigit d = true := isDigit_of_mem_toDigits (n := n) (by simp [cons])
      have taken : digits (Nat.toDigits 10 n ++ []) = .ok (Nat.toDigits 10 n, []) :=
        digits_run (fun _ => isDigit_of_mem_toDigits) (by simp)
      rw [List.append_nil] at taken
      have joined := joinDigits_of_lt (Nat.toDigits 10 n) 0
        (by rwa [Nat.ofDigitChars_ten_toDigits])
      rw [Nat.ofDigitChars_ten_toDigits] at joined
      rw [cons] at taken joined ⊢
      rw [number, get_bind_run]
      simp only [digit, reduceIte]
      rw [bind_ok taken, joined]
      rfl
  rw [value?, unsigned, show (ofNat n).isNegative = false from rfl, read]

end

/-! Values. -/

namespace Tree

mutual

def ofJson : Json → Tree
  | .bool b => .bool b
  | .natural n => .number (.ofNat n)
  | .string s => .string (.ofString s)
  | .array js => .array (ofItems js)
  | .object ms => .object (ofMembers ms)
  | .null | .negative _ | .real _ => .null

def ofItems : List Json → List Tree
  | [] => []
  | j :: js => ofJson j :: ofItems js

def ofMembers : List (String × Json) → List (Literal × Tree)
  | [] => []
  | (k, j) :: ms => (.ofString k, ofJson j) :: ofMembers ms

end

mutual

theorem depth_ofJson (j : Json) : (ofJson j).depth = j.depth := by
  cases j with
  | array js => rw [ofJson, Tree.depth, Json.depth, itemsDepth_ofItems js]
  | object ms => rw [ofJson, Tree.depth, Json.depth, membersDepth_ofMembers ms]
  | _ => rfl

theorem itemsDepth_ofItems (js : List Json) : itemsDepth (ofItems js) = Json.itemsDepth js := by
  cases js with
  | nil => rfl
  | cons j js => rw [ofItems, itemsDepth, Json.itemsDepth, depth_ofJson j, itemsDepth_ofItems js]

theorem membersDepth_ofMembers (ms : List (String × Json)) :
    membersDepth (ofMembers ms) = Json.membersDepth ms := by
  cases ms with
  | nil => rfl
  | cons m ms =>
    obtain ⟨k, j⟩ := m
    rw [ofMembers, membersDepth, Json.membersDepth, depth_ofJson j, membersDepth_ofMembers ms]

end

theorem ofItems_eq (js : List Json) : ofItems js = js.map ofJson := by
  induction js with
  | nil => rfl
  | cons j js ih => rw [ofItems, ih, List.map_cons]

theorem ofMembers_eq (ms : List (String × Json)) :
    ofMembers ms = ms.map fun m => (.ofString m.1, ofJson m.2) := by
  induction ms with
  | nil => rfl
  | cons m ms ih => rw [ofMembers, ih, List.map_cons]

theorem mapM_ofMembers_of {ms : List (String × Json)}
    (h : ∀ m ∈ ms, (ofJson m.2).value? = some m.2) :
    (ofMembers ms).mapM (member? value?) = some ms := by
  rw [ofMembers_eq]
  exact mapM_map_self fun m mem => member?_eq_some.mpr ⟨Literal.text?_ofString m.1, h m mem⟩

theorem value?_ofJson {j : Json} (plain : Plain j) : (ofJson j).value? = some j := by
  induction plain with
  | null => rfl
  | bool => rfl
  | natural small => exact Numeral.value?_ofNat small
  | string => rw [ofJson, value?, Literal.text?_ofString]; rfl
  | @array js _ ih =>
    have items : (js.map ofJson).mapM value? = some js := mapM_map_self ih
    rw [ofJson, value?_array, ofItems_eq, items]
    rfl
  | @object ms _ ih =>
    rw [ofJson, value?_object, mapM_ofMembers_of ih]
    rfl

end Tree

/-! Texts. -/

theorem Spaced.nil : Spaced [] [] := @Spaced.done [] nofun

theorem Spaced.blanks {gap cs : List Char} {ts : List Token} (gaps : ∀ c ∈ gap, isGap c = true)
    (h : Spaced ts cs) : Spaced ts (gap ++ cs) := by
  cases h with
  | @done gap' gaps' =>
    refine .done fun c mem => ?_
    rcases List.mem_append.mp mem with mem | mem
    · exact gaps c mem
    · exact gaps' c mem
  | @token gap' cs t ts gaps' rest =>
    rw [List.append_assoc, ← List.append_assoc, ← List.append_assoc]
    refine .token (fun c mem => ?_) rest
    rcases List.mem_append.mp mem with mem | mem
    · exact gaps c mem
    · exact gaps' c mem

theorem isGap_newline (level : Nat) (c : Char) (h : c ∈ (newline level).toList) :
    isGap c = true := by
  rw [newline, String.toList_ofList] at h
  rcases List.mem_cons.mp h with rfl | mem
  · rfl
  · rw [List.eq_of_mem_replicate mem]
    rfl

/-- The printed text of a value, at any level, is one of the texts of its tree. -/
def Prints (j : Json) : Prop :=
  ∀ (level : Nat) {us : List Token} {rest : List Char}, Spaced us rest →
    Spaced ((Tree.ofJson j).tokens ++ us) ((prettyAt level j).toList ++ rest)

section

variable {us : List Token} {rest : List Char}

theorem string_spaced (s : String) (h : Spaced us rest) :
    Spaced (.string (.ofString s) :: us) ((quote s).toList ++ rest) := by
  rw [← Literal.chars_ofString]
  exact h.here

theorem prettyItems_spaced (level : Nat) {js : List Json} (prints : ∀ j ∈ js, Prints j)
    (h : Spaced us rest) :
    Spaced (Tree.itemsTokens (Tree.ofItems js) ++ us) ((prettyItems level js).toList ++ rest) := by
  induction js with
  | nil => exact h
  | cons j js ih =>
    have first := @prints j (by simp) level
    cases js with
    | nil => simpa [Tree.ofItems, Tree.itemsTokens, Tree.moreItems, prettyItems] using first h
    | cons j' js =>
      have more := ih fun j mem => prints j (by simp [mem])
      have comma := (more.blanks (isGap_newline level)).here (t := .mark .comma)
      simpa [Tree.ofItems, Tree.itemsTokens, Tree.moreItems, prettyItems, Token.chars, Mark.char]
        using first comma

theorem prettyMembers_spaced (level : Nat) {ms : List (String × Json)}
    (prints : ∀ m ∈ ms, Prints m.2) (h : Spaced us rest) :
    Spaced (Tree.membersTokens (Tree.ofMembers ms) ++ us)
      ((prettyMembers level ms).toList ++ rest) := by
  induction ms with
  | nil => exact h
  | cons m ms ih =>
    obtain ⟨k, j⟩ := m
    have first {us : List Token} {rest : List Char} (h : Spaced us rest) :
        Spaced (.string (.ofString k) :: .mark .colon :: (Tree.ofJson j).tokens ++ us)
          ((quote k).toList ++ (':' :: ' ' :: (prettyAt level j).toList ++ rest)) := by
      have value := prints (k, j) (by simp) level h
      have blank (c : Char) (mem : c ∈ [' ']) : isGap c = true := by
        rw [List.mem_singleton.mp mem]
        rfl
      exact string_spaced k ((value.blanks blank).here (t := .mark .colon))
    cases ms with
    | nil =>
      simpa [Tree.ofMembers, Tree.membersTokens, Tree.moreMembers, prettyMembers] using first h
    | cons m' ms =>
      have more := ih fun m mem => prints m (by simp [mem])
      have comma := (more.blanks (isGap_newline level)).here (t := .mark .comma)
      simpa [Tree.ofMembers, Tree.membersTokens, Tree.moreMembers, prettyMembers, Token.chars,
        Mark.char] using first comma

theorem prints_array {js : List Json} (prints : ∀ j ∈ js, Prints j) : Prints (.array js) := by
  intro level us rest h
  have closed := h.here (t := .mark .closeArray)
  cases js with
  | nil =>
    simpa [prettyAt, Tree.ofJson, Tree.tokens, Tree.ofItems, Tree.itemsTokens, Token.chars,
      Mark.char] using closed.here (t := .mark .openArray)
  | cons j js =>
    have last := closed.blanks (isGap_newline level)
    have items := prettyItems_spaced (level + 1) prints last
    have opened := (items.blanks (isGap_newline (level + 1))).here (t := .mark .openArray)
    simpa [prettyAt, Tree.ofJson, Tree.tokens, Token.chars, Mark.char] using opened

theorem prints_object {ms : List (String × Json)} (prints : ∀ m ∈ ms, Prints m.2) :
    Prints (.object ms) := by
  intro level us rest h
  have closed := h.here (t := .mark .closeObject)
  cases ms with
  | nil =>
    simpa [prettyAt, Tree.ofJson, Tree.tokens, Tree.ofMembers, Tree.membersTokens, Token.chars,
      Mark.char] using closed.here (t := .mark .openObject)
  | cons m ms =>
    have last := closed.blanks (isGap_newline level)
    have members := prettyMembers_spaced (level + 1) prints last
    have opened := (members.blanks (isGap_newline (level + 1))).here (t := .mark .openObject)
    simpa [prettyAt, Tree.ofJson, Tree.tokens, Token.chars, Mark.char] using opened

theorem prints_of_plain {j : Json} (plain : Plain j) : Prints j := by
  induction plain with
  | null =>
    intro level us rest h
    simpa [prettyAt, scalarText, Tree.ofJson, Tree.tokens, Token.chars] using h.here (t := .null)
  | @bool b =>
    intro level us rest h
    have word := h.here (t := .bool b)
    cases b <;> simpa [prettyAt, scalarText, Tree.ofJson, Tree.tokens, Token.chars] using word
  | @natural n small =>
    intro level us rest h
    simpa [prettyAt, scalarText, Tree.ofJson, Tree.tokens, Token.chars, Numeral.chars_ofNat] using
      h.here (t := .number (.ofNat n))
  | string =>
    intro level us rest h
    simpa [prettyAt, scalarText, Tree.ofJson, Tree.tokens] using string_spaced _ h
  | array _ ih => exact prints_array ih
  | object _ ih => exact prints_object ih

end

theorem Tree.written_flat (j : Tree) :
    j.Written (String.ofList (j.tokens.flatMap Token.chars)) := by
  rw [Tree.Written, String.toList_ofList]
  induction j.tokens with
  | nil => exact .nil
  | cons t ts ih => exact ih.here

theorem written_pretty {j : Json} (plain : Plain j) : (Tree.ofJson j).Written j.pretty := by
  have := prints_of_plain plain 0 .nil
  simpa [Tree.Written, pretty] using this

end TypeLayout.Json
