import TypeLayout.Json.Reader
/-! The texts of JSON. A text is a sequence of tokens with blanks between them, and the tokens are
those of a tree, which keeps how every string and number is spelled. A tree has a value if its
strings are texts and its numbers are in range. -/

namespace TypeLayout.Json

inductive Mark
  | openArray | closeArray | openObject | closeObject | comma | colon

def Mark.char : Mark → Char
  | openArray => '['
  | closeArray => ']'
  | openObject => '{'
  | closeObject => '}'
  | comma => ','
  | colon => ':'

inductive Glyph
  | plain (c : Char) (ok : c ≠ '"' ∧ c ≠ '\\' ∧ 0x20 ≤ c.toNat)
  | escape (letter c : Char) (ok : Reader.plainEscape letter = some c)
  | hex (digits : List Char) (n : Nat)
    (ok : digits.length = 4 ∧ Reader.hexNumber digits = some n)

abbrev Literal := List Glyph

namespace Glyph

def chars : Glyph → List Char
  | plain c _ => [c]
  | escape letter _ _ => ['\\', letter]
  | hex digits _ _ => '\\' :: 'u' :: digits

end Glyph

namespace Literal

def chars (s : Literal) : List Char := s.flatMap Glyph.chars

@[simp] theorem chars_nil : chars [] = [] := rfl

@[simp] theorem chars_cons (g : Glyph) (s : Literal) : chars (g :: s) = g.chars ++ s.chars := rfl

def pair (high low : Nat) : Char := Char.ofNat (0x10000 + (high - 0xd800) * 0x400 + (low - 0xdc00))

def decode : Literal → Option (List Char)
  | [] => some []
  | .plain c _ :: s => (c :: ·) <$> decode s
  | .escape _ c _ :: s => (c :: ·) <$> decode s
  | .hex _ n _ :: s =>
    if Reader.isTrailing n then none
    else if Reader.isLeading n then
      match s with
      | .hex _ m _ :: s => if Reader.isTrailing m then (pair n m :: ·) <$> decode s else none
      | _ => none
    else (Char.ofNat n :: ·) <$> decode s

def text? (s : Literal) : Option String := String.ofList <$> s.decode

end Literal

structure Exponent where
  letter : Char
  sign : Option Char
  digits : List Char
  letter_ok : letter = 'e' ∨ letter = 'E'
  sign_ok : ∀ c ∈ sign, c = '+' ∨ c = '-'
  digits_ok : digits ≠ [] ∧ ∀ d ∈ digits, Reader.isDigit d = true

structure Numeral where
  isNegative : Bool
  whole : List Char
  fraction : Option (List Char) := none
  exponent : Option Exponent := none
  whole_ok : whole ≠ [] ∧ ∀ d ∈ whole, Reader.isDigit d = true
  leading_ok : whole.head? = some '0' → whole = ['0']
  fraction_ok : ∀ ds ∈ fraction, ds ≠ [] ∧ ∀ d ∈ ds, Reader.isDigit d = true

def Exponent.chars (e : Exponent) : List Char := e.letter :: e.sign.toList ++ e.digits

namespace Numeral

def fractionChars (n : Numeral) : List Char := n.fraction.elim [] ('.' :: ·)

def exponentChars (n : Numeral) : List Char := n.exponent.elim [] Exponent.chars

def unsigned (n : Numeral) : List Char := n.whole ++ n.fractionChars ++ n.exponentChars

def chars (n : Numeral) : List Char := (if n.isNegative then ['-'] else []) ++ n.unsigned

def value? (n : Numeral) : Option Json :=
  match Reader.number n.isNegative n.unsigned with
  | .ok (j, []) => some j
  | _ => none

end Numeral

inductive Token
  | mark (m : Mark)
  | null
  | bool (value : Bool)
  | number (n : Numeral)
  | string (s : Literal)

namespace Token

def chars : Token → List Char
  | mark m => [m.char]
  | null => ['n', 'u', 'l', 'l']
  | bool true => ['t', 'r', 'u', 'e']
  | bool false => ['f', 'a', 'l', 's', 'e']
  | number n => n.chars
  | string s => '"' :: s.chars ++ ['"']

end Token

/-- A text of the tokens, with blanks before, between and after them. -/
inductive Spaced : List Token → List Char → Prop
  | done {gap : List Char} : (∀ c ∈ gap, Reader.isGap c = true) → Spaced [] gap
  | token {gap cs : List Char} {t : Token} {ts : List Token} :
    (∀ c ∈ gap, Reader.isGap c = true) → Spaced ts cs → Spaced (t :: ts) (gap ++ t.chars ++ cs)

inductive Tree
  | null
  | bool (value : Bool)
  | number (n : Numeral)
  | string (s : Literal)
  | array (items : List Tree)
  | object (members : List (Literal × Tree))

namespace Tree

mutual

def tokens : Tree → List Token
  | .null => [.null]
  | .bool b => [.bool b]
  | .number n => [.number n]
  | .string s => [.string s]
  | .array items => .mark .openArray :: itemsTokens items ++ [.mark .closeArray]
  | .object members => .mark .openObject :: membersTokens members ++ [.mark .closeObject]

def itemsTokens : List Tree → List Token
  | [] => []
  | j :: js => j.tokens ++ moreItems js

def moreItems : List Tree → List Token
  | [] => []
  | j :: js => .mark .comma :: j.tokens ++ moreItems js

def membersTokens : List (Literal × Tree) → List Token
  | [] => []
  | (k, j) :: ms => .string k :: .mark .colon :: j.tokens ++ moreMembers ms

def moreMembers : List (Literal × Tree) → List Token
  | [] => []
  | (k, j) :: ms => .mark .comma :: .string k :: .mark .colon :: j.tokens ++ moreMembers ms

end

mutual

def depth : Tree → Nat
  | .array items => itemsDepth items + 1
  | .object members => membersDepth members + 1
  | _ => 0

def itemsDepth : List Tree → Nat
  | [] => 0
  | j :: js => max j.depth (itemsDepth js)

def membersDepth : List (Literal × Tree) → Nat
  | [] => 0
  | (_, j) :: ms => max j.depth (membersDepth ms)

end

mutual

/-- What a tree stands for, if every string and number in it stands for something. -/
def value? : Tree → Option Json
  | .null => some .null
  | .bool b => some (.bool b)
  | .number n => n.value?
  | .string s => Json.string <$> s.text?
  | .array items => Json.array <$> itemsValue? items
  | .object members => Json.object <$> membersValue? members

def itemsValue? : List Tree → Option (List Json)
  | [] => some []
  | j :: js => do return (← j.value?) :: (← itemsValue? js)

def membersValue? : List (Literal × Tree) → Option (List (String × Json))
  | [] => some []
  | (k, j) :: ms => do return (← k.text?, ← j.value?) :: (← membersValue? ms)

end

/-- The text is one of the texts of the tree. -/
def Written (j : Tree) (text : String) : Prop := Spaced j.tokens text.toList

end Tree

end TypeLayout.Json
