import TypeLayout.Text.CharRanges
/-! Word characters, which names are made of, and the characters a name may start with. -/

namespace TypeLayout.Text

def isAsciiLetter (c : Char) : Bool :=
  ('a' ≤ c && c ≤ 'z') || ('A' ≤ c && c ≤ 'Z')

def isAsciiDigit (c : Char) : Bool := '0' ≤ c && c ≤ '9'

def isWordChar (c : Char) : Bool :=
  if c.toNat < 128 then isAsciiLetter c || isAsciiDigit c || c == '_'
  else inRanges wordRanges c

def isNameStart (c : Char) : Bool := isAsciiLetter c || c == '_'

end TypeLayout.Text
