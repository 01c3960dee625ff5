/-! Columns of text: filling to a width counted in characters, and hexadecimal numbers. -/

namespace TypeLayout.Text

def spaces (n : Nat) : String := String.ofList (List.replicate n ' ')

def padLeft (width : Nat) (s : String) : String := spaces (width - s.length) ++ s

def padRight (width : Nat) (s : String) : String := s ++ spaces (width - s.length)

def hex (n : Nat) : String :=
  let digits := Nat.toDigits 16 n
  "0x" ++ String.ofList (List.replicate (4 - digits.length) '0' ++ digits)

end TypeLayout.Text
