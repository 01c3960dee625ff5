/-! Blanks and the pieces of a text between them. Texts are cut as lists of characters: at every
character of a class (`cut`), into the non-empty pieces (`words`), or at every pair of colons
(`cutColons`). -/

namespace TypeLayout.Text

def isBlank (c : Char) : Bool :=
  let n := c.toNat
  (9 ≤ n && n ≤ 13) || n == 32 || n == 0x85 || n == 0xa0 || n == 0x1680 ||
    (0x2000 ≤ n && n ≤ 0x200a) || n == 0x2028 || n == 0x2029 || n == 0x202f || n == 0x205f ||
    n == 0x3000

def dropBlanks (cs : List Char) : List Char := cs.dropWhile isBlank

def trimChars (cs : List Char) : List Char :=
  (dropBlanks (dropBlanks cs).reverse).reverse

def trim (s : String) : String := String.ofList (trimChars s.toList)

def onFirst (c : Char) : List (List Char) → List (List Char)
  | [] => [[c]]
  | w :: ws => (c :: w) :: ws

def cut (p : Char → Bool) : List Char → List (List Char)
  | [] => [[]]
  | c :: cs => if p c then [] :: cut p cs else onFirst c (cut p cs)

def words (s : String) : List String :=
  ((cut isBlank s.toList).filter (!·.isEmpty)).map String.ofList

/-- Pairs of colons are taken from the left and do not overlap. -/
def cutColons : List Char → List (List Char)
  | ':' :: ':' :: cs => [] :: cutColons cs
  | c :: cs => onFirst c (cutColons cs)
  | [] => [[]]

def join (sep : String) : List String → String
  | [] => ""
  | [s] => s
  | s :: ss => s ++ sep ++ join sep ss

end TypeLayout.Text
