import TypeLayout.Text.Blank
import TypeLayout.Text.WordChar
/-! The tokens of a type expression: maximal runs of word characters, pairs of colons, single
other characters, and gaps. The words `const` and `volatile` count as gaps. -/

namespace TypeLayout.Query

inductive Token
  | word (chars : List Char)
  | colons
  | symbol (c : Char)
  | gap
deriving DecidableEq, Repr

namespace Token

def isQualifier (w : List Char) : Bool :=
  w == ['c', 'o', 'n', 's', 't'] || w == ['v', 'o', 'l', 'a', 't', 'i', 'l', 'e']

def flush (run : List Char) (ts : List Token) : List Token :=
  if run.isEmpty then ts
  else (if isQualifier run.reverse then gap else word run.reverse) :: ts

def ofChar (c : Char) : Token := if Text.isBlank c then gap else symbol c

def lexFrom (run : List Char) : List Char → List Token
  | [] => flush run []
  | ':' :: ':' :: cs => flush run (colons :: lexFrom [] cs)
  | c :: cs =>
    if Text.isWordChar c then lexFrom (c :: run) cs
    else flush run (ofChar c :: lexFrom [] cs)

def lex (s : String) : List Token := lexFrom [] s.toList

def isGap : Token → Bool
  | gap => true
  | _ => false

def significant (ts : List Token) : List Token := ts.filter (!·.isGap)

end Token

end TypeLayout.Query
