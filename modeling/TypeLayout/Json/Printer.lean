import TypeLayout.Json.Decimal
import TypeLayout.Json.Value
/-! Writing JSON, on one line or indented by two spaces. Quotes, backslashes and control characters
are escaped, everything else stands for itself. -/

namespace TypeLayout.Json

def hexDigit (n : Nat) : Char := Nat.digitChar n

def escapeChar (c : Char) : List Char :=
  if c = '"' then ['\\', '"']
  else if c = '\\' then ['\\', '\\']
  else if c = '\n' then ['\\', 'n']
  else if c = '\r' then ['\\', 'r']
  else if c = '\t' then ['\\', 't']
  else if c = '\x08' then ['\\', 'b']
  else if c = '\x0c' then ['\\', 'f']
  else if c.toNat < 0x20 then
    ['\\', 'u', '0', '0', hexDigit (c.toNat / 16), hexDigit (c.toNat % 16)]
  else [c]

def quote (s : String) : String := String.ofList ('"' :: s.toList.flatMap escapeChar ++ ['"'])

def scalarText : Json → String
  | .null => "null"
  | .bool true => "true"
  | .bool false => "false"
  | .natural n => toString n
  | .negative n => "-" ++ toString n
  | .real d => d.text
  | .string s => quote s
  | .array _ | .object _ => ""

mutual

def compact : Json → String
  | .array items => "[" ++ compactItems items ++ "]"
  | .object members => "\x7b" ++ compactMembers members ++ "\x7d"
  | j => scalarText j

def compactItems : List Json → String
  | [] => ""
  | [j] => compact j
  | j :: js => compact j ++ "," ++ compactItems js

def compactMembers : List (String × Json) → String
  | [] => ""
  | [(k, j)] => quote k ++ ":" ++ compact j
  | (k, j) :: ms => quote k ++ ":" ++ compact j ++ "," ++ compactMembers ms

end

def newline (level : Nat) : String := String.ofList ('\n' :: List.replicate (2 * level) ' ')

mutual

def prettyAt (level : Nat) : Json → String
  | .array [] => "[]"
  | .array (j :: js) =>
    "[" ++ newline (level + 1) ++ prettyItems (level + 1) (j :: js) ++ newline level ++ "]"
  | .object [] => "\x7b\x7d"
  | .object (m :: ms) =>
    "\x7b" ++ newline (level + 1) ++ prettyMembers (level + 1) (m :: ms) ++ newline level ++ "\x7d"
  | j => scalarText j

def prettyItems (level : Nat) : List Json → String
  | [] => ""
  | [j] => prettyAt level j
  | j :: js => prettyAt level j ++ "," ++ newline level ++ prettyItems level js

def prettyMembers (level : Nat) : List (String × Json) → String
  | [] => ""
  | [(k, j)] => quote k ++ ": " ++ prettyAt level j
  | (k, j) :: ms =>
    quote k ++ ": " ++ prettyAt level j ++ "," ++ newline level ++ prettyMembers level ms

end

def pretty (j : Json) : String := prettyAt 0 j

def render (indented : Bool) (j : Json) : String := if indented then pretty j else compact j

end TypeLayout.Json
