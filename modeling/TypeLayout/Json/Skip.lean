import TypeLayout.Json.Reader
/-! Passing over a value that nobody asked for. It has to be well formed, but it may be nested to
any depth, escapes need not form characters, and numbers may have any size. -/

namespace TypeLayout.Json.Reader

/-- As `stringFrom`, without collecting. -/
def skipString : Reader Unit := fun cs => go .plain cs
where
  go : StringState → List Char → Except Fault (Unit × List Char)
    | _, [] => .error { cause := .endsEarly .inString, rest := [] }
    | .escaped, c :: cs =>
      if c = 'u' then go (.hex none []) cs
      else if (plainEscape c).isSome then go .plain cs
      else .error { cause := .malformed .invalidEscape, rest := c :: cs, reach := 1 }
    | .hex lead digits, c :: cs =>
      let digits := digits ++ [c]
      if byteLength digits < 4 then go (.hex lead digits) cs
      else if (hexNumber digits).isSome then go .plain cs
      else .error { cause := .malformed .invalidEscape, rest := digits ++ cs, reach := 4 }
    | _, c :: cs =>
      if c = '"' then .ok ((), cs)
      else if c = '\\' then go .escaped cs
      else if c.toNat < 0x20 then .error { cause := .malformed .controlCharacter, rest := c :: cs }
      else go .plain cs

def skipExponent : Reader Unit := do
  discard exponentSign
  match (← get).head? with
  | some c => if isDigit c then discard digits else failPeek (.malformed .invalidNumber)
  | none => fail (.malformed .invalidNumber)

def skipFraction : Reader Unit := do
  let ds ← digits
  if ds.isEmpty then failPeek (.malformed .invalidNumber)
  else if exponentLetter (← get).head? then
    drop
    skipExponent

def skipAfterInteger : Reader Unit := do
  match (← get).head? with
  | some '.' => drop; skipFraction
  | c => if exponentLetter c then drop; skipExponent

def skipNumber : Reader Unit := do
  match ← get with
  | '0' :: cs =>
    set cs
    if (cs.head?.map isDigit).getD false then failPeek (.malformed .invalidNumber)
    else skipAfterInteger
  | c :: _ =>
    if isDigit c then
      discard digits
      skipAfterInteger
    else failPeek (.malformed .invalidNumber)
  | [] => fail (.malformed .invalidNumber)

def skipScalar (c : Char) : Reader Unit := do
  match c with
  | 'n' => drop; finishWord ['u', 'l', 'l']
  | 't' => drop; finishWord ['r', 'u', 'e']
  | 'f' => drop; finishWord ['a', 'l', 's', 'e']
  | '-' => drop; skipNumber
  | '"' => drop; skipString
  | c => if isDigit c then skipNumber else failPeek (.malformed .expectedValue)

def skipKey : Reader Unit := do
  match ← peek with
  | some '"' =>
    drop
    skipString
    colon
  | some _ => failPeek (.malformed .keyNotString)
  | none => failPeek (.endsEarly .inObject)

inductive Bracket
  | list | map
deriving DecidableEq

namespace Bracket

def closing : Bracket → Char
  | list => ']' | map => '}'

def ending : Bracket → Ending
  | list => .inList | map => .inObject

def missing : Bracket → Malformation
  | list => .expectedListEnd | map => .expectedObjectEnd

end Bracket

/-- A scalar, or the bracket that opens an array or object inside the open brackets `outer`. The
answer is whether a value has ended, and the brackets that are open now. -/
def skipStart (outer : List Bracket) : Reader (Bool × List Bracket) := do
  match ← peek with
  | none => failPeek (.endsEarly .inValue)
  | some '[' => drop; pure (false, .list :: outer)
  | some '{' => drop; pure (false, .map :: outer)
  | some c => skipScalar c; pure (true, outer)

/-- Up to the end of the outermost open bracket. Every step takes a character, so there are no more
steps than characters in `text`. -/
def skipOpen : (text : List Char) → Bool × List Bracket → Reader Unit
  | _, (_, []) => pure ()
  | [], (_, b :: _) => failPeek (.endsEarly b.ending)
  | _ :: text, (afterValue, b :: outer) => do
    match ← peek with
    | none => failPeek (.endsEarly b.ending)
    | some c =>
      if c = b.closing then
        drop
        skipOpen text (true, outer)
      else if afterValue && c != ',' then failPeek (.malformed b.missing)
      else
        if afterValue then drop
        if b = .map then skipKey
        skipOpen text (← skipStart (b :: outer))

def skip : Reader Unit := do
  let start ← skipStart []
  skipOpen (← get) start

end TypeLayout.Json.Reader
