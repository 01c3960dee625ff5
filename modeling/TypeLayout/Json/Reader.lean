import TypeLayout.Json.Fault
/-! Reading JSON from the left. A reader takes the characters that are left and answers a value and
what is left after it. Faults are those met first, and mismatches are found when their value is
reached; arrays and objects may be nested 127 deep. -/

namespace TypeLayout.Json

abbrev Reader := StateT (List Char) (Except Fault)

def maxDepth : Nat := 127

namespace Reader

variable {α β : Type}

def fail (cause : Cause) : Reader α := fun cs => .error { cause := cause, rest := cs }

def failPeek (cause : Cause) : Reader α := fun cs =>
  .error { cause := cause, rest := cs, reach := 1 }

def failMismatch (reason : Mismatch) : Reader α := fun cs =>
  .error { cause := .mismatch reason, rest := cs, unplaced := true }

def ofMismatch : Except Mismatch α → Reader α
  | .ok a => pure a
  | .error reason => failMismatch reason

/-- Mismatches that reach this point are placed at the current character. -/
def placed (x : Reader α) : Reader α := fun cs =>
  match x cs with
  | .error f => .error (f.place id)
  | ok => ok

def isGap (c : Char) : Bool := c == ' ' || c == '\n' || c == '\t' || c == '\r'

def skipGaps (cs : List Char) : List Char := cs.dropWhile isGap

def peek : Reader (Option Char) := fun cs => let rest := skipGaps cs; .ok (rest.head?, rest)

def drop : Reader Unit := fun cs => .ok ((), cs.tail)

def finishWord : List Char → Reader Unit
  | [] => pure ()
  | expected :: more => do
    match ← get with
    | [] => fail (.endsEarly .inValue)
    | c :: cs =>
      if c = expected then
        set cs
        finishWord more
      else failPeek (.malformed .expectedIdentifier)

/-! Strings. -/

inductive StringState
  | plain
  | escaped
  | hex (lead : Option Nat) (digits : List Char)
  | pairSlash (lead : Nat)
  | pairMark (lead : Nat)

def hexValue (c : Char) : Option Nat :=
  if '0' ≤ c ∧ c ≤ '9' then some (c.toNat - '0'.toNat)
  else if 'a' ≤ c ∧ c ≤ 'f' then some (c.toNat - 'a'.toNat + 10)
  else if 'A' ≤ c ∧ c ≤ 'F' then some (c.toNat - 'A'.toNat + 10)
  else none

def hexNumber (digits : List Char) : Option Nat :=
  digits.foldlM (fun n c => (hexValue c).map fun d => n * 16 + d) 0

def byteLength (cs : List Char) : Nat := cs.foldl (fun n c => n + c.utf8Size) 0

def plainEscape (c : Char) : Option Char :=
  match c with
  | '"' => some '"'
  | '\\' => some '\\'
  | '/' => some '/'
  | 'b' => some '\x08'
  | 'f' => some '\x0c'
  | 'n' => some '\n'
  | 'r' => some '\r'
  | 't' => some '\t'
  | _ => none

def isLeading (n : Nat) : Bool := 0xd800 ≤ n && n ≤ 0xdbff

def isTrailing (n : Nat) : Bool := 0xdc00 ≤ n && n ≤ 0xdfff

inductive Unit16
  | char (c : Char)
  | leading (n : Nat)

def unit16 (lead : Option Nat) (n : Nat) : Except Malformation Unit16 :=
  match lead with
  | none =>
    if isTrailing n then .error .loneSurrogate
    else if isLeading n then .ok (.leading n)
    else .ok (.char (Char.ofNat n))
  | some high =>
    if isTrailing n then .ok (.char (Char.ofNat (0x10000 + (high - 0xd800) * 0x400 + (n - 0xdc00))))
    else .error .loneSurrogate

def stringFrom : StringState → List Char → Reader (List Char)
  | state, acc => fun cs => go state acc cs
where
  go : StringState → List Char → List Char → Except Fault (List Char × List Char)
    | _, _, [] => .error { cause := .endsEarly .inString, rest := [] }
    | .plain, acc, c :: cs =>
      if c = '"' then .ok (acc.reverse, cs)
      else if c = '\\' then go .escaped acc cs
      else if c.toNat < 0x20 then .error { cause := .malformed .controlCharacter, rest := cs }
      else go .plain (c :: acc) cs
    | .escaped, acc, c :: cs =>
      if c = 'u' then go (.hex none []) acc cs
      else match plainEscape c with
        | some e => go .plain (e :: acc) cs
        | none => .error { cause := .malformed .invalidEscape, rest := c :: cs, reach := 1 }
    | .hex lead digits, acc, c :: cs =>
      let digits := digits ++ [c]
      if byteLength digits < 4 then go (.hex lead digits) acc cs
      else match hexNumber digits with
        | none => .error { cause := .malformed .invalidEscape, rest := digits ++ cs, reach := 4 }
        | some n =>
          match unit16 lead n with
          | .error reason => .error { cause := .malformed reason, rest := cs }
          | .ok (.char e) => go .plain (e :: acc) cs
          | .ok (.leading n) => go (.pairSlash n) acc cs
    | .pairSlash lead, acc, c :: cs =>
      if c = '\\' then go (.pairMark lead) acc cs
      else .error { cause := .malformed .unfinishedSurrogate, rest := c :: cs, reach := 1 }
    | .pairMark lead, acc, c :: cs =>
      if c = 'u' then go (.hex (some lead) []) acc cs
      else .error { cause := .malformed .unfinishedSurrogate, rest := c :: cs, reach := 1 }

def string : Reader String := String.ofList <$> stringFrom .plain []

/-! Numbers. -/

def isDigit (c : Char) : Bool := '0' ≤ c && c ≤ '9'

def digits : Reader (List Char) := fun cs => .ok (cs.takeWhile isDigit, cs.dropWhile isDigit)

def digitValue (c : Char) : Nat := c.toNat - '0'.toNat

/-- Digits join a number while it stays below `limit`; the rest is left. -/
def joinDigits (limit : Nat) : Nat → List Char → Nat × List Char
  | n, [] => (n, [])
  | n, d :: ds =>
    if n * 10 + digitValue d < limit then joinDigits limit (n * 10 + digitValue d) ds
    else (n, d :: ds)

def significandLimit : Nat := 0x10000000000000000

def exponentLimit : Nat := 0x80000000

def real (d : Decimal) : Reader Json :=
  if d.overflows then fail (.malformed .numberOutOfRange) else pure (.real d)

def exponentSign : Reader Bool := fun cs =>
  match cs with
  | '+' :: rest => .ok (false, rest)
  | '-' :: rest => .ok (true, rest)
  | _ => .ok (false, cs)

def exponent (isNegative : Bool) (significand : Nat) (start : Int) : Reader Json := do
  let down ← exponentSign
  match (← get).head? with
  | none => fail (.endsEarly .inValue)
  | some c =>
    if isDigit c then
      let ds ← digits
      match joinDigits exponentLimit 0 ds with
      | (e, []) => real ⟨isNegative, significand, if down then start - e else start + e⟩
      | (_, _ :: beyond) =>
        if significand ≠ 0 && !down then
          set (beyond ++ (← get))
          fail (.malformed .numberOutOfRange)
        else pure (.real ⟨isNegative, 0, 0⟩)
    else failPeek (.malformed .invalidNumber)

def exponentLetter (c : Option Char) : Bool := c == some 'e' || c == some 'E'

/-- After the point. `start` digits of the integer part were left out. -/
def fraction (isNegative : Bool) (significand : Nat) (start : Int) : Reader Json := do
  let ds ← digits
  if ds.isEmpty then
    if (← get).isEmpty then failPeek (.endsEarly .inValue) else failPeek (.malformed .invalidNumber)
  else
    let (n, omitted) := joinDigits significandLimit significand ds
    let scale := start - ((ds.length - omitted.length : Nat) : Int)
    if exponentLetter (← get).head? then
      drop
      exponent isNegative n scale
    else real ⟨isNegative, n, scale⟩

def integer (isNegative : Bool) (n : Nat) : Json :=
  if !isNegative then .natural n
  else if n = 0 ∨ 0x8000000000000000 < n then .real ⟨true, n, 0⟩
  else .negative n

def afterInteger (isNegative : Bool) (significand omitted : Nat) : Reader Json := do
  match (← get).head? with
  | some '.' => drop; fraction isNegative significand omitted
  | c =>
    if exponentLetter c then
      drop
      exponent isNegative significand omitted
    else if omitted = 0 then pure (integer isNegative significand)
    else real ⟨isNegative, significand, omitted⟩

def number (isNegative : Bool) : Reader Json := do
  match ← get with
  | [] => fail (.endsEarly .inValue)
  | '0' :: cs =>
    set cs
    if (cs.head?.map isDigit).getD false then failPeek (.malformed .invalidNumber)
    else afterInteger isNegative 0 0
  | c :: _ =>
    if isDigit c then
      let (n, omitted) := joinDigits significandLimit 0 (← digits)
      afterInteger isNegative n omitted.length
    else failPeek (.malformed .invalidNumber)

/-! Arrays and objects. -/

def hasElement (isFirst : Bool) : Reader Bool := do
  match ← peek with
  | none => failPeek (.endsEarly .inList)
  | some ']' => pure false
  | some c =>
    if isFirst then pure true
    else if c = ',' then
      drop
      match ← peek with
      | some ']' => failPeek (.malformed .trailingComma)
      | some _ => pure true
      | none => failPeek (.endsEarly .inValue)
    else failPeek (.malformed .expectedListEnd)

def nextKey (isFirst : Bool) : Reader (Option String) := do
  match ← peek with
  | none => failPeek (.endsEarly .inObject)
  | some '}' => pure none
  | some c =>
    if isFirst then
      if c = '"' then drop; some <$> string else failPeek (.malformed .keyNotString)
    else if c = ',' then
      drop
      match ← peek with
      | some '"' => drop; some <$> string
      | some '}' => failPeek (.malformed .trailingComma)
      | some _ => failPeek (.malformed .keyNotString)
      | none => failPeek (.endsEarly .inValue)
    else failPeek (.malformed .expectedObjectEnd)

def colon : Reader Unit := do
  match ← peek with
  | some ':' => drop
  | some _ => failPeek (.malformed .expectedColon)
  | none => failPeek (.endsEarly .inObject)

/-- Fold over the elements of an array up to its closing bracket, at most one for each character of
`text`. -/
def elements (step : α → Reader α) : (text : List Char) → Bool → α → Reader α
  | [], isFirst, a => do
    discard (hasElement isFirst)
    pure a
  | _ :: text, isFirst, a => do
    if ← hasElement isFirst then elements step text false (← step a) else pure a

def members (step : String → α → Reader α) : (text : List Char) → Bool → α → Reader α
  | [], isFirst, a => do
    discard (nextKey isFirst)
    pure a
  | _ :: text, isFirst, a => do
    match ← nextKey isFirst with
    | some key => members step text false (← step key a)
    | none => pure a

/-- Every element takes a character, so what is left bounds their number. -/
def foldElements (step : α → Reader α) (a : α) : Reader α := do
  elements step (← get) true a

def foldMembers (step : String → α → Reader α) (a : α) : Reader α := do
  members step (← get) true a

def closeArray : Reader Unit := do
  match ← peek with
  | some ']' => drop
  | some ',' => do
    drop
    match ← peek with
    | some ']' => failPeek (.malformed .trailingComma)
    | _ => failPeek (.malformed .trailingCharacters)
  | some _ => failPeek (.malformed .trailingCharacters)
  | none => failPeek (.endsEarly .inList)

def closeObject : Reader Unit := do
  match ← peek with
  | some '}' => drop
  | some ',' => failPeek (.malformed .trailingComma)
  | some _ => failPeek (.malformed .trailingCharacters)
  | none => failPeek (.endsEarly .inObject)

/-- Where reading stands once a closing reader has run, whether or not it succeeded. -/
def afterClosing (close : Reader Unit) (cs : List Char) : List Char :=
  match close cs with
  | .ok (_, rest) => rest
  | .error f => f.rest

/-- A bracketed body: the bracket has been peeked, and nesting one level deeper is allowed for. A
mismatch inside is placed after the closing bracket, if that is what follows. -/
def enclosed (depth : Nat) (close : Reader Unit) (body : Nat → Reader α) : Reader α :=
  match depth with
  | 0 => failPeek (.malformed .tooDeep)
  | inner + 1 => do
    drop
    let a ← fun cs => match body inner cs with
      | .error f => .error (f.place (afterClosing close))
      | ok => ok
    close
    pure a

def array (depth : Nat) (body : Nat → Reader α) : Reader α := enclosed depth closeArray body

def object (depth : Nat) (body : Nat → Reader α) : Reader α := enclosed depth closeObject body

def dispatch (c : Char) (list map : Reader Json) : Reader Json := do
  match c with
  | 'n' => drop; finishWord ['u', 'l', 'l']; pure .null
  | 't' => drop; finishWord ['r', 'u', 'e']; pure (.bool true)
  | 'f' => drop; finishWord ['a', 'l', 's', 'e']; pure (.bool false)
  | '-' => drop; number true
  | '"' => drop; .string <$> string
  | '[' => list
  | '{' => map
  | c => if isDigit c then number false else failPeek (.malformed .expectedValue)

def elementStep (item : Reader Json) (items : List Json) : Reader (List Json) := do
  return (← item) :: items

def memberStep (item : Reader Json) (key : String) (ms : List (String × Json)) :
    Reader (List (String × Json)) := do
  colon
  return (key, ← item) :: ms

def value : Nat → Reader Json
  | 0 => do
    match ← peek with
    | none => failPeek (.endsEarly .inValue)
    | some c => dispatch c (failPeek (.malformed .tooDeep)) (failPeek (.malformed .tooDeep))
  | depth + 1 => do
    match ← peek with
    | none => failPeek (.endsEarly .inValue)
    | some c =>
      dispatch c
        (do drop
            let items ← foldElements (elementStep (value depth)) []
            closeArray
            pure (.array items.reverse))
        (do drop
            let ms ← foldMembers (memberStep (value depth)) []
            closeObject
            pure (.object ms.reverse))

/-- A scalar where another shape was expected; arrays and objects are not entered. -/
def misplaced (expected : String) : Reader α := placed do
  match ← peek with
  | none => failPeek (.endsEarly .inValue)
  | some c =>
    let j ← dispatch c (pure (.array [])) (pure (.object []))
    failMismatch (.invalidType j.label expected)

def finish : Reader Unit := do
  match ← peek with
  | none => pure ()
  | some _ => failPeek (.malformed .trailingCharacters)

def run (x : Reader α) (text : String) : Except Fault α :=
  match (do let a ← x; finish; pure a : Reader α) text.toList with
  | .ok (a, _) => .ok a
  | .error f => .error f

end Reader

def parse (depth : Nat) (text : String) : Except Fault Json := (Reader.value depth).run text

end TypeLayout.Json
