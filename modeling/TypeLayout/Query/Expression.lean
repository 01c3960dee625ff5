import TypeLayout.Alignment
import TypeLayout.Fundamental.Specifier
import TypeLayout.Query.Token
import TypeLayout.Registry.Lookup
/-! Type expressions such as `const struct Node*`, `unsigned long` or `Outer::Inner[4]`: an optional
keyword, names joined by colons or set side by side, stars, and array bounds. -/

namespace TypeLayout

structure TypeExpression where
  elaborated : Option TagKind
  base : String
  pointerDepth : Nat
  dimensions : List Nat
deriving DecidableEq, Repr

namespace Query

def keywordTag? (w : List Char) : Option TagKind :=
  if w = ['s', 't', 'r', 'u', 'c', 't'] then some (.aggregate .structType)
  else if w = ['c', 'l', 'a', 's', 's'] then some (.aggregate .classType)
  else if w = ['u', 'n', 'i', 'o', 'n'] then some (.aggregate .unionType)
  else if w = ['e', 'n', 'u', 'm'] then some .enum
  else none

def isName (w : List Char) : Bool :=
  (w.head?.map Text.isNameStart).getD false && (keywordTag? w).isNone

/-- A keyword counts if a gap follows it. -/
def takeKeyword : List Token → Option TagKind × List Token
  | .gap :: ts => takeKeyword ts
  | .word w :: .gap :: ts =>
    match keywordTag? w with
    | some tag => (some tag, ts)
    | none => (none, .word w :: .gap :: ts)
  | ts => (none, ts)

structure NextName where
  isQualified : Bool
  name : List Char
deriving DecidableEq, Repr

structure Base where
  isAnchored : Bool
  first : List Char
  more : List NextName
deriving DecidableEq, Repr

def Base.text (b : Base) : String :=
  String.ofList ((if b.isAnchored then [':', ':'] else []) ++ b.first ++
    b.more.flatMap fun n => (if n.isQualified then [':', ':'] else [' ']) ++ n.name)

def Base.isSpaced (b : Base) : Bool := b.more.any (!·.isQualified)

def takeNames : List Token → List NextName × List Token
  | .colons :: .word w :: ts =>
    if isName w then
      let (more, rest) := takeNames ts
      (⟨true, w⟩ :: more, rest)
    else ([], .colons :: .word w :: ts)
  | .word w :: ts =>
    if isName w then
      let (more, rest) := takeNames ts
      (⟨false, w⟩ :: more, rest)
    else ([], .word w :: ts)
  | ts => ([], ts)

def takeFirst (isAnchored : Bool) : List Token → Option (Base × List Token)
  | .word w :: ts =>
    if isName w then
      let (more, rest) := takeNames ts
      some (⟨isAnchored, w, more⟩, rest)
    else none
  | _ => none

def takeBase : List Token → Option (Base × List Token)
  | .colons :: ts => takeFirst true ts
  | ts => takeFirst false ts

def takeStars : List Token → Nat × List Token
  | .symbol '*' :: ts =>
    let (n, rest) := takeStars ts
    (n + 1, rest)
  | ts => (0, ts)

def bound? (w : List Char) : Option Nat :=
  if w.all Text.isAsciiDigit then
    let n := w.foldl (fun n c => n * 10 + (c.toNat - '0'.toNat)) 0
    if n < addressLimit then some n else none
  else none

def takeBounds : List Token → Option (List Nat)
  | [] => some []
  | .symbol '[' :: .word w :: .symbol ']' :: ts => do
    let n ← bound? w
    return n :: (← takeBounds ts)
  | _ => none

def parse? (ts : List Token) : Option TypeExpression := do
  let (elaborated, ts) := takeKeyword ts
  let (base, ts) ← takeBase (Token.significant ts)
  let (depth, ts) := takeStars ts
  let dimensions ← takeBounds ts
  if elaborated.isSome && base.isSpaced then none
  else some ⟨elaborated, base.text, depth, dimensions⟩

end Query

namespace TypeExpression

def parse (text : String) : Except LayoutError TypeExpression :=
  match Query.parse? (Query.Token.lex text) with
  | some e => .ok e
  | none => .error (.invalidExpression (Text.trim text))

def isNamed (e : TypeExpression) : Bool := e.pointerDepth == 0 && e.dimensions.isEmpty

def text (e : TypeExpression) : String :=
  (match e.elaborated with | some tag => tag.keyword ++ " " | none => "") ++ e.base ++
    String.ofList (List.replicate e.pointerDepth '*') ++
    String.join (e.dimensions.map fun n => s!"[{n}]")

def fundamental? (e : TypeExpression) : Option Fundamental :=
  match e.elaborated with
  | some _ => none
  | none => Fundamental.ofSpelling? e.base

/-- The base, seen from global scope. A keyword looks for tags and has to agree with the one it
finds. -/
def resolveBase (e : TypeExpression) (r : Registry) : Except LayoutError Descriptor :=
  match e.elaborated with
  | some keyword => do
    let id ← r.findTag .global e.base
    if (r.tagOf? id).any (·.compatible keyword) then pure (.named id)
    else .error (.unknownType (keyword.keyword ++ " " ++ e.base))
  | none =>
    match e.fundamental? with
    | some kind => .ok (.fundamental kind)
    | none => .named <$> r.find .global e.base

def pointers : Nat → Descriptor → Descriptor
  | 0, d => d
  | n + 1, d => .pointer (pointers n d)

def arrays (dimensions : List Nat) (d : Descriptor) : Descriptor :=
  dimensions.foldr (fun n d => .array d n) d

def resolve (e : TypeExpression) (r : Registry) : Except LayoutError Descriptor :=
  (e.resolveBase r).map fun d => arrays e.dimensions (pointers e.pointerDepth d)

end TypeExpression

end TypeLayout
