import TypeLayout.Json.Skip
/-! Reading values of a known shape, from the text or from a value that was read before. -/

namespace TypeLayout.Json

abbrev Shape (α : Type) := Json → Except Mismatch α

namespace Shape

variable {α σ : Type}

def string : Shape String
  | .string s => .ok s
  | j => .error (.invalidType j.label "a string")

def bool : Shape Bool
  | .bool b => .ok b
  | j => .error (.invalidType j.label "a boolean")

def natural (limit : Nat) (name : String) : Shape Nat
  | .natural n =>
    if n < limit then .ok n else .error (.invalidValue (Json.label (.natural n)) name)
  | .negative n => .error (.invalidValue (Json.label (.negative n)) name)
  | j => .error (.invalidType j.label name)

def word64 : Shape Nat := natural 0x10000000000000000 "u64"

def word32 : Shape Nat := natural 0x100000000 "u32"

/-- `null` is the absent value. -/
def option (shape : Shape α) : Shape (Option α)
  | .null => .ok none
  | j => some <$> shape j

def list (shape : Shape α) : Shape (List α)
  | .array items => items.mapM shape
  | j => .error (.invalidType j.label "a sequence")

def named (table : List (String × α)) (name : String) : Except Mismatch α :=
  match table.lookup name with
  | some a => .ok a
  | none => .error (.unknownVariant name (table.map (·.1)))

def variant (table : List (String × α)) : Shape α
  | .string s => named table s
  | j => .error (.invalidType j.label "variant identifier")

/-- A name in a table, written as a string or as the only key of an object that holds nothing. -/
def choice (table : List (String × α)) : Shape α
  | .string s => named table s
  | .object [(key, content)] => do
    let a ← named table key
    match content with
    | .null | .object [] => pure a
    | j => .error (.invalidType j.label "unit")
  | .object _ => .error (.invalidValue "map" "map with a single key")
  | j => .error (.invalidType j.label "string or map")

def fill (name : String) (slot : Option α) (read : Except Mismatch α) :
    Except Mismatch (Option α) :=
  match slot with
  | some _ => .error (.duplicateField name)
  | none => some <$> read

def required (name : String) : Option α → Except Mismatch α
  | some a => .ok a
  | none => .error (.missingField name)

def members (step : String → Json → σ → Except Mismatch σ) (ms : List (String × Json)) (s : σ) :
    Except Mismatch σ :=
  ms.foldlM (fun s m => step m.1 m.2 s) s

def countedIn (n : Nat) : String :=
  toString n ++ (if n = 1 then " element" else " elements") ++ " in sequence"

/-- Fields by position; more values than names are refused once all fields are read. -/
def positions (names : List String) (step : String → Json → σ → Except Mismatch σ)
    (items : List Json) (s : σ) : Except Mismatch σ :=
  (names.zip items).foldlM (fun s m => step m.1 m.2 s) s

def noMore (names : List String) (items : List Json) : Except Mismatch Unit :=
  if names.length < items.length then
    .error (.invalidLength items.length (countedIn names.length))
  else .ok ()

/-- What makes a record of fields: the names in order, how many of them a list has to give, how a
field is read, and how the fields are put together. -/
structure Fields (σ α : Type) where
  expected : String
  names : List String
  needed : Nat
  start : σ
  step : String → Json → σ → Except Mismatch σ
  finish : σ → Except Mismatch α

def Fields.arity (f : Fields σ α) : String :=
  f.expected ++ " with " ++ toString f.names.length ++
    (if f.names.length = 1 then " element" else " elements")

def Fields.ofMembers (f : Fields σ α) (ms : List (String × Json)) : Except Mismatch α := do
  f.finish (← members f.step ms f.start)

def Fields.ofItems (f : Fields σ α) (items : List Json) : Except Mismatch α := do
  let s ← positions f.names f.step items f.start
  if items.length < f.needed then .error (.invalidLength items.length f.arity)
  else
    let a ← f.finish s
    noMore f.names items
    pure a

def Fields.read (f : Fields σ α) : Shape α
  | .object ms => f.ofMembers ms
  | .array items => f.ofItems items
  | j => .error (.invalidType j.label f.expected)

end Shape

namespace Reader

variable {α σ : Type}

def scalar (shape : Shape α) : Reader α := placed do
  match ← peek with
  | none => failPeek (.endsEarly .inValue)
  | some c => ofMismatch (shape (← dispatch c (pure (.array [])) (pure (.object []))))

def optional (x : Reader α) : Reader (Option α) := do
  match ← peek with
  | some 'n' =>
    drop
    finishWord ['u', 'l', 'l']
    pure none
  | _ => some <$> x

def soleKey (shape : Shape α) : Reader α := do
  match ← peek with
  | some '"' => scalar shape
  | some '}' => failPeek (.malformed .expectedValue)
  | some _ => failPeek (.malformed .keyNotString)
  | none => failPeek (.endsEarly .inObject)

def choice (depth : Nat) (table : List (String × α)) : Reader α := do
  match ← peek with
  | none => failPeek (.endsEarly .inValue)
  | some '"' => scalar (Shape.variant table)
  | some '{' =>
    match depth with
    | 0 => failPeek (.malformed .tooDeep)
    | _ + 1 => do
      drop
      let a ← soleKey (Shape.variant table)
      colon
      scalar unit
      match ← peek with
      | some '}' => drop; pure a
      | some _ => fail (.malformed .expectedValue)
      | none => fail (.endsEarly .inObject)
  | some _ => failPeek (.malformed .expectedValue)
where
  unit : Shape Unit
    | .null => .ok ()
    | j => .error (.invalidType j.label "unit")

structure Record (σ α : Type) where
  expected : String
  names : List String
  needed : Nat
  start : σ
  isGiven : String → σ → Bool
  step : Nat → String → σ → Reader σ
  finish : σ → Except Mismatch α

def Record.member (r : Record σ α) (depth : Nat) (key : String) (s : σ) : Reader σ :=
  if r.names.contains key then
    if r.isGiven key s then failMismatch (.duplicateField key)
    else do
      colon
      r.step depth key s
  else do
    colon
    skip
    pure s

def Record.items (r : Record σ α) (depth : Nat) : List String → Bool → Nat → σ → Reader σ
  | [], _, _, s => pure s
  | name :: names, isFirst, given, s => do
    if ← hasElement isFirst then
      r.items depth names false (given + 1) (← r.step depth name s)
    else if given < r.needed then
      failMismatch (.invalidLength given (Shape.Fields.arity
        { expected := r.expected, names := r.names, needed := r.needed, start := (),
          step := fun _ _ _ => .ok (), finish := fun _ => .ok () }))
    else pure s

def Record.read (r : Record σ α) (depth : Nat) : Reader α := placed do
  match ← peek with
  | some '{' =>
    object depth fun inner => do
      ofMismatch (r.finish (← foldMembers (r.member inner) r.start))
  | some '[' =>
    array depth fun inner => do
      ofMismatch (r.finish (← r.items inner r.names true 0 r.start))
  | _ => misplaced r.expected

/-- A list; its elements place no mismatch of their own. -/
def list (item : Nat → Reader α) (depth : Nat) : Reader (List α) := placed do
  match ← peek with
  | some '[' =>
    array depth fun inner => do
      let items ← foldElements (fun items => do return (← item inner) :: items) []
      pure items.reverse
  | _ => misplaced "a sequence"

end Reader

end TypeLayout.Json
