/-! JSON values. Objects keep their members in the order of the text, repeated keys included;
numbers keep the decimal that was written. -/

namespace TypeLayout

structure Decimal where
  isNegative : Bool
  significand : Nat
  exponent : Int
deriving DecidableEq, Repr

inductive Json
  | null
  | bool (value : Bool)
  | natural (value : Nat)
  | negative (distance : Nat)
  | real (value : Decimal)
  | string (value : String)
  | array (items : List Json)
  | object (members : List (String × Json))

namespace Json

instance : Inhabited Json := ⟨.null⟩

mutual

def depth : Json → Nat
  | .array items => itemsDepth items + 1
  | .object members => membersDepth members + 1
  | _ => 0

def itemsDepth : List Json → Nat
  | [] => 0
  | j :: js => max j.depth (itemsDepth js)

def membersDepth : List (String × Json) → Nat
  | [] => 0
  | (_, j) :: ms => max j.depth (membersDepth ms)

end

/-- Insert a member before the first larger key; a key that is there is replaced. -/
def insertMember (key : String) (j : Json) : List (String × Json) → List (String × Json)
  | [] => [(key, j)]
  | (k, v) :: ms =>
    if key = k then (key, j) :: ms
    else if key < k then (key, j) :: (k, v) :: ms
    else (k, v) :: insertMember key j ms

def sortedObject (members : List (String × Json)) : Json :=
  .object (members.foldl (fun ms m => insertMember m.1 m.2 ms) [])

def get? (key : String) : Json → Option Json
  | .object members => members.lookup key
  | _ => none

end Json

end TypeLayout
