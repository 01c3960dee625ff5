import TypeLayout.Json.Value
/-! The binary number a decimal stands for, and the text of such a number: the shortest decimal that
reads back as it. Binary numbers have 53 bits and an exponent of at least -1074. -/

namespace TypeLayout.Decimal

structure Ratio where
  num : Nat
  den : Nat

structure Binary where
  mantissa : Nat
  exponent : Int
deriving DecidableEq, Repr

namespace Ratio

def power (base : Nat) (e : Int) : Ratio :=
  if 0 ≤ e then ⟨base.pow e.toNat, 1⟩ else ⟨1, base.pow (-e).toNat⟩

def mul (r s : Ratio) : Ratio := ⟨r.num * s.num, r.den * s.den⟩

def div (r s : Ratio) : Ratio := ⟨r.num * s.den, r.den * s.num⟩

def round (r : Ratio) : Nat :=
  let q := r.num / r.den
  let rest := r.num % r.den
  if 2 * rest < r.den then q
  else if 2 * rest > r.den then q + 1
  else if q % 2 = 0 then q else q + 1

def roundAway (r : Ratio) : Nat :=
  let q := r.num / r.den
  if r.round = q then q + 1 else q

def magnitude (r : Ratio) : Int :=
  let guess : Int := (r.num.log2 : Int) - (r.den.log2 : Int)
  let p := power 2 guess
  if p.num * r.den ≤ r.num * p.den then guess else guess - 1

/-- The nearest binary number, ties to an even mantissa. -/
def binary (r : Ratio) : Binary :=
  let e := max (r.magnitude - 52) (-1074)
  let m := (r.div (power 2 e)).round
  if m = 0x20000000000000 then ⟨0x10000000000000, e + 1⟩ else ⟨m, e⟩

end Ratio

namespace Binary

def ratio (b : Binary) : Ratio := Ratio.mul ⟨b.mantissa, 1⟩ (.power 2 b.exponent)

def ofScientific (significand : Nat) (exponent : Int) : Binary :=
  (Ratio.mul ⟨significand, 1⟩ (.power 10 exponent)).binary

def isZero (b : Binary) : Bool := b.mantissa == 0

def isFinite (b : Binary) : Bool := b.exponent ≤ 971

/-- Divided by `10 ^ n`, by at most `10 ^ 308` at a time, rounding each time. -/
def scaleDown (b : Binary) (n : Nat) : Binary :=
  let by10 (k : Nat) : Binary := (b.ratio.div (ofScientific 1 k).ratio).binary
  if n ≤ 308 then by10 n
  else if b.isZero then b
  else scaleDown (by10 308) (n - 308)
termination_by n

def scaleUp (b : Binary) (n : Nat) : Binary := (b.ratio.mul (ofScientific 1 n).ratio).binary

def onGrid? (b : Binary) (e : Int) : Option Nat :=
  let r := b.ratio.div (.power 10 e)
  [r.round, r.roundAway].find? fun s => s ≠ 0 && ofScientific s e == b

/-- The coarsest of the decimal grids that reads back, from `e` down. -/
def shortestFrom (b : Binary) : Nat → Int → Nat × Int
  | 0, e => ((b.ratio.div (.power 10 e)).round, e)
  | n + 1, e =>
    match b.onGrid? e with
    | some s => (s, e)
    | none => b.shortestFrom n (e - 1)

/-- The shortest digits and their power of ten. The search starts above `b` and ends within twenty
steps or so. -/
def shortest (b : Binary) : Nat × Int :=
  let width : Int := (toString b.ratio.num).length
  let down : Nat := (-b.exponent).toNat * 30103 / 100000
  b.shortestFrom 400 (width - (down : Int) + 1)

end Binary

def binary (d : Decimal) : Binary :=
  let b := Binary.ofScientific d.significand 0
  if d.exponent < 0 then b.scaleDown (-d.exponent).toNat
  else if b.isZero then b
  else b.scaleUp d.exponent.toNat

def overflows (d : Decimal) : Bool :=
  d.significand ≠ 0 && (308 < d.exponent || !d.binary.isFinite)

def zeros (n : Nat) : String := String.ofList (List.replicate n '0')

def exponentText (e : Int) : String := (if 0 ≤ e then "e+" else "e") ++ toString e

/-- Positional while the point falls after at most 16 digits or before five zeros. -/
def layOut (digits : String) (exponent : Int) : String :=
  let point := exponent + digits.length
  if 0 ≤ exponent ∧ point ≤ 16 then digits ++ zeros exponent.toNat ++ ".0"
  else if 0 < point ∧ point ≤ 16 then
    String.ofList (digits.toList.take point.toNat) ++ "." ++
      String.ofList (digits.toList.drop point.toNat)
  else if -5 < point ∧ point ≤ 0 then "0." ++ zeros (-point).toNat ++ digits
  else match digits.toList with
    | [d] => String.ofList [d] ++ exponentText (point - 1)
    | d :: ds => String.ofList [d] ++ "." ++ String.ofList ds ++ exponentText (point - 1)
    | [] => digits

def text (d : Decimal) : String :=
  let sign := if d.isNegative then "-" else ""
  let b := d.binary
  if b.isZero then sign ++ "0.0"
  else
    let (s, e) := b.shortest
    sign ++ layOut (toString s) e

end TypeLayout.Decimal
