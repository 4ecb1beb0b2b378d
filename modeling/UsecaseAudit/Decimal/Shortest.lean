/-!
# Shortest decimals

A binary number stands for every real number that rounds to it.  Its shortest
decimal is the one with the fewest digits among those reals, and of two such
the nearer.

The reals that round to `m · 2^e` form an interval: half a step up, and half a
step down, where the step below a power of two is half as large.  The ends
belong to the interval when `m` is even.  All arithmetic is on natural numbers:
the number, the ends of the interval and a point of the decimal grid are
brought to a common unit.
-/

namespace UsecaseAudit

/-- A positive binary number `mantissa · 2^exponent`, with the size of the step below it. -/
structure Binary where
  mantissa : Nat
  exponent : Int
  /-- The number is the least of its binade and the step below it is half a step. -/
  narrowBelow : Bool
  deriving DecidableEq, Repr

structure Decimal where
  digits : Nat
  exponent : Int
  deriving DecidableEq, Repr

namespace Decimal

def power (base : Nat) (n : Int) : Nat :=
  Nat.pow base n.toNat

/-- A binary number and the ends of its interval, as numerators over one denominator. -/
structure Interval where
  low : Nat
  value : Nat
  high : Nat
  denominator : Nat
  closed : Bool

def Interval.ofBinary (b : Binary) : Interval :=
  let unit := power 2 (b.exponent - 2)
  { low := (4 * b.mantissa - if b.narrowBelow then 1 else 2) * unit
    value := 4 * b.mantissa * unit
    high := (4 * b.mantissa + 2) * unit
    denominator := power 2 (2 - b.exponent)
    closed := b.mantissa % 2 == 0 }

def digitCount (n : Nat) : Nat :=
  (Nat.toDigits 10 n).length

/-- How many zeros follow the point before the first digit of `value / denominator`. -/
def leadingZeros (denominator : Nat) : (fuel : Nat) → (value : Nat) → Nat
  | 0, _ => 0
  | fuel + 1, value =>
      if denominator ≤ value * 10 then 0 else leadingZeros denominator fuel (value * 10) + 1

/-- The power of ten just above a number: `10^(p-1) ≤ value / denominator < 10^p`. -/
def magnitude (value denominator : Nat) : Int :=
  if denominator ≤ value then Int.ofNat (digitCount (value / denominator))
  else - Int.ofNat (leadingZeros denominator 400 value)

def within (closed : Bool) (low high point : Nat) : Bool :=
  if closed then decide (low ≤ point) && decide (point ≤ high)
  else decide (low < point) && decide (point < high)

def distance (a b : Nat) : Nat :=
  (a - b) + (b - a)

/-- The point nearest to the number on the grid of `10^exponent`, if it lies in the interval. -/
def onGrid? (i : Interval) (exponent : Int) : Option Decimal :=
  let scale := power 10 (-exponent)
  let unit := i.denominator * power 10 exponent
  let value := i.value * scale
  let below := value / unit
  let fits (n : Nat) : Bool := within i.closed (i.low * scale) (i.high * scale) (n * unit)
  let nearer : Nat :=
    let down := distance value (below * unit)
    let up := distance value ((below + 1) * unit)
    if down < up then below
    else if up < down then below + 1
    else if below % 2 == 0 then below else below + 1
  if fits below && fits (below + 1) then some ⟨nearer, exponent⟩
  else if fits below then some ⟨below, exponent⟩
  else if fits (below + 1) then some ⟨below + 1, exponent⟩
  else none

def strip : (fuel : Nat) → Decimal → Decimal
  | 0, d => d
  | fuel + 1, d =>
      if d.digits ≠ 0 ∧ d.digits % 10 = 0 then strip fuel ⟨d.digits / 10, d.exponent + 1⟩ else d

/-- The shortest decimal that rounds to a positive binary number. -/
def shortest (b : Binary) : Decimal :=
  let i := Interval.ofBinary b
  let p := magnitude i.value i.denominator
  let found := (List.range 17).findSome? fun n => onGrid? i (p - Int.ofNat (n + 1))
  strip 20 (found.getD ⟨0, 0⟩)

/-!
# Floating-point numbers
-/

inductive FloatClass where
  | nan
  | infinite (negative : Bool)
  | zero (negative : Bool)
  | finite (negative : Bool) (value : Binary)
  deriving DecidableEq, Repr

def classify (bits : Nat) : FloatClass :=
  let negative := bits.testBit 63
  let exponent := bits / power 2 52 % 2048
  let fraction := bits % power 2 52
  if exponent = 2047 then
    if fraction = 0 then .infinite negative else .nan
  else if exponent = 0 then
    if fraction = 0 then .zero negative else .finite negative ⟨fraction, -1074, false⟩
  else
    .finite negative
      ⟨fraction + power 2 52, Int.ofNat exponent - 1075, fraction = 0 && decide (1 < exponent)⟩

/-!
# Writing a decimal
-/

def zeros (n : Nat) : String :=
  String.ofList (List.replicate n '0')

def positional (digits : String) (point : Int) : String :=
  let count := digits.length
  if point ≤ 0 then
    "0." ++ zeros (-point).toNat ++ digits
  else if count ≤ point.toNat then
    digits ++ zeros (point.toNat - count) ++ ".0"
  else
    String.ofList (digits.toList.take point.toNat) ++ "."
      ++ String.ofList (digits.toList.drop point.toNat)

def exponentText (n : Int) : String :=
  let size := toString n.natAbs
  (if n < 0 then "-" else "+") ++ (if size.length < 2 then "0" else "") ++ size

def scientific (digits : String) (point : Int) : String :=
  match digits.toList with
  | [] => ""
  | [d] => String.ofList [d] ++ "e" ++ exponentText (point - 1)
  | d :: rest => String.ofList (d :: '.' :: rest) ++ "e" ++ exponentText (point - 1)

/-- Numbers from `10^-4` up to `10^16` are written positionally, all others with an exponent. -/
def text (d : Decimal) : String :=
  let digits := toString d.digits
  let point := Int.ofNat digits.length + d.exponent
  if -4 < point ∧ point ≤ 16 then positional digits point else scientific digits point

def sign (negative : Bool) : String :=
  if negative then "-" else ""

/-- The text of a floating-point number: the fewest digits that read back. -/
def ofFloat (x : Float) : String :=
  match classify x.toBits.toNat with
  | .nan => "nan"
  | .infinite negative => sign negative ++ "inf"
  | .zero negative => sign negative ++ "0.0"
  | .finite negative value => sign negative ++ text (shortest value)

end Decimal
end UsecaseAudit
