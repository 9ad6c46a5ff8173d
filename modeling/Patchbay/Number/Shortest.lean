import Patchbay.Number.Binary

namespace Patchbay.Number

/-! The shortest decimal that reads back as a given binary number.

The reals that round to `significand · 2 ^ exponent` form an interval around it,
whose ends belong to it exactly when the significand is even.  For one, two,
three, … digits the two neighbours of the number on that decimal grid are tried;
the first grid with a neighbour inside the interval wins, the nearer of two
neighbours is taken, and a tie goes to the even one.
-/

/-- The decimal `0.d₁d₂…dₙ · 10 ^ point`. -/
structure Decimal where
  digits : List Char
  point : Int
deriving DecidableEq, Repr

/-- A positive number with the interval that rounds to it, over one denominator. -/
structure Neighbourhood where
  low : Nat
  value : Nat
  high : Nat
  denominator : Nat
  closed : Bool
deriving Repr

def neighbourhood (format : Format) (significand : Nat) (exponent : Int) : Neighbourhood :=
  let narrow := significand = Nat.pow 2 format.fractionBits && exponent > format.leastExponent
  let below := if narrow then 1 else 2
  let (unit, denominator) := scale 2 exponent 1 4
  { low := (4 * significand - below) * unit
    value := 4 * significand * unit
    high := (4 * significand + 2) * unit
    denominator := denominator
    closed := significand % 2 == 0 }

namespace Neighbourhood

/-- The power of ten right above the number: `10 ^ (p - 1) ≤ value < 10 ^ p`. -/
def point (area : Neighbourhood) : Int :=
  let whole := area.value / area.denominator
  if whole > 0 then (Nat.toDigits 10 whole).length
  else
    let ratio := (area.denominator + area.value - 1) / area.value
    1 - ((Nat.toDigits 10 (ratio - 1)).length : Int)

/-- The number, its interval and a grid of step `10 ^ step` over one denominator: the number of
steps below the value, and the interval and value counted in steps. -/
def onGrid (area : Neighbourhood) (step : Int) : Neighbourhood :=
  let (up, down) := scale 10 (-step) 1 1
  { area with
    low := area.low * up, value := area.value * up, high := area.high * up
    denominator := area.denominator * down }

def admits (area : Neighbourhood) (count : Nat) : Bool :=
  let reach := count * area.denominator
  if area.closed then area.low ≤ reach && reach ≤ area.high
  else area.low < reach && reach < area.high

/-- The neighbour of the value on the unit grid that is taken, if one reads back. -/
def pick? (area : Neighbourhood) : Option Nat :=
  let below := area.value / area.denominator
  match area.admits below, area.admits (below + 1) with
  | true, true => some (roundDiv area.value area.denominator)
  | true, false => some below
  | false, true => some (below + 1)
  | false, false => none

end Neighbourhood

def stripZeros (digits : List Char) : List Char :=
  (digits.reverse.dropWhile (· == '0')).reverse

/-- The decimal with the given digits counted in steps of `10 ^ step`. -/
def Decimal.ofSteps (count : Nat) (step : Int) : Decimal :=
  let digits := Nat.toDigits 10 count
  ⟨stripZeros digits, digits.length + step⟩

/-- No double needs more than seventeen digits to be told from all others. -/
def mostDigits : Nat := 17

def shortest (format : Format) (significand : Nat) (exponent : Int) : Decimal :=
  if significand = 0 then ⟨[], 0⟩
  else
    let area := neighbourhood format significand exponent
    let point := area.point
    let found := (List.range mostDigits).findSome? fun (index : Nat) =>
      let step := point - (index + 1)
      ((area.onGrid step).pick?).map fun count => Decimal.ofSteps count step
    found.getD ⟨[], 0⟩

end Patchbay.Number
