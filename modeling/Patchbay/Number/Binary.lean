namespace Patchbay.Number

/-! Binary floating-point numbers as exact integers.

`decode` opens the bit pattern of a number into a significand and a power of
two; `roundRatio` goes the other way and gives the pattern nearest to a quotient
of two naturals, a tie going to the even significand.  Both work on naturals
only, so what they do can be computed and reasoned about exactly.
-/

structure Format where
  fractionBits : Nat
  exponentBits : Nat
deriving DecidableEq, Repr

namespace Format

def double : Format := ⟨52, 11⟩

def single : Format := ⟨23, 8⟩

/-- The exponent field of infinities and of patterns that are no number. -/
def topField (format : Format) : Nat := Nat.pow 2 format.exponentBits - 1

/-- The power of two that the last place of the smallest numbers stands for. -/
def leastExponent (format : Format) : Int :=
  2 - Int.ofNat (Nat.pow 2 (format.exponentBits - 1)) - format.fractionBits

end Format

/-- What a bit pattern stands for; a finite one is `significand · 2 ^ exponent`. -/
inductive Binary where
  | notANumber
  | infinite (negative : Bool)
  | finite (negative : Bool) (significand : Nat) (exponent : Int)
deriving DecidableEq, Repr

def decode (format : Format) (bits : Nat) : Binary :=
  let fraction := bits % Nat.pow 2 format.fractionBits
  let field := bits / Nat.pow 2 format.fractionBits % Nat.pow 2 format.exponentBits
  let negative := bits / Nat.pow 2 (format.fractionBits + format.exponentBits) % 2 == 1
  if field = format.topField then
    if fraction = 0 then .infinite negative else .notANumber
  else if field = 0 then .finite negative fraction format.leastExponent
  else .finite negative (fraction + Nat.pow 2 format.fractionBits)
    (format.leastExponent + field - 1)

/-- The quotient rounded to a natural, a tie going to the even neighbour. -/
def roundDiv (numerator denominator : Nat) : Nat :=
  let quotient := numerator / denominator
  let twice := 2 * (numerator % denominator)
  if twice > denominator || (twice == denominator && quotient % 2 == 1) then quotient + 1
  else quotient

/-- `base ^ exponent` split over a fraction: a negative exponent goes below the line. -/
def scale (base : Nat) (exponent : Int) (numerator denominator : Nat) : Nat × Nat :=
  match exponent with
  | .ofNat up => (numerator * Nat.pow base up, denominator)
  | .negSucc down => (numerator, denominator * Nat.pow base (down + 1))

/-- The largest power of two that is at most a positive quotient. -/
def floorLog2 (numerator denominator : Nat) : Int :=
  let guess : Int := (numerator.log2 : Int) - denominator.log2
  let (top, bottom) := scale 2 (-guess) numerator denominator
  if bottom ≤ top then guess else guess - 1

/-- The bit pattern, without sign, nearest to a quotient; `none` when that is out of range. -/
def roundRatio (format : Format) (numerator denominator : Nat) : Option Nat :=
  if numerator = 0 then some 0
  else
    let exponent := max format.leastExponent
      (floorLog2 numerator denominator - format.fractionBits)
    let (top, bottom) := scale 2 (-exponent) numerator denominator
    let bits := (exponent - format.leastExponent).toNat * Nat.pow 2 format.fractionBits +
      roundDiv top bottom
    if bits < format.topField * Nat.pow 2 format.fractionBits then some bits else none

def ofDouble (value : Float) : Binary := decode .double value.toBits.toNat

def ofSingle (value : Float32) : Binary := decode .single value.toBits.toNat

def isNotANumber (value : Float) : Bool := ofDouble value == .notANumber

/-- A number that grows with a double: below all others what is not a number, and one for both
zeros. -/
def rank (value : Float) : Int :=
  let bits := value.toBits.toNat
  let magnitude := Int.ofNat (bits % Nat.pow 2 63)
  if isNotANumber value then -Int.ofNat (Nat.pow 2 63)
  else if bits < Nat.pow 2 63 then magnitude
  else -magnitude

/-- The double with the given sign and unsigned pattern. -/
def doubleOfBits (negative : Bool) (bits : Nat) : Float :=
  Float.ofBits (UInt64.ofNat (if negative then bits + Nat.pow 2 63 else bits))

def infinityOf (negative : Bool) : Float :=
  doubleOfBits negative (Format.double.topField * Nat.pow 2 Format.double.fractionBits)

def notANumber : Float :=
  doubleOfBits false
    (Format.double.topField * Nat.pow 2 Format.double.fractionBits + Nat.pow 2 51 + 1)

/-- The integer that is left of a finite double when its fraction is dropped. -/
def truncate? (value : Float) : Option Int :=
  match ofDouble value with
  | .finite negative significand exponent =>
      let (top, bottom) := scale 2 exponent significand 1
      let size : Int := top / bottom
      some (if negative then -size else size)
  | _ => none

/-- The double nearest to an integer. -/
def doubleOfInt (value : Int) : Float :=
  match roundRatio .double value.natAbs 1 with
  | some bits => doubleOfBits (value < 0) bits
  | none => infinityOf (value < 0)

end Patchbay.Number
